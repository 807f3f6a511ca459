/- OrbisAgent/Lib/Simulation
   generality: G
   digest: Forward simulation between labelled transition functions, for an observer who sees
   some of the labels. -/

import OrbisAgent.Lib.Transition

set_option autoImplicit false
set_option relaxedAutoImplicit false

namespace OrbisAgent.Lib.Simulation

open OrbisAgent.Lib.Transition

universe u v w x y

variable {σ : Type u} {α : Type v} {τ : Type w} {β : Type x} {ε : Type y}

theorem exec_append {step : σ → α → Option σ} {s t u : σ} {as bs : List α}
    (first : exec step s as = some t) (second : exec step t bs = some u) :
    exec step s (as ++ bs) = some u := by
  induction as generalizing s with
  | nil =>
      obtain rfl := Option.some.inj first
      exact second
  | cons a as ih =>
      obtain ⟨r, move, rest⟩ := Option.bind_eq_some_iff.mp first
      exact Option.bind_eq_some_iff.mpr ⟨r, move, ih rest⟩

/-- Every step between states that have a counterpart is matched by a run of the
specification that looks the same. `sees` and `shows` are what an observer sees of a label. -/
def Simulates (step : σ → α → Option σ) (spec : τ → β → Option τ) (sees : α → Option ε)
    (shows : β → Option ε) (R : σ → τ → Prop) : Prop :=
  ∀ s t a s', R s t → step s a = some s' →
    ∃ bs t', exec spec t bs = some t' ∧ bs.filterMap shows = (sees a).toList ∧ R s' t'

variable {step : σ → α → Option σ} {spec : τ → β → Option τ} {sees : α → Option ε}
  {shows : β → Option ε} {R : σ → τ → Prop}

/-- What an observer sees of a run is seen of a run of the specification, which ends in a
counterpart of the same state. -/
theorem Simulates.exec (simulates : Simulates step spec sees shows R) {s s' : σ} {t : τ}
    {as : List α} (related : R s t) (run : exec step s as = some s') :
    ∃ bs t', Transition.exec spec t bs = some t' ∧
      bs.filterMap shows = as.filterMap sees ∧ R s' t' := by
  induction as generalizing s t with
  | nil =>
      obtain rfl := Option.some.inj run
      exact ⟨[], t, rfl, rfl, related⟩
  | cons a as ih =>
      obtain ⟨r, move, rest⟩ := Option.bind_eq_some_iff.mp run
      obtain ⟨bs, q, matched, same, between⟩ := simulates s t a r related move
      obtain ⟨cs, t', later, sameLater, last⟩ := ih between rest
      refine ⟨bs ++ cs, t', exec_append matched later, ?_, last⟩
      rw [List.filterMap_append, same, sameLater]
      cases seen : sees a with
      | none => rw [List.filterMap_cons_none seen, Option.toList_none, List.nil_append]
      | some e => rw [List.filterMap_cons_some seen, Option.toList_some, List.singleton_append]

/-- A hidden step that has the same counterpart before and after needs no step. -/
theorem matched_by_nothing {a : α} {s' : σ} {t : τ} (hidden : sees a = none) (related : R s' t) :
    ∃ bs t', exec spec t bs = some t' ∧ bs.filterMap shows = (sees a).toList ∧ R s' t' :=
  ⟨[], t, rfl, by rw [hidden]; rfl, related⟩

/-- A step can be matched by one step that looks the same. -/
theorem matched_by_one {a : α} {s' : σ} {t t' : τ} (b : β) (move : spec t b = some t')
    (same : shows b = sees a) (related : R s' t') :
    ∃ bs t', exec spec t bs = some t' ∧ bs.filterMap shows = (sees a).toList ∧ R s' t' := by
  refine ⟨[b], t', Option.bind_eq_some_iff.mpr ⟨t', move, rfl⟩, ?_, related⟩
  cases seen : sees a with
  | none => rw [List.filterMap_cons_none (same.trans seen)]; rfl
  | some e => rw [List.filterMap_cons_some (same.trans seen)]; rfl

end OrbisAgent.Lib.Simulation
