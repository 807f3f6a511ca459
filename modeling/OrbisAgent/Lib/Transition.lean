/- OrbisAgent/Lib/Transition
   generality: G
   digest: Partial labelled transition functions, guarded runs, and the invariant rule. -/

import Mathlib.Logic.Relation

set_option autoImplicit false
set_option relaxedAutoImplicit false

namespace OrbisAgent.Lib.Transition

universe u v

variable {σ : Type u} {α : Type v}

/-- Replay labels in order. `none` means that some label was not enabled. -/
def exec (step : σ → α → Option σ) : σ → List α → Option σ
  | s, [] => some s
  | s, a :: as => (step s a).bind fun t => exec step t as

/-- One step whose label satisfies the guard in the state it starts from. -/
def Next (step : σ → α → Option σ) (ok : σ → α → Prop) (s t : σ) : Prop :=
  ∃ a, ok s a ∧ step s a = some t

/-- States reached by runs all of whose steps satisfy the guard. -/
def Reaches (step : σ → α → Option σ) (ok : σ → α → Prop) : σ → σ → Prop :=
  Relation.ReflTransGen (Next step ok)

/-- The guard of an unrestricted run. -/
def anyStep (_ : σ) (_ : α) : Prop := True

/-- The transition function cut down to the labels that satisfy the guard. -/
def guarded (step : σ → α → Option σ) (ok : σ → α → Prop) [∀ s a, Decidable (ok s a)]
    (s : σ) (a : α) : Option σ :=
  if ok s a then step s a else none

variable {step : σ → α → Option σ} {ok : σ → α → Prop}

theorem Reaches.single {s t : σ} {a : α} (guard : ok s a) (move : step s a = some t) :
    Reaches step ok s t :=
  Relation.ReflTransGen.single ⟨a, guard, move⟩

theorem Reaches.tail {s t u : σ} {a : α} (run : Reaches step ok s t) (guard : ok t a)
    (move : step t a = some u) : Reaches step ok s u :=
  Relation.ReflTransGen.tail run ⟨a, guard, move⟩

theorem Reaches.trans {s t u : σ} (first : Reaches step ok s t)
    (second : Reaches step ok t u) : Reaches step ok s u :=
  Relation.ReflTransGen.trans first second

/-- A property that holds at the start and is kept by every guarded step holds
in every state that a guarded run reaches. -/
theorem Reaches.invariant {I : σ → Prop} {s t : σ} (run : Reaches step ok s t) (initial : I s)
    (kept : ∀ s t a, I s → ok s a → step s a = some t → I t) : I t := by
  induction run with
  | refl => exact initial
  | tail _ next ih =>
      obtain ⟨a, guard, move⟩ := next
      exact kept _ _ a ih guard move

theorem exec_reaches {s t : σ} {as : List α} (run : exec step s as = some t)
    (guard : ∀ s, ∀ a ∈ as, ok s a) : Reaches step ok s t := by
  induction as generalizing s with
  | nil =>
      obtain rfl := Option.some.inj run
      exact Relation.ReflTransGen.refl
  | cons a as ih =>
      obtain ⟨r, move, rest⟩ := Option.bind_eq_some_iff.mp run
      have tail := ih rest fun s b hb => guard s b (List.mem_cons_of_mem a hb)
      exact (Reaches.single (guard s a List.mem_cons_self) move).trans tail

/-- A successful replay is an unrestricted run. -/
theorem exec_reaches_any {s t : σ} {as : List α} (run : exec step s as = some t) :
    Reaches step anyStep s t :=
  exec_reaches run fun _ _ _ => trivial

/-- The invariant rule for a property that may also speak of the labels so far. -/
theorem exec_invariant {I : List α → σ → Prop} {s t : σ} {as : List α}
    (run : exec step s as = some t) (initial : I [] s)
    (kept : ∀ past s t a, I past s → step s a = some t → I (past ++ [a]) t) : I as t := by
  have goes : ∀ past r, I past r → exec step r as = some t → I (past ++ as) t := by
    clear run initial
    induction as with
    | nil =>
        intro past r holds run
        obtain rfl := Option.some.inj run
        rw [List.append_nil]
        exact holds
    | cons a as ih =>
        intro past r holds run
        obtain ⟨u, move, rest⟩ := Option.bind_eq_some_iff.mp run
        have later := ih (past ++ [a]) u (kept past r u a holds move) rest
        rw [List.append_assoc] at later
        exact later
  exact goes [] s initial run

/-- Labels that change nothing can be left out of a run. -/
theorem exec_filter {keep : α → Bool} {s t : σ} {as : List α}
    (hidden : ∀ s a t, keep a = false → step s a = some t → t = s)
    (run : exec step s as = some t) : exec step s (as.filter keep) = some t := by
  induction as generalizing s with
  | nil => exact run
  | cons a as ih =>
      obtain ⟨u, move, rest⟩ := Option.bind_eq_some_iff.mp run
      cases kept : keep a with
      | true =>
          rw [List.filter_cons_of_pos kept]
          exact Option.bind_eq_some_iff.mpr ⟨u, move, ih rest⟩
      | false =>
          obtain rfl := hidden s a u kept move
          rw [List.filter_cons_of_neg (by rw [kept]; exact Bool.false_ne_true)]
          exact ih rest

/-- A step of the cut-down function is a step whose label satisfies the guard. -/
theorem guarded_eq_some [∀ s a, Decidable (ok s a)] {s t : σ} {a : α}
    (move : guarded step ok s a = some t) : ok s a ∧ step s a = some t := by
  unfold guarded at move
  split at move
  · exact ⟨‹_›, move⟩
  · cases move

/-- A successful replay of the cut-down function is a guarded run. -/
theorem exec_guarded_reaches [∀ s a, Decidable (ok s a)] {s t : σ} {as : List α}
    (run : exec (guarded step ok) s as = some t) : Reaches step ok s t := by
  have cut : Reaches (guarded step ok) anyStep s t := exec_reaches_any run
  refine Relation.ReflTransGen.mono ?_ s t cut
  rintro r u ⟨a, _, move⟩
  exact ⟨a, guarded_eq_some move⟩

section Measure

variable {measure : σ → Nat} (falls : ∀ s a t, step s a = some t → measure t < measure s)

include falls in
/-- A run is no longer than a measure that every step lowers. -/
theorem exec_length_le {s t : σ} {as : List α} (run : exec step s as = some t) :
    as.length + measure t ≤ measure s := by
  induction as generalizing s with
  | nil =>
      obtain rfl := Option.some.inj run
      simp
  | cons a as ih =>
      obtain ⟨r, move, rest⟩ := Option.bind_eq_some_iff.mp run
      have first := falls s a r move
      have later := ih rest
      rw [List.length_cons]
      omega

include falls in
/-- Then some run comes to an end. -/
theorem reaches_end (s : σ) : ∃ t, Reaches step anyStep s t ∧ ∀ a, step t a = none := by
  induction bound : measure s using Nat.strongRecOn generalizing s with
  | ind n ih =>
      by_cases stuck : ∀ a, step s a = none
      · exact ⟨s, Relation.ReflTransGen.refl, stuck⟩
      · obtain ⟨a, enabled⟩ := Classical.not_forall.mp stuck
        obtain ⟨r, move⟩ := Option.ne_none_iff_exists'.mp enabled
        have less := falls s a r move
        obtain ⟨t, run, ended⟩ := ih (measure r) (by omega) r rfl
        have one : Reaches step anyStep s r := Reaches.single trivial move
        exact ⟨t, one.trans run, ended⟩

end Measure

/-- Under a guard that leaves one successor at most, two runs from one state that
both stop end in the same state. -/
theorem Reaches.unique_end (functional : Relator.RightUnique (Next step ok)) {s t u : σ}
    (first : Reaches step ok s t) (second : Reaches step ok s u)
    (firstStops : ∀ r, ¬ Next step ok t r) (secondStops : ∀ r, ¬ Next step ok u r) : t = u := by
  rcases Relation.ReflTransGen.total_of_right_unique functional first second with go | go
  · rcases go.cases_head with same | ⟨r, next, _⟩
    · exact same
    · exact absurd next (firstStops r)
  · rcases go.cases_head with same | ⟨r, next, _⟩
    · exact same.symm
    · exact absurd next (secondStops r)

section Histories

variable {next : σ → α → σ} {P Q : σ → α → Prop}

/-- Every step of a history of a total transition function satisfies `P`. -/
def Along (next : σ → α → σ) (P : σ → α → Prop) : σ → List α → Prop
  | _, [] => True
  | s, a :: as => P s a ∧ Along next P (next s a) as

/-- Step properties that agree on the labels of a history agree along it. -/
theorem Along.congr {as : List α} (same : ∀ s, ∀ a ∈ as, (P s a ↔ Q s a)) (s : σ) :
    Along next P s as ↔ Along next Q s as := by
  induction as generalizing s with
  | nil => exact Iff.rfl
  | cons a as ih =>
      have rest := ih (fun r b mem => same r b (List.mem_cons_of_mem a mem)) (next s a)
      exact and_congr (same s a List.mem_cons_self) rest

end Histories

section Following

variable {choose : Nat → σ → α} {s : σ}

/-- The state after `n` steps when `choose` picks the label of each step. A state in which
the label is not enabled is kept. -/
def follow (step : σ → α → Option σ) (choose : Nat → σ → α) (s : σ) : Nat → σ
  | 0 => s
  | n + 1 =>
      let r := follow step choose s n
      (step r (choose n r)).getD r

theorem follow_succ {n : Nat} {r : σ}
    (move : step (follow step choose s n) (choose n (follow step choose s n)) = some r) :
    follow step choose s (n + 1) = r := by
  simp only [follow]
  rw [move]
  rfl

/-- A measure that falls until the run has stopped makes it stop. -/
theorem follow_stops {stopped : σ → Prop} (measure : σ → Nat)
    (falls : ∀ n, stopped (follow step choose s n) ∨
      measure (follow step choose s (n + 1)) < measure (follow step choose s n)) :
    ∃ n, stopped (follow step choose s n) := by
  have goes : ∀ k n, measure (follow step choose s n) ≤ k →
      ∃ m, stopped (follow step choose s m) := by
    intro k
    induction k with
    | zero =>
        intro n bound
        rcases falls n with stop | less
        · exact ⟨n, stop⟩
        · omega
    | succ k ih =>
        intro n bound
        rcases falls n with stop | less
        · exact ⟨n, stop⟩
        · exact ih (n + 1) (by omega)
  exact goes _ 0 (Nat.le_refl _)

end Following

end OrbisAgent.Lib.Transition
