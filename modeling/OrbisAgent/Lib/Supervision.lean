/- OrbisAgent/Lib/Supervision
   generality: G
   digest: Services that one thread starts, watches and stops while each runs a thread of its own,
   and steps that are counted against a rank. -/

import OrbisAgent.Lib.Transition

set_option autoImplicit false
set_option relaxedAutoImplicit false

namespace OrbisAgent.Lib.Supervision

open OrbisAgent.Lib.Transition

universe u v

/-- Whose step it is: the service's own thread, some other thread, or the supervisor, which makes
the calls that start and stop the service and goes through them. -/
inductive Role
  | own
  | other
  | opens
  | closes
  | inner
  deriving DecidableEq

/-- The call that the supervisor is in. -/
inductive Phase
  | idle
  | starting
  | stopping
  deriving DecidableEq

/-- A service with the rules of its thread: it has one exactly between the two calls, and that one
does not end by itself. `Sound` is the invariant that its steps keep. -/
structure Service (σ : Type u) (α : Type v) where
  step : σ → α → Option σ
  role : α → Role
  phase : σ → Phase
  running : σ → Bool
  joined : σ → Bool
  ended : σ → Bool
  Sound : σ → Prop
  sound_step : ∀ {s t a}, Sound s → step s a = some t → Sound t
  watched : ∀ {s}, Sound s → phase s = .idle → running s = !joined s
  lively : ∀ {s}, Sound s → phase s = .idle → joined s = false → ended s = false
  bystander : ∀ {s t a}, role a = .own ∨ role a = .other → step s a = some t →
    phase t = phase s ∧ joined t = joined s
  opens : ∀ {s t a}, role a = .opens → step s a = some t →
    phase s = .idle ∧ (phase t = .starting ∨ t = s ∧ running s = true)
  closes : ∀ {s t a}, role a = .closes → step s a = some t →
    phase s = .idle ∧ phase t = .stopping
  inner : ∀ {s t a}, Sound s → role a = .inner → step s a = some t →
    phase s ≠ .idle ∧ (phase t = phase s ∨ phase t = .idle ∧
      (phase s = .starting ∧ joined t = false ∨ phase s = .stopping ∧ joined t = true))
  still : ∀ {s a}, Sound s → joined s = true → role a = .own → step s a = none

/-- What the supervisor may count on. Inside a call the service may still be in it or have come to
its end. -/
inductive Progress
  | down
  | starting
  | up
  | stopping
  deriving DecidableEq

variable {σ : Type u} {α : Type v}

namespace Service

def At (v : Service σ α) (s : σ) : Progress → Prop
  | .down => v.phase s = .idle ∧ v.joined s = true
  | .starting => v.phase s = .starting ∨ v.phase s = .idle ∧ v.joined s = false
  | .up => v.phase s = .idle ∧ v.joined s = false
  | .stopping => v.phase s = .stopping ∨ v.phase s = .idle ∧ v.joined s = true

variable (v : Service σ α) {s t : σ} {a : α}

/-- Other threads do not move the supervisor. -/
theorem at_bystander {p : Progress} (here : v.At s p) (role : v.role a = .own ∨ v.role a = .other)
    (next : v.step s a = some t) : v.At t p := by
  obtain ⟨phase, joined⟩ := v.bystander role next
  cases p <;> simp only [At, phase, joined] at here ⊢ <;> exact here

theorem at_opens (sound : v.Sound s) (here : v.At s .down) (role : v.role a = .opens)
    (next : v.step s a = some t) : v.At t .starting := by
  obtain ⟨idle, opened | ⟨-, running⟩⟩ := v.opens role next
  · exact .inl opened
  · have absent := v.watched sound idle
    rw [here.2, running] at absent
    cases absent

theorem at_closes (role : v.role a = .closes) (next : v.step s a = some t) : v.At t .stopping :=
  .inl (v.closes role next).2

theorem at_inner_start (sound : v.Sound s) (here : v.At s .starting) (role : v.role a = .inner)
    (next : v.step s a = some t) : v.At t .starting := by
  obtain ⟨busy, outcome⟩ := v.inner sound role next
  have starting : v.phase s = .starting := here.resolve_right fun up => busy up.1
  rcases outcome with same | ⟨idle, ⟨-, present⟩ | ⟨stopping, -⟩⟩
  · exact .inl (same.trans starting)
  · exact .inr ⟨idle, present⟩
  · rw [starting] at stopping
    cases stopping

theorem at_inner_stop (sound : v.Sound s) (here : v.At s .stopping) (role : v.role a = .inner)
    (next : v.step s a = some t) : v.At t .stopping := by
  obtain ⟨busy, outcome⟩ := v.inner sound role next
  have stopping : v.phase s = .stopping := here.resolve_right fun down => busy down.1
  rcases outcome with same | ⟨idle, ⟨starting, -⟩ | ⟨-, absent⟩⟩
  · exact .inl (same.trans stopping)
  · rw [stopping] at starting
    cases starting
  · exact .inr ⟨idle, absent⟩

/-- The supervisor is back from the call. -/
theorem at_up (here : v.At s .starting) (idle : v.phase s = .idle) : v.At s .up := by
  rcases here with starting | up
  · rw [idle] at starting
    cases starting
  · exact up

theorem at_down (here : v.At s .stopping) (idle : v.phase s = .idle) : v.At s .down := by
  rcases here with stopping | down
  · rw [idle] at stopping
    cases stopping
  · exact down

end Service

/-- How `stop()` comes to its end: what the supervisor and the thread it waits for have still to do,
counted in steps, and that one of them can, unless the thread is in a call that need not come
back. -/
structure Stopping (v : Service σ α) where
  awaited : σ → Bool
  inCall : σ → Bool
  remaining : σ → Nat
  bound : Nat
  bounded : ∀ s, remaining s ≤ bound
  callable : ∀ {s}, v.Sound s → v.phase s = .idle →
    ∃ a t, v.role a = .closes ∧ v.step s a = some t
  waits : ∀ {s}, awaited s = true → v.phase s = .stopping
  idle : ∀ {s}, v.phase s = .idle → remaining s = 0
  counted : ∀ {s t a}, v.Sound s → v.phase s = .stopping → v.step s a = some t →
    remaining t + (if v.role a = .inner ∨ v.role a = .own ∧ awaited s = true then 1 else 0) ≤
      remaining s
  enabled : ∀ {s}, v.Sound s → v.phase s = .stopping → (awaited s = true → inCall s = false) →
    ∃ a t, (v.role a = .inner ∨ v.role a = .own ∧ awaited s = true) ∧ v.step s a = some t

/-- How many of these steps are of the kind. -/
def countSteps (step : σ → α → Option σ) (kind : σ → α → Bool) : σ → List α → Nat
  | _, [] => 0
  | s, a :: as =>
      match step s a with
      | none => 0
      | some t => (if kind s a then 1 else 0) + countSteps step kind t as

/-- Steps of the kind are no more than the rank, if each of them lowers it and no step raises it. -/
theorem countSteps_le {step : σ → α → Option σ} {kind : σ → α → Bool} {I : σ → Prop}
    {rank : σ → Nat} (kept : ∀ s t a, I s → step s a = some t →
      I t ∧ rank t + (if kind s a then 1 else 0) ≤ rank s)
    {s t : σ} {as : List α} (start : I s) (run : exec step s as = some t) :
    I t ∧ rank t + countSteps step kind s as ≤ rank s := by
  induction as generalizing s with
  | nil =>
      obtain rfl := Option.some.inj run
      exact ⟨start, Nat.le_refl _⟩
  | cons a as ih =>
      obtain ⟨r, move, rest⟩ := Option.bind_eq_some_iff.mp run
      obtain ⟨holds, one⟩ := kept s r a start move
      obtain ⟨last, more⟩ := ih holds rest
      refine ⟨last, ?_⟩
      rw [countSteps, move]
      dsimp only
      omega

end OrbisAgent.Lib.Supervision
