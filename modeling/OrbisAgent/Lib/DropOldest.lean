/- OrbisAgent/Lib/DropOldest
   generality: G
   digest: A queue that drops its oldest items before it grows too long, what goes in and what
   comes out of it over a whole history. -/

import OrbisAgent.Lib.Transition

set_option autoImplicit false
set_option relaxedAutoImplicit false

namespace OrbisAgent.Lib.DropOldest

open OrbisAgent.Lib.Transition

universe u

variable {μ : Type u}

/-- Put one item behind the others, or take these from the front. -/
inductive Act (μ : Type u)
  | put (m : μ)
  | take (ms : List μ)

section Queue

variable [DecidableEq μ]

/-- `cut n` is how many items are dropped before one is put into a queue of `n`. -/
def step (cut : Nat → Nat) (q : List μ) : Act μ → Option (List μ)
  | .put m => some (q.drop (cut q.length) ++ [m])
  | .take ms => if q.take ms.length = ms then some (q.drop ms.length) else none

end Queue

/-- The items that went in. -/
def ins : List (Act μ) → List μ
  | [] => []
  | .put m :: acts => m :: ins acts
  | .take _ :: acts => ins acts

/-- The items that came out. -/
def outs : List (Act μ) → List μ
  | [] => []
  | .put _ :: acts => outs acts
  | .take ms :: acts => ms ++ outs acts

variable [DecidableEq μ] {cut : Nat → Nat} {q q' : List μ} {acts : List (Act μ)}

theorem step_take {ms : List μ} (move : step cut q (.take ms) = some q') : q = ms ++ q' := by
  by_cases front : q.take ms.length = ms
  · rw [step, if_pos front, Option.some.injEq] at move
    have whole := List.take_append_drop ms.length q
    rw [front, move] at whole
    exact whole.symm
  · rw [step, if_neg front] at move
    cases move

/-- What comes out, and then what is left, was there or went in, in this order. Nothing comes
out twice. -/
theorem outs_sublist (run : exec (step cut) q acts = some q') :
    (outs acts ++ q').Sublist (q ++ ins acts) := by
  induction acts generalizing q with
  | nil =>
      obtain rfl := Option.some.inj run
      simp only [outs, ins, List.nil_append, List.append_nil, List.Sublist.refl]
  | cons a acts ih =>
      obtain ⟨r, move, rest⟩ := Option.bind_eq_some_iff.mp run
      have later := ih rest
      cases a with
      | put m =>
          obtain rfl := Option.some.inj move
          have kept := (List.drop_sublist (cut q.length) q).append_right (m :: ins acts)
          rw [List.append_assoc, List.singleton_append] at later
          exact later.trans kept
      | take ms =>
          rw [step_take move, outs, ins, List.append_assoc, List.append_assoc]
          exact later.append_left ms

/-- Whenever an item is put, fewer than this many are there. -/
def Roomy (cut : Nat → Nat) (cap : Nat) (q : List μ) (acts : List (Act μ)) : Prop :=
  ∀ before m after r, acts = before ++ .put m :: after → exec (step cut) q before = some r →
    r.length < cap

theorem Roomy.tail {cap : Nat} {a : Act μ} {r : List μ} (roomy : Roomy cut cap q (a :: acts))
    (move : step cut q a = some r) : Roomy cut cap r acts := by
  intro before m after last split run
  refine roomy (a :: before) m after last (by rw [split, List.cons_append]) ?_
  exact Option.bind_eq_some_iff.mpr ⟨r, move, run⟩

/-- As long as nothing is put into a full queue, what went in has come out or is still there. -/
theorem outs_eq {cap : Nat} (keeps : ∀ n, n < cap → cut n = 0) (roomy : Roomy cut cap q acts)
    (run : exec (step cut) q acts = some q') : outs acts ++ q' = q ++ ins acts := by
  induction acts generalizing q with
  | nil =>
      obtain rfl := Option.some.inj run
      rw [outs, ins, List.nil_append, List.append_nil]
  | cons a acts ih =>
      obtain ⟨r, move, rest⟩ := Option.bind_eq_some_iff.mp run
      have later := ih (roomy.tail move) rest
      cases a with
      | put m =>
          have none := keeps q.length (roomy [] m acts q rfl rfl)
          obtain rfl := Option.some.inj move
          rw [none, List.drop_zero] at later
          rw [outs, ins, later, List.append_assoc, List.singleton_append]
      | take ms => rw [step_take move, outs, ins, List.append_assoc, List.append_assoc, later]

/-- The queue never grows past its bound. -/
theorem length_le {cap : Nat} (room : ∀ n, n - cut n < cap) (start : q.length ≤ cap)
    (run : exec (step cut) q acts = some q') : q'.length ≤ cap := by
  induction acts generalizing q with
  | nil =>
      obtain rfl := Option.some.inj run
      exact start
  | cons a acts ih =>
      obtain ⟨r, move, rest⟩ := Option.bind_eq_some_iff.mp run
      refine ih ?_ rest
      cases a with
      | put m =>
          obtain rfl := Option.some.inj move
          have free := room q.length
          rw [List.length_append, List.length_drop, List.length_singleton]
          omega
      | take ms =>
          have split := step_take move
          rw [split, List.length_append] at start
          omega

end OrbisAgent.Lib.DropOldest
