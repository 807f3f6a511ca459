/- OrbisAgent/Lib/LockOrder
   generality: G
   digest: Wait-for relations of non-recursive locks, their cycles, and the lock-order rule. -/

import Mathlib.Logic.Relation
import Mathlib.Order.Basic

set_option autoImplicit false
set_option relaxedAutoImplicit false

namespace OrbisAgent.Lib.LockOrder

universe u v

variable {T : Type u} {L : Type v} {wants : T → Option L} {owner : L → Option T}

/-- A thread waits for the thread that holds the lock it asks for. A lock is
non-recursive, so a thread that asks for a lock of its own waits for itself. -/
def WaitsFor (wants : T → Option L) (owner : L → Option T) (t u : T) : Prop :=
  ∃ l, wants t = some l ∧ owner l = some u

/-- Some thread waits along a nonempty cycle of waiting threads. -/
def Deadlock (wants : T → Option L) (owner : L → Option T) : Prop :=
  ∃ t, Relation.TransGen (WaitsFor wants owner) t t

theorem deadlock_of_own {t : T} {l : L} (asked : wants t = some l) (own : owner l = some t) :
    Deadlock wants owner :=
  ⟨t, .single ⟨l, asked, own⟩⟩

theorem deadlock_of_pair {t u : T} {l k : L} (tAsks : wants t = some l) (uHolds : owner l = some u)
    (uAsks : wants u = some k) (tHolds : owner k = some t) : Deadlock wants owner :=
  ⟨t, .tail (.single ⟨l, tAsks, uHolds⟩) ⟨k, uAsks, tHolds⟩⟩

/-- Along a chain of waiting threads the locks asked for strictly increase. -/
private theorem chain_increases [Preorder L]
    (ordered : ∀ t l k, owner l = some t → wants t = some k → l < k) {t u : T}
    (chain : Relation.TransGen (WaitsFor wants owner) t u) :
    ∀ k, wants u = some k → ∃ l, wants t = some l ∧ l < k := by
  induction chain with
  | single edge =>
      obtain ⟨l, asked, held⟩ := edge
      exact fun k hk => ⟨l, asked, ordered _ l k held hk⟩
  | tail _ edge ih =>
      obtain ⟨m, asked, held⟩ := edge
      intro k hk
      obtain ⟨l, first, below⟩ := ih m asked
      exact ⟨l, first, below.trans (ordered _ m k held hk)⟩

/-- If every thread asks only for locks above all the locks it holds, no thread
waits along a cycle. -/
theorem no_deadlock_of_order [Preorder L]
    (ordered : ∀ t l k, owner l = some t → wants t = some k → l < k) :
    ¬ Deadlock wants owner := by
  rintro ⟨t, cycle⟩
  obtain ⟨k, asked⟩ : ∃ k, wants t = some k := by
    obtain ⟨u, ⟨l, asked, _⟩, _⟩ := Relation.TransGen.head'_iff.mp cycle
    exact ⟨l, asked⟩
  obtain ⟨l, again, below⟩ := chain_increases ordered cycle k asked
  obtain rfl : l = k := Option.some.inj (again.symm.trans asked)
  exact lt_irrefl l below

end OrbisAgent.Lib.LockOrder
