/- OrbisAgent/Lib/Window
   generality: G
   digest: A growing sequence seen through its last entries: how often a position is seen, and when
   every position is seen exactly once. -/

import Mathlib.Data.List.Chain
import Mathlib.Data.List.Count

set_option autoImplicit false
set_option relaxedAutoImplicit false

namespace OrbisAgent.Lib.Window

/-- The last `k` of the positions below `n`. -/
def window (k n : Nat) : List Nat := (List.range n).drop (n - k)

/-- The positions that are seen when the sequence has these lengths. -/
def seen (k : Nat) (lengths : List Nat) : List Nat := lengths.flatMap (window k)

/-- At length `n`, position `p` is among the last `k`. -/
def covers (k p n : Nat) : Bool := decide (p < n ∧ n ≤ p + k)

theorem covers_iff {k p n : Nat} : covers k p n = true ↔ p < n ∧ n ≤ p + k := by
  simp [covers]

theorem window_eq_range' (k n : Nat) : window k n = List.range' (n - k) (n - (n - k)) := by
  unfold window
  rw [List.range_eq_range', List.drop_range', Nat.zero_add, Nat.mul_one]

theorem count_window (k p n : Nat) : (window k n).count p = if covers k p n then 1 else 0 := by
  rw [window_eq_range', List.count_range_1']
  have same : (n - k ≤ p ∧ p < n - k + (n - (n - k))) ↔ covers k p n = true := by
    rw [covers_iff]
    omega
  simp only [same]

/-- A position is seen once for each length that covers it. -/
theorem count_seen (k p : Nat) (lengths : List Nat) :
    (seen k lengths).count p = lengths.countP (covers k p) := by
  induction lengths with
  | nil => rfl
  | cons n lengths ih =>
      unfold seen at ih ⊢
      rw [List.flatMap_cons, List.count_append, ih, count_window, List.countP_cons, Nat.add_comm]

/-- From `a` to `b` the sequence grows by at most `k`, and by at least `k` when it had grown
before. -/
def Paced (k first a b : Nat) : Prop := b ≤ a + k ∧ (first < a → a + k ≤ b)

section Growing

variable {k first a : Nat} {rest : List Nat} (grows : (a :: rest).IsChain (· ≤ ·))
include grows

theorem le_of_grows {n : Nat} (mem : n ∈ rest) : a ≤ n :=
  (List.pairwise_cons.mp (List.isChain_iff_pairwise.mp grows)).1 n mem

theorem le_getLastD : a ≤ rest.getLastD a := by
  cases rest with
  | nil => exact Nat.le_refl a
  | cons b rest =>
      have mem : (b :: rest).getLastD a ∈ b :: rest := by
        rw [List.getLastD_eq_getLast?, List.getLast?_eq_some_getLast (List.cons_ne_nil b rest)]
        exact List.getLast_mem (List.cons_ne_nil b rest)
      exact le_of_grows grows mem

/-- A paced sequence shows every later position once. -/
theorem once_of_paced (old : first ≤ a) (paced : (a :: rest).IsChain (Paced k first)) {p : Nat}
    (low : a ≤ p) (high : p < rest.getLastD a) : rest.countP (covers k p) = 1 := by
  induction rest generalizing a with
  | nil => exact absurd high (Nat.not_lt.mpr low)
  | cons b rest ih =>
      obtain ⟨step, grows'⟩ := List.isChain_cons_cons.mp grows
      obtain ⟨pace, paced'⟩ := List.isChain_cons_cons.mp paced
      rw [List.countP_cons]
      rw [List.getLastD_cons] at high
      by_cases past : b ≤ p
      · have hidden : ¬ covers k p b = true := by
          rw [covers_iff]
          omega
        rw [if_neg hidden, ih grows' (Nat.le_trans old step) paced' past high]
      · have shown : covers k p b = true := covers_iff.mpr ⟨by omega, by have := pace.1; omega⟩
        have gone : rest.countP (covers k p) = 0 := by
          refine List.countP_eq_zero.mpr fun n mem => ?_
          rw [covers_iff]
          cases rest with
          | nil => cases mem
          | cons c rest =>
              obtain ⟨_, grows''⟩ := List.isChain_cons_cons.mp grows'
              have far := (List.isChain_cons_cons.mp paced').1.2 (by omega)
              have beyond : c ≤ n := by
                rcases List.mem_cons.mp mem with rfl | later
                · exact Nat.le_refl n
                · exact le_of_grows grows'' later
              omega
        rw [if_pos shown, gone]

/-- If every later position is shown once, and the one before at most once, the sequence is
paced. -/
theorem paced_of_once (old : first ≤ a)
    (once : ∀ p, a ≤ p → p < rest.getLastD a → rest.countP (covers k p) = 1)
    (before : first < a → (a :: rest).countP (covers k (a - 1)) ≤ 1) :
    (a :: rest).IsChain (Paced k first) := by
  induction rest generalizing a with
  | nil => exact List.IsChain.singleton a
  | cons b rest ih =>
      obtain ⟨step, grows'⟩ := List.isChain_cons_cons.mp grows
      have reach := le_getLastD grows'
      rw [List.getLastD_cons] at once
      refine List.isChain_cons_cons.mpr ⟨⟨?_, fun begun => ?_⟩, ih grows' (by omega) ?_ ?_⟩
      · by_contra far
        have shown := once a (Nat.le_refl a) (by omega)
        have hidden : (b :: rest).countP (covers k a) = 0 := by
          refine List.countP_eq_zero.mpr fun n mem => ?_
          have beyond : b ≤ n := by
            rcases List.mem_cons.mp mem with rfl | later
            · exact Nat.le_refl n
            · exact le_of_grows grows' later
          rw [covers_iff]
          omega
        omega
      · by_contra near
        have twice := before begun
        have showsA : covers k (a - 1) a = true := covers_iff.mpr (by omega)
        have showsB : covers k (a - 1) b = true := covers_iff.mpr (by omega)
        rw [List.countP_cons, List.countP_cons, if_pos showsA, if_pos showsB] at twice
        omega
      · intro p low high
        have shown := once p (by omega) high
        have hidden : ¬ covers k p b = true := by
          rw [covers_iff]
          omega
        rwa [List.countP_cons, if_neg hidden] at shown
      · intro begun
        by_cases same : a = b
        · subst same
          have twice := before begun
          rw [List.countP_cons] at twice
          omega
        · exact Nat.le_of_eq (once (b - 1) (by omega) (by omega))

end Growing

/-- Each position between the first and the last length is seen exactly once if and only if the
lengths are paced. -/
theorem seen_once_iff {k first : Nat} {rest : List Nat}
    (grows : (first :: rest).IsChain (· ≤ ·)) :
    (∀ p, first ≤ p → p < rest.getLastD first → (seen k (first :: rest)).count p = 1) ↔
      (first :: rest).IsChain (Paced k first) := by
  have skip : ∀ p, first ≤ p →
      (seen k (first :: rest)).count p = rest.countP (covers k p) := by
    intro p low
    have hidden : ¬ covers k p first = true := by
      rw [covers_iff]
      omega
    rw [count_seen, List.countP_cons, if_neg hidden, Nat.add_zero]
  constructor
  · intro once
    refine paced_of_once grows (Nat.le_refl first) (fun p low high => ?_) fun begun => ?_
    · rw [← skip p low]
      exact once p low high
    · exact absurd begun (Nat.lt_irrefl first)
  · intro paced p low high
    rw [skip p low]
    exact once_of_paced grows (Nat.le_refl first) paced low high

end OrbisAgent.Lib.Window
