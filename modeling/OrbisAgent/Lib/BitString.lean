/- OrbisAgent/Lib/BitString
   generality: G
   digest: Bit strings with the most significant bit first: numbers written into them, words read
   out of them, and an accumulator whose low bits are the ones not read yet. -/

import Mathlib.Data.List.Induction
import Mathlib.Data.Nat.Bitwise
import Mathlib.Tactic.Ring

set_option autoImplicit false
set_option relaxedAutoImplicit false

namespace OrbisAgent.Lib.BitString

/-- The number a bit string writes. -/
def value (bits : List Bool) : Nat := bits.foldl (fun acc bit => 2 * acc + bit.toNat) 0

/-- The low `width` bits of a number. -/
def wordBits : Nat → Nat → List Bool
  | 0, _ => []
  | width + 1, n => wordBits width (n / 2) ++ [decide (n % 2 = 1)]

/-- The words of `width` bits a bit string starts with; what is left at its end is no word. -/
def words (width : Nat) (bits : List Bool) : List Nat :=
  (List.range (bits.length / width)).map fun i => value ((bits.drop (width * i)).take width)

@[simp] theorem value_nil : value [] = 0 := rfl

theorem foldl_value (bits : List Bool) (start : Nat) :
    bits.foldl (fun acc bit => 2 * acc + bit.toNat) start =
      start * 2 ^ bits.length + value bits := by
  induction bits generalizing start with
  | nil => simp
  | cons bit bits ih =>
      have here := ih (2 * start + bit.toNat)
      have front : value (bit :: bits) = bit.toNat * 2 ^ bits.length + value bits := by
        rw [value, List.foldl_cons, Nat.mul_zero, Nat.zero_add]
        exact ih bit.toNat
      rw [List.foldl_cons, here, front, List.length_cons, Nat.pow_succ]
      ring

theorem value_append (front back : List Bool) :
    value (front ++ back) = value front * 2 ^ back.length + value back := by
  rw [value, List.foldl_append]
  exact foldl_value back _

theorem value_le_append (front back : List Bool) : value front ≤ value (front ++ back) := by
  rw [value_append]
  have scaled := Nat.le_mul_of_pos_right (value front) (Nat.two_pow_pos back.length)
  omega

theorem value_singleton (bit : Bool) : value [bit] = bit.toNat := by
  cases bit <;> rfl

theorem value_lt (bits : List Bool) : value bits < 2 ^ bits.length := by
  induction bits using List.reverseRecOn with
  | nil => simp
  | append_singleton bits bit ih =>
      have small : bit.toNat ≤ 1 := Bool.toNat_le bit
      rw [value_append, value_singleton, List.length_append, List.length_singleton, Nat.pow_succ]
      omega

@[simp] theorem length_wordBits (width n : Nat) : (wordBits width n).length = width := by
  induction width generalizing n with
  | zero => rfl
  | succ width ih => simp [wordBits, ih]

theorem value_wordBits (width n : Nat) : value (wordBits width n) = n % 2 ^ width := by
  induction width generalizing n with
  | zero => simp [wordBits, Nat.mod_one]
  | succ width ih =>
      have last : (decide (n % 2 = 1)).toNat = n % 2 := by
        rcases Nat.mod_two_eq_zero_or_one n with h | h <;> simp [h]
      have parts : n % 2 ^ (width + 1) = n % 2 + 2 * (n / 2 % 2 ^ width) := by
        rw [Nat.pow_succ', Nat.mod_mul]
      rw [wordBits, value_append, value_singleton, ih, last, List.length_singleton, parts]
      omega

/-- Bits are what they write, in their number. -/
theorem wordBits_value (bits : List Bool) : wordBits bits.length (value bits) = bits := by
  induction bits using List.reverseRecOn with
  | nil => rfl
  | append_singleton bits bit ih =>
      have small : bit.toNat ≤ 1 := Bool.toNat_le bit
      have front : (value bits * 2 + bit.toNat) / 2 = value bits := by omega
      have last : (value bits * 2 + bit.toNat) % 2 = bit.toNat := by omega
      rw [value_append, value_singleton, List.length_append, List.length_singleton, Nat.pow_one,
        wordBits, front, last, ih]
      cases bit <;> rfl

/-! ### Words read from a bit string -/

variable {width : Nat} {bits : List Bool}

theorem length_words (width : Nat) (bits : List Bool) :
    (words width bits).length = bits.length / width := by
  simp [words]

theorem words_of_lt (short : bits.length < width) : words width bits = [] := by
  rw [words, Nat.div_eq_of_lt short]
  rfl

theorem words_append {front : List Bool} (positive : 0 < width) (full : front.length = width)
    (back : List Bool) : words width (front ++ back) = value front :: words width back := by
  have count : (front ++ back).length / width = back.length / width + 1 := by
    rw [List.length_append, full, Nat.add_comm, Nat.add_div_right _ positive]
  rw [words, count, List.range_succ_eq_map, List.map_cons, List.map_map, Nat.mul_zero,
    List.drop_zero, List.take_left' full, words]
  congr 1
  apply List.map_congr_left
  intro i _
  have behind : (front ++ back).drop (width * (i + 1)) = back.drop (width * i) := by
    rw [Nat.mul_succ, Nat.add_comm, ← List.drop_drop, List.drop_left' full]
  rw [Function.comp_apply, Nat.succ_eq_add_one, behind]

/-- The bits behind the last word do not matter. -/
theorem words_take (width : Nat) (bits : List Bool) :
    words width (bits.take (width * (bits.length / width))) = words width bits := by
  rcases Nat.eq_zero_or_pos width with rfl | positive
  · simp [words]
  have fits := Nat.mul_div_le bits.length width
  have cut : (bits.take (width * (bits.length / width))).length =
      width * (bits.length / width) := by
    rw [List.length_take, Nat.min_eq_left fits]
  rw [words, words, cut, Nat.mul_div_cancel_left _ positive]
  apply List.map_congr_left
  intro i mem
  have before : i + 1 ≤ bits.length / width := List.mem_range.mp mem
  have room : width * i + width ≤ width * (bits.length / width) := by
    rw [← Nat.mul_succ]
    exact Nat.mul_le_mul_left width before
  rw [List.drop_take, List.take_take, Nat.min_eq_left (by omega)]

/-- The words written again are the bits without those behind the last word. -/
theorem flatMap_words (positive : 0 < width) (bits : List Bool) :
    (words width bits).flatMap (wordBits width) =
      bits.take (width * (bits.length / width)) := by
  induction size : bits.length / width generalizing bits with
  | zero =>
      have none' : words width bits = [] := by
        rw [← List.length_eq_zero_iff, length_words, size]
      rw [none', Nat.mul_zero, List.take_zero, List.flatMap_nil]
  | succ n ih =>
      have room : width ≤ bits.length := by
        by_contra short
        rw [Nat.div_eq_of_lt (by omega)] at size
        omega
      have full : (bits.take width).length = width := List.length_take_of_le room
      have fewer : (bits.drop width).length / width = n := by
        have less := Nat.sub_mul_div bits.length width 1
        rw [Nat.mul_one, size] at less
        rw [List.length_drop, less, Nat.add_sub_cancel]
      have rest := ih (bits.drop width) fewer
      have first : wordBits width (value (bits.take width)) = bits.take width := by
        have same := wordBits_value (bits.take width)
        rw [full] at same
        exact same
      conv_lhs => rw [← List.take_append_drop width bits, words_append positive full]
      rw [List.flatMap_cons, first, rest, Nat.mul_succ, Nat.add_comm, List.take_add]

/-! ### An accumulator of pending bits -/

/-- The low bits of the accumulator are the pending ones. Nothing is said of those above. -/
def Holds (acc : Int) (pending : List Bool) : Prop :=
  acc % 2 ^ pending.length = value pending

namespace Holds

variable {acc : Int} {pending : List Bool}

theorem nil (acc : Int) : Holds acc [] := by
  simp [Holds]

/-- Subtracting a multiple of a higher power changes no pending bit. -/
theorem sub_multiple (holds : Holds acc pending) {size : Nat} (room : pending.length ≤ size)
    (k : Int) : Holds (acc - 2 ^ size * k) pending := by
  obtain ⟨extra, rfl⟩ := Nat.exists_eq_add_of_le room
  have cut : acc - 2 ^ (pending.length + extra) * k =
      acc + 2 ^ pending.length * (-(2 ^ extra * k)) := by
    rw [pow_add]
    ring
  rw [Holds, cut, Int.add_mul_emod_self_left]
  exact holds

theorem push (holds : Holds acc pending) {width n : Nat} (small : n < 2 ^ width) :
    Holds (acc * 2 ^ width + n) (pending ++ wordBits width n) := by
  have split := Int.mul_ediv_add_emod acc (2 ^ pending.length)
  rw [holds] at split
  have parts : acc * 2 ^ width + n = (value pending * 2 ^ width + n : Nat) +
      2 ^ (pending.length + width) * (acc / 2 ^ pending.length) := by
    conv_lhs => rw [← split]
    push_cast
    ring
  have bound := value_lt (pending ++ wordBits width n)
  rw [value_append, value_wordBits, length_wordBits, Nat.mod_eq_of_lt small, List.length_append,
    length_wordBits] at bound
  rw [Holds, parts, List.length_append, length_wordBits, Int.add_mul_emod_self_left, value_append,
    value_wordBits, length_wordBits, Nat.mod_eq_of_lt small]
  exact Int.emod_eq_of_lt (by omega) (by exact_mod_cast bound)

/-- What stands above the last pending bits is the first ones and something stale. -/
theorem quotient {front back : List Bool} (holds : Holds acc (front ++ back)) :
    ∃ stale : Int,
      acc = value back + 2 ^ back.length * (value front + 2 ^ front.length * stale) := by
  refine ⟨acc / 2 ^ (front ++ back).length, ?_⟩
  have split := Int.emod_add_mul_ediv acc (2 ^ (front ++ back).length)
  rw [holds, value_append] at split
  conv_lhs => rw [← split]
  rw [List.length_append, pow_add]
  push_cast
  ring

/-- The pending bits behind the first ones are pending too. -/
theorem drop {front back : List Bool} (holds : Holds acc (front ++ back)) : Holds acc back := by
  obtain ⟨stale, rfl⟩ := quotient holds
  have bound : (value back : Int) < 2 ^ back.length := by exact_mod_cast value_lt back
  rw [Holds, Int.add_mul_emod_self_left]
  exact Int.emod_eq_of_lt (by omega) bound

/-- Shifting the last pending bits out leaves the first ones lowest. -/
theorem take {front back : List Bool} (holds : Holds acc (front ++ back)) :
    Holds (acc / 2 ^ back.length) front := by
  obtain ⟨stale, rfl⟩ := quotient holds
  have bound : (value back : Int) < 2 ^ back.length := by exact_mod_cast value_lt back
  have first : (value front : Int) < 2 ^ front.length := by exact_mod_cast value_lt front
  rw [Holds, Int.add_mul_ediv_left _ _ (pow_ne_zero _ (by decide)),
    Int.ediv_eq_zero_of_lt (by omega) bound, Int.zero_add, Int.add_mul_emod_self_left]
  exact Int.emod_eq_of_lt (by omega) first

end Holds

end OrbisAgent.Lib.BitString
