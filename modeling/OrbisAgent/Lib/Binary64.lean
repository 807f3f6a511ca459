/- OrbisAgent/Lib/Binary64
   generality: G
   digest: Rounding to binary64 as a function of the rational numbers, its order and its error, and
   the percentage that programs compute of a part and a whole. -/

import OrbisAgent.Lib.CText
import OrbisAgent.Lib.MachineNumbers
import Mathlib.Data.Int.Log
import Mathlib.Data.Rat.Floor
import Mathlib.Tactic.Linarith
import Mathlib.Tactic.FieldSimp
import Mathlib.Tactic.NormNum

set_option autoImplicit false
set_option relaxedAutoImplicit false

namespace OrbisAgent.Lib.Binary64

open OrbisAgent.Lib.ByteString
open OrbisAgent.Lib.CText
open OrbisAgent.Lib.Json
open OrbisAgent.Lib.MachineNumbers
open OrbisAgent.Lib.Utf8

/-- The nearest integer, and of two that are as near the even one. -/
def halfEven (x : ℚ) : ℤ :=
  if x - ⌊x⌋ < 1 / 2 then ⌊x⌋
  else if 1 / 2 < x - ⌊x⌋ then ⌊x⌋ + 1
  else if 2 ∣ ⌊x⌋ then ⌊x⌋
  else ⌊x⌋ + 1

theorem floor_le_halfEven (x : ℚ) : ⌊x⌋ ≤ halfEven x := by
  unfold halfEven
  split_ifs <;> omega

theorem halfEven_le_floor_add_one (x : ℚ) : halfEven x ≤ ⌊x⌋ + 1 := by
  unfold halfEven
  split_ifs <;> omega

theorem halfEven_mono {x y : ℚ} (le : x ≤ y) : halfEven x ≤ halfEven y := by
  have floors := Int.floor_le_floor le
  by_cases same : ⌊x⌋ = ⌊y⌋
  · have parts : x - ⌊x⌋ ≤ y - ⌊x⌋ := by linarith
    unfold halfEven
    rw [← same]
    split_ifs <;> first | omega | (exfalso; linarith)
  · have below := halfEven_le_floor_add_one x
    have above := floor_le_halfEven y
    omega

@[simp] theorem halfEven_intCast (n : ℤ) : halfEven n = n := by
  simp [halfEven]

theorem abs_halfEven_sub_le (x : ℚ) : |halfEven x - x| ≤ 1 / 2 := by
  have low := Int.floor_le x
  have high := Int.lt_floor_add_one x
  unfold halfEven
  rw [abs_le]
  split_ifs <;> push_cast <;> constructor <;> linarith

/-- The exponent of the last place: 53 bits, but none below the least positive number. -/
def lastPlace (x : ℚ) : ℤ := max (Int.log 2 |x| - 52) (-1074)

theorem grid_pos (e : ℤ) : (0 : ℚ) < 2 ^ e := zpow_pos (by norm_num) e

/-- The nearest binary64 number. Numbers too large for the format are left out. -/
def round (x : ℚ) : ℚ := halfEven (x / 2 ^ lastPlace x) * 2 ^ lastPlace x

theorem round_of_multiple {x : ℚ} {m : ℤ} (multiple : x = m * 2 ^ lastPlace x) : round x = x := by
  have whole : x / 2 ^ lastPlace x = m := by
    rw [div_eq_iff (ne_of_gt (grid_pos _))]
    exact multiple
  rw [round, whole, halfEven_intCast]
  exact multiple.symm

@[simp] theorem round_zero : round 0 = 0 :=
  round_of_multiple (m := 0) (by simp)

/-- Natural numbers of 53 bits are exact. -/
theorem round_natCast {n : ℕ} (fits : n < 2 ^ 53) : round n = n := by
  by_cases zero : n = 0
  · rw [zero, Nat.cast_zero, round_zero]
  have place : lastPlace n ≤ 0 := by
    have below : Int.log 2 |(n : ℚ)| < 53 := by
      rw [Nat.abs_cast, Int.log_natCast]
      have log := Nat.log_lt_of_lt_pow zero fits
      omega
    unfold lastPlace
    omega
  obtain ⟨k, exponent⟩ := Int.eq_ofNat_of_zero_le (by omega : 0 ≤ -lastPlace n)
  have power : (2 : ℚ) ^ lastPlace n = (2 ^ k)⁻¹ := by
    rw [← neg_neg (lastPlace n), exponent, zpow_neg, zpow_natCast]
  apply round_of_multiple (m := n * 2 ^ k)
  rw [power]
  push_cast
  field_simp

theorem round_nonneg {x : ℚ} (nonneg : 0 ≤ x) : 0 ≤ round x := by
  have pos := grid_pos (lastPlace x)
  have quotient : (0 : ℚ) ≤ x / 2 ^ lastPlace x := div_nonneg nonneg (le_of_lt pos)
  have digits := halfEven_mono quotient
  have zero : halfEven (0 : ℚ) = 0 := halfEven_intCast 0
  rw [zero] at digits
  exact mul_nonneg (Int.cast_nonneg digits) (le_of_lt pos)

/-- Rounding keeps the order. Between two binades the power of two that divides them is exact on
both sides. -/
theorem round_mono {x y : ℚ} (nonneg : 0 ≤ x) (le : x ≤ y) : round x ≤ round y := by
  rcases nonneg.eq_or_lt with rfl | pos
  · rw [round_zero]
    exact round_nonneg le
  have logs : Int.log 2 |x| ≤ Int.log 2 |y| := by
    rw [abs_of_pos pos, abs_of_pos (pos.trans_le le)]
    exact Int.log_mono_right pos le
  by_cases same : lastPlace x = lastPlace y
  · have grid := grid_pos (lastPlace y)
    have digits := halfEven_mono (div_le_div_of_nonneg_right le (le_of_lt grid))
    unfold round
    rw [same]
    exact mul_le_mul_of_nonneg_right (Int.cast_le.mpr digits) (le_of_lt grid)
  · have finer : lastPlace x < lastPlace y ∧ lastPlace y = Int.log 2 |y| - 52 ∧
        Int.log 2 |x| < Int.log 2 |y| := by
      unfold lastPlace at same ⊢
      omega
    obtain ⟨places, place, binades⟩ := finer
    have below : x ≤ 2 ^ Int.log 2 |y| := by
      have top := Int.lt_zpow_succ_log_self (b := 2) (by omega) |x|
      rw [Nat.cast_ofNat, abs_of_pos pos] at top
      have powers : (2 : ℚ) ^ (Int.log 2 x + 1) ≤ 2 ^ Int.log 2 |y| := by
        apply zpow_le_zpow_right₀ (by norm_num)
        rw [abs_of_pos pos] at binades
        omega
      exact le_trans (le_of_lt top) powers
    have above : (2 : ℚ) ^ Int.log 2 |y| ≤ y := by
      have bottom := Int.zpow_log_le_self (b := 2) (r := y) (by omega) (pos.trans_le le)
      rw [Nat.cast_ofNat] at bottom
      rw [abs_of_pos (pos.trans_le le)]
      exact bottom
    have exact' : ∀ e : ℤ, e ≤ Int.log 2 |y| →
        (halfEven (2 ^ Int.log 2 |y| / 2 ^ e) : ℚ) * 2 ^ e = 2 ^ Int.log 2 |y| := by
      intro e small
      obtain ⟨k, exponent⟩ := Int.eq_ofNat_of_zero_le (by omega : 0 ≤ Int.log 2 |y| - e)
      have whole : (2 : ℚ) ^ Int.log 2 |y| / 2 ^ e = ((2 ^ k : ℤ) : ℚ) := by
        rw [← zpow_sub₀ (by norm_num), exponent, zpow_natCast]
        push_cast
        rfl
      rw [whole, halfEven_intCast, ← whole, div_mul_cancel₀ _ (ne_of_gt (grid_pos e))]
    have left : round x ≤ 2 ^ Int.log 2 |y| := by
      have grid := grid_pos (lastPlace x)
      have digits := halfEven_mono (div_le_div_of_nonneg_right below (le_of_lt grid))
      rw [← exact' (lastPlace x) (by omega)]
      exact mul_le_mul_of_nonneg_right (Int.cast_le.mpr digits) (le_of_lt grid)
    have right : 2 ^ Int.log 2 |y| ≤ round y := by
      have grid := grid_pos (lastPlace y)
      have digits := halfEven_mono (div_le_div_of_nonneg_right above (le_of_lt grid))
      rw [← exact' (lastPlace y) (by omega)]
      exact mul_le_mul_of_nonneg_right (Int.cast_le.mpr digits) (le_of_lt grid)
    exact le_trans left right

/-- Half a unit in the last place: a part in `2 ^ 53`, or half of the least positive number. -/
theorem abs_round_sub_le (x : ℚ) : |round x - x| ≤ |x| / 2 ^ 53 + 1 / 2 ^ 1075 := by
  have grid := grid_pos (lastPlace x)
  have error : |round x - x| ≤ 2 ^ lastPlace x / 2 := by
    have scaled : round x - x = (halfEven (x / 2 ^ lastPlace x) - x / 2 ^ lastPlace x) *
        2 ^ lastPlace x := by
      rw [sub_mul, div_mul_cancel₀ _ (ne_of_gt grid)]
      rfl
    have nearest := abs_halfEven_sub_le (x / 2 ^ lastPlace x)
    rw [scaled, abs_mul, abs_of_pos grid]
    calc |halfEven (x / 2 ^ lastPlace x) - x / 2 ^ lastPlace x| * (2 : ℚ) ^ lastPlace x
        ≤ 1 / 2 * 2 ^ lastPlace x := mul_le_mul_of_nonneg_right nearest (le_of_lt grid)
      _ = 2 ^ lastPlace x / 2 := by ring
  rcases eq_or_ne x 0 with rfl | nonzero
  · rw [round_zero, sub_self, abs_zero]
    norm_num
  have least : (2 : ℚ) ^ (-1074 : ℤ) = 1 / 2 ^ 1074 := by
    rw [zpow_neg, one_div]
    rfl
  have bits : (2 : ℚ) ^ (Int.log 2 |x| - 52) ≤ |x| / 2 ^ 52 := by
    have bottom := Int.zpow_log_le_self (b := 2) (r := |x|) (by omega) (abs_pos.mpr nonzero)
    rw [Nat.cast_ofNat] at bottom
    rw [zpow_sub₀ (by norm_num)]
    exact div_le_div_of_nonneg_right bottom (by norm_num)
  have place : (2 : ℚ) ^ lastPlace x ≤ |x| / 2 ^ 52 + 1 / 2 ^ 1074 := by
    have part : 0 ≤ |x| / (2 : ℚ) ^ 52 := div_nonneg (abs_nonneg x) (by norm_num)
    rcases max_choice (Int.log 2 |x| - 52) (-1074) with normal | subnormal
    · unfold lastPlace
      rw [normal]
      exact le_trans bits (le_add_of_nonneg_right (by norm_num))
    · unfold lastPlace
      rw [subnormal, least]
      exact le_add_of_nonneg_left part
  have halves : (|x| / 2 ^ 52 + 1 / 2 ^ 1074) / 2 = |x| / 2 ^ 53 + 1 / 2 ^ 1075 := by
    rw [add_div, div_div, div_div, ← pow_succ, ← pow_succ]
  calc |round x - x| ≤ 2 ^ lastPlace x / 2 := error
    _ ≤ (|x| / 2 ^ 52 + 1 / 2 ^ 1074) / 2 := div_le_div_of_nonneg_right place (by norm_num)
    _ = |x| / 2 ^ 53 + 1 / 2 ^ 1075 := halves

/-- The format `%.1f`: the tenths nearest to the number. -/
def fixed1 (x : ℚ) : Bytes :=
  (if x < 0 then [45] else []) ++ digits ((halfEven (10 * |x|)).toNat / 10) ++
    46 :: digits ((halfEven (10 * |x|)).toNat % 10)

theorem ascii_fixed1 (x : ℚ) : Ascii (fixed1 x) := by
  unfold fixed1
  rw [ascii_append, ascii_append]
  refine ⟨⟨?_, ascii_digits _⟩, ?_⟩
  · split <;> decide
  · have point : Ascii [46] := by decide
    exact ascii_append.mpr ⟨point, ascii_digits _⟩

/-- The arithmetic of `double`, where no result is an infinity or no number. -/
def binary64 : Doubles ℚ where
  ofInt n := round n
  sub x y := round (x - y)
  mul x y := round (x * y)
  div x y := round (x / y)
  eq x y := decide (x = y)
  le x y := decide (x ≤ y)
  lt x y := decide (x < y)
  fixed1 := fixed1
  toJson x := .float (halfEven (x / 2 ^ lastPlace x)) (lastPlace x)
  ascii_fixed1 := ascii_fixed1
  wellEncoded_toJson _ := rfl

@[simp] theorem round_one : round 1 = 1 := by
  simpa using round_natCast (n := 1) (by norm_num)

@[simp] theorem round_hundred : round 100 = 100 := by
  simpa using round_natCast (n := 100) (by norm_num)

/-- For a number that is not tiny one unit covers both terms of the error. -/
theorem abs_round_sub_le_unit {x y : ℚ} (le : |x| ≤ y) (large : 1 ≤ y) :
    |round x - x| ≤ y / 2 ^ 52 := by
  have part : |x| / 2 ^ 53 ≤ y / 2 ^ 53 := div_le_div_of_nonneg_right le (by norm_num)
  have tiny : (1 : ℚ) / 2 ^ 1075 ≤ y / 2 ^ 53 :=
    calc (1 : ℚ) / 2 ^ 1075 ≤ 1 / 2 ^ 53 := one_div_le_one_div_of_le (by norm_num)
          (pow_le_pow_right₀ (by norm_num) (by omega))
      _ ≤ y / 2 ^ 53 := div_le_div_of_nonneg_right large (by norm_num)
  calc |round x - x| ≤ |x| / 2 ^ 53 + 1 / 2 ^ 1075 := abs_round_sub_le x
    _ ≤ y / 2 ^ 53 + y / 2 ^ 53 := add_le_add part tiny
    _ = y / 2 ^ 52 := by ring

/-- A number between 0 and 1 stays there, and moves by less than a unit of its last place. -/
theorem round_unit {x : ℚ} (nonneg : 0 ≤ x) (le : x ≤ 1) :
    0 ≤ round x ∧ round x ≤ 1 ∧ |round x - x| ≤ 1 / 2 ^ 52 := by
  have top := round_mono nonneg le
  rw [round_one] at top
  exact ⟨round_nonneg nonneg, top, abs_round_sub_le_unit (by rwa [abs_of_nonneg nonneg]) le_rfl⟩

theorem abs_round_natCast_sub_le (n : Nat) : |round n - n| ≤ n / 2 ^ 52 := by
  rcases Nat.eq_zero_or_pos n with rfl | pos
  · simp
  · exact abs_round_sub_le_unit (le_of_eq (Nat.abs_cast n)) (Nat.one_le_cast.mpr pos)

theorem one_le_round {n : Nat} (some : 0 < n) : 1 ≤ round n := by
  have mono := round_mono zero_le_one (Nat.one_le_cast.mpr some : (1 : ℚ) ≤ n)
  rwa [round_one] at mono

section Percentage

variable {δ : Type} (d : Doubles δ)

/-- `100.0 * (1.0 - static_cast<double>(free) / static_cast<double>(total))` -/
def usedPercent (free total : Nat) : δ :=
  d.mul (d.ofInt 100) (d.sub (d.ofInt 1) (d.div (d.ofInt free) (d.ofInt total)))

end Percentage

variable {free total : Nat}

/-- The quotient of the rounded numbers is between 0 and 1. -/
theorem share_bounds (part : free ≤ total) :
    0 ≤ round free / round total ∧ round free / round total ≤ 1 := by
  have order : round free ≤ round total :=
    round_mono (Nat.cast_nonneg free) (Nat.cast_le.mpr part)
  have nonneg : (0 : ℚ) ≤ round total := round_nonneg (Nat.cast_nonneg total)
  exact ⟨div_nonneg (round_nonneg (Nat.cast_nonneg free)) nonneg, div_le_one_of_le₀ order nonneg⟩

/-- Rounding both numbers moves their quotient by four units at most. -/
theorem share_accurate (part : free ≤ total) (some : 0 < total) :
    |round free / round total - free / total| ≤ 4 / 2 ^ 52 := by
  have pos : (0 : ℚ) < total := Nat.cast_pos.mpr some
  have one := one_le_round some
  have le : (free : ℚ) ≤ total := Nat.cast_le.mpr part
  have free0 : (0 : ℚ) ≤ free := Nat.cast_nonneg free
  have totalError := abs_le.mp (abs_round_natCast_sub_le total)
  have left : |(round free - free) * total| ≤ total * total / 2 ^ 52 := by
    rw [abs_mul, abs_of_pos pos, mul_div_right_comm]
    apply mul_le_mul_of_nonneg_right _ (le_of_lt pos)
    exact (abs_round_natCast_sub_le free).trans (div_le_div_of_nonneg_right le (by norm_num))
  have right : |(free : ℚ) * (round total - total)| ≤ total * total / 2 ^ 52 := by
    rw [abs_mul, abs_of_nonneg free0, mul_div_assoc]
    exact mul_le_mul le (abs_round_natCast_sub_le total) (abs_nonneg _) (le_of_lt pos)
  have whole : (total : ℚ) * total ≤ 2 * (round total * total) := by
    rw [← mul_assoc]
    exact mul_le_mul_of_nonneg_right (by linarith) (le_of_lt pos)
  have cross : round free * total - round total * free =
      (round free - free) * total - free * (round total - total) := by ring
  have grid : 0 < round total * total := mul_pos (by linarith) pos
  have nonzero : round total ≠ 0 := ne_of_gt (by linarith)
  rw [div_sub_div _ _ nonzero (ne_of_gt pos), abs_div, abs_of_pos grid, div_le_iff₀ grid, cross]
  calc |(round free - free) * (total : ℚ) - free * (round total - total)|
      ≤ |(round free - free) * (total : ℚ)| + |(free : ℚ) * (round total - total)| := abs_sub _ _
    _ ≤ 4 / 2 ^ 52 * (round total * total) := by linarith

/-- What is left of the whole when the part is taken away is between 0 and 100 percent. -/
theorem usedPercent_bounds (part : free ≤ total) :
    0 ≤ usedPercent binary64 free total ∧ usedPercent binary64 free total ≤ 100 := by
  obtain ⟨ratio0, ratio1⟩ := share_bounds part
  obtain ⟨low, high, _⟩ := round_unit ratio0 ratio1
  obtain ⟨rest0, rest1, _⟩ := round_unit (x := 1 - round (round free / round total))
    (by linarith) (by linarith)
  have top := round_mono (x := 100 * round (1 - round (round free / round total))) (y := 100)
    (by linarith) (by linarith)
  rw [round_hundred] at top
  simp only [usedPercent, binary64, Int.cast_natCast, Int.cast_ofNat, Int.cast_one, round_one,
    round_hundred]
  exact ⟨round_nonneg (by linarith), top⟩

/-- The roundings move the percentage by less than a part in `10 ^ 12`. -/
theorem usedPercent_accurate (part : free ≤ total) (some : 0 < total) :
    |usedPercent binary64 free total - 100 * (1 - free / total)| ≤ 1 / 10 ^ 12 := by
  obtain ⟨ratio0, ratio1⟩ := share_bounds part
  obtain ⟨low, high, quotient⟩ := round_unit ratio0 ratio1
  obtain ⟨rest0, rest1, difference⟩ := round_unit (x := 1 - round (round free / round total))
    (by linarith) (by linarith)
  have product : |round (100 * round (1 - round (round free / round total))) -
      100 * round (1 - round (round free / round total))| ≤ 100 / 2 ^ 52 := by
    apply abs_round_sub_le_unit _ (by norm_num)
    rw [abs_of_nonneg (by linarith)]
    linarith
  have casts := share_accurate part some
  simp only [usedPercent, binary64, Int.cast_natCast, Int.cast_ofNat, Int.cast_one, round_one,
    round_hundred]
  rw [abs_le] at quotient difference product casts ⊢
  constructor <;> linarith

theorem usedPercent_of_nothing (total : Nat) : usedPercent binary64 0 total = 100 := by
  simp [usedPercent, binary64]

end OrbisAgent.Lib.Binary64
