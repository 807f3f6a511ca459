/- OrbisAgent/Config/Uuid
   source: src/config/ConfigManager.cpp (generateUUID)
   digest: The generated identity is a version 4 UUID, and it has 122 bits of the random words. -/

import OrbisAgent.Config.ConfigManager

set_option autoImplicit false
set_option relaxedAutoImplicit false

namespace OrbisAgent.Config.Uuid

open OrbisAgent.Config.ConfigManager
open OrbisAgent.Lib.ByteString

/-- A mask takes away the bits that were set outside of it. -/
theorem masked_of_disjoint {w mask fixed : UInt64} (disjoint : fixed &&& mask = 0)
    (twice : mask &&& mask = mask) : ((w &&& mask) ||| fixed) &&& mask = w &&& mask := by
  apply UInt64.toNat_inj.mp
  have none := congrArg UInt64.toNat disjoint
  have same := congrArg UInt64.toNat twice
  rw [UInt64.toNat_and] at none same
  rw [UInt64.toNat_and, UInt64.toNat_or, UInt64.toNat_and, Nat.and_or_distrib_right, none,
    Nat.and_assoc, same]
  exact Nat.or_zero _

/-- The bits of the first word that the version leaves, and those of the second that the variant
leaves. -/
def randomHi (hi : UInt64) : UInt64 := hi &&& 0xFFFFFFFFFFFF0FFF

def randomLo (lo : UInt64) : UInt64 := lo &&& 0x3FFFFFFFFFFFFFFF

/-- The words that are printed. -/
def versioned (hi : UInt64) : UInt64 := randomHi hi ||| 0x0000000000004000

def varied (lo : UInt64) : UInt64 := randomLo lo ||| 0x8000000000000000

/-- Lower-case hexadecimal digits, as many as this. -/
structure HexGroup (n : Nat) (s : Bytes) : Prop where
  length : s.length = n
  digits : ∀ b ∈ s, ∃ d, d < 16 ∧ b = hexDigit d

theorem hexGroup_hex (width n : Nat) : HexGroup width (hex width n) :=
  ⟨length_hex width n, fun _ mem => mem_hex mem⟩

/-- A UUID of version 4: groups of 8, 4, 4, 4 and 12 digits, of which the third begins with `4` and
the fourth with `8`, `9`, `a` or `b`. -/
inductive IsUuidV4 : Bytes → Prop
  | groups {a b c d e : Bytes} {v : Nat} : HexGroup 8 a → HexGroup 4 b → HexGroup 3 c →
      8 ≤ v → v < 12 → HexGroup 3 d → HexGroup 12 e →
      IsUuidV4 (a ++ dash ++ b ++ dash ++ (hexDigit 4 :: c) ++ dash ++ (hexDigit v :: d) ++
        dash ++ e)

/-- The groups as numbers. -/
theorem generateUUID_eq (hi lo : UInt64) :
    generateUUID hi lo =
      hex 8 ((versioned hi).toNat / 2 ^ 32) ++ dash ++
        hex 4 ((versioned hi).toNat / 2 ^ 16 % 2 ^ 16) ++ dash ++
        hex 4 ((versioned hi).toNat % 2 ^ 16) ++ dash ++
        hex 4 ((varied lo).toNat / 2 ^ 48) ++ dash ++ hex 12 ((varied lo).toNat % 2 ^ 48) := by
  have first := (versioned hi).toNat_lt
  have second := (varied lo).toNat_lt
  have group1 : (versioned hi >>> 32).toUInt32.toNat = (versioned hi).toNat / 2 ^ 32 := by
    rw [UInt64.toNat_toUInt32, UInt64.toNat_shiftRight, Nat.shiftRight_eq_div_pow]
    show (versioned hi).toNat / 2 ^ 32 % 2 ^ 32 = _
    omega
  have group2 : (versioned hi >>> 16).toUInt16.toNat =
      (versioned hi).toNat / 2 ^ 16 % 2 ^ 16 := by
    rw [UInt64.toNat_toUInt16, UInt64.toNat_shiftRight, Nat.shiftRight_eq_div_pow]
    rfl
  have group4 : (varied lo >>> 48).toUInt16.toNat = (varied lo).toNat / 2 ^ 48 := by
    rw [UInt64.toNat_toUInt16, UInt64.toNat_shiftRight, Nat.shiftRight_eq_div_pow]
    show (varied lo).toNat / 2 ^ 48 % 2 ^ 16 = _
    omega
  have group5 : (varied lo &&& 0x0000FFFFFFFFFFFF).toNat = (varied lo).toNat % 2 ^ 48 := by
    rw [UInt64.toNat_and]
    exact Nat.and_two_pow_sub_one_eq_mod _ 48
  rw [← group1, ← group2, ← group4, ← group5, ← UInt64.toNat_toUInt16]
  rfl

/-- The version stands in front of the third group. -/
theorem version_nibble (hi : UInt64) : (versioned hi).toNat % 2 ^ 16 / 16 ^ 3 % 16 = 4 := by
  have bits : (versioned hi).toNat >>> 12 &&& 15 = 4 := by
    rw [versioned, randomHi, UInt64.toNat_or, UInt64.toNat_and, Nat.shiftRight_or_distrib,
      Nat.shiftRight_and_distrib, Nat.and_or_distrib_right, Nat.and_assoc]
    exact congrArg (· ||| 4) (Nat.and_zero (hi.toNat >>> 12))
  have low : (versioned hi).toNat >>> 12 &&& 15 = (versioned hi).toNat >>> 12 % 16 :=
    Nat.and_two_pow_sub_one_eq_mod _ 4
  rw [low, Nat.shiftRight_eq_div_pow] at bits
  omega

/-- The variant stands in front of the fourth. -/
theorem variant_nibble (lo : UInt64) :
    8 ≤ (varied lo).toNat / 2 ^ 48 / 16 ^ 3 % 16 ∧
      (varied lo).toNat / 2 ^ 48 / 16 ^ 3 % 16 < 12 := by
  have bits : (varied lo).toNat >>> 60 = lo.toNat >>> 60 % 4 ||| 8 := by
    rw [varied, randomLo, UInt64.toNat_or, UInt64.toNat_and, Nat.shiftRight_or_distrib,
      Nat.shiftRight_and_distrib, ← Nat.and_two_pow_sub_one_eq_mod _ 2]
    rfl
  have four : ∀ k : Fin 4, 8 ≤ k.val ||| 8 ∧ k.val ||| 8 < 12 := by decide
  have range := four ⟨lo.toNat >>> 60 % 4, Nat.mod_lt _ (by omega)⟩
  rw [← bits, Nat.shiftRight_eq_div_pow] at range
  omega

theorem isUuidV4_generateUUID (hi lo : UInt64) : IsUuidV4 (generateUUID hi lo) := by
  obtain ⟨low, high⟩ := variant_nibble lo
  rw [generateUUID_eq, hex_succ_eq_cons 3 ((versioned hi).toNat % 2 ^ 16), version_nibble,
    hex_succ_eq_cons 3 ((varied lo).toNat / 2 ^ 48)]
  exact .groups (hexGroup_hex _ _) (hexGroup_hex _ _) (hexGroup_hex _ _) low high
    (hexGroup_hex _ _) (hexGroup_hex _ _)

theorem randomHi_of_versioned (hi : UInt64) :
    versioned hi &&& 0xFFFFFFFFFFFF0FFF = randomHi hi := by
  have fixed : (0x0000000000004000 : UInt64) &&& 0xFFFFFFFFFFFF0FFF = 0 := by decide
  have twice : (0xFFFFFFFFFFFF0FFF : UInt64) &&& 0xFFFFFFFFFFFF0FFF = 0xFFFFFFFFFFFF0FFF := by
    decide
  rw [versioned, randomHi, masked_of_disjoint fixed twice]

theorem randomLo_of_varied (lo : UInt64) : varied lo &&& 0x3FFFFFFFFFFFFFFF = randomLo lo := by
  have fixed : (0x8000000000000000 : UInt64) &&& 0x3FFFFFFFFFFFFFFF = 0 := by decide
  have twice : (0x3FFFFFFFFFFFFFFF : UInt64) &&& 0x3FFFFFFFFFFFFFFF = 0x3FFFFFFFFFFFFFFF := by
    decide
  rw [varied, randomLo, masked_of_disjoint fixed twice]

/-- The text has every bit of the words that are printed. -/
theorem words_of_generateUUID {hi lo hi' lo' : UInt64}
    (same : generateUUID hi lo = generateUUID hi' lo') :
    versioned hi = versioned hi' ∧ varied lo = varied lo' := by
  have hi64 := (versioned hi).toNat_lt
  have hi64' := (versioned hi').toNat_lt
  have lo64 := (varied lo).toNat_lt
  have lo64' := (varied lo').toNat_lt
  rw [generateUUID_eq, generateUUID_eq] at same
  obtain ⟨same, group5⟩ := List.append_inj' same (by simp [length_hex])
  obtain ⟨same, _⟩ := List.append_inj' same rfl
  obtain ⟨same, group4⟩ := List.append_inj' same (by simp [length_hex])
  obtain ⟨same, _⟩ := List.append_inj' same rfl
  obtain ⟨same, group3⟩ := List.append_inj' same (by simp [length_hex])
  obtain ⟨same, _⟩ := List.append_inj' same rfl
  obtain ⟨same, group2⟩ := List.append_inj' same (by simp [length_hex])
  obtain ⟨group1, _⟩ := List.append_inj' same rfl
  have one := hex_injective (by omega) (by omega) group1
  have two := hex_injective (by omega) (by omega) group2
  have three := hex_injective (by omega) (by omega) group3
  have four := hex_injective (by omega) (by omega) group4
  have five := hex_injective (by omega) (by omega) group5
  constructor
  · apply UInt64.toNat_inj.mp
    omega
  · apply UInt64.toNat_inj.mp
    omega

theorem random_of_generateUUID {hi lo hi' lo' : UInt64}
    (same : generateUUID hi lo = generateUUID hi' lo') :
    randomHi hi = randomHi hi' ∧ randomLo lo = randomLo lo' := by
  obtain ⟨first, second⟩ := words_of_generateUUID same
  constructor
  · rw [← randomHi_of_versioned hi, first, randomHi_of_versioned]
  · rw [← randomLo_of_varied lo, second, randomLo_of_varied]

/-- Every identity that is generated is a version 4 UUID, and two are the same only when all
122 random bits are. -/
theorem generated_identities (hi lo hi' lo' : UInt64) :
    IsUuidV4 (generateUUID hi lo) ∧
      (generateUUID hi lo = generateUUID hi' lo' ↔
        randomHi hi = randomHi hi' ∧ randomLo lo = randomLo lo') := by
  refine ⟨isUuidV4_generateUUID hi lo, random_of_generateUUID, ?_⟩
  rintro ⟨first, second⟩
  rw [generateUUID_eq, generateUUID_eq, versioned, versioned, varied, varied, first, second]

end OrbisAgent.Config.Uuid
