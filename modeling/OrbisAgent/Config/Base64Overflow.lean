/- OrbisAgent/Config/Base64Overflow
   source: src/config/ConfigManager.cpp: b64Decode
   digest: The operations of the decoder on its `int` accumulator, and the inputs on which
   all of them stay in range. -/

import OrbisAgent.Config.Base64Decoded
import OrbisAgent.Lib.SignedInt

set_option autoImplicit false
set_option relaxedAutoImplicit false

namespace OrbisAgent.Config.Base64Overflow

open OrbisAgent.Config.Base64
open OrbisAgent.Config.Base64Decoded
open OrbisAgent.Lib.BitString
open OrbisAgent.Lib.ByteString
open OrbisAgent.Lib.SignedInt

/-- `(val << 6) + lookup[c]` -/
def b64Step (arith : Arith 31) (val : Int) (c : UInt8) : Int :=
  arith.result (.add (arith.result (.shl val 6)) (lookup c))

/-- The loop of the decoder under any arithmetic. -/
def b64LoopIn (arith : Arith 31) : Bytes → Int → Int → Bytes
  | [], _, _ => []
  | c :: rest, val, bits =>
      if c ≥ 128 || lookup c == -1 then []
      else
        let val := b64Step arith val c
        let bits := bits + 6
        if bits ≥ 0 then
          UInt8.ofNat ((val >>> bits.toNat) % 256).toNat :: b64LoopIn arith rest val (bits - 8)
        else b64LoopIn arith rest val bits

/-- The operations of the loop on the accumulator, in their order. -/
def b64Ops (arith : Arith 31) : Bytes → Int → List IntOp
  | [], _ => []
  | c :: rest, val =>
      if c ≥ 128 || lookup c == -1 then []
      else
        .shl val 6 :: .add (arith.result (.shl val 6)) (lookup c) ::
          b64Ops arith rest (b64Step arith val c)

/-- Every operation on the accumulator stays in range, and the result depends on nothing else. -/
def NoOverflow (input : Bytes) : Prop :=
  ∀ arith : Arith 31, (∀ op ∈ b64Ops arith input 0, op.Defined 31) ∧
    b64LoopIn arith input 0 (-8) = b64Decode input

/-- Under two's complement it is the decoder. -/
theorem b64LoopIn_wrapping (s : Bytes) (val bits : Int) :
    b64LoopIn (Arith.wrapping 31) s val bits = b64Loop s val bits := by
  induction s generalizing val bits with
  | nil => rfl
  | cons c rest ih =>
      simp only [b64LoopIn, b64Loop, ih]
      rfl

theorem b64Step_of_defined {arith : Arith 31} {val : Int} {c : UInt8}
    (shift : (IntOp.shl val 6).Defined 31)
    (sum : (IntOp.add (arith.result (.shl val 6)) (lookup c)).Defined 31) :
    b64Step arith val c = val * 2 ^ 6 + lookup c := by
  rw [b64Step, arith.result_of_defined _ sum, arith.result_of_defined _ shift]
  rfl

/-- Where every operation is defined, all arithmetics decode alike. -/
theorem b64LoopIn_agree (arith other : Arith 31) {s : Bytes} {val : Int} (bits : Int)
    (defined : ∀ op ∈ b64Ops arith s val, op.Defined 31) :
    b64LoopIn arith s val bits = b64LoopIn other s val bits := by
  induction s generalizing val bits with
  | nil => rfl
  | cons c rest ih =>
      rw [b64Ops] at defined
      rw [b64LoopIn, b64LoopIn]
      by_cases stop : (c ≥ 128 || lookup c == -1) = true
      · rw [if_pos stop, if_pos stop]
      rw [if_neg stop] at defined
      have shift := defined _ List.mem_cons_self
      have sum := defined _ (List.mem_cons_of_mem _ List.mem_cons_self)
      have rest' := fun op mem => defined op (List.mem_cons_of_mem _ (List.mem_cons_of_mem _ mem))
      have same : b64Step arith val c = b64Step other val c := by
        rw [b64Step, b64Step, arith.agree other sum, arith.agree other shift]
      rw [if_neg stop, if_neg stop, ← same]
      dsimp only
      rw [ih _ rest', ih _ rest']

/-- From an accumulator that holds a bit string, every operation is defined exactly when the whole
string is a number below `2 ^ 31`. -/
theorem b64Ops_defined_iff (arith : Arith 31) (s : Bytes) {read : List Bool}
    (small : value read < 2 ^ 31) :
    (∀ op ∈ b64Ops arith s (value read), op.Defined 31) ↔
      value (read ++ bitString (alphabetPrefix s)) < 2 ^ 31 := by
  induction s generalizing read with
  | nil =>
      have empty : read ++ bitString (alphabetPrefix []) = read := List.append_nil read
      rw [empty]
      exact ⟨fun _ => small, fun _ _ mem => absurd mem List.not_mem_nil⟩
  | cons c rest ih =>
      by_cases mem : c ∈ tbl
      · obtain ⟨position, same⟩ := tbl_position mem
        obtain ⟨inside, digit⟩ := lookup_tbl position
        rw [same] at inside digit
        have next : value (read ++ wordBits 6 (tbl.idxOf c)) =
            value read * 2 ^ 6 + tbl.idxOf c := by
          rw [value_append, value_wordBits, length_wordBits, Nat.mod_eq_of_lt (by omega)]
        rw [b64Ops, if_neg inside, List.forall_mem_cons, List.forall_mem_cons,
          bitString_next mem]
        by_cases fits : value read * 2 ^ 6 + tbl.idxOf c < 2 ^ 31
        · have shift : (IntOp.shl (value read) 6).Defined 31 := by
            refine ⟨by omega, ?_, ?_⟩
            · omega
            · omega
          have sum : (IntOp.add (arith.result (.shl (value read) 6)) (lookup c)).Defined 31 := by
            rw [arith.result_of_defined _ shift, digit]
            constructor
            · change -2 ^ 31 ≤ (value read : Int) * 2 ^ 6 + tbl.idxOf c
              omega
            · change (value read : Int) * 2 ^ 6 + tbl.idxOf c < 2 ^ 31
              omega
          have moved : b64Step arith (value read) c = value (read ++ wordBits 6 (tbl.idxOf c)) := by
            rw [b64Step_of_defined shift sum, digit, next]
            push_cast
            rfl
          rw [moved, ih (by omega)]
          exact ⟨fun h => h.2.2, fun h => ⟨shift, sum, h⟩⟩
        · -- The addition of this digit leaves the range, and the number only grows.
          constructor
          · rintro ⟨shift, sum, _⟩
            rw [arith.result_of_defined _ shift, digit] at sum
            have high : (value read : Int) * 2 ^ 6 + tbl.idxOf c < 2 ^ 31 := sum.2
            omega
          · intro bound
            have grows := value_le_append (read ++ wordBits 6 (tbl.idxOf c))
              (bitString (alphabetPrefix rest))
            omega
      · rw [bitString_end mem, b64Ops, if_pos (stops_outside mem)]
        exact ⟨fun _ => small, fun _ _ mem => absurd mem List.not_mem_nil⟩

theorem b64Ops_input_iff (arith : Arith 31) (input : Bytes) :
    (∀ op ∈ b64Ops arith input 0, op.Defined 31) ↔
      value (bitString (alphabetPrefix input)) < 2 ^ 31 := by
  have start : value [] < 2 ^ 31 := by decide
  exact b64Ops_defined_iff arith input start

/-- The decoder keeps within `int` exactly on the inputs whose alphabet prefix, read as a number
in base 64, is below `2 ^ 31`. -/
theorem noOverflow_iff (input : Bytes) :
    NoOverflow input ↔ value (bitString (alphabetPrefix input)) < 2 ^ 31 := by
  constructor
  · intro sound
    exact (b64Ops_input_iff _ input).mp (sound (Arith.wrapping 31)).1
  · intro bound arith
    have defined := (b64Ops_input_iff arith input).mpr bound
    refine ⟨defined, ?_⟩
    rw [b64LoopIn_agree arith (Arith.wrapping 31) (-8) defined, b64LoopIn_wrapping, b64Decode]

/-- Six bytes of all ones, encoded. -/
theorem overflow_allOnes : ¬ NoOverflow (bytes "////////") := by
  intro sound
  have shift := (sound (Arith.wrapping 31)).1 (.shl (2 ^ 30 - 1) 6) (by decide +kernel)
  revert shift
  decide

end OrbisAgent.Config.Base64Overflow
