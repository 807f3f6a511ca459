/- OrbisAgent/Config/CanonicalBase64
   source: src/config/ConfigManager.cpp: b64Encode, b64Decode
   digest: The texts that come back from decoding and encoding are the canonical ones, and the
   encoder writes the only canonical text of its data. -/

import OrbisAgent.Config.Base64Decoded
import Mathlib.Data.List.Basic

set_option autoImplicit false
set_option relaxedAutoImplicit false

namespace OrbisAgent.Config.CanonicalBase64

open OrbisAgent.Config.Base64
open OrbisAgent.Config.Base64Decoded
open OrbisAgent.Lib.BitString
open OrbisAgent.Lib.ByteString

/-- Whole groups of four, padded at the end with at most two characters, in which the bits that
make up no byte are zero. -/
structure Canonical (s : Bytes) : Prop where
  padded : ∃ pads, pads ≤ 2 ∧ s = alphabetPrefix s ++ List.replicate pads pad
  quads : 4 ∣ s.length
  unused : ∀ b ∈ (bitString (alphabetPrefix s)).drop (8 * (6 * (alphabetPrefix s).length / 8)),
    b = false

/-- The bits of some bytes. -/
def dataBits (data : Bytes) : List Bool := data.flatMap fun b => wordBits 8 b.toNat

theorem idxOf_tbl {n : Nat} (small : n < 64) : tbl.idxOf (tbl.getD n 0) = n := by
  have all : ∀ k : Fin 64, tbl.idxOf (tbl.getD k 0) = k := by decide +kernel
  exact all ⟨n, small⟩

/-! ### What the encoder writes -/

/-- Alphabet characters in front of a text. -/
theorem alphabetPrefix_append_of_mem {front : Bytes} (inside : ∀ c ∈ front, c ∈ tbl)
    (rest : Bytes) : alphabetPrefix (front ++ rest) = front ++ alphabetPrefix rest := by
  induction front with
  | nil => rfl
  | cons c front ih =>
      rw [List.cons_append, alphabetPrefix_cons (inside c List.mem_cons_self),
        ih fun d mem => inside d (List.mem_cons_of_mem c mem), List.cons_append]

theorem alphabetPrefix_pads (pads : Nat) : alphabetPrefix (List.replicate pads pad) = [] := by
  cases pads with
  | zero => rfl
  | succ pads => exact alphabetPrefix_foreign pad_not_mem_tbl _

theorem alphabetPrefix_padded {body : Bytes} (inside : ∀ c ∈ body, c ∈ tbl) (pads : Nat) :
    alphabetPrefix (body ++ List.replicate pads pad) = body := by
  rw [alphabetPrefix_append_of_mem inside, alphabetPrefix_pads, List.append_nil]

theorem bitString_append (front back : Bytes) :
    bitString (front ++ back) = bitString front ++ bitString back :=
  List.flatMap_append

/-- Two and four low bits that are not written. -/
theorem low_bits_clear :
    (∀ m < 4, ∀ b ∈ (wordBits 6 (m * 16)).drop 2, b = false) ∧
      ∀ m < 16, ∀ b ∈ (wordBits 6 (m * 4)).drop 4, b = false := by
  decide

/-- Behind a last byte of its own come the low bits of the second character. -/
theorem unused_one (b0 : UInt8) :
    (bitString (alphabetPrefix (b64Encode [b0]))).drop (8 * [b0].length) =
      (wordBits 6 (b0.toNat % 4 * 16)).drop 2 := by
  have bound := b0.toNat_lt
  have chars : alphabetPrefix (b64Encode [b0]) =
      [tbl.getD (b0.toNat / 4) 0, tbl.getD (b0.toNat % 4 * 16 + 0) 0] := by
    rw [b64Encode, b64Group_one, alphabetPrefix_cons (tbl_mem (by omega)),
      alphabetPrefix_cons (tbl_mem (by omega)), alphabetPrefix_foreign pad_not_mem_tbl]
  rw [chars, bitString, List.flatMap_cons, List.flatMap_cons, List.flatMap_nil,
    List.append_nil, idxOf_tbl (by omega), idxOf_tbl (by omega), List.drop_append,
    length_wordBits, List.drop_eq_nil_of_le (by simp), List.nil_append]
  rfl

/-- Behind the last two bytes come the low bits of the third character. -/
theorem unused_two (b0 b1 : UInt8) :
    (bitString (alphabetPrefix (b64Encode [b0, b1]))).drop (8 * [b0, b1].length) =
      (wordBits 6 (b1.toNat % 16 * 4)).drop 4 := by
  have bound0 := b0.toNat_lt
  have bound1 := b1.toNat_lt
  have chars : alphabetPrefix (b64Encode [b0, b1]) =
      [tbl.getD (b0.toNat / 4) 0, tbl.getD (b0.toNat % 4 * 16 + b1.toNat / 16) 0] ++
        [tbl.getD (b1.toNat % 16 * 4 + 0) 0] := by
    rw [b64Encode, b64Group_two, alphabetPrefix_cons (tbl_mem (by omega)),
      alphabetPrefix_cons (tbl_mem (by omega)), alphabetPrefix_cons (tbl_mem (by omega)),
      alphabetPrefix_foreign pad_not_mem_tbl]
    rfl
  rw [chars, bitString_append, List.drop_append, length_bitString,
    List.drop_eq_nil_of_le (by simp [length_bitString]), List.nil_append, bitString,
    List.flatMap_cons, List.flatMap_nil, List.append_nil, idxOf_tbl (by omega)]
  rfl

/-- Three bytes fill their group: what is unused comes behind the rest. -/
theorem unused_cons (b0 b1 b2 : UInt8) (rest : Bytes) :
    (bitString (alphabetPrefix (b64Encode (b0 :: b1 :: b2 :: rest)))).drop
        (8 * (b0 :: b1 :: b2 :: rest).length) =
      (bitString (alphabetPrefix (b64Encode rest))).drop (8 * rest.length) := by
  have bound0 := b0.toNat_lt
  have bound1 := b1.toNat_lt
  have bound2 := b2.toNat_lt
  have inside : ∀ c ∈ b64Group b0 (some b1) (some b2), c ∈ tbl := by
    intro c mem
    rw [b64Group_three] at mem
    simp only [List.mem_cons, List.not_mem_nil, or_false] at mem
    rcases mem with rfl | rfl | rfl | rfl
    all_goals exact tbl_mem (by omega)
  have size : (bitString (b64Group b0 (some b1) (some b2))).length = 24 := by
    rw [length_bitString, length_b64Group]
  have behind : 8 * (b0 :: b1 :: b2 :: rest).length - 24 = 8 * rest.length := by
    simp only [List.length_cons]
    omega
  rw [b64Encode, alphabetPrefix_append_of_mem inside, bitString_append, List.drop_append, size,
    behind, List.drop_eq_nil_of_le (by rw [size]; simp only [List.length_cons]; omega),
    List.nil_append]

/-- The bits that the encoder writes behind the last byte. -/
theorem unused_b64Encode (data : Bytes) :
    ∀ b ∈ (bitString (alphabetPrefix (b64Encode data))).drop (8 * data.length), b = false := by
  induction data using b64Encode.induct with
  | case1 =>
      intro b mem
      cases mem
  | case2 b0 =>
      have bound := b0.toNat_lt
      rw [unused_one]
      exact low_bits_clear.1 _ (by omega)
  | case3 b0 b1 =>
      have bound := b1.toNat_lt
      rw [unused_two]
      exact low_bits_clear.2 _ (by omega)
  | case4 b0 b1 b2 rest ih =>
      rw [unused_cons]
      exact ih

theorem canonical_b64Encode (data : Bytes) : Canonical (b64Encode data) := by
  obtain ⟨body, shape, inside⟩ := b64Encode_body data
  have front : alphabetPrefix (b64Encode data) = body := by
    rw [shape, alphabetPrefix_padded inside]
  have size : 6 * (alphabetPrefix (b64Encode data)).length / 8 = data.length := by
    rw [← length_b64Decode, b64Decode_b64Encode]
  refine ⟨⟨(3 - data.length % 3) % 3, by omega, ?_⟩, ?_, ?_⟩
  · rw [front]
    exact shape
  · rw [length_b64Encode]
    exact Nat.dvd_mul_right 4 _
  · rw [size]
    exact unused_b64Encode data

/-! ### What a canonical text is made of -/

theorem dataBits_octets (bits : List Bool) :
    dataBits (octets bits) = bits.take (8 * (bits.length / 8)) := by
  rw [← flatMap_words (by decide), dataBits, octets, List.flatMap_map]
  apply List.flatMap_congr
  intro n mem
  have small : n < 256 := by
    obtain ⟨i, _, rfl⟩ := List.mem_map.mp mem
    have bound := value_lt ((bits.drop (8 * i)).take 8)
    have fits : 2 ^ ((bits.drop (8 * i)).take 8).length ≤ 2 ^ 8 :=
      Nat.pow_le_pow_right (by decide) (List.length_take_le _ _)
    omega
  rw [UInt8.toNat_ofNat_of_lt' small]

/-- The characters of a canonical text spell the bits of its data and then zeros. -/
theorem Canonical.bits {s : Bytes} (canonical : Canonical s) :
    ∃ zeros, bitString (alphabetPrefix s) =
      dataBits (b64Decode s) ++ List.replicate zeros false := by
  refine ⟨((bitString (alphabetPrefix s)).drop
    (8 * (6 * (alphabetPrefix s).length / 8))).length, ?_⟩
  rw [b64Decode_eq_octets, dataBits_octets, length_bitString]
  conv_lhs => rw [← List.take_append_drop (8 * (6 * (alphabetPrefix s).length / 8))
    (bitString (alphabetPrefix s))]
  rw [List.append_cancel_left_eq]
  exact List.eq_replicate_of_mem canonical.unused

/-- The number of characters and of padding of a canonical text, from the number of its bytes. -/
theorem Canonical.count {s : Bytes} (canonical : Canonical s) :
    (alphabetPrefix s).length = (4 * (b64Decode s).length + 2) / 3 ∧
      ∃ pads, pads = (4 - (alphabetPrefix s).length % 4) % 4 ∧
        s = alphabetPrefix s ++ List.replicate pads pad := by
  obtain ⟨pads, few, shape⟩ := canonical.padded
  obtain ⟨groups, total⟩ := canonical.quads
  have sizes := congrArg List.length shape
  rw [List.length_append, List.length_replicate] at sizes
  have decoded := length_b64Decode s
  -- One character beyond whole groups would need three of padding.
  obtain ⟨whole, left, split, ending⟩ : ∃ whole left, (alphabetPrefix s).length = 4 * whole + left ∧
      (left = 0 ∨ left = 2 ∨ left = 3) :=
    ⟨(alphabetPrefix s).length / 4, (alphabetPrefix s).length % 4, by omega, by omega⟩
  refine ⟨?_, pads, by omega, shape⟩
  rcases ending with rfl | rfl | rfl <;> omega

/-- Alphabet characters are known by their bits. -/
theorem bitString_injective {s t : Bytes} (inside : ∀ c ∈ s, c ∈ tbl) (others : ∀ c ∈ t, c ∈ tbl)
    (same : bitString s = bitString t) : s = t := by
  induction s generalizing t with
  | nil =>
      have sizes := congrArg List.length same
      rw [length_bitString, length_bitString, List.length_nil] at sizes
      exact (List.length_eq_zero_iff.mp (by omega)).symm
  | cons c s ih =>
      cases t with
      | nil =>
          have sizes := congrArg List.length same
          rw [length_bitString, length_bitString, List.length_nil, List.length_cons] at sizes
          omega
      | cons d t =>
          rw [bitString, bitString, List.flatMap_cons, List.flatMap_cons] at same
          obtain ⟨first, rest⟩ := List.append_inj same (by rw [length_wordBits, length_wordBits])
          obtain ⟨small, spelled⟩ := tbl_position (inside c List.mem_cons_self)
          obtain ⟨small', spelled'⟩ := tbl_position (others d List.mem_cons_self)
          have values := congrArg value first
          rw [value_wordBits, value_wordBits, Nat.mod_eq_of_lt (b := 2 ^ 6) small,
            Nat.mod_eq_of_lt (b := 2 ^ 6) small'] at values
          have head : c = d := by rw [← spelled, ← spelled', values]
          rw [head, ih (fun e mem => inside e (List.mem_cons_of_mem c mem))
            (fun e mem => others e (List.mem_cons_of_mem d mem)) rest]

theorem alphabetPrefix_mem (s : Bytes) : ∀ c ∈ alphabetPrefix s, c ∈ tbl := by
  intro c mem
  have inside := List.mem_takeWhile_imp (p := fun c => decide (c ∈ tbl)) mem
  exact of_decide_eq_true inside

/-- Canonical texts of the same data are the same. -/
theorem Canonical.unique {s t : Bytes} (here : Canonical s) (there : Canonical t)
    (same : b64Decode s = b64Decode t) : s = t := by
  obtain ⟨count, pads, fill, shape⟩ := here.count
  obtain ⟨count', pads', fill', shape'⟩ := there.count
  obtain ⟨zeros, bits⟩ := here.bits
  obtain ⟨zeros', bits'⟩ := there.bits
  have sizes : (alphabetPrefix s).length = (alphabetPrefix t).length := by
    rw [count, count', same]
  have lengths := congrArg List.length bits
  have lengths' := congrArg List.length bits'
  rw [length_bitString, List.length_append, List.length_replicate] at lengths lengths'
  have front : alphabetPrefix s = alphabetPrefix t := by
    apply bitString_injective (alphabetPrefix_mem s) (alphabetPrefix_mem t)
    have tails : zeros = zeros' := by
      rw [same] at lengths
      omega
    rw [bits, bits', same, tails]
  rw [shape, shape', fill, fill', front]

/-- The encoder writes the one canonical text of its data. -/
theorem encodes_the_canonical_text (data s : Bytes) :
    b64Encode data = s ↔ Canonical s ∧ b64Decode s = data := by
  constructor
  · rintro rfl
    exact ⟨canonical_b64Encode data, b64Decode_b64Encode data⟩
  · rintro ⟨canonical, rfl⟩
    exact (canonical_b64Encode _).unique canonical (b64Decode_b64Encode _)

end OrbisAgent.Config.CanonicalBase64
