/- OrbisAgent/Config/Base64Decoded
   source: src/config/ConfigManager.cpp: b64Decode; README.md: the table of b64Decode
   digest: The decoder reads the whole bytes of a bit string, six bits for each character of the
   alphabet, up to the first other character. -/

import OrbisAgent.Config.Base64
import OrbisAgent.Lib.BitString

set_option autoImplicit false
set_option relaxedAutoImplicit false

namespace OrbisAgent.Config.Base64Decoded

open OrbisAgent.Config.Base64
open OrbisAgent.Lib.BitString
open OrbisAgent.Lib.ByteString

/-- The longest prefix of alphabet characters. -/
def alphabetPrefix (s : Bytes) : Bytes := s.takeWhile fun c => decide (c ∈ tbl)

/-- Six bits for each character: its position in the alphabet. -/
def bitString (p : Bytes) : List Bool := p.flatMap fun c => wordBits 6 (tbl.idxOf c)

/-- The whole bytes a bit string starts with. -/
def octets (bits : List Bool) : Bytes := (words 8 bits).map UInt8.ofNat

theorem length_bitString (p : Bytes) : (bitString p).length = 6 * p.length := by
  induction p with
  | nil => rfl
  | cons c p ih =>
      rw [bitString, List.flatMap_cons, List.length_append, length_wordBits, List.length_cons]
      change 6 + (bitString p).length = _
      omega

theorem tbl_position {c : UInt8} (mem : c ∈ tbl) :
    tbl.idxOf c < 64 ∧ tbl.getD (tbl.idxOf c) 0 = c := by
  have small : tbl.idxOf c < tbl.length := List.idxOf_lt_length_iff.mpr mem
  refine ⟨small, ?_⟩
  rw [List.getD_eq_getElem _ _ small]
  exact List.getElem_idxOf small

/-- The table of the decoder ends the loop at every byte outside the alphabet. -/
theorem stops_outside {c : UInt8} (foreign : c ∉ tbl) : (c ≥ 128 || lookup c == -1) = true := by
  have all : ∀ k : Fin 256, (UInt8.ofNat k ≥ 128 || lookup (UInt8.ofNat k) == -1) = true ∨
      UInt8.ofNat k ∈ tbl := by decide +kernel
  have here := all ⟨c.toNat, c.toNat_lt⟩
  rw [UInt8.ofNat_toNat] at here
  rcases here with stops | inside
  · exact stops
  · exact absurd inside foreign

theorem high_not_mem {c : UInt8} (high : c ≥ 128) : c ∉ tbl := by
  intro mem
  obtain ⟨small, same⟩ := tbl_position mem
  have inside := (lookup_tbl small).1
  rw [same, decide_eq_true high] at inside
  exact inside rfl

theorem b64Loop_foreign {c : UInt8} (foreign : c ∉ tbl) (rest : Bytes) (val bits : Int) :
    b64Loop (c :: rest) val bits = [] := by
  rw [b64Loop, if_pos (stops_outside foreign)]

theorem alphabetPrefix_cons {c : UInt8} (mem : c ∈ tbl) (rest : Bytes) :
    alphabetPrefix (c :: rest) = c :: alphabetPrefix rest :=
  List.takeWhile_cons_of_pos (decide_eq_true mem)

theorem alphabetPrefix_foreign {c : UInt8} (foreign : c ∉ tbl) (rest : Bytes) :
    alphabetPrefix (c :: rest) = [] :=
  List.takeWhile_cons_of_neg (by rw [decide_eq_true_eq]; exact foreign)

/-- What the next character does to the bits read. -/
theorem bitString_next {c : UInt8} (mem : c ∈ tbl) (read : List Bool) (rest : Bytes) :
    read ++ bitString (alphabetPrefix (c :: rest)) =
      read ++ wordBits 6 (tbl.idxOf c) ++ bitString (alphabetPrefix rest) := by
  rw [alphabetPrefix_cons mem, bitString, List.flatMap_cons, ← List.append_assoc]
  rfl

theorem bitString_end {c : UInt8} (foreign : c ∉ tbl) (read : List Bool) (rest : Bytes) :
    read ++ bitString (alphabetPrefix (c :: rest)) = read := by
  rw [alphabetPrefix_foreign foreign]
  exact List.append_nil read

theorem length_octets (bits : List Bool) : (octets bits).length = bits.length / 8 := by
  rw [octets, List.length_map, length_words]

theorem octets_of_lt {bits : List Bool} (short : bits.length < 8) : octets bits = [] := by
  rw [octets, words_of_lt short]
  rfl

theorem octets_append {front : List Bool} (full : front.length = 8) (back : List Bool) :
    octets (front ++ back) = UInt8.ofNat (value front) :: octets back := by
  rw [octets, words_append (by decide) full, List.map_cons]
  rfl

/-- A character pushes six bits. With eight or more pending, the first eight are written. -/
theorem b64Loop_push {c : UInt8} (mem : c ∈ tbl) (rest : Bytes) {val : Int} {pending : List Bool}
    (holds : Holds val pending) (short : pending.length < 8) :
    ∃ val' : Int, Holds val' (pending ++ wordBits 6 (tbl.idxOf c)) ∧
      b64Loop (c :: rest) val (pending.length - 8) =
        if 2 ≤ pending.length then
          UInt8.ofNat ((val' >>> (pending.length - 2)) % 256).toNat ::
            b64Loop rest val' (pending.length - 10)
        else b64Loop rest val' (pending.length - 2) := by
  obtain ⟨small, same⟩ := tbl_position mem
  obtain ⟨k, step⟩ := b64Loop_tbl small rest val (pending.length - 8)
  have small' : tbl.idxOf c < 2 ^ 6 := small
  have room : (pending ++ wordBits 6 (tbl.idxOf c)).length ≤ 32 := by
    rw [List.length_append, length_wordBits]
    omega
  have pushed : Holds (val * 64 + tbl.idxOf c - 2 ^ 32 * k)
      (pending ++ wordBits 6 (tbl.idxOf c)) :=
    (holds.push small').sub_multiple room k
  have bits : (pending.length : Int) - 8 + 6 = pending.length - 2 := by omega
  refine ⟨_, pushed, ?_⟩
  rw [same, bits] at step
  rw [step]
  by_cases enough : 2 ≤ pending.length
  · have count : ((pending.length : Int) - 2).toNat = pending.length - 2 := by omega
    have left : (pending.length : Int) - 2 - 8 = pending.length - 10 := by omega
    rw [if_pos (by omega), if_pos enough, count, left]
  · rw [if_neg (by omega), if_neg enough]

/-- The pending bits, then those of the rest: the accumulator needs no mask. -/
theorem b64Loop_octets (s : Bytes) {val : Int} {pending : List Bool} (holds : Holds val pending)
    (short : pending.length < 8) :
    b64Loop s val (pending.length - 8) = octets (pending ++ bitString (alphabetPrefix s)) := by
  induction s generalizing val pending with
  | nil =>
      have empty : pending ++ bitString (alphabetPrefix []) = pending := List.append_nil pending
      rw [empty, octets_of_lt short]
      rfl
  | cons c rest ih =>
      by_cases mem : c ∈ tbl
      · obtain ⟨val', pushed, step⟩ := b64Loop_push mem rest holds short
        have grown : (pending ++ wordBits 6 (tbl.idxOf c)).length = pending.length + 6 := by
          rw [List.length_append, length_wordBits]
        rw [step, bitString_next mem]
        generalize pending ++ wordBits 6 (tbl.idxOf c) = bits at pushed grown
        by_cases enough : 2 ≤ pending.length
        · -- The first eight bits are written, the others stay pending.
          obtain ⟨front, back, rfl, full⟩ :
              ∃ front back, bits = front ++ back ∧ front.length = 8 :=
            ⟨bits.take 8, bits.drop 8, (List.take_append_drop 8 bits).symm,
              List.length_take_of_le (by omega)⟩
          have left : back.length = pending.length - 2 := by
            rw [List.length_append, full] at grown
            omega
          have byte : (val' >>> (pending.length - 2)) % 256 = value front := by
            have first := pushed.take
            rw [Holds, full] at first
            rw [Int.shiftRight_eq_div_pow, ← left]
            exact_mod_cast first
          have next := ih pushed.drop (by omega)
          have bits' : (back.length : Int) - 8 = pending.length - 10 := by omega
          rw [bits'] at next
          rw [if_pos enough, byte, next, List.append_assoc, octets_append full, Int.toNat_natCast]
        · have next := ih pushed (by omega)
          have bits' : (bits.length : Int) - 8 = pending.length - 2 := by omega
          rw [bits'] at next
          rw [if_neg enough, next]
      · rw [bitString_end mem, octets_of_lt short, b64Loop_foreign mem]

/-- The whole bytes alone are read: two bit strings that agree in them decode alike. -/
theorem octets_take (bits : List Bool) :
    octets (bits.take (8 * (octets bits).length)) = octets bits := by
  rw [length_octets, octets, words_take, octets]

theorem b64Decode_eq_octets (s : Bytes) : b64Decode s = octets (bitString (alphabetPrefix s)) :=
  b64Loop_octets s (Holds.nil 0) (by decide)

theorem length_b64Decode (s : Bytes) :
    (b64Decode s).length = 6 * (alphabetPrefix s).length / 8 := by
  rw [b64Decode_eq_octets, length_octets, length_bitString]

theorem alphabetPrefix_append {c : UInt8} (foreign : c ∉ tbl) (s rest : Bytes) :
    alphabetPrefix (alphabetPrefix s ++ c :: rest) = alphabetPrefix s := by
  have inside : ∀ d ∈ alphabetPrefix s, decide (d ∈ tbl) = true := by
    intro d mem
    exact List.mem_takeWhile_imp (p := fun c => decide (c ∈ tbl)) mem
  have stop : alphabetPrefix (c :: rest) = [] := alphabetPrefix_foreign foreign rest
  rw [alphabetPrefix, List.takeWhile_append_of_pos inside]
  change alphabetPrefix s ++ alphabetPrefix (c :: rest) = alphabetPrefix s
  rw [stop, List.append_nil]

/-- The decoder gives the whole bytes of the bit string written by the longest prefix of alphabet
characters. Padding, bytes of 128 or more and every other byte outside the alphabet end it;
nothing behind them and no bit left at the end counts. -/
theorem b64Decode_octets (s : Bytes) :
    b64Decode s = octets (bitString (alphabetPrefix s)) ∧
      (b64Decode s).length = 6 * (alphabetPrefix s).length / 8 ∧
      (pad ∉ tbl ∧ ∀ c : UInt8, c ≥ 128 → c ∉ tbl) ∧
      (∀ (c : UInt8) (rest : Bytes), c ∉ tbl →
        b64Decode (alphabetPrefix s ++ c :: rest) = b64Decode s) ∧
      ∀ t : Bytes, (alphabetPrefix t).length = (alphabetPrefix s).length →
        (bitString (alphabetPrefix t)).take (8 * (b64Decode s).length) =
          (bitString (alphabetPrefix s)).take (8 * (b64Decode s).length) →
        b64Decode t = b64Decode s := by
  refine ⟨b64Decode_eq_octets s, length_b64Decode s, ⟨pad_not_mem_tbl, fun _ => high_not_mem⟩,
    ?_, ?_⟩
  · intro c rest foreign
    rw [b64Decode_eq_octets, alphabetPrefix_append foreign, ← b64Decode_eq_octets]
  · intro t sameLength sameBits
    have count : (b64Decode t).length = (b64Decode s).length := by
      rw [length_b64Decode, length_b64Decode, sameLength]
    calc b64Decode t
        = octets ((bitString (alphabetPrefix t)).take (8 * (b64Decode t).length)) := by
          rw [b64Decode_eq_octets, octets_take]
      _ = octets ((bitString (alphabetPrefix s)).take (8 * (b64Decode s).length)) := by
          rw [count, sameBits]
      _ = b64Decode s := by
          rw [b64Decode_eq_octets, octets_take]

end OrbisAgent.Config.Base64Decoded
