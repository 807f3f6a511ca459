/- OrbisAgent/Lib/ByteString
   generality: G
   digest: Byte strings, text constants as bytes, the first line of a text, an escape without
   newlines, and hexadecimal numbers. -/

import Mathlib.Algebra.Group.Int.Defs
import Mathlib.Algebra.Group.Nat.Defs
import Mathlib.Data.List.TakeWhile

set_option autoImplicit false
set_option relaxedAutoImplicit false

namespace OrbisAgent.Lib.ByteString

abbrev Bytes := List UInt8

/-- The UTF-8 bytes of a text. -/
def bytes (s : String) : Bytes := s.toByteArray.data.toList

theorem length_bytes (s : String) : (bytes s).length = s.toByteArray.size :=
  Array.length_toList

/-- A text of letters has one byte for each. -/
theorem bytes_replicate (n : Nat) :
    bytes (String.ofList (List.replicate n 'a')) = List.replicate n 97 := by
  unfold bytes
  rw [String.toByteArray_ofList]
  induction n with
  | zero => rfl
  | succ n ih =>
      have one : ['a'].utf8Encode.data.toList = [97] := by decide
      rw [List.replicate_succ, List.utf8Encode_cons, ByteArray.data_append, Array.toList_append,
        one, ih]
      rfl

def newline : UInt8 := 10

/-- What `getline` reads: the bytes before the first newline. -/
def firstLine (content : Bytes) : Bytes := content.takeWhile fun b => b != newline

theorem firstLine_of_line {line : Bytes} (whole : newline ∉ line) (rest : Bytes) :
    firstLine (line ++ newline :: rest) = line := by
  induction line with
  | nil => rfl
  | cons b line ih =>
      have apart : (b != newline) = true := by
        rw [bne_iff_ne]
        rintro rfl
        exact whole List.mem_cons_self
      have tail := ih fun mem => whole (List.mem_cons_of_mem b mem)
      unfold firstLine at tail ⊢
      rw [List.cons_append, List.takeWhile_cons, if_pos apart, tail]

/-- Two bytes for each byte, none of them a newline. -/
def escapeBytes : Bytes → Bytes
  | [] => []
  | b :: rest => if b = newline then 0 :: 0 :: escapeBytes rest else 1 :: b :: escapeBytes rest

theorem escapeBytes_injective {input other : Bytes} (same : escapeBytes input = escapeBytes other) :
    input = other := by
  induction input generalizing other with
  | nil =>
      cases other with
      | nil => rfl
      | cons c other =>
          simp only [escapeBytes] at same
          split at same <;> cases same
  | cons b input ih =>
      cases other with
      | nil =>
          simp only [escapeBytes] at same
          split at same <;> cases same
      | cons c other =>
          simp only [escapeBytes] at same
          split at same <;> split at same <;> simp at same
          · rename_i left right
            rw [left, right, ih same]
          · rw [same.1, ih same.2]

theorem newline_notMem_escapeBytes (input : Bytes) : newline ∉ escapeBytes input := by
  induction input with
  | nil => exact List.not_mem_nil
  | cons b input ih =>
      unfold escapeBytes
      split
      · rw [List.mem_cons, List.mem_cons, not_or, not_or]
        exact ⟨by decide, by decide, ih⟩
      · rename_i other
        rw [List.mem_cons, List.mem_cons, not_or, not_or]
        exact ⟨by decide, Ne.symm other, ih⟩

def hexDigit (n : Nat) : UInt8 := if n < 10 then 48 + n.toUInt8 else 87 + n.toUInt8

/-- The last `width` digits of a number in base sixteen. -/
def hex : Nat → Nat → Bytes
  | 0, _ => []
  | width + 1, n => hex width (n / 16) ++ [hexDigit (n % 16)]

theorem length_hex (width n : Nat) : (hex width n).length = width := by
  induction width generalizing n with
  | zero => rfl
  | succ width ih =>
      rw [hex, List.length_append, ih]
      rfl

theorem mem_hex {width n : Nat} {b : UInt8} (mem : b ∈ hex width n) :
    ∃ d, d < 16 ∧ b = hexDigit d := by
  induction width generalizing n with
  | zero => cases mem
  | succ width ih =>
      rw [hex, List.mem_append, List.mem_singleton] at mem
      rcases mem with before | rfl
      · exact ih before
      · exact ⟨n % 16, Nat.mod_lt n (by decide), rfl⟩

theorem hexDigit_injective {m n : Nat} (small : m < 16) (small' : n < 16)
    (same : hexDigit m = hexDigit n) : m = n := by
  have all : ∀ m n : Fin 16, hexDigit m = hexDigit n → m = n := by decide +kernel
  exact congrArg Fin.val (all ⟨m, small⟩ ⟨n, small'⟩ same)

/-- Numbers that have so many digits are told apart. -/
theorem hex_injective {width m n : Nat} (fits : m < 16 ^ width) (fits' : n < 16 ^ width)
    (same : hex width m = hex width n) : m = n := by
  induction width generalizing m n with
  | zero => omega
  | succ width ih =>
      rw [Nat.pow_succ] at fits fits'
      rw [hex, hex] at same
      obtain ⟨front, last⟩ := List.append_inj' same rfl
      have quotient := ih (Nat.div_lt_of_lt_mul (by omega)) (Nat.div_lt_of_lt_mul (by omega)) front
      have digit := hexDigit_injective (Nat.mod_lt m (by omega)) (Nat.mod_lt n (by omega))
        (List.cons.inj last).1
      omega

/-- The first of the digits. -/
theorem hex_succ_eq_cons (width n : Nat) :
    hex (width + 1) n = hexDigit (n / 16 ^ width % 16) :: hex width n := by
  induction width generalizing n with
  | zero => simp [hex]
  | succ width ih =>
      have power : n / 16 / 16 ^ width = n / 16 ^ (width + 1) := by
        rw [Nat.div_div_eq_div_mul, Nat.pow_succ, Nat.mul_comm]
      rw [hex, ih, power, List.cons_append]
      rfl

end OrbisAgent.Lib.ByteString
