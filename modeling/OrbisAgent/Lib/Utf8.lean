/- OrbisAgent/Lib/Utf8
   generality: G
   digest: Where valid UTF-8 can be cut, at the front, at the back, and by the C functions that
   fill a buffer. -/

import OrbisAgent.Lib.CText
import OrbisAgent.Lib.JsonText

set_option autoImplicit false
set_option relaxedAutoImplicit false

namespace OrbisAgent.Lib.Utf8

open OrbisAgent.Lib.ByteString
open OrbisAgent.Lib.CText
open OrbisAgent.Lib.Json
open OrbisAgent.Lib.JsonText (toText)

def Valid (s : Bytes) : Prop := (toText s).validateUTF8 = true

/-- Byte `n` begins a character, unless the text ends before it. -/
def CharacterAt (s : Bytes) (n : Nat) : Prop := ∀ b, s[n]? = some b → b.IsUTF8FirstByte

instance (s : Bytes) (n : Nat) : Decidable (CharacterAt s n) :=
  match found : s[n]? with
  | none => .isTrue fun _ here => nomatch found.symm.trans here
  | some b => decidable_of_iff b.IsUTF8FirstByte
      ⟨fun first _ here => Option.some.inj (found.symm.trans here) ▸ first, fun all => all b found⟩

/-- Bytes of one-byte characters other than the zero byte. -/
def Ascii (s : Bytes) : Prop := ∀ b ∈ s, 0 < b ∧ b < 128

instance (s : Bytes) : Decidable (Ascii s) :=
  decidable_of_iff (s.all (fun b => decide (0 < b ∧ b < 128)) = true) (by simp [Ascii])

variable {s t : Bytes} {n : Nat}

theorem toText_append : toText (s ++ t) = toText s ++ toText t := by
  apply ByteArray.ext
  simp [toText]

theorem toText_take : toText (s.take n) = (toText s).extract 0 n := by
  apply ByteArray.ext
  apply Array.toList_inj.mp
  simp [toText]

theorem toText_drop : toText (s.drop n) = (toText s).extract n s.length := by
  apply ByteArray.ext
  apply Array.toList_inj.mp
  simp [toText, List.take_of_length_le]

theorem Valid.append (validS : Valid s) (validT : Valid t) : Valid (s ++ t) := by
  unfold Valid
  rw [toText_append]
  exact Json.validateUTF8_append validS validT

/-- The text that valid bytes spell. -/
def Valid.text (valid : Valid s) : String :=
  String.fromUTF8 (toText s) (ByteArray.validateUTF8_eq_true_iff.mp valid)

/-- The places between two characters of a text, and its end. -/
theorem isValid_iff_characterAt (valid : Valid s) (inside : n ≤ s.length) :
    (String.Pos.Raw.mk n).IsValid valid.text ↔ CharacterAt s n := by
  have size : valid.text.rawEndPos = ⟨s.length⟩ := by
    apply String.Pos.Raw.ext
    rw [String.byteIdx_rawEndPos, ← String.size_toByteArray]
    rfl
  rw [String.Pos.Raw.isValid_iff_isUTF8FirstByte]
  constructor
  · rintro (ended | ⟨before, first⟩) b here
    · obtain rfl : n = s.length := congrArg String.Pos.Raw.byteIdx (ended.trans size)
      rw [List.getElem?_eq_none (Nat.le_refl _)] at here
      cases here
    · obtain ⟨below, rfl⟩ := List.getElem?_eq_some_iff.mp here
      exact first
  · intro first
    rcases Nat.lt_or_eq_of_le inside with below | ended
    · have before : String.Pos.Raw.mk n < valid.text.rawEndPos := by
        rw [size]
        exact below
      exact .inr ⟨before, first s[n] (List.getElem?_eq_getElem below)⟩
    · rw [ended]
      exact .inl size.symm

/-- A front of a valid text is valid just when the cut falls between two characters. -/
theorem valid_take_iff (valid : Valid s) : Valid (s.take n) ↔ CharacterAt s n := by
  by_cases inside : n ≤ s.length
  · rw [← isValid_iff_characterAt valid inside, String.Pos.Raw.isValid_iff_isValidUTF8_extract_zero]
    unfold Valid
    rw [toText_take, ByteArray.validateUTF8_eq_true_iff]
    exact ⟨fun whole => ⟨inside, whole⟩, And.right⟩
  · have past : s.length ≤ n := by omega
    rw [List.take_of_length_le past]
    refine ⟨fun _ b here => ?_, fun _ => valid⟩
    rw [List.getElem?_eq_none past] at here
    cases here

/-- So is what is left of it. -/
theorem valid_drop_iff (valid : Valid s) : Valid (s.drop n) ↔ CharacterAt s n := by
  by_cases inside : n ≤ s.length
  · rw [← isValid_iff_characterAt valid inside,
      String.Pos.Raw.isValid_iff_isValidUTF8_extract_utf8ByteSize]
    unfold Valid
    rw [toText_drop, ByteArray.validateUTF8_eq_true_iff]
    exact ⟨fun whole => ⟨inside, whole⟩, And.right⟩
  · have past : s.length ≤ n := by omega
    rw [List.drop_of_length_le past]
    refine ⟨fun _ b here => ?_, fun _ => Json.validateUTF8_empty⟩
    rw [List.getElem?_eq_none past] at here
    cases here

theorem characterAt_append :
    CharacterAt (s ++ t) n ↔ CharacterAt s n ∧ (s.length ≤ n → CharacterAt t (n - s.length)) := by
  unfold CharacterAt
  by_cases inside : n < s.length
  · rw [List.getElem?_append_left inside]
    refine ⟨fun first => ⟨first, fun past => ?_⟩, And.left⟩
    omega
  · have past : s.length ≤ n := by omega
    rw [List.getElem?_append_right past, List.getElem?_eq_none past]
    exact ⟨fun first => ⟨nofun, fun _ => first⟩, fun both => both.2 past⟩

/-- A byte under 128 is a character. -/
theorem character_of_lt {b : UInt8} (small : b < 128) : b.IsUTF8FirstByte ∧ Valid [b] := by
  have all : ∀ n : Fin 128,
      (UInt8.ofNat n).IsUTF8FirstByte ∧ (toText [UInt8.ofNat n]).validateUTF8 = true := by decide
  have fits : b.toNat < 128 := UInt8.lt_iff_toNat_lt.mp small
  have here := all ⟨b.toNat, fits⟩
  rw [UInt8.ofNat_toNat] at here
  exact here

theorem Ascii.characterAt (ascii : Ascii s) : CharacterAt s n := by
  intro b here
  exact (character_of_lt (ascii b (List.mem_of_getElem? here)).2).1

theorem Ascii.valid (ascii : Ascii s) : Valid s := by
  induction s with
  | nil => exact Json.validateUTF8_empty
  | cons b s ih =>
      have rest := ih fun c mem => ascii c (List.mem_cons_of_mem b mem)
      exact (character_of_lt (ascii b List.mem_cons_self).2).2.append rest

theorem Ascii.zero_notMem (ascii : Ascii s) : 0 ∉ s :=
  fun mem => absurd (ascii 0 mem).1 (by decide)

theorem ascii_append : Ascii (s ++ t) ↔ Ascii s ∧ Ascii t := List.forall_mem_append

theorem ascii_digits (n : Nat) : Ascii (digits n) := by
  intro b mem
  have digit := isDigit_of_mem_digits mem
  simp only [isDigit, Bool.and_eq_true, decide_eq_true_eq, UInt8.le_iff_toNat_le] at digit
  have low : (48 : UInt8).toNat = 48 := rfl
  have top : (57 : UInt8).toNat = 57 := rfl
  rw [UInt8.lt_iff_toNat_lt, UInt8.lt_iff_toNat_lt]
  have zero : (0 : UInt8).toNat = 0 := rfl
  have bound : (128 : UInt8).toNat = 128 := rfl
  omega

/-- The zero byte that ends a C string begins a character. -/
theorem Valid.cString (valid : Valid s) : Valid (cString s) := by
  have front : CText.cString s = s.take (CText.cString s).length :=
    List.prefix_iff_eq_take.mp (List.takeWhile_prefix _)
  rw [front, valid_take_iff valid]
  clear front valid
  induction s with
  | nil => nofun
  | cons b s ih =>
      unfold CText.cString at ih ⊢
      rw [List.takeWhile_cons]
      split
      · exact ih
      · rename_i ends
        intro c here
        obtain rfl : b = c := Option.some.inj here
        have zero : b = 0 := by simpa using ends
        rw [zero]
        decide

/-- `snprintf` into a buffer of `size` bytes, read as a C string. -/
def snprintf (size : Nat) (line : Bytes) : Bytes := cString (line.take (size - 1))

theorem valid_snprintf_iff {size : Nat} (valid : Valid s) (solid : 0 ∉ s) :
    Valid (snprintf size s) ↔ CharacterAt s (size - 1) := by
  have whole : 0 ∉ s.take (size - 1) := fun mem => solid (List.mem_of_mem_take mem)
  unfold snprintf
  rw [cString_of_notMem whole, valid_take_iff valid]

end OrbisAgent.Lib.Utf8
