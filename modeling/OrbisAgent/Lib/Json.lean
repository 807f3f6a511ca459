/- OrbisAgent/Lib/Json
   generality: G
   digest: JSON values over byte strings, checked serialisation, and accessors that throw. -/

import Mathlib.Algebra.Group.Int.Defs
import Mathlib.Algebra.Group.Nat.Defs

set_option autoImplicit false
set_option relaxedAutoImplicit false
-- the type `Json` of the module `Json`
set_option linter.dupNamespace false

namespace OrbisAgent.Lib.Json

-- Batteries has a second instance, which a module sees or not by its imports.
instance decidableEqByteArray : DecidableEq ByteArray := ByteArray.instDecidableEq

/-- JSON values. Strings are byte strings that need not be valid UTF-8, and a
float is `mantissa * 2 ^ exponent`. -/
inductive Json
  | null
  | bool (b : Bool)
  | int (n : Int)
  | float (mantissa exponent : Int)
  | str (s : ByteArray)
  | arr (items : List Json)
  | obj (fields : List (String × Json))

/-- The class of an exception, as far as a handler tells it from others. -/
inductive ExnClass
  | parse_error
  | other
  deriving DecidableEq

/-- An exception, with the text of its `what()`. -/
structure Exn where
  kind : ExnClass
  what : String
  deriving DecidableEq

/-- A sequence that returned is one whose parts returned. -/
theorem ok_of_bind {α β : Type} {x : Except Exn α} {f : α → Except Exn β} {b : β}
    (done : (x >>= f) = .ok b) : ∃ a, x = .ok a ∧ f a = .ok b := by
  cases x with
  | error e => cases done
  | ok a => exact ⟨a, rfl, done⟩

namespace Json

/-- A string value of valid text. -/
def text (s : String) : Json := .str s.toByteArray

mutual

/-- Every string in the value is valid UTF-8. -/
def wellEncoded : Json → Bool
  | .str s => s.validateUTF8
  | .arr items => allWellEncoded items
  | .obj fields => fieldsWellEncoded fields
  | .null | .bool _ | .int _ | .float _ _ => true

def allWellEncoded : List Json → Bool
  | [] => true
  | j :: items => wellEncoded j && allWellEncoded items

def fieldsWellEncoded : List (String × Json) → Bool
  | [] => true
  | (_, j) :: fields => wellEncoded j && fieldsWellEncoded fields

end

@[simp] theorem wellEncoded_null : Json.null.wellEncoded = true := rfl

@[simp] theorem wellEncoded_bool (b : Bool) : (Json.bool b).wellEncoded = true := rfl

@[simp] theorem wellEncoded_int (n : Int) : (Json.int n).wellEncoded = true := rfl

@[simp] theorem wellEncoded_str (s : ByteArray) :
    (Json.str s).wellEncoded = s.validateUTF8 := rfl

@[simp] theorem validateUTF8_toByteArray (s : String) : s.toByteArray.validateUTF8 = true :=
  ByteArray.validateUTF8_eq_true_iff.mpr s.isValidUTF8

@[simp] theorem validateUTF8_empty : ByteArray.empty.validateUTF8 = true :=
  ByteArray.validateUTF8_eq_true_iff.mpr ByteArray.isValidUTF8_empty

theorem validateUTF8_append {s t : ByteArray} (validS : s.validateUTF8 = true)
    (validT : t.validateUTF8 = true) : (s ++ t).validateUTF8 = true := by
  rw [ByteArray.validateUTF8_eq_true_iff] at validS validT ⊢
  exact validS.append validT

/-- A front of a valid text is valid just when the next byte begins a character. -/
theorem validateUTF8_extract_iff {s : ByteArray} (valid : s.validateUTF8 = true) {n : Nat}
    (some : 0 < n) (inside : n < s.size) :
    (s.extract 0 n).validateUTF8 = true ↔ s[n].IsUTF8FirstByte := by
  rw [ByteArray.validateUTF8_eq_true_iff] at valid ⊢
  let whole := String.fromUTF8 s valid
  have bytes : whole.toByteArray = s := rfl
  have below : String.Pos.Raw.mk n ≤ whole.rawEndPos := by
    simp only [String.Pos.Raw.le_iff, String.byteIdx_rawEndPos, ← String.size_toByteArray, bytes]
    exact Nat.le_of_lt inside
  have cut := String.Pos.Raw.isValidUTF8_extract_iff (s := whole) ⟨0⟩ ⟨n⟩ (Nat.zero_le _) below
  rw [bytes] at cut
  rw [cut]
  have moved : String.Pos.Raw.mk 0 ≠ ⟨n⟩ := by
    intro same
    have zero := congrArg String.Pos.Raw.byteIdx same
    exact Nat.ne_of_lt some zero
  have unended : String.Pos.Raw.mk n ≠ whole.rawEndPos := by
    intro same
    have size := congrArg String.Pos.Raw.byteIdx same
    rw [String.byteIdx_rawEndPos, ← String.size_toByteArray, bytes] at size
    exact Nat.ne_of_lt inside size
  rw [String.Pos.Raw.isValid_iff_isUTF8FirstByte (p := ⟨n⟩)]
  constructor
  · rintro (same | ⟨_, same | ⟨_, first⟩⟩)
    · exact absurd same moved
    · exact absurd same unended
    · exact first
  · intro first
    refine .inr ⟨by simp, .inr ⟨?_, first⟩⟩
    simp only [String.Pos.Raw.lt_iff, String.byteIdx_rawEndPos, ← String.size_toByteArray, bytes]
    exact inside

/-- Valid text stays valid when it is cut where a character begins. -/
theorem validateUTF8_of_append {s t : ByteArray} (valid : (s ++ t).validateUTF8 = true)
    (some : 0 < t.size) (first : t[0].IsUTF8FirstByte) : s.validateUTF8 = true := by
  by_cases empty : s.size = 0
  · rw [ByteArray.size_eq_zero_iff.mp empty]
    exact validateUTF8_empty
  · have inside : s.size < (s ++ t).size := by
      rw [ByteArray.size_append]
      omega
    have cut := (validateUTF8_extract_iff valid (Nat.pos_of_ne_zero empty) inside).mpr
    rw [ByteArray.extract_append_eq_left rfl] at cut
    apply cut
    simpa [ByteArray.getElem_append_right] using first

@[simp] theorem wellEncoded_text (s : String) : (text s).wellEncoded = true :=
  validateUTF8_toByteArray s

@[simp] theorem wellEncoded_arr_nil : (Json.arr []).wellEncoded = true := rfl

@[simp] theorem wellEncoded_arr_cons (j : Json) (items : List Json) :
    (Json.arr (j :: items)).wellEncoded = (j.wellEncoded && (Json.arr items).wellEncoded) := rfl

theorem wellEncoded_arr {items : List Json} (all : ∀ j ∈ items, j.wellEncoded = true) :
    (Json.arr items).wellEncoded = true := by
  induction items with
  | nil => rfl
  | cons j items ih =>
      rw [wellEncoded_arr_cons, all j List.mem_cons_self,
        ih fun i mem => all i (List.mem_cons_of_mem j mem)]
      rfl

theorem wellEncoded_of_mem {items : List Json} {j : Json}
    (valid : (Json.arr items).wellEncoded = true) (mem : j ∈ items) : j.wellEncoded = true := by
  induction items with
  | nil => cases mem
  | cons first items ih =>
      rw [wellEncoded_arr_cons, Bool.and_eq_true] at valid
      rcases List.mem_cons.mp mem with rfl | later
      · exact valid.1
      · exact ih valid.2 later

@[simp] theorem wellEncoded_obj_nil : (Json.obj []).wellEncoded = true := rfl

@[simp] theorem wellEncoded_obj_cons (key : String) (j : Json) (fields : List (String × Json)) :
    (Json.obj ((key, j) :: fields)).wellEncoded =
      (j.wellEncoded && (Json.obj fields).wellEncoded) := rfl

/-- A field of a well encoded object is well encoded. -/
theorem wellEncoded_of_lookup {fields : List (String × Json)} {key : String} {j : Json}
    (valid : (Json.obj fields).wellEncoded = true) (found : fields.lookup key = some j) :
    j.wellEncoded = true := by
  induction fields with
  | nil => cases found
  | cons field fields ih =>
      obtain ⟨name, first⟩ := field
      rw [wellEncoded_obj_cons, Bool.and_eq_true] at valid
      rw [List.lookup_cons] at found
      split at found
      · obtain rfl := Option.some.inj found
        exact valid.1
      · exact ih valid.2 found

/-- The name of the value's type in error texts. -/
def typeName : Json → String
  | .null => "null"
  | .bool _ => "boolean"
  | .int _ | .float _ _ => "number"
  | .str _ => "string"
  | .arr _ => "array"
  | .obj _ => "object"

def getString : Json → Except Exn ByteArray
  | .str s => .ok s
  | j =>
      .error ⟨.other, "[json.exception.type_error.302] type must be string, but is " ++ j.typeName⟩

/-- Conversion to a 32-bit int: numbers and booleans, wrapped and truncated
toward zero. -/
def getInt : Json → Except Exn Int
  | .int n => .ok (n.bmod (2 ^ 32))
  | .float m e => .ok (if 0 ≤ e then m * 2 ^ e.toNat else m.tdiv (2 ^ (-e).toNat))
  | .bool b => .ok (if b then 1 else 0)
  | j =>
      .error ⟨.other, "[json.exception.type_error.302] type must be number, but is " ++ j.typeName⟩

def getJson (j : Json) : Except Exn Json := .ok j

/-- The field under a key, converted, or the default when there is no such field. -/
def value {α : Type} (get : Json → Except Exn α) (j : Json) (key : String) (default : α) :
    Except Exn α :=
  match j with
  | .obj fields =>
      match fields.lookup key with
      | some field => get field
      | none => .ok default
  | other =>
      .error ⟨.other, "[json.exception.type_error.306] cannot use value() with " ++ other.typeName⟩

theorem value_obj {α : Type} (get : Json → Except Exn α) (fields : List (String × Json))
    (key : String) (default : α) :
    (obj fields).value get key default =
      match fields.lookup key with
      | some field => get field
      | none => .ok default := rfl

theorem value_getJson (fields : List (String × Json)) (key : String) (default : Json) :
    (obj fields).value getJson key default = .ok ((fields.lookup key).getD default) := by
  rw [value_obj]
  cases fields.lookup key with
  | none => rfl
  | some field => rfl

/-- A text is read from an object, which has it under the key or has nothing there. -/
theorem lookup_of_value_getString {j : Json} {key : String} {default s : ByteArray}
    (read : j.value getString key default = .ok s) :
    ∃ fields, j = .obj fields ∧
      (fields.lookup key = some (.str s) ∨ fields.lookup key = none ∧ s = default) := by
  unfold value at read
  split at read
  · rename_i fields
    refine ⟨fields, rfl, ?_⟩
    split at read
    · rename_i field found
      cases field <;> simp only [getString, reduceCtorEq, Except.ok.injEq] at read
      subst read
      exact .inl found
    · rename_i missing
      cases read
      exact .inr ⟨missing, rfl⟩
  · cases read

/-- A text read from a well encoded object is valid, as the default is. -/
theorem valid_of_value_getString {j : Json} {key : String} {default s : ByteArray}
    (valid : j.wellEncoded = true) (fallback : default.validateUTF8 = true)
    (read : j.value getString key default = .ok s) : s.validateUTF8 = true := by
  obtain ⟨fields, rfl, found | ⟨_, rfl⟩⟩ := lookup_of_value_getString read
  · have encoded := wellEncoded_of_lookup valid found
    rw [wellEncoded_str] at encoded
    exact encoded
  · exact fallback

/-- A value read from a well encoded object is well encoded, as the default is. -/
theorem wellEncoded_of_value_getJson {j default field : Json} {key : String}
    (valid : j.wellEncoded = true) (fallback : default.wellEncoded = true)
    (read : j.value getJson key default = .ok field) : field.wellEncoded = true := by
  unfold value at read
  split at read
  · split at read
    · rename_i found
      cases read
      exact wellEncoded_of_lookup valid found
    · cases read
      exact fallback
  · cases read

end Json

/-- Parsing and printing, and the exception raised for a string that is not valid
UTF-8. The parser checks the encoding of what it reads. -/
structure Codec where
  parse : ByteArray → Except Exn Json
  render : Json → String
  badEncoding : Json → Exn
  wellEncoded_of_parse : ∀ s j, parse s = .ok j → j.wellEncoded = true

def Codec.dump (codec : Codec) (j : Json) : Except Exn String :=
  if j.wellEncoded then .ok (codec.render j) else .error (codec.badEncoding j)

@[simp] theorem Codec.dump_of_wellEncoded (codec : Codec) {j : Json}
    (valid : j.wellEncoded = true) : codec.dump j = .ok (codec.render j) := by
  simp [dump, valid]

section Plain

/-- A string in quotes, without escapes. -/
def quoted (s : ByteArray) : String := "\"" ++ (String.fromUTF8? s).getD "" ++ "\""

mutual

/-- The text of a value that has no floats and whose strings need no escapes. -/
def plainText : Json → String
  | .null => "null"
  | .bool b => if b then "true" else "false"
  | .int n => toString n
  | .float mantissa _ => toString mantissa
  | .str s => quoted s
  | .arr items => "[" ++ plainItems items ++ "]"
  | .obj fields => "\x7b" ++ plainFields fields ++ "\x7d"

def plainItems : List Json → String
  | [] => ""
  | [j] => plainText j
  | j :: items => plainText j ++ "," ++ plainItems items

def plainFields : List (String × Json) → String
  | [] => ""
  | [(key, j)] => quoted key.toByteArray ++ ":" ++ plainText j
  | (key, j) :: fields =>
      quoted key.toByteArray ++ ":" ++ plainText j ++ "," ++ plainFields fields

end

/-- A codec that prints plain texts and parses those of some documents. -/
def Codec.plain (known : List Json) (valid : ∀ j ∈ known, j.wellEncoded = true) : Codec where
  parse s :=
    match known.find? fun j =>
      (plainText j).toByteArray = s || (plainText j ++ "\n").toByteArray = s with
    | some j => .ok j
    | none => .error ⟨.parse_error, "[json.exception.parse_error.101] parse error"⟩
  render := plainText
  badEncoding _ := ⟨.other, "[json.exception.type_error.316] invalid UTF-8 byte"⟩
  wellEncoded_of_parse s j parsed := by
    split at parsed
    · rename_i found
      obtain rfl := Except.ok.inj parsed
      exact valid _ (List.mem_of_find?_eq_some found)
    · cases parsed

end Plain

/-- A value is printed as a text that is read back as the value. The quotes make the text of a
string longer than the string. -/
structure Codec.Prints (codec : Codec) (j : Json) : Prop where
  reparsed : codec.parse (codec.render j).toByteArray = .ok j
  nonempty : (codec.render j).toByteArray.isEmpty = false
  quoted : ∀ s, j = .str s → s.size < (codec.render j).toByteArray.size

end OrbisAgent.Lib.Json
