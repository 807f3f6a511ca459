/- OrbisAgent/Lib/JsonText
   generality: G
   digest: String literals of JSON, and texts of an object with one member. Only a text whose
   bytes stand for themselves can hold its own value. -/

import OrbisAgent.Lib.ByteString
import OrbisAgent.Lib.Json

set_option autoImplicit false
set_option relaxedAutoImplicit false

namespace OrbisAgent.Lib.JsonText

open OrbisAgent.Lib.ByteString
open OrbisAgent.Lib.Json

/-- Bytes that stand for themselves in a string literal: no control character, quote or
backslash. -/
def standsForItself (b : UInt8) : Bool := 32 ≤ b && b != 34 && b != 92

def Plain (s : Bytes) : Prop := ∀ b ∈ s, standsForItself b = true

instance (s : Bytes) : Decidable (Plain s) :=
  decidable_of_iff (s.all standsForItself = true) List.all_eq_true

/-- What a byte behind a backslash stands for. -/
def unescape (b : UInt8) : Option UInt8 :=
  if b = 34 ∨ b = 92 ∨ b = 47 then some b
  else if b = 98 then some 8
  else if b = 102 then some 12
  else if b = 110 then some 10
  else if b = 114 then some 13
  else if b = 116 then some 9
  else none

def hexValue (b : UInt8) : Option Nat :=
  if 48 ≤ b ∧ b ≤ 57 then some (b.toNat - 48)
  else if 65 ≤ b ∧ b ≤ 70 then some (b.toNat - 55)
  else if 97 ≤ b ∧ b ≤ 102 then some (b.toNat - 87)
  else none

/-- Four hexadecimal digits. -/
def codeUnit (p q r s : UInt8) : Option Nat := do
  let p ← hexValue p
  let q ← hexValue q
  let r ← hexValue r
  let s ← hexValue s
  pure (4096 * p + 256 * q + 16 * r + s)

/-- The bytes between the quotes of a string literal, and the string. A surrogate stands only
in a pair. -/
inductive Decodes : Bytes → Bytes → Prop
  | nil : Decodes [] []
  | byte {b : UInt8} {body value : Bytes} (plain : standsForItself b = true)
      (rest : Decodes body value) : Decodes (b :: body) (b :: value)
  | escape {c b : UInt8} {body value : Bytes} (known : unescape c = some b)
      (rest : Decodes body value) : Decodes (92 :: c :: body) (b :: value)
  | unicode {p q r s : UInt8} {c : Char} {body value : Bytes}
      (digits : codeUnit p q r s = some c.toNat) (rest : Decodes body value) :
      Decodes (92 :: 117 :: p :: q :: r :: s :: body) (String.utf8EncodeChar c ++ value)
  | pair {p q r s p' q' r' s' : UInt8} {high low : Nat} {c : Char} {body value : Bytes}
      (first : codeUnit p q r s = some (0xD800 + high)) (upper : high < 0x400)
      (second : codeUnit p' q' r' s' = some (0xDC00 + low)) (lower : low < 0x400)
      (joined : c.toNat = 0x10000 + 0x400 * high + low) (rest : Decodes body value) :
      Decodes (92 :: 117 :: p :: q :: r :: s :: 92 :: 117 :: p' :: q' :: r' :: s' :: body)
        (String.utf8EncodeChar c ++ value)

theorem not_plain_quote : standsForItself 34 = false := by decide

theorem not_plain_backslash : standsForItself 92 = false := by decide

theorem Plain.tail {b : UInt8} {s : Bytes} (plain : Plain (b :: s)) : Plain s :=
  fun c mem => plain c (List.mem_cons_of_mem b mem)

/-- A plain text is the body of itself. -/
theorem decodes_plain {s : Bytes} (plain : Plain s) : Decodes s s := by
  induction s with
  | nil => exact .nil
  | cons b s ih => exact .byte (plain b List.mem_cons_self) (ih plain.tail)

/-- An escape is longer than what it stands for. -/
theorem Decodes.shorter {body value : Bytes} (decodes : Decodes body value) :
    value.length < body.length ∨ value = body ∧ Plain body := by
  induction decodes with
  | nil => exact .inr ⟨rfl, nofun⟩
  | byte plain _ ih =>
      rcases ih with less | ⟨same, all⟩
      · exact .inl (Nat.succ_lt_succ less)
      · exact .inr ⟨by rw [same], List.forall_mem_cons.mpr ⟨plain, all⟩⟩
  | escape _ _ ih =>
      left
      have bound := ih.elim Nat.le_of_lt fun same => Nat.le_of_eq (congrArg List.length same.1)
      simp only [List.length_cons]
      omega
  | @unicode _ _ _ _ c _ _ _ _ ih =>
      left
      have bound := ih.elim Nat.le_of_lt fun same => Nat.le_of_eq (congrArg List.length same.1)
      have size := c.utf8Size_le_four
      simp only [List.length_append, String.length_utf8EncodeChar, List.length_cons]
      omega
  | @pair _ _ _ _ _ _ _ _ _ _ c _ _ _ _ _ _ _ _ ih =>
      left
      have bound := ih.elim Nat.le_of_lt fun same => Nat.le_of_eq (congrArg List.length same.1)
      have size := c.utf8Size_le_four
      simp only [List.length_append, String.length_utf8EncodeChar, List.length_cons]
      omega

/-- A plain byte in front of a body stands for itself. -/
theorem Decodes.of_cons {b : UInt8} {body value : Bytes} (decodes : Decodes (b :: body) value)
    (plain : standsForItself b = true) : ∃ rest, value = b :: rest ∧ Decodes body rest := by
  cases decodes with
  | byte _ rest => exact ⟨_, rfl, rest⟩
  | escape => cases not_plain_backslash.symm.trans plain
  | unicode => cases not_plain_backslash.symm.trans plain
  | pair => cases not_plain_backslash.symm.trans plain

theorem not_decodes_quote {body value : Bytes} : ¬ Decodes (34 :: body) value := by
  intro decodes
  cases decodes with
  | byte plain _ => cases not_plain_quote.symm.trans plain

theorem Decodes.eq_of_plain {body value : Bytes} (decodes : Decodes body value)
    (plain : Plain body) : value = body := by
  induction body generalizing value with
  | nil =>
      cases decodes
      rfl
  | cons b body ih =>
      obtain ⟨rest, rfl, tail⟩ := decodes.of_cons (plain b List.mem_cons_self)
      rw [ih tail plain.tail]

/-- The body of a literal ends at the first quote behind plain bytes. -/
theorem Decodes.first_quote {body value k post rest : Bytes} (decodes : Decodes body value)
    (plain : Plain k) (same : body ++ 34 :: post = k ++ 34 :: rest) : body = k ∧ post = rest := by
  induction k generalizing body value with
  | nil =>
      cases body with
      | nil => exact ⟨rfl, (List.cons.inj same).2⟩
      | cons b body =>
          obtain rfl := (List.cons.inj same).1
          exact absurd decodes not_decodes_quote
  | cons b k ih =>
      have itself := plain b List.mem_cons_self
      cases body with
      | nil =>
          obtain rfl := (List.cons.inj same).1
          cases not_plain_quote.symm.trans itself
      | cons b' body =>
          obtain ⟨rfl, tails⟩ := List.cons.inj same
          obtain ⟨_, _, front⟩ := decodes.of_cons itself
          obtain ⟨rfl, posts⟩ := ih front plain.tail tails
          exact ⟨rfl, posts⟩

/-- A quote in a text is the first one behind plain bytes, or comes after it. -/
theorem quote_behind_plain {pre k x y : Bytes} (plain : Plain k)
    (same : pre ++ 34 :: x = k ++ 34 :: y) :
    pre = k ∧ x = y ∨ ∃ pre', pre' ++ 34 :: x = y := by
  induction k generalizing pre with
  | nil =>
      cases pre with
      | nil => exact .inl ⟨rfl, (List.cons.inj same).2⟩
      | cons b pre => exact .inr ⟨pre, (List.cons.inj same).2⟩
  | cons b k ih =>
      cases pre with
      | nil =>
          obtain rfl := (List.cons.inj same).1
          cases not_plain_quote.symm.trans (plain 34 List.mem_cons_self)
      | cons b' pre =>
          obtain ⟨rfl, tails⟩ := List.cons.inj same
          rcases ih plain.tail tails with ⟨rfl, rests⟩ | later
          · exact .inl ⟨rfl, rests⟩
          · exact .inr later

/-- An object with one member, both written as they are. -/
def memberText (key s : Bytes) : Bytes :=
  123 :: 34 :: (key ++ 34 :: 58 :: 34 :: (s ++ [34, 125]))

/-- A literal somewhere in a text of one member that has the member's value as its own: then
the value is plain. -/
theorem plain_of_literal {key s pre body post : Bytes} (plainKey : Plain key)
    (decodes : Decodes body s) (found : memberText key s = pre ++ 34 :: (body ++ 34 :: post)) :
    Plain s := by
  -- a literal with this value is plain, or longer than the value
  refine decodes.shorter.symm.elim (fun same => same.1.symm ▸ same.2) fun longer => ?_
  exfalso
  have whole (k : Bytes) (plain : Plain k) (same : body = k) : False := by
    subst same
    rw [decodes.eq_of_plain plain] at longer
    exact absurd longer (Nat.lt_irrefl _)
  unfold memberText at found
  cases pre with
  | nil => cases (List.cons.inj found).1
  | cons b pre =>
      have found := (List.cons.inj found).2
      cases pre with
      | nil =>
          -- it starts where the key does
          have inside := (List.cons.inj found).2
          exact whole key plainKey (decodes.first_quote plainKey inside.symm).1
      | cons b pre =>
          have found := (List.cons.inj found).2
          rcases quote_behind_plain plainKey found.symm with ⟨_, inside⟩ | ⟨pre', later⟩
          · -- it starts at the end of the key
            have colon : Plain [58] := by decide
            exact whole [58] colon (decodes.first_quote colon inside).1
          · cases pre' with
            | nil => cases (List.cons.inj later).1
            | cons b pre' =>
                have later := (List.cons.inj later).2
                cases pre' with
                | nil =>
                    -- it starts where the value does, and the text ends with a brace
                    have inside : body ++ 34 :: post = s ++ [34, 125] := (List.cons.inj later).2
                    have sizes := congrArg List.length inside
                    simp only [List.length_cons, List.length_append, List.length_nil] at sizes
                    have none : post = [] := List.eq_nil_of_length_eq_zero (by omega)
                    have last := congrArg List.getLast? inside
                    simp [none] at last
                | cons b pre' =>
                    have inside : pre' ++ 34 :: (body ++ 34 :: post) = s ++ [34, 125] :=
                      (List.cons.inj later).2
                    have sizes := congrArg List.length inside
                    simp only [List.length_cons, List.length_append, List.length_nil] at sizes
                    omega

def toText (s : Bytes) : ByteArray := ⟨s.toArray⟩

theorem toText_toList (s : ByteArray) : toText s.data.toList = s := rfl

theorem toText_injective {s t : Bytes} (same : toText s = toText t) : s = t :=
  List.toArray_inj (congrArg ByteArray.data same)

theorem bytes_injective {s t : String} (same : bytes s = bytes t) : s = t := by
  have arrays := congrArg toText same
  exact String.toByteArray_inj.mp arrays

/-- The text of a member that is put together from strings. -/
theorem concatenated_member {front back : ByteArray} {key : String}
    (opening : front.data.toList = 123 :: 34 :: (bytes key ++ [34, 58, 34]))
    (closing : back.data.toList = [34, 125]) (s : ByteArray) :
    front ++ s ++ back = toText (memberText (bytes key) s.data.toList) := by
  apply ByteArray.ext
  apply Array.toList_inj.mp
  simp [toText, memberText, opening, closing]

/-- A parser that knows some texts. -/
def table (known : List (Bytes × Json)) (valid : ∀ p ∈ known, p.2.wellEncoded = true) : Codec where
  parse s :=
    match known.find? fun p => p.1 == s.data.toList with
    | some p => .ok p.2
    | none => .error ⟨.parse_error, "[json.exception.parse_error.101] parse error"⟩
  render := plainText
  badEncoding _ := ⟨.other, "[json.exception.type_error.316] invalid UTF-8 byte"⟩
  wellEncoded_of_parse s j parsed := by
    split at parsed
    · rename_i p found
      obtain rfl := Except.ok.inj parsed
      exact valid p (List.mem_of_find?_eq_some found)
    · cases parsed

/-- What is used of a parser at one text: an object with one string literal is read as such,
and a string that is read from an object is spelled by a literal. -/
structure ReadsAt (codec : Codec) (text : Bytes) : Prop where
  member : ∀ (key : String) (body value : Bytes), text = memberText (bytes key) body →
    Plain (bytes key) → (toText body).validateUTF8 = true → Decodes body value →
      codec.parse (toText text) = .ok (.obj [(key, .str (toText value))])
  spelled : ∀ (fields : List (String × Json)) (key : String) (value : Bytes),
    codec.parse (toText text) = .ok (.obj fields) →
      fields.lookup key = some (.str (toText value)) →
        ∃ pre body post, text = pre ++ 34 :: (body ++ 34 :: post) ∧ Decodes body value

/-- Between bare quotes a text is read as itself exactly when it is plain. -/
theorem parse_memberText_iff {codec : Codec} {key : String} {s : Bytes}
    (reads : ReadsAt codec (memberText (bytes key) s)) (plainKey : Plain (bytes key))
    (valid : (toText s).validateUTF8 = true) :
    codec.parse (toText (memberText (bytes key) s)) = .ok (.obj [(key, .str (toText s))]) ↔
      Plain s := by
  constructor
  · intro parsed
    have found : [(key, Json.str (toText s))].lookup key = some (.str (toText s)) := by
      simp
    obtain ⟨pre, body, post, split, decodes⟩ := reads.spelled _ key s parsed found
    exact plain_of_literal plainKey decodes split
  · intro plain
    exact reads.member key s s rfl plainKey valid (decodes_plain plain)

/-- A parser that reads a plain member as it is written. -/
theorem readsAt_of_plain {codec : Codec} {key : String} {s : Bytes} (plainKey : Plain (bytes key))
    (plain : Plain s)
    (parsed : codec.parse (toText (memberText (bytes key) s)) =
      .ok (.obj [(key, .str (toText s))])) :
    ReadsAt codec (memberText (bytes key) s) where
  member key' body value same plainKey' _ decodes := by
    have inside := (List.cons.inj (List.cons.inj same).2).2
    obtain ⟨keys, rest⟩ := (decodes_plain plainKey).first_quote plainKey' inside
    obtain rfl := bytes_injective keys
    have bodies := (List.cons.inj (List.cons.inj rest).2).2
    obtain rfl := List.append_cancel_right bodies
    rw [decodes.eq_of_plain plain]
    exact parsed
  spelled fields key' value read found := by
    obtain rfl := Json.obj.inj (Except.ok.inj (parsed.symm.trans read))
    refine ⟨123 :: 34 :: (bytes key ++ [34, 58]), s, [125], by simp [memberText], ?_⟩
    rw [List.lookup_cons] at found
    split at found
    · obtain rfl := toText_injective (Json.str.inj (Option.some.inj found))
      exact decodes_plain plain
    · cases found

end OrbisAgent.Lib.JsonText
