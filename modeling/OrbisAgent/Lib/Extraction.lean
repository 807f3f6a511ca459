/- OrbisAgent/Lib/Extraction
   generality: G
   digest: Formatted extraction from an input stream: words, unsigned 64-bit numbers, and the loop
   that reads records of a key, a number and a unit. -/

import OrbisAgent.Lib.CText
import OrbisAgent.Lib.MachineNumbers

set_option autoImplicit false
set_option relaxedAutoImplicit false

namespace OrbisAgent.Lib.Extraction

open OrbisAgent.Lib.ByteString
open OrbisAgent.Lib.CText
open OrbisAgent.Lib.MachineNumbers

universe u

/-- What is left to read, and the state bits. -/
structure IStream where
  rest : Bytes
  eof : Bool
  fail : Bool

/-- An input stream on a file. It has failed when there is no file to open. -/
def IStream.opened : Option Bytes → IStream
  | some content => ⟨content, false, false⟩
  | none => ⟨[], false, true⟩

/-- A stream that nothing has gone wrong with. -/
abbrev IStream.at (rest : Bytes) : IStream := ⟨rest, false, false⟩

/-- What stands in front of each extraction: blanks are skipped. When nothing is left, or the
stream was not good, it fails and the variable is not written. -/
def sentry (s : IStream) : Bool × IStream :=
  if s.eof || s.fail then (false, { s with fail := true })
  else
    match s.rest.dropWhile isSpace with
    | [] => (false, ⟨[], true, true⟩)
    | b :: rest => (true, .at (b :: rest))

/-- `s >> word`. `none` stands for a variable that was not written. -/
def word (s : IStream) : Option Bytes × IStream :=
  let (ready, s) := sentry s
  if ready then
    let after := s.rest.dropWhile fun b => !isSpace b
    (some (s.rest.takeWhile fun b => !isSpace b), ⟨after, after.isEmpty, false⟩)
  else (none, s)

/-- `s >> n` for an `unsigned long long`. Without digits the number is 0 and the stream fails;
a numeral that is too large gives the largest number and fails as well. A minus sign wraps. -/
def unsignedLongLong (s : IStream) : Option Nat × IStream :=
  let (ready, s) := sentry s
  if ready then
    let (negative, rest) := sign s.rest
    let numeral := rest.takeWhile isDigit
    let after := rest.dropWhile isDigit
    if numeral.isEmpty then (some 0, ⟨after, after.isEmpty, true⟩)
    else if 2 ^ 64 ≤ number numeral then (some (2 ^ 64 - 1), ⟨after, after.isEmpty, true⟩)
    else (some (if negative then subU64 0 (number numeral) else number numeral),
      ⟨after, after.isEmpty, false⟩)
  else (none, s)

/-- `s >> key >> val >> unit`, when it succeeds. -/
def entry (s : IStream) : Option (Bytes × Nat) × IStream :=
  let (key, s) := word s
  let (val, s) := unsignedLongLong s
  let (unit, s) := word s
  match key, val, unit with
  | some key, some val, some _ => (if s.fail then none else some (key, val), s)
  | _, _, _ => (none, s)

/-- A stream that is ready has something to read, behind the blanks. -/
theorem sentry_ready {s next : IStream} (ready : sentry s = (true, next)) :
    next = .at (s.rest.dropWhile isSpace) ∧ s.rest.dropWhile isSpace ≠ [] := by
  unfold sentry at ready
  split at ready
  · cases ready
  · cases left : s.rest.dropWhile isSpace with
    | nil =>
        rw [left] at ready
        cases ready
    | cons b rest =>
        rw [left] at ready
        exact ⟨(Prod.mk.inj ready).2.symm, List.cons_ne_nil b rest⟩

theorem sentry_suffix (s : IStream) : (sentry s).2.rest <:+ s.rest := by
  have ahead := List.dropWhile_suffix isSpace (l := s.rest)
  unfold sentry
  split
  · exact List.suffix_rfl
  · split
    · exact List.nil_suffix
    · rename_i left
      rw [left] at ahead
      exact ahead

theorem word_suffix (s : IStream) : (word s).2.rest <:+ s.rest := by
  simp only [word]
  split
  · exact (List.dropWhile_suffix _).trans (sentry_suffix s)
  · exact sentry_suffix s

theorem unsignedLongLong_suffix (s : IStream) : (unsignedLongLong s).2.rest <:+ s.rest := by
  have signless : (sign (sentry s).2.rest).2 <:+ (sentry s).2.rest := by
    unfold sign
    split
    · rename_i minus
      rw [minus]
      exact List.suffix_cons 45 _
    · rename_i plus
      rw [plus]
      exact List.suffix_cons 43 _
    · exact List.suffix_rfl
  have behind := ((List.dropWhile_suffix isDigit).trans signless).trans (sentry_suffix s)
  simp only [unsignedLongLong]
  split
  · split
    · exact behind
    · split
      · exact behind
      · exact behind
  · exact sentry_suffix s

theorem entry_suffix (s : IStream) : (entry s).2.rest <:+ s.rest := by
  have behind := ((word_suffix _).trans (unsignedLongLong_suffix _)).trans (word_suffix s)
  simp only [entry]
  split
  · exact behind
  · exact behind

/-- A word was in the stream. -/
theorem word_within {s : IStream} {w : Bytes} (written : (word s).1 = some w) : w <:+: s.rest := by
  simp only [word] at written
  split at written
  · obtain rfl := Option.some.inj written
    have front := List.takeWhile_prefix (fun b => !isSpace b) (l := (sentry s).2.rest)
    exact front.isInfix.trans (sentry_suffix s).isInfix
  · cases written

theorem entry_within {s : IStream} {e : Bytes × Nat} (read : (entry s).1 = some e) :
    e.1 <:+: s.rest := by
  simp only [entry] at read
  split at read
  · rename_i key _ _
    split at read
    · cases read
    · obtain rfl := Option.some.inj read
      exact word_within key
  · cases read

theorem unsignedLongLong_lt {s : IStream} {n : Nat} (written : (unsignedLongLong s).1 = some n) :
    n < 2 ^ 64 := by
  simp only [unsignedLongLong] at written
  split at written
  · split at written
    · obtain rfl := Option.some.inj written
      exact Nat.two_pow_pos 64
    · split at written
      · obtain rfl := Option.some.inj written
        omega
      · rename_i fits
        obtain rfl := Option.some.inj written
        split
        · exact Nat.mod_lt _ (Nat.two_pow_pos 64)
        · exact Nat.not_le.mp fits
  · cases written

theorem entry_lt {s : IStream} {e : Bytes × Nat} (read : (entry s).1 = some e) : e.2 < 2 ^ 64 := by
  simp only [entry] at read
  split at read
  · rename_i val _
    split at read
    · cases read
    · obtain rfl := Option.some.inj read
      exact unsignedLongLong_lt val
  · cases read

/-- A word that was read is gone. -/
theorem length_word_lt {s : IStream} (written : (word s).1.isSome = true) :
    (word s).2.rest.length < s.rest.length := by
  have behind := List.length_dropWhile_le isSpace s.rest
  simp only [word] at written ⊢
  split at written
  · rename_i ready
    obtain ⟨next, some⟩ := sentry_ready (Prod.ext ready rfl : sentry s = (true, (sentry s).2))
    rw [if_pos ready, next]
    cases left : s.rest.dropWhile isSpace with
    | nil => exact absurd left some
    | cons b rest =>
        have solid : isSpace b = false := by
          have first := List.head?_dropWhile_not isSpace s.rest
          rw [left] at first
          exact first
        have shorter := List.length_dropWhile_le (fun b => !isSpace b) rest
        rw [left, List.length_cons] at behind
        simp only [List.dropWhile_cons, solid, Bool.not_false, if_true]
        omega
  · cases written

/-- Each round of the loop reads something. -/
theorem length_entry_lt {s : IStream} (read : (entry s).1.isSome = true) :
    (entry s).2.rest.length < s.rest.length := by
  have number := (unsignedLongLong_suffix (word s).2).length_le
  have unit := (word_suffix (unsignedLongLong (word s).2).2).length_le
  simp only [entry] at read ⊢
  cases key : (word s).1 with
  | none =>
      rw [key] at read
      cases read
  | some w =>
      have first := length_word_lt (by rw [key]; rfl : (word s).1.isSome = true)
      split
      · dsimp only
        omega
      · dsimp only
        omega

section Loop

variable {β : Type u} (body : β → Bytes × Nat → β) (done : β → Bool)

/-- `while (s >> key >> val >> unit) { body; if (done) break; }` -/
def whileEntry (b : β) (s : IStream) : β :=
  match _read : (entry s).1 with
  | none => b
  | some e => if done (body b e) then body b e else whileEntry (body b e) (entry s).2
termination_by s.rest.length
decreasing_by
  apply length_entry_lt
  rw [_read]
  rfl

/-- What the loop makes of entries that it can read: it stops as soon as it is done. -/
def foldUntil (b : β) : List (Bytes × Nat) → β
  | [] => b
  | e :: rest => if done (body b e) then body b e else foldUntil (body b e) rest

end Loop

/-- The text does not go on with a byte of this kind. -/
def Stops (p : UInt8 → Bool) (rest : Bytes) : Prop := ∀ b, rest.head? = some b → p b = false

theorem stops_nil (p : UInt8 → Bool) : Stops p [] := by
  intro b first
  cases first

theorem stops_cons {p : UInt8 → Bool} {b : UInt8} (no : p b = false) (rest : Bytes) :
    Stops p (b :: rest) := by
  intro c first
  obtain rfl := Option.some.inj first
  exact no

theorem takeWhile_append {p : UInt8 → Bool} {front rest : Bytes} (all : ∀ b ∈ front, p b = true)
    (stops : Stops p rest) : (front ++ rest).takeWhile p = front := by
  rw [List.takeWhile_append_of_pos all]
  cases rest with
  | nil => simp
  | cons b rest => simp [stops b rfl]

theorem dropWhile_append {p : UInt8 → Bool} {front rest : Bytes} (all : ∀ b ∈ front, p b = true)
    (stops : Stops p rest) : (front ++ rest).dropWhile p = rest := by
  rw [List.dropWhile_append_of_pos all]
  cases rest with
  | nil => rfl
  | cons b rest => simp [stops b rfl]

/-- Blanks, of which there may be none. -/
def Blank (s : Bytes) : Prop := ∀ b ∈ s, isSpace b = true

/-- A word: bytes of which none is a blank. -/
structure Word (s : Bytes) : Prop where
  nonempty : s ≠ []
  solid : ∀ b ∈ s, isSpace b = false

theorem Word.stops {w : Bytes} (isWord : Word w) (rest : Bytes) : Stops isSpace (w ++ rest) := by
  cases w with
  | nil => exact absurd rfl isWord.nonempty
  | cons b w => exact stops_cons (isWord.solid b List.mem_cons_self) (w ++ rest)

theorem word_of_all {s : Bytes} (nonempty : s.isEmpty = false)
    (solid : (s.all fun b => !isSpace b) = true) : Word s where
  nonempty := by
    rintro rfl
    cases nonempty
  solid := by
    intro b mem
    have this := List.all_eq_true.mp solid b mem
    simpa using this

theorem word_digits (n : Nat) : Word (digits n) :=
  ⟨(digits_spells n).2.2, fun _ mem => not_space_of_digit (isDigit_of_mem_digits mem)⟩

/-- A stream with a word ahead. -/
theorem sentry_word {blanks w : Bytes} (blank : Blank blanks) (isWord : Word w) (rest : Bytes) :
    sentry (.at (blanks ++ (w ++ rest))) = (true, .at (w ++ rest)) := by
  have ahead := dropWhile_append blank (isWord.stops rest)
  unfold sentry
  cases w with
  | nil => exact absurd rfl isWord.nonempty
  | cons b w =>
      rw [List.cons_append] at ahead ⊢
      simp only [ahead, Bool.or_self, Bool.false_eq_true, if_false]

/-- The stream after an extraction that succeeded: at its end when nothing is left. -/
abbrev IStream.after (rest : Bytes) : IStream := ⟨rest, rest.isEmpty, false⟩

theorem word_read {blanks w rest : Bytes} (blank : Blank blanks) (isWord : Word w)
    (ended : Stops (fun b => !isSpace b) rest) :
    word (.at (blanks ++ (w ++ rest))) = (some w, .after rest) := by
  have solid : ∀ b ∈ w, (!isSpace b) = true := by
    intro b mem
    rw [isWord.solid b mem]
    rfl
  unfold word
  rw [sentry_word blank isWord rest]
  simp only [if_true, takeWhile_append solid ended, dropWhile_append solid ended]

theorem unsignedLongLong_read {blanks rest : Bytes} {n : Nat} (blank : Blank blanks)
    (fits : n < 2 ^ 64) (ended : Stops isDigit rest) :
    unsignedLongLong (.at (blanks ++ (digits n ++ rest))) = (some n, .after rest) := by
  obtain ⟨value, _, nonempty⟩ := digits_spells n
  have all : ∀ b ∈ digits n, isDigit b = true := fun _ => isDigit_of_mem_digits
  have unsigned : sign (digits n ++ rest) = (false, digits n ++ rest) := by
    cases spelled : digits n with
    | nil => exact absurd spelled nonempty
    | cons b more => exact sign_of_digit (all b (by rw [spelled]; exact List.mem_cons_self)) _
  have some : (digits n).isEmpty = false := by
    rw [← Bool.not_eq_true, List.isEmpty_iff]
    exact nonempty
  unfold unsignedLongLong
  rw [sentry_word blank (word_digits n) rest]
  simp only [if_true, unsigned, takeWhile_append all ended, dropWhile_append all ended, some, value,
    Nat.not_le.mpr fits, Bool.false_eq_true, if_false]

/-- Blanks that separate two items. -/
structure Gap (s : Bytes) : Prop where
  nonempty : s ≠ []
  blank : Blank s

theorem Gap.cases {s : Bytes} (gap : Gap s) : ∃ b more, s = b :: more ∧ isSpace b = true := by
  cases s with
  | nil => exact absurd rfl gap.nonempty
  | cons b more => exact ⟨b, more, rfl, gap.blank b List.mem_cons_self⟩

theorem Gap.ends_word {s : Bytes} (gap : Gap s) (rest : Bytes) :
    Stops (fun b => !isSpace b) (s ++ rest) := by
  obtain ⟨b, more, rfl, blank⟩ := gap.cases
  exact stops_cons (by rw [blank]; rfl) (more ++ rest)

theorem Gap.ends_number {s : Bytes} (gap : Gap s) (rest : Bytes) :
    Stops isDigit (s ++ rest) := by
  obtain ⟨b, more, rfl, blank⟩ := gap.cases
  apply stops_cons
  rw [← Bool.not_eq_true]
  intro digit
  rw [not_space_of_digit digit] at blank
  cases blank

/-- What is left behind an item that blanks follow. -/
theorem Gap.after {s : Bytes} (gap : Gap s) (rest : Bytes) :
    IStream.after (s ++ rest) = .at (s ++ rest) := by
  obtain ⟨b, more, rfl, _⟩ := gap.cases
  rfl

/-- A key, a number and a unit, with blanks between them and behind. -/
structure Record where
  key : Bytes
  val : Nat
  unit : Bytes
  afterKey : Bytes
  afterVal : Bytes
  afterUnit : Bytes
  word_key : Word key
  val_lt : val < 2 ^ 64
  word_unit : Word unit
  gap_key : Gap afterKey
  gap_val : Gap afterVal
  gap_unit : Gap afterUnit

namespace Record

def entry (r : Record) : Bytes × Nat := (r.key, r.val)

def text (r : Record) : Bytes :=
  r.key ++ (r.afterKey ++ (digits r.val ++ (r.afterVal ++ (r.unit ++ r.afterUnit))))

end Record

/-- A record is read up to the blanks behind it. -/
theorem entry_record {blanks : Bytes} (blank : Blank blanks) (r : Record) (rest : Bytes) :
    entry (.at (blanks ++ (r.text ++ rest))) = (some r.entry, .at (r.afterUnit ++ rest)) := by
  have key := word_read blank r.word_key
    (r.gap_key.ends_word (digits r.val ++ (r.afterVal ++ (r.unit ++ (r.afterUnit ++ rest)))))
  have val := unsignedLongLong_read r.gap_key.blank r.val_lt
    (r.gap_val.ends_number (r.unit ++ (r.afterUnit ++ rest)))
  have unit := word_read r.gap_val.blank r.word_unit (r.gap_unit.ends_word rest)
  rw [r.gap_key.after] at key
  rw [r.gap_val.after] at val
  rw [r.gap_unit.after] at unit
  simp only [entry, Record.text, List.append_assoc, key, val, unit, Bool.false_eq_true, if_false,
    Record.entry]

section Loop

variable {β : Type u} {body : β → Bytes × Nat → β} {done : β → Bool}

theorem whileEntry_next {s next : IStream} {e : Bytes × Nat} (read : entry s = (some e, next))
    (b : β) :
    whileEntry body done b s =
      if done (body b e) then body b e else whileEntry body done (body b e) next := by
  rw [whileEntry]
  split
  · rename_i none
    rw [read] at none
    cases none
  · rename_i some
    rw [read] at some
    obtain rfl := Option.some.inj some
    rw [read]

theorem whileEntry_end {s : IStream} (none : (entry s).1 = none) (b : β) :
    whileEntry body done b s = b := by
  rw [whileEntry]
  split
  · rfl
  · rename_i some
    rw [none] at some
    cases some

/-- What every entry of the content preserves holds at the end of the loop. -/
theorem whileEntry_invariant {content : Bytes} {P : β → Prop}
    (step : ∀ b e, e.1 <:+: content → e.2 < 2 ^ 64 → P b → P (body b e)) {b : β} (holds : P b)
    {s : IStream} (inside : s.rest <:+ content) : P (whileEntry body done b s) := by
  induction b, s using whileEntry.induct body done with
  | case1 b s none =>
      rw [whileEntry_end none]
      exact holds
  | case2 b s e read stop =>
      rw [whileEntry_next (Prod.ext read rfl), if_pos stop]
      exact step b e ((entry_within read).trans inside.isInfix) (entry_lt read) holds
  | case3 b s e read goesOn ih =>
      rw [whileEntry_next (Prod.ext read rfl), if_neg goesOn]
      exact ih (step b e ((entry_within read).trans inside.isInfix) (entry_lt read) holds)
        ((entry_suffix s).trans inside)

/-- The loop over records that bring it to its end. What follows them is not read. -/
theorem whileEntry_records {b : β} {records : List Record} (open' : done b = false)
    (closed : done (foldUntil body done b (records.map Record.entry)) = true)
    {blanks : Bytes} (blank : Blank blanks) (rest : Bytes) :
    whileEntry body done b (.at (blanks ++ (records.flatMap Record.text ++ rest))) =
      foldUntil body done b (records.map Record.entry) := by
  induction records generalizing b blanks with
  | nil =>
      rw [List.map_nil, foldUntil, open'] at closed
      cases closed
  | cons r records ih =>
      rw [List.map_cons, foldUntil] at closed ⊢
      rw [List.flatMap_cons, List.append_assoc, whileEntry_next (entry_record blank r _)]
      by_cases stop : done (body b r.entry) = true
      · rw [if_pos stop, if_pos stop]
      · rw [if_neg stop] at closed ⊢
        rw [if_neg stop]
        exact ih (Bool.eq_false_iff.mpr stop) closed r.gap_unit.blank

end Loop

end OrbisAgent.Lib.Extraction
