/- OrbisAgent/Services/JournalLines
   source: LogCollector::collectFromSystem, the plugin's doCollect (Linux)
   digest: Both journal readers against their lines. A line is read as it says exactly if its
   fields are regular, or if one of its pieces carries its entry where it does not fit the
   buffer. -/

import OrbisAgent.Lib.JsonText
import OrbisAgent.Services.LogSources
import Mathlib.Tactic.ByContra

set_option autoImplicit false
set_option relaxedAutoImplicit false

namespace OrbisAgent.Services.JournalLines

open OrbisAgent.Lib.ByteString
open OrbisAgent.Lib.CText
open OrbisAgent.Lib.Json
open OrbisAgent.Lib.JsonText (table)
open OrbisAgent.Plugins.SyslogCollector
open OrbisAgent.Services.LogCollector
open OrbisAgent.Services.LogSources

/-- What the two readers differ in. -/
structure Reader where
  /-- The length of the buffer. -/
  size : Nat
  room : 2 ≤ size
  unnamed : String
  allowed : String → Bool

def pluginReader : Reader := ⟨8192, by omega, "system", fun _ => true⟩

def systemReader (c : Collector) : Reader :=
  ⟨4096, by omega, "syslog_plugin", fun level => levelAllowed c level.toByteArray⟩

/-- The body of both loops, without what is made of the fields. -/
def Reader.read (codec : Codec) (r : Reader) (text : Bytes) :
    Except Exn (Option JournalFields) :=
  (readFields codec r.unnamed text).map fun found => found.bind fun f =>
    if !r.allowed (mapLevel f.prio) || f.msg.isEmpty then none else some f

/-- What the buffers that a line is read into yield. -/
def Reader.yields (codec : Codec) (r : Reader) (l : Line) : List JournalFields :=
  readLines (r.read codec) r.size (l.1 ++ [newline])

/-- An entry as its level and message. -/
def entry (f : JournalFields) : String × ByteArray := (mapLevel f.prio, f.msg)

section Fields

variable (fields : List (String × Json))

/-- A `PRIORITY` that is missing, or a string that is read as a number. -/
def prioBy (reads : Bytes → Option Int) : Option Int :=
  match fields.lookup "PRIORITY" with
  | none => some 6
  | some (.str s) => reads s.data.toList
  | some _ => none

/-- The level, when it is allowed. -/
def levelBy (reads : Bytes → Option Int) (allowed : String → Bool) : Option String :=
  ((prioBy fields reads).map mapLevel).filter allowed

/-- The identifier is a string or missing. -/
def named : Bool :=
  match fields.lookup "SYSLOG_IDENTIFIER" with
  | none | some (.str _) => true
  | some _ => false

end Fields

def stoiNumber (s : Bytes) : Option Int :=
  match stoi s with
  | .ok n => some n
  | .error _ => none

/-- The entry of a JSON object with a message, at the level that its fields give. -/
def entryBy (codec : Codec) (level : List (String × Json) → Option String) (text : Bytes) :
    Option (String × ByteArray) :=
  match parseLine codec text with
  | .ok (.obj fields) =>
      match fields.lookup "MESSAGE" with
      | some (.str msg) =>
          if msg.isEmpty then none else (level fields).map fun level => (level, msg)
      | _ => none
  | _ => none

/-- The entry of a line: an object with a non-empty string `MESSAGE`, a numeric string or
absent `PRIORITY`, and an allowed level. -/
def asked (codec : Codec) (allowed : String → Bool) : Bytes → Option (String × ByteArray) :=
  entryBy codec fun fields => levelBy fields decimal allowed

/-- The entry of a text that is read on its own. -/
def taken (codec : Codec) (allowed : String → Bool) : Bytes → Option (String × ByteArray) :=
  entryBy codec fun fields => if named fields then levelBy fields stoiNumber allowed else none

/-- Each line yields its entry, and nothing when it has none. -/
def ByLine (codec : Codec) (r : Reader) (lines : List Line) : Prop :=
  ∀ l ∈ lines, (r.yields codec l).map entry = (asked codec r.allowed l.1).toList

/-- A line that has an entry has a string or no identifier, and the level that `stoi` gives a
line with a message is that of a numeral. -/
def Regular (codec : Codec) (allowed : String → Bool) (text : Bytes) : Prop :=
  ∀ fields msg, parseLine codec text = .ok (.obj fields) →
    fields.lookup "MESSAGE" = some (.str msg) → msg.isEmpty = false →
    (named fields = true ∨ levelBy fields decimal allowed = none) ∧
      (named fields = true → levelBy fields stoiNumber allowed = levelBy fields decimal allowed)

/-- The text is an object with this message, at this level, and an identifier that reads. -/
def Carries (codec : Codec) (allowed : String → Bool) (e : String × ByteArray) (text : Bytes) :
    Prop :=
  ∃ fields, parseLine codec text = .ok (.obj fields) ∧
    fields.lookup "MESSAGE" = some (.str e.2) ∧ e.2.isEmpty = false ∧
    named fields = true ∧ levelBy fields stoiNumber allowed = some e.1

/-- A line that fits the buffer is regular. Of the pieces that a longer one is cut into, one
carries its entry and the others carry none. -/
def Kept (codec : Codec) (r : Reader) (l : Line) : Prop :=
  if l.1.length < r.size then Regular codec r.allowed l.1
  else match asked codec r.allowed l.1 with
    | none => ∀ p ∈ pieces (r.size - 1) l.1, ∀ e, ¬ Carries codec r.allowed e p
    | some e => ∃ before p after, pieces (r.size - 1) l.1 = before ++ p :: after ∧
        Carries codec r.allowed e p ∧ ∀ q ∈ before ++ after, ∀ e', ¬ Carries codec r.allowed e' q

/-- What is assumed of the parser: a newline behind a line changes nothing, and on its own
is no document. -/
structure Blanks (codec : Codec) : Prop where
  trailing : ∀ (l : Line) (j : Json),
    parseLine codec (l.1 ++ [newline]) = .ok j ↔ parseLine codec l.1 = .ok j
  blank : ∀ j, parseLine codec [newline] ≠ .ok j

theorem readItem_eq (codec : Codec) (text : Bytes) :
    readItem codec text = (pluginReader.read codec text).map (Option.map pluginItem) := by
  unfold readItem Reader.read
  dsimp only [pluginReader]
  cases readFields codec "system" text with
  | error e => rfl
  | ok found =>
      cases found with
      | none => rfl
      | some f => cases empty : f.msg.isEmpty <;> simp [Except.map, empty]

theorem identifier_reads (fields : List (String × Json)) (unnamed : String) :
    (named fields = true ∧ ∃ ident, (Json.obj fields).value Json.getString "SYSLOG_IDENTIFIER"
      unnamed.toByteArray = .ok ident) ∨
    (named fields = false ∧ ∃ e, (Json.obj fields).value Json.getString "SYSLOG_IDENTIFIER"
      unnamed.toByteArray = .error e) := by
  unfold named
  rw [Json.value_obj]
  cases fields.lookup "SYSLOG_IDENTIFIER" with
  | none => exact .inl ⟨rfl, _, rfl⟩
  | some field =>
      cases field with
      | str s => exact .inl ⟨rfl, s, rfl⟩
      | _ => exact .inr ⟨rfl, _, rfl⟩

/-- The number behind a `PRIORITY`, as the loop body reads it. -/
def readPrio (fields : List (String × Json)) : Except Exn Int := do
  let prio ← (Json.obj fields).value Json.getString "PRIORITY" "6".toByteArray
  stoi prio.data.toList

theorem priority_reads (fields : List (String × Json)) :
    (∃ prio, prioBy fields stoiNumber = some prio ∧ readPrio fields = .ok prio) ∨
    (prioBy fields stoiNumber = none ∧ ∃ e, readPrio fields = .error e) := by
  unfold prioBy readPrio
  rw [Json.value_obj]
  cases fields.lookup "PRIORITY" with
  | none => exact .inl ⟨6, rfl, rfl⟩
  | some field =>
      cases field with
      | str s =>
          dsimp only [stoiNumber]
          cases number : stoi s.data.toList with
          | ok n => exact .inl ⟨n, rfl, number⟩
          | error e => exact .inr ⟨rfl, e, number⟩
      | _ => exact .inr ⟨rfl, _, rfl⟩

/-- The fields of an object with a message: they read when the identifier and the priority do. -/
theorem journalFields_message {fields : List (String × Json)} {msg : ByteArray}
    (message : fields.lookup "MESSAGE" = some (.str msg)) (unnamed : String) :
    (named fields = true ∧ ∃ prio ident, prioBy fields stoiNumber = some prio ∧
      journalFields unnamed (.obj fields) = .ok ⟨msg, ident, prio⟩) ∨
    ((named fields = true → prioBy fields stoiNumber = none) ∧
      ∃ e, journalFields unnamed (.obj fields) = .error e) := by
  have read : journalFields unnamed (.obj fields) = (do
      let ident ← (Json.obj fields).value Json.getString "SYSLOG_IDENTIFIER" unnamed.toByteArray
      let prio ← readPrio fields
      pure ⟨msg, ident, prio⟩) := by
    simp only [journalFields, readPrio, Json.value_obj, message, bind_assoc]
    rfl
  rw [read]
  rcases identifier_reads fields unnamed with ⟨name, ident, found⟩ | ⟨name, e, failed⟩
  · rcases priority_reads fields with ⟨prio, by_stoi, number⟩ | ⟨unread, e, failed⟩
    · exact .inl ⟨name, prio, ident, by_stoi, by rw [found, number]; rfl⟩
    · exact .inr ⟨fun _ => unread, e, by rw [found, failed]; rfl⟩
  · refine .inr ⟨fun read => ?_, e, by rw [failed]; rfl⟩
    rw [name] at read
    cases read

/-- The entry of an object with a message that is not empty. -/
theorem entryBy_message {codec : Codec} {level : List (String × Json) → Option String}
    {text : Bytes} {fields : List (String × Json)} {msg : ByteArray}
    (parsed : parseLine codec text = .ok (.obj fields))
    (message : fields.lookup "MESSAGE" = some (.str msg)) (nonempty : msg.isEmpty = false) :
    entryBy codec level text = (level fields).map fun level => (level, msg) := by
  simp [entryBy, parsed, message, nonempty]

/-- A text has an entry only when it is an object with a message. -/
theorem entryBy_none {codec : Codec} {text : Bytes}
    (unsent : ∀ fields msg, parseLine codec text = .ok (.obj fields) →
      fields.lookup "MESSAGE" = some (.str msg) → msg.isEmpty = true)
    (level : List (String × Json) → Option String) : entryBy codec level text = none := by
  unfold entryBy
  split
  · rename_i fields parsed
    split
    · rename_i msg message
      rw [if_pos (unsent fields msg parsed message)]
    · rfl
  · rfl

theorem unsent_of_not {codec : Codec} {text : Bytes}
    (sent : ¬ ∃ fields msg, parseLine codec text = .ok (.obj fields) ∧
      fields.lookup "MESSAGE" = some (.str msg) ∧ msg.isEmpty = false)
    (fields : List (String × Json)) (msg : ByteArray)
    (parsed : parseLine codec text = .ok (.obj fields))
    (message : fields.lookup "MESSAGE" = some (.str msg)) : msg.isEmpty = true := by
  by_contra nonempty
  exact sent ⟨fields, msg, parsed, message, Bool.eq_false_iff.mpr nonempty⟩

/-- The loop body takes a text exactly when it has an entry whose fields read. -/
theorem caught_read (codec : Codec) (r : Reader) (text : Bytes) :
    (caught (r.read codec text)).map entry = taken codec r.allowed text := by
  by_cases sent : ∃ fields msg, parseLine codec text = .ok (.obj fields) ∧
      fields.lookup "MESSAGE" = some (.str msg) ∧ msg.isEmpty = false
  · obtain ⟨fields, msg, parsed, message, nonempty⟩ := sent
    rw [taken, entryBy_message parsed message nonempty, Reader.read, readFields, parsed]
    rcases journalFields_message message r.unnamed with
      ⟨name, prio, ident, number, read⟩ | ⟨unread, e, failed⟩
    · dsimp only
      rw [read, if_pos name, levelBy, number]
      cases allowed : r.allowed (mapLevel prio) <;>
        simp [caught, entry, Except.map, Option.filter, allowed, nonempty]
    · dsimp only
      rw [failed]
      by_cases name : named fields = true
      · rw [if_pos name, levelBy, unread name]
        rfl
      · rw [if_neg name]
        rfl
  · have unsent := unsent_of_not sent
    rw [taken, entryBy_none unsent, Option.map_eq_none_iff, Reader.read, readFields]
    cases parsed : parseLine codec text with
    | error e => rfl
    | ok j =>
        dsimp only
        cases read : journalFields r.unnamed j with
        | error e => rfl
        | ok f =>
            obtain ⟨msg, message, rest⟩ := ok_of_bind read
            obtain ⟨ident, _, rest⟩ := ok_of_bind rest
            obtain ⟨text, _, rest⟩ := ok_of_bind rest
            obtain ⟨prio, _, rest⟩ := ok_of_bind rest
            cases rest
            obtain ⟨fields, rfl, found | ⟨_, rfl⟩⟩ := Json.lookup_of_value_getString message
            · simp [caught, Except.map, unsent fields msg parsed found]
            · have blank : ByteArray.empty.isEmpty = true := rfl
              simp [caught, Except.map, blank]

theorem yields_pieces (codec : Codec) (r : Reader) (l : Line) :
    (r.yields codec l).map entry =
      (pieces (r.size - 1) l.1).filterMap (taken codec r.allowed) := by
  rw [Reader.yields, readLines, fgetsLines_line r.room, List.map_filterMap]
  simp only [caught_read]

/-- Texts that parse to the same documents have the same entries. -/
theorem entryBy_congr {codec : Codec} {s t : Bytes}
    (same : ∀ j, parseLine codec s = .ok j ↔ parseLine codec t = .ok j)
    (level : List (String × Json) → Option String) :
    entryBy codec level s = entryBy codec level t := by
  unfold entryBy
  cases parsed : parseLine codec s with
  | ok j => rw [(same j).mp parsed]
  | error e =>
      cases other : parseLine codec t with
      | error e' => rfl
      | ok j =>
          rw [(same j).mpr other] at parsed
          cases parsed

/-- A line that fits the buffer yields what it is read as on its own. -/
theorem yields_short {codec : Codec} (blanks : Blanks codec) (r : Reader) {l : Line}
    (short : l.1.length < r.size) :
    (r.yields codec l).map entry = (taken codec r.allowed l.1).toList := by
  have room := r.room
  have ended : taken codec r.allowed (l.1 ++ [newline]) = taken codec r.allowed l.1 :=
    entryBy_congr (blanks.trailing l) _
  have blank : taken codec r.allowed [newline] = none :=
    entryBy_none (fun fields msg parsed => absurd parsed (blanks.blank _)) _
  rw [yields_pieces, pieces]
  by_cases fits : l.1.length < r.size - 1
  · rw [if_neg (by omega), List.filterMap_cons, ended, List.filterMap_nil]
    cases taken codec r.allowed l.1 <;> rfl
  · -- the line fills the buffer, and its newline is read alone
    have full : l.1.length = r.size - 1 := by omega
    rw [if_pos (by omega), ← full, List.take_length, List.drop_length, pieces, if_neg ?_,
      List.nil_append, List.filterMap_cons, List.filterMap_cons, blank, List.filterMap_nil]
    · cases taken codec r.allowed l.1 <;> rfl
    · rw [List.length_nil]
      omega

/-- What is read of a text on its own is its entry exactly when it is regular. -/
theorem taken_eq_asked_iff (codec : Codec) (allowed : String → Bool) (text : Bytes) :
    taken codec allowed text = asked codec allowed text ↔ Regular codec allowed text := by
  have paired (msg : ByteArray) : Function.Injective fun level : String => (level, msg) :=
    fun _ _ same => (Prod.mk.inj same).1
  constructor
  · intro same fields msg parsed message nonempty
    rw [taken, asked, entryBy_message parsed message nonempty,
      entryBy_message parsed message nonempty] at same
    have level := Option.map_injective (paired msg) same
    by_cases name : named fields = true
    · rw [if_pos name] at level
      exact ⟨.inl name, fun _ => level⟩
    · rw [if_neg name] at level
      exact ⟨.inr level.symm, fun impossible => absurd impossible name⟩
  · intro regular
    by_cases sent : ∃ fields msg, parseLine codec text = .ok (.obj fields) ∧
        fields.lookup "MESSAGE" = some (.str msg) ∧ msg.isEmpty = false
    · obtain ⟨fields, msg, parsed, message, nonempty⟩ := sent
      obtain ⟨names, levels⟩ := regular fields msg parsed message nonempty
      rw [taken, asked, entryBy_message parsed message nonempty,
        entryBy_message parsed message nonempty]
      by_cases name : named fields = true
      · rw [if_pos name, levels name]
      · rw [if_neg name, names.resolve_left name]
    · have unsent := unsent_of_not sent
      rw [taken, asked, entryBy_none unsent, entryBy_none unsent]

/-- The entry that is taken of a text is the one that it carries. -/
theorem taken_eq_some_iff (codec : Codec) (allowed : String → Bool) (text : Bytes)
    (e : String × ByteArray) :
    taken codec allowed text = some e ↔ Carries codec allowed e text := by
  constructor
  · intro read
    by_cases sent : ∃ fields msg, parseLine codec text = .ok (.obj fields) ∧
        fields.lookup "MESSAGE" = some (.str msg) ∧ msg.isEmpty = false
    · obtain ⟨fields, msg, parsed, message, nonempty⟩ := sent
      rw [taken, entryBy_message parsed message nonempty] at read
      obtain ⟨level, leveled, rfl⟩ := Option.map_eq_some_iff.mp read
      by_cases name : named fields = true
      · rw [if_pos name] at leveled
        exact ⟨fields, parsed, message, nonempty, name, leveled⟩
      · rw [if_neg name] at leveled
        cases leveled
    · rw [taken, entryBy_none (unsent_of_not sent)] at read
      cases read
  · rintro ⟨fields, parsed, message, nonempty, name, leveled⟩
    rw [taken, entryBy_message parsed message nonempty, if_pos name, leveled]
    rfl

theorem taken_eq_none_iff (codec : Codec) (allowed : String → Bool) (text : Bytes) :
    taken codec allowed text = none ↔ ∀ e, ¬ Carries codec allowed e text := by
  rw [Option.eq_none_iff_forall_ne_some]
  exact forall_congr' fun e => not_congr (taken_eq_some_iff codec allowed text e)

/-- What is taken of the pieces of a line is its entry when one carries it and no other
carries any. -/
theorem taken_pieces_iff (codec : Codec) (allowed : String → Bool) (texts : List Bytes)
    (e : String × ByteArray) :
    texts.filterMap (taken codec allowed) = [e] ↔
      ∃ before p after, texts = before ++ p :: after ∧ Carries codec allowed e p ∧
        ∀ q ∈ before ++ after, ∀ e', ¬ Carries codec allowed e' q := by
  rw [List.filterMap_eq_cons_iff]
  refine exists_congr fun before => exists_congr fun p => exists_congr fun after => ?_
  simp only [List.filterMap_eq_nil_iff, List.forall_mem_append, taken_eq_some_iff,
    taken_eq_none_iff]
  exact and_congr_right fun _ => and_left_comm

/-- A line yields its entry exactly when it is kept. -/
theorem yields_iff {codec : Codec} (blanks : Blanks codec) (r : Reader) (l : Line) :
    (r.yields codec l).map entry = (asked codec r.allowed l.1).toList ↔ Kept codec r l := by
  unfold Kept
  by_cases short : l.1.length < r.size
  · rw [if_pos short, yields_short blanks r short, ← taken_eq_asked_iff]
    refine ⟨fun same => ?_, fun same => by rw [same]⟩
    have heads := congrArg List.head? same
    rw [Option.head?_toList, Option.head?_toList] at heads
    exact heads
  · rw [if_neg short, yields_pieces]
    cases asked codec r.allowed l.1 with
    | none =>
        rw [Option.toList_none, List.filterMap_eq_nil_iff]
        exact forall₂_congr fun p _ => taken_eq_none_iff codec r.allowed p
    | some e => exact taken_pieces_iff codec r.allowed _ e

theorem byLine_iff {codec : Codec} (blanks : Blanks codec) (r : Reader) (lines : List Line) :
    ByLine codec r lines ↔ ∀ l ∈ lines, Kept codec r l :=
  forall₂_congr fun l _ => yields_iff blanks r l

/-- Lines that are read one by one give their entries in order. -/
theorem ByLine.entries {codec : Codec} {r : Reader} {lines : List Line}
    (read : ByLine codec r lines) :
    (lines.flatMap (r.yields codec)).map entry =
      lines.filterMap fun l => asked codec r.allowed l.1 := by
  induction lines with
  | nil => rfl
  | cons l lines ih =>
      have rest := ih fun l' mem => read l' (List.mem_cons_of_mem l mem)
      rw [List.flatMap_cons, List.map_append, read l List.mem_cons_self, rest,
        List.filterMap_cons]
      cases asked codec r.allowed l.1 <;> rfl

/-- A text that is no object carries no entry. -/
theorem not_carries_of_cut {codec : Codec} {text : Bytes}
    (cut : ∀ fields, parseLine codec text ≠ .ok (.obj fields)) (allowed : String → Bool)
    (e : String × ByteArray) : ¬ Carries codec allowed e text := by
  rintro ⟨fields, parsed, _⟩
  exact cut fields parsed

/-- A line that does not fit is read as it says only when it has no entry, if no piece of it
is an object of its own. -/
theorem kept_of_cut {codec : Codec} {r : Reader} {l : Line} (long : r.size ≤ l.1.length)
    (cut : ∀ p ∈ pieces (r.size - 1) l.1, ∀ fields, parseLine codec p ≠ .ok (.obj fields)) :
    Kept codec r l ↔ asked codec r.allowed l.1 = none := by
  have empty : ∀ p ∈ pieces (r.size - 1) l.1, ∀ e, ¬ Carries codec r.allowed e p :=
    fun p mem => not_carries_of_cut (cut p mem) r.allowed
  rw [Kept, if_neg (by omega)]
  cases asked codec r.allowed l.1 with
  | none => exact iff_of_true empty rfl
  | some e =>
      refine iff_of_false ?_ (by simp)
      rintro ⟨before, p, after, split, carries, _⟩
      exact empty p (by simp [split]) e carries

/-- A line with a string or no identifier and with a 32-bit numeral or no priority is
regular. -/
theorem regular_of_fields {codec : Codec} {text : Bytes} {fields : List (String × Json)}
    (parsed : parseLine codec text = .ok (.obj fields)) (name : named fields = true)
    (priority : fields.lookup "PRIORITY" = none ∨ ∃ s n,
      fields.lookup "PRIORITY" = some (.str s) ∧ decimal s.data.toList = some n ∧
        -2 ^ 31 ≤ n ∧ n < 2 ^ 31) (allowed : String → Bool) :
    Regular codec allowed text := by
  intro fields' msg parsed' _ _
  obtain rfl := Json.obj.inj (Except.ok.inj (parsed.symm.trans parsed'))
  refine ⟨.inl name, fun _ => ?_⟩
  unfold levelBy prioBy
  rcases priority with absent | ⟨s, n, found, spelled, low, high⟩
  · rw [absent]
  · have read : stoiNumber s.data.toList = some n := by
      rw [stoiNumber, stoi_of_decimal spelled low high]
    simp only [found, spelled, read]

theorem doCollect_stream (codec : Codec) (lines : List Line) :
    doCollect codec (some (stream lines)) =
      codec.dump (.arr ((lines.flatMap (pluginReader.yields codec)).map pluginItem)) := by
  have body (text : Bytes) : caught (readItem codec text) =
      (caught (pluginReader.read codec text)).map pluginItem := by
    rw [readItem_eq]
    cases pluginReader.read codec text <;> rfl
  have items (l : Line) : readLines (readItem codec) 8192 (l.1 ++ [newline]) =
      (pluginReader.yields codec l).map pluginItem := by
    simp only [Reader.yields, readLines, List.map_filterMap, body]
    rfl
  rw [doCollect, readLines_stream, List.map_flatMap]
  simp only [items]

theorem collectFromSystem_stream (c : Collector) (now : Nat → String) (lines : List Line) :
    collectFromSystem c now (some (stream lines)) =
      (lines.flatMap ((systemReader c).yields c.codec)).mapIdx
        fun n f => systemEntry c (now n) f := by
  rw [collectFromSystem, readLines_stream]
  rfl

/-- For all lines, each ended by a newline: both readers go through them line by line, and
each line yields its entry, or nothing when it has none, if and only if it is kept. -/
theorem journal_lines_read_iff_kept (c : Collector) (now : Nat → String)
    (blanks : Blanks c.codec) (lines : List Line) :
    (doCollect c.codec (some (stream lines)) =
        c.codec.dump (.arr ((lines.flatMap (pluginReader.yields c.codec)).map pluginItem)) ∧
      (ByLine c.codec pluginReader lines ↔ ∀ l ∈ lines, Kept c.codec pluginReader l)) ∧
    collectFromSystem c now (some (stream lines)) =
        (lines.flatMap ((systemReader c).yields c.codec)).mapIdx
          (fun n f => systemEntry c (now n) f) ∧
      (ByLine c.codec (systemReader c) lines ↔ ∀ l ∈ lines, Kept c.codec (systemReader c) l) :=
  ⟨⟨doCollect_stream c.codec lines, byLine_iff blanks _ lines⟩,
    collectFromSystem_stream c now lines, byLine_iff blanks _ lines⟩

section Probe

/-- A parser that knows one line. -/
def knowing (l : Line) (j : Json) (valid : j.wellEncoded = true) : Codec :=
  table [(l.1, j), (l.1 ++ [newline], j)] (by simp [valid])

variable {l : Line} {j : Json} (valid : j.wellEncoded = true)

theorem parseLine_knowing (text : Bytes) (j' : Json) :
    parseLine (knowing l j valid) text = .ok j' ↔
      (text = l.1 ∨ text = l.1 ++ [newline]) ∧ j' = j := by
  unfold parseLine knowing table
  simp only [List.find?_cons, List.find?_nil]
  by_cases bare : l.1 = text
  · simp only [bare, beq_self_eq_true, true_or, true_and, Except.ok.injEq]
    exact eq_comm
  · have other : text ≠ l.1 := fun same => bare same.symm
    simp only [beq_false_of_ne bare, other, false_or]
    by_cases ended : l.1 ++ [newline] = text
    · simp only [ended, beq_self_eq_true, true_and, Except.ok.injEq]
      exact eq_comm
    · have another : text ≠ l.1 ++ [newline] := fun same => ended same.symm
      simp only [beq_false_of_ne ended, another, false_and, reduceCtorEq]

theorem knowing_blanks (nonempty : l.1 ≠ []) : Blanks (knowing l j valid) where
  trailing other j' := by
    simp [parseLine_knowing, other.ne_ended, (l.ne_ended _).symm]
  blank j' parsed := by
    rcases ((parseLine_knowing valid _ _).mp parsed).1 with same | same
    · exact l.ne_ended [] same.symm
    · simp at same
      exact nonempty same

def bootLine : Line := ⟨bytes "\x7b\"MESSAGE\":\"boot\"\x7d", by decide⟩

def bootFields : List (String × Json) := [("MESSAGE", .text "boot")]

theorem bootFields_wellEncoded : (Json.obj bootFields).wellEncoded = true := by
  simp [bootFields]

def quietCollector : Collector where
  codec := knowing bootLine (.obj bootFields) bootFields_wellEncoded
  device_id := "d1"
  log_levels := []

/-- A line that is no JSON. -/
def dashLine : Line := ⟨bytes "-", by decide⟩

def quietLines : List Line := [bootLine, dashLine]

theorem quietLines_kept (r : Reader) (large : 32 ≤ r.size) :
    ∀ l ∈ quietLines, Kept quietCollector.codec r l := by
  have boot : parseLine quietCollector.codec bootLine.1 = .ok (.obj bootFields) :=
    (parseLine_knowing bootFields_wellEncoded _ _).mpr ⟨.inl rfl, rfl⟩
  have apart : ¬ (dashLine.1 = bootLine.1 ∨ dashLine.1 = bootLine.1 ++ [newline]) := by decide
  have length : bootLine.1.length = 18 ∧ dashLine.1.length = 1 := by decide
  intro l mem
  simp only [quietLines, List.mem_cons, List.not_mem_nil, or_false] at mem
  rcases mem with rfl | rfl
  · rw [Kept, if_pos (by omega)]
    exact regular_of_fields boot rfl (.inl rfl) r.allowed
  · rw [Kept, if_pos (by omega)]
    intro fields msg parsed
    exact absurd ((parseLine_knowing bootFields_wellEncoded _ _).mp parsed).1 apart

theorem quiet_lines_are_read :
    ByLine quietCollector.codec pluginReader quietLines ∧
      ByLine quietCollector.codec (systemReader quietCollector) quietLines := by
  have blanks : Blanks quietCollector.codec := knowing_blanks bootFields_wellEncoded (by decide)
  obtain ⟨⟨_, plugin⟩, _, system⟩ :=
    journal_lines_read_iff_kept quietCollector (fun _ => "") blanks quietLines
  exact ⟨plugin.mpr (quietLines_kept _ (by decide)), system.mpr (quietLines_kept _ (by decide))⟩

/-- A message of 9000 letters. -/
def wideMessage : String := String.ofList (List.replicate 9000 'a')

def wideJson : Json := .obj [("MESSAGE", .text wideMessage)]

theorem wideJson_wellEncoded : wideJson.wellEncoded = true := by
  simp [wideJson]

def wideText : Bytes := bytes "\x7b\"MESSAGE\":\"" ++ bytes wideMessage ++ bytes "\"\x7d"

theorem wideMessage_bytes : bytes wideMessage = List.replicate 9000 97 :=
  bytes_replicate 9000

theorem wideText_length : wideText.length = 9014 := by
  have front : (bytes "\x7b\"MESSAGE\":\"").length = 12 := by decide
  have back : (bytes "\"\x7d").length = 2 := by decide
  rw [wideText, wideMessage_bytes, List.length_append, List.length_append, front, back,
    List.length_replicate]

def wideLine : Line where
  val := wideText
  property := by
    have front : newline ∉ bytes "\x7b\"MESSAGE\":\"" := by decide
    have back : newline ∉ bytes "\"\x7d" := by decide
    rw [wideText, wideMessage_bytes, List.mem_append, List.mem_append, List.mem_replicate]
    rintro ((mem | ⟨_, letter⟩) | mem)
    · exact front mem
    · cases letter
    · exact back mem

def wideCollector : Collector where
  codec := knowing wideLine wideJson wideJson_wellEncoded
  device_id := "d1"
  log_levels := []

/-- No buffer holds the line, so nothing of it is read. -/
theorem wideLine_cut {n : Nat} (pos : 0 < n) (small : n ≤ 8192) :
    ∀ p ∈ pieces n wideLine.1, ∀ fields, parseLine wideCollector.codec p ≠ .ok (.obj fields) := by
  intro p mem fields parsed
  have fits := length_le_of_mem_pieces pos mem
  have length : wideLine.1.length = 9014 := wideText_length
  rcases ((parseLine_knowing wideJson_wellEncoded _ _).mp parsed).1 with same | same
  · rw [same] at fits
    omega
  · rw [same, List.length_append] at fits
    omega

theorem wideLine_asked {allowed : String → Bool} (info : allowed "INFO" = true) :
    asked wideCollector.codec allowed wideLine.1 = some ("INFO", wideMessage.toByteArray) := by
  have parsed : parseLine wideCollector.codec wideLine.1 = .ok wideJson :=
    (parseLine_knowing wideJson_wellEncoded _ _).mpr ⟨.inl rfl, rfl⟩
  have size : wideMessage.toByteArray.size = 9000 := by
    rw [← length_bytes, wideMessage_bytes, List.length_replicate]
  have nonempty : wideMessage.toByteArray.isEmpty = false := by
    rw [ByteArray.isEmpty, size]
    rfl
  have level : levelBy [("MESSAGE", .text wideMessage)] decimal allowed = some "INFO" := by
    have prio : prioBy [("MESSAGE", .text wideMessage)] decimal = some 6 := rfl
    have info' : allowed (mapLevel 6) = true := info
    rw [levelBy, prio, Option.map_some, Option.filter_some, if_pos info']
    rfl
  rw [asked, entryBy_message parsed rfl nonempty, level]
  rfl

theorem wideLine_yields {r : Reader} (small : r.size ≤ 8192) (info : r.allowed "INFO" = true) :
    r.yields wideCollector.codec wideLine = [] ∧ ¬ ByLine wideCollector.codec r [wideLine] := by
  have room := r.room
  have length : wideLine.1.length = 9014 := wideText_length
  have cut := wideLine_cut (show 0 < r.size - 1 by omega) (show r.size - 1 ≤ 8192 by omega)
  have blanks : Blanks wideCollector.codec := by
    refine knowing_blanks wideJson_wellEncoded ?_
    apply List.ne_nil_of_length_pos
    omega
  constructor
  · rw [← List.map_eq_nil_iff, yields_pieces, List.filterMap_eq_nil_iff]
    intro p mem
    exact (taken_eq_none_iff _ _ p).mpr (not_carries_of_cut (cut p mem) r.allowed)
  · rw [ByLine, List.forall_mem_singleton, yields_iff blanks, kept_of_cut (by omega) cut,
      wideLine_asked info]
    exact Option.some_ne_none _

/-- A line with a message of 9000 letters is lost by both readers. -/
theorem wide_line_is_lost :
    asked wideCollector.codec pluginReader.allowed wideLine.1 =
        some ("INFO", wideMessage.toByteArray) ∧
      doCollect wideCollector.codec (some (stream [wideLine])) =
        wideCollector.codec.dump (.arr []) ∧
      collectFromSystem wideCollector (fun _ => "") (some (stream [wideLine])) = [] ∧
      ¬ ByLine wideCollector.codec pluginReader [wideLine] ∧
      ¬ ByLine wideCollector.codec (systemReader wideCollector) [wideLine] := by
  obtain ⟨plugin, unread⟩ := wideLine_yields (r := pluginReader) (Nat.le_refl 8192) rfl
  obtain ⟨system, unread'⟩ := wideLine_yields (r := systemReader wideCollector)
    (show 4096 ≤ 8192 by omega) rfl
  refine ⟨wideLine_asked rfl, ?_, ?_, unread, unread'⟩
  · rw [doCollect_stream, List.flatMap_singleton, plugin]
    rfl
  · rw [collectFromSystem_stream, List.flatMap_singleton]
    exact congrArg (List.mapIdx _) system

end Probe

end OrbisAgent.Services.JournalLines
