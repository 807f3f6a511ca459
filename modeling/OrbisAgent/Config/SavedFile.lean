/- OrbisAgent/Config/SavedFile
   source: src/config/ConfigManager.cpp: save, load
   digest: Credentials that save reports as written load back where the file has them as one-line
   assignments of basic strings without an escaped quote. -/

import OrbisAgent.Config.ConfigManager
import OrbisAgent.Lib.TomlText
import Mathlib.Data.List.Forall2

set_option autoImplicit false
set_option relaxedAutoImplicit false

namespace OrbisAgent.Config.SavedFile

open OrbisAgent.Config.Base64
open OrbisAgent.Config.ConfigManager
open OrbisAgent.Config.Token
open OrbisAgent.Constants
open OrbisAgent.Lib.Assignment
open OrbisAgent.Lib.ByteString
open OrbisAgent.Lib.Toml
open OrbisAgent.Lib.TomlText

/-- The path of a key of `[agent]`. -/
def agentPath (name : String) : List Step := [.key (bytes "agent"), .key (bytes name)]

/-- The key of `[agent]` is assigned a one-line basic string. -/
def Assigned (name : String) (ps : List Piece) : Prop :=
  ∃ e, .basic e ∈ ps ∧ e.path = agentPath name ∧ bytes name <:+ e.key

/-- Both managed fields are one-line basic strings, written without a quote inside, and every
match of the patterns of `save` lies inside one assignment or comment. -/
structure Layout (ps : List Piece) : Prop where
  device_id : Assigned "device_id" ps
  token : Assigned "token" ps
  device_id_contained : Contained (bytes "device_id") ps
  token_contained : Contained (bytes "token") ps

/-- A hexadecimal digit or a dash. -/
def uuidChar (b : UInt8) : Prop :=
  (48 ≤ b ∧ b ≤ 57) ∨ (65 ≤ b ∧ b ≤ 70) ∨ (97 ≤ b ∧ b ≤ 102) ∨ b = 45

instance (b : UInt8) : Decidable (uuidChar b) := inferInstanceAs (Decidable (_ ∨ _))

/-- Text that the format and the patterns of `save` take as it is. -/
def Storable (w : Bytes) : Prop := Plain w ∧ dollar ∉ w ∧ equals ∉ w

instance (w : Bytes) : Decidable (Storable w) := inferInstanceAs (Decidable (_ ∧ _))

theorem pushStrings_all {items : List Value} {pushed : List Bytes}
    (readable : (pushStrings items pushed).1 = true) {n : Nat} {v : Value}
    (item : items[n]? = some v) : ∃ s, v = .string s := by
  induction items generalizing pushed n with
  | nil => cases item
  | cons first items ih =>
      cases first with
      | string s =>
          cases n with
          | zero => exact ⟨s, (Option.some.inj item).symm⟩
          | succ n => exact ih readable item
      | _ => cases readable

abbrev logsPath : List Step := [.key (bytes "logs")]

abbrev listPath (name : Bytes) : List Step := [.key (bytes "logs"), .key name]

/-- Where `[logs]` and its list are found as before, the list is as readable as before. -/
theorem logsList_congr {root root' : Value} {name : Bytes} {old : List Bytes}
    (logs : root'.find logsPath = root.find logsPath ∨
      ∃ entries entries', root.find logsPath = some (.table entries) ∧
        root'.find logsPath = some (.table entries'))
    (list : root'.find (listPath name) = root.find (listPath name)) :
    logsList root' name old = logsList root name old := by
  unfold logsList
  rcases logs with same | ⟨entries, entries', before, after⟩
  · rw [same, list]
  · rw [before, after, list]

/-- A readable `[logs]` that exists is a table. -/
theorem logsList_table {root v : Value} {name : Bytes} {old : List Bytes}
    (readable : (logsList root name old).1 = true) (logs : root.find logsPath = some v) :
    ∃ entries, v = .table entries := by
  unfold logsList at readable
  rw [logs] at readable
  cases v <;> first | exact ⟨_, rfl⟩ | cases readable

/-- A readable list that exists is an array of strings. -/
theorem logsList_array {root u : Value} {name : Bytes} {old : List Bytes}
    {entries : List (Bytes × Value)} (readable : (logsList root name old).1 = true)
    (logs : root.find logsPath = some (.table entries))
    (list : root.find (listPath name) = some u) :
    ∃ items, u = .array items ∧ ∀ (n : Nat) v, items[n]? = some v → ∃ s, v = .string s := by
  unfold logsList at readable
  rw [logs] at readable
  dsimp only at readable
  rw [list] at readable
  cases u <;> try cases readable
  exact ⟨_, rfl, fun n v item => pushStrings_all readable item⟩

/-- No readable list holds an assignment. -/
theorem no_assignment_in_list {root : Value} {parent : List Step} {k name s : Bytes}
    {old : List Bytes} (here : root.find (parent ++ [.key k]) = some (.string s))
    (readable : (logsList root name old).1 = true) :
    ¬ listPath name <+: parent ++ [.key k] := by
  rintro ⟨rest, split⟩
  rw [← split, Value.find_append] at here
  obtain ⟨u, list, deeper⟩ := Option.bind_eq_some_iff.mp here
  have list' : root.find (logsPath ++ [.key name]) = some u := list
  rw [Value.find_append] at list'
  obtain ⟨v, logs, _⟩ := Option.bind_eq_some_iff.mp list'
  obtain ⟨entries, rfl⟩ := logsList_table readable logs
  obtain ⟨items, rfl, strings⟩ := logsList_array readable logs list
  cases rest with
  | nil => cases deeper
  | cons step rest =>
      cases step with
      | key _ => cases deeper
      | index n =>
          obtain ⟨x, item, inside⟩ := Option.bind_eq_some_iff.mp deeper
          obtain ⟨t, rfl⟩ := strings n x item
          cases rest with
          | nil =>
              have last := congrArg List.getLast? split
              rw [List.getLast?_append, List.getLast?_concat] at last
              cases Option.some.inj last
          | cons step rest => cases step <;> cases inside

/-- A string set at an assignment of a document leaves its readable lists as they are. -/
theorem logsList_set {root : Value} {parent : List Step} {k name s : Bytes} {old : List Bytes}
    (here : root.find (parent ++ [.key k]) = some (.string s))
    (readable : (logsList root name old).1 = true) (w : Bytes) :
    logsList (root.set (parent ++ [.key k]) w) name old = logsList root name old := by
  have outside := no_assignment_in_list here readable
  have nonempty : parent ++ [.key k] ≠ [] := List.append_ne_nil_of_right_ne_nil _ nofun
  generalize parent ++ [.key k] = path at here outside nonempty ⊢
  have notLogs : path ≠ logsPath := by
    rintro rfl
    obtain ⟨entries, same⟩ := logsList_table readable here
    cases same
  have notList : ¬ path <+: listPath name := by
    intro before
    rcases List.prefix_cons_iff.mp before with empty | ⟨more, rfl, tail⟩
    · exact nonempty empty
    · rcases List.prefix_cons_iff.mp tail with rfl | ⟨last, rfl, rest⟩
      · exact notLogs rfl
      · obtain rfl := List.prefix_nil.mp rest
        exact outside (List.prefix_refl _)
  refine logsList_congr ?_ (Value.find_set_apart notList outside)
  by_cases below : logsPath <+: path
  · obtain ⟨more, rfl⟩ := below
    have here' := here
    rw [Value.find_append] at here'
    obtain ⟨v, logs, deeper⟩ := Option.bind_eq_some_iff.mp here'
    obtain ⟨entries, rfl⟩ := logsList_table readable logs
    have after : (root.set (logsPath ++ more) w).find logsPath =
        some ((Value.table entries).set more w) := Value.find_set_front logs
    right
    cases more with
    | nil => cases deeper
    | cons step more =>
        cases step with
        | key _ => exact ⟨entries, _, logs, after⟩
        | index _ => exact ⟨entries, _, logs, after⟩
  · left
    have notLogs' : ¬ path <+: logsPath := fun before =>
      notList (before.trans (List.prefix_append logsPath [.key name]))
    exact Value.find_set_apart notLogs' below

/-- Rewritten assignments leave readable lists readable. -/
theorem listsReadable_retext {ps : List Piece} {root : Value} (strings : Strings ps root)
    (readable : ListsReadable root) : ListsReadable (retext ps root) := by
  induction ps generalizing root with
  | nil => exact readable
  | cons p ps ih =>
      cases p with
      | basic e =>
          obtain ⟨s, here⟩ := strings e List.mem_cons_self
          refine ih (strings.tail.set here) fun old => ?_
          unfold Entry.path at here ⊢
          rw [logsList_set here (readable old).1, logsList_set here (readable old).2]
          exact readable old
      | comment c => exact ih strings.tail readable
      | other c => exact ih strings.tail readable

theorem storable_uuid {id : Bytes} (isUuid : ∀ b ∈ id, uuidChar b) : Storable id := by
  have all : ∀ i : Fin 256, uuidChar (UInt8.ofFin i) →
      (32 ≤ UInt8.ofFin i ∧ UInt8.ofFin i < 127 ∧ UInt8.ofFin i ≠ quote ∧
        UInt8.ofFin i ≠ backslash) ∧ UInt8.ofFin i ≠ dollar ∧ UInt8.ofFin i ≠ equals := by
    decide +kernel
  have char : ∀ b ∈ id, (32 ≤ b ∧ b < 127 ∧ b ≠ quote ∧ b ≠ backslash) ∧ b ≠ dollar ∧
      b ≠ equals := fun b mem => all b.toFin (isUuid b mem)
  exact ⟨fun b mem => (char b mem).1, fun mem => (char _ mem).2.1 rfl,
    fun mem => (char _ mem).2.2 rfl⟩

/-- A generated identity is made of such characters. -/
theorem uuidChar_generateUUID {hi lo : UInt64} {b : UInt8} (mem : b ∈ generateUUID hi lo) :
    uuidChar b := by
  have digit : ∀ d < 16, uuidChar (hexDigit d) := by decide
  have isDash : ∀ c ∈ dash, uuidChar c := by
    intro c inDash
    obtain rfl : c = 45 := List.mem_singleton.mp inDash
    decide
  have isHex : ∀ width n, ∀ c ∈ hex width n, uuidChar c := by
    intro width n c inHex
    obtain ⟨d, small, rfl⟩ := mem_hex inHex
    exact digit d small
  unfold generateUUID at mem
  simp only [List.mem_append] at mem
  rcases mem with (((((((mem | mem) | mem) | mem) | mem) | mem) | mem) | mem) | mem
  all_goals first | exact isHex _ _ b mem | exact isDash b mem

theorem generateUUID_ne_nil (hi lo : UInt64) : generateUUID hi lo ≠ [] := by
  intro empty
  have long := congrArg List.length empty
  unfold generateUUID at long
  simp only [List.length_append, length_hex, List.length_nil] at long
  omega

theorem base64_plain {b : UInt8} (char : b ∈ pad :: tbl) :
    (32 ≤ b ∧ b < 127 ∧ b ≠ quote ∧ b ≠ backslash) ∧ b ≠ dollar := by
  have all : ∀ c ∈ pad :: tbl, (32 ≤ c ∧ c < 127 ∧ c ≠ quote ∧ c ≠ backslash) ∧ c ≠ dollar := by
    decide +kernel
  exact all b char

theorem notMem_assign {key w : Bytes} {b : UInt8} (inKey : b ∉ key ++ bytes " = \"")
    (inValue : b ∉ w) (other : b ≠ quote) : b ∉ assign key w := by
  unfold assign
  rw [List.mem_append, List.mem_append, List.mem_singleton, not_or, not_or]
  exact ⟨⟨inKey, inValue⟩, other⟩

/-- The first replacement does not touch the matches of the second. -/
theorem device_id_apart {id : Bytes} (storable : Storable id) :
    Separate (bytes "device_id") (assign (bytes "device_id") id) (bytes "token") where
  first := ⟨100, by decide, by simp [assign, List.head?_append, show
    (bytes "device_id").head? = some 100 by decide], by decide, by decide, by decide, by decide⟩
  start := by
    have word : Word (bytes "token") := by decide
    have outside : ∀ b, (bytes "token").head? = some b →
        b ∉ bytes "device_id" ++ bytes " = \"" := by
      intro b begins
      obtain rfl : 116 = b := Option.some.inj begins
      decide
    intro u v rest split nonempty
    exact unmatched_in_assign word outside (fun mem => (storable.1 _ mem).2.2.1 rfl)
      storable.2.2 split nonempty rest
  closes := by
    unfold assign
    exact List.mem_append_right _ List.mem_cons_self

/-- No key ends in both names. -/
theorem not_token_of_device_id {k : Bytes} (ends : bytes "device_id" <:+ k) :
    ¬ bytes "token" <:+ k := by
  intro other
  have both := (getLast?_suffix (by decide) ends).symm.trans (getLast?_suffix (by decide) other)
  exact absurd both (by decide)

/-- The saved text of a file that keeps every match inside one assignment or comment: both
replacements are read as new strings for the assignments that they match. -/
theorem savedText_parses {parse : Bytes → Option Value} (reading : Reading parse)
    {content : Bytes} {root : Value} (parsed : parse content = some root)
    (inId : Contained (bytes "device_id") (reading.pieces content))
    (inToken : Contained (bytes "token") (reading.pieces content)) {c : Manager}
    (storable : Storable c.device_id)
    (isBase64 : ∀ b ∈ c.token_encrypted, b ∈ pad :: tbl) :
    ∃ (idPlain : Plain c.device_id) (tokenPlain : Plain c.token_encrypted)
      (middle : Bytes) (root1 root2 : Value),
      root1 = retext ((reading.pieces content).map
        (patch (bytes "device_id") c.device_id idPlain)) root ∧
      parse middle = some root1 ∧
      reading.pieces middle = (reading.pieces content).map
        (patch (bytes "device_id") c.device_id idPlain) ∧
      root2 = retext ((reading.pieces middle).map
        (patch (bytes "token") c.token_encrypted tokenPlain)) root1 ∧
      parse (savedText c content) = some root2 ∧
      reading.pieces (savedText c content) = (reading.pieces middle).map
        (patch (bytes "token") c.token_encrypted tokenPlain) := by
  have idPlain : Plain c.device_id := storable.1
  have tokenPlain : Plain c.token_encrypted := fun b mem => (base64_plain (isBase64 b mem)).1
  have idUnchanged : dollar ∉ assign (bytes "device_id") c.device_id :=
    notMem_assign (by decide) storable.2.1 (by decide)
  have tokenUnchanged : dollar ∉ assign (bytes "token") c.token_encrypted :=
    notMem_assign (by decide) (fun mem => (base64_plain (isBase64 _ mem)).2 rfl) (by decide)
  have word : Word (bytes "device_id") := by decide
  obtain ⟨parsed1, pieces1⟩ := reading.replace parsed word (by decide) idPlain idUnchanged inId
  have contained : Contained (bytes "token") (reading.pieces
      (regexReplace (bytes "device_id") (assign (bytes "device_id") c.device_id) content)) := by
    rw [pieces1]
    exact contained_patch word idPlain idUnchanged (device_id_apart storable) inToken
  obtain ⟨parsed2, pieces2⟩ := reading.replace parsed1 (by decide) (by decide) tokenPlain
    tokenUnchanged contained
  exact ⟨idPlain, tokenPlain, _, _, _, rfl, parsed1, pieces1, rfl, parsed2, pieces2⟩

/-- The saved text of a file with the layout: it parses, its lists are readable, and the
managed fields have the saved values. -/
theorem savedText_loads {parse : Bytes → Option Value} (reading : Reading parse)
    {content : Bytes} {root : Value} (parsed : parse content = some root)
    (readable : ListsReadable root) (layout : Layout (reading.pieces content)) {c : Manager}
    (storable : Storable c.device_id)
    (isBase64 : ∀ b ∈ c.token_encrypted, b ∈ pad :: tbl) :
    ∃ root', parse (savedText c content) = some root' ∧ ListsReadable root' ∧
      root'.find (agentPath "device_id") = some (.string c.device_id) ∧
      root'.find (agentPath "token") = some (.string c.token_encrypted) := by
  obtain ⟨idPlain, tokenPlain, middle, root1, root2, first, parsed1, pieces1, second, parsed2,
    pieces2⟩ := savedText_parses reading parsed layout.device_id_contained layout.token_contained
      storable isBase64
  have strings : Strings (reading.pieces content) root :=
    fun e mem => ⟨e.value, reading.reads parsed e mem⟩
  have strings1 : Strings (reading.pieces middle) root1 :=
    fun e mem => ⟨e.value, reading.reads parsed1 e mem⟩
  have readable1 : ListsReadable root1 := by
    rw [first]
    exact listsReadable_retext (strings.patch idPlain) readable
  have readable2 : ListsReadable root2 := by
    rw [second]
    exact listsReadable_retext (strings1.patch tokenPlain) readable1
  have found : ∀ e, .basic e ∈ ((reading.pieces content).map
      (patch (bytes "device_id") c.device_id idPlain)).map
        (patch (bytes "token") c.token_encrypted tokenPlain) →
      root2.find e.path = some (.string e.value) := by
    rw [← pieces1, ← pieces2]
    exact fun e mem => reading.reads parsed2 e mem
  refine ⟨root2, parsed2, readable2, ?_, ?_⟩
  · obtain ⟨e, mem, path, ends⟩ := layout.device_id
    have written := (mem_patch idPlain mem).1 ends
    have kept := (mem_patch tokenPlain written).2 (not_token_of_device_id ends)
    rw [← path]
    exact found _ kept
  · obtain ⟨e, mem, path, ends⟩ := layout.token
    have kept := (mem_patch idPlain mem).2 fun other => not_token_of_device_id other ends
    have written := (mem_patch tokenPlain kept).1 ends
    rw [← path]
    exact found _ written

/-- A load of the text accepts it and finds the credentials. -/
def LoadsBack (aes : Aes) (hostKey : Bytes) (platform : Platform) (parse : Bytes → Option Value)
    (uuid path : Bytes) (c : Manager) (text id token : Bytes) : Prop :=
  let loaded := load platform parse uuid path (some text) c
  loaded.1 = .returned true ∧ getDeviceId loaded.2 = id ∧ getToken aes hostKey loaded.2 = token

/-- What `save` wrote whole into a file with the layout loads back in any process. -/
theorem loadsBack_of_save {parse : Bytes → Option Value} (reading : Reading parse)
    {aes : Aes} {hostKey content text token : Bytes} {root : Value} {iv : Option Iv}
    {changed : Manager} {opens : Bool} {written : Nat} (parsed : parse content = some root)
    (readable : ListsReadable root) (layout : Layout (reading.pieces content))
    (storable : Storable changed.device_id) (nonempty : changed.device_id ≠ [])
    (short : token.length < 2 ^ 31 - 16)
    (crypt : encryptToken aes hostKey iv token = some changed.token_encrypted)
    (saved : save (some content) opens written changed = (true, some text))
    (whole : (savedText changed content).length ≤ written) (platform : Platform)
    (uuid path : Bytes) (c : Manager) :
    LoadsBack aes hostKey platform parse uuid path c text changed.device_id token := by
  obtain ⟨root', parsed', readable', foundId, foundToken⟩ :=
    savedText_loads reading parsed readable layout storable (encryptToken_base64 crypt)
  rw [← save_whole saved whole] at parsed'
  have parsed'' : (some text).bind parse = some root' := parsed'
  obtain ⟨_, device_id, token_encrypted, _⟩ := load_fields platform uuid path c parsed''
  have idBack : root'.stringOr (bytes "agent") (bytes "device_id") [] = changed.device_id :=
    Value.stringOr_of_find foundId []
  have tokenBack : root'.stringOr (bytes "agent") (bytes "token") [] = changed.token_encrypted :=
    Value.stringOr_of_find foundToken []
  have given : changed.device_id.isEmpty = false := by
    rw [List.isEmpty_eq_false_iff]
    exact nonempty
  refine ⟨load_true.mpr ⟨root', parsed', readable'⟩, ?_, ?_⟩
  · unfold getDeviceId
    rw [device_id, idBack, given]
    rfl
  · unfold getToken
    rw [token_encrypted, tokenBack]
    exact decryptToken_of_encryptToken short crypt

/-- On a file with the layout, credentials that `save` wrote whole load back in any
process of the host. -/
theorem saved_credentials_load_back {parse : Bytes → Option Value} (reading : Reading parse)
    (aes : Aes) (hostKey : Bytes) (platform : Platform) (uuid path content : Bytes) (c : Manager)
    (accepted : (load platform parse uuid path (some content) c).1 = .returned true)
    (layout : Layout (reading.pieces content)) (id token : Bytes)
    (isUuid : ∀ b ∈ id, uuidChar b) (nonempty : id ≠ []) (short : token.length < 2 ^ 31 - 16)
    (iv : Option Iv) (changed : Manager)
    (stored : setToken aes hostKey iv token
      (setDeviceId id (load platform parse uuid path (some content) c).2) = some changed)
    (opens : Bool) (written : Nat) (text : Bytes)
    (saved : save (some content) opens written changed = (true, some text))
    (whole : (savedText changed content).length ≤ written)
    (uuid' path' : Bytes) (fresh : Manager) :
    LoadsBack aes hostKey platform parse uuid' path' fresh text id token := by
  obtain ⟨root, parsed, readable⟩ := load_true.mp accepted
  obtain ⟨crypt, sameId⟩ := setToken_fields stored
  obtain rfl : changed.device_id = id := sameId
  exact loadsBack_of_save reading parsed readable layout (storable_uuid isUuid) nonempty short
    crypt saved whole platform uuid' path' fresh

def escapedA : Bytes := bytes "\\u0041"

/-- What a string of the sample files says: plain text says itself, and one escape is known. -/
def unescape (v : Bytes) : Option Bytes :=
  if Plain v then some v else if v = escapedA then some (bytes "A") else none

theorem unescape_plain {v : Bytes} (plain : Plain v) : unescape v = some v := if_pos plain

theorem quote_notMem_of_unescape {v : Bytes} (readable : (unescape v).isSome) : quote ∉ v := by
  unfold unescape at readable
  split at readable
  · rename_i plain
    exact fun mem => (plain quote mem).2.2.1 rfl
  · split at readable
    · rename_i same
      rw [same]
      decide
    · cases readable

/-- A string as a sample file may write it. -/
abbrev SampleText := { v : Bytes // (unescape v).isSome }

def meaning (v : SampleText) : Bytes := (unescape v.1).get v.2

def plainText (w : Bytes) (plain : Plain w) : SampleText := ⟨w, by rw [unescape_plain plain]; rfl⟩

theorem meaning_plainText {w : Bytes} (plain : Plain w) : meaning (plainText w plain) = w :=
  Option.get_of_eq_some _ (unescape_plain plain)

/-- An assignment with one space around the sign. -/
def sampleEntry (name : String) (bare : ∀ b ∈ bytes name, b ≠ quote ∧ b ≠ equals)
    (visible : ∀ b, (bytes name).getLast? = some b → isSpace b = false) (v : SampleText) :
    Entry where
  parent := [.key (bytes "agent")]
  name := bytes name
  key := bytes name
  sign := bytes " = "
  body := v.1
  value := meaning v
  bareKey := bare
  keyEnd := visible
  spaced := Entry.spaced_single
  closed := quote_notMem_of_unescape v.2

theorem write_sampleEntry {name : String} {bare : ∀ b ∈ bytes name, b ≠ quote ∧ b ≠ equals}
    {visible : ∀ b, (bytes name).getLast? = some b → isSpace b = false} {w : Bytes}
    (v : SampleText) (plain : Plain w) :
    (sampleEntry name bare visible v).write w plain =
      sampleEntry name bare visible (plainText w plain) := by
  unfold sampleEntry Entry.write
  simp only [meaning_plainText]
  rfl

def idEntry (v : SampleText) : Entry :=
  sampleEntry "device_id" (by decide +kernel) (fun b last => by
    obtain rfl : 100 = b := Option.some.inj last
    decide) v

def tokenEntry (v : SampleText) : Entry :=
  sampleEntry "token" (by decide +kernel) (fun b last => by
    obtain rfl : 110 = b := Option.some.inj last
    decide) v

/-- The files that hold the two fields and nothing else. -/
def samplePieces (id token : SampleText) : List Piece :=
  [.other (bytes "[agent]\n"), .basic (idEntry id), .other (bytes "\n"),
    .basic (tokenEntry token), .other (bytes "\n")]

def sampleRoot (id token : SampleText) : Value :=
  .table [(bytes "agent",
    .table [(bytes "device_id", .string (meaning id)), (bytes "token", .string (meaning token))])]

/-- A string up to its quote. -/
def readValue (s : Bytes) : Option (SampleText × Bytes) :=
  let v := s.takeWhile fun b => b != quote
  if readable : (unescape v).isSome then some (⟨v, readable⟩, s.drop v.length) else none

def readSample (s : Bytes) : Option (SampleText × SampleText) :=
  (skip (bytes "[agent]\ndevice_id = \"") s).bind fun s =>
    (readValue s).bind fun (id, s) =>
      (skip (bytes "\"\ntoken = \"") s).bind fun s =>
        (readValue s).bind fun (token, s) =>
          if s = bytes "\"\n" then some (id, token) else none

def parseSample (s : Bytes) : Option Value :=
  (readSample s).map fun (id, token) => sampleRoot id token

theorem readValue_eq_some {s rest : Bytes} {v : SampleText} :
    readValue s = some (v, rest) → s = v.1 ++ rest := by
  intro read
  unfold readValue at read
  dsimp only at read
  split at read
  · obtain ⟨rfl, rfl⟩ := Prod.mk.inj (Option.some.inj read)
    exact (List.prefix_iff_eq_append.mp (List.takeWhile_prefix _)).symm
  · cases read

theorem readValue_closed (v : SampleText) (rest : Bytes) :
    readValue (v.1 ++ quote :: rest) = some (v, quote :: rest) := by
  have before : (v.1 ++ quote :: rest).takeWhile (fun b => b != quote) = v.1 := by
    have inside : ∀ b ∈ v.1, (b != quote) = true := fun b mem => by
      simpa using fun same : b = quote => quote_notMem_of_unescape v.2 (same ▸ mem)
    rw [List.takeWhile_append_of_pos inside]
    simp
  unfold readValue
  simp only [before]
  rw [dif_pos v.2, List.drop_left]

theorem text_samplePieces (id token : SampleText) :
    text (samplePieces id token) = bytes "[agent]\ndevice_id = \"" ++
      (id.1 ++ (bytes "\"\ntoken = \"" ++ (token.1 ++ bytes "\"\n"))) := by
  have head : bytes "[agent]\ndevice_id = \"" =
      bytes "[agent]\n" ++ (bytes "device_id" ++ (bytes " = " ++ [quote])) := by decide
  have middle : bytes "\"\ntoken = \"" =
      [quote] ++ (bytes "\n" ++ (bytes "token" ++ (bytes " = " ++ [quote]))) := by decide
  have last : bytes "\"\n" = [quote] ++ bytes "\n" := by decide
  rw [head, middle, last]
  simp only [samplePieces, text_cons, Piece.text, Entry.text, idEntry, tokenEntry, sampleEntry,
    List.append_assoc, List.cons_append, List.nil_append]
  simp [text]

/-- The reader knows exactly the sample files. -/
theorem readSample_eq_some {s : Bytes} {id token : SampleText} :
    readSample s = some (id, token) ↔ s = text (samplePieces id token) := by
  rw [text_samplePieces]
  constructor
  · intro read
    obtain ⟨s1, first, read⟩ := Option.bind_eq_some_iff.mp read
    obtain ⟨⟨id', s2⟩, second, read⟩ := Option.bind_eq_some_iff.mp read
    obtain ⟨s3, third, read⟩ := Option.bind_eq_some_iff.mp read
    obtain ⟨⟨token', s4⟩, fourth, read⟩ := Option.bind_eq_some_iff.mp read
    dsimp only at read
    split at read
    · rename_i ending
      obtain ⟨rfl, rfl⟩ := Prod.mk.inj (Option.some.inj read)
      rw [skip_eq_some.mp first, readValue_eq_some second, skip_eq_some.mp third,
        readValue_eq_some fourth, ending]
    · cases read
  · rintro rfl
    have first : bytes "\"\ntoken = \"" = quote :: bytes "\ntoken = \"" := by decide
    have second : bytes "\"\n" = quote :: bytes "\n" := by decide
    unfold readSample
    rw [skip_eq_some.mpr rfl, Option.bind_some, first, List.cons_append, readValue_closed,
      Option.bind_some]
    dsimp only
    rw [← List.cons_append, ← first, skip_eq_some.mpr rfl, Option.bind_some, second,
      readValue_closed, Option.bind_some]
    dsimp only
    rw [if_pos rfl]

theorem parseSample_text (id token : SampleText) :
    parseSample (text (samplePieces id token)) = some (sampleRoot id token) := by
  have read : readSample (text (samplePieces id token)) = some (id, token) :=
    readSample_eq_some.mpr rfl
  unfold parseSample
  rw [read]
  rfl

theorem rewrites_basic {f : SampleText → Entry}
    (write : ∀ v w plain, (f v).write w plain = f (plainText w plain)) {v : SampleText} {p : Piece}
    (rewrite : Rewrites (.basic (f v)) p) : ∃ v', p = .basic (f v') := by
  generalize before : Piece.basic (f v) = q at rewrite
  cases rewrite with
  | same => exact ⟨v, before.symm⟩
  | basic e w plain =>
      obtain rfl := Piece.basic.inj before
      exact ⟨plainText w plain, by rw [write]⟩
  | comment => cases before

theorem rewrites_other {t : Bytes} {p : Piece} (rewrite : Rewrites (.other t) p) :
    p = .other t := by
  cases rewrite
  rfl

/-- Rewriting a sample file gives a sample file. -/
theorem samplePieces_rewrites {id token : SampleText} {ps : List Piece}
    (rewrites : List.Forall₂ Rewrites (samplePieces id token) ps) :
    ∃ id' token', ps = samplePieces id' token' := by
  obtain ⟨_, _, first, after1, rfl⟩ := List.forall₂_cons_left_iff.mp rewrites
  obtain ⟨_, _, second, after2, rfl⟩ := List.forall₂_cons_left_iff.mp after1
  obtain ⟨_, _, third, after3, rfl⟩ := List.forall₂_cons_left_iff.mp after2
  obtain ⟨_, _, fourth, after4, rfl⟩ := List.forall₂_cons_left_iff.mp after3
  obtain ⟨_, _, fifth, after5, rfl⟩ := List.forall₂_cons_left_iff.mp after4
  obtain rfl := List.forall₂_nil_left_iff.mp after5
  obtain ⟨id', rfl⟩ := rewrites_basic (fun _ _ plain => write_sampleEntry _ plain) second
  obtain ⟨token', rfl⟩ := rewrites_basic (fun _ _ plain => write_sampleEntry _ plain) fourth
  refine ⟨id', token', ?_⟩
  rw [rewrites_other first, rewrites_other third, rewrites_other fifth]
  rfl

theorem retext_sample (id token id' token' : SampleText) :
    retext (samplePieces id' token') (sampleRoot id token) = sampleRoot id' token' := by
  rfl

/-- The reading of the sample files. -/
def sampleReading : Reading parseSample where
  pieces s :=
    match readSample s with
    | some (id, token) => samplePieces id token
    | none => []
  lossless := by
    intro content root parsed
    obtain ⟨⟨id, token⟩, read, _⟩ := Option.map_eq_some_iff.mp parsed
    rw [read]
    exact (readSample_eq_some.mp read).symm
  reads := by
    intro content root parsed e mem
    obtain ⟨⟨id, token⟩, read, rfl⟩ := Option.map_eq_some_iff.mp parsed
    rw [read] at mem
    simp only [samplePieces, List.mem_cons, Piece.basic.injEq, reduceCtorEq, false_or,
      List.not_mem_nil, or_false] at mem
    rcases mem with rfl | rfl
    · rfl
    · rfl
  reread := by
    intro content root ps parsed rewrites
    obtain ⟨⟨id, token⟩, read, rfl⟩ := Option.map_eq_some_iff.mp parsed
    rw [read] at rewrites
    obtain ⟨id', token', rfl⟩ := samplePieces_rewrites rewrites
    have read' : readSample (text (samplePieces id' token')) = some (id', token') :=
      readSample_eq_some.mpr rfl
    refine ⟨?_, by rw [read']⟩
    rw [retext_sample]
    exact parseSample_text id' token'

def noValue : SampleText := ⟨[], by decide⟩

/-- An identity that is written with an escape. -/
def escapedValue : SampleText := ⟨escapedA, by decide⟩

/-- The sample file without credentials. -/
def sampleText : Bytes := text (samplePieces noValue noValue)

/-- The sample file with an identity that is written with an escape. -/
def escapedText : Bytes := text (samplePieces escapedValue noValue)

def sampleId : Bytes := bytes "0a1b2c3d-0000-4000-8000-00000000000f"

theorem layout_of_contained {id token : SampleText}
    (inId : Contained (bytes "device_id") (samplePieces id token))
    (inToken : Contained (bytes "token") (samplePieces id token)) :
    Layout (samplePieces id token) where
  device_id := ⟨idEntry id, by simp [samplePieces], rfl, List.suffix_refl _⟩
  token := ⟨tokenEntry token, by simp [samplePieces], rfl, List.suffix_refl _⟩
  device_id_contained := inId
  token_contained := inToken

theorem sample_layout : Layout (samplePieces noValue noValue) :=
  layout_of_contained (by decide +kernel) (by decide +kernel)

theorem escaped_layout : Layout (samplePieces escapedValue noValue) :=
  layout_of_contained (by decide +kernel) (by decide +kernel)

theorem pieces_sampleReading (id token : SampleText) :
    sampleReading.pieces (text (samplePieces id token)) = samplePieces id token := by
  have read : readSample (text (samplePieces id token)) = some (id, token) :=
    readSample_eq_some.mpr rfl
  unfold sampleReading
  dsimp only
  rw [read]

/-- The manager after the sample file was loaded and the credentials were set. -/
def sampleChanged : Manager :=
  { (load .linux parseSample sampleId (bytes "config.toml") (some sampleText) .initial).2 with
    device_id := sampleId
    token_encrypted := bytes "AAECAwQFBgcICQoLDA0OD6P88nv3HLPCTrEPgvM7t4o=" }

/-- The sample file with the credentials. -/
def sampleSaved : Bytes :=
  bytes "[agent]\ndevice_id = \"0a1b2c3d-0000-4000-8000-00000000000f\"\n" ++
    bytes "token = \"AAECAwQFBgcICQoLDA0OD6P88nv3HLPCTrEPgvM7t4o=\"\n"

/-- Saved over an identity with an escape. -/
theorem sample_credentials_load_back :
    save (some escapedText) true 1000 sampleChanged = (true, some sampleSaved) ∧
      LoadsBack sampleAes sampleKey .linux parseSample [] (bytes "config.toml") .initial
        sampleSaved sampleId (bytes "tok") := by
  have saved : save (some escapedText) true 1000 sampleChanged = (true, some sampleSaved) := by
    decide +kernel
  have layout : Layout (sampleReading.pieces escapedText) := by
    rw [escapedText, pieces_sampleReading]
    exact escaped_layout
  exact ⟨saved, saved_credentials_load_back sampleReading sampleAes sampleKey .linux sampleId
    (bytes "config.toml") escapedText .initial (by decide +kernel) layout sampleId (bytes "tok")
    (by decide +kernel) (by decide) (by decide) (some sampleIv) sampleChanged (by decide +kernel)
    true 1000 sampleSaved saved (by decide +kernel) [] (bytes "config.toml") .initial⟩

/-- A file with an empty `[agent]`, and a parser that knows it. -/
def bareText : Bytes := bytes "[agent]\n"

def parseBare (text : Bytes) : Option Value :=
  if text = bareText then some (.table [(bytes "agent", .table [])]) else none

/-- `save` reports success and leaves the file as it was. -/
theorem credentials_lost_without_keys :
    (load .linux parseBare sampleId (bytes "config.toml") (some bareText) .initial).1 =
        .returned true ∧
      ∃ changed, setToken sampleAes sampleKey (some sampleIv) (bytes "tok")
          (setDeviceId sampleId (load .linux parseBare sampleId (bytes "config.toml")
            (some bareText) .initial).2) = some changed ∧
        save (some bareText) true 1000 changed = (true, some bareText) ∧
        ¬ LoadsBack sampleAes sampleKey .linux parseBare
          (bytes "11111111-0000-4000-8000-000000000000") (bytes "config.toml")
          .initial bareText sampleId (bytes "tok") := by
  refine ⟨by decide +kernel,
    { (load .linux parseBare sampleId (bytes "config.toml") (some bareText) .initial).2 with
      device_id := sampleId
      token_encrypted := bytes "AAECAwQFBgcICQoLDA0OD6P88nv3HLPCTrEPgvM7t4o=" },
    by decide +kernel, by decide +kernel, ?_⟩
  rintro ⟨_, sameId, _⟩
  exact absurd sameId (by decide +kernel)

end OrbisAgent.Config.SavedFile
