/- OrbisAgent/Plugins/CollectFaults
   source: PluginLoader::collectAll, PluginLoader::parseCollectResult
   digest: A round unloads the plugins that throw and serves those that return entries. A plugin
   whose text is no JSON stays loaded, and one whose numbers no double holds is unloaded. -/

import OrbisAgent.Plugins.PluginLoader
import Mathlib.Tactic.ByContra

set_option autoImplicit false
set_option relaxedAutoImplicit false

namespace OrbisAgent.Plugins.CollectFaults

open OrbisAgent.Lib.Json
open OrbisAgent.Plugins.PluginLoader

/-- A field that is a string or missing. -/
def TextOrMissing (fields : List (String × Json)) (key : String) : Prop :=
  fields.lookup key = none ∨ ∃ s, fields.lookup key = some (.str s)

/-- An entry object: its source, level and message are strings or missing. -/
def WellTyped (item : Json) : Prop :=
  ∃ fields, item = .obj fields ∧ TextOrMissing fields "source" ∧ TextOrMissing fields "level" ∧
    TextOrMissing fields "message"

def textField (fields : List (String × Json)) (key : String) (default : ByteArray) : ByteArray :=
  match fields.lookup key with
  | some (.str s) => s
  | _ => default

/-- The entry that an entry object stands for. -/
def entryOf (codec : Codec) (name : ByteArray) : Json → PluginLogEntry
  | .obj fields =>
      ⟨textField fields "source" name, textField fields "level" "INFO".toByteArray,
        textField fields "message" "".toByteArray,
        match fields.lookup "metadata" with
        | some metadata => (codec.render metadata).toByteArray
        | none => "\x7b\x7d".toByteArray⟩
  | _ => ⟨name, "INFO".toByteArray, "".toByteArray, "\x7b\x7d".toByteArray⟩

/-- JSON as its grammar has it, which a parser may refuse for another reason than its form: the
texts that are JSON, and those that are arrays of entry objects. -/
structure Grammar (codec : Codec) where
  valid : ByteArray → Prop
  entryArray : ByteArray → Prop
  valid_of_parse : ∀ {raw j}, codec.parse raw = .ok j → valid raw
  malformed : ∀ {raw e}, codec.parse raw = .error e → e.kind = .parse_error → ¬ valid raw
  valid_of_entryArray : ∀ {raw}, entryArray raw → valid raw
  entryArray_iff : ∀ {raw j}, codec.parse raw = .ok j →
    (entryArray raw ↔ ∃ items, j = .arr items ∧ ∀ item ∈ items, WellTyped item)
  /-- An empty text is not JSON. -/
  empty : ∃ e, codec.parse ByteArray.empty = .error e ∧ e.kind = .parse_error

section Round

variable {codec : Codec} (grammar : Grammar codec) (collect : Nat → Outcome)

/-- The plugin throws, or returns a text that is not valid JSON. -/
def Faulty (p : LoadedPlugin) : Prop :=
  collect p.lib = .threw ∨ ∃ raw, collect p.lib = .text raw ∧ ¬ grammar.valid raw

/-- The plugin returns an array of entry objects. -/
def Serves (p : LoadedPlugin) : Prop :=
  ∃ raw, collect p.lib = .text raw ∧ grammar.entryArray raw

/-- The plugin returns an array that is read as these entry objects. -/
def Delivers (codec : Codec) (collect : Nat → Outcome) (p : LoadedPlugin) (items : List Json) :
    Prop :=
  ∃ raw, collect p.lib = .text raw ∧ codec.parse raw = .ok (.arr items) ∧
    ∀ item ∈ items, WellTyped item

/-- After the round the faulty plugins are gone, those that returned entry objects are there, and
the callback was called with the entries of each of them. -/
structure RoundJudges (l : Loader) : Prop where
  unloads : ∀ p ∈ l.plugins, Faulty grammar collect p →
    p ∉ (collectAll codec collect calm l).2.plugins
  keeps : ∀ p ∈ l.plugins, Serves grammar collect p →
    p ∈ (collectAll codec collect calm l).2.plugins
  passes : ∀ p ∈ l.plugins, ∀ items, Delivers codec collect p items → items ≠ [] →
    items.map (entryOf codec p.name) ∈ (collectAll codec collect calm l).1

/-- The text is JSON, and the parser refuses it only if it is no array of entry objects. -/
def Readable (raw : ByteArray) : Prop :=
  ∀ e, codec.parse raw = .error e → e.kind ≠ .parse_error ∧ ¬ grammar.entryArray raw

end Round

variable {codec : Codec} {grammar : Grammar codec} {collect : Nat → Outcome}

theorem Grammar.empty_invalid (grammar : Grammar codec) (j : Json) :
    codec.parse ByteArray.empty ≠ .ok j := by
  obtain ⟨e, failed, _⟩ := grammar.empty
  rw [failed]
  exact nofun

theorem value_textField {fields : List (String × Json)} {key : String} (default : ByteArray)
    (typed : TextOrMissing fields key) :
    (Json.obj fields).value Json.getString key default = .ok (textField fields key default) := by
  rw [Json.value_obj]
  unfold textField
  rcases typed with none | ⟨s, found⟩
  · rw [none]
  · rw [found]
    rfl

theorem pluginLogEntry_of_wellTyped {name : ByteArray} {item : Json} (typed : WellTyped item)
    (valid : item.wellEncoded = true) :
    pluginLogEntry codec name item = .ok (entryOf codec name item) := by
  obtain ⟨fields, rfl, source, level, message⟩ := typed
  unfold pluginLogEntry entryOf
  rw [value_textField name source, value_textField "INFO".toByteArray level,
    value_textField "".toByteArray message]
  cases found : fields.lookup "metadata" with
  | none => simp [bind, Except.bind, pure, Except.pure, found]
  | some metadata =>
      have encoded := Json.wellEncoded_of_lookup valid found
      simp [bind, Except.bind, pure, Except.pure, found, Except.map, encoded]

theorem parseCollectResult_of_delivers {p : LoadedPlugin} {items : List Json}
    (emptyInvalid : ∀ j, codec.parse ByteArray.empty ≠ .ok j)
    (delivers : Delivers codec collect p items) :
    ∃ raw, collect p.lib = .text raw ∧
      parseCollectResult codec raw p.name = .ok (items.map (entryOf codec p.name)) := by
  obtain ⟨raw, returned, parsed, typed⟩ := delivers
  refine ⟨raw, returned, ?_⟩
  have some : raw.isEmpty = false := by
    cases none : raw.isEmpty with
    | false => rfl
    | true =>
        rw [ByteArray.isEmpty, beq_iff_eq] at none
        rw [ByteArray.size_eq_zero_iff.mp none] at parsed
        exact absurd parsed (emptyInvalid _)
  unfold parseCollectResult
  rw [some, parsed]
  have encoded := codec.wellEncoded_of_parse _ _ parsed
  have each : ∀ item ∈ items, pluginLogEntry codec p.name (id item) =
      .ok (entryOf codec p.name item) := fun item mem =>
    pluginLogEntry_of_wellTyped (typed item mem) (Json.wellEncoded_of_mem encoded mem)
  simpa using mapM_map_ok each

theorem turn_calls (p : LoadedPlugin) (passed : Passed) :
    (turn codec collect calm p passed).1 =
      passed ++ [yields codec collect p].filter fun entries => !entries.isEmpty := by
  unfold turn yields
  cases collect p.lib with
  | threw => simp
  | null => simp
  | text raw =>
      dsimp only
      cases parseCollectResult codec raw p.name with
      | error e => simp
      | ok entries => cases entries <;> simp

/-- The calls of the callback: one for each plugin that has entries, in order. -/
theorem collectLoop_calls (i : Nat) (plugins : List LoadedPlugin) (passed : Passed) :
    (collectLoop codec collect calm i plugins passed).2 =
      passed ++ (plugins.map (yields codec collect)).filter fun entries => !entries.isEmpty := by
  induction plugins generalizing i passed with
  | nil => exact (List.append_nil _).symm
  | cons p rest ih =>
      simp only [collectLoop]
      rw [ih, turn_calls, List.append_assoc, ← List.filter_append]
      rfl

/-- A plugin that returns entry objects passes its turn, and its entries reach the callback. -/
theorem judged_of_delivers {l : Loader} {p : LoadedPlugin} {items : List Json}
    (emptyInvalid : ∀ j, codec.parse ByteArray.empty ≠ .ok j) (mem : p ∈ l.plugins)
    (delivers : Delivers codec collect p items) :
    p ∈ (collectAll codec collect calm l).2.plugins ∧
      (items ≠ [] →
        items.map (entryOf codec p.name) ∈ (collectAll codec collect calm l).1) := by
  obtain ⟨raw, returned, entries⟩ := parseCollectResult_of_delivers emptyInvalid delivers
  constructor
  · rw [collectAll_keeps]
    refine List.mem_filter.mpr ⟨mem, ?_⟩
    simp [fails, returned, entries]
  · intro some
    have calls : (collectAll codec collect calm l).1 =
        (l.plugins.map (yields codec collect)).filter fun entries => !entries.isEmpty :=
      collectLoop_calls 0 l.plugins []
    have mine : yields codec collect p = items.map (entryOf codec p.name) := by
      simp [yields, returned, entries]
    rw [calls, ← mine]
    refine List.mem_filter.mpr ⟨List.mem_map_of_mem mem, ?_⟩
    rw [mine]
    simpa using some

/-- A parse error is caught before it reaches the round: no entries, and no failure. -/
theorem fails_of_malformed {p : LoadedPlugin} {raw : ByteArray} {e : Exn}
    (returned : collect p.lib = .text raw) (failed : codec.parse raw = .error e)
    (caught : e.kind = .parse_error) : fails codec collect p = false := by
  unfold fails
  rw [returned]
  cases empty : raw.isEmpty with
  | true => simp [parseCollectResult, empty, pure, Except.pure]
  | false => simp [parseCollectResult_error empty failed, caught]

/-- Every other error of the parser reaches it. -/
theorem fails_of_refused {p : LoadedPlugin} {raw : ByteArray} {e : Exn} (grammar : Grammar codec)
    (returned : collect p.lib = .text raw) (failed : codec.parse raw = .error e)
    (escapes : e.kind ≠ .parse_error) : fails codec collect p = true := by
  have some : raw.isEmpty = false := by
    cases none : raw.isEmpty with
    | false => rfl
    | true =>
        rw [ByteArray.isEmpty, beq_iff_eq] at none
        rw [ByteArray.size_eq_zero_iff.mp none] at failed
        obtain ⟨e', malformed, kind⟩ := grammar.empty
        obtain rfl := Except.error.inj (malformed.symm.trans failed)
        exact absurd kind escapes
  unfold fails
  rw [returned]
  simp [parseCollectResult_error some failed, escapes]

theorem mem_collectAll {l : Loader} {p : LoadedPlugin} (mem : p ∈ l.plugins) :
    p ∈ (collectAll codec collect calm l).2.plugins ↔ fails codec collect p = false := by
  rw [collectAll_keeps, List.mem_filter]
  simp [mem]

/-- A judged text is readable: a malformed one keeps its plugin, and a refused array of entry
objects unloads it. -/
theorem readable_of_roundJudges {l : Loader} (judges : RoundJudges grammar collect l)
    {p : LoadedPlugin} (mem : p ∈ l.plugins) {raw : ByteArray}
    (returned : collect p.lib = .text raw) : Readable grammar raw := by
  intro e failed
  have escapes : e.kind ≠ .parse_error := by
    intro caught
    apply judges.unloads p mem (.inr ⟨raw, returned, grammar.malformed failed caught⟩)
    exact (mem_collectAll mem).mpr (fails_of_malformed returned failed caught)
  refine ⟨escapes, fun entries => ?_⟩
  have kept := (mem_collectAll mem).mp (judges.keeps p mem ⟨raw, returned, entries⟩)
  rw [fails_of_refused grammar returned failed escapes] at kept
  cases kept

theorem unloads_of_readable {l : Loader} {p : LoadedPlugin} (mem : p ∈ l.plugins)
    (readable : ∀ raw, collect p.lib = .text raw → Readable grammar raw)
    (faulty : Faulty grammar collect p) : p ∉ (collectAll codec collect calm l).2.plugins := by
  rw [mem_collectAll mem, Bool.not_eq_false]
  rcases faulty with threw | ⟨raw, returned, invalid⟩
  · simp [fails, threw]
  · cases parsed : codec.parse raw with
    | ok j => exact absurd (grammar.valid_of_parse parsed) invalid
    | error e => exact fails_of_refused grammar returned parsed (readable raw returned e parsed).1

theorem delivers_of_serves {p : LoadedPlugin}
    (readable : ∀ raw, collect p.lib = .text raw → Readable grammar raw)
    (serves : Serves grammar collect p) : ∃ items, Delivers codec collect p items := by
  obtain ⟨raw, returned, entries⟩ := serves
  cases parsed : codec.parse raw with
  | error e => exact absurd entries (readable raw returned e parsed).2
  | ok j =>
      obtain ⟨items, rfl, typed⟩ := (grammar.entryArray_iff parsed).mp entries
      exact ⟨items, raw, returned, parsed, typed⟩

/-- A round treats every plugin as it should if and only if every text that a plugin returns is
JSON, and no array of entry objects among them is refused by the parser. -/
theorem round_judges_iff_texts_parse {codec : Codec} (grammar : Grammar codec)
    (collect : Nat → Outcome) (l : Loader) :
    RoundJudges grammar collect l ↔
      ∀ p ∈ l.plugins, ∀ raw, collect p.lib = .text raw → Readable grammar raw := by
  constructor
  · exact fun judges p mem raw returned => readable_of_roundJudges judges mem returned
  · intro readable
    refine ⟨fun p mem => unloads_of_readable mem (readable p mem), fun p mem serves => ?_,
      fun p mem items delivers => (judged_of_delivers grammar.empty_invalid mem delivers).2⟩
    obtain ⟨items, delivers⟩ := delivers_of_serves (readable p mem) serves
    exact (judged_of_delivers grammar.empty_invalid mem delivers).1

/-- What a plugin of the examples returns. -/
def cpuItems : List Json := [.obj [("message", .text "load 0.4")]]

def cpuText : ByteArray := (plainText (.arr cpuItems)).toByteArray

/-- An array of one entry object and an object with a number that no double holds. -/
def hugeEntry : ByteArray := "[\x7b\"message\":\"m\",\"v\":1e999\x7d]".toByteArray

def hugeObject : ByteArray := "\x7b\"v\":1e999\x7d".toByteArray

def outOfRange : Exn :=
  ⟨.other, "[json.exception.out_of_range.406] number overflow parsing '1e999'"⟩

/-- The parser on the texts of the examples. -/
def cpuParse (s : ByteArray) : Except Exn Json :=
  if s = cpuText then .ok (.arr cpuItems)
  else if s = hugeEntry ∨ s = hugeObject then .error outOfRange
  else .error ⟨.parse_error, "[json.exception.parse_error.101] parse error"⟩

theorem cpuParse_ok {s : ByteArray} {j : Json} (parsed : cpuParse s = .ok j) :
    s = cpuText ∧ j = .arr cpuItems := by
  unfold cpuParse at parsed
  split at parsed
  · exact ⟨‹_›, (Except.ok.inj parsed).symm⟩
  · split at parsed <;> cases parsed

def cpuCodec : Codec where
  parse := cpuParse
  render := plainText
  badEncoding _ := ⟨.other, "[json.exception.type_error.316] invalid UTF-8 byte"⟩
  wellEncoded_of_parse s j parsed := by
    obtain ⟨_, rfl⟩ := cpuParse_ok parsed
    simp [cpuItems]

theorem cpuItems_wellTyped : ∀ item ∈ cpuItems, WellTyped item := by
  intro item mem
  obtain rfl := List.mem_singleton.mp mem
  exact ⟨_, rfl, .inl rfl, .inl rfl, .inr ⟨_, rfl⟩⟩

def cpuGrammar : Grammar cpuCodec where
  valid s := s = cpuText ∨ s = hugeEntry ∨ s = hugeObject
  entryArray s := s = cpuText ∨ s = hugeEntry
  valid_of_parse parsed := .inl (cpuParse_ok parsed).1
  malformed {raw e} failed caught valid := by
    replace failed : cpuParse raw = .error e := failed
    unfold cpuParse at failed
    split at failed
    · cases failed
    · split at failed
      · obtain rfl := Except.error.inj failed
        cases caught
      · rcases valid with here | huge <;> contradiction
  valid_of_entryArray entries := entries.imp_right .inl
  entryArray_iff parsed := by
    obtain ⟨rfl, rfl⟩ := cpuParse_ok parsed
    exact iff_of_true (.inl rfl) ⟨cpuItems, rfl, cpuItems_wellTyped⟩
  empty := ⟨_, rfl, rfl⟩

def plugin (name : String) (lib : Nat) : LoadedPlugin :=
  ⟨name.toByteArray, "1.0".toByteArray, some lib, lib⟩

/-- A loader with three plugins. -/
def cpuLoader : Loader :=
  ⟨[plugin "cpu_ram" 0, plugin "disk" 1, plugin "docker_stats" 2], 3, [0, 1, 2], []⟩

/-- The first returns entries, the second an object that the parser refuses, and the third
throws. -/
def cpuCollect : Nat → Outcome
  | 0 => .text cpuText
  | 1 => .text hugeObject
  | _ => .threw

theorem cpu_round_judges : RoundJudges cpuGrammar cpuCollect cpuLoader := by
  refine (round_judges_iff_texts_parse cpuGrammar cpuCollect cpuLoader).mpr ?_
  intro p mem raw returned e failed
  simp only [cpuLoader, List.mem_cons, List.not_mem_nil, or_false] at mem
  rcases mem with rfl | rfl | rfl
  · obtain rfl := Outcome.text.inj returned
    cases failed
  · obtain rfl := Outcome.text.inj returned
    obtain rfl := Except.error.inj failed
    refine ⟨by decide, ?_⟩
    rintro (same | same) <;> exact absurd same (by decide)
  · cases returned

/-- A plugin that returns a text cut short stays loaded, and one whose entries hold a number that
no double holds is unloaded. -/
theorem truncated_text_keeps_plugin :
    let truncated : Nat → Outcome := fun _ => .text "[\x7b\"message\":".toByteArray
    let huge : Nat → Outcome := fun _ => .text hugeEntry
    ((∀ p ∈ cpuLoader.plugins, Faulty cpuGrammar truncated p) ∧
        (collectAll cpuCodec truncated calm cpuLoader).2.plugins = cpuLoader.plugins ∧
        ¬ RoundJudges cpuGrammar truncated cpuLoader) ∧
      (∀ p ∈ cpuLoader.plugins, Serves cpuGrammar huge p) ∧
        (collectAll cpuCodec huge calm cpuLoader).2.plugins = [] ∧
        ¬ RoundJudges cpuGrammar huge cpuLoader := by
  have here : plugin "cpu_ram" 0 ∈ cpuLoader.plugins := List.mem_cons_self
  intro truncated huge
  constructor
  · have faulty : ∀ p ∈ cpuLoader.plugins, Faulty cpuGrammar truncated p := by
      refine fun p _ => .inr ⟨"[\x7b\"message\":".toByteArray, rfl, ?_⟩
      rintro (same | same | same) <;> exact absurd same (by decide)
    exact ⟨faulty, rfl, fun judges => judges.unloads _ here (faulty _ here) here⟩
  · have serves : ∀ p ∈ cpuLoader.plugins, Serves cpuGrammar huge p :=
      fun p _ => ⟨hugeEntry, rfl, .inr rfl⟩
    exact ⟨serves, rfl, fun judges => absurd (judges.keeps _ here (serves _ here)) nofun⟩

end OrbisAgent.Plugins.CollectFaults
