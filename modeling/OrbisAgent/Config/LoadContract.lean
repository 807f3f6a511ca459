/- OrbisAgent/Config/LoadContract
   source: ConfigManager::load
   digest: A load is without exception, determined by the file, and without trace when it returns
   false, exactly if the file gives both lists as strings, or does not parse under the old path. -/

import OrbisAgent.Config.ConfigManager

set_option autoImplicit false
set_option relaxedAutoImplicit false

namespace OrbisAgent.Config.LoadContract

open OrbisAgent.Config.ConfigManager
open OrbisAgent.Constants
open OrbisAgent.Lib.ByteString
open OrbisAgent.Lib.Toml

/-- The fields apart from the identity. -/
def fields (c : Manager) : Manager := { c with device_id := [] }

/-- The identity that a document has, which may be empty. -/
def documentId (root : Value) : Bytes := root.stringOr (bytes "agent") (bytes "device_id") []

/-- No exception; with `true`, what was loaded does not depend on what was there before; with
`false`, nothing has changed. -/
structure Contract (platform : Platform) (parse : Bytes → Option Value) (uuid config_path : Bytes)
    (content : Option Bytes) (c : Manager) : Prop where
  returns : (load platform parse uuid config_path content c).1 ≠ .threw
  determined : (load platform parse uuid config_path content c).1 = .returned true →
    ∀ uuid' other,
      fields (load platform parse uuid' config_path content other).2 =
        fields (load platform parse uuid config_path content c).2 ∧
      ∀ root, content.bind parse = some root → documentId root ≠ [] →
        (load platform parse uuid' config_path content other).2.device_id =
          (load platform parse uuid config_path content c).2.device_id
  kept : (load platform parse uuid config_path content c).1 = .returned false →
    (load platform parse uuid config_path content c).2 = c

/-- `[logs]` has a list of strings under this name. -/
def StringList (root : Value) (name : Bytes) : Prop :=
  ∃ strings : List Bytes,
    root.find [.key (bytes "logs"), .key name] = some (.array (strings.map .string))

theorem pushStrings_strings (strings pushed : List Bytes) :
    pushStrings (strings.map .string) pushed = (true, pushed ++ strings) := by
  induction strings generalizing pushed with
  | nil => simp [pushStrings]
  | cons s strings ih =>
      rw [List.map_cons, pushStrings, ih, List.append_assoc, List.singleton_append]

theorem strings_of_pushStrings {items : List Value} {pushed : List Bytes}
    (all : (pushStrings items pushed).1 = true) : ∃ strings : List Bytes,
      items = strings.map .string := by
  induction items generalizing pushed with
  | nil => exact ⟨[], rfl⟩
  | cons item items ih =>
      cases item with
      | string s =>
          obtain ⟨strings, rfl⟩ := ih all
          exact ⟨s :: strings, rfl⟩
      | _ => cases all

/-- A list below `[logs]` makes it a table. -/
theorem logsList_of_stringList {root : Value} {name : Bytes} (list : StringList root name) :
    ∃ strings, ∀ old, logsList root name old = (true, strings) := by
  obtain ⟨strings, found⟩ := list
  refine ⟨strings, fun old => ?_⟩
  have below := Value.find_append [.key (bytes "logs")] [.key name] root
  rw [List.singleton_append, found] at below
  obtain ⟨logs, here, inside⟩ := Option.bind_eq_some_iff.mp below.symm
  cases logs with
  | table entries =>
      simp only [logsList, here, found]
      exact pushStrings_strings strings []
  | _ => cases inside

/-- What is read of a list is the same from every list before exactly if it is there. -/
theorem stringList_iff {root : Value} {name : Bytes} {old : List Bytes} :
    ((logsList root name old).1 = true ∧
      ∀ other, (logsList root name other).2 = (logsList root name old).2) ↔
      StringList root name := by
  constructor
  · rintro ⟨readable, fixed⟩
    have longer := fixed ([] :: old)
    cases logs : root.find [.key (bytes "logs")] with
    | none => simp [logsList, logs] at longer
    | some value =>
        cases value with
        | table entries =>
            cases found : root.find [.key (bytes "logs"), .key name] with
            | none => simp [logsList, logs, found] at longer
            | some list =>
                cases list with
                | array items =>
                    simp only [logsList, logs, found] at readable
                    obtain ⟨strings, rfl⟩ := strings_of_pushStrings readable
                    exact ⟨strings, found⟩
                | _ => simp [logsList, logs, found] at readable
        | _ => simp [logsList, logs] at readable
  · intro list
    obtain ⟨strings, same⟩ := logsList_of_stringList list
    refine ⟨by rw [same], fun other => ?_⟩
    rw [same, same]

/-- The fields that a document sets, with the lists of `[logs]` as they come out. -/
def loaded (platform : Platform) (uuid config_path : Bytes) (root : Value)
    (levels sources : List Bytes) (c : Manager) : Manager :=
  loadRest root { loadAgent platform uuid root { c with config_path := config_path } with
    mqtt := loadMqtt root
    log := ⟨root.intOr (bytes "logs") (bytes "interval_sec") 60, levels, sources⟩ }

variable {platform : Platform} {parse : Bytes → Option Value} {uuid config_path : Bytes}
  {content : Option Bytes} {c : Manager} {root : Value}

theorem load_parsed (parsed : content.bind parse = some root)
    (levels : (logsList root (bytes "levels") c.log.levels).1 = true)
    (sources : (logsList root (bytes "sources") c.log.sources).1 = true) :
    load platform parse uuid config_path content c =
      (.returned true, loaded platform uuid config_path root
        (logsList root (bytes "levels") c.log.levels).2
        (logsList root (bytes "sources") c.log.sources).2 c) := by
  have lists : (loadAgent platform uuid root { c with config_path := config_path }).log = c.log :=
    rfl
  unfold load
  rw [parsed]
  simp only [lists, levels, sources, Bool.not_true, Bool.false_eq_true, if_false]
  rfl

theorem load_throws (parsed : content.bind parse = some root)
    (unreadable : (logsList root (bytes "levels") c.log.levels).1 = false ∨
      (logsList root (bytes "sources") c.log.sources).1 = false) :
    (load platform parse uuid config_path content c).1 = .threw := by
  have lists : (loadAgent platform uuid root { c with config_path := config_path }).log = c.log :=
    rfl
  unfold load
  rw [parsed]
  cases levels : (logsList root (bytes "levels") c.log.levels).1 with
  | false => simp [lists, levels]
  | true =>
      have sources : (logsList root (bytes "sources") c.log.sources).1 = false := by
        simpa [levels] using unreadable
      simp [lists, levels, sources]

/-- Apart from a generated identity, what a document sets is all there is. -/
theorem fields_loaded (uuid uuid' : Bytes) (c other : Manager) (levels sources : List Bytes) :
    fields (loaded platform uuid' config_path root levels sources other) =
      fields (loaded platform uuid config_path root levels sources c) := rfl

theorem device_id_loaded (uuid : Bytes) (c : Manager) (levels sources : List Bytes)
    (named : documentId root ≠ []) :
    (loaded platform uuid config_path root levels sources c).device_id = documentId root := by
  change (if (documentId root).isEmpty then uuid else documentId root) = documentId root
  rw [List.isEmpty_eq_false_iff.mpr named, if_neg Bool.false_ne_true]

/-- The contract is met exactly on a file that gives both lists of `[logs]` as lists of strings,
and on one that does not parse if it is loaded from the path that is set already. -/
theorem contract_iff (platform : Platform) (parse : Bytes → Option Value)
    (uuid config_path : Bytes) (content : Option Bytes) (c : Manager) :
    Contract platform parse uuid config_path content c ↔
      (content.bind parse = none ∧ c.config_path = config_path) ∨
      ∃ root, content.bind parse = some root ∧ StringList root (bytes "levels") ∧
        StringList root (bytes "sources") := by
  cases parsed : content.bind parse with
  | none =>
      have result := load_unparsed platform uuid config_path c parsed
      constructor
      · intro contract
        have same := contract.kept (by rw [result])
        rw [result] at same
        exact .inl ⟨rfl, (congrArg Manager.config_path same).symm⟩
      · rintro (⟨_, rfl⟩ | ⟨root, impossible, _⟩)
        · refine ⟨?_, fun done => ?_, fun _ => ?_⟩
          · rw [result]
            nofun
          · rw [result] at done
            cases done
          · rw [result]
        · cases impossible
  | some root =>
      constructor
      · intro contract
        refine .inr ⟨root, rfl, ?_⟩
        have read : (logsList root (bytes "levels") c.log.levels).1 = true ∧
            (logsList root (bytes "sources") c.log.sources).1 = true := by
          have quiet : ¬ ((logsList root (bytes "levels") c.log.levels).1 = false ∨
              (logsList root (bytes "sources") c.log.sources).1 = false) :=
            fun unreadable => contract.returns (load_throws parsed unreadable)
          simpa [not_or] using quiet
        obtain ⟨levels, sources⟩ := read
        have result : ∀ l r, load platform parse uuid config_path content
            { c with log := { c.log with levels := l, sources := r } } =
              (.returned true, loaded platform uuid config_path root
                (logsList root (bytes "levels") l).2 (logsList root (bytes "sources") r).2 c) :=
          fun l r => load_parsed parsed (logsList_any levels l) (logsList_any sources r)
        have mine := result c.log.levels c.log.sources
        -- the lists that a manager with other lists would end with
        have lists : ∀ l r : List Bytes,
            (logsList root (bytes "levels") l).2 =
                (logsList root (bytes "levels") c.log.levels).2 ∧
              (logsList root (bytes "sources") r).2 =
                (logsList root (bytes "sources") c.log.sources).2 := by
          intro l r
          have same := (contract.determined (by rw [mine]) uuid
            { c with log := { c.log with levels := l, sources := r } }).1
          rw [result, mine] at same
          have logs := congrArg Manager.log same
          exact ⟨congrArg LogConfig.levels logs, congrArg LogConfig.sources logs⟩
        exact ⟨stringList_iff.mp ⟨levels, fun other => (lists other []).1⟩,
          stringList_iff.mp ⟨sources, fun other => (lists [] other).2⟩⟩
      · rintro (⟨impossible, _⟩ | ⟨root', same, levels, sources⟩)
        · cases impossible
        · obtain rfl := Option.some.inj same
          obtain ⟨l, levels⟩ := logsList_of_stringList levels
          obtain ⟨r, sources⟩ := logsList_of_stringList sources
          have result : ∀ uuid c, load platform parse uuid config_path content c =
              (.returned true, loaded platform uuid config_path root l r c) := by
            intro uuid c
            rw [load_parsed parsed (by rw [levels]) (by rw [sources]), levels, sources]
          refine ⟨?_, fun _ uuid' other => ⟨?_, fun root' found named => ?_⟩, fun done => ?_⟩
          · rw [result]
            nofun
          · rw [result, result]
            exact fields_loaded uuid uuid' c other l r
          · obtain rfl := Option.some.inj (parsed.symm.trans found)
            rw [result, result]
            dsimp only
            rw [device_id_loaded _ _ _ _ named, device_id_loaded _ _ _ _ named]
          · rw [result] at done
            cases done

/-- A level that is no list. -/
def levelText : Bytes := bytes "[logs]\nlevels = \"INFO\"\n"

/-- What the parser makes of the text above, of an empty text, and of a bracket. -/
def sampleParse (s : Bytes) : Option Value :=
  if s = levelText then
    some (.table [(bytes "logs", .table [(bytes "levels", .string (bytes "INFO"))])])
  else if s = [] then some (.table [])
  else none

/-- The list that is no list throws, after other fields have changed. An empty text keeps the
levels from before. A text that does not parse changes the path. -/
theorem load_breaks_contract :
    (load .linux sampleParse [] (bytes "a.toml") (some levelText) .initial).1 = .threw ∧
      (load .linux sampleParse [] (bytes "a.toml") (some levelText) .initial).2 ≠ .initial ∧
      ¬ Contract .linux sampleParse [] (bytes "a.toml") (some levelText) .initial ∧
      ¬ Contract .linux sampleParse [] (bytes "a.toml") (some []) .initial ∧
      ¬ Contract .linux sampleParse [] (bytes "a.toml") (some (bytes "[")) .initial := by
  have threw : (load .linux sampleParse [] (bytes "a.toml") (some levelText) .initial).1 =
      .threw := rfl
  refine ⟨threw, fun same => ?_, fun contract => contract.returns threw, fun contract => ?_,
    fun contract => ?_⟩
  · have path := congrArg Manager.config_path same
    change bytes "a.toml" = [] at path
    exact absurd path (by decide)
  · have same := (contract.determined rfl [] { Manager.initial with log := ⟨60, [], []⟩ }).1
    have levels := congrArg (fun c => c.log.levels.length) same
    change 0 = 4 at levels
    cases levels
  · have path := congrArg Manager.config_path (contract.kept rfl)
    change bytes "a.toml" = [] at path
    exact absurd path (by decide)

end OrbisAgent.Config.LoadContract
