/- OrbisAgent/Plugins/PluginLoader
   source: src/plugins/PluginLoader.hpp, src/plugins/PluginLoader.cpp
   digest: Loading, collecting from and unloading shared libraries, with the calls into them. -/

import OrbisAgent.Constants
import OrbisAgent.Lib.Json

set_option autoImplicit false
set_option relaxedAutoImplicit false

namespace OrbisAgent.Plugins.PluginLoader

open OrbisAgent.Constants (Platform)
open OrbisAgent.Lib.Json

structure PluginLogEntry where
  source : ByteArray
  level : ByteArray
  message : ByteArray
  metadata_json : ByteArray

/-- A plugin; `lib` is the load that its function pointers come from. -/
structure LoadedPlugin where
  name : ByteArray
  version : ByteArray
  handle : Option Nat
  lib : Nat

/-- The calls of a plugin's functions and of `dlclose`. -/
inductive Event
  | collect (lib : Nat)
  | cleanup (lib : Nat)
  | close (handle : Nat)
  deriving DecidableEq

def Event.lib : Event → Nat
  | collect lib | cleanup lib | close lib => lib

/-- The vector, and three records: how many handles `dlopen` gave out, which of them came
into the vector, and what was called. -/
structure Loader where
  plugins : List LoadedPlugin
  opened : Nat
  loaded : List Nat
  events : List Event

def Loader.new : Loader := ⟨[], 0, [], []⟩

/-- A file as `dlopen` finds it; `unnamed` when its name or version function throws. -/
inductive Library
  | unloadable
  | incomplete
  | unnamed
  | complete (name version : ByteArray)

structure DirEntry where
  regular : Bool
  extension : String
  library : Library

def PLUGIN_EXT : Platform → String
  | .windows => ".dll"
  | _ => ".so"

/-- `false` when an exception leaves it. -/
def loadPlugin (library : Library) (l : Loader) : Bool × Loader :=
  match library with
  | .unloadable => (true, l)
  | .incomplete =>
      (true, { l with opened := l.opened + 1, events := l.events ++ [.close l.opened] })
  | .unnamed => (false, { l with opened := l.opened + 1 })
  | .complete name version =>
      (true, { l with
        plugins := l.plugins ++ [⟨name, version, some l.opened, l.opened⟩]
        opened := l.opened + 1
        loaded := l.loaded ++ [l.opened] })

def loadEntries (platform : Platform) : List DirEntry → Loader → Loader
  | [], l => l
  | e :: rest, l =>
      if !e.regular then loadEntries platform rest l
      else if e.extension ≠ PLUGIN_EXT platform then loadEntries platform rest l
      else
        let (goesOn, l) := loadPlugin e.library l
        if goesOn then loadEntries platform rest l else l

/-- `none` when the directory does not exist. -/
def loadAll (platform : Platform) (dir : Option (List DirEntry)) (l : Loader) : Loader :=
  match dir with
  | none => l
  | some entries => loadEntries platform entries l

/-- What is called, and what is left in the vector. A `cleanup` that throws is caught. -/
def unloadPlugin (p : LoadedPlugin) : List Event × LoadedPlugin :=
  match p.handle with
  | none => ([.cleanup p.lib], p)
  | some handle => ([.cleanup p.lib, .close handle], { p with handle := none })

def unloadAll (l : Loader) : Loader :=
  { l with
    plugins := []
    events := l.events ++ l.plugins.flatMap fun p => (unloadPlugin p).1 }

/-- One item of the array; `value()` throws on a field of the wrong type. -/
def pluginLogEntry (codec : Codec) (plugin_name : ByteArray) (item : Json) :
    Except Exn PluginLogEntry := do
  let source ← item.value Json.getString "source" plugin_name
  let level ← item.value Json.getString "level" "INFO".toByteArray
  let message ← item.value Json.getString "message" "".toByteArray
  let metadata_json ← match item with
    | .obj fields =>
        match fields.lookup "metadata" with
        | some metadata => (codec.dump metadata).map String.toByteArray
        | none => pure "\x7b\x7d".toByteArray
    | _ => pure "\x7b\x7d".toByteArray
  pure ⟨source, level, message, metadata_json⟩

/-- A text that is no JSON is logged and gives no entries. What else `json::parse` throws, as for a
number that no `double` holds, is not caught here, and neither is what an item throws. -/
def parseCollectResult (codec : Codec) (json_str plugin_name : ByteArray) :
    Except Exn (List PluginLogEntry) :=
  if json_str.isEmpty then pure []
  else
    match codec.parse json_str with
    | .error e =>
        match e.kind with
        | .parse_error => pure []
        | .other => .error e
    | .ok (.arr items) => items.mapM (pluginLogEntry codec plugin_name)
    | .ok _ => pure []

/-- What a call of `collect()` does. -/
inductive Outcome
  | threw
  | null
  | text (raw : ByteArray)

/-- The entries that a round has passed to the callback, one list for each call. -/
abbrev Passed := List (List PluginLogEntry)

variable (codec : Codec) (collect : Nat → Outcome) (throws : Passed → Bool)

/-- The `try` block of one plugin: what has been passed after it, and whether it threw. -/
def turn (p : LoadedPlugin) (passed : Passed) : Passed × Bool :=
  match collect p.lib with
  | .threw => (passed, true)
  | .null => (passed, false)
  | .text raw =>
      match parseCollectResult codec raw p.name with
      | .error _ => (passed, true)
      | .ok entries =>
          if entries.isEmpty then (passed, false)
          else (passed ++ [entries], throws (passed ++ [entries]))

/-- The loop from index `i` on: the indices in `to_remove`, and what has been passed. -/
def collectLoop : Nat → List LoadedPlugin → Passed → List Nat × Passed
  | _, [], passed => ([], passed)
  | i, p :: rest, passed =>
      let (passed, failed) := turn codec collect throws p passed
      let (to_remove, passed) := collectLoop (i + 1) rest passed
      (if failed then i :: to_remove else to_remove, passed)

/-- `unloadPlugin` and `erase` at an index. -/
def removeAt (l : Loader) (i : Nat) : Loader :=
  match l.plugins[i]? with
  | none => l
  | some p =>
      { l with
        plugins := l.plugins.eraseIdx i
        events := l.events ++ (unloadPlugin p).1 }

/-- `throws` says whether the callback throws, from all that it has been passed. -/
def collectAll (l : Loader) : Passed × Loader :=
  let (to_remove, passed) := collectLoop codec collect throws 0 l.plugins []
  let l := { l with events := l.events ++ l.plugins.map fun p => .collect p.lib }
  (passed, to_remove.reverse.foldl removeAt l)

/-- Each plugin of a round, with whether its turn failed. -/
def judge : List LoadedPlugin → Passed → List (LoadedPlugin × Bool)
  | [], _ => []
  | p :: rest, passed =>
      (p, (turn codec collect throws p passed).2) ::
        judge rest (turn codec collect throws p passed).1

def survivors (judged : List (LoadedPlugin × Bool)) : List LoadedPlugin :=
  (judged.filter fun x => !x.2).map Prod.fst

variable {codec collect throws}

theorem removeAt_split (before rest : List LoadedPlugin) (p : LoadedPlugin) (l : Loader)
    (here : l.plugins = before ++ p :: rest) :
    removeAt l before.length =
      { l with plugins := before ++ rest, events := l.events ++ (unloadPlugin p).1 } := by
  unfold removeAt
  have item : l.plugins[before.length]? = some p := by
    rw [here, List.getElem?_append_right (Nat.le_refl _), Nat.sub_self]
    rfl
  have erased : l.plugins.eraseIdx before.length = before ++ rest := by
    rw [here, List.eraseIdx_append_of_length_le (Nat.le_refl _), Nat.sub_self]
    rfl
  rw [item]
  dsimp only
  rw [erased]

/-- Erasing from the back keeps the indices in front of it, so that exactly the plugins whose
turn failed go. -/
theorem collectLoop_removes (before rest : List LoadedPlugin) (passed : Passed) (l : Loader)
    (here : l.plugins = before ++ rest) :
    ((collectLoop codec collect throws before.length rest passed).1.reverse.foldl removeAt
      l).plugins = before ++ survivors (judge codec collect throws rest passed) := by
  rw [List.foldl_reverse]
  induction rest generalizing before passed with
  | nil => exact here
  | cons p rest ih =>
      have longer : l.plugins = (before ++ [p]) ++ rest := by
        rw [here, List.append_assoc]
        rfl
      have later := ih (before ++ [p]) (turn codec collect throws p passed).1 longer
      rw [List.length_append, List.length_singleton] at later
      cases failed : (turn codec collect throws p passed).2 with
      | false =>
          have kept : survivors (judge codec collect throws (p :: rest) passed) =
              p :: survivors (judge codec collect throws rest
                (turn codec collect throws p passed).1) := by
            simp [survivors, judge, failed]
          rw [kept]
          simp only [collectLoop, failed]
          simpa using later
      | true =>
          have gone : survivors (judge codec collect throws (p :: rest) passed) =
              survivors (judge codec collect throws rest
                (turn codec collect throws p passed).1) := by
            simp [survivors, judge, failed]
          rw [gone]
          simp only [collectLoop, failed, if_true, List.foldr_cons]
          rw [removeAt_split before _ p _ (by simpa using later)]

theorem collectAll_plugins (l : Loader) :
    (collectAll codec collect throws l).2.plugins =
      survivors (judge codec collect throws l.plugins []) :=
  collectLoop_removes [] l.plugins []
    { l with events := l.events ++ l.plugins.map fun p => .collect p.lib } rfl

theorem mapM_map_ok {α β γ : Type} {f : β → Except Exn γ} {g : α → β} {h : α → γ} {l : List α}
    (each : ∀ a ∈ l, f (g a) = .ok (h a)) : (l.map g).mapM f = .ok (l.map h) := by
  induction l with
  | nil => rfl
  | cons a l ih =>
      rw [List.map_cons, List.mapM_cons, each a List.mem_cons_self, ih fun b mem =>
        each b (List.mem_cons_of_mem a mem)]
      rfl

theorem exists_of_mem_mapM {α β : Type} {f : α → Except Exn β} {l : List α} {bs : List β} {b : β}
    (done : l.mapM f = .ok bs) (mem : b ∈ bs) : ∃ a ∈ l, f a = .ok b := by
  induction l generalizing bs with
  | nil =>
      cases done
      cases mem
  | cons a l ih =>
      rw [List.mapM_cons] at done
      obtain ⟨first, here, done⟩ := ok_of_bind done
      obtain ⟨others, later, done⟩ := ok_of_bind done
      cases done
      rcases List.mem_cons.mp mem with rfl | mem
      · exact ⟨a, List.mem_cons_self, here⟩
      · obtain ⟨a', mem', found⟩ := ih later mem
        exact ⟨a', List.mem_cons_of_mem a mem', found⟩

/-- Entries come from the items of an array. -/
theorem parseCollectResult_ok {raw name : ByteArray} {entries : List PluginLogEntry}
    (read : parseCollectResult codec raw name = .ok entries) :
    entries = [] ∨ ∃ items, codec.parse raw = .ok (.arr items) ∧
      items.mapM (pluginLogEntry codec name) = .ok entries := by
  unfold parseCollectResult at read
  split at read
  · cases read
    exact .inl rfl
  · split at read
    · split at read <;> cases read
      exact .inl rfl
    · rename_i items parsed
      exact .inr ⟨items, parsed, read⟩
    · cases read
      exact .inl rfl

/-- A parse error is caught, and every other error of the parser goes on. -/
theorem parseCollectResult_error {raw name : ByteArray} {e : Exn} (some : raw.isEmpty = false)
    (failed : codec.parse raw = .error e) :
    parseCollectResult codec raw name = if e.kind = .parse_error then .ok [] else .error e := by
  unfold parseCollectResult
  rw [some, failed]
  cases kind : e.kind <;> simp [kind, pure, Except.pure]

/-- The texts of an entry are valid, as the plugin's name is. -/
theorem parseCollectResult_valid {raw name : ByteArray} {entries : List PluginLogEntry}
    {e : PluginLogEntry} (named : name.validateUTF8 = true)
    (read : parseCollectResult codec raw name = .ok entries) (mem : e ∈ entries) :
    e.source.validateUTF8 = true ∧ e.level.validateUTF8 = true ∧
      e.message.validateUTF8 = true := by
  rcases parseCollectResult_ok read with rfl | ⟨items, parsed, read⟩
  · cases mem
  · obtain ⟨item, here, made⟩ := exists_of_mem_mapM read mem
    have encoded := Json.wellEncoded_of_mem (codec.wellEncoded_of_parse _ _ parsed) here
    obtain ⟨source, sourceRead, made⟩ := ok_of_bind made
    obtain ⟨level, levelRead, made⟩ := ok_of_bind made
    obtain ⟨message, messageRead, made⟩ := ok_of_bind made
    have same : source = e.source ∧ level = e.level ∧ message = e.message := by
      dsimp only at made
      split at made
      · split at made <;> obtain ⟨_, _, made⟩ := ok_of_bind made <;> cases made <;>
          exact ⟨rfl, rfl, rfl⟩
      · obtain ⟨_, _, made⟩ := ok_of_bind made
        cases made
        exact ⟨rfl, rfl, rfl⟩
    rw [← same.1, ← same.2.1, ← same.2.2]
    exact ⟨Json.valid_of_value_getString encoded named sourceRead,
      Json.valid_of_value_getString encoded (Json.validateUTF8_toByteArray _) levelRead,
      Json.valid_of_value_getString encoded (Json.validateUTF8_toByteArray _) messageRead⟩

section Steady

variable (codec collect)

/-- The entries of a plugin's turn. -/
def yields (p : LoadedPlugin) : List PluginLogEntry :=
  match collect p.lib with
  | .text raw =>
      match parseCollectResult codec raw p.name with
      | .ok entries => entries
      | .error _ => []
  | _ => []

/-- A plugin's turn throws by itself, not in the callback. -/
def fails (p : LoadedPlugin) : Bool :=
  match collect p.lib with
  | .threw => true
  | .null => false
  | .text raw =>
      match parseCollectResult codec raw p.name with
      | .ok _ => false
      | .error _ => true

/-- A callback that never throws. -/
def calm (_ : Passed) : Bool := false

theorem turn_calm (p : LoadedPlugin) (passed : Passed) :
    (turn codec collect calm p passed).1.flatten = passed.flatten ++ yields codec collect p ∧
      (turn codec collect calm p passed).2 = fails codec collect p := by
  unfold turn yields fails calm
  cases collect p.lib with
  | threw => exact ⟨(List.append_nil _).symm, rfl⟩
  | null => exact ⟨(List.append_nil _).symm, rfl⟩
  | text raw =>
      dsimp only
      cases parseCollectResult codec raw p.name with
      | error e => exact ⟨(List.append_nil _).symm, rfl⟩
      | ok entries =>
          cases entries with
          | nil => exact ⟨(List.append_nil _).symm, rfl⟩
          | cons e entries => exact ⟨by simp, rfl⟩

variable {codec collect}

theorem yields_valid {p : LoadedPlugin} (named : p.name.validateUTF8 = true) {e : PluginLogEntry}
    (mem : e ∈ yields codec collect p) :
    e.source.validateUTF8 = true ∧ e.level.validateUTF8 = true ∧
      e.message.validateUTF8 = true := by
  unfold yields at mem
  cases called : collect p.lib with
  | threw =>
      rw [called] at mem
      cases mem
  | null =>
      rw [called] at mem
      cases mem
  | text raw =>
      rw [called] at mem
      dsimp only at mem
      cases read : parseCollectResult codec raw p.name with
      | error x =>
          rw [read] at mem
          cases mem
      | ok entries =>
          rw [read] at mem
          exact parseCollectResult_valid named read mem

theorem collectLoop_calm (i : Nat) (plugins : List LoadedPlugin) (passed : Passed) :
    (collectLoop codec collect calm i plugins passed).2.flatten =
      passed.flatten ++ plugins.flatMap (yields codec collect) := by
  induction plugins generalizing i passed with
  | nil => exact (List.append_nil _).symm
  | cons p rest ih =>
      have first := (turn_calm codec collect p passed).1
      simp only [collectLoop]
      rw [ih, first, List.flatMap_cons, List.append_assoc]

/-- A round passes the entries of all plugins in order. -/
theorem collectAll_passed (l : Loader) :
    (collectAll codec collect calm l).1.flatten = l.plugins.flatMap (yields codec collect) :=
  collectLoop_calm 0 l.plugins []

theorem survivors_calm (plugins : List LoadedPlugin) (passed : Passed) :
    survivors (judge codec collect calm plugins passed) =
      plugins.filter fun p => !fails codec collect p := by
  induction plugins generalizing passed with
  | nil => rfl
  | cons p rest ih =>
      have verdict := (turn_calm codec collect p passed).2
      have later := ih (turn codec collect calm p passed).1
      unfold survivors at later ⊢
      unfold judge
      rw [List.filter_cons, List.filter_cons, ← later, verdict]
      cases fails codec collect p <;> rfl

/-- A round keeps the plugins whose turn did not throw. -/
theorem collectAll_keeps (l : Loader) :
    (collectAll codec collect calm l).2.plugins =
      l.plugins.filter fun p => !fails codec collect p :=
  (collectAll_plugins l).trans (survivors_calm l.plugins [])

end Steady

end OrbisAgent.Plugins.PluginLoader
