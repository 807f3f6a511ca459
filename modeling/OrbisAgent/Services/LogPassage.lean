/- OrbisAgent/Services/LogPassage
   source: PluginLoader::collectAll, parseCollectResult; LogCollector::collectFromPlugins,
   collectAndPublish
   digest: What the plugins say in a round is what the batches of the cycle hold: the entry objects
   of an allowed level, in order and unchanged. -/

import OrbisAgent.Plugins.CollectFaults
import OrbisAgent.Services.LogBatches
import Mathlib.Data.List.Basic

set_option autoImplicit false
set_option relaxedAutoImplicit false

namespace OrbisAgent.Services.LogPassage

open OrbisAgent.Constants (LOG_BATCH_MAX TOPIC_LOGS_FMT topicFor)
open OrbisAgent.Lib.Json
open OrbisAgent.Plugins.CollectFaults
open OrbisAgent.Plugins.PluginLoader
open OrbisAgent.Services.LogBatches
open OrbisAgent.Services.LogCollector
open OrbisAgent.Services.LogSources

def levelOf : Json → ByteArray
  | .obj fields => textField fields "level" "INFO".toByteArray
  | _ => "INFO".toByteArray

/-- The item of a batch that an entry object of a plugin should become. -/
def published (c : Collector) (timestamp : String) (name : ByteArray) : Json → Json
  | .obj fields =>
      .obj [("device_id", .text c.device_id), ("level", .str (levelOf (.obj fields))),
        ("message", .str (textField fields "message" "".toByteArray)),
        ("metadata", (fields.lookup "metadata").getD (.obj [])),
        ("source", .str (textField fields "source" name)), ("timestamp", .text timestamp)]
  | other => other

/-- What a plugin's turn is worth: the items of its text when it returns an array of entry objects,
and nothing otherwise. -/
def Worth (codec : Codec) (collect : Nat → Outcome) (p : LoadedPlugin) (items : List Json) : Prop :=
  Delivers codec collect p items ∨ items = [] ∧ ∀ others, ¬ Delivers codec collect p others

/-- The metadata of an entry object are read back as they were. -/
def Reread (codec : Codec) (item : Json) : Prop :=
  ∀ fields metadata, item = .obj fields → fields.lookup "metadata" = some metadata →
    codec.parse (codec.render metadata).toByteArray = .ok metadata

variable {codec : Codec} {collect : Nat → Outcome}

/-- A loop that came to its end read every item. -/
theorem ok_of_mem_mapM {α β : Type} {f : α → Except Exn β} {l : List α} {bs : List β} {a : α}
    (done : l.mapM f = .ok bs) (mem : a ∈ l) : ∃ b, f a = .ok b := by
  induction l generalizing bs with
  | nil => cases mem
  | cons first l ih =>
      rw [List.mapM_cons] at done
      obtain ⟨b, here, done⟩ := ok_of_bind done
      obtain ⟨others, later, -⟩ := ok_of_bind done
      rcases List.mem_cons.mp mem with rfl | mem
      · exact ⟨b, here⟩
      · exact ih later mem

/-- An item that is not an entry object throws. -/
theorem wellTyped_of_pluginLogEntry {name : ByteArray} {item : Json} {e : PluginLogEntry}
    (read : pluginLogEntry codec name item = .ok e) : WellTyped item := by
  obtain ⟨source, sourceRead, read⟩ := ok_of_bind read
  obtain ⟨level, levelRead, read⟩ := ok_of_bind read
  obtain ⟨message, messageRead, -⟩ := ok_of_bind read
  obtain ⟨fields, rfl, sourceFound⟩ := Json.lookup_of_value_getString sourceRead
  obtain ⟨others, same, levelFound⟩ := Json.lookup_of_value_getString levelRead
  cases same
  obtain ⟨others, same, messageFound⟩ := Json.lookup_of_value_getString messageRead
  cases same
  have typed : ∀ {key : String} {s default : ByteArray},
      (fields.lookup key = some (.str s) ∨ fields.lookup key = none ∧ s = default) →
        TextOrMissing fields key := by
    rintro key s default (found | ⟨missing, -⟩)
    · exact .inr ⟨s, found⟩
    · exact .inl missing
  exact ⟨fields, rfl, typed sourceFound, typed levelFound, typed messageFound⟩

theorem yields_of_worth {p : LoadedPlugin} {items : List Json}
    (emptyInvalid : ∀ j, codec.parse ByteArray.empty ≠ .ok j)
    (worth : Worth codec collect p items) :
    yields codec collect p = items.map (entryOf codec p.name) := by
  rcases worth with delivers | ⟨rfl, none⟩
  · obtain ⟨raw, returned, entries⟩ := parseCollectResult_of_delivers emptyInvalid delivers
    simp only [yields, returned, entries]
  · rw [List.map_nil, yields]
    cases returned : collect p.lib with
    | threw | null => rfl
    | text raw =>
        dsimp only
        cases read : parseCollectResult codec raw p.name with
        | error x => rfl
        | ok entries =>
            rcases parseCollectResult_ok read with rfl | ⟨others, parsed, done⟩
            · rfl
            · -- all of them were read, so the plugin did deliver them
              refine absurd ⟨raw, returned, parsed, fun item mem => ?_⟩ (none others)
              obtain ⟨e, entry⟩ := ok_of_mem_mapM done mem
              exact wellTyped_of_pluginLogEntry entry

/-- The items of a round with the names of their plugins, in order. -/
def heard (said : LoadedPlugin → List Json) (plugins : List LoadedPlugin) :
    List (ByteArray × Json) :=
  plugins.flatMap fun p => (said p).map fun item => (p.name, item)

theorem passed_of_worth {said : LoadedPlugin → List Json} {l : Loader}
    (emptyInvalid : ∀ j, codec.parse ByteArray.empty ≠ .ok j)
    (worth : ∀ p ∈ l.plugins, Worth codec collect p (said p)) :
    (collectAll codec collect calm l).1.flatten =
      (heard said l.plugins).map fun x => entryOf codec x.1 x.2 := by
  rw [collectAll_passed, heard, List.map_flatMap]
  apply List.flatMap_congr
  intro p mem
  rw [yields_of_worth emptyInvalid (worth p mem), List.map_map, Function.comp_def]

/-- An entry object comes out of its entry as it went in. -/
theorem batchItem_entryOf {c : Collector} {timestamp : String} {name : ByteArray} {item : Json}
    (braces : c.codec.parse "\x7b\x7d".toByteArray = .ok (.obj [])) (typed : WellTyped item)
    (reread : Reread c.codec item) :
    batchItem c.codec ⟨c.device_id.toByteArray, timestamp.toByteArray,
      (entryOf c.codec name item).level, (entryOf c.codec name item).source,
      (entryOf c.codec name item).message, (entryOf c.codec name item).metadata_json⟩ =
        published c timestamp name item := by
  obtain ⟨fields, rfl, -⟩ := typed
  cases found : fields.lookup "metadata" with
  | none => simp [batchItem, entryOf, published, levelOf, found, braces, Json.text]
  | some metadata =>
      have back := reread fields metadata rfl found
      simp [batchItem, entryOf, published, levelOf, found, back, Json.text]

theorem level_entryOf {name : ByteArray} {item : Json} :
    (entryOf codec name item).level = levelOf item := by
  cases item <;> rfl

/-- The entries of a cycle, item by item. -/
theorem items_of_worth {c : Collector} {now : Nat → String} {said : LoadedPlugin → List Json}
    {l : Loader} (emptyInvalid : ∀ j, c.codec.parse ByteArray.empty ≠ .ok j)
    (braces : c.codec.parse "\x7b\x7d".toByteArray = .ok (.obj []))
    (worth : ∀ p ∈ l.plugins, Worth c.codec collect p (said p))
    (reread : ∀ p ∈ l.plugins, ∀ item ∈ said p, Reread c.codec item) :
    (collectFromPlugins c now (collectAll c.codec collect calm l).1).map (batchItem c.codec) =
      ((heard said l.plugins).filter fun x => levelAllowed c (levelOf x.2)).mapIdx
        fun n x => published c (now n) x.1 x.2 := by
  have fine : ∀ x ∈ heard said l.plugins, WellTyped x.2 ∧ Reread c.codec x.2 := by
    intro x mem
    obtain ⟨p, here, mem⟩ := List.mem_flatMap.mp mem
    obtain ⟨item, inside, rfl⟩ := List.mem_map.mp mem
    refine ⟨?_, reread p here item inside⟩
    rcases worth p here with ⟨_, _, _, typed⟩ | ⟨none, -⟩
    · exact typed item inside
    · rw [none] at inside
      cases inside
  rw [collectFromPlugins, passed_of_worth emptyInvalid worth, List.filter_map]
  simp only [Function.comp_def, level_entryOf]
  apply List.ext_getElem
  · simp only [List.length_map, List.length_mapIdx]
  · intro n bound bound'
    simp only [List.getElem_map, List.getElem_mapIdx]
    rw [List.length_mapIdx] at bound'
    have mem := List.mem_of_mem_filter (List.getElem_mem bound')
    exact batchItem_entryOf braces (fine _ mem).1 (fine _ mem).2

theorem collectFromPlugins_valid {c : Collector} {now : Nat → String} {l : Loader}
    (named : ∀ p ∈ l.plugins, p.name.validateUTF8 = true) :
    ∀ e ∈ collectFromPlugins c now (collectAll c.codec collect calm l).1, Valid e := by
  intro e mem
  rw [collectFromPlugins, collectAll_passed] at mem
  obtain ⟨n, bound, rfl⟩ := List.mem_mapIdx.mp mem
  have passed := List.mem_of_mem_filter (List.getElem_mem bound)
  obtain ⟨p, here, yielded⟩ := List.mem_flatMap.mp passed
  have texts := yields_valid (named p here) yielded
  exact ⟨Json.validateUTF8_toByteArray _, Json.validateUTF8_toByteArray _, texts.2.1, texts.1,
    texts.2.2⟩

/-- A cycle of valid entries offers all its documents. -/
theorem run_documents (codec : Codec) (device_id : String) (c : Collected) (answers : Nat → Bool)
    (valid : ∀ e ∈ c.entries, Valid e) :
    (collectAndPublish (publish answers) store codec device_id c).run ⟨[], []⟩ =
      (.ok (), ⟨(documents codec c.entries).map fun d =>
          (topicFor TOPIC_LOGS_FMT device_id, codec.render d),
        refused answers 0 ((documents codec c.entries).map fun d =>
          (topicFor TOPIC_LOGS_FMT device_id, codec.render d))⟩) := by
  rw [collectAndPublish]
  cases empty : c.entries.isEmpty with
  | true =>
      have none : documents codec c.entries = [] := by
        rw [List.isEmpty_iff.mp empty, documents, batches]
        rfl
      rw [none]
      rfl
  | false =>
      rw [if_neg Bool.false_ne_true, publishBatches_of_encoded _ _ codec _ fun b mem =>
        wellEncoded_batchJson codec (valid_of_batches valid mem), StateT.run_bind, run_offerAll]
      simp only [List.map_map, Function.comp_def, documents, List.nil_append]
      rfl

/-- For every set of loaded plugins and whatever each of them does when it is called: the batches
that the cycle offers hold, in order and each once, the entry objects of an allowed level that the
plugins returned in a readable array, and every refused batch is stored. -/
theorem entries_pass_unchanged (c : Collector) (collect : Nat → Outcome) (now : Nat → String)
    (answers : Nat → Bool) (l : Loader) (said : LoadedPlugin → List Json)
    (emptyInvalid : ∀ j, c.codec.parse ByteArray.empty ≠ .ok j)
    (braces : c.codec.parse "\x7b\x7d".toByteArray = .ok (.obj []))
    (named : ∀ p ∈ l.plugins, p.name.validateUTF8 = true)
    (worth : ∀ p ∈ l.plugins, Worth c.codec collect p (said p))
    (reread : ∀ p ∈ l.plugins, ∀ item ∈ said p, Reread c.codec item) :
    ∃ docs : List Json,
      (collectAndPublish (publish answers) store c.codec c.device_id
        ⟨some (collectFromPlugins c now (collectAll c.codec collect calm l).1), []⟩).run ⟨[], []⟩ =
        (.ok (), ⟨docs.map fun d => (topicFor TOPIC_LOGS_FMT c.device_id, c.codec.render d),
          refused answers 0
            (docs.map fun d => (topicFor TOPIC_LOGS_FMT c.device_id, c.codec.render d))⟩) ∧
      (∀ d ∈ docs, 1 ≤ (items d).length ∧ (items d).length ≤ LOG_BATCH_MAX) ∧
      docs.flatMap items = ((heard said l.plugins).filter fun x =>
        levelAllowed c (levelOf x.2)).mapIdx fun n x => published c (now n) x.1 x.2 := by
  let entries := collectFromPlugins c now (collectAll c.codec collect calm l).1
  refine ⟨documents c.codec entries, ?_, ?_, ?_⟩
  · exact run_documents c.codec c.device_id ⟨some entries, []⟩ answers
      (collectFromPlugins_valid named)
  · intro d mem
    obtain ⟨b, here, rfl⟩ := List.mem_map.mp mem
    have sizes := (batches_sizes entries).1 b here
    rw [batchJson, items, List.length_map]
    exact sizes
  · rw [items_documents]
    exact items_of_worth emptyInvalid braces worth reread

/-- What a disk plugin returns: the first entry is of a level that is not kept. -/
def diskItems : List Json :=
  [.obj [("level", .text "DEBUG"), ("message", .text "scan")],
    .obj [("message", .text "full"), ("metadata", .obj [("free", .int 3)])]]

def diskCodec : Codec :=
  Codec.plain [.arr diskItems, .obj [], .obj [("free", .int 3)]] (by simp [diskItems])

private theorem diskCodec_empty (j : Json) : diskCodec.parse ByteArray.empty ≠ .ok j := by
  intro parsed
  cases parsed

/-- Two plugins; the second one throws. -/
def diskLoader : Loader :=
  ⟨[⟨"disk".toByteArray, "1.0".toByteArray, some 0, 0⟩,
    ⟨"cpu_ram".toByteArray, "1.0".toByteArray, some 1, 1⟩], 2, [0, 1], []⟩

def diskCollect (lib : Nat) : Outcome :=
  if lib = 0 then .text (plainText (.arr diskItems)).toByteArray else .threw

def diskCollector : Collector := ⟨diskCodec, "d1", ["INFO".toByteArray]⟩

theorem disk_entry_passes :
    ∃ docs : List Json,
      (∃ calls, (collectAndPublish (publish fun _ => false) store diskCodec "d1"
        ⟨some (collectFromPlugins diskCollector (fun _ => "t")
          (collectAll diskCodec diskCollect calm diskLoader).1), []⟩).run ⟨[], []⟩ =
            (.ok (), calls)) ∧
      docs.flatMap items = [.obj [("device_id", .text "d1"), ("level", .text "INFO"),
        ("message", .text "full"), ("metadata", .obj [("free", .int 3)]),
        ("source", .text "disk"), ("timestamp", .text "t")]] := by
  let said : LoadedPlugin → List Json := fun p => if p.lib = 0 then diskItems else []
  have worth : ∀ p ∈ diskLoader.plugins, Worth diskCodec diskCollect p (said p) := by
    intro p mem
    simp only [diskLoader, List.mem_cons, List.not_mem_nil, or_false] at mem
    rcases mem with rfl | rfl
    · refine .inl ⟨_, rfl, rfl, fun item inside => ?_⟩
      replace inside : item ∈ diskItems := inside
      simp only [diskItems, List.mem_cons, List.not_mem_nil, or_false] at inside
      rcases inside with rfl | rfl
      · exact ⟨_, rfl, .inl rfl, .inr ⟨_, rfl⟩, .inr ⟨_, rfl⟩⟩
      · exact ⟨_, rfl, .inl rfl, .inl rfl, .inr ⟨_, rfl⟩⟩
    · refine .inr ⟨rfl, fun others delivers => ?_⟩
      obtain ⟨raw, returned, -⟩ := delivers
      cases returned
  have reread : ∀ p ∈ diskLoader.plugins, ∀ item ∈ said p, Reread diskCodec item := by
    intro p _ item inside fields metadata same found
    simp only [said] at inside
    split at inside
    · simp only [diskItems, List.mem_cons, List.not_mem_nil, or_false] at inside
      rcases inside with rfl | rfl
      · cases same
        cases found
      · cases same
        cases found
        rfl
    · cases inside
  have named : ∀ p ∈ diskLoader.plugins, p.name.validateUTF8 = true := by
    intro p mem
    simp only [diskLoader, List.mem_cons, List.not_mem_nil, or_false] at mem
    rcases mem with rfl | rfl
    · exact Json.validateUTF8_toByteArray "disk"
    · exact Json.validateUTF8_toByteArray "cpu_ram"
  obtain ⟨docs, run, -, all⟩ := entries_pass_unchanged diskCollector diskCollect (fun _ => "t")
    (fun _ => false) diskLoader said diskCodec_empty rfl named worth reread
  exact ⟨docs, ⟨_, run⟩, all⟩

end OrbisAgent.Services.LogPassage
