/- OrbisAgent/Services/LogSources
   source: LogCollector::collectFromPlugins, collectFromSystem (Linux, macOS), levelAllowed
   digest: The entries of one cycle, from the plugins or from the system's log, and their items in
   the published batches. -/

import OrbisAgent.Plugins.SyslogCollector
import OrbisAgent.Services.LogCollector

set_option autoImplicit false
set_option relaxedAutoImplicit false

namespace OrbisAgent.Services.LogSources

open OrbisAgent.Lib.ByteString
open OrbisAgent.Lib.CText
open OrbisAgent.Lib.Json
open OrbisAgent.Plugins.PluginLoader
open OrbisAgent.Plugins.SyslogCollector
open OrbisAgent.Services.LogCollector

/-- What the collector was built with, apart from its callbacks and the plugins. -/
structure Collector where
  codec : Codec
  device_id : String
  log_levels : List ByteArray

def levelAllowed (c : Collector) (level : ByteArray) : Bool :=
  if c.log_levels.isEmpty then true else c.log_levels.any fun allowed => decide (allowed = level)

/-- `now n` is the time at which the nth entry of the cycle is made. -/
def collectFromPlugins (c : Collector) (now : Nat → String) (passed : Passed) : List LogEntry :=
  (passed.flatten.filter fun pe => levelAllowed c pe.level).mapIdx fun n pe =>
    ⟨c.device_id.toByteArray, (now n).toByteArray, pe.level, pe.source, pe.message,
      pe.metadata_json⟩

def priorityLevel (prio : Int) : String :=
  if prio ≤ 2 then "CRITICAL"
  else if prio = 3 then "ERROR"
  else if prio = 4 then "WARNING"
  else if prio ≤ 6 then "INFO"
  else "DEBUG"

/-- The body of the loop in `collectFromSystem`. -/
def readRecord (c : Collector) (line : Bytes) : Except Exn (Option JournalFields) :=
  (readFields c.codec "syslog_plugin" line).map fun found => found.bind fun f =>
    if !levelAllowed c (priorityLevel f.prio).toByteArray || f.msg.isEmpty then none else some f

def systemEntry (c : Collector) (timestamp : String) (f : JournalFields) : LogEntry where
  device_id := c.device_id.toByteArray
  timestamp := timestamp.toByteArray
  level := (priorityLevel f.prio).toByteArray
  source := "syslog_plugin".toByteArray
  message := f.msg
  metadata_json := "\x7b\"ident\":\"".toByteArray ++ f.ident ++ "\"\x7d".toByteArray

/-- `journal` is what journalctl prints, when it can be started. -/
def collectFromSystem (c : Collector) (now : Nat → String) (journal : Option Bytes) :
    List LogEntry :=
  match journal with
  | none => []
  | some text => (readLines (readRecord c) 4096 text).mapIdx fun n f => systemEntry c (now n) f

/-- What is taken from an item of the unified log of macOS. -/
structure UnifiedFields where
  msg : ByteArray
  cat : ByteArray
  level : String

def unifiedLevel (messageType : ByteArray) : String :=
  if messageType = "Debug".toByteArray then "DEBUG"
  else if messageType = "Fault".toByteArray then "CRITICAL"
  else if messageType = "Error".toByteArray then "ERROR"
  else "INFO"

def unifiedFields (item : Json) : Except Exn UnifiedFields := do
  let msg ← item.value Json.getString "eventMessage" ByteArray.empty
  let cat ← item.value Json.getString "category" "syslog_plugin".toByteArray
  let t ← item.value Json.getString "messageType" "Default".toByteArray
  pure ⟨msg, cat, unifiedLevel t⟩

/-- The loop over the items. An exception leaves it, and the entries before it stay. -/
def unifiedLoop (c : Collector) : List Json → List UnifiedFields
  | [] => []
  | item :: rest =>
      match unifiedFields item with
      | .error _ => []
      | .ok f =>
          if !levelAllowed c f.level.toByteArray || f.msg.isEmpty then unifiedLoop c rest
          else f :: unifiedLoop c rest

/-- The chunks are joined as C strings, so a zero byte ends a chunk. -/
def joinedChunks (log : Bytes) : Bytes :=
  (fgetsLines 4096 log).flatMap fun chunk => chunk.takeWhile fun b => b != 0

def unifiedEntry (c : Collector) (timestamp : String) (f : UnifiedFields) : LogEntry where
  device_id := c.device_id.toByteArray
  timestamp := timestamp.toByteArray
  level := f.level.toByteArray
  source := "syslog_plugin".toByteArray
  message := f.msg
  metadata_json := "\x7b\"category\":\"".toByteArray ++ f.cat ++ "\"\x7d".toByteArray

/-- What is taken from what `log show` prints, when it can be started. -/
def unifiedRecords (c : Collector) (log : Option Bytes) : List UnifiedFields :=
  match log with
  | none => []
  | some text =>
      match parseLine c.codec (joinedChunks text) with
      | .ok (.arr items) => unifiedLoop c items
      | _ => []

/-- `collectFromSystem` on macOS. -/
def collectFromSystemMac (c : Collector) (now : Nat → String) (log : Option Bytes) :
    List LogEntry :=
  (unifiedRecords c log).mapIdx fun n f => unifiedEntry c (now n) f

/-- What is taken from the journal on Linux. -/
def journalRecords (c : Collector) (journal : Option Bytes) : List JournalFields :=
  match journal with
  | none => []
  | some text => readLines (readRecord c) 4096 text

theorem collectFromSystem_records (c : Collector) (now : Nat → String) (journal : Option Bytes) :
    collectFromSystem c now journal =
      (journalRecords c journal).mapIdx fun n f => systemEntry c (now n) f := by
  cases journal <;> rfl

theorem priorityLevel_eq (prio : Int) : priorityLevel prio = mapLevel prio := rfl

/-- The documents of the batches of one cycle. -/
def documents (codec : Codec) (entries : List LogEntry) : List Json :=
  (batches entries).map (batchJson codec)

def items : Json → List Json
  | .arr items => items
  | _ => []

theorem flatten_batches (entries : List LogEntry) : (batches entries).flatten = entries := by
  induction entries using batches.induct with
  | case1 => simp [batches]
  | case2 e entries ih => rw [batches, List.flatten_cons, ih, List.take_append_drop]

/-- The items of a cycle's batches are its entries in order. -/
theorem items_documents (codec : Codec) (entries : List LogEntry) :
    (documents codec entries).flatMap items = entries.map (batchItem codec) := by
  have joined : ∀ bs : List (List LogEntry),
      (bs.map (batchJson codec)).flatMap items = bs.flatten.map (batchItem codec) := by
    intro bs
    induction bs with
    | nil => rfl
    | cons b bs ih =>
        rw [List.map_cons, List.flatMap_cons, List.flatten_cons, List.map_append, ih]
        rfl
  unfold documents
  rw [joined, flatten_batches]

/-- The texts of an entry are valid. -/
def Valid (e : LogEntry) : Prop :=
  e.device_id.validateUTF8 = true ∧ e.timestamp.validateUTF8 = true ∧
    e.level.validateUTF8 = true ∧ e.source.validateUTF8 = true ∧ e.message.validateUTF8 = true

section Records

variable {c : Collector}

/-- The texts of a record from the journal are valid. -/
theorem journalRecords_valid {journal : Option Bytes} {f : JournalFields}
    (mem : f ∈ journalRecords c journal) :
    f.msg.validateUTF8 = true ∧ f.ident.validateUTF8 = true := by
  cases journal with
  | none => cases mem
  | some text =>
      obtain ⟨line, _, kept⟩ := List.mem_filterMap.mp mem
      unfold readRecord readFields at kept
      cases parsed : parseLine c.codec line with
      | error e =>
          rw [parsed] at kept
          cases kept
      | ok j =>
          rw [parsed] at kept
          dsimp only at kept
          cases read : journalFields "syslog_plugin" j with
          | error e =>
              rw [read] at kept
              cases kept
          | ok g =>
              rw [read] at kept
              simp only [Except.map, caught, Option.bind_some] at kept
              split at kept
              · cases kept
              · obtain rfl := Option.some.inj kept
                exact journalFields_valid parsed read

theorem unifiedFields_valid {item : Json} {f : UnifiedFields} (valid : item.wellEncoded = true)
    (read : unifiedFields item = .ok f) :
    f.msg.validateUTF8 = true ∧ f.cat.validateUTF8 = true := by
  obtain ⟨msg, message, read⟩ := ok_of_bind read
  obtain ⟨cat, category, read⟩ := ok_of_bind read
  obtain ⟨t, _, read⟩ := ok_of_bind read
  cases read
  exact ⟨Json.valid_of_value_getString valid Json.validateUTF8_empty message,
    Json.valid_of_value_getString valid (Json.validateUTF8_toByteArray _) category⟩

theorem unifiedLoop_valid {items : List Json} (valid : ∀ item ∈ items, item.wellEncoded = true)
    {f : UnifiedFields} (mem : f ∈ unifiedLoop c items) :
    f.msg.validateUTF8 = true ∧ f.cat.validateUTF8 = true := by
  induction items with
  | nil => cases mem
  | cons item rest ih =>
      have later := ih fun item' here => valid item' (List.mem_cons_of_mem item here)
      unfold unifiedLoop at mem
      cases read : unifiedFields item with
      | error e =>
          rw [read] at mem
          cases mem
      | ok g =>
          rw [read] at mem
          dsimp only at mem
          split at mem
          · exact later mem
          · rcases List.mem_cons.mp mem with rfl | mem
            · exact unifiedFields_valid (valid item List.mem_cons_self) read
            · exact later mem

theorem unifiedRecords_valid {log : Option Bytes} {f : UnifiedFields}
    (mem : f ∈ unifiedRecords c log) :
    f.msg.validateUTF8 = true ∧ f.cat.validateUTF8 = true := by
  unfold unifiedRecords at mem
  split at mem
  · cases mem
  · split at mem
    · rename_i items parsed
      have encoded := c.codec.wellEncoded_of_parse _ _ parsed
      exact unifiedLoop_valid (fun item here => Json.wellEncoded_of_mem encoded here) mem
    · cases mem

theorem systemEntry_valid (c : Collector) (now : Nat → String) (journal : Option Bytes) :
    ∀ e ∈ collectFromSystem c now journal, Valid e := by
  intro e mem
  rw [collectFromSystem_records] at mem
  obtain ⟨n, bound, rfl⟩ := List.mem_mapIdx.mp mem
  have text := journalRecords_valid (List.getElem_mem bound)
  exact ⟨Json.validateUTF8_toByteArray _, Json.validateUTF8_toByteArray _,
    Json.validateUTF8_toByteArray _, Json.validateUTF8_toByteArray "syslog_plugin", text.1⟩

theorem unifiedEntry_valid (c : Collector) (now : Nat → String) (log : Option Bytes) :
    ∀ e ∈ collectFromSystemMac c now log, Valid e := by
  intro e mem
  obtain ⟨n, bound, rfl⟩ := List.mem_mapIdx.mp mem
  have text := unifiedRecords_valid (List.getElem_mem bound)
  exact ⟨Json.validateUTF8_toByteArray _, Json.validateUTF8_toByteArray _,
    Json.validateUTF8_toByteArray _, Json.validateUTF8_toByteArray "syslog_plugin", text.1⟩

end Records

theorem wellEncoded_batchItem (codec : Codec) {e : LogEntry} (valid : Valid e) :
    (batchItem codec e).wellEncoded = true := by
  obtain ⟨device_id, timestamp, level, source, message⟩ := valid
  unfold batchItem
  cases parsed : codec.parse e.metadata_json with
  | error x => simp [device_id, timestamp, level, source, message]
  | ok j =>
      have metadata := codec.wellEncoded_of_parse _ _ parsed
      simp [device_id, timestamp, level, source, message, metadata]

theorem wellEncoded_batchJson (codec : Codec) {batch : List LogEntry}
    (valid : ∀ e ∈ batch, Valid e) : (batchJson codec batch).wellEncoded = true := by
  refine Json.wellEncoded_arr fun j mem => ?_
  obtain ⟨e, here, rfl⟩ := List.mem_map.mp mem
  exact wellEncoded_batchItem codec (valid e here)

/-- The batches hold only entries of the cycle. -/
theorem valid_of_batches {entries : List LogEntry} (valid : ∀ e ∈ entries, Valid e)
    {b : List LogEntry} (mem : b ∈ batches entries) : ∀ e ∈ b, Valid e := by
  intro e here
  apply valid
  rw [← flatten_batches entries]
  exact List.mem_flatten.mpr ⟨b, mem, here⟩

/-- A cycle of valid entries offers all its batches. -/
theorem payloads_eq_render (codec : Codec) {entries : List LogEntry}
    (valid : ∀ e ∈ entries, Valid e) :
    payloads codec (batches entries) = (documents codec entries).map codec.render := by
  have each : ∀ bs : List (List LogEntry), (∀ b ∈ bs, ∀ e ∈ b, Valid e) →
      payloads codec bs = (bs.map (batchJson codec)).map codec.render := by
    intro bs
    induction bs with
    | nil => exact fun _ => rfl
    | cons b bs ih =>
        intro all
        have encoded := wellEncoded_batchJson codec (all b List.mem_cons_self)
        unfold payloads
        rw [Codec.dump_of_wellEncoded codec encoded,
          ih fun b' mem => all b' (List.mem_cons_of_mem b mem)]
        rfl
  exact each (batches entries) fun b mem => valid_of_batches valid mem

end OrbisAgent.Services.LogSources
