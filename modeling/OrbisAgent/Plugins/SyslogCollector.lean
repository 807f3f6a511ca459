/- OrbisAgent/Plugins/SyslogCollector
   source: src/plugins/syslog_collector/syslog_collector.cpp (Linux)
   digest: The plugin that reads the end of the journal, and the entries that the loader takes from
   its text. -/

import OrbisAgent.Lib.CText
import OrbisAgent.Plugins.PluginLoader

set_option autoImplicit false
set_option relaxedAutoImplicit false

namespace OrbisAgent.Plugins.SyslogCollector

open OrbisAgent.Lib.ByteString
open OrbisAgent.Lib.CText
open OrbisAgent.Lib.Json
open OrbisAgent.Plugins.PluginLoader

def mapLevel (priority : Int) : String :=
  if priority ≤ 2 then "CRITICAL"
  else if priority = 3 then "ERROR"
  else if priority = 4 then "WARNING"
  else if priority ≤ 6 then "INFO"
  else "DEBUG"

/-- What both journal readers take from a line. -/
structure JournalFields where
  msg : ByteArray
  ident : ByteArray
  prio : Int

def parseLine (codec : Codec) (line : Bytes) : Except Exn Json := codec.parse ⟨line.toArray⟩

/-- The fields of a parsed line; `unnamed` stands for a missing identifier. -/
def journalFields (unnamed : String) (j : Json) : Except Exn JournalFields := do
  let msg ← j.value Json.getString "MESSAGE" ByteArray.empty
  let ident ← j.value Json.getString "SYSLOG_IDENTIFIER" unnamed.toByteArray
  let prio ← j.value Json.getString "PRIORITY" "6".toByteArray
  let prio ← stoi prio.data.toList
  pure ⟨msg, ident, prio⟩

/-- One line: nothing when it is discarded, and an exception for a field of a wrong type. -/
def readFields (codec : Codec) (unnamed : String) (line : Bytes) :
    Except Exn (Option JournalFields) :=
  match parseLine codec line with
  | .error _ => .ok none
  | .ok j => (journalFields unnamed j).map some

def pluginItem (f : JournalFields) : Json :=
  .obj [("level", .text (mapLevel f.prio)), ("message", .str f.msg),
    ("metadata", .obj [("ident", .str f.ident)]), ("source", .text "syslog_plugin")]

def readItem (codec : Codec) (line : Bytes) : Except Exn (Option Json) :=
  (readFields codec "system" line).map fun found =>
    found.bind fun f => if f.msg.isEmpty then none else some (pluginItem f)

/-- `journal` is what journalctl prints, when it can be started. -/
def doCollect (codec : Codec) (journal : Option Bytes) : Except Exn String :=
  match journal with
  | none => codec.dump (.arr [])
  | some text => codec.dump (.arr (readLines (readItem codec) 8192 text))

def collect (codec : Codec) (journal : Option Bytes) : Outcome :=
  match doCollect codec journal with
  | .ok result => .text result.toByteArray
  | .error _ => .text "[]".toByteArray

def metadataText (codec : Codec) (f : JournalFields) : ByteArray :=
  (codec.render (.obj [("ident", .str f.ident)])).toByteArray

/-- The entry that the loader makes of an item. -/
def pluginEntry (codec : Codec) (f : JournalFields) : PluginLogEntry :=
  ⟨"syslog_plugin".toByteArray, (mapLevel f.prio).toByteArray, f.msg, metadataText codec f⟩

theorem pluginLogEntry_pluginItem (codec : Codec) (name : ByteArray) {f : JournalFields}
    (valid : f.ident.validateUTF8 = true) :
    pluginLogEntry codec name (pluginItem f) = .ok (pluginEntry codec f) := by
  have encoded : (Json.obj [("ident", .str f.ident)]).wellEncoded = true := by
    rw [Json.wellEncoded_obj_cons, Json.wellEncoded_str, valid]
    rfl
  have dumped := Codec.dump_of_wellEncoded codec encoded
  show (do
    let metadata_json ← (codec.dump (.obj [("ident", .str f.ident)])).map String.toByteArray
    pure (PluginLogEntry.mk _ _ f.msg metadata_json)) = _
  rw [dumped]
  rfl

theorem wellEncoded_pluginItem {f : JournalFields} (message : f.msg.validateUTF8 = true)
    (ident : f.ident.validateUTF8 = true) : (pluginItem f).wellEncoded = true := by
  simp [pluginItem, message, ident]

/-- The texts read from a line are valid. -/
theorem journalFields_valid {codec : Codec} {line : Bytes} {j : Json} {unnamed : String}
    {f : JournalFields} (parsed : parseLine codec line = .ok j)
    (read : journalFields unnamed j = .ok f) :
    f.msg.validateUTF8 = true ∧ f.ident.validateUTF8 = true := by
  have encoded := codec.wellEncoded_of_parse _ _ parsed
  unfold journalFields at read
  obtain ⟨msg, message, read⟩ := ok_of_bind read
  obtain ⟨ident, named, read⟩ := ok_of_bind read
  obtain ⟨prio, _, read⟩ := ok_of_bind read
  obtain ⟨n, _, read⟩ := ok_of_bind read
  cases read
  exact ⟨Json.valid_of_value_getString encoded Json.validateUTF8_empty message,
    Json.valid_of_value_getString encoded (Json.validateUTF8_toByteArray _) named⟩

end OrbisAgent.Plugins.SyslogCollector
