/- OrbisAgent/Services/LogMetadata
   source: LogCollector::collectFromSystem (Linux, macOS), collectAndPublish
   digest: The metadata of a published entry is made by concatenation and parsed again. It is the
   object of its identifier exactly when every byte of the identifier stands for itself. -/

import OrbisAgent.Lib.JsonText
import OrbisAgent.Services.LogSources

set_option autoImplicit false
set_option relaxedAutoImplicit false

namespace OrbisAgent.Services.LogMetadata

open OrbisAgent.Lib.ByteString
open OrbisAgent.Lib.CText
open OrbisAgent.Lib.Json
open OrbisAgent.Lib.JsonText
open OrbisAgent.Plugins.SyslogCollector
open OrbisAgent.Services.LogCollector
open OrbisAgent.Services.LogSources

/-- The items that a cycle publishes for these entries. -/
def published (c : Collector) (entries : List LogEntry) : List Json :=
  (documents c.codec entries).flatMap items

def metadata : Json → Option Json
  | .obj fields => fields.lookup "metadata"
  | _ => none

/-- The items have, in order, the identifiers as the single members of their metadata. -/
def Labelled (key : String) (idents : List ByteArray) (items : List Json) : Prop :=
  items.map metadata = idents.map fun s => some (.obj [(key, .str s)])

theorem map_mapIdx_of_const {α β γ : Type} {f : Nat → α → β} {g : β → γ} {h : α → γ}
    (same : ∀ n a, g (f n a) = h a) (l : List α) : (l.mapIdx f).map g = l.map h := by
  induction l generalizing f with
  | nil => rfl
  | cons a l ih =>
      rw [List.mapIdx_cons, List.map_cons, List.map_cons, same, ih fun n => same (n + 1)]

theorem metadata_batchItem (codec : Codec) (e : LogEntry) :
    metadata (batchItem codec e) =
      some ((codec.parse e.metadata_json).toOption.getD (.obj [])) := by
  unfold batchItem
  cases codec.parse e.metadata_json with
  | error x => rfl
  | ok j => rfl

/-- One item has its identifier as its metadata exactly when the identifier is plain. -/
theorem metadata_batchItem_iff {codec : Codec} {key : String} {e : LogEntry} {s : ByteArray}
    (text : e.metadata_json = toText (memberText (bytes key) s.data.toList))
    (reads : ReadsAt codec (memberText (bytes key) s.data.toList)) (plainKey : Plain (bytes key))
    (valid : s.validateUTF8 = true) :
    metadata (batchItem codec e) = some (.obj [(key, .str s)]) ↔ Plain s.data.toList := by
  rw [← parse_memberText_iff reads plainKey valid, ← text, toText_toList, metadata_batchItem]
  cases codec.parse e.metadata_json with
  | error x => simp [Except.toOption]
  | ok j => simp [Except.toOption]

section Sources

variable {c : Collector}

/-- The items of a cycle have their identifiers exactly when these are all plain. -/
theorem labelled_iff {α : Type} {key : String} {make : Nat → α → LogEntry} {ident : α → ByteArray}
    {records : List α} (plainKey : Plain (bytes key))
    (text : ∀ n r, (make n r).metadata_json =
      toText (memberText (bytes key) (ident r).data.toList))
    (valid : ∀ r ∈ records, (ident r).validateUTF8 = true)
    (reads : ∀ r ∈ records, ReadsAt c.codec (memberText (bytes key) (ident r).data.toList)) :
    Labelled key (records.map ident) (published c (records.mapIdx make)) ↔
      ∀ r ∈ records, Plain (ident r).data.toList := by
  have shown : (published c (records.mapIdx make)).map metadata =
      records.map fun r => metadata (batchItem c.codec (make 0 r)) := by
    unfold published
    rw [items_documents, List.map_map]
    refine map_mapIdx_of_const (fun n r => ?_) records
    rw [Function.comp_apply, metadata_batchItem, metadata_batchItem, text n r, text 0 r]
  unfold Labelled
  rw [shown, List.map_map, List.map_inj_left]
  exact forall₂_congr fun r mem =>
    metadata_batchItem_iff (text 0 r) (reads r mem) plainKey (valid r mem)

theorem systemEntry_text (c : Collector) (timestamp : String) (f : JournalFields) :
    (systemEntry c timestamp f).metadata_json =
      toText (memberText (bytes "ident") f.ident.data.toList) :=
  concatenated_member (by decide) (by decide) f.ident

theorem unifiedEntry_text (c : Collector) (timestamp : String) (f : UnifiedFields) :
    (unifiedEntry c timestamp f).metadata_json =
      toText (memberText (bytes "category") f.cat.data.toList) :=
  concatenated_member (by decide) (by decide) f.cat

end Sources

/-- The payloads that a cycle offers are the texts of the documents with these items. -/
def Offers (c : Collector) (entries : List LogEntry) : Prop :=
  cyclePayloads c.codec ⟨none, entries⟩ = (documents c.codec entries).map c.codec.render

/-- On both systems, whatever the log holds: the published entries have their identifiers as
the single members of their metadata if and only if no identifier has a quote, a backslash or
a control character. -/
theorem metadata_is_identifier_iff_plain (c : Collector) (now : Nat → String)
    (journal log : Option Bytes)
    (linux : ∀ f ∈ journalRecords c journal,
      ReadsAt c.codec (memberText (bytes "ident") f.ident.data.toList))
    (mac : ∀ f ∈ unifiedRecords c log,
      ReadsAt c.codec (memberText (bytes "category") f.cat.data.toList)) :
    (Offers c (collectFromSystem c now journal) ∧
      (Labelled "ident" ((journalRecords c journal).map JournalFields.ident)
          (published c (collectFromSystem c now journal)) ↔
        ∀ f ∈ journalRecords c journal, Plain f.ident.data.toList)) ∧
    Offers c (collectFromSystemMac c now log) ∧
      (Labelled "category" ((unifiedRecords c log).map UnifiedFields.cat)
          (published c (collectFromSystemMac c now log)) ↔
        ∀ f ∈ unifiedRecords c log, Plain f.cat.data.toList) := by
  refine ⟨⟨?_, ?_⟩, ?_, ?_⟩
  · exact payloads_eq_render c.codec (systemEntry_valid c now journal)
  · rw [collectFromSystem_records]
    exact labelled_iff (by decide) (fun n f => systemEntry_text c (now n) f)
      (fun f mem => (journalRecords_valid mem).2) linux
  · exact payloads_eq_render c.codec (unifiedEntry_valid c now log)
  · exact labelled_iff (by decide) (fun n f => unifiedEntry_text c (now n) f)
      (fun f mem => (unifiedRecords_valid mem).2) mac

section Probe

def kernelLine : Bytes :=
  bytes "\x7b\"MESSAGE\":\"up\",\"SYSLOG_IDENTIFIER\":\"kernel\"\x7d\n"

def wifiLog : Bytes := bytes "[\x7b\"category\":\"wifi\",\"eventMessage\":\"up\"\x7d]"

def calmTexts : List (Bytes × Json) :=
  [(kernelLine, .obj [("MESSAGE", .text "up"), ("SYSLOG_IDENTIFIER", .text "kernel")]),
    (memberText (bytes "ident") (bytes "kernel"), .obj [("ident", .text "kernel")]),
    (wifiLog, .arr [.obj [("category", .text "wifi"), ("eventMessage", .text "up")]]),
    (memberText (bytes "category") (bytes "wifi"), .obj [("category", .text "wifi")])]

theorem calmTexts_wellEncoded : ∀ p ∈ calmTexts, p.2.wellEncoded = true := by
  simp [calmTexts]

def calmCollector : Collector where
  codec := table calmTexts calmTexts_wellEncoded
  device_id := "d1"
  log_levels := []

theorem journalRecords_calm : journalRecords calmCollector (some kernelLine) =
    [⟨"up".toByteArray, "kernel".toByteArray, 6⟩] := by
  rfl

theorem unifiedRecords_calm : unifiedRecords calmCollector (some wifiLog) =
    [⟨"up".toByteArray, "wifi".toByteArray, "INFO"⟩] := by
  rfl

theorem plain_identifiers_are_published :
    Labelled "ident" ["kernel".toByteArray] (published calmCollector
        (collectFromSystem calmCollector (fun _ => "") (some kernelLine))) ∧
      Labelled "category" ["wifi".toByteArray] (published calmCollector
        (collectFromSystemMac calmCollector (fun _ => "") (some wifiLog))) := by
  have kernel : Plain (bytes "kernel") := by decide
  have wifi : Plain (bytes "wifi") := by decide
  have linux : ∀ f ∈ journalRecords calmCollector (some kernelLine),
      ReadsAt calmCollector.codec (memberText (bytes "ident") f.ident.data.toList) := by
    rw [journalRecords_calm]
    intro f mem
    obtain rfl := List.mem_singleton.mp mem
    exact readsAt_of_plain (by decide) kernel rfl
  have mac : ∀ f ∈ unifiedRecords calmCollector (some wifiLog),
      ReadsAt calmCollector.codec (memberText (bytes "category") f.cat.data.toList) := by
    rw [unifiedRecords_calm]
    intro f mem
    obtain rfl := List.mem_singleton.mp mem
    exact readsAt_of_plain (by decide) wifi rfl
  obtain ⟨⟨_, ident⟩, _, category⟩ := metadata_is_identifier_iff_plain calmCollector (fun _ => "")
    (some kernelLine) (some wifiLog) linux mac
  rw [journalRecords_calm] at ident
  rw [unifiedRecords_calm] at category
  refine ⟨ident.mpr fun f mem => ?_, category.mpr fun f mem => ?_⟩
  · obtain rfl := List.mem_singleton.mp mem
    exact kernel
  · obtain rfl := List.mem_singleton.mp mem
    exact wifi

/-- A program that names itself so that its name closes the string. -/
def slyIdent : String := "x\",\"uid\":\"0"

def slyLine : Bytes :=
  bytes "\x7b\"MESSAGE\":\"up\",\"SYSLOG_IDENTIFIER\":\"x\\\",\\\"uid\\\":\\\"0\"\x7d\n"

def slyLog : Bytes := bytes "[\x7b\"category\":\"a\\\"b\",\"eventMessage\":\"up\"\x7d]"

/-- The metadata text of the category is no JSON. -/
def slyTexts : List (Bytes × Json) :=
  [(slyLine, .obj [("MESSAGE", .text "up"), ("SYSLOG_IDENTIFIER", .text slyIdent)]),
    (memberText (bytes "ident") (bytes slyIdent), .obj [("ident", .text "x"), ("uid", .text "0")]),
    (slyLog, .arr [.obj [("category", .text "a\"b"), ("eventMessage", .text "up")]])]

theorem slyTexts_wellEncoded : ∀ p ∈ slyTexts, p.2.wellEncoded = true := by
  simp [slyTexts]

def slyCollector : Collector where
  codec := table slyTexts slyTexts_wellEncoded
  device_id := "d1"
  log_levels := []

/-- What is published of the items of the journal and of the log. -/
def slyPublished : List Json × List Json :=
  (published slyCollector (collectFromSystem slyCollector (fun _ => "") (some slyLine)),
    published slyCollector (collectFromSystemMac slyCollector (fun _ => "") (some slyLog)))

/-- An identifier adds a key and changes its own, and a category loses its metadata. -/
theorem quotes_change_metadata :
    slyPublished.1.map metadata = [some (.obj [("ident", .text "x"), ("uid", .text "0")])] ∧
      slyPublished.2.map metadata = [some (.obj [])] ∧
      ¬ Labelled "ident" ((journalRecords slyCollector (some slyLine)).map JournalFields.ident)
        slyPublished.1 ∧
      ¬ Labelled "category" ((unifiedRecords slyCollector (some slyLog)).map UnifiedFields.cat)
        slyPublished.2 := by
  have linux : slyPublished.1.map metadata =
      [some (.obj [("ident", .text "x"), ("uid", .text "0")])] := by
    unfold slyPublished published
    rw [items_documents]
    rfl
  have mac : slyPublished.2.map metadata = [some (.obj [])] := by
    unfold slyPublished published
    rw [items_documents, items_documents]
    rfl
  have ident : (journalRecords slyCollector (some slyLine)).map JournalFields.ident =
      [slyIdent.toByteArray] := by
    rfl
  have category : (unifiedRecords slyCollector (some slyLog)).map UnifiedFields.cat =
      ["a\"b".toByteArray] := by
    rfl
  refine ⟨linux, mac, ?_, ?_⟩
  · intro labelled
    rw [Labelled, linux, ident] at labelled
    simp at labelled
  · intro labelled
    rw [Labelled, mac, category] at labelled
    simp at labelled

end Probe

end OrbisAgent.Services.LogMetadata
