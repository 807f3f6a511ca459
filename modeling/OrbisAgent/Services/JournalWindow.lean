/- OrbisAgent/Services/JournalWindow
   source: LogCollector::run, collectAndPublish, collectFromSystem, the plugin's doCollect (Linux)
   digest: Every cycle publishes the last 50 journal entries. Each entry is published once exactly
   if the journal grows by 50 entries from cycle to cycle. -/

import OrbisAgent.Lib.JsonText
import OrbisAgent.Lib.Window
import OrbisAgent.Services.LogSources

set_option autoImplicit false
set_option relaxedAutoImplicit false

namespace OrbisAgent.Services.JournalWindow

open OrbisAgent.Constants (TOPIC_LOGS_FMT topicFor)
open OrbisAgent.Lib.ByteString
open OrbisAgent.Lib.CText
open OrbisAgent.Lib.Json
open OrbisAgent.Lib.JsonText (table)
open OrbisAgent.Lib.Window
open OrbisAgent.Plugins
open OrbisAgent.Plugins.PluginLoader
open OrbisAgent.Plugins.SyslogCollector (JournalFields journalFields mapLevel parseLine pluginEntry
  pluginItem readFields readItem)
open OrbisAgent.Services.LogCollector
open OrbisAgent.Services.LogSources

/-- A journal entry as it is printed, with what its line says. -/
structure Entry where
  line : Bytes
  json : Json
  message : ByteArray
  priority : Int

/-- A JSON line shorter than the buffer, with a message and an allowed level. -/
structure Readable (c : Collector) (size : Nat) (e : Entry) : Prop where
  whole : newline ∉ e.line
  short : e.line.length < size
  parsed : parseLine c.codec e.line = .ok e.json
  ended : parseLine c.codec (e.line ++ [newline]) = .ok e.json
  message : e.json.value Json.getString "MESSAGE" ByteArray.empty = .ok e.message
  nonempty : e.message.isEmpty = false
  named : ∀ default, ∃ ident,
    e.json.value Json.getString "SYSLOG_IDENTIFIER" default = .ok ident
  priority : ∃ prio, e.json.value Json.getString "PRIORITY" "6".toByteArray = .ok prio ∧
    stoi prio.data.toList = .ok e.priority
  allowed : levelAllowed c (mapLevel e.priority).toByteArray = true

def Entry.ident (unnamed : String) (e : Entry) : ByteArray :=
  match e.json.value Json.getString "SYSLOG_IDENTIFIER" unnamed.toByteArray with
  | .ok ident => ident
  | .error _ => ByteArray.empty

def Entry.fields (unnamed : String) (e : Entry) : JournalFields :=
  ⟨e.message, e.ident unnamed, e.priority⟩

/-- What `journalctl -n 50` prints when the journal has `n` entries. -/
def journalctl (journal : Nat → Entry) (n : Nat) : Bytes :=
  (window 50 n).flatMap fun p => (journal p).line ++ [newline]

/-- One run of `collectAndPublish`: how many entries the journal has, the times at which the
entries are made, and what the other plugins hand over. -/
structure Cycle where
  length : Nat
  now : Nat → String
  collect : Nat → Outcome

section Run

variable (c : Collector) (journal : Nat → Entry) (lib : Nat)

/-- The plugin loaded as `lib` is the journal reader. -/
def outcomes (x : Cycle) (l : Nat) : Outcome :=
  if l = lib then SyslogCollector.collect c.codec (some (journalctl journal x.length))
  else x.collect l

/-- The entries of one cycle, and the plugins after it. -/
def cycle (x : Cycle) : Option Loader → Collected × Option Loader
  | none => (⟨none, collectFromSystem c x.now (some (journalctl journal x.length))⟩, none)
  | some l =>
      let (passed, l) := collectAll c.codec (outcomes c journal lib x) calm l
      (⟨some (collectFromPlugins c x.now passed), []⟩, some l)

def cycles : List Cycle → Option Loader → List Collected
  | [], _ => []
  | x :: rest, loader =>
      (cycle c journal lib x loader).1 :: cycles rest (cycle c journal lib x loader).2

/-- The journal reader is loaded once. It is the only source of entries under its name, and
the text of its array reads back as the array. -/
structure Hosted (l : Loader) (xs : List Cycle) : Prop where
  one : ∃ p, l.plugins.filter (fun p => p.lib == lib) = [p]
  names : ∀ p ∈ l.plugins, p.name.validateUTF8 = true
  apart : ∀ x ∈ xs, ∀ p ∈ l.plugins, p.lib ≠ lib →
    ∀ e ∈ yields c.codec x.collect p, e.source ≠ "syslog_plugin".toByteArray
  prints : ∀ x ∈ xs, c.codec.Prints
    (.arr ((window 50 x.length).map fun p => pluginItem ((journal p).fields "system")))

/-- Without plugins nothing more is assumed. -/
def Setting (xs : List Cycle) : Option Loader → Prop
  | none => True
  | some l => Hosted c journal lib l xs

end Run

def bufferSize : Option Loader → Nat
  | none => 4096
  | some _ => 8192

/-- What a log item says about a journal entry. -/
structure Report where
  device_id : ByteArray
  level : ByteArray
  message : ByteArray
  deriving DecidableEq

def Entry.report (c : Collector) (e : Entry) : Report :=
  ⟨c.device_id.toByteArray, (mapLevel e.priority).toByteArray, e.message⟩

/-- The report of a published item that comes from the journal. -/
def report : Json → Option Report
  | .obj fields =>
      match fields.lookup "source", fields.lookup "device_id", fields.lookup "level",
        fields.lookup "message" with
      | some (.str source), some (.str device_id), some (.str level), some (.str message) =>
          if source = "syslog_plugin".toByteArray then some ⟨device_id, level, message⟩ else none
      | _, _, _, _ => none
  | _ => none

def entryReport (e : LogEntry) : Option Report :=
  if e.source = "syslog_plugin".toByteArray then some ⟨e.device_id, e.level, e.message⟩ else none

theorem report_batchItem (codec : Codec) (e : LogEntry) :
    report (batchItem codec e) = entryReport e := rfl

theorem filterMap_mapIdx {α β γ : Type} {f : Nat → α → β} {g : β → Option γ} {h : α → Option γ}
    (same : ∀ n a, g (f n a) = h a) (l : List α) :
    (l.mapIdx f).filterMap g = l.filterMap h := by
  induction l generalizing f with
  | nil => rfl
  | cons a l ih =>
      rw [List.mapIdx_cons, List.filterMap_cons, List.filterMap_cons, same,
        ih fun n b => same (n + 1) b]

/-- Where every item gives one value, the list gives all of them. -/
theorem filterMap_some {α β : Type} {f : α → Option β} {g : α → β} {l : List α}
    (each : ∀ a ∈ l, f a = some (g a)) : l.filterMap f = l.map g := by
  induction l with
  | nil => rfl
  | cons a l ih =>
      rw [List.filterMap_cons, each a List.mem_cons_self, List.map_cons,
        ih fun b mem => each b (List.mem_cons_of_mem a mem)]

section Reading

variable {c : Collector} {size : Nat} {e : Entry} (readable : Readable c size e)
include readable

theorem journalFields_readable (unnamed : String) :
    journalFields unnamed e.json = .ok (e.fields unnamed) := by
  obtain ⟨ident, named⟩ := readable.named unnamed.toByteArray
  obtain ⟨prio, read, number⟩ := readable.priority
  unfold journalFields Entry.fields Entry.ident
  rw [readable.message, named, read]
  show (do
    let prio ← stoi prio.data.toList
    pure (JournalFields.mk e.message ident prio)) = _
  rw [number]
  rfl

/-- The line is read with its newline and without it. -/
theorem readFields_readable (unnamed : String) {line : Bytes}
    (either : line = e.line ++ [newline] ∨ line = e.line) :
    readFields c.codec unnamed line = .ok (some (e.fields unnamed)) := by
  have parsed : parseLine c.codec line = .ok e.json := by
    rcases either with rfl | rfl
    · exact readable.ended
    · exact readable.parsed
  unfold readFields
  rw [parsed]
  dsimp only
  rw [journalFields_readable readable unnamed]
  rfl

theorem readRecord_readable {line : Bytes}
    (either : line = e.line ++ [newline] ∨ line = e.line) :
    readRecord c line = .ok (some (e.fields "syslog_plugin")) := by
  have kept : (!levelAllowed c (priorityLevel e.priority).toByteArray || e.message.isEmpty) =
      false := by
    rw [priorityLevel_eq, readable.allowed, readable.nonempty]
    rfl
  unfold readRecord
  rw [readFields_readable readable "syslog_plugin" either]
  show Except.ok (if (!levelAllowed c (priorityLevel e.priority).toByteArray ||
    e.message.isEmpty) = true then none else some (e.fields "syslog_plugin")) = _
  rw [kept, if_neg Bool.false_ne_true]

theorem readItem_readable {line : Bytes}
    (either : line = e.line ++ [newline] ∨ line = e.line) :
    readItem c.codec line = .ok (some (pluginItem (e.fields "system"))) := by
  unfold readItem
  rw [readFields_readable readable "system" either]
  show Except.ok (if e.message.isEmpty = true then none
    else some (pluginItem (e.fields "system"))) = _
  rw [readable.nonempty, if_neg Bool.false_ne_true]

theorem fields_valid (unnamed : String) :
    e.message.validateUTF8 = true ∧ (e.ident unnamed).validateUTF8 = true :=
  SyslogCollector.journalFields_valid readable.parsed (journalFields_readable readable unnamed)

end Reading

/-- A reader that takes every entry's line, with its newline and without it, takes all of them. -/
theorem readLines_journal {c : Collector} {journal : Nat → Entry} {α : Type} {size : Nat}
    {read : Bytes → Except Exn (Option α)} (value : Entry → α)
    (readable : ∀ p, Readable c size (journal p)) (skips : caught (read [newline]) = none)
    (takes : ∀ p line, line = (journal p).line ++ [newline] ∨ line = (journal p).line →
      read line = .ok (some (value (journal p)))) (n : Nat) :
    readLines read size (journalctl journal n) = (window 50 n).map fun p => value (journal p) :=
  readLines_short skips (window 50 n) (fun p _ => (readable p).whole)
    (fun p _ => (readable p).short) (fun p _ => takes p _ (.inl rfl))
    fun p _ => takes p _ (.inr rfl)

section Cycles

variable {c : Collector} {journal : Nat → Entry} {lib : Nat} {x : Cycle}
  (blank : ∀ j, parseLine c.codec [newline] ≠ .ok j)
include blank

theorem readFields_blank (unnamed : String) : readFields c.codec unnamed [newline] = .ok none := by
  unfold readFields
  cases parsed : parseLine c.codec [newline] with
  | error e => rfl
  | ok j => exact absurd parsed (blank j)

/-- What the collector reads by itself. -/
theorem readLines_readRecord (readable : ∀ p, Readable c 4096 (journal p)) (n : Nat) :
    readLines (readRecord c) 4096 (journalctl journal n) =
      (window 50 n).map fun p => (journal p).fields "syslog_plugin" := by
  refine readLines_journal (fun e => e.fields "syslog_plugin") readable ?_
    (fun p _ either => readRecord_readable (readable p) either) n
  unfold readRecord
  rw [readFields_blank blank]
  rfl

/-- What the plugin reads. -/
theorem readLines_readItem (readable : ∀ p, Readable c 8192 (journal p)) (n : Nat) :
    readLines (readItem c.codec) 8192 (journalctl journal n) =
      (window 50 n).map fun p => pluginItem ((journal p).fields "system") := by
  refine readLines_journal (fun e => pluginItem (e.fields "system")) readable ?_
    (fun p _ either => readItem_readable (readable p) either) n
  unfold readItem
  rw [readFields_blank blank]
  rfl

theorem system_reports (readable : ∀ p, Readable c 4096 (journal p)) (n : Nat)
    (now : Nat → String) :
    (collectFromSystem c now (some (journalctl journal n))).filterMap entryReport =
      (window 50 n).map fun p => (journal p).report c := by
  unfold collectFromSystem
  dsimp only
  rw [readLines_readRecord blank readable, filterMap_mapIdx
    (h := fun f => some ⟨c.device_id.toByteArray, (mapLevel f.prio).toByteArray, f.msg⟩)
    fun _ _ => if_pos rfl, List.filterMap_map]
  exact congrFun List.filterMap_eq_map _

/-- In its turn the journal reader hands over the window. -/
theorem yields_reader (readable : ∀ p, Readable c 8192 (journal p)) {p : LoadedPlugin}
    (reader : p.lib = lib)
    (prints : c.codec.Prints
      (.arr ((window 50 x.length).map fun p => pluginItem ((journal p).fields "system")))) :
    yields c.codec (outcomes c journal lib x) p =
        (window 50 x.length).map (fun p => pluginEntry c.codec ((journal p).fields "system")) ∧
      fails c.codec (outcomes c journal lib x) p = false := by
  have encoded : (Json.arr ((window 50 x.length).map fun p =>
      pluginItem ((journal p).fields "system"))).wellEncoded = true := by
    refine Json.wellEncoded_arr fun j mem => ?_
    obtain ⟨p, _, rfl⟩ := List.mem_map.mp mem
    have texts := fields_valid (readable p) "system"
    exact SyslogCollector.wellEncoded_pluginItem texts.1 texts.2
  have called : outcomes c journal lib x p.lib =
      .text (c.codec.render (.arr ((window 50 x.length).map fun p =>
        pluginItem ((journal p).fields "system")))).toByteArray := by
    unfold outcomes SyslogCollector.collect SyslogCollector.doCollect
    rw [if_pos reader]
    dsimp only
    rw [readLines_readItem blank readable, Codec.dump_of_wellEncoded c.codec encoded]
  have read : parseCollectResult c.codec (c.codec.render (.arr ((window 50 x.length).map fun p =>
      pluginItem ((journal p).fields "system")))).toByteArray p.name =
        .ok ((window 50 x.length).map fun p =>
          pluginEntry c.codec ((journal p).fields "system")) := by
    unfold parseCollectResult
    rw [prints.nonempty, if_neg Bool.false_ne_true, prints.reparsed]
    exact mapM_map_ok fun q _ => SyslogCollector.pluginLogEntry_pluginItem c.codec p.name
      (fields_valid (readable q) "system").2
  unfold yields fails
  rw [called]
  dsimp only
  rw [read]
  exact ⟨rfl, rfl⟩

end Cycles

theorem yields_other {c : Collector} {journal : Nat → Entry} {lib : Nat} {x : Cycle}
    {p : LoadedPlugin} (other : p.lib ≠ lib) :
    yields c.codec (outcomes c journal lib x) p = yields c.codec x.collect p := by
  unfold yields outcomes
  rw [if_neg other]

/-- The report of a plugin's entry, when its level is allowed. -/
def pluginReport (c : Collector) (pe : PluginLogEntry) : Option Report :=
  if levelAllowed c pe.level then
    if pe.source = "syslog_plugin".toByteArray then
      some ⟨c.device_id.toByteArray, pe.level, pe.message⟩
    else none
  else none

theorem collectFromPlugins_reports (c : Collector) (now : Nat → String) (passed : Passed) :
    (collectFromPlugins c now passed).filterMap entryReport =
      passed.flatten.filterMap (pluginReport c) := by
  unfold collectFromPlugins
  rw [filterMap_mapIdx (h := fun pe : PluginLogEntry =>
    if pe.source = "syslog_plugin".toByteArray then
      some ⟨c.device_id.toByteArray, pe.level, pe.message⟩
    else none) fun _ _ => rfl, List.filterMap_filter]
  rfl

theorem pluginReport_entry {c : Collector} {e : Entry} (readable : Readable c 8192 e) :
    pluginReport c (pluginEntry c.codec (e.fields "system")) = some (e.report c) := by
  have named : (pluginEntry c.codec (e.fields "system")).source = "syslog_plugin".toByteArray := rfl
  unfold pluginReport
  rw [if_pos named]
  exact if_pos readable.allowed

/-- Where all items but one give nothing, the list gives what that one gives. -/
theorem flatMap_of_one {α β : Type} {keep : α → Bool} {g : α → List β} {l : List α} {a : α}
    (one : l.filter keep = [a]) (others : ∀ b ∈ l, keep b = false → g b = []) :
    l.flatMap g = g a := by
  induction l with
  | nil => cases one
  | cons b l ih =>
      have later : ∀ b' ∈ l, keep b' = false → g b' = [] := fun b' mem =>
        others b' (List.mem_cons_of_mem b mem)
      rw [List.filter_cons] at one
      rw [List.flatMap_cons]
      cases kept : keep b with
      | false =>
          rw [kept, if_neg Bool.false_ne_true] at one
          rw [others b List.mem_cons_self kept, List.nil_append, ih one later]
      | true =>
          rw [kept, if_pos rfl] at one
          obtain ⟨rfl, none⟩ := List.cons.inj one
          have silent : l.flatMap g = [] := by
            refine List.flatMap_eq_nil_iff.mpr fun b' mem => later b' mem ?_
            exact Bool.not_eq_true _ ▸ List.filter_eq_nil_iff.mp none b' mem
          rw [silent, List.append_nil]

section Rounds

variable {c : Collector} {journal : Nat → Entry} {lib : Nat} {x : Cycle} {rest : List Cycle}
  {l : Loader}

theorem Hosted.reader (hosted : Hosted c journal lib l (x :: rest)) :
    ∃ p, l.plugins.filter (fun p => p.lib == lib) = [p] ∧ p.lib = lib := by
  obtain ⟨p, one⟩ := hosted.one
  have found : p ∈ l.plugins.filter fun p => p.lib == lib := by
    rw [one]
    exact List.mem_singleton_self p
  exact ⟨p, one, beq_iff_eq.mp (List.mem_filter.mp found).2⟩

/-- In the first cycle of a setting only the journal reader reports the journal. -/
theorem others_silent (hosted : Hosted c journal lib l (x :: rest)) :
    ∀ q ∈ l.plugins, (q.lib == lib) = false →
      (yields c.codec (outcomes c journal lib x) q).filterMap (pluginReport c) = [] := by
  intro q mem other
  have apart : q.lib ≠ lib := beq_eq_false_iff_ne.mp other
  rw [yields_other apart, List.filterMap_eq_nil_iff]
  intro e given
  have foreign := hosted.apart x List.mem_cons_self q mem apart e given
  unfold pluginReport
  rw [if_neg foreign, ite_self]

theorem plugins_valid (hosted : Hosted c journal lib l (x :: rest)) {passed : Passed}
    (given : passed.flatten = l.plugins.flatMap (yields c.codec (outcomes c journal lib x))) :
    ∀ e ∈ collectFromPlugins c x.now passed, Valid e := by
  intro e mem
  unfold collectFromPlugins at mem
  rw [given] at mem
  obtain ⟨n, bound, rfl⟩ := List.mem_mapIdx.mp mem
  have entry := (List.mem_filter.mp (List.getElem_mem bound)).1
  obtain ⟨q, loaded, here⟩ := List.mem_flatMap.mp entry
  have texts := yields_valid (hosted.names q loaded) here
  exact ⟨Json.validateUTF8_toByteArray _, Json.validateUTF8_toByteArray _, texts.2.1, texts.1,
    texts.2.2⟩

variable (blank : ∀ j, parseLine c.codec [newline] ≠ .ok j)
include blank

theorem plugins_reports (readable : ∀ p, Readable c 8192 (journal p))
    (hosted : Hosted c journal lib l (x :: rest)) {passed : Passed}
    (given : passed.flatten = l.plugins.flatMap (yields c.codec (outcomes c journal lib x))) :
    (collectFromPlugins c x.now passed).filterMap entryReport =
      (window 50 x.length).map fun p => (journal p).report c := by
  obtain ⟨p, one, reader⟩ := hosted.reader
  have turn := (yields_reader blank readable reader (hosted.prints x List.mem_cons_self)).1
  rw [collectFromPlugins_reports, given, List.filterMap_flatMap,
    flatMap_of_one one (others_silent hosted), turn, List.filterMap_map]
  exact filterMap_some fun q _ => pluginReport_entry (readable q)

/-- The journal reader stays loaded. -/
theorem plugins_hosted (readable : ∀ p, Readable c 8192 (journal p))
    (hosted : Hosted c journal lib l (x :: rest)) :
    Hosted c journal lib (collectAll c.codec (outcomes c journal lib x) calm l).2 rest := by
  obtain ⟨p, one, reader⟩ := hosted.reader
  have steady := (yields_reader blank readable reader (hosted.prints x List.mem_cons_self)).2
  have keeps : (collectAll c.codec (outcomes c journal lib x) calm l).2.plugins =
      l.plugins.filter fun p => !fails c.codec (outcomes c journal lib x) p := collectAll_keeps l
  have still : ∀ q ∈ (collectAll c.codec (outcomes c journal lib x) calm l).2.plugins,
      q ∈ l.plugins := by
    intro q mem
    rw [keeps] at mem
    exact (List.mem_filter.mp mem).1
  refine ⟨⟨p, ?_⟩, fun q mem => hosted.names q (still q mem), fun y later q mem =>
    hosted.apart y (List.mem_cons_of_mem x later) q (still q mem),
    fun y later => hosted.prints y (List.mem_cons_of_mem x later)⟩
  rw [keeps, List.filter_comm, one, List.filter_cons, steady]
  rfl

/-- One cycle reports the window, and the next ones go on in the same way. -/
theorem cycle_reports {loader : Option Loader}
    (readable : ∀ p, Readable c (bufferSize loader) (journal p))
    (setting : Setting c journal lib (x :: rest) loader) :
    let after := cycle c journal lib x loader
    (after.1.entries.filterMap entryReport =
        (window 50 x.length).map fun p => (journal p).report c) ∧
      (∀ e ∈ after.1.entries, Valid e) ∧ bufferSize after.2 = bufferSize loader ∧
      Setting c journal lib rest after.2 := by
  cases loader with
  | none =>
      exact ⟨system_reports blank readable x.length x.now,
        systemEntry_valid c x.now (some (journalctl journal x.length)), rfl, trivial⟩
  | some l =>
      have given : (collectAll c.codec (outcomes c journal lib x) calm l).1.flatten =
          l.plugins.flatMap (yields c.codec (outcomes c journal lib x)) := collectAll_passed l
      exact ⟨plugins_reports blank readable setting given, plugins_valid setting given, rfl,
        plugins_hosted blank readable setting⟩

theorem cycles_report {xs : List Cycle} {loader : Option Loader}
    (readable : ∀ p, Readable c (bufferSize loader) (journal p))
    (setting : Setting c journal lib xs loader) :
    ((cycles c journal lib xs loader).flatMap fun d => d.entries.filterMap entryReport) =
        (seen 50 (xs.map Cycle.length)).map (fun p => (journal p).report c) ∧
      ∀ d ∈ cycles c journal lib xs loader, ∀ e ∈ d.entries, Valid e := by
  induction xs generalizing loader with
  | nil => exact ⟨rfl, fun d mem => by cases mem⟩
  | cons x rest ih =>
      obtain ⟨reports, valid, same, setting'⟩ := cycle_reports blank readable setting
      rw [← same] at readable
      obtain ⟨later, laterValid⟩ := ih readable setting'
      unfold seen at later ⊢
      refine ⟨?_, fun d mem => ?_⟩
      · rw [cycles, List.flatMap_cons, reports, later, List.map_cons, List.flatMap_cons,
          List.map_append]
      · rcases List.mem_cons.mp mem with rfl | mem
        · exact valid
        · exact laterValid d mem

end Rounds

/-- The documents that the cycles publish. -/
def published (c : Collector) (collected : List Collected) : List Json :=
  collected.flatMap fun d => documents c.codec d.entries

theorem reports_published (c : Collector) (collected : List Collected) :
    ((published c collected).flatMap items).filterMap report =
      collected.flatMap fun d => d.entries.filterMap entryReport := by
  have item : report ∘ batchItem c.codec = entryReport := funext (report_batchItem c.codec)
  unfold published
  induction collected with
  | nil => rfl
  | cons d collected ih =>
      rw [List.flatMap_cons, List.flatMap_append, List.filterMap_append, ih, items_documents,
        List.filterMap_map, item, List.flatMap_cons]

theorem payloads_published {c : Collector} {collected : List Collected}
    (valid : ∀ d ∈ collected, ∀ e ∈ d.entries, Valid e) :
    collected.flatMap (cyclePayloads c.codec) = (published c collected).map c.codec.render := by
  unfold published
  induction collected with
  | nil => rfl
  | cons d collected ih =>
      have later := ih fun d' mem => valid d' (List.mem_cons_of_mem d mem)
      have now := payloads_eq_render c.codec (valid d List.mem_cons_self)
      rw [List.flatMap_cons, List.flatMap_cons, List.map_append, later]
      unfold cyclePayloads
      rw [now]

/-- Every cycle publishes the last 50 entries. So each entry between the first and the last
cycle is published exactly once if and only if at most 50 entries come from one cycle to the
next, and exactly 50 once the journal has grown. -/
theorem journal_published_once_iff_paced (c : Collector) (journal : Nat → Entry) (lib : Nat)
    (loader : Option Loader) (first : Cycle) (rest : List Cycle) {m : Type → Type} [Monad m]
    [LawfulMonad m] (publish_fn : String → String → m Bool) (store_fn : String → String → m Unit)
    (grows : ((first :: rest).map Cycle.length).IsChain (· ≤ ·))
    (readable : ∀ p, Readable c (bufferSize loader) (journal p))
    (blank : ∀ j, parseLine c.codec [newline] ≠ .ok j)
    (setting : Setting c journal lib (first :: rest) loader) :
    let collected := cycles c journal lib (first :: rest) loader
    let lengths := (first :: rest).map Cycle.length
    run publish_fn store_fn c.codec c.device_id collected =
        offerAll publish_fn store_fn (topicFor TOPIC_LOGS_FMT c.device_id)
          ((published c collected).map c.codec.render) ∧
      ((published c collected).flatMap items).filterMap report =
        (seen 50 lengths).map (fun p => (journal p).report c) ∧
      ((∀ p, first.length ≤ p → p < (rest.map Cycle.length).getLastD first.length →
          (seen 50 lengths).count p = 1) ↔ lengths.IsChain (Paced 50 first.length)) := by
  intro collected lengths
  obtain ⟨reports, valid⟩ := cycles_report blank readable setting
  refine ⟨?_, ?_, seen_once_iff grows⟩
  · rw [run_offers, payloads_published valid]
  · rw [reports_published, reports]

def noteJson (message : String) : Json := .obj [("MESSAGE", .text message)]

def note (message : String) : Entry where
  line := bytes (plainText (noteJson message))
  json := noteJson message
  message := message.toByteArray
  priority := 6

/-- A journal of a boot, a login, and logouts. -/
def notes (p : Nat) : Entry :=
  if p = 0 then note "boot" else if p = 1 then note "login" else note "logout"

def identJson (ident : String) : Json := .obj [("ident", .text ident)]

/-- What the journal reader returns at this length. -/
def noteArray (length : Nat) : Json :=
  .arr ((window 50 length).map fun p => pluginItem ((notes p).fields "system"))

/-- The documents of the samples, as they are printed and as lines. -/
def noteTexts : List (Bytes × Json) :=
  [noteArray 3, noteArray 1, noteJson "boot", noteJson "login", noteJson "logout",
    identJson "system", identJson "syslog_plugin"].flatMap fun j =>
      [(bytes (plainText j), j), (bytes (plainText j) ++ [newline], j)]

theorem noteTexts_wellEncoded : ∀ p ∈ noteTexts, p.2.wellEncoded = true := by
  decide +kernel

def noteCollector : Collector where
  codec := table noteTexts noteTexts_wellEncoded
  device_id := "d1"
  log_levels := ["INFO".toByteArray]

theorem notes_readable {size : Nat} (large : 64 ≤ size) (p : Nat) :
    Readable noteCollector size (notes p) := by
  have info : levelAllowed noteCollector (mapLevel 6).toByteArray = true := rfl
  have priority : ∃ prio, Except.ok (ε := Exn) "6".toByteArray = .ok prio ∧
      stoi prio.data.toList = .ok 6 := ⟨_, rfl, rfl⟩
  unfold notes
  split
  · have short : (note "boot").line.length ≤ 18 := by decide
    exact ⟨by decide, by omega, rfl, rfl, rfl, rfl, fun default => ⟨default, rfl⟩, priority, info⟩
  · split
    · have short : (note "login").line.length ≤ 19 := by decide
      exact ⟨by decide, by omega, rfl, rfl, rfl, rfl, fun default => ⟨default, rfl⟩, priority,
        info⟩
    · have short : (note "logout").line.length ≤ 20 := by decide
      exact ⟨by decide, by omega, rfl, rfl, rfl, rfl, fun default => ⟨default, rfl⟩, priority,
        info⟩

theorem note_blank (j : Json) : parseLine noteCollector.codec [newline] ≠ .ok j := by
  intro parsed
  cases parsed

def noteCycle (length : Nat) : Cycle where
  length := length
  now _ := "2025-01-01T00:00:00Z"
  collect _ := .null

/-- The disk plugin, which has nothing to report, and the journal reader. -/
def noteLoader : Loader :=
  ⟨[⟨"disk".toByteArray, "1.0.0".toByteArray, some 0, 0⟩,
    ⟨"syslog_collector".toByteArray, "1.0.0".toByteArray, some 1, 1⟩], 2, [0, 1], []⟩

/-- Two cycles before the journal grows, and one after. -/
def noteCycles : List Cycle := [noteCycle 1, noteCycle 1, noteCycle 3]

theorem mem_noteCycles {x : Cycle} (mem : x ∈ noteCycles) : x = noteCycle 1 ∨ x = noteCycle 3 := by
  simp only [noteCycles, List.mem_cons, List.not_mem_nil, or_false] at mem
  rcases mem with rfl | rfl | rfl
  · exact .inl rfl
  · exact .inl rfl
  · exact .inr rfl

set_option maxRecDepth 2000 in
theorem noteLoader_hosted : Hosted noteCollector notes 1 noteLoader noteCycles := by
  refine ⟨⟨_, rfl⟩, by decide, fun x mem p loaded other e given => ?_, fun x mem => ?_⟩
  · have silent : x.collect p.lib = .null := by
      rcases mem_noteCycles mem with rfl | rfl <;> rfl
    unfold yields at given
    rw [silent] at given
    cases given
  · rcases mem_noteCycles mem with rfl | rfl
    · exact ⟨rfl, by decide +kernel, nofun⟩
    · exact ⟨rfl, by decide +kernel, nofun⟩

/-- The first entry is published by all cycles, and those that come after the first cycle by the
last one only. -/
theorem new_entries_published_once :
    let collected := cycles noteCollector notes 1 noteCycles (some noteLoader)
    ((published noteCollector collected).flatMap items).filterMap report =
        ["boot", "boot", "boot", "login", "logout"].map (fun message =>
          (note message).report noteCollector) ∧
      ∀ p, 1 ≤ p → p < 3 → (seen 50 [1, 1, 3]).count p = 1 := by
  have grows : [1, 1, 3].IsChain (· ≤ ·) := by simp
  have paced : [1, 1, 3].IsChain (Paced 50 1) := by simp [Paced]
  have all := journal_published_once_iff_paced noteCollector notes 1 (some noteLoader)
    (noteCycle 1) [noteCycle 1, noteCycle 3] (m := Id) (fun _ _ => true) (fun _ _ => ()) grows
    (notes_readable (by decide)) note_blank noteLoader_hosted
  exact ⟨all.2.1, all.2.2.mpr paced⟩

/-- The second entry is written between the first cycle and the last one, and published by the
last two. -/
theorem second_entry_published_twice :
    let collected := cycles noteCollector notes 0 [noteCycle 1, noteCycle 2, noteCycle 2] none
    let reports := ((published noteCollector collected).flatMap items).filterMap report
    reports = ["boot", "boot", "login", "boot", "login"].map (fun message =>
        (note message).report noteCollector) ∧
      (noteCycle 1).length ≤ 1 ∧ 1 < (noteCycle 2).length ∧
      reports.count ((notes 1).report noteCollector) = 2 ∧ (seen 50 [1, 2, 2]).count 1 = 2 := by
  intro collected reports
  have same : reports = ["boot", "boot", "login", "boot", "login"].map (fun message =>
      (note message).report noteCollector) := by
    have setting : Setting noteCollector notes 0 [noteCycle 1, noteCycle 2, noteCycle 2] none :=
      trivial
    have reported : (collected.flatMap fun d => d.entries.filterMap entryReport) =
        (seen 50 [1, 2, 2]).map fun p => (notes p).report noteCollector :=
      (cycles_report note_blank (notes_readable (by decide)) setting).1
    exact (reports_published noteCollector collected).trans reported
  refine ⟨same, by decide, by decide, ?_, by decide⟩
  rw [same]
  decide

end OrbisAgent.Services.JournalWindow
