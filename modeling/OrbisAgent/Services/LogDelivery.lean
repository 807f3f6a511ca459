/- OrbisAgent/Services/LogDelivery
   source: main (publish, store_fn and log_publish lambdas), LogCollector, LocalBuffer
   digest: Log batches through the collector, the publish lambda and the buffer, followed by a
   flush: delivered once exactly when no publish fails. -/

import OrbisAgent.Buffer.LocalBuffer
import OrbisAgent.Services.LogCollector
import Mathlib.Data.List.Count

set_option autoImplicit false
set_option relaxedAutoImplicit false

namespace OrbisAgent.Services.LogDelivery

open OrbisAgent.Buffer.LocalBuffer
open OrbisAgent.Constants (BUFFER_MAX_MESSAGES LOG_BATCH_MAX TOPIC_LOGS_FMT topicFor)
open OrbisAgent.Lib.IdTable (Row Table)
open OrbisAgent.Lib.Json
open OrbisAgent.Lib.Transition
open OrbisAgent.Services.LogCollector

/-- A message with the number of the log batch it carries, if it carries one. The
number is for the statements only. -/
structure Sent where
  batch : Option Nat
  message : Message
  deriving DecidableEq

/-- What is buffered and what was delivered, after one step. -/
structure Moment where
  table : Table Sent
  delivered : List Sent

def Moment.all (s : Moment) : List Sent := s.delivered ++ s.table.rows.map Row.msg

/-- The buffer, the messages that `mqtt->publish` accepted, the number of log
batches it was called for, and a record of the states after each step. -/
structure Uplink where
  table : Table Sent
  delivered : List Sent
  attempts : Nat
  moments : List Moment

def Uplink.start (t : Table Sent) : Uplink := ⟨t, [], 0, []⟩

def Uplink.mark (w : Uplink) : Uplink :=
  { w with moments := w.moments ++ [⟨w.table, w.delivered⟩] }

/-- The outcome of `mqtt->publish` for each batch. -/
abbrev Link := Nat → Bool

def mqttPublish (link : Link) (topic payload : String) : StateM Uplink Bool := do
  let w ← get
  if link w.attempts then
    let sent : Sent := ⟨some w.attempts, ⟨topic, payload⟩⟩
    set { w with delivered := w.delivered ++ [sent], attempts := w.attempts + 1 }.mark
    return true
  else
    set { w with attempts := w.attempts + 1 }.mark
    return false

/-- `buffer->store`; the message is the batch that was tried last. -/
def bufferStore (topic payload : String) : StateM Uplink Unit :=
  modify fun w =>
    { w with table := store noStoreFaults ⟨some (w.attempts - 1), ⟨topic, payload⟩⟩ w.table }.mark

/-- The `publish` lambda of main, which is also `log_publish`. -/
def publish (link : Link) (topic payload : String) : StateM Uplink Bool := do
  if ← mqttPublish link topic payload then
    return true
  bufferStore topic payload
  return false

/-- The collector thread over all its cycles, wired as in main. -/
def deliver (codec : Codec) (link : Link) (device_id : String) (t : Table Sent)
    (cycles : List Collected) : Uplink :=
  (StateT.run (run (publish link) bufferStore codec device_id cycles) (Uplink.start t)).2

/-- The number of batches that the cycles offer. -/
def batchCount (codec : Codec) (cycles : List Collected) : Nat :=
  (cycles.flatMap (cyclePayloads codec)).length

def copies (k : Nat) (sent : List Sent) : Nat := sent.countP fun s => s.batch == some k

/-- A state of the final flush: what was delivered so far and the rows left. -/
def Uplink.during (w : Uplink) (d : Solo Sent) : Moment :=
  ⟨d.table, w.delivered ++ acceptedMessages d.handed⟩

/-- At most one copy of each batch at every moment, before and during the final
flush, and exactly one delivered copy when the flush has returned. -/
structure DeliveredOnce (w : Uplink) : Prop where
  before : ∀ s ∈ w.moments, ∀ k, copies k s.all ≤ 1
  during : ∀ d, Reaches Solo.step AllSucceed (Solo.start w.table) d →
    ∀ k, copies k (w.during d).all ≤ 1
  after : ∃ d n, Reaches Solo.step AllSucceed (Solo.start w.table) d ∧ d.flusher = .done n ∧
    ∀ k, k < w.attempts → copies k (w.during d).delivered = 1

@[simp] theorem copies_append (k : Nat) (first second : List Sent) :
    copies k (first ++ second) = copies k first + copies k second := by
  simp [copies]

@[simp] theorem copies_same (k : Nat) (m : Message) : copies k [(⟨some k, m⟩ : Sent)] = 1 := by
  simp [copies]

theorem copies_of_old {k : Nat} {sent : List Sent} (old : ∀ s ∈ sent, s.batch = none) :
    copies k sent = 0 := by
  refine List.countP_eq_zero.mpr fun s hs => ?_
  rw [old s hs]
  exact Bool.false_ne_true

/-- The state after a batch that `mqtt->publish` accepted. -/
def Uplink.sent (w : Uplink) (m : Message) : Uplink :=
  let sent : Sent := ⟨some w.attempts, m⟩
  { w with delivered := w.delivered ++ [sent], attempts := w.attempts + 1 }.mark

/-- The state after a batch that it refused: two stores, one by the publish lambda
and one by the collector. -/
def Uplink.kept (w : Uplink) (m : Message) : Uplink :=
  let failed := { w with attempts := w.attempts + 1 }.mark
  let once := { failed with table := store noStoreFaults ⟨some w.attempts, m⟩ failed.table }.mark
  { once with table := store noStoreFaults ⟨some w.attempts, m⟩ once.table }.mark

theorem offer_run (link : Link) (topic payload : String) (w : Uplink) :
    StateT.run (offer (publish link) bufferStore topic payload) w =
      ((), if link w.attempts then w.sent ⟨topic, payload⟩ else w.kept ⟨topic, payload⟩) := by
  cases up : link w.attempts with
  | true =>
      simp [offer, publish, mqttPublish, up, Uplink.sent]
      rfl
  | false =>
      simp [offer, publish, mqttPublish, bufferStore, up, Uplink.kept, Uplink.mark]
      rfl

private theorem copies_of_range {k n : Nat} {sent : List Sent}
    (numbers : sent.map Sent.batch = (List.range n).map some) :
    copies k sent = if k < n then 1 else 0 := by
  have counted : copies k sent = (sent.map Sent.batch).count (some k) := by
    simp only [copies, List.count, List.countP_map]
    rfl
  have injective : Function.Injective (some : Nat → Option Nat) := fun _ _ => Option.some.inj
  rw [counted, numbers, List.count_map_of_injective _ _ injective,
    List.Nodup.count List.nodup_range]
  simp only [List.mem_range]

/-- No batch was refused so far: the buffer is untouched and the batches were
delivered in order. -/
structure Clean (t : Table Sent) (w : Uplink) : Prop where
  table : w.table = t
  numbers : w.delivered.map Sent.batch = (List.range w.attempts).map some
  moments : ∀ s ∈ w.moments, s.table = t ∧
    ∃ n, s.delivered.map Sent.batch = (List.range n).map some

theorem clean_start (t : Table Sent) : Clean t (Uplink.start t) where
  table := rfl
  numbers := rfl
  moments _ hs := by cases hs

theorem clean_sent {t : Table Sent} {w : Uplink} (clean : Clean t w) (m : Message) :
    Clean t (w.sent m) := by
  have numbers : (w.delivered ++ [(⟨some w.attempts, m⟩ : Sent)]).map Sent.batch =
      (List.range (w.attempts + 1)).map some := by
    rw [List.map_append, clean.numbers, List.range_succ, List.map_append]
    rfl
  refine ⟨clean.table, numbers, fun s hs => ?_⟩
  rcases List.mem_append.mp hs with old | new
  · exact clean.moments s old
  · obtain rfl := List.mem_singleton.mp new
    exact ⟨clean.table, _, numbers⟩

/-- A moment at which some batch occurs twice. -/
def Doubled (w : Uplink) : Prop := ∃ s ∈ w.moments, ∃ k, 2 ≤ copies k s.all

/-- Recorded moments are never dropped. -/
theorem doubled_offer {link : Link} {topic payload : String} {w : Uplink} (twice : Doubled w) :
    Doubled (StateT.run (offer (publish link) bufferStore topic payload) w).2 := by
  obtain ⟨s, hs, k, copied⟩ := twice
  refine ⟨s, ?_, k, copied⟩
  rw [offer_run]
  split
  · exact List.mem_append_left _ hs
  · exact List.mem_append_left _ (List.mem_append_left _ (List.mem_append_left _ hs))

/-- A refused batch is stored twice. -/
theorem kept_table {w : Uplink} (room : w.table.count + 2 ≤ BUFFER_MAX_MESSAGES) (m : Message) :
    (w.kept m).table = (w.table.insert ⟨some w.attempts, m⟩).insert ⟨some w.attempts, m⟩ := by
  let row : Sent := ⟨some w.attempts, m⟩
  have first : store noStoreFaults row w.table = w.table.insert row :=
    store_below row (by omega)
  have second : store noStoreFaults row (w.table.insert row) = (w.table.insert row).insert row := by
    refine store_below row ?_
    simp only [Table.count, Table.insert_rows, List.length_append, List.length_singleton]
    unfold Table.count at room
    omega
  show store noStoreFaults row (store noStoreFaults row w.table) = _
  rw [first, second]

theorem doubled_kept {w : Uplink} (room : w.table.count + 2 ≤ BUFFER_MAX_MESSAGES) (m : Message) :
    Doubled (w.kept m) := by
  let row : Sent := ⟨some w.attempts, m⟩
  refine ⟨⟨(w.kept m).table, w.delivered⟩, ?_, w.attempts, ?_⟩
  · exact List.mem_append_right _ (List.mem_singleton.mpr rfl)
  · have inserted : (w.kept m).table.rows.map Row.msg =
        w.table.rows.map Row.msg ++ [row] ++ [row] := by
      rw [kept_table room m]
      simp [row, Table.newRow]
    have one : copies w.attempts [row] = 1 := copies_same _ _
    simp only [Moment.all, inserted, copies_append]
    omega

private theorem offerAll_cons (link : Link) (topic payload : String) (rest : List String)
    (w : Uplink) :
    StateT.run (offerAll (publish link) bufferStore topic (payload :: rest)) w =
      StateT.run (offerAll (publish link) bufferStore topic rest)
        (StateT.run (offer (publish link) bufferStore topic payload) w).2 := rfl

private theorem doubled_offerAll {link : Link} {topic : String} (payloads : List String)
    {w : Uplink} (twice : Doubled w) :
    Doubled (StateT.run (offerAll (publish link) bufferStore topic payloads) w).2 := by
  induction payloads generalizing w with
  | nil => exact twice
  | cons payload rest ih =>
      rw [offerAll_cons]
      exact ih (doubled_offer twice)

/-- Whole runs: clean as long as no batch is refused, doubled from the first
refused batch on. -/
theorem offerAll_clean_or_doubled {t : Table Sent} (room : t.count + 2 ≤ BUFFER_MAX_MESSAGES)
    (link : Link) (topic : String) (payloads : List String) {w : Uplink} (clean : Clean t w) :
    let w' := (StateT.run (offerAll (publish link) bufferStore topic payloads) w).2
    ((∀ k, w.attempts ≤ k → k < w.attempts + payloads.length → link k = true) →
      Clean t w' ∧ w'.attempts = w.attempts + payloads.length) ∧
    ((∃ k, w.attempts ≤ k ∧ k < w.attempts + payloads.length ∧ link k = false) → Doubled w') := by
  induction payloads generalizing w with
  | nil =>
      refine ⟨fun _ => ⟨clean, rfl⟩, ?_⟩
      rintro ⟨k, low, high, _⟩
      simp only [List.length_nil] at high
      omega
  | cons payload rest ih =>
      simp only [offerAll_cons, offer_run, List.length_cons]
      by_cases up : link w.attempts = true
      · rw [if_pos up]
        have next := ih (clean_sent clean ⟨topic, payload⟩)
        have moved : (w.sent ⟨topic, payload⟩).attempts = w.attempts + 1 := rfl
        rw [moved] at next
        constructor
        · intro all
          have tail := next.1 fun k low high => all k (by omega) (by omega)
          exact ⟨tail.1, by omega⟩
        · rintro ⟨k, low, high, down⟩
          have later : k ≠ w.attempts := by
            rintro rfl
            rw [up] at down
            cases down
          exact next.2 ⟨k, by omega, by omega, down⟩
      · rw [if_neg up]
        constructor
        · intro all
          exact absurd (all w.attempts (Nat.le_refl _) (by omega)) up
        · intro _
          have room' : w.table.count + 2 ≤ BUFFER_MAX_MESSAGES := clean.table ▸ room
          exact doubled_offerAll rest (doubled_kept room' _)

/-- A flush of old rows neither delivers nor keeps a log batch. -/
private theorem copies_during {t : Table Sent} (old : ∀ r ∈ t.rows, r.msg.batch = none)
    {d : Solo Sent} (run : Reaches Solo.step AllSucceed (Solo.start t) d) (k : Nat) :
    copies k (acceptedMessages d.handed) = 0 ∧ copies k (d.table.rows.map Row.msg) = 0 := by
  have within := solo_within run
  constructor
  · apply copies_of_old
    intro s hs
    obtain ⟨call, hc, rfl⟩ := List.mem_map.mp hs
    exact old _ (within.calls call (List.mem_filter.mp hc).1)
  · apply copies_of_old
    intro s hs
    obtain ⟨r, hr, rfl⟩ := List.mem_map.mp hs
    exact old r (within.rows r hr)

private theorem deliveredOnce_of_clean {t : Table Sent} {w : Uplink}
    (old : ∀ r ∈ t.rows, r.msg.batch = none) (clean : Clean t w) : DeliveredOnce w where
  before s hs k := by
    obtain ⟨table, n, numbers⟩ := clean.moments s hs
    have buffered : copies k (s.table.rows.map Row.msg) = 0 := by
      refine copies_of_old fun sent hsent => ?_
      obtain ⟨r, hr, rfl⟩ := List.mem_map.mp hsent
      exact old r (table ▸ hr)
    rw [Moment.all, copies_append, copies_of_range numbers, buffered]
    split <;> omega
  during d run k := by
    rw [clean.table] at run
    obtain ⟨accepted, left⟩ := copies_during old run k
    simp only [Moment.all, Uplink.during, copies_append, copies_of_range clean.numbers, accepted,
      left]
    split <;> omega
  after := by
    obtain rfl := clean.table
    obtain ⟨t', _, run⟩ := solo_drains w.table 0 []
    refine ⟨_, _, run, rfl, fun k low => ?_⟩
    obtain ⟨accepted, _⟩ := copies_during old run k
    simp only [Uplink.during, copies_append, copies_of_range clean.numbers, accepted, if_pos low]

private theorem deliver_run (codec : Codec) (link : Link) (device_id : String) (t : Table Sent)
    (cycles : List Collected) :
    deliver codec link device_id t cycles =
      (StateT.run (offerAll (publish link) bufferStore (topicFor TOPIC_LOGS_FMT device_id)
        (cycles.flatMap (cyclePayloads codec))) (Uplink.start t)).2 := by
  unfold deliver
  rw [run_offers]

/-- Each log batch is delivered exactly once, and never duplicated on the way, if
and only if `mqtt->publish` accepts every batch. -/
theorem delivered_once_iff_no_publish_fails (codec : Codec) (link : Link) (device_id : String)
    (t : Table Sent) (cycles : List Collected) (old : ∀ r ∈ t.rows, r.msg.batch = none)
    (room : t.count + 2 ≤ BUFFER_MAX_MESSAGES) :
    DeliveredOnce (deliver codec link device_id t cycles) ↔
      ∀ k, k < batchCount codec cycles → link k = true := by
  have cases := offerAll_clean_or_doubled room link (topicFor TOPIC_LOGS_FMT device_id)
    (cycles.flatMap (cyclePayloads codec)) (clean_start t)
  rw [← deliver_run codec link device_id t cycles] at cases
  obtain ⟨clean, doubled⟩ := cases
  have zero : (Uplink.start t).attempts = 0 := rfl
  simp only [zero, Nat.zero_add, Nat.zero_le, true_implies, true_and] at clean doubled
  constructor
  · intro once k low
    by_contra down
    obtain ⟨s, hs, j, copied⟩ := doubled ⟨k, low, by simpa using down⟩
    have single := once.before s hs j
    omega
  · intro up
    exact deliveredOnce_of_clean old (clean up).1

def oneEntry : LogEntry where
  device_id := "d1".toByteArray
  timestamp := "2025-01-01T00:00:00Z".toByteArray
  level := "INFO".toByteArray
  source := "app".toByteArray
  message := "started".toByteArray
  metadata_json := "\x7b\x7d".toByteArray

def oneCycle : Collected := ⟨some [oneEntry], []⟩

def onePayload : String :=
  "[\x7b\"device_id\":\"d1\",\"level\":\"INFO\",\"message\":\"started\",\"metadata\":\x7b\x7d," ++
    "\"source\":\"app\",\"timestamp\":\"2025-01-01T00:00:00Z\"\x7d]"

/-- Parsing and printing on the sample entry. -/
def oneCodec : Codec where
  parse s :=
    if s = "\x7b\x7d".toByteArray then .ok (.obj [])
    else .error ⟨.parse_error, "parse error"⟩
  render _ := onePayload
  badEncoding _ := ⟨.other, "[json.exception.type_error.316] invalid UTF-8 byte"⟩
  wellEncoded_of_parse s j parsed := by
    split at parsed <;> cases parsed
    rfl

private theorem onePayload_offered :
    [oneCycle].flatMap (cyclePayloads oneCodec) = [onePayload] := by
  have once : batches [oneEntry] = [[oneEntry]] := by
    simp [batches, LOG_BATCH_MAX]
  have valid : (batchJson oneCodec [oneEntry]).wellEncoded = true := by
    simp [batchJson, batchItem, oneEntry, oneCodec]
  simp [oneCycle, cyclePayloads, Collected.entries, once, payloads, valid]
  rfl

theorem delivered_once_when_link_is_up :
    batchCount oneCodec [oneCycle] = 1 ∧
      DeliveredOnce (deliver oneCodec (fun _ => true) "d1" Table.empty [oneCycle]) := by
  have none : ∀ r ∈ (Table.empty : Table Sent).rows, r.msg.batch = none := by
    intro r hr
    cases hr
  refine ⟨by rw [batchCount, onePayload_offered]; rfl, ?_⟩
  exact (delivered_once_iff_no_publish_fails oneCodec _ "d1" Table.empty [oneCycle] none
    (by decide)).mpr fun _ _ => rfl

/-- One refused publish: the batch is stored twice, and the flush delivers both. -/
theorem refused_batch_is_delivered_twice :
    let w := deliver oneCodec (fun k => k != 0) "d1" Table.empty [oneCycle]
    (∃ d, Reaches Solo.step AllSucceed (Solo.start w.table) d ∧ d.flusher = .done 2 ∧
      copies 0 (w.during d).delivered = 2) ∧ ¬ DeliveredOnce w := by
  intro w
  let m : Message := ⟨"devices/d1/logs", onePayload⟩
  have room : (Uplink.start Table.empty).table.count + 2 ≤ BUFFER_MAX_MESSAGES := by decide
  have kept : w = (Uplink.start Table.empty).kept m := by
    show deliver oneCodec (fun k => k != 0) "d1" Table.empty [oneCycle] = _
    rw [deliver_run, onePayload_offered, offerAll_cons, offer_run]
    rfl
  have table : w.table = (Table.empty.insert ⟨some 0, m⟩).insert ⟨some 0, m⟩ := by
    rw [kept]
    exact kept_table room m
  refine ⟨?_, fun once => ?_⟩
  · obtain ⟨t', _, run⟩ := solo_drains w.table 0 []
    refine ⟨_, run, ?_, ?_⟩
    · rw [table]
      rfl
    · have nothing : w.delivered = [] := by
        rw [kept]
        rfl
      simp only [Uplink.during, nothing, table]
      rfl
  · obtain ⟨s, hs, k, copied⟩ := doubled_kept room m
    have single := once.before s (kept ▸ hs) k
    omega

end OrbisAgent.Services.LogDelivery
