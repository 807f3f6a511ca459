/- OrbisAgent/Services/LogCollector
   source: src/services/LogCollector.hpp, src/services/LogCollector.cpp
   digest: Collected entries are cut into batches, dumped and offered to publish_fn, and to
   store_fn when it refuses. -/

import OrbisAgent.Constants
import OrbisAgent.Lib.Json

set_option autoImplicit false
set_option relaxedAutoImplicit false

namespace OrbisAgent.Services.LogCollector

open OrbisAgent.Constants (LOG_BATCH_MAX TOPIC_LOGS_FMT topicFor)
open OrbisAgent.Lib.Json

structure LogEntry where
  device_id : ByteArray
  timestamp : ByteArray
  level : ByteArray
  source : ByteArray
  message : ByteArray
  metadata_json : ByteArray

/-- What one cycle collects: from the plugins when there is a plugin loader, and
from the operating system otherwise. -/
structure Collected where
  fromPlugins : Option (List LogEntry)
  fromSystem : List LogEntry

def Collected.entries (c : Collected) : List LogEntry :=
  match c.fromPlugins with
  | some entries => entries
  | none => c.fromSystem

def batchItem (codec : Codec) (e : LogEntry) : Json :=
  -- text that does not parse is replaced by an empty object
  let metadata := match codec.parse e.metadata_json with
    | .ok j => j
    | .error _ => .obj []
  .obj [("device_id", .str e.device_id), ("level", .str e.level), ("message", .str e.message),
    ("metadata", metadata), ("source", .str e.source), ("timestamp", .str e.timestamp)]

def batchJson (codec : Codec) (batch : List LogEntry) : Json :=
  .arr (batch.map (batchItem codec))

/-- The ranges `start .. end` of the batch loop. -/
def batches : List LogEntry → List (List LogEntry)
  | [] => []
  | e :: entries =>
      (e :: entries).take LOG_BATCH_MAX :: batches ((e :: entries).drop LOG_BATCH_MAX)
termination_by entries => entries.length
decreasing_by
  simp only [List.length_drop, List.length_cons, LOG_BATCH_MAX]
  omega

section Publishing

variable {m : Type → Type} [Monad m] (publish_fn : String → String → m Bool)
  (store_fn : String → String → m Unit)

def offer (topic payload : String) : m Unit := do
  if !(← publish_fn topic payload) then
    store_fn topic payload

/-- The batch loop. A `dump()` that throws leaves it, and the batches before it
have been offered. -/
def publishBatches (codec : Codec) (topic : String) : List (List LogEntry) → m (Except Exn Unit)
  | [] => pure (.ok ())
  | batch :: rest =>
      match codec.dump (batchJson codec batch) with
      | .error e => pure (.error e)
      | .ok payload => do
          offer publish_fn store_fn topic payload
          publishBatches codec topic rest

def collectAndPublish (codec : Codec) (device_id : String) (c : Collected) :
    m (Except Exn Unit) :=
  if c.entries.isEmpty then pure (.ok ())
  else publishBatches publish_fn store_fn codec (topicFor TOPIC_LOGS_FMT device_id)
    (batches c.entries)

/-- The cycles of the collector thread. An exception ends its cycle only. -/
def run (codec : Codec) (device_id : String) : List Collected → m Unit
  | [] => pure ()
  | c :: rest => do
      let _ ← collectAndPublish publish_fn store_fn codec device_id c
      run codec device_id rest

def offerAll (topic : String) : List String → m Unit
  | [] => pure ()
  | payload :: rest => do
      offer publish_fn store_fn topic payload
      offerAll topic rest

/-- The payloads that a loop over these batches offers. -/
def payloads (codec : Codec) : List (List LogEntry) → List String
  | [] => []
  | batch :: rest =>
      match codec.dump (batchJson codec batch) with
      | .error _ => []
      | .ok payload => payload :: payloads codec rest

/-- The payloads that one cycle offers. -/
def cyclePayloads (codec : Codec) (c : Collected) : List String :=
  payloads codec (batches c.entries)

variable [LawfulMonad m]

theorem offerAll_append (topic : String) (first second : List String) :
    offerAll publish_fn store_fn topic (first ++ second) = (do
      offerAll publish_fn store_fn topic first
      offerAll publish_fn store_fn topic second) := by
  induction first with
  | nil => simp [offerAll]
  | cons payload first ih => simp [offerAll, ih]

theorem publishBatches_offers (codec : Codec) (topic : String) (bs : List (List LogEntry))
    {α : Type} (next : m α) :
    (do let _ ← publishBatches publish_fn store_fn codec topic bs; next) = (do
      offerAll publish_fn store_fn topic (payloads codec bs)
      next) := by
  induction bs with
  | nil => simp [publishBatches, payloads, offerAll]
  | cons batch rest ih =>
      simp only [publishBatches, payloads]
      cases codec.dump (batchJson codec batch) with
      | error e => simp [offerAll]
      | ok payload =>
          simp only [offerAll, bind_assoc]
          exact congrArg _ (funext fun _ => ih)

theorem collectAndPublish_offers (codec : Codec) (device_id : String) (c : Collected) {α : Type}
    (next : m α) :
    (do let _ ← collectAndPublish publish_fn store_fn codec device_id c; next) = (do
      offerAll publish_fn store_fn (topicFor TOPIC_LOGS_FMT device_id) (cyclePayloads codec c)
      next) := by
  unfold collectAndPublish
  split
  · rename_i empty
    have none : c.entries = [] := List.isEmpty_iff.mp empty
    simp [cyclePayloads, none, batches, payloads, offerAll]
  · exact publishBatches_offers publish_fn store_fn codec _ _ next

/-- The collector thread offers the payloads of its cycles in order. -/
theorem run_offers (codec : Codec) (device_id : String) (cycles : List Collected) :
    run publish_fn store_fn codec device_id cycles =
      offerAll publish_fn store_fn (topicFor TOPIC_LOGS_FMT device_id)
        (cycles.flatMap (cyclePayloads codec)) := by
  induction cycles with
  | nil => rfl
  | cons c rest ih =>
      rw [List.flatMap_cons, offerAll_append, ← ih]
      exact collectAndPublish_offers publish_fn store_fn codec device_id c _

end Publishing

end OrbisAgent.Services.LogCollector
