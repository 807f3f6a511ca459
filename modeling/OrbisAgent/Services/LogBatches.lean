/- OrbisAgent/Services/LogBatches
   source: LogCollector::collectAndPublish
   digest: One cycle offers its entries in full batches and a last one, and stores exactly the
   batches that are refused. -/

import OrbisAgent.Services.LogSources

set_option autoImplicit false
set_option relaxedAutoImplicit false

namespace OrbisAgent.Services.LogBatches

open OrbisAgent.Constants (LOG_BATCH_MAX TOPIC_LOGS_FMT topicFor)
open OrbisAgent.Lib.Json
open OrbisAgent.Services.LogCollector
open OrbisAgent.Services.LogSources

/-- The calls of `publish_fn` and of `store_fn`, with their topics and payloads. -/
structure Calls where
  offered : List (String × String)
  stored : List (String × String)

/-- `answers` lists what `publish_fn` returns, call by call. -/
def publish (answers : Nat → Bool) (topic payload : String) : StateM Calls Bool := do
  let calls ← get
  set { calls with offered := calls.offered ++ [(topic, payload)] }
  return answers calls.offered.length

def store (topic payload : String) : StateM Calls Unit :=
  modify fun calls => { calls with stored := calls.stored ++ [(topic, payload)] }

/-- The calls that were refused, in order; the first call has the given number. -/
def refused (answers : Nat → Bool) (first : Nat) (offered : List (String × String)) :
    List (String × String) :=
  ((offered.zipIdx first).filter fun call => !answers call.2).map Prod.fst

theorem refused_cons (answers : Nat → Bool) (first : Nat) (call : String × String)
    (rest : List (String × String)) :
    refused answers first (call :: rest) =
      refused answers first [call] ++ refused answers (first + 1) rest := by
  unfold refused
  rw [List.zipIdx_cons, ← List.singleton_append, List.filter_append, List.map_append]
  rfl

theorem run_offer (answers : Nat → Bool) (topic payload : String) (calls : Calls) :
    (offer (publish answers) store topic payload).run calls =
      ((), ⟨calls.offered ++ [(topic, payload)],
        calls.stored ++ refused answers calls.offered.length [(topic, payload)]⟩) := by
  cases answer : answers calls.offered.length with
  | true =>
      simp [offer, publish, refused, answer]
      rfl
  | false =>
      simp [offer, publish, store, refused, answer]
      rfl

/-- Every payload is offered once, and stored if it is refused. -/
theorem run_offerAll (answers : Nat → Bool) (topic : String) (payloads : List String)
    (calls : Calls) :
    (offerAll (publish answers) store topic payloads).run calls =
      ((), ⟨calls.offered ++ payloads.map (topic, ·),
        calls.stored ++ refused answers calls.offered.length (payloads.map (topic, ·))⟩) := by
  induction payloads generalizing calls with
  | nil =>
      simp [offerAll, refused]
      rfl
  | cons payload rest ih =>
      unfold offerAll
      rw [StateT.run_bind, run_offer]
      change (offerAll (publish answers) store topic rest).run _ = _
      rw [ih, List.map_cons, refused_cons answers _ (topic, payload) (rest.map (topic, ·))]
      simp

/-- The loop over batches that all dump offers them all and returns. -/
theorem publishBatches_of_encoded {m : Type → Type} [Monad m] [LawfulMonad m]
    (publish_fn : String → String → m Bool) (store_fn : String → String → m Unit) (codec : Codec)
    (topic : String) {bs : List (List LogEntry)}
    (encoded : ∀ b ∈ bs, (batchJson codec b).wellEncoded = true) :
    publishBatches publish_fn store_fn codec topic bs = (do
      offerAll publish_fn store_fn topic ((bs.map (batchJson codec)).map codec.render)
      pure (.ok ())) := by
  induction bs with
  | nil => simp [publishBatches, offerAll]
  | cons b rest ih =>
      have later := ih fun b' mem => encoded b' (List.mem_cons_of_mem b mem)
      simp only [publishBatches, Codec.dump_of_wellEncoded codec (encoded b List.mem_cons_self),
        List.map_cons, offerAll, later, bind_assoc]

/-- Batches are not empty and not too long, and only the last one may be short. -/
theorem batches_sizes (entries : List LogEntry) :
    (∀ b ∈ batches entries, 1 ≤ b.length ∧ b.length ≤ LOG_BATCH_MAX) ∧
      ∀ b ∈ (batches entries).dropLast, b.length = LOG_BATCH_MAX := by
  have limit : LOG_BATCH_MAX = 100 := rfl
  induction entries using batches.induct with
  | case1 =>
      rw [batches]
      exact ⟨fun b mem => absurd mem List.not_mem_nil, fun b mem => absurd mem List.not_mem_nil⟩
  | case2 e entries ih =>
      rw [batches]
      refine ⟨fun b mem => ?_, fun b mem => ?_⟩
      · rcases List.mem_cons.mp mem with rfl | later
        · rw [List.length_take, List.length_cons]
          omega
        · exact ih.1 b later
      · cases rest : batches ((e :: entries).drop LOG_BATCH_MAX) with
        | nil =>
            rw [rest] at mem
            cases mem
        | cons b' bs =>
            rw [rest, List.dropLast_cons_cons] at mem
            rcases List.mem_cons.mp mem with rfl | later
            · -- another batch follows, so there were entries beyond this one
              have more : (e :: entries).drop LOG_BATCH_MAX ≠ [] := by
                intro none
                rw [none, batches] at rest
                cases rest
              have long := List.length_pos_iff.mpr more
              rw [List.length_drop] at long
              rw [List.length_take]
              omega
            · apply ih.2
              rw [rest]
              exact later

/-- For every list of valid entries and all answers of `publish_fn`, one cycle offers arrays of
up to `LOG_BATCH_MAX` items, all full but the last, which hold the entries in order, and stores
the refused ones. -/
theorem cycle_offers_batches (codec : Codec) (device_id : String) (c : Collected)
    (answers : Nat → Bool) (valid : ∀ e ∈ c.entries, Valid e) :
    ∃ docs : List Json,
      (collectAndPublish (publish answers) store codec device_id c).run ⟨[], []⟩ =
        (.ok (), ⟨docs.map fun d => (topicFor TOPIC_LOGS_FMT device_id, codec.render d),
          refused answers 0
            (docs.map fun d => (topicFor TOPIC_LOGS_FMT device_id, codec.render d))⟩) ∧
      (∀ d ∈ docs, ∃ its, d = .arr its ∧ 1 ≤ its.length ∧ its.length ≤ LOG_BATCH_MAX) ∧
      (∀ d ∈ docs.dropLast, ∃ its, d = .arr its ∧ its.length = LOG_BATCH_MAX) ∧
      docs.flatMap items = c.entries.map (batchItem codec) := by
  refine ⟨documents codec c.entries, ?_, ?_, ?_, items_documents codec c.entries⟩
  · unfold collectAndPublish
    split
    · rename_i empty
      have none : documents codec c.entries = [] := by
        rw [List.isEmpty_iff.mp empty, documents, batches]
        rfl
      rw [none]
      rfl
    · rw [publishBatches_of_encoded _ _ codec _ fun b mem =>
        wellEncoded_batchJson codec (valid_of_batches valid mem), StateT.run_bind, run_offerAll]
      unfold documents
      simp
      rfl
  · intro d mem
    obtain ⟨b, here, rfl⟩ := List.mem_map.mp mem
    have sizes := (batches_sizes c.entries).1 b here
    refine ⟨b.map (batchItem codec), rfl, ?_⟩
    rwa [List.length_map]
  · intro d mem
    unfold documents at mem
    rw [← List.map_dropLast] at mem
    obtain ⟨b, here, rfl⟩ := List.mem_map.mp mem
    refine ⟨b.map (batchItem codec), rfl, ?_⟩
    rw [List.length_map]
    exact (batches_sizes c.entries).2 b here

/-- An entry whose metadata is not JSON. -/
def plainEntry : LogEntry where
  device_id := "d1".toByteArray
  timestamp := "2025-01-01T00:00:00Z".toByteArray
  level := "INFO".toByteArray
  source := "disk".toByteArray
  message := "disk full".toByteArray
  metadata_json := "not json".toByteArray

theorem broken_metadata_is_offered :
    let codec := Codec.plain [] nofun
    ∃ docs : List Json,
      (collectAndPublish (publish fun _ => false) store codec "d1"
        ⟨some [plainEntry, plainEntry], []⟩).run ⟨[], []⟩ =
        (.ok (), ⟨docs.map fun d => (topicFor TOPIC_LOGS_FMT "d1", codec.render d),
          refused (fun _ => false) 0
            (docs.map fun d => (topicFor TOPIC_LOGS_FMT "d1", codec.render d))⟩) ∧
      (∀ d ∈ docs, ∃ its, d = .arr its ∧ 1 ≤ its.length ∧ its.length ≤ LOG_BATCH_MAX) ∧
      (∀ d ∈ docs.dropLast, ∃ its, d = .arr its ∧ its.length = LOG_BATCH_MAX) ∧
      docs.flatMap items = [batchItem codec plainEntry, batchItem codec plainEntry] := by
  intro codec
  have valid : ∀ e ∈ [plainEntry, plainEntry], Valid e := by
    intro e mem
    have same : e = plainEntry := by simpa using mem
    rw [same]
    simp [Valid, plainEntry]
  exact cycle_offers_batches codec "d1" ⟨some [plainEntry, plainEntry], []⟩ (fun _ => false) valid

end OrbisAgent.Services.LogBatches
