/- OrbisAgent/Services/Acknowledgement
   source: CommandExecutor::executeCommand and its handlers
   digest: The first result of a command is its acknowledgement, for exactly the commands whose
   type and timeout can be read. -/

import OrbisAgent.Services.CommandResults

set_option autoImplicit false
set_option relaxedAutoImplicit false

namespace OrbisAgent.Services.Acknowledgement

open OrbisAgent.Lib.Json
open OrbisAgent.Lib.Trace
open OrbisAgent.Services.CommandExecutor
open OrbisAgent.Services.CommandResults

/-- The acknowledgement, then at most one `executing`, then at most one terminal statut. -/
def InLifecycle (ss : List Statut) : Prop :=
  ∃ executing terminal, ss = .acknowledged :: (executing ++ terminal) ∧
    (executing = [] ∨ executing = [.executing]) ∧
    (terminal = [] ∨ ∃ s : Statut, s.terminal = true ∧ terminal = [s])

theorem inLifecycle_of_ending {ss : List Statut} (ending : Ending ss) :
    InLifecycle (.acknowledged :: ss) := by
  obtain ⟨s, ended, rfl | rfl⟩ := ending
  · exact ⟨[], [s], rfl, .inl rfl, .inr ⟨s, ended, rfl⟩⟩
  · exact ⟨[.executing], [s], rfl, .inr rfl, .inr ⟨s, ended, rfl⟩⟩

/-- The failure that the exception handler reports closes the lifecycle. -/
theorem inLifecycle_of_opening {ss : List Statut} (opening : Opening ss) :
    InLifecycle (.acknowledged :: ss ++ [.failed]) := by
  rcases opening with rfl | rfl
  · exact ⟨[], [.failed], rfl, .inl rfl, .inr ⟨.failed, rfl, rfl⟩⟩
  · exact ⟨[.executing], [.failed], rfl, .inr rfl, .inr ⟨.failed, rfl, rfl⟩⟩

theorem not_inLifecycle_failed : ¬ InLifecycle [.failed] := by
  rintro ⟨executing, terminal, same, _⟩
  cases same

/-- For every command with an id, whatever its other fields, the results begin with the
acknowledgement and keep to the lifecycle if and only if its type and timeout can be read. -/
theorem acknowledged_first_iff_header_reads (host : Host) (payload : ByteArray)
    (fields : List (String × Json)) (id : ByteArray) (w : World)
    (parsed : host.codec.parse payload = .ok (.obj fields))
    (named : fields.lookup "command_id" = some (.str id)) (nonempty : id.isEmpty = false) :
    ∃ w' results statuts, (executeCommand host payload).exec w = (.ok (), w') ∧
      w'.published = w.published ++ results ∧ Shows id results statuts ∧
      (InLifecycle statuts ↔ headerReads fields = true) := by
  obtain ⟨idValid, read⟩ := readCommandId_of_lookup parsed named
  have emits : Emits World.published (executeCommand host payload)
      (fun _ l => ∃ statuts, Shows id l statuts ∧
        (InLifecycle statuts ↔ headerReads fields = true)) fun _ _ => False := by
    unfold executeCommand
    rw [read]
    have body := dispatch_acknowledges host id fields
    refine Emits.tryCatch (body.weaken (fun _ l done => ?_) fun _ _ stop => stop) fun e l stop => ?_
    · obtain ⟨reads, ss, ending | ⟨rfl, _⟩, shown⟩ := done
      · exact ⟨_, shown, fun _ => reads, fun _ => inLifecycle_of_ending ending⟩
      · exact ⟨_, shown, fun _ => reads, fun _ => ⟨[], [], rfl, .inl rfl, .inl rfl⟩⟩
    · rw [if_neg (by rw [nonempty]; exact Bool.false_ne_true)]
      have report := publishResult_valid host idValid Json.validateUTF8_empty
        (Json.validateUTF8_toByteArray e.what) .failed (-1)
      refine report.weaken (fun _ more failed => ?_) fun _ _ impossible => impossible
      rcases stop with ⟨reads, ss, opening, shown⟩ | ⟨unread, shown⟩
      · exact ⟨_, shown.append failed, fun _ => reads, fun _ => inLifecycle_of_opening opening⟩
      · refine ⟨_, shown.append failed, fun lifecycle => ?_, fun reads => ?_⟩
        · exact absurd lifecycle not_inLifecycle_failed
        · rw [unread idValid] at reads
          cases reads
  obtain ⟨_, w', results, run, grown, statuts, shown, exact⟩ := emits.returns w
  exact ⟨w', results, statuts, run, grown, shown, exact⟩

def noResults : World := ⟨[], [], 0, 0, []⟩

/-- A device that is asked for its information. -/
def infoFields : List (String × Json) := [("command_id", .text "c1"), ("type", .text "get_info")]

theorem infoFields_wellEncoded : ∀ j ∈ [Json.obj infoFields], j.wellEncoded = true := by
  intro j mem
  obtain rfl := List.mem_singleton.mp mem
  simp [infoFields]

def infoHost : Host :=
  { numberTypeHost with codec := Codec.plain [.obj infoFields] infoFields_wellEncoded }

theorem get_info_is_acknowledged_first :
    ∃ w' results statuts,
      (executeCommand infoHost (plainText (.obj infoFields)).toByteArray).exec noResults =
        (.ok (), w') ∧
      w'.published = [] ++ results ∧ Shows "c1".toByteArray results statuts ∧
      (InLifecycle statuts ↔ headerReads infoFields = true) :=
  acknowledged_first_iff_header_reads infoHost (plainText (.obj infoFields)).toByteArray infoFields
    "c1".toByteArray noResults rfl rfl rfl

/-- A command whose type is a number is reported failed without an acknowledgement. -/
theorem number_type_fails_unacknowledged :
    numberTypeHost.codec.parse numberTypePayload = .ok (.obj numberTypeFields) ∧
    numberTypeFields.lookup "command_id" = some (.text "c1") ∧
    ∃ w', (executeCommand numberTypeHost numberTypePayload).exec noResults = (.ok (), w') ∧
      Shows "c1".toByteArray w'.published [.failed] ∧ ¬ InLifecycle [.failed] := by
  have parsed : numberTypeHost.codec.parse numberTypePayload = .ok (.obj numberTypeFields) := by
    simp [numberTypeHost]
  obtain ⟨idValid, read⟩ := readCommandId_of_lookup parsed rfl
  have thrown : (dispatch numberTypeHost (.obj numberTypeFields) "c1".toByteArray).exec noResults =
      (.error ⟨.other, "[json.exception.type_error.302] type must be string, but is number"⟩,
        noResults) := rfl
  obtain ⟨p, shown, published⟩ := exec_publishResult_valid numberTypeHost idValid
    Json.validateUTF8_empty (Json.validateUTF8_toByteArray
      "[json.exception.type_error.302] type must be string, but is number") .failed (-1) noResults
  refine ⟨parsed, rfl, { noResults with published := [p] }, ?_, ?_, not_inLifecycle_failed⟩
  · unfold executeCommand
    rw [read]
    dsimp only
    rw [exec_tryCatch, thrown]
    exact published
  · show [heading p] = [(some (.str "c1".toByteArray), some (.text Statut.failed.text))]
    rw [shown]

end OrbisAgent.Services.Acknowledgement
