/- OrbisAgent/Services/UpdateRequests
   source: CommandExecutor::executeCommand (agent_update)
   digest: What holds of every update that a command starts. -/

import OrbisAgent.Services.CommandResults

set_option autoImplicit false
set_option relaxedAutoImplicit false

namespace OrbisAgent.Services.UpdateRequests

open OrbisAgent.Lib.Json
open OrbisAgent.Lib.Trace
open OrbisAgent.Services.CommandExecutor
open OrbisAgent.Services.CommandResults

/-- The requests that `executeCommand` starts an update for. -/
structure WellFormed (r : UpdateRequest) : Prop where
  command_id : r.command_id.validateUTF8 = true
  url : r.url.validateUTF8 = true
  sha256 : r.sha256.validateUTF8 = true
  version : r.version.validateUTF8 = true
  url_nonempty : r.url.isEmpty = false
  sha256_nonempty : r.sha256.isEmpty = false

/-- The SHA-256 of `abc`. -/
def abcDigest : String := "ba7816bf8f01cfea414140de5dae2223b00361a396177a9cb410ff61f20015ad"

def abcRequest : UpdateRequest where
  command_id := "c1".toByteArray
  url := "localhost/orbis-agent".toByteArray
  sha256 := abcDigest.toByteArray
  version := "1.1.0".toByteArray

theorem abcRequest_wellFormed : WellFormed abcRequest where
  command_id := Json.validateUTF8_toByteArray "c1"
  url := Json.validateUTF8_toByteArray "localhost/orbis-agent"
  sha256 := Json.validateUTF8_toByteArray abcDigest
  version := Json.validateUTF8_toByteArray "1.1.0"
  url_nonempty := by decide
  sha256_nonempty := by decide

private theorem publishResult_starts_nothing (host : Host) (id : ByteArray)
    (s : Statut) (output error : ByteArray) (code : Int) :
    Silent World.updates (publishResult host id s output error code) := by
  intro w
  rw [exec_publishResult]
  cases host.codec.dump (resultJson host id s output error code
      (host.now w.published.length)) with
  | ok payload => exact ⟨[], (List.append_nil _).symm, rfl⟩
  | error e => exact ⟨[], (List.append_nil _).symm, rfl⟩

private theorem runShell_starts_nothing (host : Host) (command : ByteArray)
    (timeout_sec : Int) : Silent World.updates (runShell host command timeout_sec) :=
  Silent.bind (Silent.modify fun _ => rfl) fun _ => Silent.lift _

private theorem handleTrigger_starts_nothing (host : Host) (id : ByteArray)
    (known : Bool) (wake : World → World)
    (kept : ∀ w, (wake w).updates = w.updates) (output : String) :
    Silent World.updates (handleTrigger host id known wake output) := by
  refine Silent.bind (publishResult_starts_nothing host id _ _ _ _) fun _ => ?_
  have last := publishResult_starts_nothing host id .success output.toByteArray ByteArray.empty 0
  refine Silent.bind (Silent.modify fun w => ?_) fun _ => last
  show (if known then wake w else w).updates = w.updates
  split
  · exact kept w
  · rfl

private theorem handleShell_starts_nothing (host : Host) (id : ByteArray)
    (payload_str : String) (timeout_sec : Int) :
    Silent World.updates (handleShell host id payload_str timeout_sec) := by
  unfold handleShell
  by_cases empty : (shellCommand host payload_str).isEmpty = true
  · rw [if_pos empty]
    exact publishResult_starts_nothing host id _ _ _ _
  · rw [if_neg empty]
    refine Silent.bind (publishResult_starts_nothing host id _ _ _ _) fun _ => ?_
    refine Silent.bind (runShell_starts_nothing host _ _) fun result => ?_
    exact publishResult_starts_nothing host id _ _ _ _

private theorem handleRestart_starts_nothing (host : Host) (id : ByteArray) :
    Silent World.updates (handleRestart host id) := by
  refine Silent.bind (publishResult_starts_nothing host id _ _ _ _) fun _ => ?_
  refine Silent.bind (runShell_starts_nothing host _ _) fun result => ?_
  exact publishResult_starts_nothing host id _ _ _ _

private theorem handleGetInfo_starts_nothing (host : Host) (id : ByteArray) :
    Silent World.updates (handleGetInfo host id) := by
  refine Silent.bind (publishResult_starts_nothing host id _ _ _ _) fun _ => ?_
  refine Silent.bind (Silent.lift _) fun output => ?_
  exact publishResult_starts_nothing host id _ _ _ _

/-- The updates that a computation starts are well formed. -/
def StartsWellFormed (x : Command Unit) : Prop :=
  Emits World.updates x (fun _ l => ∀ r ∈ l, WellFormed r) fun _ l => ∀ r ∈ l, WellFormed r

private theorem startsWellFormed_of_silent {x : Command Unit} (silent : Silent World.updates x) :
    StartsWellFormed x := by
  refine silent.weaken ?_ ?_
  · rintro _ l rfl r member
    cases member
  · rintro _ l rfl r member
    cases member

private theorem startsWellFormed_after_lift {α : Type} {P : α → Prop} {x : Except Exn α}
    {f : α → Command Unit} (read : ∀ a, x = .ok a → P a)
    (rest : ∀ a, P a → StartsWellFormed (f a)) :
    StartsWellFormed (lift x >>= f) := by
  have first : Emits World.updates (lift x : Command α) (fun a l => P a ∧ l = [])
      fun _ l => l = [] := Emits.lift (fun a done => ⟨read a done, rfl⟩) fun _ _ => rfl
  refine first.bind ?_ ?_
  · rintro a l ⟨holds, rfl⟩
    exact rest a holds
  · rintro _ l rfl r member
    cases member

theorem handleAgentUpdate_starts (host : Host) {id : ByteArray} {j : Json}
    (idValid : id.validateUTF8 = true) (valid : j.wellEncoded = true) :
    StartsWellFormed (handleAgentUpdate host id j) := by
  unfold handleAgentUpdate
  split
  · exact startsWellFormed_of_silent (publishResult_starts_nothing host id _ _ _ _)
  · refine startsWellFormed_after_lift
      (fun _ => Json.wellEncoded_of_value_getJson valid Json.wellEncoded_null) ?_
    intro payload_j encoded
    have text (key : String) (s : ByteArray)
        (read : payload_j.value Json.getString key ByteArray.empty = .ok s) :
        s.validateUTF8 = true :=
      Json.valid_of_value_getString encoded Json.validateUTF8_empty read
    refine startsWellFormed_after_lift (text "url") fun url urlValid => ?_
    refine startsWellFormed_after_lift (text "sha256") fun sha256 sha256Valid => ?_
    refine startsWellFormed_after_lift (text "version") fun version versionValid => ?_
    split
    · exact startsWellFormed_of_silent (publishResult_starts_nothing host id _ _ _ _)
    · rename_i present
      rw [Bool.or_eq_true, not_or, Bool.not_eq_true, Bool.not_eq_true] at present
      intro w
      refine ⟨[⟨id, url, sha256, version⟩], rfl, ?_⟩
      intro r member
      obtain rfl := List.mem_singleton.mp member
      exact ⟨idValid, urlValid, sha256Valid, versionValid, present.1, present.2⟩

private theorem dispatch_starts (host : Host) {id : ByteArray} {j : Json}
    (idValid : id.validateUTF8 = true) (valid : j.wellEncoded = true) :
    StartsWellFormed (dispatch host j id) := by
  have quiet : ∀ {x : Command Unit}, Silent World.updates x → StartsWellFormed x :=
    startsWellFormed_of_silent
  refine startsWellFormed_after_lift (P := fun _ => True) (fun _ _ => trivial) fun type _ => ?_
  refine startsWellFormed_after_lift (P := fun _ => True) (fun _ _ => trivial) fun sec _ => ?_
  refine Emits.after_silent (publishResult_starts_nothing host id _ _ _ _) (fun _ => ?_)
    fun _ r member => by cases member
  split
  · apply quiet
    refine Silent.bind (Silent.lift _) fun payload => ?_
    refine Silent.bind (Silent.lift _) fun text => ?_
    exact handleShell_starts_nothing host id text sec
  · split
    · exact quiet (handleRestart_starts_nothing host id)
    · split
      · exact quiet (handleTrigger_starts_nothing host id host.log_collector
          (fun w => { w with collections := w.collections + 1 }) (fun _ => rfl) _)
      · split
        · exact quiet (handleTrigger_starts_nothing host id host.network_scanner
            (fun w => { w with scans := w.scans + 1 }) (fun _ => rfl) _)
        · split
          · exact quiet (handleGetInfo_starts_nothing host id)
          · split
            · exact handleAgentUpdate_starts host idValid valid
            · exact quiet (publishResult_starts_nothing host id _ _ _ _)

private theorem readCommandId_valid {host : Host} {payload id : ByteArray} {j : Json}
    (read : readCommandId host payload = .ok (j, id)) :
    j.wellEncoded = true ∧ id.validateUTF8 = true := by
  obtain ⟨parsed, named⟩ := parse_of_readCommandId read
  have valid := host.codec.wellEncoded_of_parse payload j parsed
  exact ⟨valid, Json.valid_of_value_getString valid Json.validateUTF8_empty named⟩

/-- For every payload, the updates that `executeCommand` starts are well formed. -/
theorem executeCommand_starts (host : Host) (payload : ByteArray) :
    StartsWellFormed (executeCommand host payload) := by
  unfold executeCommand
  split
  · exact startsWellFormed_of_silent (Silent.pure ())
  · rename_i j id read
    obtain ⟨valid, idValid⟩ := readCommandId_valid read
    have started : StartsWellFormed (dispatch host j id) := dispatch_starts host idValid valid
    refine Emits.tryCatch started fun e l before => ?_
    split
    · refine (Silent.pure ()).weaken ?_ ?_
      · rintro _ more rfl
        rwa [List.append_nil]
      · rintro _ more rfl
        rwa [List.append_nil]
    · refine (publishResult_starts_nothing host id _ _ _ _).weaken ?_ ?_
      · rintro _ more rfl
        rwa [List.append_nil]
      · rintro _ more rfl
        rwa [List.append_nil]

end OrbisAgent.Services.UpdateRequests
