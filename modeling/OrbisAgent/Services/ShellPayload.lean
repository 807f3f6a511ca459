/- OrbisAgent/Services/ShellPayload
   source: CommandExecutor::executeCommand (shell) and CommandExecutor::handleShell
   digest: The text that is run for each payload. It is the command the payload names exactly if
   the payload is an object whose command is a string or missing. -/

import OrbisAgent.Services.CommandResults

set_option autoImplicit false
set_option relaxedAutoImplicit false

namespace OrbisAgent.Services.ShellPayload

open OrbisAgent.Constants
open OrbisAgent.Lib.Json
open OrbisAgent.Lib.Trace
open OrbisAgent.Services.CommandExecutor
open OrbisAgent.Services.CommandResults

def orNone (command : ByteArray) : Option ByteArray :=
  if command.isEmpty then none else some command

/-- The command a payload names: its field `command`, or the payload itself when it is a
string. -/
def intended : Option Json → Option ByteArray
  | some (.obj members) =>
      match members.lookup "command" with
      | some (.str command) => orNone command
      | _ => none
  | some (.str command) => orNone command
  | _ => none

/-- A failed result was published. -/
def Failed (w w' : World) : Prop :=
  ∃ results, w'.published = w.published ++ results ∧
    ∃ r ∈ results, field r "statut" = some (.text Statut.failed.text)

/-- The command that the payload names is run, once and as it is. When the payload names none,
nothing is run and a failed result is published. -/
def RunsPayload (payload : Option Json) (w w' : World) : Prop :=
  match intended payload with
  | some command => ∃ timeout_sec, w'.shells = w.shells ++ [(command, timeout_sec)]
  | none => w'.shells = w.shells ∧ Failed w w'

/-- An object whose command is a string or missing. -/
def carries : Option Json → Bool
  | some (.obj members) =>
      match members.lookup "command" with
      | none | some (.str _) => true
      | _ => false
  | _ => false

def commandId (fields : List (String × Json)) : Except Exn ByteArray :=
  (Json.obj fields).value Json.getString "command_id" ByteArray.empty

def timeoutSec (fields : List (String × Json)) : Except Exn Int :=
  (Json.obj fields).value Json.getInt "timeout_sec" TIMEOUT_COMMAND_DEFAULT_SEC

/-- The command's other fields can be read and its payload carries a command. When only the
timeout cannot be read, the exception is reported as a failure of the command, which is right
for a payload that names none. -/
def Runnable (fields : List (String × Json)) : Prop :=
  match commandId fields, timeoutSec fields with
  | .ok _, .ok _ => carries (fields.lookup "payload") = true
  | .ok command_id, .error _ =>
      command_id.isEmpty = false ∧ intended (fields.lookup "payload") = none
  | .error _, _ => False

/-- The outcome of `handleShell` for a command text. -/
def Ran (command : ByteArray) (timeout_sec : Int) (w w' : World) : Prop :=
  if command.isEmpty then w'.shells = w.shells ∧ Failed w w'
  else w'.shells = w.shells ++ [(command, timeout_sec)]

/-- Between the two worlds only results were published. -/
def Reports (w w' : World) : Prop :=
  ∃ results, w' = { w with published := w.published ++ results }

theorem failed_of_reports {w w' t : World} (reports : Reports w t) (failed : Failed t w') :
    Failed w w' := by
  obtain ⟨before, rfl⟩ := reports
  obtain ⟨results, grown, r, mem, shown⟩ := failed
  refine ⟨before ++ results, ?_, r, List.mem_append_right _ mem, shown⟩
  rw [grown, List.append_assoc]

theorem Failed.reports {w w' t : World} (failed : Failed w t) (reports : Reports t w') :
    Failed w w' := by
  obtain ⟨after, rfl⟩ := reports
  obtain ⟨results, grown, r, mem, shown⟩ := failed
  refine ⟨results ++ after, ?_, r, List.mem_append_left _ mem, shown⟩
  show t.published ++ after = w.published ++ (results ++ after)
  rw [grown, List.append_assoc]

theorem ran_of_reports {command : ByteArray} {timeout_sec : Int} {w w' t : World}
    (reports : Reports w t) (ran : Ran command timeout_sec t w') :
    Ran command timeout_sec w w' := by
  have same : t.shells = w.shells := by
    obtain ⟨_, rfl⟩ := reports
    rfl
  unfold Ran at ran ⊢
  rw [same] at ran
  by_cases empty : command.isEmpty = true
  · rw [if_pos empty] at ran ⊢
    exact ⟨ran.1, failed_of_reports reports ran.2⟩
  · rw [if_neg empty] at ran ⊢
    exact ran

theorem Ran.reports {command : ByteArray} {timeout_sec : Int} {w w' t : World}
    (ran : Ran command timeout_sec w t) (reports : Reports t w') :
    Ran command timeout_sec w w' := by
  have same : w'.shells = t.shells := by
    obtain ⟨_, rfl⟩ := reports
    rfl
  unfold Ran at ran ⊢
  rw [same]
  by_cases empty : command.isEmpty = true
  · rw [if_pos empty] at ran ⊢
    exact ⟨ran.1, ran.2.reports reports⟩
  · rw [if_neg empty] at ran ⊢
    exact ran

/-- Any result is reported, or not at all when it does not dump. -/
theorem publishResult_reports (host : Host) (id : ByteArray) (s : Statut)
    (output error : ByteArray) (code : Int) (w : World) :
    After (publishResult host id s output error code) w (fun _ w' => Reports w w')
      fun _ w' => Reports w w' := by
  unfold After
  rw [exec_publishResult]
  cases host.codec.dump (resultJson host id s output error code (host.now w.published.length)) with
  | ok payload => exact ⟨_, rfl⟩
  | error e => exact ⟨[], by rw [List.append_nil]⟩

theorem Ran.shells {command : ByteArray} {timeout_sec : Int} {w w' : World}
    (ran : Ran command timeout_sec w w') (nonempty : command.isEmpty = false) :
    w'.shells = w.shells ++ [(command, timeout_sec)] := by
  unfold Ran at ran
  rw [nonempty, if_neg Bool.false_ne_true] at ran
  exact ran

section Handler

variable (host : Host) {id : ByteArray} (idValid : id.validateUTF8 = true)
include idValid

/-- A result whose texts are valid is reported, and with the statut failed it is a failure. -/
theorem publishResult_after {output error : ByteArray} (outputValid : output.validateUTF8 = true)
    (errorValid : error.validateUTF8 = true) (s : Statut) (code : Int) (w : World) :
    After (publishResult host id s output error code) w
      (fun _ w' => Reports w w' ∧ (s = .failed → Failed w w')) fun _ _ => False := by
  obtain ⟨p, shown, run⟩ := exec_publishResult_valid host idValid outputValid errorValid s code w
  unfold After
  rw [run]
  refine ⟨⟨[p], rfl⟩, fun failed => ⟨[p], rfl, p, List.mem_singleton_self p, ?_⟩⟩
  rw [failed] at shown
  exact congrArg Prod.snd shown

theorem handleShell_after (payload_str : String) (timeout_sec : Int) (w : World) :
    After (handleShell host id payload_str timeout_sec) w
      (fun _ w' => Ran (shellCommand host payload_str) timeout_sec w w')
      fun _ w' => Ran (shellCommand host payload_str) timeout_sec w w' := by
  unfold handleShell
  by_cases empty : (shellCommand host payload_str).isEmpty = true
  · rw [if_pos empty]
    have report := publishResult_after host idValid Json.validateUTF8_empty
      (Json.validateUTF8_toByteArray "Empty command") .failed (-1) w
    refine report.weaken (fun _ w' done => ?_) fun _ _ impossible => impossible.elim
    obtain ⟨⟨results, rfl⟩, failed⟩ := done
    unfold Ran
    rw [if_pos empty]
    exact ⟨rfl, failed rfl⟩
  · rw [if_neg empty]
    have executing := publishResult_after host idValid Json.validateUTF8_empty
      Json.validateUTF8_empty .executing (-1) w
    refine executing.andThen fun _ t begun => ?_
    -- the command is on the list of shells before the shell returns or throws
    have started : Ran (shellCommand host payload_str) timeout_sec t
        { t with shells := t.shells ++ [(shellCommand host payload_str, timeout_sec)] } := by
      unfold Ran
      rw [if_neg empty]
    have shell : After (runShell host (shellCommand host payload_str) timeout_sec) t
        (fun _ w' => Ran (shellCommand host payload_str) timeout_sec w w')
        fun _ w' => Ran (shellCommand host payload_str) timeout_sec w w' := by
      unfold After runShell
      rw [exec_bind, exec_modify]
      dsimp only
      rw [exec_lift]
      have ran := ran_of_reports begun.1 started
      cases host.runShell (shellCommand host payload_str) timeout_sec with
      | ok result => exact ran
      | error e => exact ran
    refine shell.bind fun result t' ran => ?_
    exact (publishResult_reports host id _ _ _ _ t').weaken
      (fun _ _ reports => ran.reports reports) fun _ _ reports => ran.reports reports

end Handler

theorem commandId_valid (host : Host) {text id : ByteArray} {fields : List (String × Json)}
    (parsed : host.codec.parse text = .ok (.obj fields)) (named : commandId fields = .ok id) :
    id.validateUTF8 = true :=
  Json.valid_of_value_getString (host.codec.wellEncoded_of_parse _ _ parsed)
    Json.validateUTF8_empty named

section Command

variable (host : Host) {text id : ByteArray} {fields : List (String × Json)}
  (parsed : host.codec.parse text = .ok (.obj fields))
  (shell : fields.lookup "type" = some (.text "shell")) (named : commandId fields = .ok id)

include shell in
theorem type_of_shell :
    (Json.obj fields).value Json.getString "type" ByteArray.empty = .ok "shell".toByteArray := by
  simp only [Json.value, shell]
  rfl

include parsed shell in
/-- A shell command whose fields can be read is acknowledged, and then handled. -/
theorem dispatch_shell {timeout_sec : Int} (timed : timeoutSec fields = .ok timeout_sec)
    {w : World} {begun ok : Unit → World → Prop} {err : Exn → World → Prop}
    (acknowledged : After
      (publishResult host id .acknowledged ByteArray.empty ByteArray.empty (-1)) w begun
        fun _ _ => False)
    (handled : ∀ t, begun () t → After
      (handleShell host id (host.codec.render ((fields.lookup "payload").getD .null)) timeout_sec)
        t ok err) :
    After (dispatch host (.obj fields) id) w ok err := by
  have payload := Json.value_getJson fields "payload" .null
  have dumped := Codec.dump_of_wellEncoded host.codec (Json.wellEncoded_of_value_getJson
    (host.codec.wellEncoded_of_parse _ _ parsed) Json.wellEncoded_null payload)
  unfold dispatch
  refine After.lift_ok (type_of_shell shell) (After.lift_ok timed ?_)
  refine acknowledged.andThen fun _ t started => ?_
  rw [if_pos rfl]
  exact After.lift_ok payload (After.lift_ok dumped (handled t started))

include parsed shell named

theorem dispatch_ran {timeout_sec : Int} (timed : timeoutSec fields = .ok timeout_sec)
    (w : World) :
    let payload_str := host.codec.render ((fields.lookup "payload").getD .null)
    After (dispatch host (.obj fields) id) w
      (fun _ w' => Ran (shellCommand host payload_str) timeout_sec w w')
      fun _ w' => Ran (shellCommand host payload_str) timeout_sec w w' := by
  intro payload_str
  have idValid := commandId_valid host parsed named
  have acknowledged := publishResult_after host idValid Json.validateUTF8_empty
    Json.validateUTF8_empty .acknowledged (-1) w
  refine dispatch_shell host parsed shell timed acknowledged fun t begun => ?_
  exact (handleShell_after host idValid payload_str timeout_sec t).weaken
    (fun _ _ ran => ran_of_reports begun.1 ran) fun _ _ ran => ran_of_reports begun.1 ran

/-- A command whose fields can be read runs its command text. -/
theorem executeCommand_ran {timeout_sec : Int} (timed : timeoutSec fields = .ok timeout_sec)
    (w : World) :
    let payload_str := host.codec.render ((fields.lookup "payload").getD .null)
    Ran (shellCommand host payload_str) timeout_sec w ((executeCommand host text).exec w).2 := by
  intro payload_str
  refine After.final (Ran (shellCommand host payload_str) timeout_sec w) ?_
  have body := dispatch_ran host parsed shell named timed w
  unfold executeCommand
  rw [readCommandId_of_parse parsed, show (Json.obj fields).value _ _ _ = _ from named]
  refine body.tryCatch fun e t ran => ?_
  split
  · exact ran
  · exact (publishResult_reports host id _ _ _ _ t).weaken
      (fun _ _ reports => ran.reports reports) fun _ _ reports => ran.reports reports

/-- What is left of a command whose timeout cannot be read. It is reported as a failure when
the command has an id. -/
def Unstarted (id : ByteArray) (w w' : World) : Prop :=
  w'.shells = w.shells ∧ (id.isEmpty = false → Failed w w') ∧ (id.isEmpty = true → w' = w)

theorem executeCommand_unstarted {e : Exn} (untimed : timeoutSec fields = .error e) (w : World) :
    Unstarted id w ((executeCommand host text).exec w).2 := by
  have idValid := commandId_valid host parsed named
  have body : After (dispatch host (.obj fields) id) w (fun _ w' => Unstarted id w w')
      fun _ w' => w' = w := by
    unfold dispatch
    exact After.lift_ok (type_of_shell shell) (After.lift_error untimed rfl)
  refine After.final (Unstarted id w) ?_
  unfold executeCommand
  rw [readCommandId_of_parse parsed, show (Json.obj fields).value _ _ _ = _ from named]
  refine body.tryCatch fun e t same => ?_
  subst same
  split
  · rename_i anonymous
    have unnamed : id.isEmpty = false → Failed t t := by
      intro present
      rw [anonymous] at present
      cases present
    exact ⟨rfl, unnamed, fun _ => rfl⟩
  · rename_i present
    have report := publishResult_after host idValid Json.validateUTF8_empty
      (Json.validateUTF8_toByteArray e.what) .failed (-1) t
    refine report.weaken (fun _ w' done => ?_) fun _ _ impossible => impossible.elim
    obtain ⟨⟨results, rfl⟩, failed⟩ := done
    exact ⟨rfl, fun _ => failed rfl, fun anonymous => absurd anonymous present⟩

end Command

/-- The command text of a payload that is read back as it was. -/
theorem shellCommand_of_reparsed {host : Host} {payload_str : String} {j : Json}
    (reparsed : host.codec.parse payload_str.toByteArray = .ok j) :
    shellCommand host payload_str =
      match j.value Json.getString "command" ByteArray.empty with
      | .ok command => command
      | .error _ => payload_str.toByteArray := by
  unfold shellCommand commandField
  rw [reparsed]
  rfl

theorem runsPayload_of_ran {payload : Option Json} {command : ByteArray} {timeout_sec : Int}
    {w w' : World} (meant : intended payload = orNone command)
    (ran : Ran command timeout_sec w w') : RunsPayload payload w w' := by
  unfold RunsPayload
  rw [meant]
  unfold Ran at ran
  unfold orNone
  by_cases empty : command.isEmpty = true
  · rw [if_pos empty] at ran ⊢
    exact ran
  · rw [if_neg empty] at ran ⊢
    exact ⟨timeout_sec, ran⟩

/-- A non-empty text that the payload does not name is run. -/
theorem not_runsPayload_of_ran {payload : Option Json} {command : ByteArray} {timeout_sec : Int}
    {w w' : World} (nonempty : command.isEmpty = false) (other : intended payload ≠ some command)
    (ran : Ran command timeout_sec w w') : ¬ RunsPayload payload w w' := by
  intro right
  have run := ran.shells nonempty
  unfold RunsPayload at right
  split at right
  · rename_i meant same
    obtain ⟨limit, shells⟩ := right
    have last := List.append_cancel_left (run.symm.trans shells)
    obtain ⟨rfl, _⟩ := Prod.mk.inj (List.singleton_inj.mp last)
    exact other same
  · have grown := run.symm.trans right.1
    exact List.cons_ne_nil _ _ (List.append_right_eq_self.mp grown)

/-- The text of an object that carries a command is the command it names. -/
theorem intended_of_carries {host : Host} {payload : Option Json}
    (prints : host.codec.Prints (payload.getD .null)) (carried : carries payload = true) :
    intended payload = orNone (shellCommand host (host.codec.render (payload.getD .null))) := by
  rw [shellCommand_of_reparsed prints.reparsed]
  unfold carries at carried
  split at carried
  · rename_i members
    rw [Option.getD_some, Json.value_obj]
    unfold intended
    dsimp only
    cases found : members.lookup "command" with
    | none => rfl
    | some j =>
        rw [found] at carried
        cases j with
        | str command => rfl
        | _ => cases carried
  · cases carried

/-- For every other payload the text that is run is the printed payload. -/
theorem shellCommand_of_not_carries {host : Host} {payload : Option Json}
    (prints : host.codec.Prints (payload.getD .null)) (other : carries payload = false) :
    shellCommand host (host.codec.render (payload.getD .null)) =
      (host.codec.render (payload.getD .null)).toByteArray := by
  rw [shellCommand_of_reparsed prints.reparsed]
  cases payload with
  | none => rfl
  | some j =>
      rw [Option.getD_some]
      cases j with
      | obj members =>
          rw [Json.value_obj]
          unfold carries at other
          dsimp only at other
          cases found : members.lookup "command" with
          | none =>
              rw [found] at other
              cases other
          | some field =>
              rw [found] at other
              cases field with
              | str command => cases other
              | _ => rfl
      | _ => rfl

/-- The printed payload is not what the payload names. -/
theorem intended_ne_render {codec : Codec} {payload : Option Json}
    (prints : codec.Prints (payload.getD .null)) (other : carries payload = false) :
    intended payload ≠ some (codec.render (payload.getD .null)).toByteArray := by
  intro same
  unfold intended at same
  split at same
  · rename_i members
    split at same
    · rename_i command found
      unfold carries at other
      dsimp only at other
      rw [found] at other
      cases other
    · cases same
  · rename_i command
    unfold orNone at same
    split at same
    · cases same
    · have longer := prints.quoted command rfl
      rw [← Option.some.inj same] at longer
      exact Nat.lt_irrefl _ longer
  · cases same

theorem not_runsPayload_unchanged (payload : Option Json) (w : World) :
    ¬ RunsPayload payload w w := by
  intro right
  unfold RunsPayload at right
  split at right
  · obtain ⟨timeout_sec, grown⟩ := right
    exact List.cons_ne_nil _ _ (List.append_right_eq_self.mp grown.symm)
  · obtain ⟨_, results, grown, r, mem, _⟩ := right
    rw [List.append_right_eq_self.mp grown.symm] at mem
    cases mem

theorem runsPayload_unstarted_iff {payload : Option Json} {id : ByteArray} {w w' : World}
    (unstarted : Unstarted id w w') :
    RunsPayload payload w w' ↔ id.isEmpty = false ∧ intended payload = none := by
  obtain ⟨shells, reported, unchanged⟩ := unstarted
  cases anonymous : id.isEmpty with
  | true =>
      rw [unchanged anonymous]
      exact ⟨fun right => absurd right (not_runsPayload_unchanged payload w), nofun⟩
  | false =>
      unfold RunsPayload
      cases intended payload with
      | some command =>
          refine ⟨?_, nofun⟩
          rintro ⟨timeout_sec, grown⟩
          have none := List.append_right_eq_self.mp (grown.symm.trans shells)
          cases none
      | none => exact ⟨fun _ => ⟨rfl, rfl⟩, fun _ => ⟨shells, reported anonymous⟩⟩

/-- A shell command does what its payload says if and only if it is runnable. -/
theorem shell_runs_payload_iff (host : Host) (text : ByteArray) (fields : List (String × Json))
    (w : World) (parsed : host.codec.parse text = .ok (.obj fields))
    (shell : fields.lookup "type" = some (.text "shell"))
    (prints : host.codec.Prints ((fields.lookup "payload").getD .null)) :
    RunsPayload (fields.lookup "payload") w ((executeCommand host text).exec w).2 ↔
      Runnable fields := by
  unfold Runnable
  cases named : commandId fields with
  | error e =>
      have unread : ((executeCommand host text).exec w).2 = w := by
        unfold executeCommand
        rw [readCommandId_of_parse parsed, show (Json.obj fields).value _ _ _ = _ from named]
        rfl
      rw [unread]
      exact ⟨not_runsPayload_unchanged _ w, False.elim⟩
  | ok id =>
      cases timed : timeoutSec fields with
      | error e =>
          exact runsPayload_unstarted_iff
            (executeCommand_unstarted host parsed shell named timed w)
      | ok timeout_sec =>
          have ran := executeCommand_ran host parsed shell named timed w
          dsimp only at ran ⊢
          cases carried : carries (fields.lookup "payload") with
          | true => exact ⟨fun _ => rfl, fun _ =>
              runsPayload_of_ran (intended_of_carries prints carried) ran⟩
          | false =>
              rw [shellCommand_of_not_carries prints carried] at ran
              have wrong := not_runsPayload_of_ran prints.nonempty
                (intended_ne_render prints carried) ran
              exact ⟨fun right => absurd right wrong, nofun⟩

def listingFields (payload : Json) : List (String × Json) :=
  [("command_id", .text "c1"), ("payload", payload), ("type", .text "shell")]

/-- The text of a command with this payload. -/
def listingText (payload : Json) : ByteArray :=
  (plainText (.obj (listingFields payload))).toByteArray

theorem listing_wellEncoded {payload : Json} (valid : payload.wellEncoded = true) :
    ∀ j ∈ [payload, .obj (listingFields payload)], j.wellEncoded = true := by
  intro j mem
  simp only [List.mem_cons, List.not_mem_nil, or_false] at mem
  rcases mem with rfl | rfl
  · exact valid
  · simp [listingFields, valid]

/-- A device whose shell lists one file. -/
def listingHost (payload : Json) (valid : payload.wellEncoded = true) : Host where
  codec := Codec.plain _ (listing_wellEncoded valid)
  device_id := "d1"
  platform := .linux
  now _ := "2025-01-01T00:00:00Z"
  runShell _ _ := .ok ⟨0, "a.txt".toByteArray, ByteArray.empty⟩
  log_collector := true
  network_scanner := false
  update_manager := true

def idleWorld : World := ⟨[], [], 0, 0, []⟩

theorem listing_runs_ls :
    let payload := Json.obj [("command", .text "ls")]
    let host := listingHost payload rfl
    RunsPayload (some payload) idleWorld ((executeCommand host (listingText payload)).exec
      idleWorld).2 ∧ intended (some payload) = some "ls".toByteArray := by
  intro payload host
  have parsed : host.codec.parse (listingText payload) = .ok (.obj (listingFields payload)) := rfl
  have prints : host.codec.Prints payload := ⟨rfl, by decide, nofun⟩
  exact ⟨(shell_runs_payload_iff host (listingText payload) (listingFields payload) idleWorld
    parsed rfl prints).mpr rfl, rfl⟩

/-- The payload is the string `ls`, and the text that is run has the quotes of its JSON form. -/
theorem string_payload_runs_its_json_text :
    let payload := Json.text "ls"
    let host := listingHost payload rfl
    let w := ((executeCommand host (listingText payload)).exec idleWorld).2
    host.codec.parse (listingText payload) = .ok (.obj (listingFields payload)) ∧
      intended (some payload) = some "ls".toByteArray ∧
      w.shells = [("\"ls\"".toByteArray, TIMEOUT_COMMAND_DEFAULT_SEC)] ∧
      ¬ RunsPayload (some payload) idleWorld w := by
  intro payload host w
  have parsed : host.codec.parse (listingText payload) = .ok (.obj (listingFields payload)) := rfl
  have reparsed : host.codec.parse "\"ls\"".toByteArray = .ok payload := rfl
  have command : shellCommand host "\"ls\"" = "\"ls\"".toByteArray :=
    shellCommand_of_reparsed reparsed
  have ran := executeCommand_ran host parsed rfl rfl rfl idleWorld
  change Ran (shellCommand host "\"ls\"") TIMEOUT_COMMAND_DEFAULT_SEC idleWorld w at ran
  rw [command] at ran
  have nonempty : "\"ls\"".toByteArray.isEmpty = false := by decide
  have other : intended (some payload) ≠ some "\"ls\"".toByteArray := by decide
  exact ⟨parsed, rfl, ran.shells nonempty, not_runsPayload_of_ran nonempty other ran⟩

end OrbisAgent.Services.ShellPayload
