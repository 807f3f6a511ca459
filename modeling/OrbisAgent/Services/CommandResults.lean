/- OrbisAgent/Services/CommandResults
   source: CommandExecutor::executeCommand and its handlers
   digest: The statuts published for one command, in order, whatever its fields and its shell. -/

import OrbisAgent.Services.CommandExecutor

set_option autoImplicit false
set_option relaxedAutoImplicit false

namespace OrbisAgent.Services.CommandResults

open OrbisAgent.Lib.Json
open OrbisAgent.Lib.Trace
open OrbisAgent.Services.CommandExecutor

/-- A field of the published document. -/
def field (p : Published) (key : String) : Option Json :=
  match p.document with
  | .obj fields => fields.lookup key
  | _ => none

def heading (p : Published) : Option Json × Option Json :=
  (field p "command_id", field p "statut")

/-- The published results belong to the command and carry these statuts, in order. -/
def Shows (id : ByteArray) (results : List Published) (statuts : List Statut) : Prop :=
  results.map heading = statuts.map fun s => (some (.str id), some (.text s.text))

theorem Shows.append {id : ByteArray} {first second : List Published} {ss ss' : List Statut}
    (h : Shows id first ss) (h' : Shows id second ss') :
    Shows id (first ++ second) (ss ++ ss') := by
  unfold Shows at h h' ⊢
  rw [List.map_append, List.map_append, h, h']

theorem shows_nil (id : ByteArray) : Shows id [] [] := rfl

/-- `publishResult` publishes its result, or nothing when the text does not dump. -/
theorem exec_publishResult (host : Host) (id : ByteArray) (s : Statut) (output error : ByteArray)
    (code : Int) (w : World) :
    let document := resultJson host id s output error code (host.now w.published.length)
    (publishResult host id s output error code).exec w =
      match host.codec.dump document with
      | .ok payload =>
          (.ok (), { w with published := w.published ++
            [⟨Constants.topicFor Constants.TOPIC_RESULTS_FMT host.device_id, document, payload⟩] })
      | .error e => (.error e, w) := by
  intro document
  simp only [publishResult, exec_bind, exec_get, exec_lift]
  cases host.codec.dump document <;> rfl

theorem publishResult_emits (host : Host) (id : ByteArray) (s : Statut)
    (output error : ByteArray) (code : Int) :
    Emits World.published (publishResult host id s output error code)
      (fun _ l => Shows id l [s]) fun _ l => Shows id l [] := by
  intro w
  rw [exec_publishResult]
  cases host.codec.dump (resultJson host id s output error code (host.now w.published.length)) with
  | ok payload => exact ⟨_, rfl, rfl⟩
  | error e => exact ⟨[], (List.append_nil _).symm, shows_nil id⟩

private theorem textOrNull_wellEncoded {b : ByteArray} (valid : b.validateUTF8 = true) :
    (textOrNull b).wellEncoded = true := by
  unfold textOrNull
  split
  · rfl
  · exact valid

theorem resultJson_wellEncoded (host : Host) {id output error : ByteArray}
    (idValid : id.validateUTF8 = true) (outputValid : output.validateUTF8 = true)
    (errorValid : error.validateUTF8 = true) (s : Statut) (code : Int) (timestamp : String) :
    (resultJson host id s output error code timestamp).wellEncoded = true := by
  simp only [resultJson, Json.wellEncoded_obj_cons, Json.wellEncoded_str,
    Json.wellEncoded_text, idValid, Json.wellEncoded_obj_nil, Bool.and_true, Bool.true_and,
    Bool.and_eq_true]
  refine ⟨?_, ?_, ?_⟩
  · split
    · exact textOrNull_wellEncoded errorValid
    · rfl
  · split
    · split <;> rfl
    · rfl
  · split
    · exact textOrNull_wellEncoded outputValid
    · rfl

/-- A result of valid texts is always published, and nothing else happens. -/
theorem exec_publishResult_valid (host : Host) {id output error : ByteArray}
    (idValid : id.validateUTF8 = true) (outputValid : output.validateUTF8 = true)
    (errorValid : error.validateUTF8 = true) (s : Statut) (code : Int) (w : World) :
    ∃ p, heading p = (some (.str id), some (.text s.text)) ∧
      (publishResult host id s output error code).exec w =
        (.ok (), { w with published := w.published ++ [p] }) := by
  have encoded := resultJson_wellEncoded host idValid outputValid errorValid s code
    (host.now w.published.length)
  rw [exec_publishResult]
  simp only [Codec.dump_of_wellEncoded host.codec encoded]
  exact ⟨_, rfl, rfl⟩

theorem publishResult_valid (host : Host) {id output error : ByteArray}
    (idValid : id.validateUTF8 = true) (outputValid : output.validateUTF8 = true)
    (errorValid : error.validateUTF8 = true) (s : Statut) (code : Int) :
    Emits World.published (publishResult host id s output error code)
      (fun _ l => Shows id l [s]) fun _ _ => False := by
  intro w
  obtain ⟨p, shown, run⟩ := exec_publishResult_valid host idValid outputValid errorValid s code w
  rw [run]
  refine ⟨[p], rfl, ?_⟩
  show [heading p] = [(some (.str id), some (.text s.text))]
  rw [shown]

/-- The statuts a handler publishes when it returns. -/
def Ending (ss : List Statut) : Prop :=
  ∃ s : Statut, s.terminal = true ∧ (ss = [s] ∨ ss = [.executing, s])

/-- The statuts a handler has published when it throws. -/
def Opening (ss : List Statut) : Prop := ss = [] ∨ ss = [.executing]

def Handles (id : ByteArray) (x : Command Unit) : Prop :=
  Emits World.published x (fun _ l => ∃ ss, Ending ss ∧ Shows id l ss)
    fun _ l => ∃ ss, Opening ss ∧ Shows id l ss

/-- The last part of a handler: one terminal result or none. -/
def Concludes (id : ByteArray) (x : Command Unit) : Prop :=
  Emits World.published x (fun _ l => ∃ s : Statut, s.terminal = true ∧ Shows id l [s])
    fun _ l => Shows id l []

theorem concludes_publish (host : Host) (id : ByteArray) {s : Statut} (ended : s.terminal = true)
    (output error : ByteArray) (code : Int) :
    Concludes id (publishResult host id s output error code) :=
  (publishResult_emits host id s output error code).weaken
    (fun _ _ shown => ⟨s, ended, shown⟩) fun _ _ shown => shown

theorem handles_of_concludes {id : ByteArray} {x : Command Unit} (concludes : Concludes id x) :
    Handles id x := by
  refine concludes.weaken ?_ ?_
  · rintro _ l ⟨s, ended, shown⟩
    exact ⟨[s], ⟨s, ended, .inl rfl⟩, shown⟩
  · intro _ l shown
    exact ⟨[], .inl rfl, shown⟩

/-- A handler that publishes `executing` before its last part. -/
theorem handles_of_executing {host : Host} {id : ByteArray} {x : Command Unit}
    (concludes : Concludes id x) :
    Handles id (do
      publishResult host id .executing ByteArray.empty ByteArray.empty (-1)
      x) := by
  refine Emits.bind (publishResult_emits host id .executing _ _ _) (fun _ l begun => ?_) ?_
  · refine concludes.weaken ?_ ?_
    · rintro _ more ⟨s, ended, shown⟩
      exact ⟨[.executing, s], ⟨s, ended, .inr rfl⟩, begun.append shown⟩
    · intro _ more shown
      exact ⟨[.executing], .inr rfl, begun.append shown⟩
  · intro _ l shown
    exact ⟨[], .inl rfl, shown⟩

private theorem runShell_silent (host : Host) (command : ByteArray) (timeout_sec : Int) :
    Silent World.published (runShell host command timeout_sec) :=
  Silent.bind (Silent.modify fun _ => rfl) fun _ => Silent.lift _

private theorem statutOf_terminal (code : Int) : (statutOf code).terminal = true := by
  unfold statutOf
  split <;> rfl

theorem handleShell_handles (host : Host) (id : ByteArray) (payload_str : String)
    (timeout_sec : Int) : Handles id (handleShell host id payload_str timeout_sec) := by
  unfold handleShell
  by_cases empty : (shellCommand host payload_str).isEmpty = true
  · rw [if_pos empty]
    exact handles_of_concludes (concludes_publish host id rfl _ _ _)
  · rw [if_neg empty]
    apply handles_of_executing
    refine Emits.after_silent (runShell_silent host _ _) (fun result => ?_) fun _ => shows_nil id
    exact concludes_publish host id (statutOf_terminal _) _ _ _

theorem handleRestart_handles (host : Host) (id : ByteArray) :
    Handles id (handleRestart host id) := by
  apply handles_of_executing
  refine Emits.after_silent (runShell_silent host _ _) (fun result => ?_) fun _ => shows_nil id
  exact concludes_publish host id (statutOf_terminal _) _ _ _

theorem handleTrigger_handles (host : Host) (id : ByteArray) (known : Bool) (wake : World → World)
    (kept : ∀ w, (wake w).published = w.published) (output : String) :
    Handles id (handleTrigger host id known wake output) := by
  apply handles_of_executing
  refine Emits.after_silent (Silent.modify fun w => ?_) (fun _ => ?_) fun _ => shows_nil id
  · split
    · exact kept w
    · rfl
  · exact concludes_publish host id rfl _ _ _

theorem handleCollectNow_handles (host : Host) (id : ByteArray) :
    Handles id (handleCollectNow host id) :=
  handleTrigger_handles host id host.log_collector
    (fun w => { w with collections := w.collections + 1 }) (fun _ => rfl) "Collection triggered"

theorem handleScanNetwork_handles (host : Host) (id : ByteArray) :
    Handles id (handleScanNetwork host id) :=
  handleTrigger_handles host id host.network_scanner
    (fun w => { w with scans := w.scans + 1 }) (fun _ => rfl) "Network scan triggered"

theorem handleGetInfo_handles (host : Host) (id : ByteArray) :
    Handles id (handleGetInfo host id) := by
  apply handles_of_executing
  refine Emits.after_silent (Silent.lift _) (fun output => ?_) fun _ => shows_nil id
  exact concludes_publish host id rfl _ _ _

/-- What `dispatch` has published when it throws: nothing, or the
acknowledgement and what its handler had published. -/
def Broken (ss : List Statut) : Prop := ss = [] ∨ ∃ more, Opening more ∧ ss = .acknowledged :: more

private theorem agentUpdate_ne_empty : "agent_update".toByteArray ≠ ByteArray.empty := by
  decide

/-- The type is a string or missing, and the timeout a number, a boolean or missing. -/
def headerReads (fields : List (String × Json)) : Bool :=
  (match fields.lookup "type" with
    | none | some (.str _) => true
    | _ => false) &&
  match fields.lookup "timeout_sec" with
    | none | some (.int _) | some (.float _ _) | some (.bool _) => true
    | _ => false

private theorem headerReads_of_error {fields : List (String × Json)} {e : Exn}
    (failed : (Json.obj fields).value Json.getString "type" ByteArray.empty = .error e ∨
      (Json.obj fields).value Json.getInt "timeout_sec"
        Constants.TIMEOUT_COMMAND_DEFAULT_SEC = .error e) : headerReads fields = false := by
  unfold headerReads
  rw [Bool.and_eq_false_iff]
  rcases failed with type | timeout
  · left
    rw [Json.value_obj] at type
    cases found : fields.lookup "type" with
    | none =>
        rw [found] at type
        cases type
    | some j =>
        rw [found] at type
        cases j with
        | str s => cases type
        | null | bool | int | float | arr | obj => rfl
  · right
    rw [Json.value_obj] at timeout
    cases found : fields.lookup "timeout_sec" with
    | none =>
        rw [found] at timeout
        cases timeout
    | some j =>
        rw [found] at timeout
        cases j with
        | int n => cases timeout
        | float m e => cases timeout
        | bool b => cases timeout
        | null | str | arr | obj => rfl

private theorem headerReads_of_ok {fields : List (String × Json)} {type : ByteArray}
    {timeout_sec : Int}
    (typed : (Json.obj fields).value Json.getString "type" ByteArray.empty = .ok type)
    (timed : (Json.obj fields).value Json.getInt "timeout_sec"
      Constants.TIMEOUT_COMMAND_DEFAULT_SEC = .ok timeout_sec) : headerReads fields = true := by
  unfold headerReads
  rw [Bool.and_eq_true]
  rw [Json.value_obj] at typed timed
  constructor
  · cases found : fields.lookup "type" with
    | none => rfl
    | some j =>
        rw [found] at typed
        cases j with
        | str s => rfl
        | null | bool | int | float | arr | obj => cases typed
  · cases found : fields.lookup "timeout_sec" with
    | none => rfl
    | some j =>
        rw [found] at timed
        cases j with
        | int n => rfl
        | float m e => rfl
        | bool b => rfl
        | null | str | arr | obj => cases timed

/-- An update is started, or the command fails at once. -/
theorem handleAgentUpdate_emits (host : Host) (id : ByteArray) (j : Json) :
    Emits World.published (handleAgentUpdate host id j)
      (fun _ l => ∃ ss, (Ending ss ∨ ss = []) ∧ Shows id l ss)
      fun _ l => ∃ ss, Opening ss ∧ Shows id l ss := by
  have unstarted : ∃ ss, Opening ss ∧ Shows id [] ss := ⟨[], .inl rfl, shows_nil id⟩
  have fails (error : ByteArray) : Emits World.published
      (publishResult host id .failed ByteArray.empty error (-1))
      (fun _ l => ∃ ss, (Ending ss ∨ ss = []) ∧ Shows id l ss)
      fun _ l => ∃ ss, Opening ss ∧ Shows id l ss := by
    refine (publishResult_emits host id .failed ByteArray.empty error (-1)).weaken ?_ ?_
    · exact fun _ l shown => ⟨[.failed], .inl ⟨.failed, rfl, .inl rfl⟩, shown⟩
    · exact fun _ l shown => ⟨[], .inl rfl, shown⟩
  unfold handleAgentUpdate
  split
  · exact fails _
  · refine Emits.after_silent (Silent.lift _) (fun payload_j => ?_) fun _ => unstarted
    refine Emits.after_silent (Silent.lift _) (fun url => ?_) fun _ => unstarted
    refine Emits.after_silent (Silent.lift _) (fun sha256 => ?_) fun _ => unstarted
    refine Emits.after_silent (Silent.lift _) (fun version => ?_) fun _ => unstarted
    split
    · exact fails _
    · have started : Silent World.published (modify fun w : World =>
          { w with updates := w.updates ++ [⟨id, url, sha256, version⟩] } : Command Unit) :=
        Silent.modify fun _ => rfl
      refine started.weaken ?_ ?_
      · rintro _ l rfl
        exact ⟨[], .inr rfl, shows_nil id⟩
      · rintro _ l rfl
        exact unstarted

/-- Only an id that does not dump keeps the acknowledgement back. -/
private theorem acknowledging (host : Host) (id : ByteArray) :
    Emits World.published (publishResult host id .acknowledged ByteArray.empty ByteArray.empty (-1))
      (fun _ l => Shows id l [.acknowledged])
      fun _ l => id.validateUTF8 = false ∧ Shows id l [] := by
  cases valid : id.validateUTF8 with
  | true =>
      have report := publishResult_valid host valid Json.validateUTF8_empty
        Json.validateUTF8_empty .acknowledged (-1)
      exact report.weaken (fun _ _ shown => shown) fun _ _ impossible => impossible.elim
  | false =>
      exact (publishResult_emits host id .acknowledged _ _ _).weaken
        (fun _ _ shown => shown) fun _ _ shown => ⟨rfl, shown⟩

/-- A command whose header reads is acknowledged and handed to its handler, which settles it
unless it starts an update. Nothing comes before the acknowledgement. -/
theorem dispatch_acknowledges (host : Host) (id : ByteArray) (fields : List (String × Json)) :
    Emits World.published (dispatch host (.obj fields) id)
      (fun _ l => headerReads fields = true ∧ ∃ ss, (Ending ss ∨
        ss = [] ∧ fields.lookup "type" = some (.text "agent_update")) ∧
        Shows id l (.acknowledged :: ss))
      fun _ l => (headerReads fields = true ∧ ∃ ss, Opening ss ∧
        Shows id l (.acknowledged :: ss)) ∨
        ((id.validateUTF8 = true → headerReads fields = false) ∧ Shows id l []) := by
  have unread : ∀ l, headerReads fields = false ∧ l = [] →
      (headerReads fields = true ∧ ∃ ss, Opening ss ∧ Shows id l (.acknowledged :: ss)) ∨
        ((id.validateUTF8 = true → headerReads fields = false) ∧ Shows id l []) := by
    rintro l ⟨no, rfl⟩
    exact .inr ⟨fun _ => no, shows_nil id⟩
  have typed : Emits World.published
      (lift ((Json.obj fields).value Json.getString "type" ByteArray.empty) : Command ByteArray)
      (fun type l => (Json.obj fields).value Json.getString "type" ByteArray.empty = .ok type ∧
        l = []) (fun _ l => headerReads fields = false ∧ l = []) :=
    Emits.lift (fun _ read => ⟨read, rfl⟩) fun _ failed => ⟨headerReads_of_error (.inl failed), rfl⟩
  refine typed.bind (fun type l start => ?_) fun _ l => unread l
  obtain ⟨typeRead, rfl⟩ := start
  have timed : Emits World.published
      (lift ((Json.obj fields).value Json.getInt "timeout_sec"
        Constants.TIMEOUT_COMMAND_DEFAULT_SEC) : Command Int)
      (fun _ l => headerReads fields = true ∧ l = [])
      (fun _ l => headerReads fields = false ∧ l = []) :=
    Emits.lift (fun _ read => ⟨headerReads_of_ok typeRead read, rfl⟩)
      fun _ failed => ⟨headerReads_of_error (.inr failed), rfl⟩
  refine timed.bind (fun timeout_sec l start => ?_) fun _ l => unread l
  obtain ⟨reads, rfl⟩ := start
  have invalid : ∀ l, id.validateUTF8 = false ∧ Shows id l [] →
      (headerReads fields = true ∧ ∃ ss, Opening ss ∧ Shows id l (.acknowledged :: ss)) ∨
        ((id.validateUTF8 = true → headerReads fields = false) ∧ Shows id l []) := by
    rintro l ⟨no, shown⟩
    refine .inr ⟨fun valid => ?_, shown⟩
    rw [no] at valid
    cases valid
  refine (acknowledging host id).bind (fun _ l acknowledged => ?_) fun _ l => invalid l
  have broken : ∀ more, (∃ ss, Opening ss ∧ Shows id more ss) →
      (headerReads fields = true ∧ ∃ ss, Opening ss ∧
        Shows id (l ++ more) (.acknowledged :: ss)) ∨
        ((id.validateUTF8 = true → headerReads fields = false) ∧ Shows id (l ++ more) []) := by
    rintro more ⟨ss, opening, shown⟩
    exact .inl ⟨reads, ss, opening, acknowledged.append shown⟩
  have handled : ∀ {x : Command Unit}, Handles id x → Emits World.published x
      (fun _ more => headerReads fields = true ∧ ∃ ss, (Ending ss ∨
        ss = [] ∧ fields.lookup "type" = some (.text "agent_update")) ∧
        Shows id (l ++ more) (.acknowledged :: ss))
      fun _ more => (headerReads fields = true ∧ ∃ ss, Opening ss ∧
        Shows id (l ++ more) (.acknowledged :: ss)) ∨
        ((id.validateUTF8 = true → headerReads fields = false) ∧ Shows id (l ++ more) []) := by
    intro x handles
    refine handles.weaken ?_ fun _ more stop => broken more stop
    rintro _ more ⟨ss, ending, shown⟩
    exact ⟨reads, ss, .inl ending, acknowledged.append shown⟩
  split
  · -- reading and dumping the payload may throw before the handler starts
    apply handled
    have unstarted : ∃ ss, Opening ss ∧ Shows id [] ss := ⟨[], .inl rfl, shows_nil id⟩
    refine Emits.after_silent (Silent.lift _) (fun payload => ?_) fun _ => unstarted
    refine Emits.after_silent (Silent.lift _) (fun text => ?_) fun _ => unstarted
    exact handleShell_handles host id text timeout_sec
  · split
    · exact handled (handleRestart_handles host id)
    · split
      · exact handled (handleCollectNow_handles host id)
      · split
        · exact handled (handleScanNetwork_handles host id)
        · split
          · exact handled (handleGetInfo_handles host id)
          · split
            · rename_i update
              have asked : fields.lookup "type" = some (.text "agent_update") := by
                rw [update] at typeRead
                obtain ⟨_, same, found | ⟨_, empty⟩⟩ := Json.lookup_of_value_getString typeRead
                · obtain rfl := Json.obj.inj same
                  exact found
                · exact absurd empty agentUpdate_ne_empty
              refine (handleAgentUpdate_emits host id (.obj fields)).weaken ?_
                fun _ more stop => broken more stop
              rintro _ more ⟨ss, ending | none, shown⟩
              · exact ⟨reads, ss, .inl ending, acknowledged.append shown⟩
              · exact ⟨reads, ss, .inr ⟨none, asked⟩, acknowledged.append shown⟩
            · exact handled (handles_of_concludes (concludes_publish host id rfl _ _ _))

/-- Every command but `agent_update` is acknowledged and settled by its handler. -/
theorem dispatch_emits (host : Host) (id : ByteArray) {fields : List (String × Json)}
    (other : fields.lookup "type" ≠ some (.text "agent_update")) :
    Emits World.published (dispatch host (.obj fields) id)
      (fun _ l => ∃ ss, Ending ss ∧ Shows id l (.acknowledged :: ss))
      fun _ l => ∃ ss, Broken ss ∧ Shows id l ss := by
  refine (dispatch_acknowledges host id fields).weaken ?_ ?_
  · rintro _ l ⟨_, ss, ending | ⟨_, update⟩, shown⟩
    · exact ⟨ss, ending, shown⟩
    · exact absurd update other
  · rintro _ l (⟨_, ss, opening, shown⟩ | ⟨_, shown⟩)
    · exact ⟨_, .inr ⟨ss, opening, rfl⟩, shown⟩
    · exact ⟨[], .inl rfl, shown⟩

theorem readCommandId_of_parse {host : Host} {payload : ByteArray} {j : Json}
    (parsed : host.codec.parse payload = .ok j) :
    readCommandId host payload =
      (j.value Json.getString "command_id" ByteArray.empty).map fun id => (j, id) := by
  unfold readCommandId
  rw [parsed]
  show (do
    let command_id ← j.value Json.getString "command_id" ByteArray.empty
    pure (j, command_id)) = _
  cases j.value Json.getString "command_id" ByteArray.empty <;> rfl

/-- An id that is a string is read, and it dumps as it was parsed. -/
theorem readCommandId_of_lookup {host : Host} {payload id : ByteArray}
    {fields : List (String × Json)} (parsed : host.codec.parse payload = .ok (.obj fields))
    (named : fields.lookup "command_id" = some (.str id)) :
    id.validateUTF8 = true ∧ readCommandId host payload = .ok (.obj fields, id) := by
  refine ⟨Json.wellEncoded_of_lookup (host.codec.wellEncoded_of_parse _ _ parsed) named, ?_⟩
  have field : (Json.obj fields).value Json.getString "command_id" ByteArray.empty = .ok id := by
    simp only [Json.value, named, Json.getString]
  rw [readCommandId_of_parse parsed, field]
  rfl

theorem parse_of_readCommandId {host : Host} {payload id : ByteArray} {j : Json}
    (read : readCommandId host payload = .ok (j, id)) :
    host.codec.parse payload = .ok j ∧
      j.value Json.getString "command_id" ByteArray.empty = .ok id := by
  unfold readCommandId at read
  obtain ⟨found, parsed, read⟩ := ok_of_bind read
  obtain ⟨text, named, read⟩ := ok_of_bind read
  cases read
  exact ⟨parsed, named⟩

/-- One terminal statut at the end, and none before it. -/
def Settled (ss : List Statut) : Prop :=
  ∃ before last, ss = before ++ [last] ∧ last.terminal = true ∧
    ∀ s ∈ before, s.terminal = false

private theorem settled_of_ending {ss : List Statut} (ending : Ending ss) :
    Settled (.acknowledged :: ss) := by
  obtain ⟨last, ended, rfl | rfl⟩ := ending
  · exact ⟨[.acknowledged], last, rfl, ended, by decide⟩
  · exact ⟨[.acknowledged, .executing], last, rfl, ended, by decide⟩

private theorem settled_of_broken {ss : List Statut} (broken : Broken ss) :
    Settled (ss ++ [.failed]) := by
  refine ⟨ss, .failed, rfl, rfl, ?_⟩
  rcases broken with rfl | ⟨more, rfl | rfl, rfl⟩ <;> decide

/-- For every command with an id, other than an update, exactly one result is
terminal, and it is the last one. -/
theorem one_terminal_result_at_the_end (host : Host) (payload : ByteArray)
    (fields : List (String × Json)) (id : ByteArray) (w : World)
    (parsed : host.codec.parse payload = .ok (.obj fields))
    (named : fields.lookup "command_id" = some (.str id)) (nonempty : id.isEmpty = false)
    (other : fields.lookup "type" ≠ some (.text "agent_update")) :
    ∃ w' results statuts, (executeCommand host payload).exec w = (.ok (), w') ∧
      w'.published = w.published ++ results ∧ Shows id results statuts ∧ Settled statuts := by
  obtain ⟨idValid, read⟩ := readCommandId_of_lookup parsed named
  have emits : Emits World.published (executeCommand host payload)
      (fun _ l => ∃ statuts, Shows id l statuts ∧ Settled statuts) fun _ _ => False := by
    unfold executeCommand
    rw [read]
    have body := dispatch_emits host id other
    refine Emits.tryCatch (body.weaken (fun _ l done => ?_) fun _ _ broken => broken)
      fun e l broken => ?_
    · obtain ⟨ss, ending, shown⟩ := done
      exact ⟨_, shown, settled_of_ending ending⟩
    · obtain ⟨ss, broken, shown⟩ := broken
      rw [if_neg (by rw [nonempty]; exact Bool.false_ne_true)]
      have report := publishResult_valid host idValid Json.validateUTF8_empty
        (Json.validateUTF8_toByteArray e.what) .failed (-1)
      refine report.weaken (fun _ more failed => ?_) fun _ _ impossible => impossible
      exact ⟨_, shown.append failed, settled_of_broken broken⟩
  obtain ⟨_, w', results, run, grown, statuts, shown, settled⟩ := emits.returns w
  exact ⟨w', results, statuts, run, grown, shown, settled⟩

/-- A command whose type is a number: reading it throws before anything is published. -/
def numberTypePayload : ByteArray := "\x7b\"command_id\":\"c1\",\"type\":5\x7d".toByteArray

def numberTypeFields : List (String × Json) := [("command_id", .text "c1"), ("type", .int 5)]

def numberTypeHost : Host where
  codec :=
    { parse := fun s =>
        if s = numberTypePayload then .ok (.obj numberTypeFields)
        else .error ⟨.parse_error, "parse error"⟩
      render := fun _ =>
        "\x7b\"command_id\":\"c1\",\"device_id\":\"d1\",\"error\":" ++
          "\"[json.exception.type_error.302] type must be string, but is number\"," ++
          "\"exit_code\":null,\"output\":null,\"statut\":\"failed\"," ++
          "\"timestamp\":\"2025-01-01T00:00:00Z\"\x7d"
      badEncoding := fun _ => ⟨.other, "[json.exception.type_error.316] invalid UTF-8 byte"⟩
      wellEncoded_of_parse := fun s j parsed => by
        split at parsed <;> cases parsed
        simp [numberTypeFields] }
  device_id := "d1"
  platform := .linux
  now _ := "2025-01-01T00:00:00Z"
  runShell _ _ := .ok ⟨0, ByteArray.empty, ByteArray.empty⟩
  log_collector := true
  network_scanner := false
  update_manager := true

theorem one_result_for_number_type :
    ∃ w' results statuts,
      (executeCommand numberTypeHost numberTypePayload).exec ⟨[], [], 0, 0, []⟩ = (.ok (), w') ∧
      w'.published = [] ++ results ∧ Shows "c1".toByteArray results statuts ∧ Settled statuts :=
  one_terminal_result_at_the_end numberTypeHost numberTypePayload numberTypeFields
    "c1".toByteArray ⟨[], [], 0, 0, []⟩ (by simp [numberTypeHost]) rfl rfl (by
      simp [numberTypeFields, List.lookup_cons, Json.text])

end OrbisAgent.Services.CommandResults
