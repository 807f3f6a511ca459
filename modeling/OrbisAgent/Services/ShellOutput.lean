/- OrbisAgent/Services/ShellOutput
   source: CommandExecutor::handleShell, CommandExecutor::publishResult
   digest: What the terminal result of a shell command carries. An output over the limit is
   reported only if the limit falls between two of its characters. -/

import OrbisAgent.Lib.ByteString
import OrbisAgent.Services.ShellPayload

set_option autoImplicit false
set_option relaxedAutoImplicit false

namespace OrbisAgent.Services.ShellOutput

open OrbisAgent.Constants
open OrbisAgent.Lib.ByteString (bytes_replicate length_bytes)
open OrbisAgent.Lib.Json
open OrbisAgent.Lib.Trace
open OrbisAgent.Services.CommandExecutor
open OrbisAgent.Services.CommandResults
open OrbisAgent.Services.ShellPayload

def truncationMarker : ByteArray := "\n[TRUNCATED]".toByteArray

/-- The result tells how the shell ended and what it printed. -/
structure Carries (result : ShellResult) (p : Published) : Prop where
  terminal : field p "statut" = some (.text Statut.success.text) ∨
    field p "statut" = some (.text Statut.failed.text)
  statut : field p "statut" = some (.text Statut.success.text) ↔ result.exit_code = 0
  exit_code : 0 ≤ result.exit_code → field p "exit_code" = some (.int result.exit_code)
  whole : result.output.size ≤ COMMAND_OUTPUT_MAX_BYTES →
    field p "output" = some (textOrNull result.output)
  cut : COMMAND_OUTPUT_MAX_BYTES < result.output.size →
    ∃ n ≤ COMMAND_OUTPUT_MAX_BYTES,
      field p "output" = some (.str (result.output.extract 0 n ++ truncationMarker))

/-- After the acknowledgement and `executing` comes one result, and it carries the outcome. -/
def ReportsOutcome (id : ByteArray) (result : ShellResult) (w w' : World) : Prop :=
  ∃ before last, w'.published = w.published ++ before ++ [last] ∧
    Shows id before [.acknowledged, .executing] ∧ Carries result last

/-- The output fits, or the limit falls between two characters. -/
def CutsBetweenCharacters (output : ByteArray) : Prop :=
  output.size ≤ COMMAND_OUTPUT_MAX_BYTES ∨
    (output.extract 0 COMMAND_OUTPUT_MAX_BYTES).validateUTF8 = true

theorem truncateOutput_fits {output : ByteArray}
    (fits : output.size ≤ COMMAND_OUTPUT_MAX_BYTES) : truncateOutput output = output := by
  unfold truncateOutput
  rw [if_neg (Nat.not_lt.mpr fits)]

theorem truncateOutput_cuts {output : ByteArray}
    (long : COMMAND_OUTPUT_MAX_BYTES < output.size) :
    truncateOutput output = output.extract 0 COMMAND_OUTPUT_MAX_BYTES ++ truncationMarker := by
  unfold truncateOutput
  rw [if_pos long]
  rfl

/-- The marker begins a character, so it makes no text valid that was cut in the middle of one. -/
theorem truncateOutput_valid_iff {output : ByteArray} (valid : output.validateUTF8 = true) :
    (truncateOutput output).validateUTF8 = true ↔ CutsBetweenCharacters output := by
  unfold CutsBetweenCharacters
  by_cases fits : output.size ≤ COMMAND_OUTPUT_MAX_BYTES
  · rw [truncateOutput_fits fits]
    exact ⟨fun _ => .inl fits, fun _ => valid⟩
  · have long := Nat.lt_of_not_le fits
    rw [truncateOutput_cuts long]
    constructor
    · intro whole
      exact .inr (Json.validateUTF8_of_append whole (by decide) (by decide))
    · rintro (short | cut)
      · exact absurd short fits
      · exact Json.validateUTF8_append cut (Json.validateUTF8_toByteArray _)

private theorem failed_ne_success :
    Json.text Statut.failed.text ≠ Json.text Statut.success.text := by
  intro same
  exact absurd (Json.str.inj same) (by decide)

/-- The document of a terminal result, field by field. -/
theorem field_terminal (host : Host) (id output error : ByteArray) (code : Int)
    (timestamp topic payload : String) :
    let p : Published := ⟨topic, resultJson host id (statutOf code) output error code timestamp,
      payload⟩
    field p "statut" = some (.text (statutOf code).text) ∧
      field p "exit_code" = some (if code < 0 then .null else .int code) ∧
      field p "output" = some (textOrNull output) := by
  have ended : (statutOf code).terminal = true := by
    unfold statutOf
    split <;> rfl
  intro p
  refine ⟨rfl, ?_, ?_⟩
  · change some (if (statutOf code).terminal then _ else Json.null) = _
    rw [ended, if_pos rfl]
  · change some (if (statutOf code).terminal then _ else Json.null) = _
    rw [ended, if_pos rfl]

theorem textOrNull_truncated (output : ByteArray) :
    textOrNull (output ++ truncationMarker) = .str (output ++ truncationMarker) := by
  have marked : (output ++ truncationMarker).isEmpty = false := by
    have size : truncationMarker.size = 12 := rfl
    simp [ByteArray.isEmpty, size]
  unfold textOrNull
  rw [marked]
  rfl

theorem carries_of_result (host : Host) (id : ByteArray) (result : ShellResult)
    (timestamp topic payload : String) :
    Carries result ⟨topic, resultJson host id (statutOf result.exit_code)
      (truncateOutput result.output) result.error result.exit_code timestamp, payload⟩ := by
  obtain ⟨statut, code, output⟩ := field_terminal host id (truncateOutput result.output)
    result.error result.exit_code timestamp topic payload
  refine ⟨?_, ?_, fun positive => ?_, fun fits => ?_, fun long => ?_⟩
  · rw [statut]
    unfold statutOf
    split
    · exact .inl rfl
    · exact .inr rfl
  · rw [statut]
    unfold statutOf
    by_cases zero : result.exit_code = 0
    · rw [if_pos zero]
      exact ⟨fun _ => zero, fun _ => rfl⟩
    · rw [if_neg zero]
      refine ⟨fun same => ?_, fun yes => absurd yes zero⟩
      exact absurd (Option.some.inj same) failed_ne_success
  · rw [code, if_neg (Int.not_lt.mpr positive)]
  · rw [output, truncateOutput_fits fits]
  · refine ⟨COMMAND_OUTPUT_MAX_BYTES, Nat.le_refl _, ?_⟩
    rw [output, truncateOutput_cuts long, textOrNull_truncated]

/-- The failure that the exception handler reports carries no output, so not a long one. -/
theorem not_carries_of_failure (host : Host) (id error : ByteArray) {result : ShellResult}
    (long : COMMAND_OUTPUT_MAX_BYTES < result.output.size) (timestamp topic payload : String) :
    ¬ Carries result ⟨topic, resultJson host id .failed ByteArray.empty error (-1) timestamp,
      payload⟩ := by
  intro carried
  obtain ⟨n, _, output⟩ := carried.cut long
  cases output

theorem textOrNull_wellEncoded_iff (output : ByteArray) :
    (textOrNull output).wellEncoded = true ↔ output.validateUTF8 = true := by
  unfold textOrNull
  split
  · rename_i none
    have empty : output = ByteArray.empty := by
      rw [ByteArray.isEmpty, beq_iff_eq] at none
      exact ByteArray.size_eq_zero_iff.mp none
    rw [empty]
    exact ⟨fun _ => Json.validateUTF8_empty, fun _ => rfl⟩
  · exact Iff.rfl

theorem wellEncoded_of_field {p : Published} {key : String} {j : Json}
    (valid : p.document.wellEncoded = true) (found : field p key = some j) :
    j.wellEncoded = true := by
  unfold field at found
  split at found
  · rename_i fields document
    rw [document] at valid
    exact Json.wellEncoded_of_lookup valid found
  · cases found

/-- A terminal result dumps just when its output is valid. -/
theorem terminal_wellEncoded_iff (host : Host) {id error : ByteArray}
    (idValid : id.validateUTF8 = true) (errorValid : error.validateUTF8 = true)
    (output : ByteArray) (code : Int) (timestamp : String) :
    (resultJson host id (statutOf code) output error code timestamp).wellEncoded = true ↔
      output.validateUTF8 = true := by
  constructor
  · intro encoded
    obtain ⟨_, _, found⟩ := field_terminal host id output error code timestamp "" ""
    exact (textOrNull_wellEncoded_iff output).mp (wellEncoded_of_field encoded found)
  · exact fun valid => resultJson_wellEncoded host idValid valid errorValid _ _ _

private theorem publishes (host : Host) {id output error : ByteArray}
    (idValid : id.validateUTF8 = true) (outputValid : output.validateUTF8 = true)
    (errorValid : error.validateUTF8 = true) (s : Statut) (code : Int) (w : World) :
    After (publishResult host id s output error code) w
      (fun _ w' => ∃ p, heading p = (some (.str id), some (.text s.text)) ∧
        w'.published = w.published ++ [p]) fun _ _ => False := by
  obtain ⟨p, shown, run⟩ := exec_publishResult_valid host idValid outputValid errorValid s code w
  unfold After
  rw [run]
  exact ⟨p, shown, rfl⟩

/-- The last step of `handleShell`: the result is published if its output can be dumped. -/
private theorem concludes_shell (host : Host) {id : ByteArray} {result : ShellResult}
    (idValid : id.validateUTF8 = true) (outputValid : result.output.validateUTF8 = true)
    (errorValid : result.error.validateUTF8 = true) (w : World) :
    After (publishResult host id (statutOf result.exit_code) (truncateOutput result.output)
        result.error result.exit_code) w
      (fun _ w' => CutsBetweenCharacters result.output ∧
        ∃ last, w'.published = w.published ++ [last] ∧ Carries result last)
      fun _ w' => ¬ CutsBetweenCharacters result.output ∧ w'.published = w.published := by
  have dumps := (terminal_wellEncoded_iff host idValid errorValid (truncateOutput result.output)
    result.exit_code (host.now w.published.length)).trans (truncateOutput_valid_iff outputValid)
  unfold After
  rw [exec_publishResult]
  by_cases cuts : CutsBetweenCharacters result.output
  · rw [Codec.dump_of_wellEncoded host.codec (dumps.mpr cuts)]
    exact ⟨cuts, _, rfl, carries_of_result host id result _ _ _⟩
  · have ill := mt dumps.mp cuts
    unfold Codec.dump
    rw [if_neg ill]
    exact ⟨cuts, rfl⟩

section Command

variable (host : Host) {text id : ByteArray} {fields : List (String × Json)}
  (parsed : host.codec.parse text = .ok (.obj fields))
  (shell : fields.lookup "type" = some (.text "shell")) (named : commandId fields = .ok id)
  {timeout_sec : Int} (timed : timeoutSec fields = .ok timeout_sec)
  {result : ShellResult}
  (nonempty : (shellCommand host
    (host.codec.render ((fields.lookup "payload").getD .null))).isEmpty = false)
  (ran : host.runShell (shellCommand host
    (host.codec.render ((fields.lookup "payload").getD .null))) timeout_sec = .ok result)
  (outputValid : result.output.validateUTF8 = true)
  (errorValid : result.error.validateUTF8 = true)

include parsed shell named timed nonempty ran outputValid errorValid

/-- What a shell command has published when `dispatch` ends: with an output that can be dumped
also the terminal result, otherwise only what came before it. -/
theorem dispatch_reports (w : World) :
    After (dispatch host (.obj fields) id) w
      (fun _ w' => CutsBetweenCharacters result.output ∧ ReportsOutcome id result w w')
      fun _ w' => ¬ CutsBetweenCharacters result.output ∧ ∃ before,
        w'.published = w.published ++ before ∧ Shows id before [.acknowledged, .executing] := by
  have idValid := commandId_valid host parsed named
  have acknowledged := publishes host idValid Json.validateUTF8_empty Json.validateUTF8_empty
    .acknowledged (-1) w
  refine dispatch_shell host parsed shell timed acknowledged fun t begun => ?_
  obtain ⟨first, firstShown, firstGrown⟩ := begun
  unfold handleShell
  dsimp only
  rw [nonempty, if_neg Bool.false_ne_true]
  have executing := publishes host idValid Json.validateUTF8_empty Json.validateUTF8_empty
    .executing (-1) t
  refine executing.andThen fun _ u going => ?_
  obtain ⟨second, secondShown, secondGrown⟩ := going
  have shown : Shows id [first, second] [.acknowledged, .executing] := by
    show [heading first, heading second] = _
    rw [firstShown, secondShown]
    rfl
  have grown : u.published = w.published ++ [first, second] := by
    rw [secondGrown, firstGrown, List.append_assoc]
    rfl
  have returns : After (runShell host (shellCommand host
      (host.codec.render ((fields.lookup "payload").getD .null))) timeout_sec) u
      (fun r v => r = result ∧ v.published = u.published) fun _ _ => False := by
    unfold After runShell
    rw [exec_bind, exec_modify]
    dsimp only
    rw [exec_lift, ran]
    exact ⟨rfl, rfl⟩
  refine returns.andThen fun r v back => ?_
  obtain ⟨rfl, same⟩ := back
  refine (concludes_shell host idValid outputValid errorValid v).weaken ?_ ?_
  · rintro _ w' ⟨cuts, last, published, carries⟩
    refine ⟨cuts, [first, second], last, ?_, shown, carries⟩
    rw [published, same, grown]
  · rintro _ w' ⟨cuts, published⟩
    refine ⟨cuts, [first, second], ?_, shown⟩
    rw [published, same, grown]

private theorem executeCommand_outcome (w : World) :
    CutsBetweenCharacters result.output ∧
        ReportsOutcome id result w ((executeCommand host text).exec w).2 ∨
      ¬ CutsBetweenCharacters result.output ∧
        ¬ ReportsOutcome id result w ((executeCommand host text).exec w).2 := by
  have body := dispatch_reports host parsed shell named timed nonempty ran outputValid errorValid w
  have idValid := commandId_valid host parsed named
  refine After.final (fun w' =>
    CutsBetweenCharacters result.output ∧ ReportsOutcome id result w w' ∨
    ¬ CutsBetweenCharacters result.output ∧ ¬ ReportsOutcome id result w w') ?_
  unfold executeCommand
  rw [readCommandId_of_parse parsed, show (Json.obj fields).value _ _ _ = _ from named]
  refine (body.weaken (fun _ w' done => ?_) fun _ _ stop => stop).tryCatch fun e t stop => ?_
  · exact .inl done
  · obtain ⟨cuts, before, published, shown⟩ := stop
    have long : COMMAND_OUTPUT_MAX_BYTES < result.output.size :=
      Nat.lt_of_not_le fun fits => cuts (.inl fits)
    have two := congrArg List.length shown
    simp only [List.length_map, List.length_cons, List.length_nil] at two
    split
    · refine .inr ⟨cuts, ?_⟩
      rintro ⟨again, last, same, others, _⟩
      have lengths := congrArg List.length (published.symm.trans same)
      have three := congrArg List.length others
      simp only [List.length_append, List.length_map, List.length_cons, List.length_nil]
        at lengths three
      omega
    · unfold After
      rw [exec_publishResult]
      have encoded := resultJson_wellEncoded host idValid Json.validateUTF8_empty
        (Json.validateUTF8_toByteArray e.what) .failed (-1) (host.now t.published.length)
      rw [Codec.dump_of_wellEncoded host.codec encoded]
      refine .inr ⟨cuts, ?_⟩
      rintro ⟨again, last, same, _, carries⟩
      have ends := List.append_inj_right' same rfl
      obtain rfl := List.singleton_inj.mp ends
      exact absurd carries (not_carries_of_failure host id _ long _ _ _)

/-- The terminal result of a shell command tells how it ended and what it printed if and only if
the output is within the limit or the limit falls between two characters. -/
theorem outcome_reported_iff_cut_between_characters (w : World) :
    ReportsOutcome id result w ((executeCommand host text).exec w).2 ↔
      CutsBetweenCharacters result.output := by
  rcases executeCommand_outcome host parsed shell named timed nonempty ran outputValid errorValid w
    with ⟨cuts, reports⟩ | ⟨cuts, silent⟩
  · exact ⟨fun _ => cuts, fun _ => reports⟩
  · exact ⟨fun reports => absurd reports silent, fun yes => absurd yes cuts⟩

end Command

/-- A listing that fits is reported whole. -/
theorem listing_is_reported :
    let payload := Json.obj [("command", .text "ls")]
    let host := listingHost payload rfl
    ReportsOutcome "c1".toByteArray ⟨0, "a.txt".toByteArray, ByteArray.empty⟩ idleWorld
        ((executeCommand host (listingText payload)).exec idleWorld).2 ↔
      CutsBetweenCharacters "a.txt".toByteArray := by
  intro payload host
  exact outcome_reported_iff_cut_between_characters host rfl rfl rfl rfl rfl rfl
    (Json.validateUTF8_toByteArray "a.txt") Json.validateUTF8_empty idleWorld

private theorem second_byte : ¬ "é".toByteArray[1].IsUTF8FirstByte := by decide

/-- A character of two bytes right before the limit is cut in two. -/
theorem split_character {letters : ByteArray} (valid : letters.validateUTF8 = true)
    (size : letters.size + 1 = COMMAND_OUTPUT_MAX_BYTES) :
    ¬ CutsBetweenCharacters (letters ++ "é".toByteArray) := by
  have two : "é".toByteArray.size = 2 := rfl
  have whole : (letters ++ "é".toByteArray).validateUTF8 = true :=
    Json.validateUTF8_append valid (Json.validateUTF8_toByteArray "é")
  have long : (letters ++ "é".toByteArray).size = COMMAND_OUTPUT_MAX_BYTES + 1 := by
    rw [ByteArray.size_append]
    omega
  rintro (fits | cut)
  · omega
  · have first := (Json.validateUTF8_extract_iff whole (by omega) (by omega)).mp cut
    have index : COMMAND_OUTPUT_MAX_BYTES - letters.size = 1 := by omega
    rw [ByteArray.getElem_append_right (by omega)] at first
    simp only [index] at first
    exact second_byte first

/-- Letters up to one byte before the limit, and a character of two bytes. -/
def letters : String := String.ofList (List.replicate (COMMAND_OUTPUT_MAX_BYTES - 1) 'a')

def accentedOutput : ByteArray := letters.toByteArray ++ "é".toByteArray

def accentedResult : ShellResult := ⟨0, accentedOutput, ByteArray.empty⟩

def accentedHost : Host :=
  { listingHost (.obj [("command", .text "ls")]) rfl with
    runShell := fun _ _ => .ok accentedResult }

theorem accentedHost_runShell (command : ByteArray) (timeout_sec : Int) :
    accentedHost.runShell command timeout_sec = .ok accentedResult := by
  unfold accentedHost
  rfl

theorem accentedOutput_valid : accentedOutput.validateUTF8 = true :=
  Json.validateUTF8_append (Json.validateUTF8_toByteArray _) (Json.validateUTF8_toByteArray _)

theorem accentedOutput_split : ¬ CutsBetweenCharacters accentedOutput := by
  have limit : COMMAND_OUTPUT_MAX_BYTES = 65536 := rfl
  have size : letters.toByteArray.size = COMMAND_OUTPUT_MAX_BYTES - 1 := by
    rw [letters, ← length_bytes, bytes_replicate, List.length_replicate]
  unfold accentedOutput
  exact split_character (Json.validateUTF8_toByteArray letters) (by omega)

/-- A successful command whose output is cut inside a character is reported failed, without
its output. -/
theorem cut_character_loses_outcome :
    let text := listingText (.obj [("command", .text "ls")])
    accentedOutput.validateUTF8 = true ∧
      ¬ ReportsOutcome "c1".toByteArray accentedResult idleWorld
        ((executeCommand accentedHost text).exec idleWorld).2 := by
  intro text
  have parsed : accentedHost.codec.parse text =
      .ok (.obj (listingFields (.obj [("command", .text "ls")]))) := rfl
  have outcome := executeCommand_outcome accentedHost parsed rfl rfl rfl rfl
    (accentedHost_runShell _ _) accentedOutput_valid Json.validateUTF8_empty idleWorld
  refine ⟨accentedOutput_valid, ?_⟩
  rcases outcome with ⟨cuts, _⟩ | ⟨_, silent⟩
  · exact absurd cuts accentedOutput_split
  · exact silent

end OrbisAgent.Services.ShellOutput
