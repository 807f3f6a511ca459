/- OrbisAgent/Services/UpdateResults
   source: UpdateManager::update
   digest: What one update run publishes and leaves at the binary path, for all its endings. -/

import OrbisAgent.Services.UpdateManager
import OrbisAgent.Services.UpdateRequests

set_option autoImplicit false
set_option relaxedAutoImplicit false

namespace OrbisAgent.Services.UpdateResults

open OrbisAgent.Constants
open OrbisAgent.Lib.FileSystem
open OrbisAgent.Lib.Json
open OrbisAgent.Lib.Trace
open OrbisAgent.Services.CommandExecutor (Published Statut UpdateRequest textOrNull)
open OrbisAgent.Services.CommandResults (field)
open OrbisAgent.Services.UpdateManager
open OrbisAgent.Services.UpdateRequests (WellFormed abcDigest abcRequest abcRequest_wellFormed)

/-- The statut of a document on the results topic, when it ends the command. -/
def terminal (host : Host) (p : Published) : Option Statut :=
  if p.topic = topicFor TOPIC_RESULTS_FMT host.device_id then
    match field p "statut" with
    | some (.str s) =>
        if s = Statut.success.text.toByteArray then some .success
        else if s = Statut.failed.text.toByteArray then some .failed
        else none
    | _ => none
  else none

/-- What an observer sees of a run: the terminal results so far, what the
program reads as its own path, and the files at the binary path and beside it. -/
structure View where
  results : List Statut
  link : Link
  binary : Content
  tmp : Option Content

structure Sees (host : Host) (start w : World) (v : View) : Prop where
  results : ∃ more, w.published = start.published ++ more ∧
    more.filterMap (terminal host) = v.results
  link : currentLink host.platform host.exe w.running w.fs = v.link
  binary : w.fs.read host.exe = some v.binary
  tmp : w.fs.read (tmpPath host.exe) = v.tmp

section Steps

variable {host : Host} {start w : World} {v : View}

private theorem textOrNull_valid {b : ByteArray} (valid : b.validateUTF8 = true) :
    (textOrNull b).wellEncoded = true := by
  unfold textOrNull
  split
  · exact Json.wellEncoded_null
  · exact valid

theorem publish_after {fmt : String} {document : String → Json} {added : List Statut}
    (valid : ∀ t, (document t).wellEncoded = true)
    (shows : ∀ t payload,
      [⟨topicFor fmt host.device_id, document t, payload⟩].filterMap (terminal host) = added)
    (sees : Sees host start w v) :
    After (publish host fmt document) w
      (fun _ w' => Sees host start w' { v with results := v.results ++ added })
      fun _ _ => False := by
  let t := host.now w.published.length
  let new : Published := ⟨topicFor fmt host.device_id, document t, host.codec.render (document t)⟩
  have ran : (publish host fmt document).exec w =
      (.ok (), { w with published := w.published ++ [new] }) := by
    simp only [publish, exec_bind, exec_get, exec_lift, exec_modify,
      Codec.dump_of_wellEncoded host.codec (valid _), new, t]
  obtain ⟨more, grown, seen⟩ := sees.results
  unfold After
  rw [ran]
  refine ⟨⟨more ++ [new], ?_, ?_⟩, sees.link, sees.binary, sees.tmp⟩
  · rw [grown, List.append_assoc]
  · rw [List.filterMap_append, seen, shows t]

theorem publishProgress_after {id output error : ByteArray} (idValid : id.validateUTF8 = true)
    (outputValid : output.validateUTF8 = true) (errorValid : error.validateUTF8 = true)
    (step : String) (sees : Sees host start w v) :
    After (publishProgress host id step output error) w (fun _ w' => Sees host start w' v)
      fun _ _ => False := by
  have kept : { v with results := v.results ++ [] } = v := by rw [List.append_nil]
  rw [← kept]
  refine publish_after (fun t => ?_) (fun t payload => ?_) sees
  · simp [progressJson, idValid, textOrNull_valid outputValid, textOrNull_valid errorValid]
  · have silent : terminal host ⟨topicFor TOPIC_UPDATE_PROGRESS_FMT host.device_id,
        progressJson host id step output error t, payload⟩ = none := by
      unfold terminal
      split
      · rfl
      · rfl
    rw [List.filterMap_cons_none silent, List.filterMap_nil]

theorem publishResult_after {id output error : ByteArray} (idValid : id.validateUTF8 = true)
    (outputValid : output.validateUTF8 = true) (errorValid : error.validateUTF8 = true)
    {s : Statut} (ended : s.terminal = true) (sees : Sees host start w v) :
    After (publishResult host id s output error) w
      (fun _ w' => Sees host start w' { v with results := v.results ++ [s] })
      fun _ _ => False := by
  refine publish_after (fun t => ?_) (fun t payload => ?_) sees
  · simp [resultJson, idValid, textOrNull_valid outputValid, textOrNull_valid errorValid]
  · have shown : terminal host ⟨topicFor TOPIC_RESULTS_FMT host.device_id,
        resultJson host id s output error t, payload⟩ = some s := by
      unfold terminal
      rw [if_pos rfl]
      cases s
      · cases ended
      · cases ended
      · rfl
      · rfl
    rw [List.filterMap_cons_some shown, List.filterMap_nil]

/-- Nothing changed, or a file was created or replaced at this path. -/
def Written (w : World) (p : String) (w' : World) : Prop :=
  w' = w ∨ ∃ content, w' = { w with fs := w.fs.put p content }

theorem copyFile_after (ends : Copy) (source target : String) :
    After (copyFile host ends source target) w
      (fun _ w' => ends = .done ∧ busy host.platform w.running w.fs target = false ∧
        Written w target w')
      fun _ w' => (busy host.platform w.running w.fs target = true → w' = w) ∧
        Written w target w' ∧
        (ends = .done →
          w.fs.read source = none ∨ busy host.platform w.running w.fs target = true) := by
  unfold After
  simp only [copyFile, exec_bind, exec_get]
  cases w.fs.read source with
  | none => exact ⟨fun _ => rfl, .inl rfl, fun _ => .inl rfl⟩
  | some content =>
      by_cases inUse : busy host.platform w.running w.fs target = true
      · simp only [if_pos inUse, exec_throw]
        exact ⟨fun _ => trivial, .inl rfl, fun _ => .inr inUse⟩
      · have free := Bool.eq_false_iff.mpr inUse
        simp only [if_neg inUse]
        cases ends with
        | done => exact ⟨rfl, free, .inr ⟨content, rfl⟩⟩
        | refused e => exact ⟨fun taken => absurd taken inUse, .inl rfl, nofun⟩
        | broken e copied =>
            exact ⟨fun taken => absurd taken inUse, .inr ⟨content.take copied, rfl⟩, nofun⟩

private theorem currentLink_congr {fs fs' : Files} (same : fs'.dir host.exe = fs.dir host.exe) :
    currentLink host.platform host.exe w.running fs' =
      currentLink host.platform host.exe w.running fs := by
  unfold currentLink
  rw [same]

theorem Sees.written (sees : Sees host start w v) {p : String} {w' : World}
    (written : Written w p w') (notExe : host.exe ≠ p) (notTmp : tmpPath host.exe ≠ p) :
    Sees host start w' v := by
  rcases written with rfl | ⟨content, rfl⟩
  · exact sees
  · exact
      { results := sees.results
        link := (currentLink_congr (Fs.dir_put_other w.fs notExe content)).trans sees.link
        binary := (Fs.read_put_other w.fs notExe content).trans sees.binary
        tmp := (Fs.read_put_other w.fs notTmp content).trans sees.tmp }

private theorem exe_ne_tmpPath : host.exe ≠ tmpPath host.exe := path_ne_tmpPath host.exe .live .live

private theorem started_of_live (linux : host.platform = .linux) (sees : Sees host start w v)
    (live : v.link = .live) : w.fs.dir host.exe = some w.running := by
  have link := sees.link
  rw [live, linux] at link
  by_contra moved
  simp [currentLink, moved] at link

/-- A backup ends with `true` when its copy does; otherwise its failure is published. -/
theorem backup_after {o : Outcomes} {id : ByteArray} (idValid : id.validateUTF8 = true)
    (live : v.link = .live) (linux : host.platform = .linux) (sees : Sees host start w v) :
    After (backup host o id host.exe (backupPath host.exe)) w
      (fun ok w' => (ok = true → o.backup = .done ∧ Sees host start w' v) ∧
        (ok = false → o.backup ≠ .done ∧
          Sees host start w' { v with results := v.results ++ [.failed] }))
      fun _ _ => False := by
  have notExe : host.exe ≠ backupPath host.exe := path_ne_backupPath host.exe .live .live
  have notTmp : tmpPath host.exe ≠ backupPath host.exe := tmpPath_ne_backupPath host.exe .live .live
  have started := started_of_live linux sees live
  have free : busy host.platform w.running w.fs (backupPath host.exe) = false := by
    have other : w.fs.dir (backupPath host.exe) ≠ some w.running := by
      intro same
      exact notExe (w.fs.injective _ _ _ started same)
    simp [busy, other]
  have copied : After (copyFile host o.backup host.exe (backupPath host.exe)) w
      (fun _ w' => o.backup = .done ∧ Sees host start w' v)
      fun _ w' => o.backup ≠ .done ∧ Sees host start w' v := by
    refine (copyFile_after o.backup host.exe (backupPath host.exe)).weaken ?_ ?_
    · rintro _ w' ⟨done, _, written⟩
      exact ⟨done, sees.written written notExe notTmp⟩
    · rintro _ w' ⟨_, written, why⟩
      refine ⟨fun done => ?_, sees.written written notExe notTmp⟩
      rcases why done with missing | inUse
      · rw [sees.binary] at missing
        cases missing
      · rw [free] at inUse
        cases inUse
  refine After.tryCatch (copied.bind ?_) ?_
  · intro _ w' kept
    exact ⟨fun _ => kept, nofun⟩
  · rintro e w' ⟨notDone, seen⟩
    have error : ("Backup failed: ".toByteArray ++ e.what.toByteArray).validateUTF8 = true :=
      Json.validateUTF8_append (Json.validateUTF8_toByteArray _) (Json.validateUTF8_toByteArray _)
    refine After.bind (publishResult_after idValid Json.validateUTF8_empty error rfl seen) ?_
    intro _ w'' reported
    exact ⟨nofun, fun _ => ⟨notDone, reported⟩⟩

/-- The download comes to its end with status 200. -/
def succeeds (d : Download) : Bool := d.curl && d.opened && d.rc_ok && d.http_code == 200

theorem downloadBinary_after (d : Download) (sees : Sees host start w v) :
    After (downloadBinary d (tmpPath host.exe)) w
      (fun ok w' => ok = succeeds d ∧ ∃ tmp, (ok = true → tmp = some d.body) ∧
        Sees host start w' { v with tmp := tmp })
      fun _ _ => False := by
  have stored : Sees host start { w with fs := w.fs.put (tmpPath host.exe) d.body }
      { v with tmp := some d.body } :=
    { results := sees.results
      link := (currentLink_congr (Fs.dir_put_other w.fs exe_ne_tmpPath d.body)).trans sees.link
      binary := (Fs.read_put_other w.fs exe_ne_tmpPath d.body).trans sees.binary
      tmp := Fs.read_put_same w.fs (tmpPath host.exe) d.body }
  unfold After downloadBinary succeeds
  cases d.curl with
  | false => exact ⟨rfl, v.tmp, nofun, sees⟩
  | true =>
      cases d.opened with
      | false => exact ⟨rfl, v.tmp, nofun, sees⟩
      | true =>
          cases d.rc_ok with
          | false => exact ⟨rfl, some d.body, fun _ => rfl, stored⟩
          | true => exact ⟨rfl, some d.body, fun _ => rfl, stored⟩

/-- The file that was downloaded can be read and has the expected digest. -/
def verified (host : Host) (o : Outcomes) (r : UpdateRequest) : Bool :=
  o.readable && decide ((host.sha256Hex o.download.body).toByteArray = r.sha256)

theorem verifySHA256_after {o : Outcomes} {r : UpdateRequest}
    (downloaded : v.tmp = some o.download.body) (sees : Sees host start w v) :
    After (verifySHA256 host o (tmpPath host.exe) r.sha256) w
      (fun ok w' => ok = verified host o r ∧ Sees host start w' v) fun _ _ => False := by
  unfold After
  have present := sees.tmp.trans downloaded
  simp only [verifySHA256, exec_bind, exec_get, present]
  exact ⟨rfl, sees⟩

theorem removeFile_after (o : Outcomes) (sees : Sees host start w v) :
    After (removeFile o (tmpPath host.exe)) w
      (fun _ w' => o.remove = .ok () ∧ Sees host start w' { v with tmp := none })
      fun _ _ => o.remove ≠ .ok () := by
  unfold After
  simp only [removeFile, exec_bind, exec_lift]
  cases o.remove with
  | error e => exact nofun
  | ok u =>
      refine ⟨rfl, sees.results, ?_, ?_, ?_⟩
      · have kept : (w.fs.remove (tmpPath host.exe)).dir host.exe = w.fs.dir host.exe := by
          rw [Fs.dir_remove, Function.update_of_ne exe_ne_tmpPath]
        exact (currentLink_congr kept).trans sees.link
      · exact (Fs.read_remove_other w.fs exe_ne_tmpPath).trans sees.binary
      · simp [Fs.read]

theorem restartService_after (o : Outcomes) (sees : Sees host start w v) :
    After (restartService host o) w (fun ok w' => ok = o.restart ∧ Sees host start w' v)
      fun _ _ => False :=
  ⟨rfl, sees.results, sees.link, sees.binary, sees.tmp⟩

/-- A replacement renames the new file onto the binary path, and the program no
longer reads that path as its own. -/
theorem replaceBinary_after (linux : host.platform = .linux) (o : Outcomes) {body : Content}
    (live : v.link = .live) (downloaded : v.tmp = some body) (sees : Sees host start w v) :
    After (replaceBinary host o (tmpPath host.exe)) w
      (fun ok w' => ok = o.rename ∧ (ok = false → Sees host start w' v) ∧
        (ok = true → o.permissions = .ok () ∧
          Sees host start w' { v with link := .deleted, binary := body, tmp := none }))
      fun _ _ => o.rename = true ∧ o.permissions ≠ .ok () := by
  have started := started_of_live linux sees live
  have present := sees.tmp.trans downloaded
  obtain ⟨file, named, _⟩ := Option.map_eq_some_iff.mp present
  have current : currentLink host.platform host.exe w.running w.fs = .live := sees.link.trans live
  have apart : host.platform ≠ .windows := by
    rw [linux]
    decide
  unfold After
  simp only [replaceBinary, currentBinaryPath, exec_bind, exec_get, exec_pure, current, named,
    Option.isNone_some, Bool.or_false, Link.path]
  cases o.rename with
  | false => exact ⟨rfl, fun _ => sees, fun done => by cases done⟩
  | true =>
      have moved := Fs.dir_rename named host.exe
      simp only [Bool.not_true, Bool.false_eq_true, if_false, exec_bind, exec_modify, if_neg apart,
        exec_lift]
      cases o.permissions with
      | error e => exact ⟨trivial, fun set => by cases set⟩
      | ok u =>
          refine ⟨rfl, (fun failed => by cases failed), fun _ => ⟨rfl, sees.results, ?_, ?_, ?_⟩⟩
          · have other : file ≠ w.running := by
              intro same
              subst same
              exact exe_ne_tmpPath (w.fs.injective _ _ _ started named)
            simp [linux, currentLink, moved, other]
          · exact Fs.read_rename_target present host.exe
          · simp [Fs.read, moved, Function.update_of_ne exe_ne_tmpPath.symm]

/-- On Linux a rollback never changes the binary path: while it names the running
program it is busy, and afterwards the copy goes to the deleted form of the path. -/
theorem rollback_after (linux : host.platform = .linux) (o : Outcomes) (backup_path : String)
    (sees : Sees host start w v) :
    After (rollback host o backup_path) w (fun _ w' => Sees host start w' v)
      fun _ _ => False := by
  have current := sees.link
  have located : After (currentBinaryPath host) w (fun p w' => p = v.link.path host.exe ∧ w' = w)
      fun _ _ => False := by
    refine ⟨?_, rfl⟩
    rw [current]
  refine located.andThen ?_
  · rintro _ w' ⟨rfl, same⟩
    rw [same]
    have copied : After (copyFile host o.rollback backup_path (v.link.path host.exe)) w
        (fun _ w' => Sees host start w' v) fun _ w' => Sees host start w' v := by
      cases link : v.link with
      | live =>
          have inUse : busy host.platform w.running w.fs host.exe = true := by
            have started := started_of_live linux sees link
            simp [busy, linux, started]
          refine (copyFile_after o.rollback backup_path host.exe).weaken ?_ ?_
          · rintro _ w' ⟨_, free, _⟩
            rw [inUse] at free
            cases free
          · rintro _ w' ⟨unchanged, _⟩
            rw [unchanged inUse]
            exact sees
      | deleted =>
          have notExe : host.exe ≠ Link.deleted.path host.exe := by
            intro (same : Link.live.path host.exe = Link.deleted.path host.exe)
            cases path_injective same
          have notTmp : tmpPath host.exe ≠ Link.deleted.path host.exe :=
            (path_ne_tmpPath host.exe .deleted .live).symm
          refine (copyFile_after o.rollback backup_path _).weaken ?_ ?_
          · rintro _ w' ⟨_, _, written⟩
            exact sees.written written notExe notTmp
          · rintro _ w' ⟨_, written, _⟩
            exact sees.written written notExe notTmp
    refine After.tryCatch (copied.bind ?_) ?_
    · intro _ w' seen
      have apart : host.platform ≠ .windows := by
        rw [linux]
        decide
      rw [if_neg apart]
      unfold After
      rw [exec_bind, exec_lift]
      cases o.rollback_permissions <;> exact seen
    · intro _ w' seen
      exact seen

end Steps

/-- How a run ends: with an exception that nothing catches, or with one result and
this content at the binary path. -/
inductive Fate
  | throws
  | ends (statut : Statut) (binary : Content)
  deriving DecidableEq

/-- The end of a run that gives up before the rename. -/
def abandonFate (o : Outcomes) (original : Content) : Fate :=
  match o.remove with
  | .ok _ => .ends .failed original
  | .error _ => .throws

/-- The end of a run from the rename on. After the rename the new content stays. -/
def installFate (o : Outcomes) (original : Content) : Fate :=
  if o.rename then
    match o.permissions with
    | .ok _ => .ends (if o.restart then .success else .failed) o.download.body
    | .error _ => .throws
  else abandonFate o original

def fate (host : Host) (o : Outcomes) (r : UpdateRequest) (original : Content) : Fate :=
  match o.backup with
  | .done =>
      if succeeds o.download && verified host o r then installFate o original
      else abandonFate o original
  | .refused _ | .broken _ _ => .ends .failed original

/-- From a world, a computation ends as the fate says. -/
def Meets (host : Host) (start : World) (x : Run Unit) (w : World) (f : Fate) : Prop :=
  After x w
    (fun _ w' => ∃ s v, v.results = [s] ∧ Sees host start w' v ∧ f = .ends s v.binary)
    fun _ _ => f = .throws

section Whole

variable {host : Host} {start w : World} {v : View}

private theorem meets_report {id error : ByteArray} (idValid : id.validateUTF8 = true)
    (errorValid : error.validateUTF8 = true) (message : ByteArray)
    (messageValid : message.validateUTF8 = true) (step : String) (quiet : v.results = [])
    (sees : Sees host start w v) :
    Meets host start (do
      publishProgress host id step ByteArray.empty message
      publishResult host id .failed ByteArray.empty error) w (.ends .failed v.binary) := by
  refine After.andThen
    (publishProgress_after idValid Json.validateUTF8_empty messageValid step sees) ?_
  intro _ w' seen
  refine (publishResult_after idValid Json.validateUTF8_empty errorValid rfl seen).weaken
    (fun _ w'' shown => ?_) fun _ _ impossible => impossible.elim
  refine ⟨.failed, _, ?_, shown, rfl⟩
  show v.results ++ [.failed] = [.failed]
  rw [quiet, List.nil_append]

private theorem meets_after_remove {o : Outcomes} {x : Run Unit} (sees : Sees host start w v)
    (rest : ∀ w', Sees host start w' { v with tmp := none } →
      Meets host start x w' (.ends .failed v.binary)) :
    Meets host start (do
      removeFile o (tmpPath host.exe)
      x) w (abandonFate o v.binary) := by
  have removed := removeFile_after o sees
  unfold abandonFate
  cases ended : o.remove with
  | ok u =>
      have returned : After (removeFile o (tmpPath host.exe)) w
          (fun _ w' => Sees host start w' { v with tmp := none }) fun _ _ => False :=
        removed.weaken (fun _ _ seen => seen.2) fun _ _ failed => failed ended
      refine returned.andThen fun _ w' seen => ?_
      exact (rest w' seen).weaken (fun _ _ done => done) fun _ _ impossible => impossible
  | error e =>
      have threw : After (removeFile o (tmpPath host.exe)) w (fun _ _ => False)
          fun _ _ => Fate.throws = .throws := by
        refine removed.weaken (fun _ _ seen => ?_) fun _ _ _ => rfl
        rw [ended] at seen
        cases seen.1
      exact threw.bind fun _ _ impossible => impossible.elim

theorem abandon_meets {o : Outcomes} {id error : ByteArray} (idValid : id.validateUTF8 = true)
    (errorValid : error.validateUTF8 = true) (quiet : v.results = [])
    (sees : Sees host start w v) :
    Meets host start (abandon host o id (tmpPath host.exe) error) w (abandonFate o v.binary) :=
  meets_after_remove sees fun _ seen =>
    meets_report (v := { v with tmp := none }) idValid errorValid error errorValid "failed"
      quiet seen

private theorem meets_rollback_report (linux : host.platform = .linux) {o : Outcomes}
    {id error : ByteArray} (idValid : id.validateUTF8 = true)
    (errorValid : error.validateUTF8 = true) (backup_path : String) (message : ByteArray)
    (messageValid : message.validateUTF8 = true) (quiet : v.results = [])
    (sees : Sees host start w v) :
    Meets host start (do
      let _ ← rollback host o backup_path
      publishProgress host id "rollback" ByteArray.empty message
      publishResult host id .failed ByteArray.empty error) w (.ends .failed v.binary) := by
  refine After.andThen (rollback_after linux o backup_path sees) ?_
  intro _ w' seen
  exact meets_report idValid errorValid message messageValid "rollback" quiet seen

theorem install_meets (linux : host.platform = .linux) {o : Outcomes} {r : UpdateRequest}
    (wellFormed : WellFormed r) (backup_path : String) (quiet : v.results = [])
    (live : v.link = .live) (downloaded : v.tmp = some o.download.body)
    (sees : Sees host start w v) :
    Meets host start (install host o r backup_path (tmpPath host.exe)) w
      (installFate o v.binary) := by
  have idValid := wellFormed.command_id
  have valid := Json.validateUTF8_toByteArray
  refine After.andThen (publishProgress_after idValid (valid _) Json.validateUTF8_empty _ sees) ?_
  intro _ w1 seen1
  refine After.bind ((replaceBinary_after linux o live downloaded seen1).weaken
    (fun _ _ replaced => replaced) fun _ w2 broken => ?_) fun replaced w2 outcome => ?_
  · obtain ⟨renamed, throws⟩ := broken
    unfold installFate
    rw [if_pos renamed]
    cases ended : o.permissions with
    | ok u => exact absurd ended throws
    | error e => rfl
  · obtain ⟨same, kept, moved⟩ := outcome
    unfold installFate
    rw [← same]
    cases replaced with
    | false =>
        refine meets_after_remove (kept rfl) fun w3 seen3 => ?_
        exact meets_rollback_report (v := { v with tmp := none }) linux idValid (valid _)
          backup_path _ (valid _) quiet seen3
    | true =>
        obtain ⟨permitted, seen2⟩ := moved rfl
        rw [if_pos rfl, permitted]
        refine After.andThen
          (publishProgress_after idValid (valid _) Json.validateUTF8_empty _ seen2) ?_
        intro _ w3 seen3
        refine After.andThen (restartService_after o seen3) ?_
        rintro _ w4 ⟨rfl, seen4⟩
        cases o.restart with
        | false =>
            exact meets_rollback_report
              (v := { v with link := .deleted, binary := o.download.body, tmp := none }) linux
              idValid (valid _) backup_path _ (valid _) quiet seen4
        | true =>
            have output : ("Updated to ".toByteArray ++ r.version ++
                " successfully".toByteArray).validateUTF8 = true :=
              Json.validateUTF8_append (Json.validateUTF8_append (valid _) wellFormed.version)
                (valid _)
            refine After.andThen
              (publishProgress_after idValid output Json.validateUTF8_empty _ seen4) ?_
            intro _ w5 seen5
            refine (publishResult_after idValid output Json.validateUTF8_empty rfl seen5).weaken
              (fun _ w6 shown => ?_) fun _ _ impossible => impossible.elim
            refine ⟨.success, _, ?_, shown, rfl⟩
            show v.results ++ [.success] = [.success]
            rw [quiet, List.nil_append]

/-- A whole run from a program whose path names the running file. -/
theorem update_meets (linux : host.platform = .linux) {o : Outcomes} {r : UpdateRequest}
    (wellFormed : WellFormed r) (quiet : v.results = []) (live : v.link = .live)
    (sees : Sees host start w v) :
    Meets host start (update host o r) w (fate host o r v.binary) := by
  have idValid := wellFormed.command_id
  have valid := Json.validateUTF8_toByteArray
  have here : currentLink host.platform host.exe w.running w.fs = .live := sees.link.trans live
  have located : After (currentBinaryPath host) w (fun p w' => p = host.exe ∧ w' = w)
      fun _ _ => False := by
    refine ⟨?_, rfl⟩
    rw [here]
    rfl
  refine After.andThen located ?_
  rintro _ w' ⟨rfl, same⟩
  rw [same]
  refine After.andThen (backup_after idValid live linux sees) ?_
  intro backed_up w1 outcome
  cases backed_up with
  | false =>
      obtain ⟨notDone, seen1⟩ := outcome.2 rfl
      refine ⟨.failed, _, ?_, seen1, ?_⟩
      · show v.results ++ [.failed] = [.failed]
        rw [quiet, List.nil_append]
      · unfold fate
        cases ended : o.backup with
        | done => exact absurd ended notDone
        | refused e => rfl
        | broken e copied => rfl
  | true =>
      obtain ⟨done, seen1⟩ := outcome.1 rfl
      have urlValid (prefixed : String) : (prefixed.toByteArray ++ r.url).validateUTF8 = true :=
        Json.validateUTF8_append (valid _) wellFormed.url
      unfold fate
      rw [done]
      refine After.andThen
        (publishProgress_after idValid (urlValid _) Json.validateUTF8_empty _ seen1) ?_
      intro _ w2 seen2
      refine After.andThen (downloadBinary_after o.download seen2) ?_
      rintro _ w3 ⟨rfl, tmp, downloaded, seen3⟩
      cases complete : succeeds o.download with
      | false => exact abandon_meets (v := { v with tmp := tmp }) idValid (urlValid _) quiet seen3
      | true =>
          obtain rfl := downloaded complete
          refine After.andThen
            (publishProgress_after idValid (valid _) Json.validateUTF8_empty _ seen3) ?_
          intro _ w4 seen4
          rw [if_neg (by rw [wellFormed.sha256_nonempty]; exact Bool.false_ne_true)]
          refine After.andThen (verifySHA256_after rfl seen4) ?_
          rintro _ w5 ⟨rfl, seen5⟩
          cases verified host o r with
          | false =>
              exact abandon_meets (v := { v with tmp := some o.download.body }) idValid (valid _)
                quiet seen5
          | true =>
              exact install_meets (v := { v with tmp := some o.download.body }) linux wellFormed
                (backupPath host.exe) quiet live rfl seen5

end Whole

/-- The run returns after exactly one terminal result. When it is `failed` the
binary path has the original content, and when it is `success` the downloaded
content, with the digest that was asked for. -/
def Kept (host : Host) (o : Outcomes) (r : UpdateRequest) (w : World) (original : Content) :
    Prop :=
  ∃ w' more s, (update host o r).exec w = (.ok (), w') ∧
    w'.published = w.published ++ more ∧ more.filterMap (terminal host) = [s] ∧
    (s = .failed → w'.fs.read host.exe = some original) ∧
    (s = .success → w'.fs.read host.exe = some o.download.body ∧
      (host.sha256Hex o.download.body).toByteArray = r.sha256)

/-- Once the backup is made: a rename that happens is followed by a permission
change that does not throw, and by a restart unless the new content is the
original one; when no rename happens, `fs::remove` does not throw. -/
def Recovers (host : Host) (o : Outcomes) (r : UpdateRequest) (original : Content) : Prop :=
  o.backup = .done →
    if succeeds o.download && verified host o r && o.rename then
      o.permissions = .ok () ∧ (o.restart = true ∨ o.download.body = original)
    else o.remove = .ok ()

/-- A fate that keeps the promise. -/
def Good (host : Host) (o : Outcomes) (r : UpdateRequest) (original : Content) : Fate → Prop
  | .throws => False
  | .ends s binary => (s = .failed → binary = original) ∧
      (s = .success → binary = o.download.body ∧
        (host.sha256Hex o.download.body).toByteArray = r.sha256)

theorem kept_iff_good {host : Host} (linux : host.platform = .linux) (o : Outcomes)
    {r : UpdateRequest} (wellFormed : WellFormed r) {w : World} {original : Content}
    (started : w.fs.dir host.exe = some w.running)
    (holds : w.fs.read host.exe = some original) :
    Kept host o r w original ↔ Good host o r original (fate host o r original) := by
  have sees : Sees host w w ⟨[], .live, original, w.fs.read (tmpPath host.exe)⟩ :=
    { results := ⟨[], (List.append_nil _).symm, rfl⟩
      link := by simp [currentLink, linux, started]
      binary := holds
      tmp := rfl }
  have meets := update_meets linux (o := o) wellFormed rfl rfl sees
  unfold Meets at meets
  change After _ _ _ fun _ _ => fate host o r original = .throws at meets
  cases ended : fate host o r original with
  | throws =>
      rw [ended] at meets
      constructor
      · rintro ⟨w', more, s, returned, _⟩
        unfold After at meets
        rw [returned] at meets
        obtain ⟨s, v, _, _, impossible⟩ := meets
        cases impossible
      · intro no
        exact no.elim
  | ends s binary =>
      rw [ended] at meets
      obtain ⟨u, w', ran, s', v, only, seen, same⟩ :=
        (meets.weaken (fun _ _ done => done) fun _ _ no => by cases no).returns
      cases same
      obtain ⟨more, grown, shown⟩ := seen.results
      have shown' := shown.trans only
      constructor
      · rintro ⟨w2, more2, s2, ran2, grown2, shown2, failed, success⟩
        rw [ran] at ran2
        obtain rfl := congrArg Prod.snd ran2
        have sameMore : more = more2 := List.append_cancel_left (grown.symm.trans grown2)
        rw [sameMore, shown2] at shown'
        obtain rfl := (List.cons.inj shown').1
        refine ⟨fun isFailed => ?_, fun isSuccess => ?_⟩
        · exact Option.some.inj (seen.binary.symm.trans (failed isFailed))
        · obtain ⟨read, digest⟩ := success isSuccess
          exact ⟨Option.some.inj (seen.binary.symm.trans read), digest⟩
      · rintro ⟨failed, success⟩
        refine ⟨w', more, s, ran, grown, shown', fun isFailed => ?_, fun isSuccess => ?_⟩
        · rw [seen.binary, failed isFailed]
        · obtain ⟨same, digest⟩ := success isSuccess
          exact ⟨by rw [seen.binary, same], digest⟩

private theorem good_abandon (host : Host) (o : Outcomes) (r : UpdateRequest)
    (original : Content) :
    Good host o r original (abandonFate o original) ↔ o.remove = .ok () := by
  unfold abandonFate
  cases o.remove with
  | ok u => exact ⟨fun _ => rfl, fun _ => ⟨fun _ => rfl, nofun⟩⟩
  | error e => exact ⟨fun no => no.elim, nofun⟩

private theorem good_install {host : Host} {o : Outcomes} {r : UpdateRequest}
    (checked : verified host o r = true) (original : Content) :
    Good host o r original (installFate o original) ↔
      if o.rename then o.permissions = .ok () ∧ (o.restart = true ∨ o.download.body = original)
      else o.remove = .ok () := by
  have digest : (host.sha256Hex o.download.body).toByteArray = r.sha256 := by
    unfold verified at checked
    rw [Bool.and_eq_true, decide_eq_true_eq] at checked
    exact checked.2
  unfold installFate
  cases o.rename with
  | false => exact good_abandon host o r original
  | true =>
      cases o.permissions with
      | error e => exact ⟨fun no => no.elim, fun ⟨no, _⟩ => by cases no⟩
      | ok u =>
          cases o.restart with
          | true =>
              constructor
              · intro _
                exact ⟨rfl, .inl rfl⟩
              · intro _
                exact ⟨nofun, fun _ => ⟨rfl, digest⟩⟩
          | false =>
              constructor
              · rintro ⟨kept, _⟩
                exact ⟨rfl, .inr (kept rfl)⟩
              · rintro ⟨_, no | same⟩
                · cases no
                · exact ⟨fun _ => same, nofun⟩

theorem good_iff_recovers (host : Host) (o : Outcomes) (r : UpdateRequest) (original : Content) :
    Good host o r original (fate host o r original) ↔ Recovers host o r original := by
  unfold fate Recovers
  cases o.backup with
  | refused e => exact ⟨fun _ => nofun, fun _ => ⟨fun _ => rfl, nofun⟩⟩
  | broken e copied => exact ⟨fun _ => nofun, fun _ => ⟨fun _ => rfl, nofun⟩⟩
  | done =>
      cases complete : succeeds o.download with
      | false =>
          have abandoned := good_abandon host o r original
          exact ⟨fun good _ => abandoned.mp good, fun kept => abandoned.mpr (kept rfl)⟩
      | true =>
          cases checked : verified host o r with
          | false =>
              have abandoned := good_abandon host o r original
              exact ⟨fun good _ => abandoned.mp good, fun kept => abandoned.mpr (kept rfl)⟩
          | true =>
              have installed := good_install checked original
              exact ⟨fun good _ => installed.mp good, fun kept => installed.mpr (kept rfl)⟩

/-- Over all endings of the steps of one run on Linux: the run keeps its promise
exactly when it recovers. -/
theorem kept_iff_recovers (host : Host) (linux : host.platform = .linux) (o : Outcomes)
    (r : UpdateRequest) (wellFormed : WellFormed r) (w : World) (original : Content)
    (started : w.fs.dir host.exe = some w.running)
    (holds : w.fs.read host.exe = some original) :
    Kept host o r w original ↔ Recovers host o r original :=
  (kept_iff_good linux o wellFormed started holds).trans (good_iff_recovers host o r original)

def scalarText : Json → String
  | .str s => "\"" ++ (String.fromUTF8? s).getD "" ++ "\""
  | _ => "null"

/-- An agent on Linux, with a codec that is right on the documents of an update. -/
def linuxHost : Host where
  codec :=
    { parse := fun _ => .error ⟨.parse_error, "[json.exception.parse_error.101] parse error"⟩
      render := fun
        | .obj fields => "\x7b" ++ ",".intercalate
            (fields.map fun f => "\"" ++ f.1 ++ "\":" ++ scalarText f.2) ++ "\x7d"
        | j => scalarText j
      badEncoding := fun _ => ⟨.other, "[json.exception.type_error.316] invalid UTF-8 byte"⟩
      wellEncoded_of_parse := nofun }
  device_id := "d1"
  platform := .linux
  now _ := "2025-01-01T00:00:00Z"
  exe := "/usr/bin/orbis-agent"
  sha256Hex content := if content = [97, 98, 99] then abcDigest else ""

/-- The agent runs from its path, with the content `a`. -/
def installedWorld : World := ⟨Fs.empty.put linuxHost.exe [97], 0, [], []⟩

/-- Every step succeeds, and the file that arrives is `abc`. -/
def allSucceed : Outcomes where
  backup := .done
  download := ⟨true, true, [97, 98, 99], true, 200⟩
  readable := true
  remove := .ok ()
  rename := true
  permissions := .ok ()
  restart := true
  rollback := .done
  rollback_permissions := .ok ()

private theorem installedWorld_started :
    installedWorld.fs.dir linuxHost.exe = some installedWorld.running := by
  simp [installedWorld, Fs.put, Fs.target, Fs.empty]

theorem kept_when_all_succeed : Kept linuxHost allSucceed abcRequest installedWorld [97] := by
  refine (kept_iff_recovers linuxHost rfl allSucceed abcRequest abcRequest_wellFormed
    installedWorld [97] installedWorld_started (Fs.read_put_same _ _ _)).mpr ?_
  intro _
  rw [if_pos (by decide)]
  exact ⟨rfl, .inl rfl⟩

/-- All steps succeed but the restart: the result says `rolled back`, and the
downloaded file is still at the binary path. -/
theorem failed_restart_is_not_rolled_back :
    ¬ Kept linuxHost { allSucceed with restart := false } abcRequest installedWorld [97] := by
  rw [kept_iff_good rfl _ abcRequest_wellFormed installedWorld_started (Fs.read_put_same _ _ _)]
  have ended : fate linuxHost { allSucceed with restart := false } abcRequest [97] =
      .ends .failed [97, 98, 99] := by
    decide
  rw [ended]
  rintro ⟨same, _⟩
  have impossible := same rfl
  revert impossible
  decide

end OrbisAgent.Services.UpdateResults
