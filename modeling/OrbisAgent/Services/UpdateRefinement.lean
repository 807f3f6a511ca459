/- OrbisAgent/Services/UpdateRefinement
   source: UpdateManager::update
   digest: A call of update does to the files what a run of its own does, operation by operation. -/

import OrbisAgent.Services.SerialUpdate

set_option autoImplicit false
set_option relaxedAutoImplicit false

namespace OrbisAgent.Services.UpdateRefinement

open OrbisAgent.Lib.FileSystem
open OrbisAgent.Lib.Json
open OrbisAgent.Lib.Trace
open OrbisAgent.Lib.Transition
open OrbisAgent.Services.CommandExecutor (UpdateRequest)
open OrbisAgent.Services.UpdateManager
open OrbisAgent.Services.ConcurrentUpdate (Agent Event Op Phase Start State Installed nextBytes
  sound_start step)
open OrbisAgent.Services.SerialUpdate (Orderly orderly_step)

universe u

variable {ι : Type u} [DecidableEq ι]

/-- The guard of a run in which only one update moves. -/
def Own (i : ι) (_ : State ι) (a : ι × Event) : Prop := a.1 = i

/-- The update is at this phase, over the files of this world. -/
def At (agent : Agent ι) (i : ι) (s : State ι) (p : Phase) (w : World) : Prop :=
  w.running = agent.running ∧
    ∃ t, Reaches (step agent) (Own i) s t ∧ t.phase i = p ∧ t.fs = w.fs

/-- The update is at some phase. -/
def Somewhere (agent : Agent ι) (i : ι) (s : State ι) (w : World) : Prop :=
  ∃ p, At agent i s p w

variable {agent : Agent ι} {i : ι} {s : State ι} {p p' : Phase} {w w' : World}

theorem At.step {e : Event} {op : Op} (here : At agent i s p w)
    (move : agent.move i w.fs p e = some (p', op)) (files : w'.fs = op.apply w.fs)
    (running : w'.running = w.running) : At agent i s p' w' := by
  obtain ⟨sameProcess, t, run, phase, fs⟩ := here
  refine ⟨running.trans sameProcess, t.after agent.exe i p' op, ?_, ?_, ?_⟩
  · have moved : ConcurrentUpdate.step agent t (i, e) = some (t.after agent.exe i p' op) := by
      show (agent.move i t.fs (t.phase i) e).map _ = _
      rw [phase, fs, move]
      rfl
    exact run.tail (show (i, e).1 = i from rfl) moved
  · show Function.update t.phase i p' i = p'
    rw [Function.update_self]
  · rw [files, ← fs]
    rfl

/-- A step without an operation on the files. -/
theorem At.quiet {e : Event} (here : At agent i s p w)
    (move : agent.move i w.fs p e = some (p', .nothing)) : At agent i s p' w :=
  here.step move rfl rfl

/-- A change of the world outside the files. -/
theorem At.frame (here : At agent i s p w) (files : w'.fs = w.fs)
    (running : w'.running = w.running) : At agent i s p w' := by
  obtain ⟨sameProcess, t, run, phase, fs⟩ := here
  exact ⟨running.trans sameProcess, t, run, phase, fs.trans files.symm⟩

theorem At.somewhere (here : At agent i s p w) : Somewhere agent i s w := ⟨p, here⟩

/-- The host of the call is the agent of the run. -/
structure Same (agent : Agent ι) (host : Host) : Prop where
  platform : host.platform = agent.platform
  exe : host.exe = agent.exe
  sha256Hex : host.sha256Hex = agent.sha256Hex

variable {host : Host}

theorem publish_at (fmt : String) (document : String → Json) (here : At agent i s p w) :
    After (publish host fmt document) w (fun _ w' => At agent i s p w')
      fun _ w' => At agent i s p w' := by
  unfold After publish
  simp only [exec_bind, exec_get, exec_lift, exec_modify]
  cases host.codec.dump (document (host.now w.published.length)) with
  | ok payload => exact here.frame rfl rfl
  | error e => exact here

theorem currentBinaryPath_at (same : Same agent host) (here : At agent i s p w) :
    After (currentBinaryPath host) w
      (fun path w' => path = (agent.here w.fs).path agent.exe ∧ w' = w) fun _ _ => False := by
  refine ⟨?_, rfl⟩
  rw [same.platform, same.exe, here.1]
  rfl

/-- The steps of a run that make a copy, between a phase before and one after it. -/
structure Copies (agent : Agent ι) (i : ι) (source target : String) (before finished : Phase)
    (go : Nat → Nat → Nat → Phase) : Prop where
  apart : source ≠ target
  opens : ∀ fs, agent.move i fs before .openCopy =
    agent.openCopy fs source target fun file dest => go file dest 0
  copies : ∀ fs file dest offset n, agent.move i fs (go file dest offset) (.copy n) =
    some (go file dest (offset + (nextBytes fs file offset n).length),
      ConcurrentUpdate.put fs dest offset (nextBytes fs file offset n))
  finishes : ∀ fs file dest offset, (fs.data file).length ≤ offset →
    agent.move i fs (go file dest offset) .finish = some (finished, .nothing)

/-- The copy of the first bytes of a file, as a run makes it. -/
private theorem copied_at {source target : String} {before finished : Phase}
    {go : Nat → Nat → Nat → Phase} (steps : Copies agent i source target before finished go)
    (here : At agent i s before w) {file : Nat} (named : w.fs.dir source = some file)
    (free : busy agent.platform agent.running w.fs target = false) (n : Nat) :
    At agent i s (go file (w.fs.target target) ((w.fs.data file).take n).length)
      { w with fs := w.fs.put target ((w.fs.data file).take n) } := by
  have other : file ≠ w.fs.target target := by
    intro same
    exact w.fs.dir_ne_target steps.apart (same ▸ named)
  have opened : At agent i s (go file (w.fs.target target) 0)
      { w with fs := w.fs.openTrunc target } := by
    have move : agent.move i w.fs before .openCopy =
        some (go file (w.fs.target target) 0, .trunc target) := by
      rw [steps.opens, Agent.openCopy, named]
      simp [free]
    exact here.step move rfl rfl
  have chunk : nextBytes (w.fs.openTrunc target) file 0 n = (w.fs.data file).take n := by
    rw [nextBytes, Fs.data_openTrunc, Function.update_of_ne other, List.drop_zero]
  have copied := steps.copies (w.fs.openTrunc target) file (w.fs.target target) 0 n
  rw [chunk, Nat.zero_add] at copied
  refine opened.step copied ?_ rfl
  rw [ConcurrentUpdate.put, Fs.data_openTrunc, Function.update_self, overwrite_nil]
  rfl

theorem copyFile_at (same : Same agent host) {source target : String} {before finished : Phase}
    {go : Nat → Nat → Nat → Phase} (steps : Copies agent i source target before finished go)
    (ends : Copy) (here : At agent i s before w) :
    After (copyFile host ends source target) w (fun _ w' => At agent i s finished w')
      fun _ w' => Somewhere agent i s w' := by
  unfold After
  simp only [copyFile, exec_bind, exec_get]
  cases named : w.fs.dir source with
  | none =>
      simp only [Fs.read, named, Option.map_none]
      exact here.somewhere
  | some file =>
      simp only [Fs.read, named, Option.map_some]
      rw [same.platform, here.1]
      cases free : busy agent.platform agent.running w.fs target with
      | true => exact here.somewhere
      | false =>
          cases ends with
          | refused e => exact here.somewhere
          | broken e copied => exact (copied_at steps here named free copied).somewhere
          | done =>
              have copied := copied_at steps here named free (w.fs.data file).length
              rw [List.take_length] at copied
              refine copied.step (steps.finishes _ _ _ _ ?_) rfl rfl
              have other : file ≠ w.fs.target target := by
                intro equal
                exact w.fs.dir_ne_target steps.apart (equal ▸ named)
              simp [Fs.put, Function.update_of_ne other]

omit [DecidableEq ι] in
private theorem backup_copies (base : Link) :
    Copies agent i (base.path agent.exe) (agent.bak base) (.backup base) (.download base)
      (.saving base) where
  apart := path_ne_backupPath agent.exe base base
  opens _ := rfl
  copies _ _ _ _ _ := rfl
  finishes _ _ _ _ complete := if_pos complete

omit [DecidableEq ι] in
private theorem rollback_copies (base current : Link) :
    Copies agent i (agent.bak base) (current.path agent.exe) (.restoring base current) .ended
      .copyingBack where
  apart := (path_ne_backupPath agent.exe current base).symm
  opens _ := rfl
  copies _ _ _ _ _ := rfl
  finishes _ _ _ _ complete := if_pos complete

theorem backup_at (same : Same agent host) (o : Outcomes) (id : ByteArray) {base : Link}
    (here : At agent i s (.backup base) w) :
    After (backup host o id (base.path agent.exe) (agent.bak base)) w
      (fun ok w' => if ok then At agent i s (.download base) w' else Somewhere agent i s w')
      fun _ w' => Somewhere agent i s w' := by
  refine After.tryCatch
    ((copyFile_at same (backup_copies base) o.backup here).bind fun _ w' copied => copied) ?_
  rintro e w' ⟨q, stopped⟩
  refine ((publish_at _ _ stopped).weaken (fun _ _ seen => seen) fun _ _ seen => ?_).bind ?_
  · exact seen.somewhere
  · intro _ w'' seen
    exact seen.somewhere

theorem downloadBinary_at (d : Download) {base : Link} (here : At agent i s (.download base) w) :
    After (downloadBinary d (agent.tmp base)) w
      (fun ok w' => At agent i s (if ok then .fetched base else .removing base false) w')
      fun _ _ => False := by
  have failed : At agent i s (.removing base false) w := here.step (e := .fail) rfl rfl rfl
  have opened : At agent i s (.writing base (w.fs.target (agent.tmp base)) 0)
      { w with fs := w.fs.openTrunc (agent.tmp base) } := here.step (e := .openNew) rfl rfl rfl
  have written : At agent i s (.writing base (w.fs.target (agent.tmp base)) (0 + d.body.length))
      { w with fs := w.fs.put (agent.tmp base) d.body } := by
    refine opened.step (e := .write d.body) rfl ?_ rfl
    rw [ConcurrentUpdate.put, Fs.data_openTrunc, Function.update_self, overwrite_nil]
    rfl
  unfold After downloadBinary
  cases d.curl with
  | false => exact failed
  | true =>
      cases d.opened with
      | false => exact failed
      | true =>
          cases d.rc_ok with
          | false => exact written.step (e := .fail) rfl rfl rfl
          | true =>
              simp only [Bool.not_true, Bool.false_eq_true, if_false, exec_bind, exec_modify,
                exec_pure]
              cases d.http_code == 200 with
              | false => exact written.step (e := .fail) rfl rfl rfl
              | true => exact written.step (e := .finish) rfl rfl rfl

theorem verifySHA256_at (same : Same agent host) (o : Outcomes) {base : Link}
    (here : At agent i s (.fetched base) w) :
    After (verifySHA256 host o (agent.tmp base) (agent.request i).sha256) w
      (fun ok w' => At agent i s (if ok then .verified base else .removing base false) w')
      fun _ _ => False := by
  have asked : ¬ (agent.request i).sha256.isEmpty = true := by
    rw [(agent.wellFormed i).sha256_nonempty]
    exact Bool.false_ne_true
  have failed : At agent i s (.removing base false) w := by
    refine here.quiet (e := .fail) ?_
    exact if_neg asked
  unfold After
  simp only [verifySHA256, exec_bind, exec_get]
  cases named : w.fs.dir (agent.tmp base) with
  | none =>
      simp only [Fs.read, named, Option.map_none]
      exact failed
  | some file =>
      simp only [Fs.read, named, Option.map_some]
      cases readable : o.readable with
      | false => exact failed
      | true =>
          have opened : At agent i s (.verifying base file []) w := by
            refine here.quiet (e := .openVerify) ?_
            show (if (agent.request i).sha256.isEmpty then _ else _) = _
            rw [if_neg asked, named]
          have hashed : At agent i s (.verifying base file (w.fs.data file)) w := by
            refine opened.quiet (e := .read (w.fs.data file).length) ?_
            show some (Phase.verifying base file ([] ++ nextBytes w.fs file 0 _), Op.nothing) = _
            rw [nextBytes, List.drop_zero, List.take_length, List.nil_append]
          rw [same.sha256Hex]
          by_cases digest :
              (agent.sha256Hex (w.fs.data file)).toByteArray = (agent.request i).sha256
          · rw [decide_eq_true digest]
            refine hashed.quiet (e := .finish) ?_
            show (if _ then if _ then _ else _ else _) = _
            rw [if_pos (Nat.le_refl _), if_pos digest]
            rfl
          · rw [decide_eq_false digest]
            refine hashed.quiet (e := .finish) ?_
            show (if _ then if _ then _ else _ else _) = _
            rw [if_pos (Nat.le_refl _), if_neg digest]
            rfl

theorem removeFile_at (o : Outcomes) {base : Link} {back : Bool}
    (here : At agent i s (.removing base back) w) :
    After (removeFile o (agent.tmp base)) w
      (fun _ w' => At agent i s (if back then .rollback base else .ended) w')
      fun _ w' => Somewhere agent i s w' := by
  unfold After
  simp only [removeFile, exec_bind, exec_lift]
  cases o.remove with
  | error e => exact here.somewhere
  | ok u => exact here.step (e := .remove) rfl rfl rfl

theorem replaceBinary_at (same : Same agent host) (o : Outcomes) {base : Link}
    (here : At agent i s (.verified base) w) :
    After (replaceBinary host o (agent.tmp base)) w
      (fun ok w' => At agent i s (if ok then .restarting base else .removing base true) w')
      fun _ w' => Somewhere agent i s w' := by
  refine (currentBinaryPath_at same here).andThen ?_
  rintro _ w' ⟨rfl, unchanged⟩
  rw [unchanged]
  have located : At agent i s (.replacing base (agent.here w.fs)) w :=
    here.quiet (e := .findPath) rfl
  have failed : At agent i s (.removing base true) w := located.quiet (e := .fail) rfl
  unfold After
  simp only [exec_bind, exec_get]
  cases o.rename with
  | false => exact failed
  | true =>
      cases named : w.fs.dir (agent.tmp base) with
      | none => exact failed
      | some file =>
          have move : agent.move i w.fs (.replacing base (agent.here w.fs)) .rename =
              some (.replaced base,
                .rename (agent.tmp base) ((agent.here w.fs).path agent.exe)) := by
            simp only [Agent.move, named]
          have renamed : At agent i s (.replaced base)
              { w with fs := w.fs.rename (agent.tmp base) ((agent.here w.fs).path agent.exe) } :=
            located.step move rfl rfl
          simp only [Bool.not_true, Option.isNone_some, Bool.or_false, Bool.false_eq_true,
            if_false, exec_bind, exec_modify]
          by_cases windows : host.platform = .windows
          · rw [if_pos windows]
            exact renamed.quiet (e := .permissions) rfl
          · rw [if_neg windows, exec_bind, exec_lift]
            cases o.permissions with
            | error e => exact renamed.somewhere
            | ok u => exact renamed.quiet (e := .permissions) rfl

theorem restartService_at (o : Outcomes) {base : Link} (here : At agent i s (.restarting base) w) :
    After (restartService host o) w
      (fun ok w' => At agent i s (if ok then .ended else .rollback base) w')
      fun _ _ => False := by
  unfold After
  simp only [restartService, exec_bind, exec_modify, exec_pure]
  cases o.restart with
  | false => exact (here.quiet (e := .fail) rfl).frame rfl rfl
  | true => exact (here.quiet (e := .restart) rfl).frame rfl rfl

theorem rollback_at (same : Same agent host) (o : Outcomes) {base : Link}
    (here : At agent i s (.rollback base) w) :
    After (rollback host o (agent.bak base)) w (fun _ w' => Somewhere agent i s w')
      fun _ w' => Somewhere agent i s w' := by
  refine (currentBinaryPath_at same here).andThen ?_
  rintro _ w' ⟨rfl, unchanged⟩
  rw [unchanged]
  have located : At agent i s (.restoring base (agent.here w.fs)) w :=
    here.quiet (e := .findPath) rfl
  have copied := copyFile_at same (rollback_copies base (agent.here w.fs)) o.rollback located
  refine After.tryCatch (copied.bind fun _ w' restored => ?_) fun _ w' stopped => stopped
  split
  · exact restored.somewhere
  · unfold After
    rw [exec_bind, exec_lift]
    cases o.rollback_permissions with
    | error e => exact restored.somewhere
    | ok u => exact restored.somewhere

/-- Documents are published at every phase. -/
private theorem publish_somewhere (fmt : String) (document : String → Json)
    (here : Somewhere agent i s w) :
    After (publish host fmt document) w (fun _ w' => Somewhere agent i s w')
      fun _ w' => Somewhere agent i s w' := by
  obtain ⟨q, here⟩ := here
  exact (publish_at fmt document here).weaken (fun _ _ seen => seen.somewhere)
    fun _ _ seen => seen.somewhere

/-- Every state of the files that a computation leaves is one of the run. -/
def Covered (agent : Agent ι) (i : ι) (s : State ι) (x : Run Unit) (w : World) : Prop :=
  After x w (fun _ w' => Somewhere agent i s w') fun _ w' => Somewhere agent i s w'

private theorem covered_report {id output error message : ByteArray} {step : String}
    {statut : CommandExecutor.Statut} (here : Somewhere agent i s w) :
    Covered agent i s (do
      publishProgress host id step output message
      publishResult host id statut output error) w :=
  (publish_somewhere _ _ here).bind fun _ _ seen => publish_somewhere _ _ seen

/-- A published document in front of a computation. -/
private theorem covered_after_publish {fmt : String} {document : String → Json} {x : Run Unit}
    (here : At agent i s p w) (rest : ∀ w', At agent i s p w' → Covered agent i s x w') :
    Covered agent i s (do publish host fmt document; x) w := by
  refine ((publish_at fmt document here).weaken (fun _ _ seen => seen) fun _ _ seen => ?_).bind ?_
  · exact seen.somewhere
  · intro _ w' seen
    exact rest w' seen

theorem abandon_covered {o : Outcomes} {id error : ByteArray} {base : Link}
    (here : At agent i s (.removing base false) w) :
    Covered agent i s (abandon host o id (agent.tmp base) error) w :=
  (removeFile_at o here).bind fun _ _ removed => covered_report removed.somewhere

theorem install_covered (same : Same agent host) (o : Outcomes) (r : UpdateRequest) {base : Link}
    (here : At agent i s (.verified base) w) :
    Covered agent i s (install host o r (agent.bak base) (agent.tmp base)) w := by
  refine covered_after_publish here fun w1 here => ?_
  refine (replaceBinary_at same o here).bind fun replaced w2 here => ?_
  cases replaced with
  | false =>
      refine (removeFile_at o here).bind fun _ w3 here => ?_
      exact (rollback_at same o here).bind fun _ _ seen => covered_report seen
  | true =>
      refine covered_after_publish here fun w3 here => ?_
      refine (restartService_at o here).andThen fun restarted w4 here => ?_
      cases restarted with
      | false => exact (rollback_at same o here).bind fun _ _ seen => covered_report seen
      | true => exact covered_report here.somewhere

theorem update_covered (same : Same agent host) (o : Outcomes) (here : At agent i s .idle w) :
    Covered agent i s (update host o (agent.request i)) w := by
  have begun : At agent i s (.backup (agent.here w.fs)) w := here.quiet (e := .start) rfl
  refine (currentBinaryPath_at same here).andThen ?_
  rintro _ w' ⟨rfl, unchanged⟩
  rw [unchanged]
  refine (backup_at same o _ begun).bind fun backed_up w1 here => ?_
  cases backed_up with
  | false => exact here
  | true =>
      refine covered_after_publish here fun w2 here => ?_
      refine (downloadBinary_at o.download here).andThen fun downloaded w3 here => ?_
      cases downloaded with
      | false => exact abandon_covered here
      | true =>
          refine covered_after_publish here fun w4 here => ?_
          rw [if_neg (by rw [(agent.wellFormed i).sha256_nonempty]; exact Bool.false_ne_true)]
          refine (verifySHA256_at same o here).andThen fun checked w5 here => ?_
          cases checked with
          | false => exact abandon_covered here
          | true => exact install_covered same o _ here

/-- What a call of `update` makes of the files is what a run of its own can make of
them, in every phase of the call's steps. -/
theorem update_is_a_run (same : Same agent host) (o : Outcomes) (idle : s.phase i = .idle)
    (files : w.fs = s.fs) (running : w.running = agent.running) :
    ∃ t, Reaches (step agent) (Own i) s t ∧
      t.fs = ((update host o (agent.request i)).exec w).2.fs := by
  have here : At agent i s .idle w := ⟨running, s, .refl, idle, files.symm⟩
  have covered := update_covered same o here
  unfold Covered After at covered
  split at covered
  · rename_i ran
    rw [ran]
    obtain ⟨_, _, t, run, _, same⟩ := covered
    exact ⟨t, run, same⟩
  · rename_i ran
    rw [ran]
    obtain ⟨_, _, t, run, _, same⟩ := covered
    exact ⟨t, run, same⟩

/-- A run of its own, in which no other update has begun. -/
structure Lone (agent : Agent ι) (i : ι) (original : Content) (s : State ι) : Prop where
  orderly : Orderly agent original s
  others : ∀ j, j ≠ i → s.phase j = .idle
  installer : s.installer = none ∨ s.installer = some i

theorem lone_step (linux : agent.platform = .linux) {original : Content} {s s' : State ι}
    {a : ι × Event} (lone : Lone agent i original s) (own : Own i s a)
    (moved : step agent s a = some s') : Lone agent i original s' := by
  obtain ⟨k, e⟩ := a
  obtain rfl : k = i := own
  have alone : SerialUpdate.Alone s (k, e) := fun j other => .inl (lone.others j other)
  refine ⟨orderly_step linux lone.orderly alone moved, ?_, ?_⟩
  · obtain ⟨next, _, rfl⟩ := Option.map_eq_some_iff.mp moved
    intro j other
    show Function.update s.phase k next.1 j = .idle
    rw [Function.update_of_ne other]
    exact lone.others j other
  · obtain ⟨next, _, rfl⟩ := Option.map_eq_some_iff.mp moved
    show (if next.2.installs agent.exe then some k else s.installer) = none ∨
      (if next.2.installs agent.exe then some k else s.installer) = some k
    split
    · exact .inr rfl
    · exact lone.installer

/-- After one call of `update` on Linux, however its steps end, the binary path has
the original content or one with the digest of the request. -/
theorem update_installs_what_it_verified (linux : agent.platform = .linux)
    (same : Same agent host) (o : Outcomes) {original : Content} (start : Start agent original s)
    (files : w.fs = s.fs) (running : w.running = agent.running) :
    ∃ content, ((update host o (agent.request i)).exec w).2.fs.read agent.exe = some content ∧
      (content = original ∨
        (agent.sha256Hex content).toByteArray = (agent.request i).sha256) := by
  have initial : Lone agent i original s := by
    refine ⟨⟨sound_start start, fun j => ?_⟩, fun j _ => start.idle j, .inl start.installer⟩
    rw [start.idle j]
    trivial
  obtain ⟨t, run, ended⟩ := update_is_a_run same o (start.idle i) files running
  have lone : Lone agent i original t :=
    run.invariant (I := Lone agent i original) initial
      fun _ _ _ lone own moved => lone_step linux lone own moved
  obtain ⟨content, present, installed⟩ := lone.orderly.sound.binary
  rw [← ended]
  refine ⟨content, present, ?_⟩
  rcases lone.installer with nobody | mine
  · rw [nobody] at installed
    exact .inl installed
  · rw [mine] at installed
    exact .inr installed

end OrbisAgent.Services.UpdateRefinement
