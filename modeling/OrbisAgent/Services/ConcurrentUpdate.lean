/- OrbisAgent/Services/ConcurrentUpdate
   source: UpdateManager::update, CommandExecutor::executeCommand (one thread for each update)
   digest: Any number of update runs over the same files, one file operation at a time, and what
   is found at the binary path. -/

import OrbisAgent.Lib.Transition
import OrbisAgent.Services.UpdateManager
import OrbisAgent.Services.UpdateRequests

set_option autoImplicit false
set_option relaxedAutoImplicit false

namespace OrbisAgent.Services.ConcurrentUpdate

open OrbisAgent.Constants (Platform)
open OrbisAgent.Lib.FileSystem
open OrbisAgent.Lib.Transition
open OrbisAgent.Services.CommandExecutor (UpdateRequest)
open OrbisAgent.Services.UpdateManager (Content Files Link backupPath tmpPath currentLink busy
  path_injective path_ne_backupPath path_ne_tmpPath tmpPath_ne_backupPath tmpPath_injective)
open OrbisAgent.Services.UpdateRequests (WellFormed abcDigest abcRequest abcRequest_wellFormed)

universe u

/-- The process that all the runs belong to, and the request of each run. -/
structure Agent (ι : Type u) where
  platform : Platform
  exe : String
  running : Nat
  sha256Hex : Content → String
  request : ι → UpdateRequest
  wellFormed : ∀ i, WellFormed (request i)

/-- Where a run stands, with its local data: the link that it started from, files
that it has open, and how far it has come in them. -/
inductive Phase
  | idle
  | backup (base : Link)
  | saving (base : Link) (source dest offset : Nat)
  | download (base : Link)
  | writing (base : Link) (file offset : Nat)
  | fetched (base : Link)
  | verifying (base : Link) (file : Nat) (hashed : Content)
  | verified (base : Link)
  | replacing (base current : Link)
  | replaced (base : Link)
  | restarting (base : Link)
  | removing (base : Link) (thenRollback : Bool)
  | rollback (base : Link)
  | restoring (base current : Link)
  | copyingBack (source dest offset : Nat)
  | ended
  deriving DecidableEq

/-- What a run does next, as far as the code leaves it open. `fail` is an error
return or an exception of the step at hand. -/
inductive Event
  | start
  | openCopy
  | copy (n : Nat)
  | openNew
  | write (chunk : Content)
  | openVerify
  | read (n : Nat)
  | findPath
  | rename
  | permissions
  | restart
  | remove
  | finish
  | fail

/-- The operation on the files that goes with an event. -/
inductive Op
  | nothing
  | trunc (p : String)
  | store (file : Nat) (content : Content)
  | rename (p q : String)
  | remove (p : String)

def Op.apply (op : Op) (fs : Files) : Files :=
  match op with
  | .nothing => fs
  | .trunc p => fs.openTrunc p
  | .store file content => fs.store file content
  | .rename p q => fs.rename p q
  | .remove p => fs.remove p

/-- The next bytes of a file, at most `n` of them. -/
def nextBytes (fs : Files) (file offset n : Nat) : Content := ((fs.data file).drop offset).take n

def put (fs : Files) (file offset : Nat) (chunk : Content) : Op :=
  .store file (overwrite 0 (fs.data file) offset chunk)

variable {ι : Type u}

namespace Agent

def here (agent : Agent ι) (fs : Files) : Link :=
  currentLink agent.platform agent.exe agent.running fs

def bak (agent : Agent ι) (base : Link) : String := backupPath (base.path agent.exe)

def tmp (agent : Agent ι) (base : Link) : String := tmpPath (base.path agent.exe)

/-- `fs::copy_file` opens its source and empties its target. -/
def openCopy (agent : Agent ι) (fs : Files) (source target : String)
    (go : Nat → Nat → Phase) : Option (Phase × Op) :=
  match fs.dir source with
  | some file =>
      if busy agent.platform agent.running fs target then none
      else some (go file (fs.target target), .trunc target)
  | none => none

/-- The step of `update` that a run takes in its phase. -/
def move (agent : Agent ι) (i : ι) (fs : Files) : Phase → Event → Option (Phase × Op)
  | .idle, .start => some (.backup (agent.here fs), .nothing)
  | .backup base, .openCopy =>
      agent.openCopy fs (base.path agent.exe) (agent.bak base) fun source dest =>
        .saving base source dest 0
  | .backup _, .fail => some (.ended, .nothing)
  | .saving base source dest offset, .copy n =>
      let chunk := nextBytes fs source offset n
      some (.saving base source dest (offset + chunk.length), put fs dest offset chunk)
  | .saving base source _ offset, .finish =>
      if (fs.data source).length ≤ offset then some (.download base, .nothing) else none
  | .saving _ _ _ _, .fail => some (.ended, .nothing)
  | .download base, .openNew =>
      some (.writing base (fs.target (agent.tmp base)) 0, .trunc (agent.tmp base))
  | .download base, .fail => some (.removing base false, .nothing)
  | .writing base file offset, .write chunk =>
      some (.writing base file (offset + chunk.length), put fs file offset chunk)
  | .writing base _ _, .finish => some (.fetched base, .nothing)
  | .writing base _ _, .fail => some (.removing base false, .nothing)
  | .fetched base, .openVerify =>
      if (agent.request i).sha256.isEmpty then some (.verified base, .nothing)
      else
        match fs.dir (agent.tmp base) with
        | some file => some (.verifying base file [], .nothing)
        | none => some (.removing base false, .nothing)
  | .fetched base, .fail =>
      if (agent.request i).sha256.isEmpty then none else some (.removing base false, .nothing)
  | .verifying base file hashed, .read n =>
      some (.verifying base file (hashed ++ nextBytes fs file hashed.length n), .nothing)
  | .verifying base file hashed, .finish =>
      if (fs.data file).length ≤ hashed.length then
        if (agent.sha256Hex hashed).toByteArray = (agent.request i).sha256 then
          some (.verified base, .nothing)
        else some (.removing base false, .nothing)
      else none
  | .verified base, .findPath => some (.replacing base (agent.here fs), .nothing)
  | .replacing base current, .rename =>
      match fs.dir (agent.tmp base) with
      | some _ => some (.replaced base, .rename (agent.tmp base) (current.path agent.exe))
      | none => none
  | .replacing base _, .fail => some (.removing base true, .nothing)
  | .replaced base, .permissions => some (.restarting base, .nothing)
  | .replaced _, .fail => some (.ended, .nothing)
  | .restarting _, .restart => some (.ended, .nothing)
  | .restarting base, .fail => some (.rollback base, .nothing)
  | .removing base thenRollback, .remove =>
      some (if thenRollback then .rollback base else .ended, .remove (agent.tmp base))
  | .removing _ _, .fail => some (.ended, .nothing)
  | .rollback base, .findPath => some (.restoring base (agent.here fs), .nothing)
  | .restoring base current, .openCopy =>
      agent.openCopy fs (agent.bak base) (current.path agent.exe) fun source dest =>
        .copyingBack source dest 0
  | .restoring _ _, .fail => some (.ended, .nothing)
  | .copyingBack source dest offset, .copy n =>
      let chunk := nextBytes fs source offset n
      some (.copyingBack source dest (offset + chunk.length), put fs dest offset chunk)
  | .copyingBack source _ offset, .finish =>
      if (fs.data source).length ≤ offset then some (.ended, .nothing) else none
  | .copyingBack _ _ _, .fail => some (.ended, .nothing)
  | _, _ => none

end Agent

/-- The shared files and every run. `installer` is not in the code: the run whose
rename put the present file at the binary path. -/
structure State (ι : Type u) where
  fs : Files
  phase : ι → Phase
  installer : Option ι

def Op.installs (op : Op) (exe : String) : Bool :=
  match op with
  | .rename _ q => q == exe
  | .nothing | .trunc _ | .store _ _ | .remove _ => false

variable [DecidableEq ι]

def State.after (s : State ι) (exe : String) (i : ι) (phase : Phase) (op : Op) : State ι where
  fs := op.apply s.fs
  phase := Function.update s.phase i phase
  installer := if op.installs exe then some i else s.installer

def step (agent : Agent ι) (s : State ι) (a : ι × Event) : Option (State ι) :=
  (agent.move a.1 s.fs (s.phase a.1) a.2).map fun next =>
    s.after agent.exe a.1 next.1 next.2

/-- From the opening of the new file for its verification to the rename. -/
def Phase.window : Phase → Option Link
  | .verifying base _ _ | .verified base | .replacing base _ => some base
  | _ => none

/-- Any files may be there from earlier runs of the agent. -/
structure Start (agent : Agent ι) (original : Content) (s : State ι) : Prop where
  idle : ∀ i, s.phase i = .idle
  started : s.fs.dir agent.exe = some agent.running
  content : s.fs.data agent.running = original
  installer : s.installer = none

/-- A phase with no file open, nothing checked and no path looked up. -/
def Phase.bare : Phase → Bool
  | .idle | .backup _ | .download _ | .fetched _ | .replaced _ | .restarting _ | .removing _ _
  | .rollback _ | .ended => true
  | .saving _ _ _ _ | .writing _ _ _ | .verifying _ _ _ | .verified _ | .replacing _ _
  | .restoring _ _ | .copyingBack _ _ _ => false

/-- What a step does to the files, and which open files, checks and looked up
paths it leaves behind. -/
inductive Moves (agent : Agent ι) (i : ι) (fs : Files) : Phase → Phase → Op → Prop
  | quiet {p p' : Phase} (bare : p'.bare = true) : Moves agent i fs p p' .nothing
  | opensBackup (base : Link) (source : Nat) :
      Moves agent i fs (.backup base) (.saving base source (fs.target (agent.bak base)) 0)
        (.trunc (agent.bak base))
  | saves (base : Link) (source dest offset offset' : Nat) (content : Content) :
      Moves agent i fs (.saving base source dest offset) (.saving base source dest offset')
        (.store dest content)
  | opensNew (base : Link) :
      Moves agent i fs (.download base) (.writing base (fs.target (agent.tmp base)) 0)
        (.trunc (agent.tmp base))
  | writes (base : Link) (file offset offset' : Nat) (content : Content) :
      Moves agent i fs (.writing base file offset) (.writing base file offset')
        (.store file content)
  | opened (base : Link) (file : Nat) (named : fs.dir (agent.tmp base) = some file) :
      Moves agent i fs (.fetched base) (.verifying base file []) .nothing
  | hashes (base : Link) (file : Nat) (hashed : Content) (n : Nat) :
      Moves agent i fs (.verifying base file hashed)
        (.verifying base file (hashed ++ nextBytes fs file hashed.length n)) .nothing
  | passes (base : Link) (file : Nat) (hashed : Content)
      (complete : (fs.data file).length ≤ hashed.length)
      (digest : (agent.sha256Hex hashed).toByteArray = (agent.request i).sha256) :
      Moves agent i fs (.verifying base file hashed) (.verified base) .nothing
  | locates (base : Link) :
      Moves agent i fs (.verified base) (.replacing base (agent.here fs)) .nothing
  | renames (base current : Link) (file : Nat) (named : fs.dir (agent.tmp base) = some file) :
      Moves agent i fs (.replacing base current) (.replaced base)
        (.rename (agent.tmp base) (current.path agent.exe))
  | removes (base : Link) (back : Bool) {p' : Phase} (bare : p'.bare = true) :
      Moves agent i fs (.removing base back) p' (.remove (agent.tmp base))
  | looksBack (base : Link) :
      Moves agent i fs (.rollback base) (.restoring base (agent.here fs)) .nothing
  | opensBinary (base current : Link) (source : Nat)
      (free : busy agent.platform agent.running fs (current.path agent.exe) = false) :
      Moves agent i fs (.restoring base current)
        (.copyingBack source (fs.target (current.path agent.exe)) 0)
        (.trunc (current.path agent.exe))
  | restores (source dest offset offset' : Nat) (content : Content) :
      Moves agent i fs (.copyingBack source dest offset) (.copyingBack source dest offset')
        (.store dest content)

omit [DecidableEq ι] in
private theorem openCopy_cases {agent : Agent ι} {fs : Files} {source target : String}
    {go : Nat → Nat → Phase} {p' : Phase} {op : Op}
    (move : agent.openCopy fs source target go = some (p', op)) :
    ∃ file, busy agent.platform agent.running fs target = false ∧
      p' = go file (fs.target target) ∧ op = .trunc target := by
  unfold Agent.openCopy at move
  split at move
  · rename_i file named
    split at move
    · cases move
    · rename_i free
      cases move
      exact ⟨file, Bool.eq_false_iff.mpr free, rfl, rfl⟩
  · cases move

omit [DecidableEq ι] in
theorem moves_of_move {agent : Agent ι} {i : ι} {fs : Files} {p p' : Phase} {e : Event} {op : Op}
    (move : agent.move i fs p e = some (p', op)) : Moves agent i fs p p' op := by
  have asked : ¬ (agent.request i).sha256.isEmpty = true := by
    rw [(agent.wellFormed i).sha256_nonempty]
    exact Bool.false_ne_true
  unfold Agent.move at move
  split at move
  all_goals try first
    | (cases move; exact .quiet rfl)
    | (cases move; done)
  · obtain ⟨file, _, rfl, rfl⟩ := openCopy_cases move
    exact .opensBackup _ file
  · cases move
    exact .saves _ _ _ _ _ _
  · -- the end of the backup
    split at move
    · cases move
      exact .quiet rfl
    · cases move
  · cases move
    exact .opensNew _
  · cases move
    exact .writes _ _ _ _ _
  · -- the opening for the verification
    rw [if_neg asked] at move
    split at move
    · cases move
      exact .opened _ _ ‹_›
    · cases move
      exact .quiet rfl
  · rw [if_neg asked] at move
    cases move
    exact .quiet rfl
  · cases move
    exact .hashes _ _ _ _
  · -- the end of the file that is hashed
    split at move
    · split at move
      · cases move
        exact .passes _ _ _ ‹_› ‹_›
      · cases move
        exact .quiet rfl
    · cases move
  · cases move
    exact .locates _
  · split at move
    · cases move
      exact .renames _ _ _ ‹_›
    · cases move
  · cases move
    refine .removes _ _ ?_
    split <;> rfl
  · cases move
    exact .looksBack _
  · obtain ⟨file, free, rfl, rfl⟩ := openCopy_cases move
    exact .opensBinary _ _ file free
  · cases move
    exact .restores _ _ _ _ _
  · -- the end of the rollback
    split at move
    · cases move
      exact .quiet rfl
    · cases move

/-- An operation that leaves the file at the binary path alone, and every new file
that a run is verifying or has verified. -/
def Harmless (agent : Agent ι) (s : State ι) : Op → Prop
  | .trunc p => p ≠ agent.exe ∧
      ∀ j, ∀ base ∈ (s.phase j).window, p ≠ agent.tmp base
  | .store file _ => s.fs.dir agent.exe ≠ some file ∧
      ∀ j, ∀ base ∈ (s.phase j).window, s.fs.dir (agent.tmp base) ≠ some file
  | .nothing | .rename _ _ | .remove _ => True

/-- The guard of a run in which nobody writes to the file at the binary path, nor
to a new file between its verification and its rename. -/
def KeepsApart (agent : Agent ι) (s : State ι) (a : ι × Event) : Prop :=
  ∀ next ∈ agent.move a.1 s.fs (s.phase a.1) a.2, Harmless agent s next.2

instance {n : Nat} (agent : Agent (Fin n)) (s : State (Fin n)) (op : Op) :
    Decidable (Harmless agent s op) :=
  match op with
  | .trunc p => inferInstanceAs (Decidable (p ≠ agent.exe ∧
      ∀ j, ∀ base ∈ (s.phase j).window, p ≠ agent.tmp base))
  | .store file _ => inferInstanceAs (Decidable (s.fs.dir agent.exe ≠ some file ∧
      ∀ j, ∀ base ∈ (s.phase j).window, s.fs.dir (agent.tmp base) ≠ some file))
  | .nothing | .rename _ _ | .remove _ => isTrue trivial

instance {n : Nat} (agent : Agent (Fin n)) (s : State (Fin n)) (a : Fin n × Event) :
    Decidable (KeepsApart agent s a) :=
  inferInstanceAs (Decidable (∀ next ∈ agent.move a.1 s.fs (s.phase a.1) a.2,
    Harmless agent s next.2))

/-- What a run in its window has established about the file it is going to rename. -/
def Checked (agent : Agent ι) (i : ι) (fs : Files) : Phase → Prop
  | .verifying base file hashed =>
      ∀ f, fs.dir (agent.tmp base) = some f →
        f = file ∧ hashed <+: fs.data file
  | .verified base | .replacing base _ =>
      ∀ f, fs.dir (agent.tmp base) = some f →
        (agent.sha256Hex (fs.data f)).toByteArray = (agent.request i).sha256
  | _ => True

/-- The content at the binary path is the original one while nobody has renamed a
file onto it, and then has the digest that the last one to do so was given. -/
def Installed (agent : Agent ι) (original : Content) (installer : Option ι) (content : Content) :
    Prop :=
  match installer with
  | none => content = original
  | some i => (agent.sha256Hex content).toByteArray = (agent.request i).sha256

/-- A path that names the same file with the same content as before, or none. -/
def Steady (fs fs' : Files) (p : String) : Prop :=
  ∀ f, fs'.dir p = some f → fs.dir p = some f ∧ fs'.data f = fs.data f

omit [DecidableEq ι] in
private theorem checked_of_bare {agent : Agent ι} {i : ι} {fs : Files} {p : Phase}
    (bare : p.bare = true) : Checked agent i fs p := by
  cases p <;> trivial

omit [DecidableEq ι] in
private theorem checked_steady {agent : Agent ι} {i : ι} {fs fs' : Files} {p : Phase}
    (steady : ∀ base, p.window = some base → Steady fs fs' (agent.tmp base))
    (checked : Checked agent i fs p) : Checked agent i fs' p := by
  cases p with
  | verifying base file hashed =>
      intro f named
      obtain ⟨before, same⟩ := steady base rfl f named
      obtain ⟨rfl, hashes⟩ := checked f before
      exact ⟨rfl, same ▸ hashes⟩
  | verified base =>
      intro f named
      obtain ⟨before, same⟩ := steady base rfl f named
      rw [same]
      exact checked f before
  | replacing base current =>
      intro f named
      obtain ⟨before, same⟩ := steady base rfl f named
      rw [same]
      exact checked f before
  | _ => trivial

omit [DecidableEq ι] in
/-- A step that stays in a window, or enters one, keeps what the window has checked. -/
private theorem checked_move {agent : Agent ι} {i : ι} {fs : Files} {p p' : Phase} {op : Op}
    (moves : Moves agent i fs p p' op) (checked : Checked agent i fs p) :
    Checked agent i (op.apply fs) p' := by
  cases moves with
  | quiet bare => exact checked_of_bare bare
  | removes base back bare => exact checked_of_bare bare
  | opensBackup | saves | opensNew | writes | renames | looksBack | opensBinary | restores =>
      trivial
  | opened base file named =>
      intro f other
      have same : f = file := Option.some.inj (other.symm.trans named)
      exact ⟨same, List.nil_prefix⟩
  | hashes base file hashed n =>
      intro f named
      obtain ⟨same, rest, whole⟩ := checked f named
      refine ⟨same, ?_⟩
      show hashed ++ nextBytes fs file hashed.length n <+: fs.data file
      rw [nextBytes, ← whole, List.drop_left, List.prefix_append_right_inj]
      exact List.take_prefix n rest
  | passes base file hashed complete digest =>
      intro f named
      obtain ⟨rfl, hashes⟩ := checked f named
      have whole : hashed = fs.data f := hashes.eq_of_length_le complete
      show (agent.sha256Hex (fs.data f)).toByteArray = _
      rw [← whole]
      exact digest
  | locates base => exact checked

structure Sound (agent : Agent ι) (original : Content) (s : State ι) : Prop where
  binary : ∃ content, s.fs.read agent.exe = some content ∧
    Installed agent original s.installer content
  checked : ∀ i, Checked agent i s.fs (s.phase i)

omit [DecidableEq ι] in
private theorem steady_trunc {agent : Agent ι} {j : ι} {s : State ι} {path : String}
    (harmless : Harmless agent s (.trunc path)) {base : Link}
    (inWindow : (s.phase j).window = some base) :
    Steady s.fs (s.fs.openTrunc path) (agent.tmp base) := by
  intro f named
  have apart : agent.tmp base ≠ path := (harmless.2 j base inWindow).symm
  have before : s.fs.dir (agent.tmp base) = some f := by
    rwa [Fs.dir_openTrunc, Function.update_of_ne apart] at named
  have other : f ≠ s.fs.target path := by
    intro same
    exact s.fs.dir_ne_target apart (same ▸ before)
  refine ⟨before, ?_⟩
  rw [Fs.data_openTrunc, Function.update_of_ne other]

omit [DecidableEq ι] in
private theorem steady_store {agent : Agent ι} {j : ι} {s : State ι} {file : Nat}
    {content : Content} (harmless : Harmless agent s (.store file content)) {base : Link}
    (inWindow : (s.phase j).window = some base) :
    Steady s.fs (s.fs.store file content) (agent.tmp base) := by
  intro f named
  have before : s.fs.dir (agent.tmp base) = some f := named
  have other : f ≠ file := by
    intro same
    exact harmless.2 j base inWindow (same ▸ before)
  refine ⟨before, ?_⟩
  rw [Fs.data_store, Function.update_of_ne other]

omit [DecidableEq ι] in
/-- A harmless operation of a step leaves the new files of other runs' windows as
they were, or takes them away. -/
private theorem steady_move {agent : Agent ι} {i j : ι} {s : State ι} {p p' : Phase} {op : Op}
    (moves : Moves agent i s.fs p p' op) (harmless : Harmless agent s op) {base : Link}
    (inWindow : (s.phase j).window = some base) :
    Steady s.fs (op.apply s.fs) (agent.tmp base) := by
  cases moves with
  | quiet | opened | hashes | passes | locates | looksBack =>
      intro f named
      exact ⟨named, rfl⟩
  | opensBackup | opensNew | opensBinary => exact steady_trunc harmless inWindow
  | saves | writes | restores => exact steady_store harmless inWindow
  | renames base' current file here =>
      intro f named
      have notTarget : agent.tmp base ≠ current.path agent.exe :=
        (path_ne_tmpPath agent.exe current base).symm
      refine ⟨?_, by rw [Op.apply, Fs.data_rename]⟩
      by_cases mine : base = base'
      · subst mine
        rw [Op.apply, Fs.dir_rename_source s.fs notTarget] at named
        cases named
      · have notSource : agent.tmp base ≠ agent.tmp base' := by
          intro same
          exact mine (tmpPath_injective same)
        rwa [Op.apply, Fs.dir_rename_other s.fs notSource notTarget] at named
  | removes base' back bare =>
      intro f named
      refine ⟨?_, rfl⟩
      by_cases mine : base = base'
      · subst mine
        rw [Op.apply, Fs.dir_remove, Function.update_self] at named
        cases named
      · have apart : agent.tmp base ≠ agent.tmp base' := by
          intro same
          exact mine (tmpPath_injective same)
        rwa [Op.apply, Fs.dir_remove, Function.update_of_ne apart] at named

/-- A harmless operation changes the content at the binary path only by a rename
of a file that its run has checked. -/
private theorem binary_move {agent : Agent ι} {original : Content} {i : ι} {s : State ι}
    {p p' : Phase} {op : Op} (moves : Moves agent i s.fs p p' op)
    (harmless : Harmless agent s op) (checked : Checked agent i s.fs p) {content : Content}
    (present : s.fs.read agent.exe = some content)
    (installed : Installed agent original s.installer content) :
    ∃ content', (op.apply s.fs).read agent.exe = some content' ∧
      Installed agent original (s.after agent.exe i p' op).installer content' := by
  have notTmp (base : Link) : agent.exe ≠ agent.tmp base := path_ne_tmpPath agent.exe .live base
  cases moves with
  | quiet | opened | hashes | passes | locates | looksBack => exact ⟨content, present, installed⟩
  | opensBackup | opensNew | opensBinary =>
      exact ⟨content, (Fs.read_openTrunc_other s.fs harmless.1.symm).trans present, installed⟩
  | saves | writes | restores =>
      exact ⟨content, (Fs.read_store_other harmless.1 _).trans present, installed⟩
  | removes base back bare =>
      exact ⟨content, (Fs.read_remove_other s.fs (notTmp base)).trans present, installed⟩
  | renames base current file named =>
      cases current with
      | live =>
          have new : s.fs.read (agent.tmp base) = some (s.fs.data file) := by
            rw [Fs.read, named, Option.map_some]
          refine ⟨s.fs.data file, Fs.read_rename_target new agent.exe, ?_⟩
          have mine : (s.after agent.exe i (.replaced base)
              (.rename (agent.tmp base) agent.exe)).installer = some i := by
            simp [State.after, Op.installs]
          show Installed agent original (s.after agent.exe i (.replaced base)
            (.rename (agent.tmp base) agent.exe)).installer (s.fs.data file)
          rw [mine]
          exact checked file named
      | deleted =>
          have elsewhere : agent.exe ≠ Link.deleted.path agent.exe := by
            intro same
            cases path_injective (l := .live) same
          have kept : (s.after agent.exe i (.replaced base)
              (.rename (agent.tmp base) (Link.deleted.path agent.exe))).installer =
              s.installer := by
            simp [State.after, Op.installs, elsewhere.symm]
          rw [kept]
          exact ⟨content, (Fs.read_rename_other s.fs (notTmp base) elsewhere).trans present,
            installed⟩

theorem sound_step {agent : Agent ι} {original : Content} {s s' : State ι} {a : ι × Event}
    (sound : Sound agent original s) (guard : KeepsApart agent s a)
    (moved : step agent s a = some s') : Sound agent original s' := by
  obtain ⟨⟨p', op⟩, move, rfl⟩ := Option.map_eq_some_iff.mp moved
  have moves := moves_of_move move
  have harmless := guard (p', op) move
  obtain ⟨content, present, installed⟩ := sound.binary
  refine ⟨binary_move moves harmless (sound.checked a.1) present installed, fun j => ?_⟩
  show Checked agent j (op.apply s.fs) (Function.update s.phase a.1 p' j)
  by_cases mine : j = a.1
  · subst mine
    rw [Function.update_self]
    exact checked_move moves (sound.checked a.1)
  · rw [Function.update_of_ne mine]
    exact checked_steady (fun base inWindow => steady_move moves harmless inWindow)
      (sound.checked j)

omit [DecidableEq ι] in
theorem sound_start {agent : Agent ι} {original : Content} {s : State ι}
    (start : Start agent original s) : Sound agent original s := by
  refine ⟨⟨original, ?_, ?_⟩, fun i => ?_⟩
  · rw [Fs.read, start.started, Option.map_some, start.content]
  · rw [start.installer]
    rfl
  · rw [start.idle i]
    trivial

/-- While nobody writes to the file at the binary path, nor to a new file between
its verification and its rename, the binary path has the original content or one
with the digest that was given to the run that put it there. -/
theorem binary_is_original_or_verified (agent : Agent ι) (original : Content) (s t : State ι)
    (start : Start agent original s) (run : Reaches (step agent) (KeepsApart agent) s t) :
    ∃ content, t.fs.read agent.exe = some content ∧
      (content = original ∨ ∃ i, t.installer = some i ∧
        (agent.sha256Hex content).toByteArray = (agent.request i).sha256) := by
  have sound : Sound agent original t :=
    run.invariant (I := Sound agent original) (sound_start start)
      fun _ _ _ sound guard moved => sound_step sound guard moved
  obtain ⟨content, present, installed⟩ := sound.binary
  refine ⟨content, present, ?_⟩
  unfold Installed at installed
  cases who : t.installer with
  | none =>
      rw [who] at installed
      exact .inl installed
  | some i =>
      rw [who] at installed
      exact .inr ⟨i, rfl, installed⟩

/-- Two updates to the same file, whose content is `abc`. -/
def twoUpdates : Agent (Fin 2) where
  platform := .linux
  exe := "/usr/bin/orbis-agent"
  running := 0
  sha256Hex content :=
    if content = [97, 98, 99] then abcDigest
    else if content = [120] then
      "2d711642b726b04401627ca9fbac32f5c8530fb1903cc4db02258717921a4881"
    else ""
  request _ := abcRequest
  wellFormed _ := abcRequest_wellFormed

def oneFile : State (Fin 2) := ⟨Fs.empty.put twoUpdates.exe [111], fun _ => .idle, none⟩

/-- The first run up to the moment when it has verified its file. -/
def verifiedRun : List (Fin 2 × Event) :=
  [.start, .openCopy, .copy 1, .finish, .openNew, .write [97, 98, 99], .finish, .openVerify,
    .read 3, .finish].map fun e => (0, e)

/-- The second run up to a chunk that is not part of its file. -/
def brokenRun : List (Fin 2 × Event) :=
  [.start, .openCopy, .copy 1, .finish, .openNew, .write [120]].map fun e => (1, e)

def renamingRun : List (Fin 2 × Event) := [(0, .findPath), (0, .rename)]

def found (s : State (Fin 2)) : Option Content × Option (Fin 2) :=
  (s.fs.read twoUpdates.exe, s.installer)

private theorem oneFile_start : Start twoUpdates [111] oneFile where
  idle _ := rfl
  started := by simp [oneFile, twoUpdates, Fs.put, Fs.target, Fs.empty]
  content := by simp [oneFile, twoUpdates, Fs.put, Fs.target, Fs.empty]
  installer := rfl

theorem binary_is_verified_after_one_run :
    ∃ t : State (Fin 2), t.installer = some 0 ∧ ∃ content, t.fs.read twoUpdates.exe = some content ∧
      (content = [111] ∨ ∃ i, t.installer = some i ∧
        (twoUpdates.sha256Hex content).toByteArray = (twoUpdates.request i).sha256) := by
  have replay : (exec (guarded (step twoUpdates) (KeepsApart twoUpdates)) oneFile
      (verifiedRun ++ renamingRun)).map found = some (some [97, 98, 99], some 0) := by
    decide +kernel
  obtain ⟨t, run, seen⟩ := Option.map_eq_some_iff.mp replay
  exact ⟨t, congrArg Prod.snd seen, binary_is_original_or_verified twoUpdates [111] oneFile t
    oneFile_start (exec_guarded_reaches run)⟩

/-- The first run renames what the second run wrote after the first one verified. -/
theorem unverified_content_is_installed :
    Start twoUpdates [111] oneFile ∧
      ∃ t, Reaches (step twoUpdates) anyStep oneFile t ∧
        ¬ ∃ content, t.fs.read twoUpdates.exe = some content ∧
          (content = [111] ∨ ∃ i, t.installer = some i ∧
            (twoUpdates.sha256Hex content).toByteArray = (twoUpdates.request i).sha256) := by
  refine ⟨oneFile_start, ?_⟩
  have replay : (exec (step twoUpdates) oneFile
      (verifiedRun ++ brokenRun ++ renamingRun)).map found = some (some [120], some 0) := by
    decide +kernel
  obtain ⟨t, run, seen⟩ := Option.map_eq_some_iff.mp replay
  refine ⟨t, exec_reaches_any run, ?_⟩
  rintro ⟨content, present, good⟩
  have broken : content = [120] := Option.some.inj (present.symm.trans (congrArg Prod.fst seen))
  subst broken
  rcases good with original | ⟨i, _, digest⟩
  · revert original
    decide
  · have different : (twoUpdates.sha256Hex [120]).toByteArray ≠ abcDigest.toByteArray := by
      decide
    exact different digest

end OrbisAgent.Services.ConcurrentUpdate
