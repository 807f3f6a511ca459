/- OrbisAgent/Services/SerialUpdate
   source: UpdateManager::update, UpdateManager::currentBinaryPath
   digest: On Linux, update runs that never overlap keep apart. -/

import OrbisAgent.Services.ConcurrentUpdate

set_option autoImplicit false
set_option relaxedAutoImplicit false

namespace OrbisAgent.Services.SerialUpdate

open OrbisAgent.Lib.FileSystem
open OrbisAgent.Lib.Transition
open OrbisAgent.Services.UpdateManager (Content Files Link busy currentLink path_injective
  path_ne_backupPath path_ne_tmpPath)
open OrbisAgent.Services.ConcurrentUpdate

universe u

variable {ι : Type u}

/-- The guard of a run in which an update starts only when every other one has
ended, and the others wait until it has ended too. -/
def Alone (s : State ι) (a : ι × Event) : Prop :=
  ∀ j, j ≠ a.1 → s.phase j = .idle ∨ s.phase j = .ended

/-- A run's open files are the ones that its paths name, and the path it is going
to restore is still its own. -/
def Placed (agent : Agent ι) (fs : Files) : Phase → Prop
  | .saving base _ dest _ => fs.dir (agent.bak base) = some dest
  | .writing base file _ => fs.dir (agent.tmp base) = some file
  | .restoring _ current => current = agent.here fs
  | .copyingBack _ dest _ => fs.dir (Link.deleted.path agent.exe) = some dest
  | _ => True

variable {agent : Agent ι}

private theorem placed_of_bare {fs : Files} {p : Phase} (bare : p.bare = true) :
    Placed agent fs p := by
  cases p <;> trivial

/-- On Linux the path of a rollback is free only when it is the deleted one. -/
private theorem deleted_of_free (linux : agent.platform = .linux) {fs : Files}
    (free : busy agent.platform agent.running fs ((agent.here fs).path agent.exe) = false) :
    agent.here fs = .deleted := by
  cases found : agent.here fs with
  | deleted => rfl
  | live =>
      have started : fs.dir agent.exe = some agent.running := by
        by_contra moved
        simp [Agent.here, currentLink, linux, moved] at found
      rw [found] at free
      simp [busy, linux, Link.path, started] at free

theorem placed_move (linux : agent.platform = .linux) {i : ι} {fs : Files} {p p' : Phase} {op : Op}
    (moves : Moves agent i fs p p' op) (placed : Placed agent fs p) :
    Placed agent (op.apply fs) p' := by
  cases moves with
  | quiet bare => exact placed_of_bare bare
  | removes base back bare => exact placed_of_bare bare
  | opened | hashes | passes | locates | renames => trivial
  | looksBack base => exact Eq.refl (agent.here fs)
  | saves | writes | restores => exact placed
  | opensBackup base source =>
      show (fs.openTrunc (agent.bak base)).dir (agent.bak base) = _
      rw [Fs.dir_openTrunc, Function.update_self]
  | opensNew base =>
      show (fs.openTrunc (agent.tmp base)).dir (agent.tmp base) = _
      rw [Fs.dir_openTrunc, Function.update_self]
  | opensBinary base current source free =>
      have here : current = agent.here fs := placed
      subst here
      have gone := deleted_of_free linux free
      rw [gone]
      show (fs.openTrunc (Link.deleted.path agent.exe)).dir (Link.deleted.path agent.exe) = _
      rw [Fs.dir_openTrunc, Function.update_self]

private theorem no_window {s : State ι} {i : ι} {p : Phase} (mine : s.phase i = p)
    (outside : p.window = none)
    (others : ∀ j, j ≠ i → s.phase j = .idle ∨ s.phase j = .ended) :
    ∀ j, (s.phase j).window = none := by
  intro j
  by_cases same : j = i
  · rw [same, mine]
    exact outside
  · rcases others j same with idle | ended
    · rw [idle]
      rfl
    · rw [ended]
      rfl

/-- A file that has another path is not the one at the binary path. -/
private theorem not_binary {fs : Files} {p : String} {file : Nat} (named : fs.dir p = some file)
    (apart : p ≠ agent.exe) : fs.dir agent.exe ≠ some file := by
  intro same
  exact apart (fs.injective p agent.exe file named same)

/-- The run whose turn it is empties and writes only files of its own. -/
theorem harmless_move (linux : agent.platform = .linux) {s : State ι} {i : ι} {p p' : Phase}
    {op : Op} (mine : s.phase i = p) (moves : Moves agent i s.fs p p' op)
    (placed : Placed agent s.fs p)
    (others : ∀ j, j ≠ i → s.phase j = .idle ∨ s.phase j = .ended) : Harmless agent s op := by
  have notBak (base : Link) : agent.bak base ≠ agent.exe :=
    (path_ne_backupPath agent.exe .live base).symm
  have notTmp (base : Link) : agent.tmp base ≠ agent.exe :=
    (path_ne_tmpPath agent.exe .live base).symm
  have notDeleted : Link.deleted.path agent.exe ≠ agent.exe := by
    intro same
    cases path_injective (m := .live) same
  have nobody (outside : p.window = none) {P : ι → Link → Prop} :
      ∀ j, ∀ base ∈ (s.phase j).window, P j base := by
    intro j base inWindow
    rw [no_window mine outside others j] at inWindow
    cases inWindow
  cases moves with
  | quiet | removes | opened | hashes | passes | locates | renames | looksBack => trivial
  | opensBackup base source => exact ⟨notBak base, nobody rfl⟩
  | opensNew base => exact ⟨notTmp base, nobody rfl⟩
  | opensBinary base current source free =>
      have here : current = agent.here s.fs := placed
      subst here
      rw [deleted_of_free linux free]
      exact ⟨notDeleted, nobody rfl⟩
  | saves base source dest offset offset' content =>
      exact ⟨not_binary placed (notBak base), nobody rfl⟩
  | writes base file offset offset' content =>
      exact ⟨not_binary placed (notTmp base), nobody rfl⟩
  | restores source dest offset offset' content =>
      exact ⟨not_binary placed notDeleted, nobody rfl⟩

variable [DecidableEq ι]

/-- Every run's open files are where it opened them, and the binary path is sound. -/
structure Orderly (agent : Agent ι) (original : Content) (s : State ι) : Prop where
  sound : Sound agent original s
  placed : ∀ i, Placed agent s.fs (s.phase i)

theorem orderly_step (linux : agent.platform = .linux) {original : Content} {s s' : State ι}
    {a : ι × Event} (orderly : Orderly agent original s) (alone : Alone s a)
    (moved : step agent s a = some s') : Orderly agent original s' := by
  have apart : KeepsApart agent s a := by
    rintro ⟨p', op⟩ move
    exact harmless_move linux rfl (moves_of_move move) (orderly.placed a.1) alone
  refine ⟨sound_step orderly.sound apart moved, fun j => ?_⟩
  obtain ⟨⟨p', op⟩, move, rfl⟩ := Option.map_eq_some_iff.mp moved
  show Placed agent (op.apply s.fs) (Function.update s.phase a.1 p' j)
  by_cases mine : j = a.1
  · subst mine
    rw [Function.update_self]
    exact placed_move linux (moves_of_move move) (orderly.placed a.1)
  · -- the other runs have nothing open
    rw [Function.update_of_ne mine]
    rcases alone j mine with idle | ended
    · rw [idle]
      trivial
    · rw [ended]
      trivial

/-- On Linux, as long as update runs do not overlap, the binary path has the
original content or one with the digest that was given to the run that put it there. -/
theorem serial_updates_install_what_they_verified (linux : agent.platform = .linux)
    {original : Content} {s t : State ι} (start : Start agent original s)
    (run : Reaches (step agent) Alone s t) :
    ∃ content, t.fs.read agent.exe = some content ∧
      Installed agent original t.installer content := by
  have initial : Orderly agent original s := by
    refine ⟨sound_start start, fun i => ?_⟩
    rw [start.idle i]
    trivial
  have orderly : Orderly agent original t :=
    run.invariant (I := Orderly agent original) initial
      fun _ _ _ orderly alone moved => orderly_step linux orderly alone moved
  exact orderly.sound.binary

end OrbisAgent.Services.SerialUpdate
