/- OrbisAgent/Cli/InstallHistory
   source: src/main.cpp: main (--install, --uninstall); src/platform/LinuxService.cpp
   digest: Histories of invocations on a Linux host: an enabled service has its files, and no
   failure takes the configuration in place or the program away. -/

import OrbisAgent.Cli.Installation

set_option autoImplicit false
set_option relaxedAutoImplicit false

namespace OrbisAgent.Cli.InstallHistory

open OrbisAgent.Cli.Arguments
open OrbisAgent.Cli.Installation
open OrbisAgent.Cli.Main hiding install uninstall
open OrbisAgent.Constants
open OrbisAgent.Lib.ByteString
open OrbisAgent.Lib.FileTree
open OrbisAgent.Lib.Transition
open OrbisAgent.Platform.LinuxService

/-- An invocation with its arguments. -/
abbrev Event := Invocation × List Bytes

def options (e : Event) : Options := parseArgs e.2 (.default .linux)

def step (d : Digest) (h : Host) (e : Event) : Option Host := some (mainOn d e.1 e.2 h).2

variable {d : Digest} {h h' : Host} {e : Event}

/-- The branches of an invocation, by what they do to the host. -/
inductive Branch (d : Digest) (e : Event) (h : Host) : Option Nat × Host → Prop
  | reads (status : Nat) : Branch d e h (some status, h)
  | install (asked : (options e).do_install = true) (server : (options e).server_url ≠ []) :
      Branch d e h (installOn d e.1 (options e) h)
  | uninstall : Branch d e h (uninstallOn d e.1 (options e) h)
  | run : Branch d e h
      (some e.1.run_status, { h with tree := e.1.run (options e).config_path h.tree })

theorem branch_mainOn (d : Digest) (e : Event) (h : Host) : Branch d e h (mainOn d e.1 e.2 h) := by
  unfold mainOn
  simp only [show parseArgs e.2 (.default .linux) = options e from rfl]
  split
  · exact .reads 0
  · split
    · exact .reads _
    · split
      · rename_i asked
        by_cases server : (options e).server_url = []
        · rw [installOn_unserved d e.1 h server]
          exact .reads 1
        · exact .install asked server
      · split
        · exact .uninstall
        · split
          · exact .reads _
          · exact .run

/-- The key is written in its folder. -/
theorem saveKey_some {inv : Invocation} {code : Bytes} {t u : HostTree}
    (saved : saveKey d inv code t = some u) :
    ∃ made, t.createFolder inv.keyFolder config_dir = some made ∧
      u = (made.stream inv.key key_path (d.sha256hex code ++ [newline])).2 := by
  unfold saveKey at saved
  rw [parent_key] at saved
  obtain ⟨made, created, rfl⟩ := Option.map_eq_some_iff.mp saved
  exact ⟨made, created, rfl⟩

theorem uninstall_cases (calls : UninstallCalls) (h : Host) :
    (uninstall calls h).2.enabled = (h.enabled && !calls.disable.effective) ∧
      ((uninstall calls h).1 = none ∧ (uninstall calls h).2.tree = h.tree ∨
        (uninstall calls h).1 = some true ∧
          (uninstall calls h).2.tree = h.tree.remove unit_path) := by
  unfold uninstall stop
  dsimp only
  split
  · exact ⟨rfl, .inl ⟨rfl, rfl⟩⟩
  · exact ⟨rfl, .inr ⟨rfl, rfl⟩⟩

/-- `--uninstall` refuses, or disables the service and takes its files away. -/
theorem uninstallOn_cases (d : Digest) (inv : Invocation) (o : Options) (h : Host) :
    (uninstallOn d inv o h).2 = h ∨
      (uninstallOn d inv o h).2.enabled = (h.enabled && !inv.uninstall.disable.effective) ∧
        ((uninstallOn d inv o h).2.tree = h.tree ∨
          (uninstallOn d inv o h).2.tree = h.tree.remove unit_path ∨
          (uninstallOn d inv o h).2.tree = (h.tree.remove unit_path).remove key_path) := by
  obtain ⟨enabled, kept⟩ := uninstall_cases inv.uninstall h
  unfold uninstallOn
  split
  · exact .inl rfl
  · rcases removal : uninstall inv.uninstall h with ⟨_ | ok, g⟩
    all_goals
      rw [removal] at enabled kept
      dsimp only at enabled kept ⊢
    · rcases kept with ⟨_, same⟩ | ⟨done, _⟩
      · exact .inr ⟨enabled, .inl same⟩
      · cases done
    · rcases kept with ⟨thrown, _⟩ | ⟨_, removed⟩
      · cases thrown
      · split
        · refine .inr ⟨enabled, .inr (.inr ?_)⟩
          rw [← removed]
        · exact .inr ⟨enabled, .inr (.inl removed)⟩

/-! ### The files of an enabled service -/

/-- The complete unit, the program and something in the place of the configuration. -/
structure Equipped (t : HostTree) : Prop where
  unit : t.file unit_path = some unitText
  binary : (t.file dest_bin).isSome = true
  config : t.present dest_cfg = true

def Complete (h : Host) : Prop := h.enabled = true → Equipped h.tree

theorem Equipped.stream {t : HostTree} (before : Equipped t) (how : Put) {p : Bytes}
    (text : Bytes) (other : unit_path ≠ p) : Equipped (t.stream how p text).2 :=
  ⟨(t.stream_other how text other).trans before.unit, t.isSome_stream how p text before.binary,
    t.present_stream how p text before.config⟩

theorem Equipped.createFolder {t u : HostTree} (before : Equipped t) {allowed : Bool} {p : Bytes}
    (created : t.createFolder allowed p = some u) : Equipped u := by
  have files := (Tree.createFolder_some created).1
  exact ⟨by rw [files]; exact before.unit, by rw [files]; exact before.binary,
    Tree.present_createFolder created before.config⟩

theorem Equipped.copyFile {t : HostTree} (before : Equipped t) (how : Put) (overwrite : Bool)
    (source : Bytes) {target : Bytes} (other : unit_path ≠ target) :
    Equipped (t.copyFile how overwrite source target).2 :=
  ⟨(t.copyFile_other how overwrite source other).trans before.unit,
    t.isSome_copyFile how overwrite source target before.binary,
    t.present_copyFile how overwrite source target before.config⟩

theorem equipped_closeConfig {t : HostTree} (before : Equipped t) (inv : Invocation) {o : Options}
    (opened : Bool) (other : unit_path ≠ o.config_path) :
    Equipped (closeConfig inv o opened t) := by
  refine ⟨(file_closeConfig_other inv opened t other).trans before.unit, ?_, ?_⟩
  all_goals
    unfold closeConfig
    split
  · exact t.isSome_patch _ _ _ _ before.binary
  · exact before.binary
  · exact t.present_patch _ _ _ _ before.config
  · exact before.config

theorem equipped_placeConfig {t : HostTree} (before : Equipped t) (how : Put)
    (config_path : Bytes) : Equipped (placeConfig how config_path t) := by
  rw [placeConfig, if_pos before.config]
  exact before

/-- The configuration gets into its place, unless the system refuses. -/
theorem present_placeConfig {t : HostTree} {how : Put} {config_path : Bytes}
    (allowed : how ≠ .refused) (folder : t.isFolder config_dir = true)
    (notFolder : t.isFolder config_path = false) :
    (placeConfig how config_path t).present dest_cfg = true := by
  unfold placeConfig
  by_cases here : t.present dest_cfg = true
  · rw [if_pos here]
    exact here
  · rw [if_neg here]
    rw [Tree.present, Bool.or_eq_true, not_or, Bool.not_eq_true, Bool.not_eq_true] at here
    have room : t.Writable dest_cfg := ⟨folder, here.2⟩
    split
    · rename_i given
      obtain ⟨_, there⟩ := given
      rw [Tree.present, notFolder, Bool.or_false] at there
      obtain ⟨text, content⟩ := Option.isSome_iff_exists.mp there
      have apart : config_path ≠ dest_cfg := by
        rintro rfl
        rw [content] at here
        cases here.1
      have free : (t.file dest_cfg).isSome = true → false = true := by
        rw [here.1]
        exact id
      rw [Tree.copyFile_writes content apart free room allowed, Tree.present,
        Tree.file_write_same]
      rfl
    · rw [Tree.stream_writes room allowed, Tree.present, Tree.file_write_same]
      rfl

/-- What `install` needs before `enable`: the unit is not cut off, the configuration not
refused. -/
theorem equipped_of_opened {calls : InstallCalls} {exec_path config_path : Bytes}
    {t copied units : HostTree} (folder : t.isFolder config_dir = true)
    (notFolder : t.isFolder config_path = false) (config : calls.config ≠ .refused)
    (unit : ∀ n, calls.unit ≠ .cut n)
    (copy : t.copyFile calls.binary true exec_path dest_bin = (true, copied))
    (opened : (placeConfig calls.config config_path copied).stream calls.unit unit_path unitText =
      (true, units)) : Equipped units := by
  have folders : copied.isFolder = t.isFolder := by
    have kept := t.isFolder_copyFile calls.binary true exec_path dest_bin
    rw [copy] at kept
    exact kept
  have binary : (copied.file dest_bin).isSome = true := by
    obtain ⟨_, _, _, _, rfl⟩ := Tree.of_copyFile_done copy
    rw [Tree.file_write_same]
    rfl
  have placed : (placeConfig calls.config config_path copied).present dest_cfg = true :=
    present_placeConfig config (by rw [folders]; exact folder) (by rw [folders]; exact notFolder)
  have present := Tree.present_stream _ calls.unit unit_path unitText placed
  rw [opened] at present
  obtain ⟨room, rfl⟩ := Tree.of_stream_opened opened unit
  refine ⟨Tree.file_write_same _ unitText room, ?_, present⟩
  rw [Tree.file_write_other _ _ _ (by decide)]
  exact isSome_placeConfig calls.config config_path binary

/-- An installation that does not come to `enable` leaves the service as it was. -/
theorem complete_install {calls : InstallCalls} {exec_path config_path : Bytes}
    (before : Complete h) (config : calls.config ≠ .refused) (unit : ∀ n, calls.unit ≠ .cut n)
    (notFolder : h.tree.isFolder config_path = false) (notDir : config_path ≠ config_dir) :
    Complete (install calls exec_path config_path h).2 := by
  have kept : ∀ {made copied : HostTree} {b : Bool},
      h.tree.createFolder calls.directory config_dir = some made →
      made.copyFile calls.binary true exec_path dest_bin = (b, copied) →
      h.enabled = true → Equipped copied := by
    intro made copied b created copy enabled
    have after := ((before enabled).createFolder created).copyFile calls.binary true exec_path
      (show unit_path ≠ dest_bin by decide)
    rw [copy] at after
    exact after
  have reach := installs_install calls exec_path config_path h
  generalize install calls exec_path config_path h = result at reach ⊢
  cases reach with
  | noFolder => exact before
  | noBinary created broken => exact kept created broken
  | noUnit created copy shut =>
      intro enabled
      obtain rfl := Tree.of_stream_shut shut
      exact equipped_placeConfig (kept created copy enabled) calls.config config_path
  | complete created copy opened =>
      intro _
      rw [tree_startService]
      have folders := (Tree.createFolder_some created).2
      refine equipped_of_opened ?_ ?_ config unit copy opened
      · rw [folders, Function.update_self]
      · rw [folders, Function.update_of_ne notDir]
        exact notFolder

/-- The failures that nothing looks for do not happen: the new configuration is not refused, the
unit not cut off, the service disabled when it is removed. `--config` names no folder and not
the unit, and a normal run leaves the service its files. -/
structure Careful (h : Host) (e : Event) : Prop where
  config : e.1.install.config ≠ .refused
  unit : ∀ n, e.1.install.unit ≠ .cut n
  disable : e.1.uninstall.disable.effective = true
  notUnit : (options e).config_path ≠ unit_path
  notFolder : h.tree.isFolder (options e).config_path = false
  notDir : (options e).config_path ≠ config_dir
  run : Equipped h.tree → Equipped (e.1.run (options e).config_path h.tree)

theorem complete_step (before : Complete h) (careful : Careful h e)
    (next : step d h e = some h') : Complete h' := by
  obtain rfl := Option.some.inj next
  have branch := branch_mainOn d e h
  generalize mainOn d e.1 e.2 h = result at branch ⊢
  cases branch with
  | reads => exact before
  | install asked server =>
      have mine : h.enabled = true → Equipped (openConfig e.1 (options e) h.tree).2 :=
        fun enabled => (before enabled).stream _ _ careful.notUnit.symm
      rcases installOn_cases d e.1 h server with
        ⟨_, thrown⟩ | ⟨tree, ok, g, saved, installed, rest⟩
      · rw [thrown]
        exact mine
      · rw [rest]
        obtain ⟨made, created, rfl⟩ := saveKey_some saved
        have folder : (made.stream e.1.key key_path
            (d.sha256hex (codeToSave (options e)) ++ [newline])).2.isFolder
              (options e).config_path = false := by
          rw [Tree.isFolder_stream, (Tree.createFolder_some created).2,
            Function.update_of_ne careful.notDir, isFolder_openConfig]
          exact careful.notFolder
        have complete : Complete (install e.1.install e.1.exec_path (options e).config_path
            { h with tree := (made.stream e.1.key key_path
              (d.sha256hex (codeToSave (options e)) ++ [newline])).2 }).2 := by
          refine complete_install ?_ careful.config careful.unit folder careful.notDir
          intro enabled
          exact ((mine enabled).createFolder created).stream e.1.key _ (by decide)
        rw [installed] at complete
        intro enabled
        exact equipped_closeConfig (complete enabled) e.1 _ careful.notUnit.symm
  | uninstall =>
      rcases uninstallOn_cases d e.1 (options e) h with same | ⟨disabled, _⟩
      · rw [same]
        exact before
      · -- With the service disabled there is nothing left to show.
        rw [careful.disable, Bool.not_true, Bool.and_false] at disabled
        intro enabled
        rw [disabled] at enabled
        cases enabled
  | run => exact fun enabled => careful.run (before enabled)

/-- However the calls of the system fail, apart from the failures that nothing looks for: whenever
the service is enabled, its unit is complete and names a program and a configuration that
are there. -/
theorem enabled_service_has_its_files (initial : Complete h)
    (run : Reaches (step d) Careful h h') (enabled : h'.enabled = true) :
    h'.tree.file unit_path = some unitText ∧ (h'.tree.file dest_bin).isSome = true ∧
      h'.tree.present dest_cfg = true := by
  have complete : Complete h' :=
    run.invariant initial fun _ _ _ before careful next => complete_step before careful next
  exact ⟨(complete enabled).unit, (complete enabled).binary, (complete enabled).config⟩

def firstInstallation : Event :=
  (smooth download, [bytes "--install", bytes "--server", bytes "broker"])

def secondInstallation : Event :=
  ({ smooth dest_bin with install := { InstallCalls.fine with enable := .failed false } },
    [bytes "--install", bytes "--server", bytes "other"])

/-- The first installation on a fresh host, and a second one by the installed program, which
fails. -/
theorem twice_installed_service_has_its_files :
    ∃ h', Reaches (step sampleDigest) Careful freshHost h' ∧ h'.enabled = true ∧
      h'.tree.file unit_path = some unitText ∧ (h'.tree.file dest_bin).isSome = true ∧
      h'.tree.present dest_cfg = true := by
  have first : Careful freshHost firstInstallation :=
    { config := by decide
      unit := fun n same => by cases same
      disable := rfl
      notUnit := by decide +kernel
      notFolder := by decide +kernel
      notDir := by decide +kernel
      run := id }
  have second : Careful (mainOn sampleDigest firstInstallation.1 firstInstallation.2 freshHost).2
      secondInstallation :=
    { config := by decide
      unit := fun n same => by cases same
      disable := rfl
      notUnit := by decide +kernel
      notFolder := by decide +kernel
      notDir := by decide +kernel
      run := id }
  have run : Reaches (step sampleDigest) Careful freshHost _ :=
    (Reaches.single first rfl).tail second rfl
  have enabled : (mainOn sampleDigest secondInstallation.1 secondInstallation.2
      (mainOn sampleDigest firstInstallation.1 firstInstallation.2 freshHost).2).2.enabled =
        true := by decide +kernel
  exact ⟨_, run, enabled,
    enabled_service_has_its_files (fun absent => by cases absent) run enabled⟩

/-! ### What no history takes away -/

/-- What every call on the files keeps, an invocation keeps, whatever fails. -/
theorem tree_step {P : HostTree → Prop} (next : step d h e = some h') (here : P h.tree)
    (folder : ∀ t u allowed, P t → t.createFolder allowed config_dir = some u → P u)
    (stream : (options e).do_install = true → ∀ t how p text,
      p = (options e).config_path ∨ p = key_path → P t → P (t.stream how p text).2)
    (patch : (options e).do_install = true → ∀ t offset chunk,
      P t → P (t.patch 0 (options e).config_path offset chunk))
    (installer : ∀ g, P g.tree →
      P (install e.1.install e.1.exec_path (options e).config_path g).2.tree)
    (remove : ∀ t p, p = unit_path ∨ p = key_path → P t → P (t.remove p))
    (run : P h.tree → P (e.1.run (options e).config_path h.tree)) : P h'.tree := by
  obtain rfl := Option.some.inj next
  have branch := branch_mainOn d e h
  generalize mainOn d e.1 e.2 h = result at branch ⊢
  cases branch with
  | reads => exact here
  | install asked server =>
      have written : P (openConfig e.1 (options e) h.tree).2 := stream asked _ _ _ _ (.inl rfl) here
      rcases installOn_cases d e.1 h server with
        ⟨_, thrown⟩ | ⟨tree, ok, g, saved, installed, rest⟩
      · rw [thrown]
        exact written
      · rw [rest]
        obtain ⟨made, created, rfl⟩ := saveKey_some saved
        have keyed := stream asked made e.1.key key_path
          (d.sha256hex (codeToSave (options e)) ++ [newline]) (.inr rfl)
          (folder _ _ _ written created)
        have after := installer ⟨_, h.enabled, h.active⟩ keyed
        rw [installed] at after
        show P (closeConfig e.1 (options e) _ g.tree)
        unfold closeConfig
        split
        · exact patch asked _ _ _ after
        · exact after
  | uninstall =>
      have removed : P (h.tree.remove unit_path) := remove _ _ (.inl rfl) here
      rcases uninstallOn_cases d e.1 (options e) h with same | ⟨_, same | one | both⟩
      · rw [same]
        exact here
      · rw [same]
        exact here
      · rw [one]
        exact removed
      · rw [both]
        exact remove _ _ (.inr rfl) removed
  | run => exact run here

/-- The `--config` of an installation names another path than the service's, and a normal run
leaves the configuration as it is and the program in its place. -/
structure Spares (h : Host) (e : Event) : Prop where
  named : (options e).do_install = true → (options e).config_path ≠ dest_cfg
  config : (e.1.run (options e).config_path h.tree).file dest_cfg = h.tree.file dest_cfg
  binary : (h.tree.file dest_bin).isSome →
    ((e.1.run (options e).config_path h.tree).file dest_bin).isSome

theorem config_step {text : Bytes} (spares : Spares h e) (next : step d h e = some h')
    (here : h.tree.file dest_cfg = some text) : h'.tree.file dest_cfg = some text := by
  have notUnit : dest_cfg ≠ unit_path := by decide
  have notKey : dest_cfg ≠ key_path := by decide
  refine tree_step (P := fun t => t.file dest_cfg = some text) next here ?_ ?_ ?_ ?_ ?_ ?_
  · intro t u _ kept created
    rw [(Tree.createFolder_some created).1]
    exact kept
  · rintro asked t how p more (rfl | rfl) kept
    · rw [t.stream_other how more (spares.named asked).symm]
      exact kept
    · rw [t.stream_other how more notKey]
      exact kept
  · intro asked t offset chunk kept
    rw [t.file_patch_other 0 offset chunk (spares.named asked).symm]
    exact kept
  · exact fun t kept => config_install e.1.install e.1.exec_path _ kept
  · rintro t p (rfl | rfl) kept
    · rw [t.file_remove_other notUnit]
      exact kept
    · rw [t.file_remove_other notKey]
      exact kept
  · intro kept
    rw [spares.config]
    exact kept

theorem program_step (spares : Spares h e) (next : step d h e = some h')
    (here : (h.tree.file dest_bin).isSome = true) : (h'.tree.file dest_bin).isSome = true := by
  have notUnit : dest_bin ≠ unit_path := by decide
  have notKey : dest_bin ≠ key_path := by decide
  refine tree_step (P := fun t => (t.file dest_bin).isSome = true) next here ?_ ?_ ?_ ?_ ?_ ?_
  · intro t u _ kept created
    rw [(Tree.createFolder_some created).1]
    exact kept
  · exact fun _ t how p text _ kept => t.isSome_stream how p text kept
  · exact fun _ t offset chunk kept => t.isSome_patch 0 _ offset chunk kept
  · exact fun t kept => isSome_install e.1.install e.1.exec_path _ kept
  · rintro t p (rfl | rfl) kept
    · rw [t.file_remove_other notUnit]
      exact kept
    · rw [t.file_remove_other notKey]
      exact kept
  · exact spares.binary

/-- Installations and removals, with any failures, neither change a configuration that is in its
place nor take the program away. -/
theorem configuration_and_program_survive (run : Reaches (step d) Spares h h') :
    (∀ text, h.tree.file dest_cfg = some text → h'.tree.file dest_cfg = some text) ∧
      ((h.tree.file dest_bin).isSome → (h'.tree.file dest_bin).isSome) := by
  constructor
  · intro text here
    exact run.invariant (I := fun g => g.tree.file dest_cfg = some text) here
      fun _ _ _ before spares next => config_step spares next before
  · intro here
    exact run.invariant (I := fun g => (g.tree.file dest_bin).isSome = true) here
      fun _ _ _ before spares next => program_step spares next before

/-- An installation with a configuration in another place. -/
def installationElsewhere : Event :=
  (smooth download, [bytes "--install", bytes "--server", bytes "other", bytes "--config",
    bytes "unused"])

/-- A removal with the code that cannot remove the unit. -/
def brokenRemoval : Event :=
  ({ smooth dest_bin with uninstall := ⟨.failed true, .done, false⟩ },
    [bytes "--uninstall", bytes "--uninstall-code", bytes "orbis2026"])

theorem configuration_survives_a_broken_removal :
    let h := (mainOn sampleDigest firstInstallation.1 firstInstallation.2 freshHost).2
    ∃ h', Reaches (step sampleDigest) Spares h h' ∧
      (∀ text, h.tree.file dest_cfg = some text → h'.tree.file dest_cfg = some text) ∧
      ((h.tree.file dest_bin).isSome → (h'.tree.file dest_bin).isSome) := by
  intro h
  have elsewhere : Spares h installationElsewhere := ⟨fun _ => by decide +kernel, rfl, id⟩
  have removal :
      Spares (mainOn sampleDigest installationElsewhere.1 installationElsewhere.2 h).2
        brokenRemoval :=
    ⟨fun asked => absurd asked (by decide +kernel), rfl, id⟩
  have run : Reaches (step sampleDigest) Spares h _ :=
    (Reaches.single elsewhere rfl).tail removal rfl
  exact ⟨_, run, configuration_and_program_survive run⟩

end OrbisAgent.Cli.InstallHistory
