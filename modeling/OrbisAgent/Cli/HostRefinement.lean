/- OrbisAgent/Cli/HostRefinement
   source: src/main.cpp: main; src/platform/LinuxService.cpp
   digest: A Linux host with its installer refines the machine of the command line: what was
   proved of the key file and the registration of that machine holds of the host. -/

import OrbisAgent.Cli.InstallHistory
import OrbisAgent.Lib.Simulation

set_option autoImplicit false
set_option relaxedAutoImplicit false

namespace OrbisAgent.Cli.HostRefinement

open OrbisAgent.Cli.Arguments
open OrbisAgent.Cli.Installation
open OrbisAgent.Cli.InstallHistory
open OrbisAgent.Cli.Main hiding install uninstall
open OrbisAgent.Constants
open OrbisAgent.Lib.ByteString
open OrbisAgent.Lib.FileTree
open OrbisAgent.Lib.Simulation
open OrbisAgent.Lib.Transition
open OrbisAgent.Platform.LinuxService

/-- What the machine of the command line knows of a host. -/
structure Agrees (h : Host) (m : Machine) : Prop where
  key : m.files key_path = h.tree.file key_path
  installed : m.installed = h.enabled

/-- What is not cut off. -/
def intact : Put → Bool
  | .refused => true
  | .cut _ => false
  | .whole => true

/-- The key is written whole or not at all, and the configuration is another file. -/
def Faithful (e : Event) : Bool := intact e.1.key && decide ((options e).config_path ≠ key_path)

variable {d : Digest} {h h' : Host} {m : Machine} {inv : Invocation} {o : Options} {status : Nat}

theorem verify_matched (agrees : Agrees h m) (code : Bytes) :
    verifyUninstallCode d .linux code m.files = verifyUninstallCode d .linux code h.tree.file := by
  unfold verifyUninstallCode
  rw [show m.files (keyPath .linux) = h.tree.file (keyPath .linux) from agrees.key]

/-! ### Installing -/

/-- The key file names the code, or is as it was when it does not open. -/
theorem key_of_saveKey {code : Bytes} {u : HostTree} (whole : intact inv.key = true)
    (other : o.config_path ≠ key_path)
    (saved : saveKey d inv code (openConfig inv o h.tree).2 = some u) :
    ∃ opened : Bool, u.file key_path =
      if opened then some (d.sha256hex code ++ [newline]) else h.tree.file key_path := by
  obtain ⟨made, created, rfl⟩ := saveKey_some saved
  have before : made.file key_path = h.tree.file key_path := by
    rw [(Tree.createFolder_some created).1, file_openConfig_other inv h.tree other.symm]
  rcases made.stream_cases inv.key key_path (d.sha256hex code ++ [newline]) with
    ⟨_, same⟩ | ⟨room, allowed, wrote⟩
  · refine ⟨false, ?_⟩
    rw [same]
    exact before
  · refine ⟨true, ?_⟩
    rw [wrote, Tree.file_write_same]
    cases how : inv.key with
    | refused => exact absurd how allowed
    | cut n =>
        rw [how] at whole
        cases whole
    | whole => rfl

theorem enabled_install (calls : InstallCalls) (exec_path config_path : Bytes)
    (enabled : h.enabled = true) :
    (install calls exec_path config_path h).2.enabled = true := by
  have reach := installs_install calls exec_path config_path h
  generalize install calls exec_path config_path h = result at reach ⊢
  cases reach with
  | noFolder => exact enabled
  | noBinary => exact enabled
  | noUnit => exact enabled
  | complete =>
      unfold startService
      dsimp only
      rw [enabled, Bool.true_or]
      split <;> rfl

/-- An installation, as the command line sees it. -/
def installOutside (inv : Invocation) (opened answer effective : Bool) : Outside where
  exec_path := inv.exec_path
  opens path := if path = key_path then opened else true
  removes := true
  answer := answer
  effective := effective
  run _ files := files
  run_status := 0

/-- What `--install` leaves on the machine of the command line. -/
theorem main_install (d : Digest) (inv : Invocation) (opened answer effective : Bool) {o : Options}
    (server : o.server_url ≠ []) (other : o.config_path ≠ key_path) (m : Machine) :
    (Main.install d .linux (installOutside inv opened answer effective) o m).1.status =
        (if answer then 0 else 1) ∧
      (Main.install d .linux (installOutside inv opened answer effective) o m).2.files key_path =
        (if opened then some (d.sha256hex (codeToSave o) ++ [newline]) else m.files key_path) ∧
      (Main.install d .linux (installOutside inv opened answer effective) o m).2.installed =
        (m.installed || effective) := by
  have nonempty : ¬ o.server_url.isEmpty = true := by
    rw [List.isEmpty_iff]
    exact server
  have config : (installOutside inv opened answer effective).opens o.config_path = true :=
    if_neg other
  have key : (installOutside inv opened answer effective).opens (keyPath .linux) = opened := by
    show (if keyPath .linux = key_path then opened else true) = opened
    exact if_pos rfl
  unfold Main.install saveUninstallKey
  rw [if_neg nonempty, config, if_pos rfl, key]
  cases opened with
  | true =>
      refine ⟨rfl, ?_, rfl⟩
      exact write_same (m.files.write o.config_path
        (installConfig .linux o.server_url o.reg_token)) key_path _
  | false =>
      refine ⟨rfl, ?_, rfl⟩
      exact Function.update_of_ne other.symm _ m.files

theorem install_matched (agrees : Agrees h m) (whole : intact inv.key = true)
    (other : o.config_path ≠ key_path) (move : installOn d inv o h = (some status, h')) :
    ∃ out, (Main.install d .linux out o m).1.status = status ∧
      Agrees h' (Main.install d .linux out o m).2 := by
  by_cases server : o.server_url = []
  · have refused : (Main.install d .linux (installOutside inv true true true) o m).1.status = 1 ∧
        (Main.install d .linux (installOutside inv true true true) o m).2 = m := by
      unfold Main.install
      rw [server]
      exact ⟨rfl, rfl⟩
    rw [installOn_unserved d inv h server] at move
    obtain ⟨same, rfl⟩ := Prod.mk.inj move
    obtain rfl := Option.some.inj same
    refine ⟨installOutside inv true true true, refused.1, ?_⟩
    rw [refused.2]
    exact agrees
  · rcases installOn_cases d inv h server with
      ⟨_, thrown⟩ | ⟨tree, ok, g, saved, installed, rest⟩
    · rw [thrown] at move
      cases move
    · rw [rest] at move
      obtain ⟨same, rfl⟩ := Prod.mk.inj move
      obtain rfl := Option.some.inj same
      obtain ⟨opened, key⟩ := key_of_saveKey whole other saved
      obtain ⟨code, file, registered⟩ := main_install d inv opened ok g.enabled server other m
      have kept := enabled_install inv.install inv.exec_path o.config_path
        (h := { h with tree := tree })
      have apart : ∀ q, q ≠ dest_bin → q ≠ dest_cfg → q ≠ unit_path →
          g.tree.file q = tree.file q := by
        intro q notBinary notConfig notUnit
        have left := file_install_other inv.install inv.exec_path o.config_path
          { h with tree := tree } notBinary notConfig notUnit
        rw [installed] at left
        exact left
      rw [installed] at kept
      refine ⟨_, code, ?_, ?_⟩
      · rw [file]
        dsimp only
        rw [file_closeConfig_other inv _ _ other.symm,
          apart _ (by decide) (by decide) (by decide), key, agrees.key]
      · rw [registered, agrees.installed]
        cases before : h.enabled with
        | false => rw [Bool.false_or]
        | true => rw [Bool.true_or, kept before]

/-! ### Removing -/

/-- A removal, as the command line sees it. -/
def uninstallOutside (inv : Invocation) (effective : Bool) : Outside :=
  { installOutside inv true true effective with removes := inv.keyRemoved }

/-- The service is removed: what the host and the machine make of it. -/
theorem removal_matched (agrees : Agrees h m) {ok : Bool} {u : Host}
    (removal : uninstall inv.uninstall h = (some ok, u)) :
    (if ok then 0 else 1) =
        (removeService .linux (uninstallOutside inv (!u.enabled)) m).1.status ∧
      Agrees (if ok && inv.keyRemoved then { u with tree := u.tree.remove key_path } else u)
        (removeService .linux (uninstallOutside inv (!u.enabled)) m).2 := by
  obtain ⟨enabled, kept⟩ := uninstall_cases inv.uninstall h
  rw [removal] at enabled kept
  dsimp only at enabled kept
  rcases kept with ⟨thrown, _⟩ | ⟨done, removed⟩
  · cases thrown
  · obtain rfl := Option.some.inj done
    have registered : (m.installed && !!u.enabled) = u.enabled := by
      rw [agrees.installed, Bool.not_not, enabled]
      cases h.enabled <;> rfl
    have key : m.files key_path = u.tree.file key_path := by
      rw [removed, Tree.file_remove_other _ (by decide)]
      exact agrees.key
    refine ⟨rfl, ?_⟩
    unfold removeService uninstallOutside installOutside
    dsimp only
    rw [Bool.true_and]
    cases inv.keyRemoved with
    | true =>
        refine ⟨?_, registered⟩
        rw [if_pos rfl, if_pos rfl, Tree.file_remove_same]
        exact remove_same m.files key_path
    | false => exact ⟨key, registered⟩

/-- The code is asked for and not given. -/
def refused (d : Digest) (o : Options) (m : Machine) : Bool :=
  (m.files (keyPath .linux)).isSome &&
    (o.uninstall_code.isEmpty || !verifyUninstallCode d .linux o.uninstall_code m.files)

theorem main_uninstall_refused (out : Outside) (asked : refused d o m = true) :
    (Main.uninstall d .linux out o m).1.status = 1 ∧ (Main.uninstall d .linux out o m).2 = m := by
  rw [refused, Bool.and_eq_true, Bool.or_eq_true] at asked
  unfold Main.uninstall
  rw [if_pos asked.1]
  by_cases empty : o.uninstall_code.isEmpty = true
  · rw [if_pos empty]
    exact ⟨rfl, rfl⟩
  · rw [if_neg empty, if_pos (asked.2.resolve_left empty)]
    exact ⟨rfl, rfl⟩

theorem main_uninstall_accepted (out : Outside) (asked : refused d o m = false) :
    Main.uninstall d .linux out o m = removeService .linux out m := by
  rw [refused, Bool.and_eq_false_iff, Bool.or_eq_false_iff] at asked
  unfold Main.uninstall
  rcases asked with free | ⟨given, right⟩
  · rw [if_neg (by rw [free]; exact Bool.false_ne_true)]
  · rw [given, right, if_neg Bool.false_ne_true, if_neg Bool.false_ne_true]
    split <;> rfl

theorem uninstall_matched (agrees : Agrees h m)
    (move : uninstallOn d inv o h = (some status, h')) :
    ∃ out, (Main.uninstall d .linux out o m).1.status = status ∧
      Agrees h' (Main.uninstall d .linux out o m).2 := by
  have file : h.tree.file key_path = m.files (keyPath .linux) := agrees.key.symm
  unfold uninstallOn at move
  rw [file, ← verify_matched agrees, show ((m.files (keyPath .linux)).isSome &&
    (o.uninstall_code.isEmpty || !verifyUninstallCode d .linux o.uninstall_code m.files)) =
      refused d o m from rfl] at move
  cases asked : refused d o m with
  | true =>
      rw [if_pos asked] at move
      obtain ⟨same, rfl⟩ := Prod.mk.inj move
      obtain ⟨code, still⟩ := main_uninstall_refused (installOutside inv true true true) asked
      refine ⟨installOutside inv true true true, code.trans (Option.some.inj same), ?_⟩
      rw [still]
      exact agrees
  | false =>
      have accepted : ¬ refused d o m = true := by
        rw [asked]
        exact Bool.false_ne_true
      rw [if_neg accepted] at move
      rcases removal : uninstall inv.uninstall h with ⟨_ | ok, u⟩
      · rw [removal] at move
        cases move
      · rw [removal] at move
        obtain ⟨same, rfl⟩ := Prod.mk.inj move
        obtain ⟨code, after⟩ := removal_matched agrees removal
        refine ⟨uninstallOutside inv (!u.enabled), ?_, ?_⟩
        · rw [main_uninstall_accepted _ asked, ← code]
          exact Option.some.inj same
        · rw [main_uninstall_accepted _ asked]
          exact after

/-! ### Histories -/

/-- An invocation on the host that ends with a status. -/
def hostStep (d : Digest) (h : Host) (a : Event × Nat) : Option Host :=
  if Faithful a.1 ∧ (mainOn d a.1.1 a.1.2 h).1 = some a.2 then some (mainOn d a.1.1 a.1.2 h).2
  else none

/-- An invocation of the command line that ends with a status. -/
def machineStep (d : Digest) (m : Machine) (b : (Outside × List Bytes) × Nat) : Option Machine :=
  if (main d .linux b.1.1 b.1.2 m).1.status = b.2 then some (main d .linux b.1.1 b.1.2 m).2
  else none

/-- What one sees of an invocation: the arguments and the status. -/
def invoked {ε : Type} (a : (ε × List Bytes) × Nat) : Option (List Bytes × Nat) :=
  some (a.1.2, a.2)

theorem main_matched (agrees : Agrees h m) {e : Event} (faithful : Faithful e = true)
    (move : mainOn d e.1 e.2 h = (some status, h')) :
    ∃ out, (main d .linux out e.2 m).1.status = status ∧
      Agrees h' (main d .linux out e.2 m).2 := by
  rw [Faithful, Bool.and_eq_true, decide_eq_true_eq] at faithful
  obtain ⟨whole, other⟩ := faithful
  unfold main
  unfold mainOn at move
  rw [show parseArgs e.2 (.default .linux) = options e from rfl] at move ⊢
  generalize options e = o at move other ⊢
  dsimp only at move ⊢
  by_cases version : o.do_version = true
  · simp only [if_pos version] at move ⊢
    obtain ⟨same, rfl⟩ := Prod.mk.inj move
    exact ⟨installOutside e.1 true true true, Option.some.inj same, agrees⟩
  simp only [if_neg version] at move ⊢
  by_cases check : o.do_verify_uninstall = true
  · simp only [if_pos check] at move ⊢
    obtain ⟨same, rfl⟩ := Prod.mk.inj move
    refine ⟨installOutside e.1 true true true, ?_⟩
    unfold verify
    rw [verify_matched agrees]
    rw [← Option.some.inj same]
    cases o.uninstall_code.isEmpty with
    | true => exact ⟨rfl, agrees⟩
    | false => exact ⟨rfl, agrees⟩
  simp only [if_neg check] at move ⊢
  by_cases installing : o.do_install = true
  · simp only [if_pos installing] at move ⊢
    exact install_matched agrees whole other move
  simp only [if_neg installing] at move ⊢
  by_cases removing : o.do_uninstall = true
  · simp only [if_pos removing] at move ⊢
    exact uninstall_matched agrees move
  simp only [if_neg removing] at move ⊢
  by_cases asking : o.do_status = true
  · simp only [if_pos asking] at move ⊢
    obtain ⟨same, rfl⟩ := Prod.mk.inj move
    exact ⟨installOutside e.1 true (isRunning h) true, Option.some.inj same, agrees⟩
  · simp only [if_neg asking] at move ⊢
    obtain ⟨same, rfl⟩ := Prod.mk.inj move
    refine ⟨{ installOutside e.1 true true true with
      run := fun p _ => (e.1.run p h.tree).file
      run_status := e.1.run_status }, Option.some.inj same, ?_⟩
    exact ⟨rfl, agrees.installed⟩

theorem host_simulates (d : Digest) :
    Simulates (hostStep d) (machineStep d) invoked invoked Agrees := by
  intro h m a h' agrees move
  obtain ⟨e, status⟩ := a
  unfold hostStep at move
  split at move
  · rename_i both
    obtain rfl := Option.some.inj move
    obtain ⟨out, code, after⟩ := main_matched agrees both.1 (Prod.ext both.2 rfl)
    refine matched_by_one ((out, e.2), status) ?_ rfl after
    unfold machineStep
    rw [if_pos code]
  · cases move

/-- Every history of invocations on a Linux host, however its calls fail, is one of the command
line with the same arguments and statuses, which ends with the same key file and with the
service registered alike. -/
theorem host_history_is_a_machine_history {as : List (Event × Nat)}
    (agrees : Agrees h m) (run : exec (hostStep d) h as = some h') :
    ∃ bs m', exec (machineStep d) m bs = some m' ∧
      bs.filterMap invoked = as.filterMap invoked ∧
      m'.files key_path = h'.tree.file key_path ∧ m'.installed = h'.enabled := by
  obtain ⟨bs, m', matched, same, after⟩ := (host_simulates d).exec agrees run
  exact ⟨bs, m', matched, same, after.key, after.installed⟩

/-- An installation, an attempt to remove the service without its code, and the removal. -/
def protectedHistory : List (Event × Nat) :=
  [(firstInstallation, 0), ((smooth dest_bin, [bytes "--uninstall"]), 1),
    ((smooth dest_bin, [bytes "--uninstall", bytes "--uninstall-code", bytes "orbis2026"]), 0)]

theorem protected_history_is_a_machine_history :
    ∃ h', exec (hostStep sampleDigest) freshHost protectedHistory = some h' ∧
      ∃ bs m', exec (machineStep sampleDigest) ⟨fun _ => none, false⟩ bs = some m' ∧
        bs.filterMap invoked = protectedHistory.filterMap invoked ∧
        m'.files key_path = h'.tree.file key_path ∧ m'.installed = h'.enabled := by
  have agrees : Agrees freshHost ⟨fun _ => none, false⟩ := ⟨by decide, rfl⟩
  have some' : (exec (hostStep sampleDigest) freshHost protectedHistory).isSome = true := by
    decide +kernel
  obtain ⟨h', run⟩ := Option.isSome_iff_exists.mp some'
  exact ⟨h', run, host_history_is_a_machine_history agrees run⟩

end OrbisAgent.Cli.HostRefinement
