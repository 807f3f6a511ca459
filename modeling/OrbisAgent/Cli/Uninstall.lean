/- OrbisAgent/Cli/Uninstall
   source: src/main.cpp, main (--install, --uninstall)
   digest: In a history of invocations the uninstall code protects the service exactly as long as
   no --install gives another code. -/

import OrbisAgent.Cli.Main
import OrbisAgent.Lib.Transition
import Mathlib.Tactic.ByContra

set_option autoImplicit false
set_option relaxedAutoImplicit false

namespace OrbisAgent.Cli.Uninstall

open OrbisAgent.Cli.Arguments
open OrbisAgent.Cli.Main
open OrbisAgent.Constants
open OrbisAgent.Lib.ByteString
open OrbisAgent.Lib.Transition

/-- An invocation: what it reads of the outside, and its arguments. -/
abbrev Invocation := Outside × List Bytes

variable (d : Digest) (platform : Platform)

def options (inv : Invocation) : Options := parseArgs inv.2 (.default platform)

def next (m : Machine) (inv : Invocation) : Machine := (main d platform inv.1 inv.2 m).2

def FilesSucceed (inv : Invocation) : Prop :=
  (∀ path, inv.1.opens path = true) ∧ inv.1.removes = true

/-- The key file names this code. `--install` never stores the empty one. -/
def Stored (m : Machine) (code : Bytes) : Prop :=
  code ≠ [] ∧ ∃ content, m.files (keyPath platform) = some content ∧
    firstLine content = d.sha256hex code

instance (d : Digest) (platform : Platform) (m : Machine) (code : Bytes) :
    Decidable (Stored d platform m code) :=
  decidable_of_iff
    (code ≠ [] ∧ (m.files (keyPath platform)).map firstLine = some (d.sha256hex code))
    (by simp only [Stored, Option.map_eq_some_iff])

/-- The invocation comes to the branch of `--install` with a server. -/
def Installs (o : Options) : Prop :=
  o.do_version = false ∧ o.do_verify_uninstall = false ∧ o.do_install = true ∧ o.server_url ≠ []

/-- The invocation comes to the branch of `--uninstall`. -/
def Uninstalls (o : Options) : Prop :=
  o.do_version = false ∧ o.do_verify_uninstall = false ∧ o.do_install = false ∧
    o.do_uninstall = true

/-- The invocation comes to the normal run. -/
def Runs (o : Options) : Prop :=
  o.do_version = false ∧ o.do_verify_uninstall = false ∧ o.do_install = false ∧
    o.do_uninstall = false ∧ o.do_status = false

instance (o : Options) : Decidable (Installs o) := inferInstanceAs (Decidable (_ ∧ _))

instance (o : Options) : Decidable (Runs o) := inferInstanceAs (Decidable (_ ∧ _))

/-- Without the stored code the service stays and the key file keeps naming the code;
with it `--uninstall` is accepted. -/
structure Guarded (m : Machine) (inv : Invocation) (code : Bytes) : Prop where
  installed : m.installed = true → (next d platform m inv).installed = false →
    (options platform inv).uninstall_code = code
  stored : ¬ Stored d platform (next d platform m inv) code →
    (options platform inv).uninstall_code = code
  accepted : Uninstalls (options platform inv) → (options platform inv).uninstall_code = code →
    (main d platform inv.1 inv.2 m).1.request = some .uninstall

def Protected (m : Machine) (inv : Invocation) : Prop :=
  ∀ code, Stored d platform m code → Guarded d platform m inv code

/-- An `--install` saves the code that is stored already, and a normal run without
that code leaves it in the key file. -/
def KeepsCode (m : Machine) (inv : Invocation) : Prop :=
  ∀ code, Stored d platform m code →
    (Installs (options platform inv) → codeToSave (options platform inv) = code) ∧
    (Runs (options platform inv) → (options platform inv).uninstall_code = code ∨
      Stored d platform
        { m with files := inv.1.run (options platform inv).config_path m.files } code)

variable {d platform}

theorem codeToSave_nonempty (o : Options) : codeToSave o ≠ [] := by
  unfold codeToSave
  split
  · decide
  · rename_i given
    exact fun none => given (by rw [none]; rfl)

theorem codeToSave_of_given {o : Options} {code : Bytes} (given : o.uninstall_code = code)
    (nonempty : code ≠ []) : codeToSave o = code := by
  unfold codeToSave
  rw [given, if_neg (by simpa using nonempty)]

theorem firstLine_hash (input : Bytes) :
    firstLine (d.sha256hex input ++ [newline]) = d.sha256hex input :=
  firstLine_of_line (d.oneLine input) []

/-- The check accepts the stored code only. -/
theorem verify_stored {m : Machine} {code : Bytes} (stored : Stored d platform m code)
    (given : Bytes) : verifyUninstallCode d platform given m.files = true ↔ given = code := by
  obtain ⟨_, content, here, names⟩ := stored
  simp only [verifyUninstallCode, here, names, Bool.and_eq_true, bne_iff_ne, ne_eq, beq_iff_eq]
  constructor
  · exact fun both => d.collisionFree _ _ both.2
  · rintro rfl
    exact ⟨d.nonempty _, rfl⟩

/-- After `saveUninstallKey` the key file names the saved code and no other. -/
theorem stored_after_save {files : Files} {installed : Bool} {saved code : Bytes}
    (nonempty : saved ≠ []) :
    Stored d platform
      ⟨files.write (keyPath platform) (d.sha256hex saved ++ [newline]), installed⟩ code ↔
      saved = code := by
  constructor
  · rintro ⟨_, content, here, names⟩
    dsimp only at here
    rw [write_same] at here
    obtain rfl := Option.some.inj here
    rw [firstLine_hash] at names
    exact d.collisionFree _ _ names
  · rintro rfl
    exact ⟨nonempty, _, write_same _ _ _, firstLine_hash saved⟩

/-- The branches of `main`, by what they do to the machine. -/
theorem main_cases (d : Digest) (platform : Platform) (m : Machine) (inv : Invocation) :
    (next d platform m inv = m ∧ ¬ Installs (options platform inv) ∧
      ¬ Uninstalls (options platform inv) ∧ ¬ Runs (options platform inv)) ∨
    (Installs (options platform inv) ∧
      main d platform inv.1 inv.2 m = install d platform inv.1 (options platform inv) m) ∨
    (Uninstalls (options platform inv) ∧
      main d platform inv.1 inv.2 m = uninstall d platform inv.1 (options platform inv) m) ∨
    (Runs (options platform inv) ∧ next d platform m inv =
      { m with files := inv.1.run (options platform inv).config_path m.files }) := by
  unfold next main
  simp only [show parseArgs inv.2 (.default platform) = options platform inv from rfl]
  generalize options platform inv = o
  unfold Installs Uninstalls Runs
  cases version : o.do_version
  · cases check : o.do_verify_uninstall
    · cases installing : o.do_install
      · cases removing : o.do_uninstall
        · cases status' : o.do_status
          · simp
          · simp [status]
        · simp
      · by_cases server : o.server_url = []
        · simp [install, server]
        · simp [server]
    · simp [verify]
      split <;> rfl
  · simp

/-- With every file operation succeeding, `--install` puts the code it saves in the key file. -/
theorem install_stores {m : Machine} {inv : Invocation} {o : Options} {code : Bytes}
    (succeed : FilesSucceed inv) (server : o.server_url ≠ []) :
    Stored d platform (install d platform inv.1 o m).2 code ↔ codeToSave o = code := by
  have given : o.server_url.isEmpty = false := by
    rw [List.isEmpty_eq_false_iff]
    exact server
  unfold install saveUninstallKey
  simp only [given, succeed.1, Bool.false_eq_true, if_false, if_true]
  exact stored_after_save (codeToSave_nonempty o)

/-- `--uninstall` changes the machine only with the stored code, and that code is accepted. -/
theorem uninstall_guards {m : Machine} {code : Bytes} (stored : Stored d platform m code)
    (out : Outside) (o : Options) :
    (o.uninstall_code = code ∧ uninstall d platform out o m = removeService platform out m) ∨
      (o.uninstall_code ≠ code ∧ (uninstall d platform out o m).2 = m) := by
  obtain ⟨nonempty, content, here, _⟩ := id stored
  have accepts := verify_stored stored o.uninstall_code
  unfold uninstall
  rw [here, Option.isSome_some, if_pos rfl]
  by_cases given : o.uninstall_code = code
  · have some' : o.uninstall_code.isEmpty = false := by
      rw [List.isEmpty_eq_false_iff, given]
      exact nonempty
    have checked := accepts.mpr given
    refine Or.inl ⟨given, ?_⟩
    rw [some', checked]
    rfl
  · right
    refine ⟨given, ?_⟩
    split
    · rfl
    · have refused : verifyUninstallCode d platform o.uninstall_code m.files = false := by
        rw [Bool.eq_false_iff]
        exact fun passed => given (accepts.mp passed)
      rw [refused]
      rfl

theorem install_keeps_service (out : Outside) (o : Options) {m : Machine}
    (installed : m.installed = true) : (install d platform out o m).2.installed = true := by
  unfold install
  split
  · exact installed
  · dsimp only
    split <;> simp [installed]

theorem Installs.excludes {o : Options} (installs : Installs o) : ¬ Uninstalls o ∧ ¬ Runs o := by
  have set : o.do_install = true := installs.2.2.1
  constructor
  · intro uninstalls
    have unset := uninstalls.2.2.1
    rw [set] at unset
    cases unset
  · intro runs
    have unset := runs.2.2.1
    rw [set] at unset
    cases unset

theorem Uninstalls.not_runs {o : Options} (uninstalls : Uninstalls o) : ¬ Runs o := by
  intro runs
  have unset := runs.2.2.2.1
  rw [uninstalls.2.2.2] at unset
  cases unset

/-- The branch of `--install` guards a stored code exactly when it saves that code. -/
theorem guarded_iff_of_installs {m : Machine} {inv : Invocation} {code : Bytes}
    (succeed : FilesSucceed inv) (nonempty : code ≠ [])
    (installs : Installs (options platform inv))
    (computed : main d platform inv.1 inv.2 m =
      install d platform inv.1 (options platform inv) m) :
    Guarded d platform m inv code ↔ codeToSave (options platform inv) = code := by
  have after : next d platform m inv = (install d platform inv.1 (options platform inv) m).2 :=
    congrArg Prod.snd computed
  have stores : Stored d platform (next d platform m inv) code ↔
      codeToSave (options platform inv) = code := by
    rw [after]
    exact install_stores succeed installs.2.2.2
  constructor
  · intro guards
    by_contra other
    have given := guards.stored (mt stores.mp other)
    exact other (codeToSave_of_given given nonempty)
  · intro saves
    refine ⟨fun up down => ?_, fun lost => ?_, fun removing => ?_⟩
    · rw [after, install_keeps_service _ _ up] at down
      cases down
    · exact absurd (stores.mpr saves) lost
    · exact absurd removing installs.excludes.1

/-- The branch of `--uninstall` guards the stored code. -/
theorem guarded_of_uninstalls {m : Machine} {inv : Invocation} {code : Bytes}
    (stored : Stored d platform m code)
    (computed : main d platform inv.1 inv.2 m =
      uninstall d platform inv.1 (options platform inv) m) :
    Guarded d platform m inv code := by
  have after : next d platform m inv =
      (uninstall d platform inv.1 (options platform inv) m).2 := congrArg Prod.snd computed
  rcases uninstall_guards stored inv.1 (options platform inv) with
    ⟨given, removes⟩ | ⟨refused, still⟩
  · refine ⟨fun _ _ => given, fun _ => given, fun _ _ => ?_⟩
    rw [computed, removes]
    rfl
  · refine ⟨fun up down => ?_, fun lost => ?_, fun _ given => absurd given refused⟩
    · rw [after, still, up] at down
      cases down
    · rw [after, still] at lost
      exact absurd stored lost

/-- A normal run guards a code exactly when it leaves it in the key file or was given it. -/
theorem guarded_iff_of_runs {m : Machine} {inv : Invocation} {code : Bytes}
    (runs : Runs (options platform inv))
    (left : next d platform m inv =
      { m with files := inv.1.run (options platform inv).config_path m.files }) :
    Guarded d platform m inv code ↔ (options platform inv).uninstall_code = code ∨
      Stored d platform
        { m with files := inv.1.run (options platform inv).config_path m.files } code := by
  rw [← left]
  constructor
  · intro guards
    by_contra neither
    rw [not_or] at neither
    exact neither.1 (guards.stored neither.2)
  · intro keeps
    refine ⟨fun up down => ?_, fun lost => keeps.resolve_right lost, fun removing => ?_⟩
    · rw [left, up] at down
      cases down
    · exact absurd runs removing.not_runs

/-- One invocation protects a stored code exactly as it keeps it. -/
theorem guarded_iff {m : Machine} {inv : Invocation} (succeed : FilesSucceed inv) {code : Bytes}
    (stored : Stored d platform m code) :
    Guarded d platform m inv code ↔
      (Installs (options platform inv) → codeToSave (options platform inv) = code) ∧
      (Runs (options platform inv) → (options platform inv).uninstall_code = code ∨
        Stored d platform
          { m with files := inv.1.run (options platform inv).config_path m.files } code) := by
  rcases main_cases d platform m inv with
    ⟨still, noInstall, noUninstall, noRun⟩ | ⟨installs, computed⟩ | ⟨uninstalls, computed⟩ |
    ⟨runs, left⟩
  · have guards : Guarded d platform m inv code :=
      { installed := fun up down => by rw [still, up] at down; cases down
        stored := fun lost => by rw [still] at lost; exact absurd stored lost
        accepted := fun removing => absurd removing noUninstall }
    exact iff_of_true guards ⟨fun installs => absurd installs noInstall,
      fun runs => absurd runs noRun⟩
  · rw [guarded_iff_of_installs succeed stored.1 installs computed]
    exact ⟨fun saves => ⟨fun _ => saves, fun runs => absurd runs installs.excludes.2⟩,
      fun keeps => keeps.1 installs⟩
  · refine iff_of_true (guarded_of_uninstalls stored computed) ⟨fun installs => ?_, fun runs => ?_⟩
    · exact absurd uninstalls installs.excludes.1
    · exact absurd runs uninstalls.not_runs
  · rw [guarded_iff_of_runs runs left]
    exact ⟨fun keeps => ⟨fun installs => absurd runs installs.excludes.2, fun _ => keeps⟩,
      fun keeps => keeps.2 runs⟩

/-- Everything outside works. -/
def working : Outside :=
  ⟨bytes "/usr/bin/orbis-agent", fun _ => true, true, true, true, fun _ files => files, 0⟩

def call (args : List String) : Invocation := (working, args.map bytes)

def fresh : Machine := ⟨fun _ => none, false⟩

theorem call_succeeds {calls : List (List String)} :
    ∀ inv ∈ calls.map call, FilesSucceed inv := by
  intro inv mem
  obtain ⟨args, _, rfl⟩ := List.mem_map.mp mem
  exact ⟨fun _ => rfl, rfl⟩

/-- An installation, an attempt without its code, and the removal with it. -/
def keptHistory : List (List String) :=
  [["--install", "--server", "ssl://host:8883", "--uninstall-code", "alpha"],
    ["--uninstall", "--uninstall-code", "orbis2026"], ["--uninstall", "--uninstall-code", "alpha"]]

/-- The same installation, another one that gives no code, and a removal with the
default code. -/
def replacedHistory : List (List String) :=
  [["--install", "--server", "ssl://host:8883", "--uninstall-code", "alpha"],
    ["--install", "--server", "ssl://host:8883"],
    ["--uninstall", "--uninstall-code", "orbis2026"]]

end OrbisAgent.Cli.Uninstall
