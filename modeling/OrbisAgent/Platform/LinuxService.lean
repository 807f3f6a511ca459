/- OrbisAgent/Platform/LinuxService
   source: src/platform/LinuxService.cpp
   digest: What the installer does to the files and the service of a Linux host, when every call
   of the system may fail. -/

import OrbisAgent.Constants
import OrbisAgent.Lib.ByteString
import OrbisAgent.Lib.FileTree

set_option autoImplicit false
set_option relaxedAutoImplicit false

namespace OrbisAgent.Platform.LinuxService

open OrbisAgent.Constants
open OrbisAgent.Lib.ByteString
open OrbisAgent.Lib.FileTree

def slash : UInt8 := 47

/-- The path before the last slash. The root and the working directory are both empty. -/
def parent_path (path : Bytes) : Bytes :=
  ((path.reverse.dropWhile fun b => b != slash).drop 1).reverse

abbrev HostTree := Tree Bytes UInt8 parent_path

/-- The files, and whether systemd has the service enabled and running. -/
structure Host where
  tree : HostTree
  enabled : Bool
  active : Bool

def config_dir : Bytes := bytes "/etc/orbis-agent"

def dest_bin : Bytes := bytes (BINARY_INSTALL_PATH .linux)

def dest_cfg : Bytes := config_dir ++ bytes "/config.toml"

def unit_path : Bytes := bytes SYSTEMD_UNIT_PATH

/-- The configuration of an installation that finds none. -/
def defaultConfig : Bytes :=
  bytes "# Orbis Agent config — edit before starting\n" ++
  bytes "[agent]\ndevice_id = \"\"\ntoken = \"\"\n" ++
  bytes "[mqtt]\nbroker_host = \"localhost\"\nbroker_port = 8883\nuse_tls = true\n" ++
  bytes "[heartbeat]\ninterval_sec = 30\n" ++
  bytes "[logs]\ninterval_sec = 60\n"

def unitText : Bytes :=
  bytes "[Unit]\n" ++
  bytes "Description=" ++ bytes SERVICE_DESCRIPTION ++ bytes "\n" ++
  bytes "After=network.target\n" ++
  bytes "StartLimitIntervalSec=0\n\n" ++
  bytes "[Service]\n" ++
  bytes "Type=simple\n" ++
  bytes "ExecStart=" ++ dest_bin ++ bytes " --config " ++ dest_cfg ++ bytes "\n" ++
  bytes "Restart=always\n" ++
  bytes "RestartSec=2\n" ++
  bytes "StartLimitBurst=0\n" ++
  bytes "User=root\n" ++
  bytes "StandardOutput=journal\n" ++
  bytes "StandardError=journal\n" ++
  bytes "SyslogIdentifier=" ++ bytes SERVICE_NAME ++ bytes "\n\n" ++
  bytes "[Install]\n" ++
  bytes "WantedBy=multi-user.target\n"

/-- How a `systemctl` command ends: done, or with another status, after it took effect or not. -/
inductive Ran
  | done
  | failed (effective : Bool)
  deriving DecidableEq

def Ran.effective : Ran → Bool
  | .done => true
  | .failed effective => effective

/-- The answers that `install` gets. -/
structure InstallCalls where
  directory : Bool
  binary : Put
  config : Put
  unit : Put
  enable : Ran
  start : Ran
  deriving DecidableEq

/-- The answers that `uninstall` gets. -/
structure UninstallCalls where
  stop : Ran
  disable : Ran
  removes : Bool
  deriving DecidableEq

/-- The configuration in its place, when there is none: nothing looks at how it came out. -/
def placeConfig (how : Put) (config_path : Bytes) (t : HostTree) :
    HostTree :=
  if t.present dest_cfg then t
  else if config_path ≠ [] ∧ t.present config_path = true then
    (t.copyFile how false config_path dest_cfg).2
  else (t.stream how dest_cfg defaultConfig).2

def start (how : Ran) (h : Host) : Bool × Host :=
  (decide (how = .done), { h with active := h.active || how.effective })

def stop (how : Ran) (h : Host) : Bool × Host :=
  (decide (how = .done), { h with active := h.active && !how.effective })

def isRunning (h : Host) : Bool := h.active

/-- `systemctl enable`, then `systemctl start`. -/
def startService (calls : InstallCalls) (h : Host) : Bool × Host :=
  let h := { h with enabled := h.enabled || calls.enable.effective }
  if calls.enable = .done then start calls.start h else (false, h)

def install (calls : InstallCalls) (exec_path config_path : Bytes) (h : Host) : Bool × Host :=
  match h.tree.createFolder calls.directory config_dir with
  | none => (false, h)
  | some tree =>
      match tree.copyFile calls.binary true exec_path dest_bin with
      | (false, tree) => (false, { h with tree := tree })
      | (true, tree) =>
          let placed := placeConfig calls.config config_path tree
          match placed.stream calls.unit unit_path unitText with
          | (false, tree) => (false, { h with tree := tree })
          | (true, tree) => startService calls { h with tree := tree }

/-- `none` when `fs::remove` throws: the unit is there and cannot be removed. -/
def uninstall (calls : UninstallCalls) (h : Host) : Option Bool × Host :=
  let h := (stop calls.stop h).2
  let h := { h with enabled := h.enabled && !calls.disable.effective }
  if (h.tree.file unit_path).isSome && !calls.removes then (none, h)
  else (some true, { h with tree := h.tree.remove unit_path })

/-! ### What the installer can do -/

variable {calls : InstallCalls} {exec_path config_path : Bytes} {h : Host}

/-- How far an installation gets. -/
inductive Installs (calls : InstallCalls) (exec_path config_path : Bytes) (h : Host) :
    Bool × Host → Prop
  | noFolder (none' : h.tree.createFolder calls.directory config_dir = none) :
      Installs calls exec_path config_path h (false, h)
  | noBinary {made copied : HostTree}
      (folder : h.tree.createFolder calls.directory config_dir = some made)
      (broken : made.copyFile calls.binary true exec_path dest_bin = (false, copied)) :
      Installs calls exec_path config_path h (false, { h with tree := copied })
  | noUnit {made copied units : HostTree}
      (folder : h.tree.createFolder calls.directory config_dir = some made)
      (binary : made.copyFile calls.binary true exec_path dest_bin = (true, copied))
      (shut : (placeConfig calls.config config_path copied).stream calls.unit unit_path unitText =
        (false, units)) :
      Installs calls exec_path config_path h (false, { h with tree := units })
  | complete {made copied units : HostTree}
      (folder : h.tree.createFolder calls.directory config_dir = some made)
      (binary : made.copyFile calls.binary true exec_path dest_bin = (true, copied))
      (opened : (placeConfig calls.config config_path copied).stream calls.unit unit_path
        unitText = (true, units)) :
      Installs calls exec_path config_path h (startService calls { h with tree := units })

theorem installs_install (calls : InstallCalls) (exec_path config_path : Bytes) (h : Host) :
    Installs calls exec_path config_path h (install calls exec_path config_path h) := by
  unfold install
  cases folder : h.tree.createFolder calls.directory config_dir with
  | none => exact .noFolder folder
  | some made =>
      dsimp only
      rcases binary : made.copyFile calls.binary true exec_path dest_bin with ⟨_ | _, copied⟩
      · exact .noBinary folder binary
      · dsimp only
        rcases opened : (placeConfig calls.config config_path copied).stream calls.unit unit_path
          unitText with ⟨_ | _, units⟩
        · exact .noUnit folder binary opened
        · exact .complete folder binary opened

theorem tree_startService (calls : InstallCalls) (h : Host) :
    (startService calls h).2.tree = h.tree := by
  unfold startService
  dsimp only
  split <;> rfl

theorem file_placeConfig_other (how : Put) (config_path : Bytes)
    (t : HostTree) {q : Bytes} (other : q ≠ dest_cfg) :
    (placeConfig how config_path t).file q = t.file q := by
  unfold placeConfig
  split
  · rfl
  · split
    · exact t.copyFile_other how false config_path other
    · exact t.stream_other how defaultConfig other

/-- A configuration that is there is not touched. -/
theorem placeConfig_of_file (how : Put) (config_path : Bytes) {t : HostTree}
    (here : (t.file dest_cfg).isSome) : placeConfig how config_path t = t := by
  have present : t.present dest_cfg = true := by
    rw [Tree.present, here, Bool.true_or]
  exact if_pos present

theorem isSome_placeConfig (how : Put) (config_path : Bytes) {t : HostTree}
    {q : Bytes} (here : (t.file q).isSome) : ((placeConfig how config_path t).file q).isSome := by
  unfold placeConfig
  split
  · exact here
  · split
    · exact t.isSome_copyFile how false config_path dest_cfg here
    · exact t.isSome_stream how dest_cfg defaultConfig here

@[simp] theorem isFolder_placeConfig (how : Put) (config_path : Bytes)
    (t : HostTree) :
    (placeConfig how config_path t).isFolder = t.isFolder := by
  unfold placeConfig
  split
  · rfl
  · split
    · exact t.isFolder_copyFile how false config_path dest_cfg
    · exact t.isFolder_stream how dest_cfg defaultConfig

/-- What each call on the files keeps, the installation keeps, however far it gets. -/
theorem tree_install {P : HostTree → Prop} (here : P h.tree)
    (folder : ∀ t u, P t → t.createFolder calls.directory config_dir = some u → P u)
    (binary : ∀ t, P t → P (t.copyFile calls.binary true exec_path dest_bin).2)
    (config : ∀ t, P t → P (placeConfig calls.config config_path t))
    (unit : ∀ t, P t → P (t.stream calls.unit unit_path unitText).2) :
    P (install calls exec_path config_path h).2.tree := by
  have copied : ∀ {t u : HostTree} {b : Bool},
      h.tree.createFolder calls.directory config_dir = some t →
      t.copyFile calls.binary true exec_path dest_bin = (b, u) → P u := by
    intro t u b created copy
    have kept := binary t (folder h.tree t here created)
    rw [copy] at kept
    exact kept
  have opened : ∀ {t u : HostTree} {b : Bool}, P t →
      (placeConfig calls.config config_path t).stream calls.unit unit_path unitText = (b, u) →
      P u := by
    intro t u b before wrote
    have kept := unit _ (config t before)
    rw [wrote] at kept
    exact kept
  have reach := installs_install calls exec_path config_path h
  generalize install calls exec_path config_path h = result at reach ⊢
  cases reach with
  | noFolder => exact here
  | noBinary created broken => exact copied created broken
  | noUnit created copy shut => exact opened (copied created copy) shut
  | complete created copy wrote =>
      rw [tree_startService]
      exact opened (copied created copy) wrote

/-- An installation takes no file away. -/
theorem isSome_install (calls : InstallCalls) (exec_path config_path : Bytes) {h : Host}
    {q : Bytes} (here : (h.tree.file q).isSome) :
    ((install calls exec_path config_path h).2.tree.file q).isSome := by
  refine tree_install (P := fun t => (t.file q).isSome = true) here ?_ ?_ ?_ ?_
  · intro t u before created
    rw [(Tree.createFolder_some created).1]
    exact before
  · exact fun t before => t.isSome_copyFile calls.binary true exec_path dest_bin before
  · exact fun t before => isSome_placeConfig calls.config config_path before
  · exact fun t before => t.isSome_stream calls.unit unit_path unitText before

/-- The only files that an installation writes are the binary, the configuration and the unit. -/
theorem file_install_other (calls : InstallCalls) (exec_path config_path : Bytes) (h : Host)
    {q : Bytes} (notBinary : q ≠ dest_bin) (notConfig : q ≠ dest_cfg) (notUnit : q ≠ unit_path) :
    (install calls exec_path config_path h).2.tree.file q = h.tree.file q := by
  refine tree_install (P := fun t => t.file q = h.tree.file q) rfl ?_ ?_ ?_ ?_
  · intro t u before created
    rw [(Tree.createFolder_some created).1]
    exact before
  · exact fun t before => (t.copyFile_other calls.binary true exec_path notBinary).trans before
  · exact fun t before => (file_placeConfig_other calls.config config_path t notConfig).trans before
  · exact fun t before => (t.stream_other calls.unit unitText notUnit).trans before

/-- An installation does not touch a configuration that is there. -/
theorem config_install (calls : InstallCalls) (exec_path config_path : Bytes) {h : Host}
    {text : Bytes} (here : h.tree.file dest_cfg = some text) :
    (install calls exec_path config_path h).2.tree.file dest_cfg = some text := by
  refine tree_install (P := fun t => t.file dest_cfg = some text) here ?_ ?_ ?_ ?_
  · intro t u before created
    rw [(Tree.createFolder_some created).1]
    exact before
  · intro t before
    rw [t.copyFile_other calls.binary true exec_path (by decide)]
    exact before
  · intro t before
    rw [placeConfig_of_file calls.config config_path (by rw [before]; rfl)]
    exact before
  · intro t before
    rw [t.stream_other calls.unit unitText (by decide)]
    exact before

/-! ### An installation in which nothing fails -/

/-- All calls do what the host lets them. -/
def InstallCalls.fine : InstallCalls := ⟨true, .whole, .whole, .whole, .done, .done⟩

/-- What the installer finds, on a host that has room for what it writes. -/
structure Ready (exec_path config_path : Bytes) (t : HostTree) : Prop where
  folder : t.isFolder config_dir = true
  binary : t.Writable dest_bin
  unit : t.Writable unit_path
  config : t.isFolder dest_cfg = false
  program : t.file exec_path ≠ none
  notFolder : t.isFolder config_path = false
  notBinary : config_path ≠ dest_bin

theorem file_nil (t : HostTree) : t.file [] = none := by
  by_contra here
  have inside := t.placed [] here
  have outside := t.apart [] here
  rw [show parent_path [] = [] from rfl, outside] at inside
  cases inside

/-- Without a configuration the given one is copied, or else the default one written. -/
theorem placeConfig_fine (config_path : Bytes) {t : HostTree}
    (folder : t.isFolder config_dir = true) (config : t.isFolder dest_cfg = false)
    (notFolder : t.isFolder config_path = false) :
    (placeConfig .whole config_path t).file dest_cfg =
      some ((t.file dest_cfg).getD ((t.file config_path).getD defaultConfig)) := by
  have room : t.Writable dest_cfg := ⟨folder, config⟩
  cases old : t.file dest_cfg with
  | some text =>
      rw [placeConfig_of_file .whole config_path (by rw [old]; rfl)]
      exact old
  | none =>
      have absent : ¬ t.present dest_cfg = true := by
        rw [Tree.present, old, config]
        exact Bool.false_ne_true
      unfold placeConfig
      rw [if_neg absent]
      cases given : t.file config_path with
      | none =>
          have nothing : ¬ (config_path ≠ [] ∧ t.present config_path = true) := by
            rw [Tree.present, given, notFolder]
            exact fun both => Bool.false_ne_true both.2
          rw [if_neg nothing, Tree.stream_whole room]
          exact t.file_write_same _ room
      | some text =>
          have named : config_path ≠ [] := by
            rintro rfl
            rw [file_nil] at given
            cases given
          have other : config_path ≠ dest_cfg := by
            rintro rfl
            rw [old] at given
            cases given
          have there : config_path ≠ [] ∧ t.present config_path = true :=
            ⟨named, by rw [Tree.present, given, Option.isSome_some, Bool.true_or]⟩
          have free : (t.file dest_cfg).isSome = true → false = true := by
            rw [old]
            exact id
          rw [if_pos there, Tree.copyFile_whole given other free room]
          exact t.file_write_same _ room

/-- The service is set up from a program anywhere but in the place of the installed one. -/
theorem install_fine {h : Host} (ready : Ready exec_path config_path h.tree)
    (elsewhere : exec_path ≠ dest_bin) :
    (install .fine exec_path config_path h).1 = true ∧
      (install .fine exec_path config_path h).2.enabled = true ∧
      (install .fine exec_path config_path h).2.active = true ∧
      (install .fine exec_path config_path h).2.tree.file dest_bin = h.tree.file exec_path ∧
      (install .fine exec_path config_path h).2.tree.file unit_path = some unitText ∧
      (install .fine exec_path config_path h).2.tree.file dest_cfg =
        some ((h.tree.file dest_cfg).getD ((h.tree.file config_path).getD defaultConfig)) := by
  obtain ⟨program, running⟩ := Option.ne_none_iff_exists'.mp ready.program
  have made : h.tree.createFolder true config_dir = some h.tree := if_pos ready.folder
  have copy : h.tree.copyFile .whole true exec_path dest_bin = _ :=
    Tree.copyFile_whole running elsewhere (fun _ => rfl) ready.binary
  have placed := placeConfig_fine config_path (t := h.tree.write dest_bin program ready.binary)
    ready.folder ready.config ready.notFolder
  rw [Tree.file_write_other _ _ _ (by decide), Tree.file_write_other _ _ _ ready.notBinary]
    at placed
  have room : (placeConfig .whole config_path (h.tree.write dest_bin program ready.binary)).Writable
      unit_path := by
    unfold Tree.Writable
    rw [isFolder_placeConfig, Tree.isFolder_write]
    exact ready.unit
  have whole : install .fine exec_path config_path h =
      startService .fine ⟨(placeConfig .whole config_path
        (h.tree.write dest_bin program ready.binary)).write unit_path unitText room, h.enabled,
        h.active⟩ := by
    unfold install InstallCalls.fine
    rw [made]
    dsimp only
    rw [copy]
    dsimp only
    rw [Tree.stream_whole room]
  rw [whole]
  refine ⟨rfl, ?_, ?_, ?_, ?_, ?_⟩
  · exact Bool.or_true _
  · exact Bool.or_true _
  · rw [tree_startService, Tree.file_write_other _ _ _ (by decide),
      file_placeConfig_other _ _ _ (by decide), Tree.file_write_same, running]
  · rw [tree_startService, Tree.file_write_same]
  · rw [tree_startService, Tree.file_write_other _ _ _ (by decide)]
    exact placed

/-- The installed program cannot copy itself to its own place. -/
theorem install_of_itself (calls : InstallCalls) (config_path : Bytes) (h : Host) :
    (install calls dest_bin config_path h).1 = false ∧
      (install calls dest_bin config_path h).2.tree.file = h.tree.file ∧
      (install calls dest_bin config_path h).2.enabled = h.enabled ∧
      (install calls dest_bin config_path h).2.active = h.active := by
  have refused : ∀ t : HostTree, t.copyFile calls.binary true dest_bin dest_bin = (false, t) := by
    intro t
    rcases t.copyFile_cases calls.binary true dest_bin dest_bin with same | ⟨_, _, _, apart, _⟩
    · exact same
    · exact absurd rfl apart
  have reach := installs_install calls dest_bin config_path h
  generalize install calls dest_bin config_path h = result at reach ⊢
  cases reach with
  | noFolder => exact ⟨rfl, rfl, rfl, rfl⟩
  | noBinary created broken =>
      rw [refused] at broken
      obtain rfl := (Prod.mk.inj broken).2
      exact ⟨rfl, (Tree.createFolder_some created).1, rfl, rfl⟩
  | noUnit created copy | complete created copy =>
      rw [refused] at copy
      cases copy

end OrbisAgent.Platform.LinuxService
