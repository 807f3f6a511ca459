/- OrbisAgent/Cli/Installation
   source: src/main.cpp: main (--install, --uninstall), saveUninstallKey;
   src/platform/LinuxService.cpp
   digest: Installing and uninstalling on a Linux host from the arguments to the files: which
   configuration the service gets, and that an enabled service has all its files. -/

import OrbisAgent.Cli.Main
import OrbisAgent.Lib.Transition
import OrbisAgent.Platform.LinuxService

set_option autoImplicit false
set_option relaxedAutoImplicit false

namespace OrbisAgent.Cli.Installation

open OrbisAgent.Cli.Arguments
open OrbisAgent.Cli.Main hiding install uninstall
open OrbisAgent.Constants
open OrbisAgent.Lib.ByteString
open OrbisAgent.Lib
open OrbisAgent.Lib.FileTree
open OrbisAgent.Lib.Transition
open OrbisAgent.Platform.LinuxService

/-- What one invocation gets from the system: the path of the program, how its own writes and
the calls of the installer go, and what a normal run makes of the files. Of the text of the
configuration `early` bytes reach the file before the stream is closed. -/
structure Invocation where
  exec_path : Bytes
  configOpens : Bool
  early : Nat
  close : Put
  keyFolder : Bool
  key : Put
  install : InstallCalls
  uninstall : UninstallCalls
  keyRemoved : Bool
  run : Bytes → HostTree → HostTree
  run_status : Nat

def key_path : Bytes := keyPath .linux

def configText (o : Options) : Bytes := installConfig .linux o.server_url o.reg_token

/-- `cfg_out` is opened and written to, and not closed. -/
def openConfig (inv : Invocation) (o : Options) (t : HostTree) : Bool × HostTree :=
  t.stream (if inv.configOpens then .cut inv.early else .refused) o.config_path (configText o)

/-- The end of the branch closes `cfg_out`: the rest of the text comes to the file. -/
def closeConfig (inv : Invocation) (o : Options) (opened : Bool) (t : HostTree) : HostTree :=
  if opened then
    t.patch 0 o.config_path inv.early (inv.close.kept ((configText o).drop inv.early))
  else t

variable (d : Digest)

/-- `saveUninstallKey`; `none` when its folder cannot be created, which throws. -/
def saveKey (inv : Invocation) (code : Bytes) (t : HostTree) : Option HostTree :=
  (t.createFolder inv.keyFolder (parent_path key_path)).map fun t =>
    (t.stream inv.key key_path (d.sha256hex code ++ [newline])).2

/-- The branch of `--install` up to the end of the installer. -/
def beforeClose (inv : Invocation) (o : Options) (h : Host) : Option (Bool × Host) :=
  (saveKey d inv (codeToSave o) (openConfig inv o h.tree).2).map fun tree =>
    install inv.install inv.exec_path o.config_path { h with tree := tree }

/-- The branch of `--install`; no status when an exception ends the process, which leaves the
stream unflushed. -/
def installOn (inv : Invocation) (o : Options) (h : Host) : Option Nat × Host :=
  if o.server_url.isEmpty then (some 1, h)
  else
    let (opened, written) := openConfig inv o h.tree
    match beforeClose d inv o h with
    | none => (none, { h with tree := written })
    | some (ok, h) =>
        (some (if ok then 0 else 1), { h with tree := closeConfig inv o opened h.tree })

/-- The branch of `--uninstall`. -/
def uninstallOn (inv : Invocation) (o : Options) (h : Host) : Option Nat × Host :=
  if (h.tree.file key_path).isSome &&
      (o.uninstall_code.isEmpty || !verifyUninstallCode d .linux o.uninstall_code h.tree.file) then
    (some 1, h)
  else
    match uninstall inv.uninstall h with
    | (none, h) => (none, h)
    | (some ok, h) =>
        (some (if ok then 0 else 1),
          if ok && inv.keyRemoved then { h with tree := h.tree.remove key_path } else h)

/-- One invocation with the arguments after the program's name. -/
def mainOn (inv : Invocation) (args : List Bytes) (h : Host) : Option Nat × Host :=
  let o := parseArgs args (.default .linux)
  if o.do_version then (some 0, h)
  else if o.do_verify_uninstall then
    (some (if !o.uninstall_code.isEmpty &&
      verifyUninstallCode d .linux o.uninstall_code h.tree.file then 0 else 1), h)
  else if o.do_install then installOn d inv o h
  else if o.do_uninstall then uninstallOn d inv o h
  else if o.do_status then (some (if isRunning h then 0 else 1), h)
  else (some inv.run_status, { h with tree := inv.run o.config_path h.tree })

variable {d} {inv : Invocation} {o : Options} {h : Host}

/-! ### The branch of an installation -/

theorem installOn_unserved (d : Digest) (inv : Invocation) (h : Host) (server : o.server_url = []) :
    installOn d inv o h = (some 1, h) := by
  unfold installOn
  rw [server]
  rfl

theorem beforeClose_of_saveKey {u : HostTree}
    (saved : saveKey d inv (codeToSave o) (openConfig inv o h.tree).2 = some u) :
    beforeClose d inv o h =
      some (install inv.install inv.exec_path o.config_path { h with tree := u }) := by
  unfold beforeClose
  rw [saved]
  rfl

/-- `--install` ends before the installer, or closes the configuration after it. -/
theorem installOn_cases (d : Digest) (inv : Invocation) {o : Options} (h : Host)
    (server : o.server_url ≠ []) :
    (saveKey d inv (codeToSave o) (openConfig inv o h.tree).2 = none ∧
        installOn d inv o h = (none, { h with tree := (openConfig inv o h.tree).2 })) ∨
      ∃ tree ok g, saveKey d inv (codeToSave o) (openConfig inv o h.tree).2 = some tree ∧
        install inv.install inv.exec_path o.config_path { h with tree := tree } = (ok, g) ∧
        installOn d inv o h = (some (if ok then 0 else 1),
          { g with tree := closeConfig inv o (openConfig inv o h.tree).1 g.tree }) := by
  have nonempty : ¬ o.server_url.isEmpty = true := by
    rw [List.isEmpty_iff]
    exact server
  unfold installOn
  rw [if_neg nonempty]
  cases saved : saveKey d inv (codeToSave o) (openConfig inv o h.tree).2 with
  | none =>
      have thrown : beforeClose d inv o h = none := by
        unfold beforeClose
        rw [saved]
        rfl
      rw [thrown]
      exact .inl ⟨rfl, rfl⟩
  | some tree =>
      rw [beforeClose_of_saveKey saved]
      exact .inr ⟨tree, _, _, rfl, rfl, rfl⟩

/-! ### One installation -/

/-- No call fails that the host allows. -/
structure Fine (inv : Invocation) : Prop where
  configOpens : inv.configOpens = true
  close : inv.close = .whole
  keyFolder : inv.keyFolder = true
  key : inv.key = .whole
  install : inv.install = .fine

/-- The program runs from its file, there is room for the files of the service, and the path of
the configuration is none of the others. -/
structure Sensible (inv : Invocation) (o : Options) (t : HostTree) : Prop where
  program : t.file inv.exec_path ≠ none
  binary : t.Writable dest_bin
  unit : t.Writable unit_path
  key : t.isFolder key_path = false
  config : t.isFolder dest_cfg = false
  folder : t.file config_dir = none
  notFolder : t.isFolder o.config_path = false
  apart : o.config_path ∉ [inv.exec_path, dest_bin, unit_path, key_path, config_dir]
  programApart : inv.exec_path ≠ key_path

/-- The configuration of the service after an installation: `mine` in the file that `--config`
names when that is the service's own, `copied` when it had none and takes a copy. -/
def serviceConfig (o : Options) (t : HostTree) (mine copied : Bytes) : Bytes :=
  if t.Writable o.config_path then
    if o.config_path = dest_cfg then mine else (t.file dest_cfg).getD copied
  else (t.file dest_cfg).getD defaultConfig

theorem parent_key : parent_path key_path = config_dir := by decide

theorem openConfig_fine (fine : Fine inv) (o : Options) (t : HostTree) :
    openConfig inv o t = t.stream (.cut inv.early) o.config_path (configText o) := by
  unfold openConfig
  rw [fine.configOpens, if_pos rfl]

theorem file_openConfig_other (inv : Invocation) (t : HostTree) {q : Bytes}
    (other : q ≠ o.config_path) : (openConfig inv o t).2.file q = t.file q :=
  t.stream_other _ _ other

@[simp] theorem isFolder_openConfig (inv : Invocation) (o : Options) (t : HostTree) :
    (openConfig inv o t).2.isFolder = t.isFolder :=
  t.isFolder_stream _ _ _

/-- What is in the file of the configuration while it is open. -/
theorem file_openConfig (fine : Fine inv) (t : HostTree) :
    (openConfig inv o t).1 = decide (t.Writable o.config_path) ∧
      (openConfig inv o t).2.file o.config_path =
        if t.Writable o.config_path then some ((configText o).take inv.early) else none := by
  rw [openConfig_fine fine]
  by_cases room : t.Writable o.config_path
  · have allowed : Put.cut inv.early ≠ .refused := by
      intro same
      cases same
    rw [Tree.stream_writes room allowed, if_pos room, decide_eq_true room]
    exact ⟨rfl, t.file_write_same _ room⟩
  · have none' : t.file o.config_path = none := by
      by_contra here
      exact room (Tree.writable_of_file here)
    rw [Tree.stream_shut room, if_neg room, decide_eq_false room]
    exact ⟨rfl, none'⟩

theorem file_closeConfig_other (inv : Invocation) (opened : Bool) (t : HostTree) {q : Bytes}
    (other : q ≠ o.config_path) : (closeConfig inv o opened t).file q = t.file q := by
  unfold closeConfig
  split
  · exact t.file_patch_other _ _ _ other
  · rfl

/-- Closing completes the text that was begun. -/
theorem file_closeConfig (fine : Fine inv) {t : HostTree}
    (begun : t.file o.config_path = some ((configText o).take inv.early)) :
    (closeConfig inv o true t).file o.config_path = some (configText o) := by
  unfold closeConfig
  rw [if_pos rfl, Tree.file_patch_same begun, fine.close]
  exact congrArg some (FileSystem.overwrite_rest 0 (configText o) inv.early)

/-- What `main` leaves to the installer. -/
theorem saveKey_fine (d : Digest) (code : Bytes) {t : HostTree} (fine : Fine inv)
    (key : t.isFolder key_path = false) (folder : t.file config_dir = none)
    (otherDir : o.config_path ≠ config_dir) :
    ∃ u, saveKey d inv code (openConfig inv o t).2 = some u ∧
      u.file key_path = some (d.sha256hex code ++ [newline]) ∧
      (∀ q, q ≠ key_path → u.file q = (openConfig inv o t).2.file q) ∧
      u.isFolder = Function.update t.isFolder config_dir true := by
  have free : (openConfig inv o t).2.file config_dir = none := by
    rw [file_openConfig_other inv t otherDir.symm]
    exact folder
  obtain ⟨made, created⟩ := Tree.createFolder_allowed free
  obtain ⟨files, folders⟩ := Tree.createFolder_some created
  rw [isFolder_openConfig] at folders
  have room : made.Writable key_path := by
    unfold Tree.Writable
    rw [parent_key, folders, Function.update_self, Function.update_of_ne (by decide)]
    exact ⟨rfl, key⟩
  refine ⟨made.write key_path (d.sha256hex code ++ [newline]) room, ?_, ?_, ?_, ?_⟩
  · unfold saveKey
    rw [parent_key, fine.keyFolder, created, Option.map_some, fine.key, Tree.stream_whole room]
  · exact made.file_write_same _ room
  · intro q other
    rw [Tree.file_write_other _ _ _ other, files]
  · exact folders

/-- What the installer finds. -/
theorem ready_of_saveKey {t u : HostTree} (sensible : Sensible inv o t)
    (files : ∀ q, q ≠ key_path → u.file q = (openConfig inv o t).2.file q)
    (folders : u.isFolder = Function.update t.isFolder config_dir true) :
    Ready inv.exec_path o.config_path u := by
  have apart := sensible.apart
  simp only [List.mem_cons, List.not_mem_nil, or_false, not_or] at apart
  obtain ⟨notProgram, notBinary, _, _, notDir⟩ := apart
  have same : ∀ q, q ≠ config_dir → u.isFolder q = t.isFolder q := by
    intro q other
    rw [folders, Function.update_of_ne other]
  have still : ∀ q, t.Writable q → q ≠ config_dir → u.Writable q := by
    intro q room other
    refine ⟨?_, (same q other).trans room.2⟩
    rw [folders]
    by_cases here : parent_path q = config_dir
    · rw [here, Function.update_self]
    · rw [Function.update_of_ne here]
      exact room.1
  refine ⟨by rw [folders, Function.update_self], still _ sensible.binary (by decide),
    still _ sensible.unit (by decide), (same _ (by decide)).trans sensible.config, ?_,
    (same _ notDir).trans sensible.notFolder, notBinary⟩
  rw [files _ sensible.programApart, file_openConfig_other inv t (Ne.symm notProgram)]
  exact sensible.program

/-- The configuration that the installer leaves, with the stream still open. -/
theorem started_config (fine : Fine inv) (t : HostTree) :
    ((openConfig inv o t).2.file dest_cfg).getD
        (((openConfig inv o t).2.file o.config_path).getD defaultConfig) =
      serviceConfig o t ((configText o).take inv.early) ((configText o).take inv.early) := by
  have mine := (file_openConfig (o := o) fine t).2
  unfold serviceConfig
  rw [mine]
  by_cases room : t.Writable o.config_path
  · rw [if_pos room] at mine ⊢
    rw [if_pos room]
    by_cases here : o.config_path = dest_cfg
    · rw [here] at mine
      rw [if_pos here, mine]
      rfl
    · rw [if_neg here, file_openConfig_other inv t (Ne.symm here)]
      rfl
  · rw [if_neg room] at mine ⊢
    rw [if_neg room]
    by_cases here : o.config_path = dest_cfg
    · have none' : t.file dest_cfg = none := by
        by_contra there
        rw [here] at room
        exact room (Tree.writable_of_file there)
      rw [here] at mine
      rw [mine, none']
      rfl
    · rw [file_openConfig_other inv t (Ne.symm here)]
      rfl

/-- Closing the stream completes the configuration when `--config` names the service's own. -/
theorem closed_config (fine : Fine inv) {t u : HostTree}
    (started : u.file dest_cfg = some
      (serviceConfig o t ((configText o).take inv.early) ((configText o).take inv.early))) :
    (closeConfig inv o (openConfig inv o t).1 u).file dest_cfg =
      some (serviceConfig o t (configText o) ((configText o).take inv.early)) := by
  have opened := (file_openConfig (o := o) fine t).1
  unfold serviceConfig at started ⊢
  rw [opened]
  by_cases room : t.Writable o.config_path
  · rw [if_pos room] at started ⊢
    rw [decide_eq_true room]
    by_cases here : o.config_path = dest_cfg
    · rw [if_pos here, ← here] at started
      rw [if_pos here, ← here]
      exact file_closeConfig fine started
    · rw [if_neg here] at started ⊢
      rw [file_closeConfig_other inv true u (Ne.symm here)]
      exact started
  · rw [if_neg room] at started ⊢
    rw [decide_eq_false room]
    exact started

/-- Closing the stream leaves the text in the file that `--config` names. -/
theorem closed_own (fine : Fine inv) {t u : HostTree}
    (begun : u.file o.config_path = (openConfig inv o t).2.file o.config_path) :
    (closeConfig inv o (openConfig inv o t).1 u).file o.config_path =
      if t.Writable o.config_path then some (configText o) else none := by
  obtain ⟨opened, config⟩ := file_openConfig (o := o) fine t
  rw [← begun] at config
  rw [opened]
  by_cases room : t.Writable o.config_path
  · rw [if_pos room] at config ⊢
    rw [decide_eq_true room]
    exact file_closeConfig fine config
  · rw [if_neg room] at config ⊢
    rw [decide_eq_false room]
    exact config

def download : Bytes := bytes "/root/orbis-agent"

/-- The folders of a host without the agent. -/
def folders : List Bytes :=
  [bytes "", bytes "/etc", bytes "/etc/systemd/system", bytes "/root", bytes "/usr/bin"]

def freshFile (path : Bytes) : Option Bytes :=
  if path = download then some (bytes "program") else none

theorem freshFile_some {path : Bytes} (here : freshFile path ≠ none) : path = download := by
  by_contra other
  exact here (if_neg other)

theorem fresh_placed (path : Bytes) (here : freshFile path ≠ none) :
    decide (parent_path path ∈ folders) = true := by
  rw [freshFile_some here]
  decide

theorem fresh_apart (path : Bytes) (here : freshFile path ≠ none) :
    decide (path ∈ folders) = false := by
  rw [freshFile_some here]
  decide

/-- A host that has nothing of the agent but its program in some place. -/
def freshHost : Host :=
  ⟨⟨freshFile, fun path => decide (path ∈ folders), fresh_placed, fresh_apart⟩, false, false⟩

/-- An invocation in which nothing fails. -/
def smooth (exec_path : Bytes) : Invocation where
  exec_path := exec_path
  configOpens := true
  early := 0
  close := .whole
  keyFolder := true
  key := .whole
  install := .fine
  uninstall := ⟨.done, .done, true⟩
  keyRemoved := true
  run _ t := t
  run_status := 0

def firstOptions : Options :=
  { Options.default .linux with server_url := bytes "broker", do_install := true }

theorem fresh_is_sensible : Sensible (smooth download) firstOptions freshHost.tree :=
  { program := by decide
    binary := by decide
    unit := by decide
    key := by decide
    config := by decide
    folder := by decide
    notFolder := by decide
    apart := by decide
    programApart := by decide }

end OrbisAgent.Cli.Installation
