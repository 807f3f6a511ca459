/- OrbisAgent/Cli/Main
   source: src/main.cpp: sha256hex, saveUninstallKey, verifyUninstallCode, main
   digest: One invocation of the program: what it prints, returns, and does to the files and to
   the service. -/

import OrbisAgent.Cli.Arguments
import Mathlib.Logic.Function.Basic

set_option autoImplicit false
set_option relaxedAutoImplicit false

namespace OrbisAgent.Cli.Main

open OrbisAgent.Cli.Arguments
open OrbisAgent.Constants
open OrbisAgent.Lib.ByteString

/-- `sha256hex`: a text on one line. That no two inputs share it is an assumption. -/
structure Digest where
  sha256hex : Bytes → Bytes
  collisionFree : ∀ input other, sha256hex input = sha256hex other → input = other
  nonempty : ∀ input, sha256hex input ≠ []
  oneLine : ∀ input, newline ∉ sha256hex input

/-- The digests of some texts. -/
def knownDigests : List (Bytes × Bytes) :=
  [(bytes "alpha", bytes "8ed3f6ad685b959ead7022518e1af76cd816f8e8ec7ccdda1ed4018e8f2223f8"),
    (bytes "orbis2026", bytes "c5168da17e50975f273523b9a92e3dde82154e31630e300d9d4cd7a186d06d21"),
    (bytes "s3cret", bytes "1ec1c26b50d5d3c58d9583181af8076655fe00756bf7285940ba3670f99fcba0"),
    (bytes "--version", bytes "46dcd820f40e03f158584a12373b1a4cf12573d9caa962914261de85c0807695")]

/-- A collision-free digest that is right on `knownDigests`; elsewhere it is an escape
after an x, which no digest starts with. -/
def sampleHash (input : Bytes) : Bytes :=
  match knownDigests.find? fun entry => entry.1 == input with
  | some entry => entry.2
  | none => 120 :: escapeBytes input

theorem sampleHash_cases (input : Bytes) :
    (∃ entry ∈ knownDigests, entry.1 = input ∧ sampleHash input = entry.2) ∨
      sampleHash input = 120 :: escapeBytes input := by
  unfold sampleHash
  split
  · rename_i entry found
    exact .inl ⟨entry, List.mem_of_find?_eq_some found, by simpa using List.find?_some found, rfl⟩
  · exact .inr rfl

def sampleDigest : Digest where
  sha256hex := sampleHash
  collisionFree := by
    have known : ∀ entry ∈ knownDigests, ∀ another ∈ knownDigests,
        entry.2 = another.2 → entry.1 = another.1 := by decide +kernel
    have apart : ∀ entry ∈ knownDigests, entry.2.head? ≠ some 120 := by decide +kernel
    intro input other same
    rcases sampleHash_cases input with ⟨entry, mem, rfl, hash⟩ | hash <;>
      rcases sampleHash_cases other with ⟨another, mem', rfl, hash'⟩ | hash' <;>
      rw [hash, hash'] at same
    · exact known entry mem another mem' same
    · exact absurd (by rw [same]; rfl) (apart entry mem)
    · exact absurd (by rw [← same]; rfl) (apart another mem')
    · exact escapeBytes_injective (List.cons.inj same).2
  nonempty := by
    have known : ∀ entry ∈ knownDigests, entry.2 ≠ [] := by decide +kernel
    intro input
    rcases sampleHash_cases input with ⟨entry, mem, _, hash⟩ | hash
    · rw [hash]
      exact known entry mem
    · rw [hash]
      exact List.cons_ne_nil _ _
  oneLine := by
    have known : ∀ entry ∈ knownDigests, newline ∉ entry.2 := by decide +kernel
    intro input
    rcases sampleHash_cases input with ⟨entry, mem, _, hash⟩ | hash
    · rw [hash]
      exact known entry mem
    · rw [hash, List.mem_cons, not_or]
      exact ⟨by decide, newline_notMem_escapeBytes input⟩

/-- The contents of the files, by path as written. -/
abbrev Files := Bytes → Option Bytes

def Files.write (files : Files) (path content : Bytes) : Files :=
  Function.update files path (some content)

def Files.remove (files : Files) (path : Bytes) : Files := Function.update files path none

@[simp] theorem write_same (files : Files) (path content : Bytes) :
    files.write path content path = some content := by
  simp [Files.write]

@[simp] theorem remove_same (files : Files) (path : Bytes) : files.remove path path = none := by
  simp [Files.remove]

structure Machine where
  files : Files
  /-- The service is registered with the system. -/
  installed : Bool

/-- What one invocation reads of the outside: the path of the executable, the paths
that open for writing, whether the key file can be removed, the answer of the
service installer and whether its call took effect, and what a normal run with a
configuration leaves in the files and returns. -/
structure Outside where
  exec_path : Bytes
  opens : Bytes → Bool
  removes : Bool
  answer : Bool
  effective : Bool
  run : Bytes → Files → Files
  run_status : Nat

/-- The calls of the service installer. -/
inductive Request
  | install (exec_path config_path : Bytes)
  | uninstall
  | isRunning
  deriving DecidableEq

structure Outcome where
  status : Nat
  stdout : Bytes
  stderr : Bytes
  request : Option Request
  deriving DecidableEq

def keyPath (platform : Platform) : Bytes := bytes (UNINSTALL_KEY_PATH platform)

/-- `none` when the key file does not open. -/
def saveUninstallKey (d : Digest) (platform : Platform) (out : Outside) (code : Bytes)
    (files : Files) : Option Files :=
  if out.opens (keyPath platform) then
    some (files.write (keyPath platform) (d.sha256hex code ++ [newline]))
  else none

def verifyUninstallCode (d : Digest) (platform : Platform) (code : Bytes) (files : Files) : Bool :=
  match files (keyPath platform) with
  | none => false
  | some content =>
      let stored_hash := firstLine content
      stored_hash != [] && d.sha256hex code == stored_hash

/-- The configuration that `--install` writes. -/
def installConfig (platform : Platform) (server_url reg_token : Bytes) : Bytes :=
  bytes "[agent]\ndevice_id = \"\"\ntoken = \"\"\n" ++
  bytes "log_file = \"" ++ bytes (DEFAULT_LOG_PATH platform) ++ bytes "\"\n\n" ++
  bytes "[mqtt]\nbroker_host = \"" ++ server_url ++ bytes "\"\n" ++
  bytes "broker_port = 8883\nuse_tls = true\n" ++
  bytes "register_secret = \"" ++
    (if reg_token.isEmpty then bytes "orbis_register_secret" else reg_token) ++ bytes "\"\n" ++
  bytes "reconnect_delay_min_sec = 1\nreconnect_delay_max_sec = 60\n" ++
  bytes "keepalive_sec = 60\n\n" ++
  bytes "[heartbeat]\ninterval_sec = 30\n\n" ++
  bytes "[logs]\ninterval_sec = 60\n"

def codeToSave (o : Options) : Bytes :=
  if o.uninstall_code.isEmpty then bytes DEFAULT_UNINSTALL_CODE else o.uninstall_code

/-- The branch of `--verify-uninstall-code`. -/
def verify (d : Digest) (platform : Platform) (o : Options) (m : Machine) : Outcome × Machine :=
  if o.uninstall_code.isEmpty then
    (⟨1, [], bytes "Error: --verify-uninstall-code requires --uninstall-code <code>\n", none⟩, m)
  else
    (⟨if verifyUninstallCode d platform o.uninstall_code m.files then 0 else 1, [], [], none⟩, m)

/-- The branch of `--install`. -/
def install (d : Digest) (platform : Platform) (out : Outside) (o : Options) (m : Machine) :
    Outcome × Machine :=
  if o.server_url.isEmpty then
    (⟨1, [], bytes "Error: --install requires --server <url>\n", none⟩, m)
  else
    let files :=
      if out.opens o.config_path then
        m.files.write o.config_path (installConfig platform o.server_url o.reg_token)
      else m.files
    let status := if out.answer then 0 else 1
    let request := some (Request.install out.exec_path o.config_path)
    match saveUninstallKey d platform out (codeToSave o) files with
    | some files => (⟨status, [], [], request⟩, ⟨files, m.installed || out.effective⟩)
    | none =>
        (⟨status, [], bytes "Cannot write uninstall key to " ++ keyPath platform ++
            bytes "\nWarning: could not save uninstall key.\n", request⟩,
          ⟨files, m.installed || out.effective⟩)

/-- The branch of `--uninstall`, past the check of the code. -/
def removeService (platform : Platform) (out : Outside) (m : Machine) : Outcome × Machine :=
  (⟨if out.answer then 0 else 1, [], [], some .uninstall⟩,
    ⟨if out.answer && out.removes then m.files.remove (keyPath platform) else m.files,
      m.installed && !out.effective⟩)

/-- The branch of `--uninstall`. -/
def uninstall (d : Digest) (platform : Platform) (out : Outside) (o : Options) (m : Machine) :
    Outcome × Machine :=
  if (m.files (keyPath platform)).isSome then
    if o.uninstall_code.isEmpty then
      (⟨1, [], bytes "Error: this agent is protected. " ++
        bytes "Provide --uninstall-code <code> to uninstall.\n", none⟩, m)
    else if !verifyUninstallCode d platform o.uninstall_code m.files then
      (⟨1, [], bytes "Error: invalid uninstall code.\n", none⟩, m)
    else removeService platform out m
  else removeService platform out m

/-- The branch of `--status`. -/
def status (out : Outside) (m : Machine) : Outcome × Machine :=
  (⟨if out.answer then 0 else 1,
    bytes SERVICE_NAME ++ bytes ": " ++ bytes (if out.answer then "running" else "stopped") ++
      bytes "\n", [], some .isRunning⟩, m)

/-- One invocation with the arguments after the program's name. -/
def main (d : Digest) (platform : Platform) (out : Outside) (args : List Bytes) (m : Machine) :
    Outcome × Machine :=
  let o := parseArgs args (.default platform)
  if o.do_version then
    (⟨0, bytes AGENT_NAME ++ bytes " v" ++ bytes AGENT_VERSION ++ bytes "\n", [], none⟩, m)
  else if o.do_verify_uninstall then verify d platform o m
  else if o.do_install then install d platform out o m
  else if o.do_uninstall then uninstall d platform out o m
  else if o.do_status then status out m
  else (⟨out.run_status, [], [], none⟩, { m with files := out.run o.config_path m.files })

end OrbisAgent.Cli.Main
