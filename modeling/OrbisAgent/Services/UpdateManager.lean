/- OrbisAgent/Services/UpdateManager
   source: src/services/UpdateManager.hpp, src/services/UpdateManager.cpp
   digest: One update run over the files at the agent's path, with every way its steps end. -/

import OrbisAgent.Lib.FileSystem
import OrbisAgent.Services.CommandExecutor

set_option autoImplicit false
set_option relaxedAutoImplicit false

namespace OrbisAgent.Services.UpdateManager

open OrbisAgent.Constants
open OrbisAgent.Lib.FileSystem
open OrbisAgent.Lib.Json
open OrbisAgent.Lib.Trace
open OrbisAgent.Services.CommandExecutor (Published Statut UpdateRequest textOrNull)

abbrev Content := List UInt8

abbrev Files := Fs String UInt8

/-- The path that the running program sees as its own: the one it was started
from, or that path marked as deleted. -/
inductive Link
  | live
  | deleted
  deriving DecidableEq

def Link.path (exe : String) : Link → String
  | .live => exe
  | .deleted => exe ++ " (deleted)"

def backupPath (binary_path : String) : String := binary_path ++ ".bak"

def tmpPath (binary_path : String) : String := binary_path ++ ".new"

private theorem ne_append (s : String) {t : String} (nonempty : t ≠ "") : s ≠ s ++ t := by
  intro same
  exact nonempty (String.append_eq_left_iff.mp same.symm)

theorem path_injective {exe : String} {l m : Link} (same : l.path exe = m.path exe) : l = m := by
  cases l <;> cases m
  · rfl
  · exact absurd same (ne_append exe (by decide))
  · exact absurd same.symm (ne_append exe (by decide))
  · rfl

private theorem path_ne_suffixed (exe : String) (l m : Link) {suffix : String}
    (long : suffix ≠ "") (other : " (deleted)" ≠ suffix) :
    l.path exe ≠ m.path exe ++ suffix := by
  cases l <;> cases m <;> simp only [Link.path, String.append_assoc, ne_eq, String.append_right_inj]
  · exact ne_append exe long
  · exact ne_append exe fun empty => by simp at empty
  · exact other
  · exact ne_append " (deleted)" long

theorem path_ne_backupPath (exe : String) (l m : Link) :
    l.path exe ≠ backupPath (m.path exe) :=
  path_ne_suffixed exe l m (by decide) (by decide)

theorem path_ne_tmpPath (exe : String) (l m : Link) : l.path exe ≠ tmpPath (m.path exe) :=
  path_ne_suffixed exe l m (by decide) (by decide)

theorem tmpPath_ne_backupPath (exe : String) (l m : Link) :
    tmpPath (l.path exe) ≠ backupPath (m.path exe) := by
  cases l <;> cases m <;>
    simp only [Link.path, tmpPath, backupPath, String.append_assoc, ne_eq,
      String.append_right_inj] <;> decide

theorem tmpPath_injective {exe : String} {l m : Link}
    (same : tmpPath (l.path exe) = tmpPath (m.path exe)) : l = m :=
  path_injective ((String.append_left_inj ".new").mp same)

/-- The link that `currentBinaryPath` reads. On Linux it follows the running
file, elsewhere it is the path of the start. -/
def currentLink (platform : Platform) (exe : String) (running : Nat) (fs : Files) : Link :=
  match platform with
  | .linux => if fs.dir exe = some running then .live else .deleted
  | .macos | .windows => .live

/-- A running program cannot be opened for writing, except on macOS. -/
def busy (platform : Platform) (running : Nat) (fs : Files) (p : String) : Bool :=
  platform != .macos && fs.dir p == some running

/-- The data of an UpdateManager and of the process it runs in. -/
structure Host where
  codec : Codec
  device_id : String
  platform : Platform
  now : Nat → String
  exe : String
  sha256Hex : Content → String

structure World where
  fs : Files
  running : Nat
  published : List Published
  system : List String

/-- How a `fs::copy_file` ends: an exception comes before the target is opened,
or when this many bytes are copied. -/
inductive Copy
  | done
  | refused (e : Exn)
  | broken (e : Exn) (copied : Nat)

/-- How a download ends. The body is what reached the file. -/
structure Download where
  curl : Bool
  opened : Bool
  body : Content
  rc_ok : Bool
  http_code : Int

/-- How each step of one run ends. `fs::remove` is called at most once. -/
structure Outcomes where
  backup : Copy
  download : Download
  readable : Bool
  remove : Except Exn Unit
  rename : Bool
  permissions : Except Exn Unit
  restart : Bool
  rollback : Copy
  rollback_permissions : Except Exn Unit

abbrev Run := Prog Exn World

def copyError (reason source target : String) : Exn :=
  ⟨.other,
    "filesystem error: cannot copy file: " ++ reason ++ " [" ++ source ++ "] [" ++ target ++ "]"⟩

/-- `fs::copy_file` with `overwrite_existing`. -/
def copyFile (host : Host) (ends : Copy) (source target : String) : Run Unit := do
  let w ← get
  match w.fs.read source with
  | none => throw (copyError "No such file or directory" source target)
  | some content =>
      if busy host.platform w.running w.fs target then
        throw (copyError "Text file busy" source target)
      else
        match ends with
        | .done => modify fun w => { w with fs := w.fs.put target content }
        | .refused e => throw e
        | .broken e copied => do
            modify fun w => { w with fs := w.fs.put target (content.take copied) }
            throw e

def currentBinaryPath (host : Host) : Run String := do
  let w ← get
  return (currentLink host.platform host.exe w.running w.fs).path host.exe

def resultJson (host : Host) (command_id : ByteArray) (statut : Statut)
    (output error : ByteArray) (timestamp : String) : Json :=
  .obj [("command_id", .str command_id), ("device_id", .text host.device_id),
    ("error", textOrNull error), ("exit_code", .null), ("output", textOrNull output),
    ("statut", .text statut.text), ("timestamp", .text timestamp)]

def progressJson (host : Host) (command_id : ByteArray) (step : String)
    (output error : ByteArray) (timestamp : String) : Json :=
  .obj [("command_id", .str command_id), ("device_id", .text host.device_id),
    ("error", textOrNull error), ("output", textOrNull output),
    ("statut", .text Statut.executing.text), ("step", .text step), ("timestamp", .text timestamp)]

/-- Dump a document and hand it to `publish_fn_`. -/
def publish (host : Host) (fmt : String) (document : String → Json) : Run Unit := do
  let w ← get
  let document := document (host.now w.published.length)
  let payload ← lift (host.codec.dump document)
  let topic := topicFor fmt host.device_id
  modify fun w => { w with published := w.published ++ [⟨topic, document, payload⟩] }

def publishResult (host : Host) (command_id : ByteArray) (statut : Statut)
    (output error : ByteArray) : Run Unit :=
  publish host TOPIC_RESULTS_FMT (resultJson host command_id statut output error)

def publishProgress (host : Host) (command_id : ByteArray) (step : String)
    (output error : ByteArray) : Run Unit :=
  publish host TOPIC_UPDATE_PROGRESS_FMT (progressJson host command_id step output error)

def downloadBinary (d : Download) (dest : String) : Run Bool := do
  if !d.curl then return false
  else if !d.opened then return false
  else
    modify fun w => { w with fs := w.fs.put dest d.body }
    if !d.rc_ok then return false
    else return d.http_code == 200

def verifySHA256 (host : Host) (o : Outcomes) (file_path : String) (expected_hex : ByteArray) :
    Run Bool := do
  let w ← get
  match w.fs.read file_path with
  | some content =>
      return o.readable && decide ((host.sha256Hex content).toByteArray = expected_hex)
  | none => return false

/-- `fs::remove`. A missing file is no error. -/
def removeFile (o : Outcomes) (p : String) : Run Unit := do
  lift o.remove
  modify fun w => { w with fs := w.fs.remove p }

def replaceBinary (host : Host) (o : Outcomes) (new_path : String) : Run Bool := do
  let current ← currentBinaryPath host
  let w ← get
  if !o.rename || (w.fs.dir new_path).isNone then return false
  else
    modify fun w => { w with fs := w.fs.rename new_path current }
    if host.platform = .windows then return true
    else
      lift o.permissions
      return true

def restartCommand : Platform → String
  | .linux => "systemctl restart orbis-agent"
  | .macos =>
      "launchctl unload " ++ LAUNCHD_PLIST_PATH ++ " && launchctl load " ++ LAUNCHD_PLIST_PATH
  | .windows => "net stop orbis-agent & net start orbis-agent"

def restartService (host : Host) (o : Outcomes) : Run Bool := do
  modify fun w => { w with system := w.system ++ [restartCommand host.platform] }
  return o.restart

def rollback (host : Host) (o : Outcomes) (backup_path : String) : Run Bool := do
  let current ← currentBinaryPath host
  tryCatch
    (do
      copyFile host o.rollback backup_path current
      if host.platform = .windows then return true
      else
        lift o.rollback_permissions
        return true)
    fun _ => return false

/-- The backup step, with the handler that reports its failure. -/
def backup (host : Host) (o : Outcomes) (command_id : ByteArray)
    (binary_path backup_path : String) : Run Bool :=
  tryCatch
    (do
      copyFile host o.backup binary_path backup_path
      return true)
    fun e => do
      publishResult host command_id .failed ByteArray.empty
        ("Backup failed: ".toByteArray ++ e.what.toByteArray)
      return false

/-- What follows a failed download or verification. -/
def abandon (host : Host) (o : Outcomes) (command_id : ByteArray) (tmp_path : String)
    (error : ByteArray) : Run Unit := do
  removeFile o tmp_path
  publishProgress host command_id "failed" ByteArray.empty error
  publishResult host command_id .failed ByteArray.empty error

/-- The rest of `update` once the downloaded file is verified. -/
def install (host : Host) (o : Outcomes) (r : UpdateRequest) (backup_path tmp_path : String) :
    Run Unit := do
  publishProgress host r.command_id "replacing" "Replacing binary".toByteArray ByteArray.empty
  let replaced ← replaceBinary host o tmp_path
  if !replaced then
    removeFile o tmp_path
    let _ ← rollback host o backup_path
    publishProgress host r.command_id "rollback" ByteArray.empty
      "Binary replacement failed — rolled back".toByteArray
    publishResult host r.command_id .failed ByteArray.empty
      "Binary replacement failed".toByteArray
  else
    publishProgress host r.command_id "restarting" "Restarting service".toByteArray
      ByteArray.empty
    let restarted ← restartService host o
    if !restarted then
      let _ ← rollback host o backup_path
      publishProgress host r.command_id "rollback" ByteArray.empty
        "Service restart failed — rolled back".toByteArray
      publishResult host r.command_id .failed ByteArray.empty
        "Service restart failed, rolled back".toByteArray
    else
      let output := "Updated to ".toByteArray ++ r.version ++ " successfully".toByteArray
      publishProgress host r.command_id "success" output ByteArray.empty
      publishResult host r.command_id .success output ByteArray.empty

def update (host : Host) (o : Outcomes) (r : UpdateRequest) : Run Unit := do
  let binary_path ← currentBinaryPath host
  let backup_path := backupPath binary_path
  let tmp_path := tmpPath binary_path
  let backed_up ← backup host o r.command_id binary_path backup_path
  if backed_up then
    publishProgress host r.command_id "downloading" ("Downloading ".toByteArray ++ r.url)
      ByteArray.empty
    let downloaded ← downloadBinary o.download tmp_path
    if !downloaded then
      abandon host o r.command_id tmp_path ("Download failed: ".toByteArray ++ r.url)
    else
      publishProgress host r.command_id "verifying" "Verifying SHA-256".toByteArray
        ByteArray.empty
      let verified ←
        if r.sha256.isEmpty then pure true else verifySHA256 host o tmp_path r.sha256
      if !verified then
        abandon host o r.command_id tmp_path "SHA256 mismatch".toByteArray
      else install host o r backup_path tmp_path

end OrbisAgent.Services.UpdateManager
