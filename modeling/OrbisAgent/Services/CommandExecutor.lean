/- OrbisAgent/Services/CommandExecutor
   source: src/services/CommandExecutor.hpp, src/services/CommandExecutor.cpp
   digest: executeCommand with its handlers, and the results it publishes for every payload. -/

import OrbisAgent.Constants
import OrbisAgent.Lib.Json
import OrbisAgent.Lib.Trace

set_option autoImplicit false
set_option relaxedAutoImplicit false

namespace OrbisAgent.Services.CommandExecutor

open OrbisAgent.Constants
open OrbisAgent.Lib.Json
open OrbisAgent.Lib.Trace

inductive Statut
  | acknowledged
  | executing
  | success
  | failed
  deriving DecidableEq

def Statut.text : Statut → String
  | .acknowledged => "acknowledged"
  | .executing => "executing"
  | .success => "success"
  | .failed => "failed"

def Statut.terminal : Statut → Bool
  | .success | .failed => true
  | .acknowledged | .executing => false

structure ShellResult where
  exit_code : Int
  output : ByteArray
  error : ByteArray
  deriving DecidableEq

/-- One call of `publish_fn_`: the topic, the document, and its dumped text. -/
structure Published where
  topic : String
  document : Json
  payload : String

/-- The arguments of an `UpdateManager::update` that a command starts. -/
structure UpdateRequest where
  command_id : ByteArray
  url : ByteArray
  sha256 : ByteArray
  version : ByteArray
  deriving DecidableEq

/-- What a command does to the world outside the executor. -/
structure World where
  published : List Published
  shells : List (ByteArray × Int)
  collections : Nat
  scans : Nat
  updates : List UpdateRequest

/-- What the executor was built with. The three flags say which of the pointers
are set, `now n` is the time of the nth result. -/
structure Host where
  codec : Codec
  device_id : String
  platform : Platform
  now : Nat → String
  runShell : ByteArray → Int → Except Exn ShellResult
  log_collector : Bool
  network_scanner : Bool
  update_manager : Bool

abbrev Command := Prog Exn World

/-- An empty text is published as null. -/
def textOrNull (s : ByteArray) : Json := if s.isEmpty then .null else .str s

def resultJson (host : Host) (command_id : ByteArray) (statut : Statut) (output error : ByteArray)
    (exit_code : Int) (timestamp : String) : Json :=
  let ended := statut.terminal
  .obj [("command_id", .str command_id), ("device_id", .text host.device_id),
    ("error", if ended then textOrNull error else .null),
    ("exit_code", if ended then (if exit_code < 0 then .null else .int exit_code) else .null),
    ("output", if ended then textOrNull output else .null),
    ("statut", .text statut.text), ("timestamp", .text timestamp)]

def publishResult (host : Host) (command_id : ByteArray) (statut : Statut)
    (output error : ByteArray) (exit_code : Int) : Command Unit := do
  let w ← get
  let document :=
    resultJson host command_id statut output error exit_code (host.now w.published.length)
  let payload ← lift (host.codec.dump document)
  let topic := topicFor TOPIC_RESULTS_FMT host.device_id
  modify fun w => { w with published := w.published ++ [⟨topic, document, payload⟩] }

def runShell (host : Host) (command : ByteArray) (timeout_sec : Int) : Command ShellResult := do
  modify fun w => { w with shells := w.shells ++ [(command, timeout_sec)] }
  lift (host.runShell command timeout_sec)

/-- The field `command` of the payload, when it is an object. -/
def commandField (host : Host) (payload_str : String) : Except Exn ByteArray := do
  let payload ← host.codec.parse payload_str.toByteArray
  payload.value Json.getString "command" ByteArray.empty

/-- The command text. Every exception makes it the payload as it is. -/
def shellCommand (host : Host) (payload_str : String) : ByteArray :=
  match commandField host payload_str with
  | .ok command => command
  | .error _ => payload_str.toByteArray

def truncateOutput (output : ByteArray) : ByteArray :=
  if COMMAND_OUTPUT_MAX_BYTES < output.size then
    output.extract 0 COMMAND_OUTPUT_MAX_BYTES ++ "\n[TRUNCATED]".toByteArray
  else output

def statutOf (exit_code : Int) : Statut := if exit_code = 0 then .success else .failed

def handleShell (host : Host) (cmd_id : ByteArray) (payload_str : String) (timeout_sec : Int) :
    Command Unit := do
  let command := shellCommand host payload_str
  if command.isEmpty then
    publishResult host cmd_id .failed ByteArray.empty "Empty command".toByteArray (-1)
  else
    publishResult host cmd_id .executing ByteArray.empty ByteArray.empty (-1)
    let result ← runShell host command timeout_sec
    publishResult host cmd_id (statutOf result.exit_code) (truncateOutput result.output)
      result.error result.exit_code

def restartCommand : Platform → String × Int
  | .linux => ("systemctl restart orbis-agent", 30)
  | .macos => ("launchctl unload " ++ LAUNCHD_PLIST_PATH ++ " && launchctl load " ++
      LAUNCHD_PLIST_PATH, 30)
  | .windows => ("net stop orbis-agent & net start orbis-agent", 60)

def handleRestart (host : Host) (cmd_id : ByteArray) : Command Unit := do
  publishResult host cmd_id .executing ByteArray.empty ByteArray.empty (-1)
  let (command, timeout_sec) := restartCommand host.platform
  let result ← runShell host command.toByteArray timeout_sec
  publishResult host cmd_id (statutOf result.exit_code) result.output result.error
    result.exit_code

/-- A handler that wakes another service, when the executor knows it. -/
def handleTrigger (host : Host) (cmd_id : ByteArray) (known : Bool) (wake : World → World)
    (output : String) : Command Unit := do
  publishResult host cmd_id .executing ByteArray.empty ByteArray.empty (-1)
  modify fun w => if known then wake w else w
  publishResult host cmd_id .success output.toByteArray ByteArray.empty 0

def handleCollectNow (host : Host) (cmd_id : ByteArray) : Command Unit :=
  handleTrigger host cmd_id host.log_collector
    (fun w => { w with collections := w.collections + 1 }) "Collection triggered"

def handleScanNetwork (host : Host) (cmd_id : ByteArray) : Command Unit :=
  handleTrigger host cmd_id host.network_scanner
    (fun w => { w with scans := w.scans + 1 }) "Network scan triggered"

def handleGetInfo (host : Host) (cmd_id : ByteArray) : Command Unit := do
  publishResult host cmd_id .executing ByteArray.empty ByteArray.empty (-1)
  let info := Json.obj [("device_id", .text host.device_id), ("version", .text AGENT_VERSION)]
  let output ← lift (host.codec.dump info)
  publishResult host cmd_id .success output.toByteArray ByteArray.empty 0

/-- The `agent_update` branch. The update runs in a thread of its own. -/
def handleAgentUpdate (host : Host) (command_id : ByteArray) (j : Json) : Command Unit := do
  if !host.update_manager then
    publishResult host command_id .failed ByteArray.empty
      "UpdateManager not configured".toByteArray (-1)
  else
    let payload_j ← lift (j.value Json.getJson "payload" .null)
    let url ← lift (payload_j.value Json.getString "url" ByteArray.empty)
    let sha256 ← lift (payload_j.value Json.getString "sha256" ByteArray.empty)
    let version ← lift (payload_j.value Json.getString "version" ByteArray.empty)
    if url.isEmpty || sha256.isEmpty then
      publishResult host command_id .failed ByteArray.empty
        "Missing url or sha256 in payload".toByteArray (-1)
    else
      modify fun w => { w with updates := w.updates ++ [⟨command_id, url, sha256, version⟩] }

/-- The body of `executeCommand` from the moment the command id is known. -/
def dispatch (host : Host) (j : Json) (command_id : ByteArray) : Command Unit := do
  let type ← lift (j.value Json.getString "type" ByteArray.empty)
  let timeout_sec ← lift (j.value Json.getInt "timeout_sec" TIMEOUT_COMMAND_DEFAULT_SEC)
  publishResult host command_id .acknowledged ByteArray.empty ByteArray.empty (-1)
  if type = "shell".toByteArray then
    let payload ← lift (j.value Json.getJson "payload" .null)
    let payload_str ← lift (host.codec.dump payload)
    handleShell host command_id payload_str timeout_sec
  else if type = "restart_service".toByteArray then handleRestart host command_id
  else if type = "collect_now".toByteArray then handleCollectNow host command_id
  else if type = "scan_network".toByteArray then handleScanNetwork host command_id
  else if type = "get_info".toByteArray then handleGetInfo host command_id
  else if type = "agent_update".toByteArray then handleAgentUpdate host command_id j
  else
    publishResult host command_id .failed ByteArray.empty
      ("Unknown command type: ".toByteArray ++ type) (-1)

def readCommandId (host : Host) (payload : ByteArray) : Except Exn (Json × ByteArray) := do
  let j ← host.codec.parse payload
  let command_id ← j.value Json.getString "command_id" ByteArray.empty
  return (j, command_id)

def executeCommand (host : Host) (payload : ByteArray) : Command Unit :=
  match readCommandId host payload with
  | .error _ => pure ()  -- the id is still empty, so the handler only logs
  | .ok (j, command_id) =>
      tryCatch (dispatch host j command_id) fun e =>
        if command_id.isEmpty then pure ()
        else publishResult host command_id .failed ByteArray.empty e.what.toByteArray (-1)

end OrbisAgent.Services.CommandExecutor
