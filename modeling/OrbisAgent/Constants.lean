/- OrbisAgent/Constants
   source: src/constants.hpp
   digest: The limits and topic templates that the modelled functions read. -/

set_option autoImplicit false
set_option relaxedAutoImplicit false

namespace OrbisAgent.Constants

def TOPIC_REGISTER : String := "devices/register"
def TOPIC_REGISTER_ACK_FMT : String := "devices/\x7b\x7d/register_ack"
def TOPIC_LOGS_FMT : String := "devices/\x7b\x7d/logs"
def TOPIC_STATUS_FMT : String := "devices/\x7b\x7d/status"
def TOPIC_COMMANDS_FMT : String := "devices/\x7b\x7d/commands"
def TOPIC_RESULTS_FMT : String := "devices/\x7b\x7d/results"
def TOPIC_DISCOVERY_FMT : String := "devices/\x7b\x7d/discovery"
def TOPIC_UPDATE_FMT : String := "devices/\x7b\x7d/update"
def TOPIC_UPDATE_PROGRESS_FMT : String := "devices/\x7b\x7d/update_progress"

def TIMEOUT_COMMAND_DEFAULT_SEC : Int := 30

def BUFFER_MAX_MESSAGES : Nat := 100000
def BUFFER_FLUSH_BATCH_SIZE : Nat := 50
def LOG_BATCH_MAX : Nat := 100
def COMMAND_OUTPUT_MAX_BYTES : Nat := 65536

def AGENT_VERSION : String := "1.0.0"
def AGENT_NAME : String := "orbis-agent"

def SERVICE_NAME : String := "orbis-agent"
def SERVICE_DESCRIPTION : String := "Orbis remote monitoring and management agent"
def SYSTEMD_UNIT_PATH : String := "/etc/systemd/system/orbis-agent.service"
def LAUNCHD_PLIST_PATH : String := "/Library/LaunchDaemons/com.orbis.agent.plist"

def DEFAULT_UNINSTALL_CODE : String := "orbis2026"

/-- The platforms that the build distinguishes. -/
inductive Platform
  | linux
  | macos
  | windows
  deriving DecidableEq

def DEFAULT_CONFIG_PATH : Platform → String
  | .windows => "C:\\ProgramData\\Orbis\\config.toml"
  | .linux | .macos => "/etc/orbis-agent/config.toml"

def BINARY_INSTALL_PATH : Platform → String
  | .windows => "C:\\Program Files\\Orbis\\orbis-agent.exe"
  | .linux | .macos => "/usr/bin/orbis-agent"

def DEFAULT_LOG_PATH : Platform → String
  | .windows => "C:\\ProgramData\\Orbis\\agent.log"
  | .linux | .macos => "/var/log/orbis-agent.log"

def DEFAULT_BUFFER_PATH : Platform → String
  | .windows => "C:\\ProgramData\\Orbis\\buffer.db"
  | .linux | .macos => "/var/lib/orbis-agent/buffer.db"

def UNINSTALL_KEY_PATH : Platform → String
  | .windows => "C:\\ProgramData\\Orbis\\.uninstall_key"
  | .linux | .macos => "/etc/orbis-agent/.uninstall_key"

/-- Replace the first placeholder of a template, if there is one. -/
def fillPlaceholder (device_id : List Char) : List Char → List Char
  | [] => []
  | '\x7b' :: '\x7d' :: rest => device_id ++ rest
  | c :: rest => c :: fillPlaceholder device_id rest

def topicFor (fmt device_id : String) : String :=
  String.ofList (fillPlaceholder device_id.toList fmt.toList)

example : topicFor TOPIC_LOGS_FMT "d1" = "devices/d1/logs" := by decide

end OrbisAgent.Constants
