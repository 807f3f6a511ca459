/- OrbisAgent/Config/ConfigManager
   source: src/config/ConfigManager.hpp, src/config/ConfigManager.cpp: load, save, getters, setters
   digest: The state of the manager, what load reads of a document and save writes into a text. -/

import OrbisAgent.Config.Token
import OrbisAgent.Constants
import OrbisAgent.Lib.Assignment
import OrbisAgent.Lib.Toml

set_option autoImplicit false
set_option relaxedAutoImplicit false

namespace OrbisAgent.Config.ConfigManager

open OrbisAgent.Config.Token
open OrbisAgent.Constants
open OrbisAgent.Lib.Assignment
open OrbisAgent.Lib.ByteString
open OrbisAgent.Lib.Toml

structure MQTTConfig where
  broker_host : Bytes
  broker_port : Int
  use_tls : Bool
  ca_cert_path : Bytes
  register_secret : Bytes
  reconnect_delay_min_sec : Int
  reconnect_delay_max_sec : Int
  keepalive_sec : Int
  deriving DecidableEq

structure LogConfig where
  interval_sec : Int
  levels : List Bytes
  sources : List Bytes
  deriving DecidableEq

structure HeartbeatConfig where
  interval_sec : Int
  deriving DecidableEq

structure PluginConfig where
  enabled : Bool
  plugins_dir : Bytes
  deriving DecidableEq

structure NetworkScannerConfig where
  enabled : Bool
  scan_interval_sec : Int
  port_range : Bytes
  deriving DecidableEq

/-- The fields of the manager. -/
structure Manager where
  config_path : Bytes
  device_id : Bytes
  token_encrypted : Bytes
  log_file : Bytes
  buffer_db : Bytes
  mqtt : MQTTConfig
  log : LogConfig
  heartbeat : HeartbeatConfig
  plugins : PluginConfig
  scanner : NetworkScannerConfig
  deriving DecidableEq

/-- The manager of a process that has loaded nothing. -/
def Manager.initial : Manager where
  config_path := []
  device_id := []
  token_encrypted := []
  log_file := []
  buffer_db := []
  mqtt := ⟨[], 8883, true, [], [], 1, 60, 60⟩
  log := ⟨60, [bytes "INFO", bytes "WARNING", bytes "ERROR", bytes "CRITICAL"], []⟩
  heartbeat := ⟨30⟩
  plugins := ⟨true, bytes "./plugins"⟩
  scanner := ⟨false, 300, bytes "22,80,443,8080,8883"⟩

def dash : Bytes := bytes "-"

/-- The version 4 identity made of two random words. -/
def generateUUID (hi lo : UInt64) : Bytes :=
  let hi := (hi &&& 0xFFFFFFFFFFFF0FFF) ||| 0x0000000000004000
  let lo := (lo &&& 0x3FFFFFFFFFFFFFFF) ||| 0x8000000000000000
  hex 8 (hi >>> 32).toUInt32.toNat ++ dash ++ hex 4 (hi >>> 16).toUInt16.toNat ++ dash ++
    hex 4 hi.toUInt16.toNat ++ dash ++ hex 4 (lo >>> 48).toUInt16.toNat ++ dash ++
    hex 12 (lo &&& 0x0000FFFFFFFFFFFF).toNat

/-- How a call ends. -/
inductive Exit
  | returned (value : Bool)
  | threw
  deriving DecidableEq

/-- Push the strings of an array; `false` when an item is not one. -/
def pushStrings : List Value → List Bytes → Bool × List Bytes
  | [], pushed => (true, pushed)
  | .string s :: items, pushed => pushStrings items (pushed ++ [s])
  | _ :: _, pushed => (false, pushed)

/-- A list of `[logs]`, from the one before; `false` when a `find` or `get` throws. -/
def logsList (root : Value) (name : Bytes) (old : List Bytes) : Bool × List Bytes :=
  match root.find [.key (bytes "logs")] with
  | none => (true, old)
  | some (.table _) =>
      match root.find [.key (bytes "logs"), .key name] with
      | none => (true, old)
      | some (.array items) => pushStrings items []
      | some _ => (false, [])
  | some _ => (false, old)

def loadAgent (platform : Platform) (uuid : Bytes) (root : Value) (c : Manager) :
    Manager :=
  let device_id := root.stringOr (bytes "agent") (bytes "device_id") []
  { c with
    device_id := if device_id.isEmpty then uuid else device_id
    token_encrypted := root.stringOr (bytes "agent") (bytes "token") []
    log_file := root.stringOr (bytes "agent") (bytes "log_file") (bytes (DEFAULT_LOG_PATH platform))
    buffer_db :=
      root.stringOr (bytes "agent") (bytes "buffer_db") (bytes (DEFAULT_BUFFER_PATH platform)) }

def loadMqtt (root : Value) : MQTTConfig where
  broker_host := root.stringOr (bytes "mqtt") (bytes "broker_host") (bytes "localhost")
  broker_port := root.intOr (bytes "mqtt") (bytes "broker_port") 8883
  use_tls := root.boolOr (bytes "mqtt") (bytes "use_tls") true
  ca_cert_path := root.stringOr (bytes "mqtt") (bytes "ca_cert_path") []
  register_secret :=
    root.stringOr (bytes "mqtt") (bytes "register_secret") (bytes "orbis_register_secret")
  reconnect_delay_min_sec := root.intOr (bytes "mqtt") (bytes "reconnect_delay_min_sec") 1
  reconnect_delay_max_sec := root.intOr (bytes "mqtt") (bytes "reconnect_delay_max_sec") 60
  keepalive_sec := root.intOr (bytes "mqtt") (bytes "keepalive_sec") 60

def loadRest (root : Value) (c : Manager) : Manager :=
  { c with
    heartbeat := ⟨root.intOr (bytes "heartbeat") (bytes "interval_sec") 30⟩
    plugins := ⟨root.boolOr (bytes "plugins") (bytes "enabled") true,
      root.stringOr (bytes "plugins") (bytes "plugins_dir") (bytes "./plugins")⟩
    scanner := ⟨root.boolOr (bytes "network_scanner") (bytes "enabled") false,
      root.intOr (bytes "network_scanner") (bytes "scan_interval_sec") 300,
      root.stringOr (bytes "network_scanner") (bytes "port_range") (bytes "22,80,443,8080,8883")⟩ }

/-- `load` on the text of the file, `none` when it cannot be read. The parser is
toml11's; `uuid` is the identity that a call would generate. -/
def load (platform : Platform) (parse : Bytes → Option Value) (uuid config_path : Bytes)
    (content : Option Bytes) (c : Manager) : Exit × Manager :=
  let c := { c with config_path := config_path }
  match content.bind parse with
  | none => (.returned false, c)
  | some root =>
      let c := { loadAgent platform uuid root c with mqtt := loadMqtt root }
      let c := { c with
        log := { c.log with interval_sec := root.intOr (bytes "logs") (bytes "interval_sec") 60 } }
      let (ok, levels) := logsList root (bytes "levels") c.log.levels
      let c := { c with log := { c.log with levels := levels } }
      if !ok then (.threw, c)
      else
        let (ok, sources) := logsList root (bytes "sources") c.log.sources
        let c := { c with log := { c.log with sources := sources } }
        if !ok then (.threw, c) else (.returned true, loadRest root c)

/-- The text with the two managed fields rewritten. -/
def savedText (c : Manager) (content : Bytes) : Bytes :=
  let content := regexReplace (bytes "device_id") (assign (bytes "device_id") c.device_id) content
  regexReplace (bytes "token") (assign (bytes "token") c.token_encrypted) content

/-- `save` on the text of the file, `none` when it does not open for reading: what it
returns and leaves. Opening for writing empties the file, and no one checks how much of
the new text is written. -/
def save (content : Option Bytes) (opens : Bool) (written : Nat) (c : Manager) :
    Bool × Option Bytes :=
  match content with
  | none => (false, none)
  | some content =>
      if opens then (true, some ((savedText c content).take written)) else (false, some content)

def getDeviceId (c : Manager) : Bytes := c.device_id

def setDeviceId (id : Bytes) (c : Manager) : Manager := { c with device_id := id }

def getToken (aes : Aes) (key : Bytes) (c : Manager) : Bytes :=
  decryptToken aes key c.token_encrypted

/-- `none` when the encryption throws. -/
def setToken (aes : Aes) (key : Bytes) (iv : Option Iv) (token : Bytes) (c : Manager) :
    Option Manager :=
  (encryptToken aes key iv token).map fun token_encrypted =>
    { c with token_encrypted := token_encrypted }

def isRegistered (c : Manager) : Bool := !c.device_id.isEmpty && !c.token_encrypted.isEmpty

/-- A document whose lists in `[logs]` are lists of strings, where they are there. -/
def ListsReadable (root : Value) : Prop :=
  ∀ old, (logsList root (bytes "levels") old).1 = true ∧
    (logsList root (bytes "sources") old).1 = true

/-- Whether a list is readable does not depend on the one before. -/
theorem logsList_any {root : Value} {name : Bytes} {old : List Bytes}
    (readable : (logsList root name old).1 = true) (other : List Bytes) :
    (logsList root name other).1 = true := by
  unfold logsList at readable ⊢
  split at readable
  · rfl
  · split at readable
    · rfl
    · exact readable
    · cases readable
  · cases readable

/-- `load` returns true exactly on a file that parses with readable lists, and then the
fields are the document's. -/
theorem load_true {platform : Platform} {parse : Bytes → Option Value}
    {uuid config_path : Bytes} {content : Option Bytes} {c : Manager} :
    (load platform parse uuid config_path content c).1 = .returned true ↔
      ∃ root, content.bind parse = some root ∧ ListsReadable root := by
  unfold load
  dsimp only
  cases parsed : content.bind parse with
  | none => simp
  | some root =>
      dsimp only
      constructor
      · intro done
        refine ⟨root, rfl, ?_⟩
        split at done
        · cases done
        · rename_i levels
          split at done
          · cases done
          · rename_i sources
            rw [Bool.not_eq_true, Bool.not_eq_false'] at levels sources
            exact fun old => ⟨logsList_any levels old, logsList_any sources old⟩
      · rintro ⟨_, same, readable⟩
        obtain rfl := Option.some.inj same
        rw [(readable _).1, if_neg (by decide), (readable _).2, if_neg (by decide)]

/-- A load of a text that does not parse keeps the fields. -/
theorem load_unparsed (platform : Platform) (uuid config_path : Bytes) (c : Manager)
    {parse : Bytes → Option Value} {content : Option Bytes} (unparsed : content.bind parse = none) :
    load platform parse uuid config_path content c =
      (.returned false, { c with config_path := config_path }) := by
  unfold load
  dsimp only
  rw [unparsed]

theorem load_fields (platform : Platform) (uuid config_path : Bytes) (c : Manager)
    {parse : Bytes → Option Value} {content : Option Bytes} {root : Value}
    (parsed : content.bind parse = some root) :
    (load platform parse uuid config_path content c).2.config_path = config_path ∧
      (load platform parse uuid config_path content c).2.device_id =
        (if (root.stringOr (bytes "agent") (bytes "device_id") []).isEmpty then uuid
          else root.stringOr (bytes "agent") (bytes "device_id") []) ∧
      (load platform parse uuid config_path content c).2.token_encrypted =
        root.stringOr (bytes "agent") (bytes "token") [] ∧
      (load platform parse uuid config_path content c).2.mqtt = loadMqtt root := by
  unfold load
  rw [parsed]
  dsimp only
  split
  · exact ⟨rfl, rfl, rfl, rfl⟩
  · split <;> exact ⟨rfl, rfl, rfl, rfl⟩

theorem setToken_fields {aes : Aes} {key : Bytes} {iv : Option Iv} {token : Bytes}
    {c changed : Manager} (stored : setToken aes key iv token c = some changed) :
    encryptToken aes key iv token = some changed.token_encrypted ∧
      changed.device_id = c.device_id := by
  obtain ⟨encrypted, crypt, rfl⟩ := Option.map_eq_some_iff.mp stored
  exact ⟨crypt, rfl⟩

/-- A save that wrote everything leaves the rewritten text. -/
theorem save_whole {content text : Bytes} {opens : Bool} {written : Nat} {c : Manager}
    (saved : save (some content) opens written c = (true, some text))
    (whole : (savedText c content).length ≤ written) : text = savedText c content := by
  unfold save at saved
  dsimp only at saved
  split at saved
  · rw [List.take_of_length_le whole] at saved
    exact (Option.some.inj (Prod.mk.inj saved).2).symm
  · cases saved

end OrbisAgent.Config.ConfigManager
