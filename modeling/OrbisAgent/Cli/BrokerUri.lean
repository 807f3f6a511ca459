/- OrbisAgent/Cli/BrokerUri
   source: src/main.cpp, main (--install configuration, broker URI)
   digest: The installer stores the whole URL as the host, so the URI of the next run repeats the
   scheme and is never the URL. -/

import OrbisAgent.Cli.Main
import OrbisAgent.Config.ConfigManager
import OrbisAgent.Lib.TomlText

set_option autoImplicit false
set_option relaxedAutoImplicit false

namespace OrbisAgent.Cli.BrokerUri

open OrbisAgent.Cli.Main
open OrbisAgent.Config.ConfigManager
open OrbisAgent.Constants
open OrbisAgent.Lib.ByteString
open OrbisAgent.Lib.Toml
open OrbisAgent.Lib.TomlText

/-- The broker URI of a normal run. -/
def broker_uri (mqtt_cfg : MQTTConfig) : Bytes :=
  (if mqtt_cfg.use_tls then bytes "ssl://" else bytes "tcp://") ++
    mqtt_cfg.broker_host ++ bytes ":" ++ bytes (toString mqtt_cfg.broker_port)

/-- A URL of the documented form. -/
def sslUrl (host port : Bytes) : Bytes := bytes "ssl://" ++ host ++ bytes ":" ++ port

/-- The installed configuration up to the host. -/
def configHead (platform : Platform) : Bytes :=
  bytes "[agent]\ndevice_id = \"\"\ntoken = \"\"\n" ++
  bytes "log_file = \"" ++ bytes (DEFAULT_LOG_PATH platform) ++ bytes "\"\n\n" ++
  bytes "[mqtt]\nbroker_host = \""

/-- The installed configuration after the host. -/
def configRest (secret : Bytes) : Bytes :=
  bytes "\"\n" ++
  bytes "broker_port = 8883\nuse_tls = true\n" ++
  bytes "register_secret = \"" ++
    (if secret.isEmpty then bytes "orbis_register_secret" else secret) ++ bytes "\"\n" ++
  bytes "reconnect_delay_min_sec = 1\nreconnect_delay_max_sec = 60\n" ++
  bytes "keepalive_sec = 60\n\n" ++
  bytes "[heartbeat]\ninterval_sec = 30\n\n" ++
  bytes "[logs]\ninterval_sec = 60\n"

/-- After the opening quote of `broker_host` the parser reads a string, and plain text
at its start as itself. -/
def ReadsBrokerHost (platform : Platform) (parse : Bytes → Option Value) : Prop :=
  ∀ front rest root, Plain front → parse (configHead platform ++ (front ++ rest)) = some root →
    ∃ value, root.find [.key (bytes "mqtt"), .key (bytes "broker_host")] = some (.string value) ∧
      front <+: value

/-- The installed configuration is accepted, and a run on it has the given URL and secret. -/
def RoundTrips (platform : Platform) (parse : Bytes → Option Value) (uuid config_path : Bytes)
    (c : Manager) (url secret : Bytes) : Prop :=
  let loaded := load platform parse uuid config_path (some (installConfig platform url secret)) c
  loaded.1 = .returned true ∧ broker_uri loaded.2.mqtt = url ∧
    loaded.2.mqtt.register_secret = secret

theorem installConfig_eq (platform : Platform) (url secret : Bytes) :
    installConfig platform url secret =
      configHead platform ++ (url ++ configRest secret) := by
  unfold installConfig configHead configRest
  simp only [List.append_assoc]

/-- The scheme, many times. -/
def schemes (n : Nat) : Bytes := (List.replicate n (bytes "ssl://")).flatten

theorem schemes_succ (n : Nat) : schemes (n + 1) = bytes "ssl://" ++ schemes n := by
  unfold schemes
  rw [List.replicate_succ, List.flatten_cons]

theorem length_schemes (n : Nat) : (schemes n).length = 6 * n := by
  induction n with
  | zero => rfl
  | succ n ih =>
      have scheme : (bytes "ssl://").length = 6 := by decide
      rw [schemes_succ, List.length_append, ih, scheme]
      omega

theorem plain_schemes (n : Nat) : Plain (schemes n) := by
  intro b mem
  obtain ⟨scheme, repeated, inside⟩ := List.mem_flatten.mp mem
  obtain rfl := List.eq_of_mem_replicate repeated
  have all : Plain (bytes "ssl://") := by decide
  exact all b inside

theorem broker_uri_front {mqtt_cfg : MQTTConfig} {host port : Bytes}
    (same : broker_uri mqtt_cfg = sslUrl host port) :
    bytes "ssl://" ++ mqtt_cfg.broker_host <+: sslUrl host port := by
  rw [← same]
  unfold broker_uri at same ⊢
  split
  · exact ⟨bytes ":" ++ bytes (toString mqtt_cfg.broker_port), by simp only [List.append_assoc]⟩
  · rename_i noTls
    rw [if_neg noTls] at same
    have first := congrArg List.head? same
    cases first

/-- No URL of the documented form survives the installation. -/
theorem installed_url_never_round_trips (platform : Platform) (parse : Bytes → Option Value)
    (reads : ReadsBrokerHost platform parse) (uuid config_path : Bytes) (c : Manager)
    (host port secret : Bytes) :
    ¬ RoundTrips platform parse uuid config_path c (sslUrl host port) secret := by
  rintro ⟨accepted, same, _⟩
  obtain ⟨root, parsed, _⟩ := load_true.mp accepted
  obtain ⟨_, _, _, mqtt⟩ := load_fields platform uuid config_path c parsed
  rw [mqtt] at same
  rw [Option.bind_some, installConfig_eq] at parsed
  have again : ∀ n, schemes n <+: sslUrl host port := by
    intro n
    induction n with
    | zero => exact List.nil_prefix
    | succ n ih =>
        obtain ⟨after, split⟩ := ih
        rw [← split, List.append_assoc] at parsed
        obtain ⟨value, found, front⟩ := reads _ _ root (plain_schemes n) parsed
        have host' : (loadMqtt root).broker_host = value :=
          Value.stringOr_of_find found (bytes "localhost")
        have starts := broker_uri_front same
        rw [host'] at starts
        rw [schemes_succ]
        exact ((List.prefix_append_right_inj _).mpr front).trans starts
  have long := (again ((sslUrl host port).length + 1)).length_le
  rw [length_schemes] at long
  omega

def givenUrl : Bytes := sslUrl (bytes "host") (bytes "8883")

def installedText : Bytes := installConfig .linux givenUrl (bytes "s3cret")

/-- The document of the installed text. -/
def installedRoot : Value :=
  .table
    [(bytes "agent", .table [(bytes "device_id", .string []), (bytes "token", .string []),
        (bytes "log_file", .string (bytes "/var/log/orbis-agent.log"))]),
      (bytes "mqtt", .table [(bytes "broker_host", .string givenUrl),
        (bytes "broker_port", .integer 8883), (bytes "use_tls", .boolean true),
        (bytes "register_secret", .string (bytes "s3cret")),
        (bytes "reconnect_delay_min_sec", .integer 1),
        (bytes "reconnect_delay_max_sec", .integer 60), (bytes "keepalive_sec", .integer 60)]),
      (bytes "heartbeat", .table [(bytes "interval_sec", .integer 30)]),
      (bytes "logs", .table [(bytes "interval_sec", .integer 60)])]

/-- A parser that knows the installed text. -/
def parseInstalled (text : Bytes) : Option Value :=
  if text = installedText then some installedRoot else none

/-- Text without a quote before a quote. -/
theorem prefix_of_quote_notMem {front rest url after : Bytes} {quote : UInt8}
    (without : quote ∉ front) (same : front ++ rest = url ++ quote :: after) : front <+: url := by
  rcases List.append_eq_append_iff.mp same with ⟨more, longer, _⟩ | ⟨more, longer, tail⟩
  · exact ⟨more, longer.symm⟩
  · cases more with
    | nil =>
        rw [List.append_nil] at longer
        exact ⟨[], by rw [longer, List.append_nil]⟩
    | cons b more =>
        obtain ⟨rfl, _⟩ := List.cons.inj tail
        refine absurd ?_ without
        rw [longer]
        exact List.mem_append_right _ List.mem_cons_self

theorem parseInstalled_reads : ReadsBrokerHost .linux parseInstalled := by
  intro front rest root plain parsed
  unfold parseInstalled at parsed
  split at parsed
  · rename_i same
    obtain rfl := Option.some.inj parsed
    refine ⟨givenUrl, rfl, ?_⟩
    rw [installedText, installConfig_eq] at same
    have quoted : configRest (bytes "s3cret") = 34 :: (configRest (bytes "s3cret")).tail := by
      decide +kernel
    rw [quoted] at same
    refine prefix_of_quote_notMem ?_ (List.append_cancel_left same)
    exact fun mem => (plain _ mem).2.2.1 rfl
  · cases parsed

theorem installed_url_does_not_round_trip :
    ReadsBrokerHost .linux parseInstalled ∧
      ¬ RoundTrips .linux parseInstalled [] [] .initial givenUrl (bytes "s3cret") :=
  ⟨parseInstalled_reads, installed_url_never_round_trips .linux parseInstalled
    parseInstalled_reads [] [] .initial (bytes "host") (bytes "8883") (bytes "s3cret")⟩

theorem installed_url_gets_a_second_scheme :
    (load .linux parseInstalled [] [] (some installedText) .initial).1 = .returned true ∧
      broker_uri (load .linux parseInstalled [] [] (some installedText) .initial).2.mqtt =
        bytes "ssl://ssl://host:8883:8883" ∧
      ¬ RoundTrips .linux parseInstalled [] [] .initial givenUrl (bytes "s3cret") := by
  refine ⟨by decide +kernel, by decide +kernel, ?_⟩
  rintro ⟨_, same, _⟩
  exact absurd same (by decide +kernel)

end OrbisAgent.Cli.BrokerUri
