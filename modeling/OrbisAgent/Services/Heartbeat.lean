/- OrbisAgent/Services/Heartbeat
   source: src/services/HeartbeatService.hpp, src/services/HeartbeatService.cpp
   digest: The status messages of the heartbeat, and its thread with the thread that starts and
   stops it, step by step. -/

import OrbisAgent.Constants
import OrbisAgent.Lib.MachineNumbers
import OrbisAgent.Lib.Transition
import Mathlib.Tactic.ByContra

set_option autoImplicit false
set_option relaxedAutoImplicit false

namespace OrbisAgent.Services.Heartbeat

open OrbisAgent.Constants
open OrbisAgent.Lib.Json
open OrbisAgent.Lib.MachineNumbers
open OrbisAgent.Lib.Transition

inductive Status
  | online
  | offline
  deriving DecidableEq

def Status.text : Status → String
  | .online => "online"
  | .offline => "offline"

inductive NetworkType
  | wifi
  | ethernet
  | none
  deriving DecidableEq

def NetworkType.text : NetworkType → String
  | .wifi => "WIFI"
  | .ethernet => "ETHERNET"
  | .none => "NONE"

def getPlatform : Platform → String
  | .linux => "linux"
  | .macos => "macos"
  | .windows => "windows"

/-- What the clock and the system answer while one message is built. A negative battery level
is that of a system without a battery. -/
structure Readings (δ : Type) where
  timestamp : String
  uptime_sec : Int
  hostname : ByteArray
  os_version : ByteArray
  architecture : ByteArray
  cpu_percent : δ
  ram_percent : δ
  disk_percent : δ
  network_type : NetworkType
  battery_level : Int
  battery_charging : Bool

section Payload

variable {δ : Type} (d : Doubles δ) (codec : Codec) (platform : Platform) (device_id : ByteArray)

def batteryFields (r : Readings δ) : List (String × Json) :=
  if 0 ≤ r.battery_level then
    [("battery_charging", .bool r.battery_charging), ("battery_level", .int r.battery_level)]
  else []

/-- Only a message that says online has the measurements. -/
def statusJson (status : Status) (r : Readings δ) : Json :=
  match status with
  | .online =>
      .obj (("architecture", .str r.architecture) :: batteryFields r ++
        [("cpu_percent", d.toJson r.cpu_percent), ("device_id", .str device_id),
          ("disk_percent", d.toJson r.disk_percent), ("hostname", .str r.hostname),
          ("network_type", .text r.network_type.text), ("os_version", .str r.os_version),
          ("plateforme", .text (getPlatform platform)), ("ram_percent", d.toJson r.ram_percent),
          ("status", .text status.text), ("timestamp", .text r.timestamp),
          ("uptime_sec", .int r.uptime_sec), ("version", .text AGENT_VERSION)])
  | .offline =>
      .obj [("architecture", .str r.architecture), ("device_id", .str device_id),
        ("hostname", .str r.hostname), ("os_version", .str r.os_version),
        ("plateforme", .text (getPlatform platform)), ("status", .text status.text),
        ("timestamp", .text r.timestamp), ("uptime_sec", .int r.uptime_sec),
        ("version", .text AGENT_VERSION)]

def buildPayload (status : Status) (r : Readings δ) : Except Exn String :=
  codec.dump (statusJson d platform device_id status r)

/-- The texts of the system and of the configuration are valid UTF-8. -/
def Readable (r : Readings δ) : Prop :=
  r.architecture.validateUTF8 = true ∧ device_id.validateUTF8 = true ∧
    r.hostname.validateUTF8 = true ∧ r.os_version.validateUTF8 = true

variable {d codec platform device_id}

theorem wellEncoded_statusJson (status : Status) (r : Readings δ) :
    (statusJson d platform device_id status r).wellEncoded = true ↔ Readable device_id r := by
  unfold Readable
  cases status with
  | offline => simp [statusJson]
  | online => by_cases battery : 0 ≤ r.battery_level <;> simp [statusJson, batteryFields, battery]

/-- An online and an offline message of the same readings are both built or both fail, and they
fail exactly on a text that is not UTF-8. -/
theorem buildPayload_ok_iff (status : Status) (r : Readings δ) :
    (∃ payload, buildPayload d codec platform device_id status r = .ok payload) ↔
      Readable device_id r := by
  unfold buildPayload Codec.dump
  constructor
  · rintro ⟨payload, built⟩
    by_contra broken
    rw [if_neg (broken ∘ (wellEncoded_statusJson status r).mp)] at built
    cases built
  · intro readable
    exact ⟨_, if_pos ((wellEncoded_statusJson status r).mpr readable)⟩

end Payload

/-- What came of an attempt to publish: an exception left `buildPayload`, `publish_fn` returned
false, or it took the message. -/
inductive Beat
  | threw
  | refused
  | accepted
  deriving DecidableEq

/-- Where the heartbeat thread is; `absent` when there is none to join. -/
inductive Pc
  | absent
  | testing
  | beating
  | testInterval (i : Nat)
  | testStop (i : Nat)
  | sleeping (i : Nat)
  | lastBeat
  | finished
  deriving DecidableEq

/-- Where the thread that calls `start()` and `stop()` is. -/
inductive Owner
  | idle
  | clearingStop
  | settingRunning
  | spawning
  | settingStop
  | joining
  | clearingRunning
  deriving DecidableEq

/-- `attempts` is a record: what each thread so far has tried to publish. -/
structure HeartbeatService where
  pc : Pc
  owner : Owner
  running : Bool
  stop_requested : Bool
  terminated : Bool
  attempts : List (List (Status × Beat))

def HeartbeatService.new : HeartbeatService := ⟨.absent, .idle, false, false, false, []⟩

inductive Act
  | callStart
  | clearStop
  | setRunning
  | spawn
  | callStop
  | setStop
  | join
  | clearRunning
  | test
  /-- An attempt has come back, with the log records about it. -/
  | beat (b : Beat)
  | testInterval
  | testStop
  | tick
  deriving DecidableEq

/-- One more attempt of the thread that was started last. -/
def record (attempts : List (List (Status × Beat))) (entry : Status × Beat) :
    List (List (Status × Beat)) :=
  attempts.dropLast ++ [attempts.getLast?.getD [] ++ [entry]]

/-- With the given number of seconds between two messages. -/
def move (interval_sec : Int) (s : HeartbeatService) : Act → Option HeartbeatService
  | .callStart =>
      if s.owner = .idle then
        if s.running then some s else some { s with owner := .clearingStop }
      else none
  | .clearStop =>
      if s.owner = .clearingStop then
        some { s with stop_requested := false, owner := .settingRunning }
      else none
  | .setRunning =>
      if s.owner = .settingRunning then some { s with running := true, owner := .spawning }
      else none
  | .spawn =>
      if s.owner = .spawning then
        -- assigning to a joinable std::thread ends the process
        if s.pc = .absent then
          some { s with pc := .testing, owner := .idle, attempts := s.attempts ++ [[]] }
        else some { s with terminated := true }
      else none
  | .callStop => if s.owner = .idle then some { s with owner := .settingStop } else none
  | .setStop =>
      if s.owner = .settingStop then some { s with stop_requested := true, owner := .joining }
      else none
  | .join =>
      if s.owner = .joining ∧ (s.pc = .absent ∨ s.pc = .finished) then
        some { s with pc := .absent, owner := .clearingRunning }
      else none
  | .clearRunning =>
      if s.owner = .clearingRunning then some { s with running := false, owner := .idle }
      else none
  | .test =>
      if s.pc = .testing then
        some { s with pc := if s.stop_requested then .lastBeat else .beating }
      else none
  | .beat b =>
      match s.pc with
      | .beating => some { s with
          pc := .testInterval 0, attempts := record s.attempts (.online, b) }
      | .lastBeat => some { s with
          pc := .finished, attempts := record s.attempts (.offline, b) }
      | _ => none
  | .testInterval =>
      match s.pc with
      | .testInterval i => some { s with pc := if i < interval_sec then .testStop i else .testing }
      | _ => none
  | .testStop =>
      match s.pc with
      | .testStop i => some { s with pc := if s.stop_requested then .testing else .sleeping i }
      | _ => none
  | .tick =>
      match s.pc with
      | .sleeping i => some { s with pc := .testInterval (i + 1) }
      | _ => none

def step (interval_sec : Int) (s : HeartbeatService) (a : Act) : Option HeartbeatService :=
  if s.terminated then none else move interval_sec s a

/-- The thread is in a call that need not come back: an attempt, or the log record at its start. The
sink that `main` attaches publishes every record, and a publish without a link writes a record of
its own, which waits for the lock that the sink holds. -/
def HeartbeatService.inCall (s : HeartbeatService) : Bool :=
  match s.pc with
  | .beating | .lastBeat => true
  | .testing => decide (s.attempts.getLast? = some [])
  | _ => false

/-- The steps, one constructor for each outcome, with what each needs. -/
inductive Moves (interval_sec : Int) (s : HeartbeatService) : Act → HeartbeatService → Prop
  | callStart (here : s.owner = .idle) (fresh : s.running = false) :
      Moves interval_sec s .callStart { s with owner := .clearingStop }
  | startAgain (here : s.owner = .idle) (already : s.running = true) :
      Moves interval_sec s .callStart s
  | clearStop (here : s.owner = .clearingStop) : Moves interval_sec s .clearStop
      { s with stop_requested := false, owner := .settingRunning }
  | setRunning (here : s.owner = .settingRunning) :
      Moves interval_sec s .setRunning { s with running := true, owner := .spawning }
  | spawn (here : s.owner = .spawning) (fresh : s.pc = .absent) : Moves interval_sec s .spawn
      { s with pc := .testing, owner := .idle, attempts := s.attempts ++ [[]] }
  | spawnTwice (here : s.owner = .spawning) (busy : s.pc ≠ .absent) :
      Moves interval_sec s .spawn { s with terminated := true }
  | callStop (here : s.owner = .idle) :
      Moves interval_sec s .callStop { s with owner := .settingStop }
  | setStop (here : s.owner = .settingStop) : Moves interval_sec s .setStop
      { s with stop_requested := true, owner := .joining }
  | join (here : s.owner = .joining) (ended : s.pc = .absent ∨ s.pc = .finished) :
      Moves interval_sec s .join { s with pc := .absent, owner := .clearingRunning }
  | clearRunning (here : s.owner = .clearingRunning) :
      Moves interval_sec s .clearRunning { s with running := false, owner := .idle }
  | test (here : s.pc = .testing) : Moves interval_sec s .test
      { s with pc := if s.stop_requested then .lastBeat else .beating }
  | beat (b : Beat) (here : s.pc = .beating) : Moves interval_sec s (.beat b)
      { s with pc := .testInterval 0, attempts := record s.attempts (.online, b) }
  | lastBeat (b : Beat) (here : s.pc = .lastBeat) : Moves interval_sec s (.beat b)
      { s with pc := .finished, attempts := record s.attempts (.offline, b) }
  | testInterval (i : Nat) (here : s.pc = .testInterval i) : Moves interval_sec s .testInterval
      { s with pc := if i < interval_sec then .testStop i else .testing }
  | testStop (i : Nat) (here : s.pc = .testStop i) : Moves interval_sec s .testStop
      { s with pc := if s.stop_requested then .testing else .sleeping i }
  | tick (i : Nat) (here : s.pc = .sleeping i) :
      Moves interval_sec s .tick { s with pc := .testInterval (i + 1) }

private theorem moves_of_move {interval_sec : Int} {s s' : HeartbeatService} {a : Act}
    (next : move interval_sec s a = some s') : Moves interval_sec s a s' := by
  cases a <;> simp only [move] at next
  case callStart =>
    split at next
    · split at next <;> cases next
      · exact .startAgain ‹_› ‹_›
      · exact .callStart ‹_› (Bool.eq_false_iff.mpr ‹_›)
    · cases next
  case clearStop =>
    split at next <;> cases next
    exact .clearStop ‹_›
  case setRunning =>
    split at next <;> cases next
    exact .setRunning ‹_›
  case spawn =>
    split at next
    · split at next <;> cases next
      · exact .spawn ‹_› ‹_›
      · exact .spawnTwice ‹_› ‹_›
    · cases next
  case callStop =>
    split at next <;> cases next
    exact .callStop ‹_›
  case setStop =>
    split at next <;> cases next
    exact .setStop ‹_›
  case join =>
    split at next <;> cases next
    rename_i ready
    exact .join ready.1 ready.2
  case clearRunning =>
    split at next <;> cases next
    exact .clearRunning ‹_›
  case test =>
    split at next <;> cases next
    exact .test ‹_›
  case beat b =>
    split at next <;> cases next
    · exact .beat b ‹_›
    · exact .lastBeat b ‹_›
  case testInterval =>
    split at next <;> cases next
    exact .testInterval _ ‹_›
  case testStop =>
    split at next <;> cases next
    exact .testStop _ ‹_›
  case tick =>
    split at next <;> cases next
    exact .tick _ ‹_›

theorem moves_of_step {interval_sec : Int} {s s' : HeartbeatService} {a : Act}
    (next : step interval_sec s a = some s') :
    s.terminated = false ∧ Moves interval_sec s a s' := by
  unfold step at next
  split at next
  · cases next
  · exact ⟨Bool.eq_false_iff.mpr ‹_›, moves_of_move next⟩

end OrbisAgent.Services.Heartbeat
