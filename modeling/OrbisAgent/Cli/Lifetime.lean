/- OrbisAgent/Cli/Lifetime
   source: src/main.cpp: main, from "Start all services" to its end
   digest: main's thread over the four services, from their start through the watchdog to the
   graceful shutdown, with the threads of the services, the callbacks and the signal handler. -/

import OrbisAgent.Services.LoopService
import OrbisAgent.Services.Supervised

set_option autoImplicit false
set_option relaxedAutoImplicit false

namespace OrbisAgent.Cli.Lifetime

open OrbisAgent.Lib.Supervision
open OrbisAgent.Lib.Transition
open OrbisAgent.Services
open OrbisAgent.Services.CommandQueue (Executor)
open OrbisAgent.Services.Heartbeat (HeartbeatService)
open OrbisAgent.Services.LoopService (Looped)

universe u

inductive ServiceName
  | heartbeat
  | log_collector
  | cmd_executor
  | net_scanner
  deriving DecidableEq

/-- The calls of `start()` before the watchdog, those of the watchdog, and those of `stop()`. -/
inductive Purpose
  | start
  | restart
  | stop
  deriving DecidableEq

structure Call where
  service : ServiceName
  purpose : Purpose
  deriving DecidableEq

/-- Where main's thread is: before a call, in it, or between two. -/
inductive Stage
  | calling (c : Call)
  | inside (c : Call)
  | waiting
  | checking (x : ServiceName)
  | unloading
  | flushing
  | disconnecting
  | returned
  deriving DecidableEq

/-- What main has read from the configuration. -/
structure Settings where
  device_id : String
  heartbeat_interval_sec : Int
  log_interval_sec : Int
  scan_interval_sec : Int
  scanner_enabled : Bool
  plugins_enabled : Bool

/-- `loaded`: the plugins' libraries are mapped. `net_scanner` is used only where it is on. -/
structure Agent (ι : Type u) where
  heartbeat : HeartbeatService
  log_collector : Looped
  cmd_executor : Executor ι
  net_scanner : Looped
  stage : Stage
  g_shutdown : Bool
  loaded : Bool

inductive Act (ι : Type u)
  | heartbeat (a : Heartbeat.Act)
  | log_collector (a : LoopService.Act)
  | cmd_executor (a : CommandQueue.Act ι)
  | net_scanner (a : LoopService.Act)
  /-- The signal handler, or the service control of the system. -/
  | signal
  | endWait
  | check
  | returns
  /-- Back from this call and the next two; the last one takes main to its end. -/
  | unloadAll
  | flush (connected : Bool)
  | disconnect

variable {ι : Type u}

def Agent.start (settings : Settings) : Agent ι where
  heartbeat := .new
  log_collector := .new
  cmd_executor := .start
  net_scanner := .new
  stage := .calling ⟨.heartbeat, .start⟩
  g_shutdown := false
  loaded := settings.plugins_enabled

def Agent.idle (s : Agent ι) : ServiceName → Bool
  | .heartbeat => s.heartbeat.owner = .idle
  | .log_collector => s.log_collector.owner = .idle
  | .cmd_executor => s.cmd_executor.owner = .idle
  | .net_scanner => s.net_scanner.owner = .idle

/-- `isRunning()`. -/
def Agent.isRunning (s : Agent ι) : ServiceName → Bool
  | .heartbeat => s.heartbeat.running
  | .log_collector => s.log_collector.running
  | .cmd_executor => s.cmd_executor.running
  | .net_scanner => s.net_scanner.running

def Agent.terminated (s : Agent ι) : Bool :=
  s.heartbeat.terminated || s.log_collector.terminated || s.cmd_executor.terminated ||
    s.net_scanner.terminated

/-- Which steps of a service main's thread allows or makes, and where they take it. -/
def Stage.admits (stage : Stage) (x : ServiceName) (role : Role) : Option Stage :=
  match role, stage with
  | .own, _ | .other, _ => some stage
  | .opens, .calling c =>
      if c.service = x ∧ c.purpose ≠ .stop then some (.inside c) else none
  | .closes, .calling c =>
      if c.service = x ∧ c.purpose = .stop then some (.inside c) else none
  | .inner, .inside c => if c.service = x then some stage else none
  | _, _ => none

/-- The watchdog has seen to this service. -/
def checked (settings : Settings) : ServiceName → Stage
  | .heartbeat => .checking .log_collector
  | .log_collector => if settings.scanner_enabled then .checking .net_scanner else .waiting
  | .net_scanner | .cmd_executor => .waiting

/-- What main does after the call. -/
def after (settings : Settings) : Call → Stage
  | ⟨.heartbeat, .start⟩ => .calling ⟨.log_collector, .start⟩
  | ⟨.log_collector, .start⟩ => .calling ⟨.cmd_executor, .start⟩
  | ⟨.cmd_executor, .start⟩ =>
      if settings.scanner_enabled then .calling ⟨.net_scanner, .start⟩ else .waiting
  | ⟨.net_scanner, .start⟩ => .waiting
  | ⟨x, .restart⟩ => checked settings x
  | ⟨.cmd_executor, .stop⟩ =>
      if settings.scanner_enabled then .calling ⟨.net_scanner, .stop⟩
      else .calling ⟨.log_collector, .stop⟩
  | ⟨.net_scanner, .stop⟩ => .calling ⟨.log_collector, .stop⟩
  | ⟨.log_collector, .stop⟩ => .calling ⟨.heartbeat, .stop⟩
  | ⟨.heartbeat, .stop⟩ => .unloading

section Step

variable [DecidableEq ι] (settings : Settings)

def heartbeatOf : Service HeartbeatService Heartbeat.Act :=
  Supervised.heartbeat settings.heartbeat_interval_sec

def collectorOf : Service Looped LoopService.Act := LoopService.service settings.log_interval_sec

def executorOf : Service (Executor ι) (CommandQueue.Act ι) :=
  Supervised.executor settings.device_id

def scannerOf : Service Looped LoopService.Act := LoopService.service settings.scan_interval_sec

def move (s : Agent ι) : Act ι → Option (Agent ι)
  | .heartbeat a =>
      (s.stage.admits .heartbeat (Supervised.heartbeatRole a)).bind fun stage =>
        (Heartbeat.step settings.heartbeat_interval_sec s.heartbeat a).map fun t =>
          { s with stage := stage, heartbeat := t }
  | .log_collector a =>
      (s.stage.admits .log_collector (LoopService.role a)).bind fun stage =>
        (LoopService.logCollector settings.log_interval_sec s.log_collector a).map fun t =>
          { s with stage := stage, log_collector := t }
  | .cmd_executor a =>
      (s.stage.admits .cmd_executor (Supervised.executorRole a)).bind fun stage =>
        (CommandQueue.step settings.device_id s.cmd_executor a).map fun t =>
          { s with stage := stage, cmd_executor := t }
  | .net_scanner a =>
      if settings.scanner_enabled then
        (s.stage.admits .net_scanner (LoopService.role a)).bind fun stage =>
          (LoopService.networkScanner settings.scan_interval_sec s.net_scanner a).map fun t =>
            { s with stage := stage, net_scanner := t }
      else none
  | .signal => some { s with g_shutdown := true }
  | .endWait =>
      -- the wait ends by time or by the flag, which is then tested
      if s.stage = .waiting then
        some { s with
          stage := if s.g_shutdown then .calling ⟨.cmd_executor, .stop⟩ else .checking .heartbeat }
      else none
  | .check =>
      match s.stage with
      | .checking x => some { s with
          stage := if s.isRunning x then checked settings x else .calling ⟨x, .restart⟩ }
      | _ => none
  | .returns =>
      match s.stage with
      | .inside c => if s.idle c.service then some { s with stage := after settings c } else none
      | _ => none
  | .unloadAll =>
      -- without plugins nothing is loaded
      if s.stage = .unloading then some { s with stage := .flushing, loaded := false } else none
  | .flush _ =>
      -- the buffer is flushed if MQTT is connected
      if s.stage = .flushing then some { s with stage := .disconnecting } else none
  | .disconnect =>
      if s.stage = .disconnecting then some { s with stage := .returned } else none

def step (s : Agent ι) (a : Act ι) : Option (Agent ι) :=
  if s.terminated then none else move settings s a

end Step

/-- Main's thread, or the one it waits for in a `stop()`, is in a call that need not come back: it
unloads the plugins, flushes the buffer or disconnects, or the other thread is at its work, a
message or a log record. The records behind the disconnect are written without a link, for which
the sink that `main` has attached waits on its own lock. -/
def Agent.held (s : Agent ι) : Bool :=
  match s.stage with
  | .inside ⟨.heartbeat, .stop⟩ => decide (s.heartbeat.owner = .joining) && s.heartbeat.inCall
  | .inside ⟨.log_collector, .stop⟩ =>
      LoopService.awaited s.log_collector && s.log_collector.inCall
  | .inside ⟨.net_scanner, .stop⟩ => LoopService.awaited s.net_scanner && s.net_scanner.inCall
  | .unloading | .flushing | .disconnecting => true
  | _ => false

/-- Where the services stand in the order of the starts and in that of the stops. -/
def startRank : ServiceName → Nat
  | .heartbeat => 0
  | .log_collector => 1
  | .cmd_executor => 2
  | .net_scanner => 3

def stopRank : ServiceName → Nat
  | .cmd_executor => 0
  | .net_scanner => 1
  | .log_collector => 2
  | .heartbeat => 3

/-- How far each service has come when main's thread is there. -/
def expected (scanner_enabled : Bool) (stage : Stage) (x : ServiceName) : Progress :=
  if x = .net_scanner ∧ scanner_enabled = false then .down
  else match stage with
    | .calling ⟨y, .start⟩ => if startRank x < startRank y then .up else .down
    | .inside ⟨y, .start⟩ =>
        if x = y then .starting else if startRank x < startRank y then .up else .down
    | .calling ⟨y, .stop⟩ => if stopRank x < stopRank y then .down else .up
    | .inside ⟨y, .stop⟩ =>
        if x = y then .stopping else if stopRank x < stopRank y then .down else .up
    | .unloading | .flushing | .disconnecting | .returned => .down
    | _ => .up

/-- Main never restarts a service, and does not call a scanner that there is not. -/
def proper (scanner_enabled : Bool) : Stage → Bool
  | .calling c | .inside c =>
      decide (c.purpose ≠ .restart) && (scanner_enabled || decide (c.service ≠ .net_scanner))
  | .checking x => decide (x ≠ .cmd_executor) && (scanner_enabled || decide (x ≠ .net_scanner))
  | _ => true

variable [DecidableEq ι] {settings : Settings}

/-- The service has come as far as said. -/
def Agent.At (s : Agent ι) (settings : Settings) : ServiceName → Progress → Prop
  | .heartbeat, p => (heartbeatOf settings).At s.heartbeat p
  | .log_collector, p => (collectorOf settings).At s.log_collector p
  | .cmd_executor, p => (executorOf settings).At s.cmd_executor p
  | .net_scanner, p => (scannerOf settings).At s.net_scanner p

structure Invariant (settings : Settings) (s : Agent ι) : Prop where
  heartbeat : Supervised.HeartbeatSound s.heartbeat
  log_collector : LoopService.Sound s.log_collector
  cmd_executor : Supervised.ExecutorSound s.cmd_executor
  net_scanner : LoopService.Sound s.net_scanner
  proper : proper settings.scanner_enabled s.stage = true
  placed : ∀ x, s.At settings x (expected settings.scanner_enabled s.stage x)

theorem invariant_start : Invariant settings (.start settings : Agent ι) := by
  refine ⟨Supervised.heartbeatSound_new, LoopService.sound_new, Supervised.executorSound_start,
    LoopService.sound_new, by simp [Agent.start, proper], ?_⟩
  intro x
  have down : expected settings.scanner_enabled (Agent.start settings : Agent ι).stage x =
      .down := by
    cases x <;> simp [expected, Agent.start, startRank]
  rw [down]
  cases x <;> exact ⟨rfl, rfl⟩

/-- The steps, one constructor for each outcome, with what each needs. -/
inductive Moves (settings : Settings) (s : Agent ι) : Act ι → Agent ι → Prop
  | heartbeat (a : Heartbeat.Act) (stage : Stage) (t : HeartbeatService)
      (admitted : s.stage.admits .heartbeat ((heartbeatOf settings).role a) = some stage)
      (next : (heartbeatOf settings).step s.heartbeat a = some t) :
      Moves settings s (.heartbeat a) { s with stage := stage, heartbeat := t }
  | log_collector (a : LoopService.Act) (stage : Stage) (t : Looped)
      (admitted : s.stage.admits .log_collector ((collectorOf settings).role a) = some stage)
      (next : (collectorOf settings).step s.log_collector a = some t) :
      Moves settings s (.log_collector a) { s with stage := stage, log_collector := t }
  | cmd_executor (a : CommandQueue.Act ι) (stage : Stage) (t : Executor ι)
      (admitted : s.stage.admits .cmd_executor ((executorOf settings).role a) = some stage)
      (next : (executorOf settings).step s.cmd_executor a = some t) :
      Moves settings s (.cmd_executor a) { s with stage := stage, cmd_executor := t }
  | net_scanner (a : LoopService.Act) (stage : Stage) (t : Looped)
      (there : settings.scanner_enabled = true)
      (admitted : s.stage.admits .net_scanner ((scannerOf settings).role a) = some stage)
      (next : (scannerOf settings).step s.net_scanner a = some t) :
      Moves settings s (.net_scanner a) { s with stage := stage, net_scanner := t }
  | signal : Moves settings s .signal { s with g_shutdown := true }
  | endWait (here : s.stage = .waiting) : Moves settings s .endWait { s with
      stage := if s.g_shutdown then .calling ⟨.cmd_executor, .stop⟩ else .checking .heartbeat }
  | check (x : ServiceName) (here : s.stage = .checking x) : Moves settings s .check { s with
      stage := if s.isRunning x then checked settings x else .calling ⟨x, .restart⟩ }
  | returns (c : Call) (here : s.stage = .inside c) (idle : s.idle c.service = true) :
      Moves settings s .returns { s with stage := after settings c }
  | unloadAll (here : s.stage = .unloading) :
      Moves settings s .unloadAll { s with stage := .flushing, loaded := false }
  | flush (connected : Bool) (here : s.stage = .flushing) :
      Moves settings s (.flush connected) { s with stage := .disconnecting }
  | disconnect (here : s.stage = .disconnecting) :
      Moves settings s .disconnect { s with stage := .returned }

theorem moves_of_step {s s' : Agent ι} {a : Act ι} (next : step settings s a = some s') :
    s.terminated = false ∧ Moves settings s a s' := by
  unfold step at next
  split at next
  · cases next
  rename_i alive
  refine ⟨Bool.eq_false_iff.mpr alive, ?_⟩
  cases a <;> simp only [move] at next
  case heartbeat a =>
    obtain ⟨stage, admitted, rest⟩ := Option.bind_eq_some_iff.mp next
    obtain ⟨t, taken, rfl⟩ := Option.map_eq_some_iff.mp rest
    exact .heartbeat a stage t admitted taken
  case log_collector a =>
    obtain ⟨stage, admitted, rest⟩ := Option.bind_eq_some_iff.mp next
    obtain ⟨t, taken, rfl⟩ := Option.map_eq_some_iff.mp rest
    exact .log_collector a stage t admitted taken
  case cmd_executor a =>
    obtain ⟨stage, admitted, rest⟩ := Option.bind_eq_some_iff.mp next
    obtain ⟨t, taken, rfl⟩ := Option.map_eq_some_iff.mp rest
    exact .cmd_executor a stage t admitted taken
  case net_scanner a =>
    split at next
    · obtain ⟨stage, admitted, rest⟩ := Option.bind_eq_some_iff.mp next
      obtain ⟨t, taken, rfl⟩ := Option.map_eq_some_iff.mp rest
      exact .net_scanner a stage t ‹_› admitted taken
    · cases next
  case signal =>
    obtain rfl := Option.some.inj next
    exact .signal
  case endWait =>
    split at next <;> cases next
    exact .endWait ‹_›
  case check =>
    split at next <;> cases next
    exact .check _ ‹_›
  case returns =>
    split at next
    · split at next <;> cases next
      exact .returns _ ‹_› ‹_›
    · cases next
  case unloadAll =>
    split at next <;> cases next
    exact .unloadAll ‹_›
  case flush connected =>
    split at next <;> cases next
    exact .flush connected ‹_›
  case disconnect =>
    split at next <;> cases next
    exact .disconnect ‹_›

section Expected

variable {enabled : Bool} {x y : ServiceName} {p : Purpose}

theorem expected_calling_start (on : x = .net_scanner → enabled = true) :
    expected enabled (.calling ⟨x, .start⟩) x = .down := by
  by_cases scanner : x = .net_scanner <;> simp_all [expected]

theorem expected_inside_start (on : x = .net_scanner → enabled = true) :
    expected enabled (.inside ⟨x, .start⟩) x = .starting := by
  by_cases scanner : x = .net_scanner <;> simp_all [expected]

theorem expected_inside_stop (on : x = .net_scanner → enabled = true) :
    expected enabled (.inside ⟨x, .stop⟩) x = .stopping := by
  by_cases scanner : x = .net_scanner <;> simp_all [expected]

theorem expected_inside_other (other : y ≠ x) :
    expected enabled (.inside ⟨x, p⟩) y = expected enabled (.calling ⟨x, p⟩) y := by
  cases p <;> simp only [expected, if_neg other]

end Expected

/-- What an admitted step makes of the stage: nothing when its thread is not main's, else main's
thread goes into a call, or on in it. -/
inductive Admission (x : ServiceName) : Stage → Role → Stage → Prop
  | aside {stage : Stage} {role : Role} (free : role = .own ∨ role = .other) :
      Admission x stage role stage
  | opens {p : Purpose} (purpose : p ≠ .stop) :
      Admission x (.calling ⟨x, p⟩) .opens (.inside ⟨x, p⟩)
  | closes : Admission x (.calling ⟨x, .stop⟩) .closes (.inside ⟨x, .stop⟩)
  | inner {p : Purpose} : Admission x (.inside ⟨x, p⟩) .inner (.inside ⟨x, p⟩)

theorem admission_of_admits {stage stage' : Stage} {x : ServiceName} {role : Role}
    (admitted : stage.admits x role = some stage') : Admission x stage role stage' := by
  cases role <;> cases stage <;>
    simp only [Stage.admits, Option.some.injEq, reduceCtorEq] at admitted
  case opens.calling c =>
    obtain ⟨y, p⟩ := c
    split at admitted <;> cases admitted
    rename_i called
    obtain ⟨rfl, purpose⟩ := called
    exact .opens purpose
  case closes.calling c =>
    obtain ⟨y, p⟩ := c
    split at admitted <;> cases admitted
    rename_i called
    obtain ⟨rfl, purpose⟩ := called
    obtain rfl : p = .stop := purpose
    exact .closes
  case inner.inside c =>
    obtain ⟨y, p⟩ := c
    split at admitted <;> cases admitted
    rename_i called
    obtain rfl := called
    exact .inner
  all_goals
    subst admitted
    exact .aside (by decide)

/-- A step that the stage admits brings the service as far as the new stage expects, and leaves
what it expects of the others. -/
theorem admits_placed {σ α : Type*} (v : Service σ α) {enabled : Bool} {stage stage' : Stage}
    {x : ServiceName} {s t : σ} {a : α} (sound : v.Sound s) (on : x = .net_scanner → enabled = true)
    (good : proper enabled stage = true) (here : v.At s (expected enabled stage x))
    (admitted : stage.admits x (v.role a) = some stage') (next : v.step s a = some t) :
    proper enabled stage' = true ∧ v.At t (expected enabled stage' x) ∧
      ∀ y, y ≠ x → expected enabled stage' y = expected enabled stage y := by
  have admission := admission_of_admits admitted
  generalize role : v.role a = r at admission
  cases admission with
  | aside free =>
      rw [← role] at free
      exact ⟨good, v.at_bystander here free next, fun _ _ => rfl⟩
  | @opens p purpose =>
      cases p with
      | stop => exact absurd rfl purpose
      | restart => simp [proper] at good
      | start =>
          refine ⟨good, ?_, fun y other => expected_inside_other other⟩
          rw [expected_calling_start on] at here
          rw [expected_inside_start on]
          exact v.at_opens sound here role next
  | closes =>
      refine ⟨good, ?_, fun y other => expected_inside_other other⟩
      rw [expected_inside_stop on]
      exact v.at_closes role next
  | @inner p =>
      refine ⟨good, ?_, fun _ _ => rfl⟩
      cases p with
      | start =>
          rw [expected_inside_start on] at here ⊢
          exact v.at_inner_start sound here role next
      | stop =>
          rw [expected_inside_stop on] at here ⊢
          exact v.at_inner_stop sound here role next
      | restart => simp [proper] at good

theorem proper_after {c : Call} (good : proper settings.scanner_enabled (.inside c) = true) :
    proper settings.scanner_enabled (after settings c) = true := by
  obtain ⟨x, p⟩ := c
  cases enabled : settings.scanner_enabled <;> cases x <;> cases p <;>
    simp_all [proper, after]

/-- Behind the call its service is up or down, and the next call has not begun. -/
theorem expected_after {c : Call} (good : proper settings.scanner_enabled (.inside c) = true) :
    expected settings.scanner_enabled (after settings c) c.service =
        (if c.purpose = .stop then .down else .up) ∧
      ∀ y, y ≠ c.service → expected settings.scanner_enabled (after settings c) y =
        expected settings.scanner_enabled (.inside c) y := by
  obtain ⟨x, p⟩ := c
  cases enabled : settings.scanner_enabled <;> cases x <;> cases p <;>
    simp_all [proper, after, expected, startRank, stopRank] <;>
    (intro y other; cases y <;> simp_all)

theorem phase_of_idle {s : Agent ι} (x : ServiceName) {p : Progress} (idle : s.idle x = true)
    (here : s.At settings x p) :
    (p = .starting → s.At settings x .up) ∧ (p = .stopping → s.At settings x .down) := by
  cases x with
  | heartbeat =>
      have quiet := Supervised.heartbeatPhase_eq_idle.mpr (of_decide_eq_true idle)
      exact ⟨fun same => Service.at_up _ (same ▸ here) quiet,
        fun same => Service.at_down _ (same ▸ here) quiet⟩
  | log_collector =>
      have quiet := LoopService.phase_eq_idle.mpr (of_decide_eq_true idle)
      exact ⟨fun same => Service.at_up _ (same ▸ here) quiet,
        fun same => Service.at_down _ (same ▸ here) quiet⟩
  | cmd_executor =>
      have quiet := Supervised.executorPhase_eq_idle.mpr (of_decide_eq_true idle)
      exact ⟨fun same => Service.at_up _ (same ▸ here) quiet,
        fun same => Service.at_down _ (same ▸ here) quiet⟩
  | net_scanner =>
      have quiet := LoopService.phase_eq_idle.mpr (of_decide_eq_true idle)
      exact ⟨fun same => Service.at_up _ (same ▸ here) quiet,
        fun same => Service.at_down _ (same ▸ here) quiet⟩

/-- A service that is up says that it runs, and its thread has not ended. -/
theorem running_of_up {s : Agent ι} (before : Invariant settings s) {x : ServiceName}
    (up : s.At settings x .up) : s.isRunning x = true := by
  cases x with
  | heartbeat =>
      have watched := (heartbeatOf settings).watched before.heartbeat up.1
      rw [up.2] at watched
      exact watched
  | log_collector =>
      have watched := (collectorOf settings).watched before.log_collector up.1
      rw [up.2] at watched
      exact watched
  | cmd_executor =>
      have watched := (executorOf settings).watched before.cmd_executor up.1
      rw [up.2] at watched
      exact watched
  | net_scanner =>
      have watched := (scannerOf settings).watched before.net_scanner up.1
      rw [up.2] at watched
      exact watched

/-- A step of main's thread alone. -/
private theorem invariant_main {s s' : Agent ι} (before : Invariant settings s)
    (heartbeat : s'.heartbeat = s.heartbeat) (log_collector : s'.log_collector = s.log_collector)
    (cmd_executor : s'.cmd_executor = s.cmd_executor) (net_scanner : s'.net_scanner = s.net_scanner)
    (good : proper settings.scanner_enabled s'.stage = true)
    (placed : ∀ x, s.At settings x (expected settings.scanner_enabled s'.stage x)) :
    Invariant settings s' := by
  refine ⟨heartbeat ▸ before.heartbeat, log_collector ▸ before.log_collector,
    cmd_executor ▸ before.cmd_executor, net_scanner ▸ before.net_scanner, good, fun x => ?_⟩
  have here := placed x
  cases x with
  | heartbeat =>
      change (heartbeatOf settings).At s'.heartbeat _
      rw [heartbeat]
      exact here
  | log_collector =>
      change (collectorOf settings).At s'.log_collector _
      rw [log_collector]
      exact here
  | cmd_executor =>
      change (executorOf settings).At s'.cmd_executor _
      rw [cmd_executor]
      exact here
  | net_scanner =>
      change (scannerOf settings).At s'.net_scanner _
      rw [net_scanner]
      exact here

theorem invariant_step {s s' : Agent ι} {a : Act ι} (before : Invariant settings s)
    (move : Moves settings s a s') : Invariant settings s' := by
  have ⟨heartbeat, log_collector, cmd_executor, net_scanner, good, placed⟩ := before
  cases move with
  | heartbeat a stage t admitted next =>
      obtain ⟨good', here, others⟩ := admits_placed (x := .heartbeat) (heartbeatOf settings)
        heartbeat nofun good (placed .heartbeat) admitted next
      refine ⟨(heartbeatOf settings).sound_step heartbeat next, log_collector, cmd_executor,
        net_scanner, good', fun x => ?_⟩
      cases x with
      | heartbeat => exact here
      | log_collector => exact others .log_collector nofun ▸ placed .log_collector
      | cmd_executor => exact others .cmd_executor nofun ▸ placed .cmd_executor
      | net_scanner => exact others .net_scanner nofun ▸ placed .net_scanner
  | log_collector a stage t admitted next =>
      obtain ⟨good', here, others⟩ := admits_placed (x := .log_collector) (collectorOf settings)
        log_collector nofun good (placed .log_collector) admitted next
      refine ⟨heartbeat, (collectorOf settings).sound_step log_collector next, cmd_executor,
        net_scanner, good', fun x => ?_⟩
      cases x with
      | heartbeat => exact others .heartbeat nofun ▸ placed .heartbeat
      | log_collector => exact here
      | cmd_executor => exact others .cmd_executor nofun ▸ placed .cmd_executor
      | net_scanner => exact others .net_scanner nofun ▸ placed .net_scanner
  | cmd_executor a stage t admitted next =>
      obtain ⟨good', here, others⟩ := admits_placed (x := .cmd_executor) (executorOf settings)
        cmd_executor nofun good (placed .cmd_executor) admitted next
      refine ⟨heartbeat, log_collector, (executorOf settings).sound_step cmd_executor next,
        net_scanner, good', fun x => ?_⟩
      cases x with
      | heartbeat => exact others .heartbeat nofun ▸ placed .heartbeat
      | log_collector => exact others .log_collector nofun ▸ placed .log_collector
      | cmd_executor => exact here
      | net_scanner => exact others .net_scanner nofun ▸ placed .net_scanner
  | net_scanner a stage t there admitted next =>
      obtain ⟨good', here, others⟩ := admits_placed (scannerOf settings) net_scanner
        (fun _ => there) good (placed .net_scanner) admitted next
      refine ⟨heartbeat, log_collector, cmd_executor,
        (scannerOf settings).sound_step net_scanner next, good', fun x => ?_⟩
      cases x with
      | heartbeat => exact others .heartbeat nofun ▸ placed .heartbeat
      | log_collector => exact others .log_collector nofun ▸ placed .log_collector
      | cmd_executor => exact others .cmd_executor nofun ▸ placed .cmd_executor
      | net_scanner => exact here
  | signal => exact invariant_main before rfl rfl rfl rfl good placed
  | endWait here =>
      rw [here] at placed
      by_cases down : s.g_shutdown = true
      · rw [if_pos down]
        refine invariant_main before rfl rfl rfl rfl ?_ fun x => ?_
        · simp [proper]
        · have same : expected settings.scanner_enabled (.calling ⟨.cmd_executor, .stop⟩) x =
              expected settings.scanner_enabled .waiting x := by
            cases x <;> simp [expected, stopRank]
          exact same ▸ placed x
      · rw [if_neg down]
        exact invariant_main before rfl rfl rfl rfl (by simp [proper]) placed
  | check x here =>
      rw [here] at placed good
      have enabled : x = .net_scanner → settings.scanner_enabled = true := by
        rintro rfl
        simpa [proper] using good
      have up : s.At settings x .up := by
        have at_x := placed x
        have is_up : expected settings.scanner_enabled (.checking x) x = .up := by
          cases x <;> simp_all [expected]
        exact is_up ▸ at_x
      rw [if_pos (running_of_up before up)]
      refine invariant_main before rfl rfl rfl rfl ?_ fun y => ?_
      · cases on : settings.scanner_enabled <;> cases x <;> simp_all [proper, checked]
      · have same : expected settings.scanner_enabled (checked settings x) y =
            expected settings.scanner_enabled (.checking x) y := by
          cases on : settings.scanner_enabled <;> cases x <;> simp [checked, expected, on]
        exact same ▸ placed y
  | returns c here idle =>
      rw [here] at placed good
      obtain ⟨own, others⟩ := expected_after good
      refine invariant_main before rfl rfl rfl rfl (proper_after good) fun x => ?_
      by_cases called : x = c.service
      · subst called
        obtain ⟨x, p⟩ := c
        have enabled : x = .net_scanner → settings.scanner_enabled = true := by
          rintro rfl
          have both : p ≠ .restart ∧ settings.scanner_enabled = true := by
            simpa [proper] using good
          exact both.2
        have settled := phase_of_idle x idle (placed x)
        rw [own]
        cases p with
        | start => exact settled.1 (expected_inside_start enabled)
        | stop => exact settled.2 (expected_inside_stop enabled)
        | restart => simp [proper] at good
      · exact others x called ▸ placed x
  | unloadAll here | flush _ here | disconnect here =>
      rw [here] at placed
      exact invariant_main before rfl rfl rfl rfl (by simp [proper]) placed

/-- Past `unloadAll`. -/
def late : Stage → Bool
  | .flushing | .disconnecting | .returned => true
  | _ => false

/-- In the first call of all. -/
def opening : Stage → Bool
  | .calling c | .inside c => decide (c = ⟨.heartbeat, .start⟩)
  | _ => false

theorem admits_frame {stage stage' : Stage} {x : ServiceName} {role : Role}
    (admitted : stage.admits x role = some stage') :
    late stage' = late stage ∧ opening stage' = opening stage := by
  cases admission_of_admits admitted <;> exact ⟨rfl, rfl⟩

/-- The heartbeat's thread has not been started yet. -/
def unborn (s : Agent ι) : Bool := opening s.stage && decide (s.heartbeat.pc = .absent)

/-- What the run has left so far: the plugins, and the lives of the heartbeat. -/
structure History (settings : Settings) (s : Agent ι) : Prop where
  mapped : late s.stage = false → s.loaded = settings.plugins_enabled
  lives : s.heartbeat.attempts.length = if unborn s then 0 else 1

/-- The call that main's thread goes through is the one that the service is in. -/
theorem inner_stage {σ α : Type*} (v : Service σ α) {enabled : Bool} {stage stage' : Stage}
    {x : ServiceName} {s : σ} (on : x = .net_scanner → enabled = true)
    (good : proper enabled stage = true) (here : v.At s (expected enabled stage x))
    (admitted : stage.admits x .inner = some stage') :
    stage = .inside ⟨x, .start⟩ ∧ v.phase s ≠ .stopping ∨
      stage = .inside ⟨x, .stop⟩ ∧ v.phase s ≠ .starting := by
  generalize inner : Role.inner = r at admitted
  cases admission_of_admits admitted with
  | aside free =>
      rw [← inner] at free
      rcases free with own | other
      · cases own
      · cases other
  | opens | closes => cases inner
  | @inner p =>
      cases p with
      | start =>
          rw [expected_inside_start on] at here
          refine .inl ⟨rfl, fun stopping => ?_⟩
          rcases here with starting | ⟨idle, -⟩
          · exact absurd (starting.symm.trans stopping) nofun
          · exact absurd (idle.symm.trans stopping) nofun
      | stop =>
          rw [expected_inside_stop on] at here
          refine .inr ⟨rfl, fun starting => ?_⟩
          rcases here with stopping | ⟨idle, -⟩
          · exact absurd (stopping.symm.trans starting) nofun
          · exact absurd (idle.symm.trans starting) nofun
      | restart => simp [proper] at good

omit [DecidableEq ι] in
/-- A step of main's thread behind the first call. -/
private theorem history_main {s s' : Agent ι} (history : History settings s)
    (heartbeat : s'.heartbeat = s.heartbeat)
    (mapped : late s'.stage = false → s'.loaded = settings.plugins_enabled)
    (born : unborn s = false) (opened : opening s'.stage = false) : History settings s' := by
  refine ⟨mapped, ?_⟩
  rw [heartbeat, history.lives, born, unborn, opened, Bool.false_and]

private theorem length_record {attempts : List (List (Heartbeat.Status × Heartbeat.Beat))}
    (entry : Heartbeat.Status × Heartbeat.Beat) (some : 0 < attempts.length) :
    (Heartbeat.record attempts entry).length = attempts.length := by
  simp only [Heartbeat.record, List.length_append, List.length_dropLast, List.length_singleton]
  omega

private theorem history_heartbeat {s : Agent ι} {a : Heartbeat.Act} {stage : Stage}
    {t : HeartbeatService} (before : Invariant settings s) (history : History settings s)
    (admitted : s.stage.admits .heartbeat ((heartbeatOf settings).role a) = some stage)
    (next : (heartbeatOf settings).step s.heartbeat a = some t) :
    t.attempts.length = if unborn { s with stage := stage, heartbeat := t } then 0 else 1 := by
  have lives := history.lives
  have same := (admits_frame admitted).2
  have placed := before.placed .heartbeat
  rw [unborn] at lives ⊢
  simp only [same]
  cases (Heartbeat.moves_of_step next).2 with
  | spawn here fresh =>
      have starting : (heartbeatOf settings).phase s.heartbeat = .starting := by
        change Supervised.heartbeatPhase s.heartbeat = .starting
        rw [Supervised.heartbeatPhase, here]
      have called := inner_stage (x := .heartbeat) _ (fun same => by cases same) before.proper
        placed admitted
      have inside : opening s.stage = true := by
        rcases called with ⟨first, -⟩ | ⟨-, other⟩
        · rw [first]
          rfl
        · exact absurd starting other
      rw [inside, fresh] at lives
      simpa using lives
  | join here ended =>
      have stopping : (heartbeatOf settings).phase s.heartbeat = .stopping := by
        change Supervised.heartbeatPhase s.heartbeat = .stopping
        rw [Supervised.heartbeatPhase, here]
      have called := inner_stage (x := .heartbeat) _ (fun same => by cases same) before.proper
        placed admitted
      have outside : opening s.stage = false := by
        rcases called with ⟨-, other⟩ | ⟨last, -⟩
        · exact absurd stopping other
        · rw [last]
          rfl
      rw [outside, Bool.false_and] at lives ⊢
      exact lives
  | beat _ here | lastBeat _ here =>
      rw [here] at lives
      simp only [reduceCtorEq, decide_false, Bool.and_false, Bool.false_eq_true, if_false]
        at lives ⊢
      exact (length_record _ (by rw [lives]; exact Nat.one_pos)).trans lives
  | test here | testInterval _ here | testStop _ here =>
      rw [here] at lives
      simp only [reduceCtorEq, decide_false, Bool.and_false, Bool.false_eq_true, if_false] at lives
      dsimp only
      split <;> simpa using lives
  | tick _ here =>
      rw [here] at lives
      simpa using lives
  | _ => exact lives

theorem history_step {s s' : Agent ι} {a : Act ι} (before : Invariant settings s)
    (history : History settings s) (move : Moves settings s a s') : History settings s' := by
  have ⟨mapped, lives⟩ := history
  cases move with
  | heartbeat a stage t admitted next =>
      exact ⟨fun early => mapped ((admits_frame admitted).1.symm.trans early),
        history_heartbeat before history admitted next⟩
  | log_collector a stage t admitted next | cmd_executor a stage t admitted next
  | net_scanner a stage t there admitted next =>
      obtain ⟨past, first⟩ := admits_frame admitted
      refine ⟨fun early => mapped (past.symm.trans early), ?_⟩
      simp only [unborn, first]
      exact lives
  | signal => exact ⟨mapped, lives⟩
  | endWait here =>
      have born : unborn s = false := by rw [unborn, here]; rfl
      refine history_main history rfl (fun _ => mapped (by rw [here]; rfl)) born ?_
      dsimp only
      split <;> rfl
  | check x here =>
      have born : unborn s = false := by rw [unborn, here]; rfl
      refine history_main history rfl (fun _ => mapped (by rw [here]; rfl)) born ?_
      dsimp only
      split
      · cases x <;> simp only [checked] <;> (try split) <;> rfl
      · cases x <;> rfl
  | returns c here idle =>
      have good := before.proper
      have placed := before.placed c.service
      rw [here] at good placed
      have born : unborn s = false := by
        rw [unborn, here]
        by_cases first : c = ⟨.heartbeat, .start⟩
        · subst first
          have up := (phase_of_idle .heartbeat idle placed).1 (expected_inside_start nofun)
          have present : decide (s.heartbeat.pc = .absent) = false := up.2
          rw [present, Bool.and_false]
        · simp [opening, first]
      refine history_main history rfl (fun _ => mapped (by rw [here]; rfl)) born ?_
      obtain ⟨x, p⟩ := c
      cases enabled : settings.scanner_enabled <;> cases x <;> cases p <;>
        simp [after, checked, opening, enabled]
  | unloadAll here | flush _ here | disconnect here =>
      exact history_main history rfl nofun (by rw [unborn, here]; rfl) rfl

/-- The step of a service's own thread. -/
def ofService : Act ι → Bool
  | .heartbeat a => decide (Supervised.heartbeatRole a = .own)
  | .log_collector a | .net_scanner a => decide (LoopService.role a = .own)
  | .cmd_executor a => decide (Supervised.executorRole a = .own)
  | _ => false

/-- The thread of the service has returned. -/
def Agent.ended (s : Agent ι) : ServiceName → Bool
  | .heartbeat => s.heartbeat.pc = .finished
  | .log_collector => s.log_collector.loop.pc = .finished
  | .cmd_executor => s.cmd_executor.worker = .finished
  | .net_scanner => s.net_scanner.loop.pc = .finished

/-- Watching, every service runs and none is ever restarted; a collection never runs without the
plugins it began with; and when main unloads them no thread of a service is left, and the
heartbeat's only one has said offline, last. -/
structure Orderly (settings : Settings) (s : Agent ι) : Prop where
  once : s.heartbeat.terminated = false ∧ s.log_collector.terminated = false ∧
    s.net_scanner.terminated = false ∧
    (s.cmd_executor.owner = .spawning → s.cmd_executor.worker = .absent)
  content : ∀ x, s.stage ≠ .calling ⟨x, .restart⟩ ∧ s.stage ≠ .inside ⟨x, .restart⟩
  watching : s.stage = .waiting ∨ (∃ x, s.stage = .checking x) →
    ∀ x, (x = .net_scanner → settings.scanner_enabled = true) →
      s.isRunning x = true ∧ s.ended x = false
  mapped : s.log_collector.loop.pc = .working → s.loaded = settings.plugins_enabled
  quiet : s.stage = .unloading ∨ late s.stage = true →
    (∃ life, s.heartbeat.attempts = [life] ∧ HeartbeatLives.Complete life) ∧
      ∀ a, ofService a = true → step settings s a = none

theorem ended_of_up {s : Agent ι} (before : Invariant settings s) {x : ServiceName}
    (up : s.At settings x .up) : s.ended x = false := by
  cases x with
  | heartbeat => exact (heartbeatOf settings).lively before.heartbeat up.1 up.2
  | log_collector => exact (collectorOf settings).lively before.log_collector up.1 up.2
  | cmd_executor => exact (executorOf settings).lively before.cmd_executor up.1 up.2
  | net_scanner => exact (scannerOf settings).lively before.net_scanner up.1 up.2

/-- A thread that is joined makes no step. -/
theorem quiet_of_down {s : Agent ι} (before : Invariant settings s)
    (down : ∀ x, s.At settings x .down) {a : Act ι} (own : ofService a = true) :
    step settings s a = none := by
  cases next : step settings s a with
  | none => rfl
  | some t =>
      cases (moves_of_step next).2 with
      | heartbeat a _ _ _ taken =>
          have still := (heartbeatOf settings).still before.heartbeat (down .heartbeat).2
            (of_decide_eq_true own)
          exact absurd (still.symm.trans taken) nofun
      | log_collector a _ _ _ taken =>
          have still := (collectorOf settings).still before.log_collector (down .log_collector).2
            (of_decide_eq_true own)
          exact absurd (still.symm.trans taken) nofun
      | cmd_executor a _ _ _ taken =>
          have still := (executorOf settings).still before.cmd_executor (down .cmd_executor).2
            (of_decide_eq_true own)
          exact absurd (still.symm.trans taken) nofun
      | net_scanner a _ _ _ _ taken =>
          have still := (scannerOf settings).still before.net_scanner (down .net_scanner).2
            (of_decide_eq_true own)
          exact absurd (still.symm.trans taken) nofun
      | _ => cases own

theorem orderly_of_invariant {s : Agent ι} (holds : Invariant settings s)
    (history : History settings s) : Orderly settings s := by
  have placed := holds.placed
  have spawned (here : s.cmd_executor.owner = .spawning) : s.cmd_executor.worker = .absent :=
    holds.cmd_executor.threadless (by rw [Supervised.executorPhase, here])
  refine ⟨⟨holds.heartbeat.invariant.lives.alive, holds.log_collector.alive,
    holds.net_scanner.alive, spawned⟩, fun x => ?_, fun watches x on => ?_, fun works => ?_,
    fun past => ?_⟩
  · have good := holds.proper
    constructor <;> intro here <;> simp [here, proper] at good
  · have up : expected settings.scanner_enabled s.stage x = .up := by
      rcases watches with here | ⟨y, here⟩ <;> rw [here] <;> cases x <;> simp_all [expected]
    have there := placed x
    rw [up] at there
    exact ⟨running_of_up holds there, ended_of_up holds there⟩
  · by_cases early : late s.stage = false
    · exact history.mapped early
    · have down : s.At settings .log_collector .down := by
        have there := placed .log_collector
        cases here : s.stage <;> simp_all [late, expected]
      have joined : (!s.log_collector.joinable) = true := down.2
      have absent : s.log_collector.joinable = false := by simpa using joined
      rw [holds.log_collector.absent absent] at works
      cases works
  · have down : ∀ x, s.At settings x .down := by
      intro x
      have there := placed x
      have all : expected settings.scanner_enabled s.stage x = .down := by
        cases here : s.stage <;> simp_all [late, expected]
      rwa [all] at there
    have absent : s.heartbeat.pc = .absent := of_decide_eq_true (down .heartbeat).2
    refine ⟨?_, fun a own => quiet_of_down holds down own⟩
    have single := history.lives
    have born : unborn s = false := by
      cases here : s.stage <;> simp_all [late, unborn, opening]
    rw [born] at single
    obtain ⟨life, only⟩ := List.length_eq_one_iff.mp single
    exact ⟨life, only, holds.heartbeat.invariant.lives.quiet absent life (by rw [only]; simp)⟩

/-- In every run of main from the start of its services, under every interleaving with their
threads, the callbacks and the signal handler. -/
theorem services_come_and_go_in_order {s : Agent ι}
    (run : Reaches (step settings) anyStep (.start settings) s) : Orderly settings s := by
  have start : History settings (.start settings : Agent ι) := ⟨fun _ => rfl, rfl⟩
  have both := run.invariant (I := fun s => Invariant settings s ∧ History settings s)
    ⟨invariant_start, start⟩ ?_
  · exact orderly_of_invariant both.1 both.2
  · intro r r' a before _ next
    have move := (moves_of_step next).2
    exact ⟨invariant_step before.1 move, history_step before.1 before.2 move⟩

/-- Started, watched for one round and told to end; the executor is stopped. -/
def untilExecutorStopped : List (Act (Fin 1)) :=
  [.heartbeat .callStart, .heartbeat .clearStop, .heartbeat .setRunning, .heartbeat .spawn,
    .returns, .log_collector .callStart, .log_collector .clearStop, .log_collector .setRunning,
    .log_collector .spawn, .returns, .cmd_executor .callStart, .heartbeat .test,
    .cmd_executor .clearStop, .cmd_executor .setRunning, .cmd_executor .spawn, .returns,
    .heartbeat (.beat .accepted), .endWait, .check, .check, .signal, .endWait,
    .cmd_executor .callStop, .cmd_executor .setStop, .cmd_executor .clearRunning,
    .cmd_executor .notifyAll, .cmd_executor .test, .cmd_executor .join, .returns]

/-- The collector and the heartbeat are stopped, and main comes to its last call. -/
def untilDisconnect : List (Act (Fin 1)) :=
  [.log_collector .callStop, .log_collector .setStop, .log_collector (.loop .testLoop),
    .log_collector .wakeUp, .log_collector .join, .log_collector .clearRunning, .returns,
    .heartbeat .callStop, .heartbeat .setStop, .heartbeat .testInterval, .heartbeat .testStop,
    .heartbeat .test, .heartbeat (.beat .refused), .heartbeat .join, .heartbeat .clearRunning,
    .returns, .unloadAll, .flush true]

def sampleSettings : Settings := ⟨"d", 30, 60, 3600, false, true⟩

theorem a_whole_life_is_orderly :
    ∃ s : Agent (Fin 1),
      Reaches (step sampleSettings) anyStep (.start sampleSettings) s ∧
      s.stage = .disconnecting ∧
      s.heartbeat.attempts = [[(.online, .accepted), (.offline, .refused)]] ∧
      Orderly sampleSettings s := by
  have replay : ∃ s, exec (step sampleSettings) (.start sampleSettings)
      (untilExecutorStopped ++ untilDisconnect) = some s ∧ s.stage = .disconnecting ∧
        s.heartbeat.attempts = [[(.online, .accepted), (.offline, .refused)]] :=
    ⟨_, rfl, rfl, rfl⟩
  obtain ⟨s, run, back, attempts⟩ := replay
  have path := exec_reaches_any run
  exact ⟨s, path, back, attempts, services_come_and_go_in_order path⟩

end OrbisAgent.Cli.Lifetime
