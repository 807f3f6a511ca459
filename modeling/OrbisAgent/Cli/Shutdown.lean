/- OrbisAgent/Cli/Shutdown
   source: src/main.cpp: main, "Graceful shutdown"
   digest: Once the command executor is stopped, main's thread and the threads it waits for need
   thirty-nine steps at most, and only a call that does not come back can hold them up. -/

import OrbisAgent.Cli.Lifetime

set_option autoImplicit false
set_option relaxedAutoImplicit false

namespace OrbisAgent.Cli.Shutdown

open OrbisAgent.Cli.Lifetime
open OrbisAgent.Lib.Supervision
open OrbisAgent.Lib.Transition
open OrbisAgent.Services
open OrbisAgent.Services.CommandQueue (Executor)
open OrbisAgent.Services.Heartbeat (HeartbeatService)

universe u v w

/-- Behind `cmd_executor->stop()`. -/
def closing : Stage → Bool
  | .calling c | .inside c => decide (c.purpose = .stop) && decide (c.service ≠ .cmd_executor)
  | .unloading | .flushing | .disconnecting | .returned => true
  | _ => false

/-- A step of the supervisor, or of the thread it waits for. -/
def counts {σ : Type v} {α : Type w} {v : Service σ α} (w : Stopping v) (s : σ) (a : α) : Bool :=
  match v.role a with
  | .own => w.awaited s
  | .other => false
  | .opens | .closes | .inner => true

variable {ι : Type u} (settings : Settings)

def heartbeatStop : Stopping (heartbeatOf settings) :=
  Supervised.heartbeatStopping settings.heartbeat_interval_sec

def collectorStop : Stopping (collectorOf settings) :=
  LoopService.stopping settings.log_interval_sec

def scannerStop : Stopping (scannerOf settings) :=
  LoopService.stopping settings.scan_interval_sec

/-- A step of main's thread, or of the thread whose end it waits for. -/
def drives (s : Agent ι) : Act ι → Bool
  | .heartbeat a => counts (heartbeatStop settings) s.heartbeat a
  | .log_collector a => counts (collectorStop settings) s.log_collector a
  | .net_scanner a => counts (scannerStop settings) s.net_scanner a
  | .cmd_executor a =>
      match Supervised.executorRole a with
      | .own | .other => false
      | .opens | .closes | .inner => true
  | .signal => false
  | .endWait | .check | .returns | .unloadAll | .flush _ | .disconnect => true

/-- What is left of these steps. -/
def rank (s : Agent ι) : Nat :=
  match s.stage with
  | .calling ⟨.net_scanner, .stop⟩ => 39
  | .inside ⟨.net_scanner, .stop⟩ => LoopService.remaining s.net_scanner + 27
  | .calling ⟨.log_collector, .stop⟩ => 26
  | .inside ⟨.log_collector, .stop⟩ => LoopService.remaining s.log_collector + 14
  | .calling ⟨.heartbeat, .stop⟩ => 13
  | .inside ⟨.heartbeat, .stop⟩ => Supervised.heartbeatRemaining s.heartbeat + 4
  | .unloading => 3
  | .flushing => 2
  | .disconnecting => 1
  | _ => 0

section Local

variable {σ : Type v} {α : Type w} {v : Service σ α} (w : Stopping v) {enabled : Bool}
  {stage stage' : Stage} {x : ServiceName} {s t : σ} {a : α}

theorem expected_calling_stop (on : x = .net_scanner → enabled = true) :
    expected enabled (.calling ⟨x, .stop⟩) x = .up := by
  by_cases scanner : x = .net_scanner <;> simp_all [expected]

/-- Outside its own stop a service is up or down. -/
theorem expected_elsewhere (closes : closing stage = true) (away : stage ≠ .inside ⟨x, .stop⟩) :
    expected enabled stage x = .up ∨ expected enabled stage x = .down := by
  cases stage with
  | calling c =>
      obtain ⟨y, p⟩ := c
      cases p <;> simp only [closing, expected] at closes ⊢ <;> split_ifs <;> simp
  | inside c =>
      obtain ⟨y, p⟩ := c
      cases p with
      | start | restart => simp [closing] at closes
      | stop =>
          have other : x ≠ y := fun same => away (by rw [same])
          simp only [expected, if_neg other]
          split_ifs <;> simp
  | unloading | flushing | disconnecting | returned => simp [expected]
  | waiting | checking y => cases closes

theorem phase_elsewhere (closes : closing stage = true) (away : stage ≠ .inside ⟨x, .stop⟩)
    (here : v.At s (expected enabled stage x)) : v.phase s = .idle := by
  have either : expected enabled stage x = .up ∨ expected enabled stage x = .down :=
    expected_elsewhere closes away
  rcases either with up | down
  · rw [up] at here
    exact here.1
  · rw [down] at here
    exact here.1

/-- A step of a service: its `stop()` begins, it goes on, or the service is left alone. -/
inductive Effect (x : ServiceName) (stage stage' : Stage) (s t : σ) (a : α) : Prop
  | begins (was : stage = .calling ⟨x, .stop⟩) (now : stage' = .inside ⟨x, .stop⟩)
      (most : w.remaining t ≤ w.bound)
  | goesOn (was : stage = .inside ⟨x, .stop⟩) (now : stage' = stage)
      (less : w.remaining t + (if counts w s a then 1 else 0) ≤ w.remaining s)
  | elsewhere (was : stage ≠ .inside ⟨x, .stop⟩) (now : stage' = stage)
      (free : counts w s a = false)

/-- A thread that is not waited for, or a call from outside. -/
theorem effect_free (sound : v.Sound s) (on : x = .net_scanner → enabled = true)
    (closes : closing stage = true) (here : v.At s (expected enabled stage x))
    (role : v.role a = .own ∨ v.role a = .other) (now : stage' = stage)
    (next : v.step s a = some t) : Effect w x stage stage' s t a := by
  by_cases was : stage = .inside ⟨x, .stop⟩
  · refine .goesOn was now ?_
    rw [was, expected_inside_stop on] at here
    rcases here with stopping | ⟨idle, joined⟩
    · have less := w.counted sound stopping next
      rcases role with role | role
      · simp only [counts, role, reduceCtorEq, false_or, true_and] at less ⊢
        exact less
      · simp only [counts, role, reduceCtorEq, false_or, false_and, if_false] at less ⊢
        exact less
    · rcases role with role | role
      · exact absurd ((v.still sound joined role).symm.trans next) nofun
      · have same := (v.bystander (.inr role) next).1
        rw [w.idle (same.trans idle)]
        simp [counts, role]
  · refine .elsewhere was now ?_
    have idle := phase_elsewhere closes was here
    rcases role with role | role
    · simp only [counts, role]
      by_contra waits
      have stopping := w.waits (Bool.not_eq_false _ ▸ waits)
      exact absurd (idle.symm.trans stopping) nofun
    · simp only [counts, role]

theorem effect_of_step (sound : v.Sound s) (on : x = .net_scanner → enabled = true)
    (closes : closing stage = true) (here : v.At s (expected enabled stage x))
    (admitted : stage.admits x (v.role a) = some stage') (next : v.step s a = some t) :
    Effect w x stage stage' s t a := by
  have admission := admission_of_admits admitted
  generalize role : v.role a = r at admission
  cases admission with
  | aside free =>
      rw [← role] at free
      exact effect_free w sound on closes here free rfl next
  | opens purpose =>
      simp only [closing, Bool.and_eq_true, decide_eq_true_eq] at closes
      exact absurd closes.1 purpose
  | closes => exact .begins rfl rfl (w.bounded t)
  | @inner p =>
      obtain rfl : p = .stop := by
        simp only [closing, Bool.and_eq_true, decide_eq_true_eq] at closes
        exact closes.1
      refine .goesOn rfl rfl ?_
      rw [expected_inside_stop on] at here
      have busy := (v.inner sound role next).1
      have stopping : v.phase s = .stopping := here.resolve_right fun down => busy down.1
      have less := w.counted sound stopping next
      simp only [counts, role, true_or, if_true] at less ⊢
      exact less

end Local

theorem rank_heartbeat {s : Agent ι} {t : HeartbeatService}
    (away : s.stage ≠ .inside ⟨.heartbeat, .stop⟩) : rank { s with heartbeat := t } = rank s := by
  unfold rank
  split <;> simp_all

theorem rank_log_collector {s : Agent ι} {t : LoopService.Looped}
    (away : s.stage ≠ .inside ⟨.log_collector, .stop⟩) :
    rank { s with log_collector := t } = rank s := by
  unfold rank
  split <;> simp_all

theorem rank_net_scanner {s : Agent ι} {t : LoopService.Looped}
    (away : s.stage ≠ .inside ⟨.net_scanner, .stop⟩) :
    rank { s with net_scanner := t } = rank s := by
  unfold rank
  split <;> simp_all

theorem rank_le (s : Agent ι) : rank s ≤ 39 := by
  have scanner := LoopService.remaining_le s.net_scanner
  have collector := LoopService.remaining_le s.log_collector
  have heartbeat := Supervised.heartbeatRemaining_le s.heartbeat
  unfold rank
  split <;> omega

section Run

variable [DecidableEq ι] {settings : Settings}

/-- Main's thread is past the stop of the executor, and the process runs. -/
structure Closing (settings : Settings) (s : Agent ι) : Prop where
  invariant : Invariant settings s
  closes : closing s.stage = true
  alive : s.cmd_executor.terminated = false

theorem Closing.terminated {s : Agent ι} (here : Closing settings s) : s.terminated = false := by
  rw [Agent.terminated, here.invariant.heartbeat.invariant.lives.alive,
    here.invariant.log_collector.alive, here.alive, here.invariant.net_scanner.alive]
  rfl

/-- The executor has no thread any more, and main's thread does not call it. -/
private theorem executor_still {s : Agent ι} {a : CommandQueue.Act ι} {stage : Stage}
    {t : Executor ι} (here : Closing settings s)
    (admitted : s.stage.admits .cmd_executor ((executorOf settings).role a) = some stage)
    (next : (executorOf settings).step s.cmd_executor a = some t) :
    (executorOf settings).role a = .other ∧ stage = s.stage ∧ t.terminated = false := by
  have closes := here.closes
  have down : (executorOf settings).At s.cmd_executor .down := by
    have placed := here.invariant.placed .cmd_executor
    have all : expected settings.scanner_enabled s.stage .cmd_executor = .down := by
      cases there : s.stage with
      | calling c | inside c =>
          rw [there] at closes
          obtain ⟨y, p⟩ := c
          cases y <;> cases p <;> simp_all [closing, expected, stopRank]
      | unloading | flushing | disconnecting | returned => simp [expected]
      | waiting | checking y =>
          rw [there] at closes
          cases closes
    rwa [all] at placed
  cases role : (executorOf settings).role a with
  | own =>
      rw [(executorOf settings).still here.invariant.cmd_executor down.2 role] at next
      cases next
  | other =>
      rw [role] at admitted
      exact ⟨rfl, (Option.some.inj admitted).symm,
        (Supervised.executor_terminated role next).trans here.alive⟩
  | opens | closes | inner =>
      rw [role] at admitted
      cases there : s.stage with
      | calling c | inside c =>
          rw [there] at closes admitted
          simp only [closing, Bool.and_eq_true, decide_eq_true_eq] at closes
          simp [Stage.admits, closes.2] at admitted
      | _ =>
          rw [there] at admitted
          cases admitted

theorem closing_step {s s' : Agent ι} {a : Act ι} (before : Closing settings s)
    (next : step settings s a = some s') : Closing settings s' ∧
      rank s' + (if drives settings s a then 1 else 0) ≤ rank s := by
  have move := (moves_of_step next).2
  have after_move := invariant_step before.invariant move
  have ⟨invariant, closes, alive⟩ := before
  cases move with
  | heartbeat a stage t admitted taken =>
      have effect := effect_of_step (x := .heartbeat) (heartbeatStop settings) invariant.heartbeat
        nofun closes (invariant.placed .heartbeat) admitted taken
      cases effect with
      | begins was now most =>
          subst now
          refine ⟨⟨after_move, rfl, alive⟩, ?_⟩
          have most' : Supervised.heartbeatRemaining t ≤ 8 := most
          simp only [rank, was]
          split <;> omega
      | goesOn was now less =>
          subst now
          refine ⟨⟨after_move, closes, alive⟩, ?_⟩
          have less' : Supervised.heartbeatRemaining t +
              (if drives settings s (.heartbeat a) then 1 else 0) ≤
                Supervised.heartbeatRemaining s.heartbeat := less
          simp only [rank, was]
          omega
      | elsewhere was now free =>
          subst now
          refine ⟨⟨after_move, closes, alive⟩, ?_⟩
          have free' : drives settings s (.heartbeat a) = false := free
          rw [rank_heartbeat was, free']
          exact Nat.le_refl _
  | log_collector a stage t admitted taken =>
      have effect := effect_of_step (x := .log_collector) (collectorStop settings)
        invariant.log_collector nofun closes (invariant.placed .log_collector) admitted taken
      cases effect with
      | begins was now most =>
          subst now
          refine ⟨⟨after_move, rfl, alive⟩, ?_⟩
          have most' : LoopService.remaining t ≤ 11 := most
          simp only [rank, was]
          split <;> omega
      | goesOn was now less =>
          subst now
          refine ⟨⟨after_move, closes, alive⟩, ?_⟩
          have less' : LoopService.remaining t +
              (if drives settings s (.log_collector a) then 1 else 0) ≤
                LoopService.remaining s.log_collector := less
          simp only [rank, was]
          omega
      | elsewhere was now free =>
          subst now
          refine ⟨⟨after_move, closes, alive⟩, ?_⟩
          have free' : drives settings s (.log_collector a) = false := free
          rw [rank_log_collector was, free']
          exact Nat.le_refl _
  | net_scanner a stage t there admitted taken =>
      have effect := effect_of_step (x := .net_scanner) (scannerStop settings) invariant.net_scanner
        (fun _ => there) closes (invariant.placed .net_scanner) admitted taken
      cases effect with
      | begins was now most =>
          subst now
          refine ⟨⟨after_move, rfl, alive⟩, ?_⟩
          have most' : LoopService.remaining t ≤ 11 := most
          simp only [rank, was]
          split <;> omega
      | goesOn was now less =>
          subst now
          refine ⟨⟨after_move, closes, alive⟩, ?_⟩
          have less' : LoopService.remaining t +
              (if drives settings s (.net_scanner a) then 1 else 0) ≤
                LoopService.remaining s.net_scanner := less
          simp only [rank, was]
          omega
      | elsewhere was now free =>
          subst now
          refine ⟨⟨after_move, closes, alive⟩, ?_⟩
          have free' : drives settings s (.net_scanner a) = false := free
          rw [rank_net_scanner was, free']
          exact Nat.le_refl _
  | cmd_executor a stage t admitted taken =>
      obtain ⟨role, same, lives⟩ := executor_still before admitted taken
      subst same
      refine ⟨⟨after_move, closes, lives⟩, ?_⟩
      have role' : Supervised.executorRole a = .other := role
      simp only [drives, role', Bool.false_eq_true, if_false]
      exact Nat.le_refl _
  | signal => exact ⟨⟨after_move, closes, alive⟩, Nat.le_refl _⟩
  | endWait here | check x here =>
      rw [here] at closes
      cases closes
  | returns c here idle =>
      rw [here] at closes
      obtain ⟨x, p⟩ := c
      simp only [closing, Bool.and_eq_true, decide_eq_true_eq] at closes
      obtain ⟨rfl, away⟩ := closes
      cases x with
      | cmd_executor => exact absurd rfl away
      | heartbeat | log_collector | net_scanner =>
          refine ⟨⟨after_move, rfl, alive⟩, ?_⟩
          simp only [rank, here, after, drives, if_true]
          omega
  | unloadAll here | flush _ here | disconnect here =>
      refine ⟨⟨after_move, rfl, alive⟩, ?_⟩
      simp [rank, here, drives]

/-- Main's thread is before the call that stops the service, or in it. -/
def Stops (stage : Stage) (x : ServiceName) : Prop :=
  stage = .calling ⟨x, .stop⟩ ∨ stage = .inside ⟨x, .stop⟩

/-- A service that is being stopped lets main's thread or its own make a step, unless main's is
back or its own is in a call. -/
private theorem service_enabled {σ : Type v} {α : Type w} {v : Service σ α} (w : Stopping v)
    {enabled : Bool} {stage : Stage} {x : ServiceName} {s : σ} (sound : v.Sound s)
    (on : x = .net_scanner → enabled = true) (here : v.At s (expected enabled stage x))
    (stops : Stops stage x)
    (back : stage = .inside ⟨x, .stop⟩ → w.awaited s = true → w.inCall s = false) :
    stage = .inside ⟨x, .stop⟩ ∧ v.phase s = .idle ∨
      ∃ a t stage', counts w s a = true ∧ v.step s a = some t ∧
        stage.admits x (v.role a) = some stage' := by
  rcases stops with rfl | rfl
  · rw [expected_calling_stop on] at here
    obtain ⟨a, t, role, next⟩ := w.callable sound here.1
    refine .inr ⟨a, t, .inside ⟨x, .stop⟩, ?_, next, ?_⟩
    · simp [counts, role]
    · simp [Stage.admits, role]
  · rw [expected_inside_stop on] at here
    rcases here with stopping | down
    · obtain ⟨a, t, kind, next⟩ := w.enabled sound stopping (back rfl)
      refine .inr ⟨a, t, .inside ⟨x, .stop⟩, ?_, next, ?_⟩
      · rcases kind with role | ⟨role, waits⟩
        · simp [counts, role]
        · simp [counts, role, waits]
      · rcases kind with role | ⟨role, -⟩ <;> simp [Stage.admits, role]
    · exact .inl ⟨rfl, down.1⟩

private theorem returns_enabled {s : Agent ι} {c : Call} (alive : s.terminated = false)
    (here : s.stage = .inside c) (idle : s.idle c.service = true) :
    ∃ a t, drives settings s a = true ∧ step settings s a = some t :=
  ⟨.returns, { s with stage := after settings c }, rfl, by simp [step, move, alive, here, idle]⟩

private theorem stops_enabled {s : Agent ι} (here : Closing settings s) {x : ServiceName}
    (away : x ≠ .cmd_executor) (on : x = .net_scanner → settings.scanner_enabled = true)
    (stops : Stops s.stage x) (free : s.held = false) :
    ∃ a t, drives settings s a = true ∧ step settings s a = some t := by
  have alive := here.terminated
  have placed := here.invariant.placed x
  cases x with
  | cmd_executor => exact absurd rfl away
  | heartbeat =>
      have back : s.stage = .inside ⟨.heartbeat, .stop⟩ →
          decide (s.heartbeat.owner = .joining) = true → s.heartbeat.inCall = false := by
        intro inside waits
        simpa [Agent.held, inside, waits] using free
      rcases service_enabled (heartbeatStop settings) here.invariant.heartbeat on placed stops back
        with ⟨inside, idle⟩ | ⟨a, t, stage, kind, next, admitted⟩
      · have back := Supervised.heartbeatPhase_eq_idle.mp idle
        exact returns_enabled alive inside (decide_eq_true back)
      · have next' : Heartbeat.step settings.heartbeat_interval_sec s.heartbeat a = some t := next
        have admitted' : s.stage.admits .heartbeat (Supervised.heartbeatRole a) = some stage :=
          admitted
        exact ⟨.heartbeat a, { s with stage := stage, heartbeat := t }, kind,
          by simp [step, move, alive, admitted', next']⟩
  | log_collector =>
      have back : s.stage = .inside ⟨.log_collector, .stop⟩ →
          LoopService.awaited s.log_collector = true → s.log_collector.inCall = false := by
        intro inside waits
        simpa [Agent.held, inside, waits] using free
      rcases service_enabled (collectorStop settings) here.invariant.log_collector on placed stops
        back with ⟨inside, idle⟩ | ⟨a, t, stage, kind, next, admitted⟩
      · exact returns_enabled alive inside (decide_eq_true (LoopService.phase_eq_idle.mp idle))
      · have next' : LoopService.logCollector settings.log_interval_sec s.log_collector a =
            some t := next
        have admitted' : s.stage.admits .log_collector (LoopService.role a) = some stage := admitted
        exact ⟨.log_collector a, { s with stage := stage, log_collector := t }, kind,
          by simp [step, move, alive, admitted', next']⟩
  | net_scanner =>
      have back : s.stage = .inside ⟨.net_scanner, .stop⟩ →
          LoopService.awaited s.net_scanner = true → s.net_scanner.inCall = false := by
        intro inside waits
        simpa [Agent.held, inside, waits] using free
      rcases service_enabled (scannerStop settings) here.invariant.net_scanner on placed stops back
        with ⟨inside, idle⟩ | ⟨a, t, stage, kind, next, admitted⟩
      · exact returns_enabled alive inside (decide_eq_true (LoopService.phase_eq_idle.mp idle))
      · have next' : LoopService.networkScanner settings.scan_interval_sec s.net_scanner a =
            some t := next
        have admitted' : s.stage.admits .net_scanner (LoopService.role a) = some stage := admitted
        exact ⟨.net_scanner a, { s with stage := stage, net_scanner := t }, kind,
          by simp [step, move, alive, on rfl, admitted', next']⟩

theorem closing_enabled {s : Agent ι} (here : Closing settings s) (going : s.stage ≠ .returned)
    (free : s.held = false) :
    ∃ a t, drives settings s a = true ∧ step settings s a = some t := by
  have closes := here.closes
  have alive := here.terminated
  have good := here.invariant.proper
  cases there : s.stage with
  | returned => exact absurd there going
  | unloading | flushing | disconnecting =>
      rw [Agent.held, there] at free
      cases free
  | waiting | checking x =>
      rw [there] at closes
      cases closes
  | calling c | inside c =>
      rw [there] at closes good
      obtain ⟨x, p⟩ := c
      simp only [closing, Bool.and_eq_true, decide_eq_true_eq] at closes
      obtain ⟨rfl, away⟩ := closes
      have on : x = .net_scanner → settings.scanner_enabled = true := by
        rintro rfl
        simpa [proper] using good
      exact stops_enabled here away on (by simp [Stops, there]) free

/-- In every run of main, from the state in which its call has stopped the command executor: its
own steps and those of the threads it waits for are thirty-nine at most, whatever the intervals
and whatever the others do; and until it returns, one of them can be made, unless it or the thread
it waits for is in a call that need not come back. -/
theorem shutdown_ends {s t : Agent ι} {as : List (Act ι)}
    (run : Reaches (step settings) anyStep (.start settings) s) (closes : closing s.stage = true)
    (alive : s.terminated = false) (more : exec (step settings) s as = some t) :
    countSteps (step settings) (drives settings) s as ≤ 39 ∧
      (t.stage ≠ .returned → t.held = false →
        ∃ a u, drives settings t a = true ∧ step settings t a = some u) := by
  have holds := run.invariant (I := Invariant settings) invariant_start ?_
  · have executor : s.cmd_executor.terminated = false := by
      simp only [Agent.terminated, Bool.or_eq_false_iff] at alive
      exact alive.1.2
    have start : Closing settings s := ⟨holds, closes, executor⟩
    have both : Closing settings t ∧
        rank t + countSteps (step settings) (drives settings) s as ≤ rank s := by
      refine countSteps_le (I := Closing settings) ?_ start more
      intro r r' a before next
      exact closing_step before next
    obtain ⟨last, most⟩ := both
    have least := rank_le s
    exact ⟨by omega, closing_enabled last⟩
  · intro r r' a before _ next
    exact invariant_step before (moves_of_step next).2

theorem a_shutdown_ends :
    ∃ s : Agent (Fin 1), Reaches (step sampleSettings) anyStep (.start sampleSettings) s ∧
      s.stage = .calling ⟨.log_collector, .stop⟩ ∧
      countSteps (step sampleSettings) (drives sampleSettings) s untilDisconnect ≤ 39 ∧
      ∃ a u, drives sampleSettings s a = true ∧ step sampleSettings s a = some u := by
  have replay : ∃ s, exec (step sampleSettings) (.start sampleSettings) untilExecutorStopped =
      some s ∧ s.stage = .calling ⟨.log_collector, .stop⟩ ∧ closing s.stage = true ∧
        s.terminated = false ∧ ∃ t, exec (step sampleSettings) s untilDisconnect = some t :=
    ⟨_, rfl, rfl, rfl, rfl, _, rfl⟩
  obtain ⟨s, run, here, closes, alive, t, more⟩ := replay
  have path := exec_reaches_any run
  have going : s.stage ≠ .returned := by rw [here]; nofun
  have free : s.held = false := by rw [Agent.held, here]
  have still : exec (step sampleSettings) s [] = some s := rfl
  exact ⟨s, path, here, (shutdown_ends path closes alive more).1,
    (shutdown_ends path closes alive still).2 going free⟩

end Run

end OrbisAgent.Cli.Shutdown
