/- OrbisAgent/Services/Supervised
   source: HeartbeatService::start, stop, isRunning; CommandExecutor::start, stop
   digest: The heartbeat and the command executor as services of the thread that owns them. -/

import OrbisAgent.Lib.Supervision
import OrbisAgent.Services.CommandQueue
import OrbisAgent.Services.HeartbeatLives

set_option autoImplicit false
set_option relaxedAutoImplicit false

namespace OrbisAgent.Services.Supervised

open OrbisAgent.Lib.Supervision

universe u

section Heartbeat

open OrbisAgent.Services.Heartbeat
open OrbisAgent.Services.HeartbeatLives (Invariant invariant_step)

def heartbeatRole : Act → Role
  | .callStart => .opens
  | .callStop => .closes
  | .clearStop | .setRunning | .spawn | .setStop | .join | .clearRunning => .inner
  | .test | .beat _ | .testInterval | .testStop | .tick => .own

def heartbeatPhase (s : HeartbeatService) : Phase :=
  match s.owner with
  | .idle => .idle
  | .clearingStop | .settingRunning | .spawning => .starting
  | .settingStop | .joining | .clearingRunning => .stopping

/-- Between two calls the flag of a thread is down. -/
structure HeartbeatSound (s : HeartbeatService) : Prop where
  invariant : Invariant s
  cleared : s.owner = .settingRunning ∨ s.owner = .spawning → s.stop_requested = false
  untold : s.owner = .idle → s.pc ≠ .absent → s.stop_requested = false

variable {interval_sec : Int} {s s' : HeartbeatService} {a : Act}

theorem heartbeatPhase_eq_idle : heartbeatPhase s = .idle ↔ s.owner = .idle := by
  cases here : s.owner <;> simp [heartbeatPhase, here]

theorem heartbeatSound_new : HeartbeatSound .new :=
  ⟨HeartbeatLives.invariant_new, nofun, fun _ there => absurd rfl there⟩

private theorem heartbeat_sound {s s' : HeartbeatService} {a : Act} (before : HeartbeatSound s)
    (next : step interval_sec s a = some s') : HeartbeatSound s' := by
  have move := (moves_of_step next).2
  have ⟨invariant, cleared, untold⟩ := before
  refine ⟨invariant_step invariant move, ?_, ?_⟩
  · cases move with
    | callStart | spawn | callStop | setStop | join | clearRunning => exact nofun
    | clearStop => exact fun _ => rfl
    | setRunning here => exact fun _ => cleared (.inl here)
    | _ => exact cleared
  · cases move with
    | callStart | clearStop | setRunning | callStop | setStop | join => exact nofun
    | spawn here => exact fun _ _ => cleared (.inr here)
    | clearRunning here =>
        exact fun _ there => absurd (invariant.threadless (by rw [here]; rfl)) there
    | startAgain | spawnTwice => exact untold
    | test here | beat _ here | lastBeat _ here | testInterval _ here | testStop _ here
    | tick _ here => exact fun idle _ => untold idle (by rw [here]; nofun)

private theorem heartbeat_watched {s : HeartbeatService} (sound : HeartbeatSound s)
    (idle : heartbeatPhase s = .idle) : s.running = !decide (s.pc = .absent) := by
  have same := sound.invariant.lives.watched (heartbeatPhase_eq_idle.mp idle)
  by_cases here : s.pc = .absent
  · rw [decide_eq_true here, Bool.eq_false_iff.mpr fun up => same.mp up here]
    rfl
  · rw [decide_eq_false here, same.mpr here]
    rfl

private theorem heartbeat_lively {s : HeartbeatService} (sound : HeartbeatSound s)
    (idle : heartbeatPhase s = .idle) (present : decide (s.pc = .absent) = false) :
    decide (s.pc = .finished) = false := by
  have untold := sound.untold (heartbeatPhase_eq_idle.mp idle) (of_decide_eq_false present)
  refine decide_eq_false fun ended => ?_
  rw [sound.invariant.lives.told ended] at untold
  cases untold

private theorem heartbeat_bystander {s s' : HeartbeatService} {a : Act}
    (free : heartbeatRole a = .own ∨ heartbeatRole a = .other)
    (next : step interval_sec s a = some s') : heartbeatPhase s' = heartbeatPhase s ∧
      decide (s'.pc = .absent) = decide (s.pc = .absent) := by
  cases (moves_of_step next).2 with
  | test here | testInterval _ here | testStop _ here =>
      refine ⟨rfl, ?_⟩
      rw [here]
      dsimp only
      split <;> rfl
  | beat _ here | lastBeat _ here | tick _ here => exact ⟨rfl, by rw [here]; rfl⟩
  | _ => simp [heartbeatRole] at free

private theorem heartbeat_opens {s s' : HeartbeatService} {a : Act}
    (opens : heartbeatRole a = .opens) (next : step interval_sec s a = some s') :
    heartbeatPhase s = .idle ∧ (heartbeatPhase s' = .starting ∨ s' = s ∧ s.running = true) := by
  cases (moves_of_step next).2 with
  | callStart here => exact ⟨heartbeatPhase_eq_idle.mpr here, .inl rfl⟩
  | startAgain here already => exact ⟨heartbeatPhase_eq_idle.mpr here, .inr ⟨rfl, already⟩⟩
  | _ => cases opens

private theorem heartbeat_closes {s s' : HeartbeatService} {a : Act}
    (closes : heartbeatRole a = .closes) (next : step interval_sec s a = some s') :
    heartbeatPhase s = .idle ∧ heartbeatPhase s' = .stopping := by
  cases (moves_of_step next).2 with
  | callStop here => exact ⟨heartbeatPhase_eq_idle.mpr here, rfl⟩
  | _ => cases closes

private theorem heartbeat_inner {s s' : HeartbeatService} {a : Act} (sound : HeartbeatSound s)
    (inner : heartbeatRole a = .inner) (next : step interval_sec s a = some s') :
    heartbeatPhase s ≠ .idle ∧ (heartbeatPhase s' = heartbeatPhase s ∨ heartbeatPhase s' = .idle ∧
      (heartbeatPhase s = .starting ∧ decide (s'.pc = .absent) = false ∨
        heartbeatPhase s = .stopping ∧ decide (s'.pc = .absent) = true)) := by
  cases (moves_of_step next).2 with
  | clearStop here | setRunning here | spawnTwice here | setStop here | join here =>
      have busy : heartbeatPhase s ≠ .idle := by simp [heartbeatPhase, here]
      exact ⟨busy, .inl (by simp [heartbeatPhase, here])⟩
  | spawn here =>
      have starting : heartbeatPhase s = .starting := by simp [heartbeatPhase, here]
      exact ⟨by rw [starting]; nofun, .inr ⟨rfl, .inl ⟨starting, rfl⟩⟩⟩
  | clearRunning here =>
      have stopping : heartbeatPhase s = .stopping := by simp [heartbeatPhase, here]
      have absent := sound.invariant.threadless (by rw [here]; rfl)
      exact ⟨by rw [stopping]; nofun, .inr ⟨rfl, .inr ⟨stopping, decide_eq_true absent⟩⟩⟩
  | _ => cases inner

private theorem heartbeat_still {s : HeartbeatService} {a : Act} (_ : HeartbeatSound s)
    (joined : decide (s.pc = .absent) = true) (own : heartbeatRole a = .own) :
    step interval_sec s a = none := by
  have absent := of_decide_eq_true joined
  cases next : step interval_sec s a with
  | none => rfl
  | some t =>
      cases (moves_of_step next).2 with
      | test here | beat _ here | lastBeat _ here | testInterval _ here | testStop _ here
      | tick _ here =>
          rw [absent] at here
          cases here
      | _ => cases own

def heartbeat (interval_sec : Int) : Service HeartbeatService Act where
  step := step interval_sec
  role := heartbeatRole
  phase := heartbeatPhase
  running s := s.running
  joined s := decide (s.pc = .absent)
  ended s := decide (s.pc = .finished)
  Sound := HeartbeatSound
  sound_step := heartbeat_sound
  watched := heartbeat_watched
  lively := heartbeat_lively
  bystander := heartbeat_bystander
  opens := heartbeat_opens
  closes := heartbeat_closes
  inner := heartbeat_inner
  still := heartbeat_still

/-- The steps of `stop()` and of the thread it waits for. -/
def heartbeatRemaining (s : HeartbeatService) : Nat :=
  match s.owner with
  | .settingStop => 8
  | .joining => HeartbeatLives.ahead s.pc + 2
  | .clearingRunning => 1
  | _ => 0

theorem heartbeatRemaining_le (s : HeartbeatService) : heartbeatRemaining s ≤ 8 := by
  have most : HeartbeatLives.ahead s.pc ≤ 5 := by
    cases s.pc <;> simp [HeartbeatLives.ahead]
  cases here : s.owner <;> simp only [heartbeatRemaining, here] <;> omega

private theorem heartbeat_stopping_callable {s : HeartbeatService} (sound : HeartbeatSound s)
    (idle : heartbeatPhase s = .idle) :
    ∃ a s', heartbeatRole a = .closes ∧ step interval_sec s a = some s' := by
  have alive := sound.invariant.lives.alive
  exact ⟨.callStop, _, rfl, by simp [step, move, alive, heartbeatPhase_eq_idle.mp idle]; rfl⟩

private theorem heartbeat_stopping_waits {s : HeartbeatService}
    (waits : decide (s.owner = .joining) = true) : heartbeatPhase s = .stopping := by
  rw [heartbeatPhase, of_decide_eq_true waits]

private theorem heartbeat_stopping_idle {s : HeartbeatService} (idle : heartbeatPhase s = .idle) :
    heartbeatRemaining s = 0 := by
  simp only [heartbeatRemaining, heartbeatPhase_eq_idle.mp idle]

private theorem heartbeat_stopping_counted {s s' : HeartbeatService} {a : Act}
    (sound : HeartbeatSound s) (stopping : heartbeatPhase s = .stopping)
    (next : step interval_sec s a = some s') :
    heartbeatRemaining s' + (if heartbeatRole a = .inner ∨
      heartbeatRole a = .own ∧ decide (s.owner = .joining) = true then 1 else 0) ≤
        heartbeatRemaining s := by
  have move := (moves_of_step next).2
  by_cases waits : s.owner = .joining ∧ a ≠ .join
  · -- only the thread moves, and comes nearer to its end
    obtain ⟨waits, other⟩ := waits
    obtain ⟨⟨-, still, -⟩, nearer, -⟩ := HeartbeatLives.stopping_step sound.invariant.lives.alive
      waits (sound.invariant.joining waits) other next
    simp only [heartbeatRemaining, waits, still]
    split <;> omega
  · cases move with
    | callStart here | startAgain here | clearStop here | setRunning here | spawn here
    | spawnTwice here | callStop here =>
        rw [heartbeatPhase, here] at stopping
        cases stopping
    | setStop here =>
        have most : HeartbeatLives.ahead s.pc ≤ 5 := by
          cases s.pc <;> simp [HeartbeatLives.ahead]
        simp only [heartbeatRemaining, heartbeatRole, here, true_or, if_true]
        omega
    | join here =>
        simp only [heartbeatRemaining, heartbeatRole, here, true_or, if_true]
        omega
    | clearRunning here => simp [heartbeatRemaining, heartbeatRole, here]
    | _ =>
        have away : s.owner ≠ .joining := fun here => waits ⟨here, fun same => by cases same⟩
        cases here : s.owner <;> simp_all [heartbeatRemaining, heartbeatRole]

private theorem heartbeat_stopping_enabled {s : HeartbeatService} (sound : HeartbeatSound s)
    (stopping : heartbeatPhase s = .stopping)
    (back : decide (s.owner = .joining) = true → s.inCall = false) :
    ∃ a s', (heartbeatRole a = .inner ∨
      heartbeatRole a = .own ∧ decide (s.owner = .joining) = true) ∧
        step interval_sec s a = some s' := by
  have alive := sound.invariant.lives.alive
  cases here : s.owner with
  | idle | clearingStop | settingRunning | spawning =>
      rw [heartbeatPhase, here] at stopping
      cases stopping
  | settingStop => exact ⟨.setStop, _, .inl rfl, by simp [step, move, alive, here]; rfl⟩
  | clearingRunning => exact ⟨.clearRunning, _, .inl rfl, by simp [step, move, alive, here]; rfl⟩
  | joining =>
      obtain ⟨a, s', next⟩ : ∃ a s', step interval_sec s a = some s' :=
        HeartbeatLives.stopping_enabled alive here (back (decide_eq_true here))
      refine ⟨a, s', ?_, next⟩
      cases role : heartbeatRole a with
      | own => exact .inr ⟨rfl, decide_eq_true rfl⟩
      | inner => exact .inl rfl
      | opens =>
          have idle := heartbeatPhase_eq_idle.mp (heartbeat_opens role next).1
          rw [here] at idle
          cases idle
      | closes =>
          have idle := heartbeatPhase_eq_idle.mp (heartbeat_closes role next).1
          rw [here] at idle
          cases idle
      | other => cases a <;> cases role

/-- `stop()` of the heartbeat waits for five steps of the thread at most. -/
def heartbeatStopping (interval_sec : Int) : Stopping (heartbeat interval_sec) where
  awaited s := decide (s.owner = .joining)
  inCall := HeartbeatService.inCall
  remaining := heartbeatRemaining
  bound := 8
  bounded := heartbeatRemaining_le
  callable := heartbeat_stopping_callable
  waits := heartbeat_stopping_waits
  idle := heartbeat_stopping_idle
  counted := heartbeat_stopping_counted
  enabled := heartbeat_stopping_enabled

end Heartbeat

section Executor

open OrbisAgent.Services.CommandQueue

variable {ι : Type u}

def executorRole : Act ι → Role
  | .callStart => .opens
  | .callStop => .closes
  | .clearStop | .setRunning | .spawn | .setStop | .clearRunning | .notifyAll | .join => .inner
  | .message _ _ _ | .lockQueue _ | .push _ | .unlockQueue _ | .notifyOne _ => .other
  | .test | .lock | .evaluate | .block | .wake | .relockWait | .drain | .unlock | .finish _
  | .relock | .leave => .own

def executorPhase (s : Executor ι) : Phase :=
  match s.owner with
  | .idle => .idle
  | .clearingStop | .settingRunning | .spawning => .starting
  | .settingStop | .clearingRunning | .notifying | .joining => .stopping

/-- The thread ends only when it is told to, and there is never a second one. -/
structure ExecutorSound (s : Executor ι) : Prop where
  watched : s.owner = .idle → (s.running = true ↔ s.worker ≠ .absent)
  threadless : executorPhase s = .starting → s.worker = .absent
  starting : s.owner = .spawning → s.running = true
  lowered : s.owner = .notifying ∨ s.owner = .joining → s.running = false
  cleared : s.owner = .settingRunning ∨ s.owner = .spawning → s.stop_requested = false
  untold : s.owner = .idle → s.worker ≠ .absent → s.stop_requested = false
  told : s.worker = .finished → s.stop_requested = true

theorem executorSound_start : ExecutorSound (Executor.start : Executor ι) :=
  ⟨fun _ => ⟨nofun, fun there => absurd rfl there⟩, nofun, nofun, nofun, nofun,
    fun _ there => absurd rfl there, nofun⟩

theorem executorPhase_eq_idle {s : Executor ι} : executorPhase s = .idle ↔ s.owner = .idle := by
  cases here : s.owner <;> simp [executorPhase, here]

/-- A step of the worker on its way. -/
private theorem executor_worker {s s' : Executor ι} (before : ExecutorSound s)
    (was : s.worker ≠ .absent) (is : s'.worker ≠ .absent) (owner : s'.owner = s.owner)
    (running : s'.running = s.running) (flag : s'.stop_requested = s.stop_requested)
    (told : s'.worker = .finished → s.stop_requested = true) : ExecutorSound s' := by
  have ⟨watched, threadless, starting, lowered, cleared, untold, _⟩ := before
  refine ⟨fun idle => ?_, fun opening => ?_, ?_, ?_, ?_, fun idle _ => ?_, fun ended => ?_⟩
  · rw [running]
    exact iff_of_true ((watched (owner.symm.trans idle)).mpr was) is
  · have same : executorPhase s = .starting := by
      rw [executorPhase, ← owner]
      exact opening
    exact absurd (threadless same) was
  · rw [owner, running]
    exact starting
  · rw [owner, running]
    exact lowered
  · rw [owner, flag]
    exact cleared
  · rw [flag]
    exact untold (owner.symm.trans idle) was
  · rw [flag]
    exact told ended

private theorem executor_watched {s : Executor ι} (sound : ExecutorSound s)
    (idle : executorPhase s = .idle) : s.running = !decide (s.worker = .absent) := by
  have same := sound.watched (executorPhase_eq_idle.mp idle)
  by_cases here : s.worker = .absent
  · rw [decide_eq_true here, Bool.eq_false_iff.mpr fun up => same.mp up here]
    rfl
  · rw [decide_eq_false here, same.mpr here]
    rfl

private theorem executor_lively {s : Executor ι} (sound : ExecutorSound s)
    (idle : executorPhase s = .idle) (present : decide (s.worker = .absent) = false) :
    decide (s.worker = .finished) = false := by
  have untold := sound.untold (executorPhase_eq_idle.mp idle) (of_decide_eq_false present)
  refine decide_eq_false fun ended => ?_
  rw [sound.told ended] at untold
  cases untold

variable [DecidableEq ι] {device_id : String} {s s' : Executor ι} {a : Act ι}

private theorem executor_sound {s s' : Executor ι} {a : Act ι} (before : ExecutorSound s)
    (next : step device_id s a = some s') : ExecutorSound s' := by
  have ⟨watched, threadless, starting, lowered, cleared, untold, told⟩ := before
  cases moves_of_step next with
  | callStart here fresh =>
      have absent : s.worker = .absent := by
        by_contra there
        have up := (watched here).mpr there
        rw [fresh] at up
        cases up
      exact ⟨nofun, fun _ => absent, nofun, nofun, nofun, nofun, told⟩
  | clearStop here =>
      have absent := threadless (by rw [executorPhase, here])
      refine ⟨nofun, fun _ => absent, nofun, nofun, fun _ => rfl, nofun, fun ended => ?_⟩
      exact absurd (absent.symm.trans ended) nofun
  | setRunning here =>
      have absent := threadless (by rw [executorPhase, here])
      exact ⟨nofun, fun _ => absent, fun _ => rfl, nofun, fun _ => cleared (.inl here), nofun, told⟩
  | spawn here =>
      exact ⟨fun _ => iff_of_true (starting here) nofun, nofun, nofun, nofun, nofun,
        fun _ _ => cleared (.inr here), nofun⟩
  | callStop here => exact ⟨nofun, nofun, nofun, nofun, nofun, nofun, told⟩
  | setStop here => exact ⟨nofun, nofun, nofun, nofun, nofun, nofun, fun _ => rfl⟩
  | clearRunning here => exact ⟨nofun, nofun, nofun, fun _ => rfl, nofun, nofun, told⟩
  | notifyAll here => exact ⟨nofun, nofun, nofun, fun _ => lowered (.inl here), nofun, nofun, told⟩
  | join here =>
      have down : s.running = false := lowered (.inr here)
      have both : s.running = true ↔ Worker.absent ≠ .absent :=
        iff_of_false (by rw [down]; nofun) fun there => there rfl
      exact ⟨fun _ => both, nofun, nofun, nofun, nofun, fun _ there => absurd rfl there, nofun⟩
  | startAgain | spawnTwice | message | otherMessage | lockQueue | push | unlockQueue | notifyOne =>
      exact ⟨watched, threadless, starting, lowered, cleared, untold, told⟩
  | test here =>
      by_cases stopping : s.stop_requested = true
      · rw [if_pos stopping]
        exact executor_worker before (by rw [here]; nofun) nofun rfl rfl rfl fun _ => stopping
      · rw [if_neg stopping]
        exact executor_worker before (by rw [here]; nofun) nofun rfl rfl rfl nofun
  | lock here | proceed here | wait here | block here | wake here | relockWait here | drained here
  | pop _ _ here | unlock _ here | finish _ _ here | relock here | leave here =>
      exact executor_worker before (by rw [here]; nofun) nofun rfl rfl rfl nofun

private theorem executor_bystander {s s' : Executor ι} {a : Act ι}
    (free : executorRole a = .own ∨ executorRole a = .other)
    (next : step device_id s a = some s') : executorPhase s' = executorPhase s ∧
      decide (s'.worker = .absent) = decide (s.worker = .absent) := by
  cases moves_of_step next with
  | message | otherMessage | lockQueue | push | unlockQueue | notifyOne => exact ⟨rfl, rfl⟩
  | test here =>
      refine ⟨rfl, ?_⟩
      rw [here]
      dsimp only
      split <;> rfl
  | lock here | proceed here | wait here | block here | wake here | relockWait here | drained here
  | pop _ _ here | unlock _ here | finish _ _ here | relock here | leave here =>
      exact ⟨rfl, by rw [here]; rfl⟩
  | _ => simp [executorRole] at free

private theorem executor_opens {s s' : Executor ι} {a : Act ι} (opens : executorRole a = .opens)
    (next : step device_id s a = some s') :
    executorPhase s = .idle ∧ (executorPhase s' = .starting ∨ s' = s ∧ s.running = true) := by
  cases moves_of_step next with
  | callStart here => exact ⟨executorPhase_eq_idle.mpr here, .inl rfl⟩
  | startAgain here already => exact ⟨executorPhase_eq_idle.mpr here, .inr ⟨rfl, already⟩⟩
  | _ => cases opens

private theorem executor_closes {s s' : Executor ι} {a : Act ι} (closes : executorRole a = .closes)
    (next : step device_id s a = some s') :
    executorPhase s = .idle ∧ executorPhase s' = .stopping := by
  cases moves_of_step next with
  | callStop here => exact ⟨executorPhase_eq_idle.mpr here, rfl⟩
  | _ => cases closes

private theorem executor_inner {s s' : Executor ι} {a : Act ι} (_ : ExecutorSound s)
    (inner : executorRole a = .inner) (next : step device_id s a = some s') :
    executorPhase s ≠ .idle ∧ (executorPhase s' = executorPhase s ∨ executorPhase s' = .idle ∧
      (executorPhase s = .starting ∧ decide (s'.worker = .absent) = false ∨
        executorPhase s = .stopping ∧ decide (s'.worker = .absent) = true)) := by
  cases moves_of_step next with
  | clearStop here | setRunning here | spawnTwice here | setStop here | clearRunning here
  | notifyAll here =>
      have busy : executorPhase s ≠ .idle := by simp [executorPhase, here]
      exact ⟨busy, .inl (by simp [executorPhase, here])⟩
  | spawn here =>
      have starting : executorPhase s = .starting := by simp [executorPhase, here]
      exact ⟨by rw [starting]; nofun, .inr ⟨rfl, .inl ⟨starting, rfl⟩⟩⟩
  | join here =>
      have stopping : executorPhase s = .stopping := by simp [executorPhase, here]
      exact ⟨by rw [stopping]; nofun, .inr ⟨rfl, .inr ⟨stopping, rfl⟩⟩⟩
  | _ => cases inner

private theorem executor_still {s : Executor ι} {a : Act ι} (_ : ExecutorSound s)
    (joined : decide (s.worker = .absent) = true) (own : executorRole a = .own) :
    step device_id s a = none := by
  have absent := of_decide_eq_true joined
  cases next : step device_id s a with
  | none => rfl
  | some t =>
      cases moves_of_step next with
      | test here | lock here | proceed here | wait here | block here | wake here
      | relockWait here | drained here | pop _ _ here | unlock _ here | finish _ _ here
      | relock here | leave here =>
          rw [absent] at here
          cases here
      | _ => cases own

/-- A callback does not end the process. -/
theorem executor_terminated (other : executorRole a = .other)
    (next : step device_id s a = some s') : s'.terminated = s.terminated := by
  cases moves_of_step next with
  | message | otherMessage | lockQueue | push | unlockQueue | notifyOne => rfl
  | _ => cases other

def executor (device_id : String) : Service (Executor ι) (Act ι) where
  step := step device_id
  role := executorRole
  phase := executorPhase
  running s := s.running
  joined s := decide (s.worker = .absent)
  ended s := decide (s.worker = .finished)
  Sound := ExecutorSound
  sound_step := executor_sound
  watched := executor_watched
  lively := executor_lively
  bystander := executor_bystander
  opens := executor_opens
  closes := executor_closes
  inner := executor_inner
  still := executor_still

end Executor

end OrbisAgent.Services.Supervised
