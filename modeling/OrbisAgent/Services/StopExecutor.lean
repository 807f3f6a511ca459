/- OrbisAgent/Services/StopExecutor
   source: CommandExecutor::stop, workerLoop
   digest: stop() waits for a worker that nobody will wake exactly when its notification falls
   between the worker's test of the predicate and its sleep. -/

import OrbisAgent.Services.CommandQueue

set_option autoImplicit false
set_option relaxedAutoImplicit false

namespace OrbisAgent.Services.StopExecutor

open OrbisAgent.Lib.Transition
open OrbisAgent.Services.CommandQueue

universe u

variable {ι : Type u}

/-- `stop()` has notified and waits in `join` while the worker sleeps without a
notification. -/
def Hung (s : Executor ι) : Prop :=
  s.owner = .joining ∧ s.worker = .blocked ∧ s.notified = false

/-- `notify_all` does not fall between the worker's test of the predicate and its sleep. -/
def NotifiesOutsideGap (s : Executor ι) (a : Act ι) : Prop :=
  a = .notifyAll → s.worker ≠ .blocking

instance [DecidableEq ι] (s : Executor ι) (a : Act ι) : Decidable (NotifiesOutsideGap s a) :=
  inferInstanceAs (Decidable (a = .notifyAll → s.worker ≠ .blocking))

/-- In `stop()`, past the write of `stop_requested_`. -/
def pastStopFlag : Owner → Bool
  | .clearingRunning | .notifying | .joining => true
  | _ => false

/-- While `stop()` is past its write the flag is set, and once it has notified the
worker is neither about to sleep nor asleep without a notification. -/
structure StopSeen (s : Executor ι) : Prop where
  flag : pastStopFlag s.owner = true → s.stop_requested = true
  gap : s.owner = .joining → s.worker ≠ .blocking
  asleep : s.owner = .joining → s.worker = .blocked → s.notified = true

theorem not_hung_of_stopSeen {s : Executor ι} (seen : StopSeen s) : ¬ Hung s := by
  rintro ⟨joining, asleep, silent⟩
  have told := seen.asleep joining asleep
  rw [silent] at told
  cases told

/-- A step that leaves the owner and the flag alone and does not bring the worker
near its sleep. -/
private theorem stopSeen_awake {s s' : Executor ι} (before : StopSeen s)
    (owner : s'.owner = s.owner) (flag : s'.stop_requested = s.stop_requested)
    (first : s'.worker ≠ .blocking) (second : s'.worker ≠ .blocked) : StopSeen s' := by
  refine ⟨fun past => ?_, fun _ => first, fun _ here => absurd here second⟩
  rw [owner] at past
  rw [flag]
  exact before.flag past

/-- A step of the owner to a place before `join`. -/
private theorem stopSeen_owner {s' : Executor ι} (elsewhere : s'.owner ≠ .joining)
    (flag : pastStopFlag s'.owner = true → s'.stop_requested = true) : StopSeen s' :=
  ⟨flag, fun here => absurd here elsewhere, fun here => absurd here elsewhere⟩

variable [DecidableEq ι] {device_id : String}

private theorem stopSeen_step {s s' : Executor ι} {a : Act ι} (before : StopSeen s)
    (guard : NotifiesOutsideGap s a) (next : Moves device_id s a s') : StopSeen s' := by
  cases next with
  | notifyAll here =>
      refine ⟨fun _ => before.flag (by rw [here]; rfl), fun _ => guard rfl, fun _ asleep => ?_⟩
      have asleep' : s.worker = .blocked := asleep
      show (s.notified || decide (s.worker = .blocked)) = true
      rw [asleep']
      simp
  | wait here no =>
      have unset : s.stop_requested = false := by
        unfold mayProceed at no
        exact (Bool.or_eq_false_iff.mp no).1
      refine ⟨before.flag, fun joining => ?_, fun _ => nofun⟩
      have set := before.flag (by rw [show s.owner = .joining from joining]; rfl)
      rw [unset] at set
      cases set
  | block here =>
      exact ⟨before.flag, fun _ => nofun, fun joining => absurd here (before.gap joining)⟩
  | notifyOne i here =>
      refine ⟨before.flag, before.gap, fun joining asleep => ?_⟩
      show (s.notified || decide (s.worker = .blocked)) = true
      rw [before.asleep joining asleep]
      rfl
  | test here =>
      refine stopSeen_awake before rfl rfl ?_ ?_ <;>
        (show (if _ then _ else _) ≠ _; split <;> exact nofun)
  | callStart | clearStop | setRunning | spawn | callStop | join => exact stopSeen_owner nofun nofun
  | setStop => exact stopSeen_owner nofun fun _ => rfl
  | clearRunning here => exact stopSeen_owner nofun fun _ => before.flag (by rw [here]; rfl)
  | lock | proceed | wake | relockWait | drained | pop | unlock | finish | relock | leave =>
      exact stopSeen_awake before rfl rfl nofun nofun
  | message | otherMessage | lockQueue | push | unlockQueue | startAgain | spawnTwice =>
      exact ⟨before.flag, before.gap, before.asleep⟩

/-- In every run in which no `notify_all` of `stop()` falls into the gap, `stop()`
never hangs. -/
theorem stop_never_hangs_if_notified_outside_gap {s : Executor ι}
    (run : Reaches (step device_id) NotifiesOutsideGap Executor.start s) : ¬ Hung s := by
  have start : StopSeen (Executor.start : Executor ι) := ⟨nofun, nofun, nofun⟩
  have seen := run.invariant (I := StopSeen) start ?_
  · exact not_hung_of_stopSeen seen
  · intro r r' a before guard move
    exact stopSeen_step before guard (moves_of_step move)

/-- The worker sleeps when `stop()` is called, is notified, and leaves its loop. -/
theorem stop_ends_a_sleeping_worker :
    ∃ s : Executor (Fin 1), Reaches (step "d") NotifiesOutsideGap Executor.start s ∧
      s.owner = .joining ∧ s.worker = .finished ∧ ¬ Hung s := by
  let run : List (Act (Fin 1)) :=
    [.callStart, .clearStop, .setRunning, .spawn, .test, .lock, .evaluate, .block, .callStop,
      .setStop, .clearRunning, .notifyAll, .wake, .relockWait, .evaluate, .drain, .leave, .test]
  have reached : ∃ s, exec (guarded (step "d") NotifiesOutsideGap) Executor.start run = some s ∧
      s.owner = .joining ∧ s.worker = .finished := ⟨_, rfl, rfl, rfl⟩
  obtain ⟨s, replay, joining, finished⟩ := reached
  have path := exec_guarded_reaches replay
  exact ⟨s, path, joining, finished, stop_never_hangs_if_notified_outside_gap path⟩

/-- From every state in which `stop()` is about to notify and the worker is in the
gap, `stop()` hangs two steps later: outside the condition the hang is always near. -/
theorem hangs_after_notify_in_gap {s : Executor ι} (alive : s.terminated = false)
    (silent : s.notified = false) (owner : s.owner = .notifying) (gap : s.worker = .blocking) :
    ∃ s', Reaches (step device_id) anyStep s s' ∧ Hung s' := by
  have replay : exec (step device_id) s [.notifyAll, .block] = some { s with
      notified := false, owner := .joining, mutex := none, worker := .blocked } := by
    simp [exec, step, move, alive, silent, owner, gap]
  exact ⟨_, exec_reaches_any replay, rfl, rfl, rfl⟩

/-- The worker has found the flag unset and the queue empty; before it sleeps,
`stop()` sets the flag and notifies. -/
theorem stop_hangs_on_a_lost_wakeup :
    ∃ s : Executor (Fin 1), Reaches (step "d") anyStep Executor.start s ∧
      s.stop_requested = true ∧ Hung s := by
  let run : List (Act (Fin 1)) :=
    [.callStart, .clearStop, .setRunning, .spawn, .test, .lock, .evaluate, .callStop, .setStop,
      .clearRunning, .notifyAll, .block]
  have reached : ∃ s, exec (step "d") (Executor.start : Executor (Fin 1)) run = some s ∧
      s.stop_requested = true ∧ s.owner = .joining ∧ s.worker = .blocked ∧
      s.notified = false := ⟨_, rfl, rfl, rfl, rfl, rfl⟩
  obtain ⟨s, replay, set, joining, asleep, silent⟩ := reached
  exact ⟨s, exec_reaches_any replay, set, joining, asleep, silent⟩

end OrbisAgent.Services.StopExecutor
