/- OrbisAgent/Services/CommandOrder
   source: CommandExecutor::processCommand, workerLoop
   digest: Commands begin in the order they were pushed, one at a time, and none is left behind
   when the worker sleeps. -/

import OrbisAgent.Services.CommandQueue

set_option autoImplicit false
set_option relaxedAutoImplicit false

namespace OrbisAgent.Services.CommandOrder

open OrbisAgent.Lib.Transition
open OrbisAgent.Services.CommandQueue

universe u

variable {ι : Type u}

/-- Popped, with the execution not begun yet. -/
def inHand : Worker → List String
  | .unlocking payload => [payload]
  | _ => []

def inExecution : Worker → List String
  | .executing payload => [payload]
  | _ => []

def workerHolds : Worker → Bool
  | .evaluating | .blocking | .draining | .unlocking _ | .leaving => true
  | _ => false

def callerHolds : Caller → Bool
  | .pushing _ | .pushed => true
  | _ => false

/-- Between the push of `processCommand` and its notification. -/
def willNotify : Caller → Bool
  | .pushed | .notifying => true
  | _ => false

/-- Every pushed payload was begun, is in the worker's hand or is queued, in this order. -/
structure Accounted (s : Executor ι) : Prop where
  pushed : s.enqueued = s.begun ++ inHand s.worker ++ s.queue
  begun : s.begun = s.ended ++ inExecution s.worker

/-- Who is in a section of `queue_mutex_` holds it. -/
structure Locked (s : Executor ι) : Prop where
  worker : workerHolds s.worker = true → s.mutex = some .worker
  caller : ∀ i, callerHolds (s.callers i) = true → s.mutex = some (.caller i)

/-- The worker goes to sleep on an empty queue, and whoever fills it afterwards has
still to notify. -/
structure Heard (s : Executor ι) : Prop where
  blocking : s.worker = .blocking → s.queue = []
  blocked : s.worker = .blocked → s.notified = false → s.queue ≠ [] →
    ∃ i, willNotify (s.callers i) = true

/-- What the callbacks and the worker guarantee at every moment. -/
structure Orderly (s : Executor ι) : Prop where
  inOrder : s.begun <+: s.enqueued
  oneAtATime : s.begun.length ≤ s.ended.length + 1
  noneLost : s.enqueued = s.begun ++ inHand s.worker ++ s.queue
  noneWaiting : s.worker = .blocked → s.stop_requested = false → s.notified = false →
    (∀ i, s.callers i = .idle) → s.queue = []

theorem orderly_of_invariants {s : Executor ι} (accounted : Accounted s) (heard : Heard s) :
    Orderly s := by
  refine ⟨?_, ?_, accounted.pushed, fun asleep _ silent quiet => ?_⟩
  · rw [accounted.pushed, List.append_assoc]
    exact List.prefix_append _ _
  · have atMost : (inExecution s.worker).length ≤ 1 := by
      cases s.worker <;> simp [inExecution]
    rw [accounted.begun, List.length_append]
    omega
  · by_contra filled
    obtain ⟨i, coming⟩ := heard.blocked asleep silent filled
    rw [quiet i] at coming
    cases coming

private theorem accounted_frame {s s' : Executor ι} (before : Accounted s)
    (enqueued : s'.enqueued = s.enqueued) (begun : s'.begun = s.begun) (ended : s'.ended = s.ended)
    (queue : s'.queue = s.queue) (hand : inHand s'.worker = inHand s.worker)
    (execution : inExecution s'.worker = inExecution s.worker) : Accounted s' := by
  constructor
  · rw [enqueued, begun, queue, hand]
    exact before.pushed
  · rw [begun, ended, execution]
    exact before.begun

/-- The mutex stays with its holder. -/
private theorem locked_keep {s s' : Executor ι} (before : Locked s) (mutex : s'.mutex = s.mutex)
    (worker : workerHolds s'.worker = true → workerHolds s.worker = true)
    (callers : ∀ i, callerHolds (s'.callers i) = true → callerHolds (s.callers i) = true) :
    Locked s' := by
  constructor
  · intro holds
    rw [mutex]
    exact before.worker (worker holds)
  · intro i holds
    rw [mutex]
    exact before.caller i (callers i holds)

/-- The worker takes the free mutex. -/
private theorem locked_take {s s' : Executor ι} (before : Locked s) (free : s.mutex = none)
    (mutex : s'.mutex = some .worker) (callers : s'.callers = s.callers) : Locked s' := by
  refine ⟨fun _ => mutex, fun i holds => ?_⟩
  rw [callers] at holds
  have taken := before.caller i holds
  rw [free] at taken
  cases taken

/-- The worker gives the mutex up. -/
private theorem locked_release {s s' : Executor ι} (before : Locked s)
    (held : workerHolds s.worker = true) (outside : workerHolds s'.worker = false)
    (callers : s'.callers = s.callers) : Locked s' := by
  constructor
  · intro holds
    rw [outside] at holds
    cases holds
  · intro i holds
    rw [callers] at holds
    have mine := before.worker held
    rw [before.caller i holds] at mine
    cases mine

/-- The worker is at neither of the two points. -/
private theorem heard_awake {s : Executor ι} (first : s.worker ≠ .blocking)
    (second : s.worker ≠ .blocked) : Heard s :=
  ⟨fun here => absurd here first, fun here => absurd here second⟩

variable [DecidableEq ι] {device_id : String}

theorem accounted_step {s s' : Executor ι} {a : Act ι} (before : Accounted s)
    (next : Moves device_id s a s') : Accounted s' := by
  cases next with
  | message | otherMessage | lockQueue | unlockQueue | notifyOne | callStart | startAgain
  | clearStop | setRunning | spawnTwice | callStop | setStop | clearRunning | notifyAll =>
      exact ⟨before.pushed, before.begun⟩
  | push i payload here =>
      refine ⟨?_, before.begun⟩
      show s.enqueued ++ [payload] = s.begun ++ inHand s.worker ++ (s.queue ++ [payload])
      rw [before.pushed]
      simp only [List.append_assoc]
  | pop payload rest here next =>
      obtain ⟨pushed, begun⟩ := before
      rw [here, next] at pushed
      rw [here] at begun
      refine ⟨?_, begun⟩
      show s.enqueued = s.begun ++ [payload] ++ rest
      rw [pushed]
      simp [inHand]
  | unlock payload here =>
      obtain ⟨pushed, begun⟩ := before
      rw [here] at pushed begun
      refine ⟨?_, ?_⟩
      · show s.enqueued = s.begun ++ [payload] ++ [] ++ s.queue
        rw [List.append_nil]
        exact pushed
      · show s.begun ++ [payload] = s.ended ++ [payload]
        rw [begun]
        simp [inExecution]
  | finish returns payload here =>
      obtain ⟨pushed, begun⟩ := before
      rw [here] at pushed begun
      refine ⟨pushed, ?_⟩
      show s.begun = s.ended ++ [payload] ++ []
      rw [List.append_nil]
      exact begun
  | test here =>
      refine accounted_frame before rfl rfl rfl rfl ?_ ?_ <;>
        (rw [here]; show _ = []; split <;> rfl)
  | join here ended =>
      refine accounted_frame before rfl rfl rfl rfl ?_ ?_ <;>
        (rcases ended with gone | done <;> simp [*, inHand, inExecution])
  | spawn _ here | lock here | proceed here | wait here | block here | wake here | relockWait here
  | drained here | relock here | leave here =>
      refine accounted_frame before rfl rfl rfl rfl ?_ ?_ <;> (rw [here]; rfl)

/-- A caller changes place without touching the mutex. -/
private theorem locked_caller {s : Executor ι} {i : ι} {pc : Caller} (before : Locked s)
    (holds : callerHolds pc = true → callerHolds (s.callers i) = true) :
    Locked (s.setCaller i pc) := by
  refine locked_keep before rfl id fun j held => ?_
  by_cases same : j = i
  · subst same
    rw [setCaller_same] at held
    exact holds held
  · rw [setCaller_other _ _ same] at held
    exact held

theorem locked_step {s s' : Executor ι} {a : Act ι} (before : Locked s)
    (next : Moves device_id s a s') : Locked s' := by
  have outside : ∀ {pc : Caller} {i : ι}, callerHolds pc = false →
      callerHolds pc = true → callerHolds (s.callers i) = true := by
    intro pc i no yes
    rw [no] at yes
    cases yes
  cases next with
  | message i => exact locked_caller before (outside rfl)
  | notifyOne i =>
      have same : Locked { s with notified := s.notified || decide (s.worker = .blocked) } :=
        ⟨before.worker, before.caller⟩
      exact locked_caller same (outside rfl)
  | push i payload here =>
      have same : Locked { s with
          queue := s.queue ++ [payload], enqueued := s.enqueued ++ [payload] } :=
        ⟨before.worker, before.caller⟩
      exact locked_caller same fun _ => by rw [here]; rfl
  | lockQueue i payload here free =>
      constructor
      · intro holds
        have taken := before.worker holds
        rw [free] at taken
        cases taken
      · intro j holds
        by_cases same : j = i
        · subst same
          rfl
        · rw [setCaller_other _ _ same] at holds
          have taken := before.caller j holds
          rw [free] at taken
          cases taken
  | unlockQueue i here =>
      have mine : s.mutex = some (.caller i) := before.caller i (by rw [here]; rfl)
      constructor
      · intro holds
        have taken := before.worker holds
        rw [mine] at taken
        cases taken
      · intro j holds
        by_cases same : j = i
        · subst same
          rw [setCaller_same] at holds
          cases holds
        · rw [setCaller_other _ _ same] at holds
          have taken := before.caller j holds
          rw [mine] at taken
          cases taken
          exact absurd rfl same
  | lock here free | relockWait here free | relock here free =>
      exact locked_take before free rfl rfl
  | block here | unlock payload here | leave here =>
      exact locked_release before (by rw [here]; rfl) rfl rfl
  | test here =>
      refine locked_keep before rfl (fun holds => ?_) fun _ => id
      simp only at holds
      split at holds <;> cases holds
  | proceed here | wait here | drained here | pop _ _ here =>
      exact locked_keep before rfl (fun _ => by rw [here]; rfl) fun _ => id
  | spawn | join | wake | finish => exact locked_keep before rfl nofun fun _ => id
  | otherMessage | callStart | startAgain | clearStop | setRunning | spawnTwice | callStop | setStop
  | clearRunning | notifyAll => exact ⟨before.worker, before.caller⟩

private theorem heard_caller {s : Executor ι} {i : ι} {pc : Caller} (before : Heard s)
    (goesOn : willNotify (s.callers i) = true → willNotify pc = true) :
    Heard (s.setCaller i pc) := by
  refine ⟨before.blocking, fun asleep silent filled => ?_⟩
  obtain ⟨j, coming⟩ := before.blocked asleep silent filled
  by_cases same : j = i
  · subst same
    exact ⟨j, by rw [setCaller_same]; exact goesOn coming⟩
  · exact ⟨j, by rw [setCaller_other _ _ same]; exact coming⟩

theorem heard_step {s s' : Executor ι} {a : Act ι} (before : Heard s) (locked : Locked s)
    (next : Moves device_id s a s') : Heard s' := by
  have passive : ∀ {pc : Caller} {i : ι}, willNotify (s.callers i) = false →
      willNotify (s.callers i) = true → willNotify pc = true := by
    intro pc i no yes
    rw [no] at yes
    cases yes
  have woken : s.worker = .blocked → (s.notified || decide (s.worker = .blocked)) ≠ false := by
    intro asleep silent
    rw [asleep] at silent
    simp at silent
  cases next with
  | message i _ _ here => exact heard_caller before (passive (by rw [here]; rfl))
  | lockQueue i payload here free =>
      have same : Heard { s with mutex := some (.caller i) } := ⟨before.blocking, before.blocked⟩
      exact heard_caller same (passive (by rw [here]; rfl))
  | unlockQueue i here =>
      have same : Heard { s with mutex := none } := ⟨before.blocking, before.blocked⟩
      exact heard_caller same fun _ => rfl
  | push i payload here =>
      have mine : s.mutex = some (.caller i) := locked.caller i (by rw [here]; rfl)
      constructor
      · -- the worker would hold the mutex
        intro going
        have held := locked.worker (by rw [show s.worker = .blocking from going]; rfl)
        rw [mine] at held
        cases held
      · exact fun _ _ _ => ⟨i, by rw [setCaller_same]; rfl⟩
  | notifyOne i here =>
      exact ⟨before.blocking, fun asleep silent _ => (woken asleep silent).elim⟩
  | notifyAll here =>
      exact ⟨before.blocking, fun asleep silent _ => (woken asleep silent).elim⟩
  | wait here no =>
      refine ⟨fun _ => ?_, nofun⟩
      have empty : s.queue.isEmpty = true := by
        unfold mayProceed at no
        rw [Bool.or_eq_false_iff] at no
        simpa using no.2
      exact List.isEmpty_iff.mp empty
  | block here => exact ⟨nofun, fun _ _ filled => absurd (before.blocking here) filled⟩
  | test here =>
      refine heard_awake ?_ ?_ <;> (show (if _ then _ else _) ≠ _; split <;> exact nofun)
  | spawn | join | lock | proceed | wake | relockWait | drained | pop | unlock | finish | relock
  | leave => exact heard_awake nofun nofun
  | otherMessage | callStart | startAgain | clearStop | setRunning | spawnTwice | callStop | setStop
  | clearRunning => exact ⟨before.blocking, before.blocked⟩

/-- Whatever the callbacks, the owner and the worker do, the commands begin in the
order they were pushed, one at a time, and the worker never sleeps on one. -/
theorem commands_run_in_order_and_none_waits {s : Executor ι}
    (run : Reaches (step device_id) anyStep Executor.start s) : Orderly s := by
  have start : Accounted (Executor.start : Executor ι) ∧ Locked (Executor.start : Executor ι) ∧
      Heard (Executor.start : Executor ι) :=
    ⟨⟨rfl, rfl⟩, ⟨nofun, nofun⟩, ⟨nofun, nofun⟩⟩
  have all := run.invariant (I := fun r => Accounted r ∧ Locked r ∧ Heard r) start ?_
  · exact orderly_of_invariants all.1 all.2.2
  · intro r r' a ⟨accounted, locked, heard⟩ _ move
    have moves := moves_of_step move
    exact ⟨accounted_step accounted moves, locked_step locked moves,
      heard_step heard locked moves⟩

/-- Two commands from two callback threads: the second arrives while the first is
being executed, and the worker ends asleep with both done. -/
theorem two_commands_run_in_order :
    ∃ s : Executor (Fin 2), Reaches (step "d") anyStep Executor.start s ∧ s.worker = .blocked ∧
      s.begun = ["a", "b"] ∧ s.ended = ["a", "b"] ∧ Orderly s := by
  let run : List (Act (Fin 2)) :=
    [.message 0 "devices/d/commands" "a", .lockQueue 0, .push 0, .unlockQueue 0, .callStart,
      .clearStop, .setRunning, .spawn, .test, .lock, .notifyOne 0, .evaluate, .drain, .unlock,
      .message 1 "devices/d/update" "b", .lockQueue 1, .push 1, .unlockQueue 1, .notifyOne 1,
      .finish true, .relock, .drain, .unlock, .finish true, .relock, .drain, .leave, .test, .lock,
      .evaluate, .block]
  have reached : ∃ s, exec (step "d") Executor.start run = some s ∧ s.worker = .blocked ∧
      s.begun = ["a", "b"] ∧ s.ended = ["a", "b"] := ⟨_, rfl, rfl, rfl, rfl⟩
  obtain ⟨s, replay, asleep, begun, ended⟩ := reached
  have path := exec_reaches_any replay
  exact ⟨s, path, asleep, begun, ended, commands_run_in_order_and_none_waits path⟩

end OrbisAgent.Services.CommandOrder
