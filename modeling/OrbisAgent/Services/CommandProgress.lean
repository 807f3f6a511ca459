/- OrbisAgent/Services/CommandProgress
   source: CommandExecutor::processCommand, workerLoop
   digest: A command in the queue begins after four steps of the worker for each one before it and
   six more, and until it does the worker or a callback can go on, or a command before it runs. -/

import OrbisAgent.Services.CommandOrder
import OrbisAgent.Services.Supervised

set_option autoImplicit false
set_option relaxedAutoImplicit false

namespace OrbisAgent.Services.CommandProgress

open OrbisAgent.Lib.Supervision
open OrbisAgent.Lib.Transition
open OrbisAgent.Services.CommandOrder
open OrbisAgent.Services.CommandQueue
open OrbisAgent.Services.Supervised

universe u

variable {ι : Type u}

def serves : Act ι → Bool
  | .setStop => false
  | .finish returns => returns
  | _ => true

/-- Nobody stops the executor, and no exception leaves a command. -/
def Serving (_ : Executor ι) (a : Act ι) : Prop := serves a = true

instance servingDecidable (s : Executor ι) (a : Act ι) : Decidable (Serving s a) :=
  inferInstanceAs (Decidable (_ = _))

/-- A step of the worker before the nth command begins. -/
def waitsFor (n : Nat) (s : Executor ι) (a : Act ι) : Bool :=
  decide (executorRole a = .own) && decide (s.begun.length < n)

/-- The worker's own steps up to the next command, when there is one. -/
def ahead : Worker → Nat
  | .unlocking _ => 1
  | .draining => 2
  | .evaluating | .relocking => 3
  | .executing _ | .locking | .waking => 4
  | .testing | .blocked => 5
  | .blocking | .leaving => 6
  | .absent | .finished => 0

/-- The worker's own steps up to the nth command: four for each one in between. -/
def rank (n : Nat) (s : Executor ι) : Nat :=
  if n ≤ s.begun.length then 0 else ahead s.worker + 4 * (n - s.begun.length - 1)

/-- Whoever holds the mutex is in a section of it. -/
structure Held (s : Executor ι) : Prop where
  worker : s.mutex = some .worker → workerHolds s.worker = true
  caller : ∀ i, s.mutex = some (.caller i) → callerHolds (s.callers i) = true

/-- The executor runs, and the nth command has been pushed. -/
structure Served (n : Nat) (s : Executor ι) : Prop where
  accounted : Accounted s
  locked : Locked s
  held : Held s
  heard : Heard s
  sound : ExecutorSound s
  going : s.stop_requested = false
  alive : s.terminated = false
  present : s.worker ≠ .absent
  pushed : n ≤ s.enqueued.length

variable {n : Nat}

theorem ahead_le (w : Worker) : ahead w ≤ 6 := by
  cases w <;> simp [ahead]

theorem rank_le (n : Nat) (s : Executor ι) : rank n s ≤ 6 + 4 * (n - s.begun.length - 1) := by
  have most := ahead_le s.worker
  unfold rank
  split <;> omega

/-- A command that was pushed and has not begun is in the worker's hand or in the queue. -/
theorem queue_nonempty {s : Executor ι} (accounted : Accounted s) (pushed : n ≤ s.enqueued.length)
    (waits : s.begun.length < n) (hand : inHand s.worker = []) : s.queue ≠ [] := by
  intro empty
  have all := accounted.pushed
  rw [hand, empty, List.append_nil, List.append_nil] at all
  rw [all] at pushed
  omega

/-- A step that begins no command. -/
theorem rank_step {s s' : Executor ι} {k : Nat} (begun : s'.begun = s.begun)
    (less : s.begun.length < n → ahead s'.worker + k ≤ ahead s.worker) :
    rank n s' + (if s.begun.length < n then k else 0) ≤ rank n s := by
  rw [rank, rank, begun]
  by_cases done : n ≤ s.begun.length
  · rw [if_pos done, if_pos done, if_neg (Nat.not_lt.mpr done)]
  · have waits : s.begun.length < n := by omega
    have nearer := less waits
    rw [if_neg done, if_neg done, if_pos waits]
    omega

/-- The worker changes place without touching the mutex. -/
private theorem held_worker {s s' : Executor ι} (before : Held s) (mutex : s'.mutex = s.mutex)
    (callers : s'.callers = s.callers)
    (keeps : workerHolds s.worker = true → workerHolds s'.worker = true) : Held s' := by
  constructor
  · intro mine
    exact keeps (before.worker (mutex.symm.trans mine))
  · intro i mine
    rw [callers]
    exact before.caller i (mutex.symm.trans mine)

/-- Only the worker's steps count. -/
private theorem nearer_of {s s' : Executor ι} {a : Act ι} {k : Nat}
    (step : rank n s' + (if s.begun.length < n then k else 0) ≤ rank n s)
    (own : executorRole a = .own → k = 1) :
    rank n s' + (if waitsFor n s a then 1 else 0) ≤ rank n s := by
  unfold waitsFor
  by_cases mine : executorRole a = .own
  · obtain rfl := own mine
    simpa [mine] using step
  · rw [decide_eq_false mine, Bool.false_and, if_neg Bool.false_ne_true]
    omega

/-- The nth command begins, or one of those before it. -/
private theorem rank_unlock {s s' : Executor ι} {payload : String}
    (begun : s'.begun = s.begun ++ [payload]) (here : s.worker = .unlocking payload)
    (there : s'.worker = .executing payload) :
    rank n s' + (if s.begun.length < n then 1 else 0) ≤ rank n s := by
  have longer : s'.begun.length = s.begun.length + 1 := by
    rw [begun, List.length_append, List.length_singleton]
  rw [rank, rank, longer, here, there]
  simp only [ahead]
  by_cases done : n ≤ s.begun.length
  · rw [if_pos done, if_pos (by omega), if_neg (Nat.not_lt.mpr done)]
  · rw [if_neg done, if_pos (by omega : s.begun.length < n)]
    by_cases last : n ≤ s.begun.length + 1
    · rw [if_pos last]
      omega
    · rw [if_neg last]
      omega

variable [DecidableEq ι] {device_id : String}

private theorem held_caller {s : Executor ι} {i : ι} {pc : Caller} (before : Held s)
    (keeps : callerHolds (s.callers i) = true → callerHolds pc = true) :
    Held (s.setCaller i pc) := by
  refine ⟨before.worker, fun j mine => ?_⟩
  have holds := before.caller j mine
  by_cases same : j = i
  · subst same
    rw [setCaller_same]
    exact keeps holds
  · rw [setCaller_other _ _ same]
    exact holds

theorem held_step {s s' : Executor ι} {a : Act ι} (before : Held s)
    (next : Moves device_id s a s') : Held s' := by
  have free : ∀ {pc : Worker}, s.worker = pc → workerHolds pc = false →
      workerHolds s.worker = true → workerHolds s'.worker = true := by
    intro pc here no yes
    rw [here, no] at yes
    cases yes
  cases next with
  | message i _ _ here => exact held_caller before (by rw [here]; nofun)
  | lockQueue i payload here open_ =>
      refine ⟨nofun, fun j mine => ?_⟩
      cases mine
      rw [setCaller_same]
      rfl
  | push i payload here =>
      have same : Held { s with
          queue := s.queue ++ [payload], enqueued := s.enqueued ++ [payload] } :=
        ⟨before.worker, before.caller⟩
      exact held_caller same fun _ => rfl
  | unlockQueue i here => exact ⟨nofun, fun _ => nofun⟩
  | notifyOne i here =>
      have same : Held { s with notified := s.notified || decide (s.worker = .blocked) } :=
        ⟨before.worker, before.caller⟩
      exact held_caller same (by
        change callerHolds (s.callers i) = true → _
        rw [here]
        nofun)
  | otherMessage | callStart | startAgain | clearStop | setRunning | spawnTwice | callStop | setStop
  | clearRunning | notifyAll => exact ⟨before.worker, before.caller⟩
  | spawn here fresh => exact held_worker before rfl rfl (free fresh rfl)
  | join here ended =>
      rcases ended with gone | done
      · exact held_worker before rfl rfl (free gone rfl)
      · exact held_worker before rfl rfl (free done rfl)
  | test here | wake here | finish _ _ here => exact held_worker before rfl rfl (free here rfl)
  | proceed here | wait here | drained here | pop _ _ here =>
      exact held_worker before rfl rfl fun _ => rfl
  | lock | relockWait | relock => exact ⟨fun _ => rfl, fun _ => nofun⟩
  | block | unlock | leave => exact ⟨nofun, fun _ => nofun⟩

/-- The flag stays down and the worker stays. -/
theorem present_step {s s' : Executor ι} {a : Act ι} (sound : ExecutorSound s)
    (going : s.stop_requested = false) (present : s.worker ≠ .absent) (guard : Serving s a)
    (next : Moves device_id s a s') : s'.stop_requested = false ∧ s'.worker ≠ .absent := by
  cases next with
  | setStop => cases guard
  | clearStop => exact ⟨rfl, present⟩
  | spawn here fresh => exact absurd fresh present
  | join here ended =>
      rcases ended with gone | done
      · exact absurd gone present
      · have told := sound.told done
        rw [going] at told
        cases told
  | test here =>
      refine ⟨going, ?_⟩
      dsimp only
      split <;> nofun
  | lock | proceed | wait | block | wake | relockWait | drained | pop | unlock | finish | relock
  | leave => exact ⟨going, nofun⟩
  | _ => exact ⟨going, present⟩

theorem alive_step {s s' : Executor ι} {a : Act ι} (sound : ExecutorSound s)
    (alive : s.terminated = false) (guard : Serving s a) (next : Moves device_id s a s') :
    s'.terminated = false := by
  cases next with
  | spawnTwice here busy =>
      exact absurd (sound.threadless (by rw [executorPhase, here])) busy
  | finish returns payload here =>
      cases returns with
      | true => rfl
      | false => cases guard
  | _ => exact alive

theorem pushed_step {s s' : Executor ι} {a : Act ι} (pushed : n ≤ s.enqueued.length)
    (next : Moves device_id s a s') : n ≤ s'.enqueued.length := by
  cases next with
  | push i payload here =>
      change n ≤ (s.enqueued ++ [payload]).length
      rw [List.length_append]
      omega
  | _ => exact pushed

/-- Each step of the worker brings the nth command nearer, and no other step delays it. -/
theorem nearer_step {s s' : Executor ι} {a : Act ι} (before : Served n s)
    (next : Moves device_id s a s') :
    rank n s' + (if waitsFor n s a then 1 else 0) ≤ rank n s := by
  have nonempty := queue_nonempty before.accounted before.pushed
  cases next with
  | test here =>
      refine nearer_of (rank_step (k := 1) rfl fun _ => ?_) fun _ => rfl
      rw [here, if_neg (by rw [before.going]; exact Bool.false_ne_true)]
      exact Nat.le_refl _
  | wait here no =>
      refine nearer_of (rank_step (k := 1) rfl fun waits => ?_) fun _ => rfl
      have filled := nonempty waits (by rw [here]; rfl)
      simp [mayProceed, filled] at no
  | drained here empty =>
      refine nearer_of (rank_step (k := 1) rfl fun waits => ?_) fun _ => rfl
      exact absurd empty (nonempty waits (by rw [here]; rfl))
  | lock here | proceed here | block here | wake here | relockWait here | pop _ _ here
  | finish _ _ here | relock here | leave here =>
      refine nearer_of (rank_step (k := 1) rfl fun _ => ?_) fun _ => rfl
      rw [here]
      exact Nat.le_refl _
  | unlock payload here => exact nearer_of (rank_unlock rfl here rfl) fun _ => rfl
  | spawn here fresh => exact absurd fresh before.present
  | join here ended =>
      rcases ended with gone | done
      · exact absurd gone before.present
      · have told := before.sound.told done
        rw [before.going] at told
        cases told
  | message | otherMessage | lockQueue | push | unlockQueue | notifyOne | callStart | startAgain
  | clearStop | setRunning | spawnTwice | callStop | setStop | clearRunning | notifyAll =>
      exact nearer_of (rank_step (k := 0) rfl fun _ => Nat.le_refl _) fun own => by cases own

theorem served_step {s s' : Executor ι} {a : Act ι} (before : Served n s) (guard : Serving s a)
    (next : step device_id s a = some s') :
    Served n s' ∧ rank n s' + (if waitsFor n s a then 1 else 0) ≤ rank n s := by
  have move := moves_of_step next
  obtain ⟨going, present⟩ := present_step before.sound before.going before.present guard move
  refine ⟨?_, nearer_step before move⟩
  exact ⟨accounted_step before.accounted move, locked_step before.locked move,
    held_step before.held move, heard_step before.heard before.locked move,
    (Supervised.executor device_id).sound_step before.sound next, going,
    alive_step before.sound before.alive guard move, present, pushed_step before.pushed move⟩

/-- A step of the worker, not counting a spurious wake-up and the end of a command, or a step of a
callback that is in the mutex or on its way to notify. -/
def Helps (s : Executor ι) : Act ι → Prop
  | .wake => s.notified = true
  | .finish _ => False
  | .push _ | .unlockQueue _ | .notifyOne _ => True
  | a => executorRole a = .own

/-- A callback in the mutex can go on. -/
private theorem holder_enabled {s : Executor ι} {i : ι} (before : Served n s)
    (mine : s.mutex = some (.caller i)) :
    ∃ a t, Serving s a ∧ Helps s a ∧ step device_id s a = some t := by
  have alive := before.alive
  have holds := before.held.caller i mine
  cases here : s.callers i with
  | idle | entering _ | notifying =>
      rw [here] at holds
      cases holds
  | pushing payload =>
      exact ⟨.push i, _, rfl, trivial, by simp [step, move, alive, here]; rfl⟩
  | pushed =>
      exact ⟨.unlockQueue i, _, rfl, trivial,
        by simp [step, move, alive, here]; rfl⟩

/-- The worker takes the mutex, or whoever holds it goes on. -/
private theorem lock_enabled {s : Executor ι} {a : Act ι} (before : Served n s)
    (outside : workerHolds s.worker = false) (guard : Serving s a) (helps : Helps s a)
    (takes : s.mutex = none → ∃ t, step device_id s a = some t) :
    ∃ a t, Serving s a ∧ Helps s a ∧ step device_id s a = some t := by
  cases held : s.mutex with
  | none =>
      obtain ⟨t, next⟩ := takes held
      exact ⟨a, t, guard, helps, next⟩
  | some holder =>
      cases holder with
      | worker =>
          have inside := before.held.worker held
          rw [outside] at inside
          cases inside
      | caller i => exact holder_enabled before held

theorem served_enabled {s : Executor ι} (before : Served n s) (waits : s.begun.length < n)
    (free : ∀ payload, s.worker ≠ .executing payload) :
    ∃ a t, Serving s a ∧ Helps s a ∧ step device_id s a = some t := by
  have alive := before.alive
  cases here : s.worker with
  | absent => exact absurd here before.present
  | finished =>
      have told := before.sound.told here
      rw [before.going] at told
      cases told
  | testing =>
      exact ⟨.test, _, rfl, rfl, by simp [step, move, alive, here]; rfl⟩
  | locking =>
      refine lock_enabled (a := .lock) before (by rw [here]; rfl) rfl rfl
        fun free => ⟨_, by simp [step, move, alive, here, free]; rfl⟩
  | waking =>
      refine lock_enabled (a := .relockWait) before (by rw [here]; rfl) rfl rfl
        fun free => ⟨_, by simp [step, move, alive, here, free]; rfl⟩
  | relocking =>
      refine lock_enabled (a := .relock) before (by rw [here]; rfl) rfl rfl
        fun free => ⟨_, by simp [step, move, alive, here, free]; rfl⟩
  | evaluating =>
      exact ⟨.evaluate, _, rfl, rfl,
        by simp [step, move, alive, here]; rfl⟩
  | blocking =>
      exact ⟨.block, _, rfl, rfl, by simp [step, move, alive, here]; rfl⟩
  | blocked =>
      by_cases told : s.notified = true
      · exact ⟨.wake, _, rfl, told,
          by simp [step, move, alive, here]; rfl⟩
      · -- somebody who has pushed is on the way to notify
        have filled := queue_nonempty before.accounted before.pushed waits (by rw [here]; rfl)
        obtain ⟨i, coming⟩ := before.heard.blocked here (Bool.eq_false_iff.mpr told) filled
        cases there : s.callers i with
        | idle | entering _ | pushing _ =>
            rw [there] at coming
            cases coming
        | pushed =>
            exact ⟨.unlockQueue i, _, rfl, trivial,
              by simp [step, move, alive, there]; rfl⟩
        | notifying =>
            exact ⟨.notifyOne i, _, rfl, trivial,
              by simp [step, move, alive, there]; rfl⟩
  | draining =>
      have filled := queue_nonempty before.accounted before.pushed waits (by rw [here]; rfl)
      obtain ⟨payload, rest, queue⟩ := List.exists_cons_of_ne_nil filled
      exact ⟨.drain, _, rfl, rfl,
        by simp [step, move, alive, here, queue]; rfl⟩
  | unlocking payload =>
      exact ⟨.unlock, _, rfl, rfl, by simp [step, move, alive, here]; rfl⟩
  | executing payload => exact absurd here (free payload)
  | leaving =>
      exact ⟨.leave, _, rfl, rfl, by simp [step, move, alive, here]; rfl⟩

/-- From every reachable state of an executor that runs and is not being stopped, whatever the
callbacks and the owner do: the worker makes six steps at most, and four more for each command
before it, until the nth command that was pushed has begun; and until then the worker or a callback
in its way can go on, or the worker is inside an earlier command, which need not end. -/
theorem queued_command_begins {s t : Executor ι} {as : List (Act ι)}
    (run : Reaches (step device_id) anyStep Executor.start s) (going : s.stop_requested = false)
    (alive : s.terminated = false) (present : s.worker ≠ .absent)
    (pushed : n ≤ s.enqueued.length)
    (more : exec (guarded (step device_id) Serving) s as = some t) :
    countSteps (guarded (step device_id) Serving) (waitsFor n) s as ≤
        6 + 4 * (n - s.begun.length - 1) ∧
      (n ≤ t.begun.length ∨ (∃ payload, t.worker = .executing payload) ∨
        ∃ a u, Serving t a ∧ Helps t a ∧ step device_id t a = some u) := by
  have start : Accounted (Executor.start : Executor ι) ∧ Locked (Executor.start : Executor ι) ∧
      Held (Executor.start : Executor ι) ∧ Heard (Executor.start : Executor ι) ∧
      ExecutorSound (Executor.start : Executor ι) :=
    ⟨⟨rfl, rfl⟩, ⟨nofun, nofun⟩, ⟨nofun, fun _ => nofun⟩, ⟨nofun, nofun⟩, executorSound_start⟩
  have all := run.invariant (I := fun r => Accounted r ∧ Locked r ∧ Held r ∧ Heard r ∧
    ExecutorSound r) start ?_
  · obtain ⟨accounted, locked, held, heard, sound⟩ := all
    have served : Served n s :=
      ⟨accounted, locked, held, heard, sound, going, alive, present, pushed⟩
    have both : Served n t ∧ rank n t + countSteps (guarded (step device_id) Serving)
        (waitsFor n) s as ≤ rank n s := by
      refine countSteps_le (I := Served n) ?_ served more
      intro r r' a before next
      obtain ⟨guard, taken⟩ := guarded_eq_some next
      exact served_step before guard taken
    have most := rank_le n s
    refine ⟨by omega, ?_⟩
    by_cases done : n ≤ t.begun.length
    · exact .inl done
    · right
      by_cases inside : ∃ payload, t.worker = .executing payload
      · exact .inl inside
      · exact .inr (served_enabled both.1 (by omega) fun payload here => inside ⟨payload, here⟩)
  · intro r r' a ⟨accounted, locked, held, heard, sound⟩ _ next
    have move := moves_of_step next
    exact ⟨accounted_step accounted move, locked_step locked move, held_step held move,
      heard_step heard locked move, (Supervised.executor device_id).sound_step sound next⟩

/-- The second of two commands that arrive while the worker sleeps. -/
theorem second_command_begins :
    ∃ s t : Executor (Fin 2), Reaches (step "d") anyStep Executor.start s ∧
      s.begun = [] ∧ s.enqueued = ["a", "b"] ∧ t.begun = ["a"] ∧
      countSteps (guarded (step "d") Serving) (waitsFor 2) s
        [.wake, .relockWait, .evaluate, .drain, .unlock, .finish true] ≤ 10 ∧
      ∃ a u, Serving t a ∧ Helps t a ∧ step "d" t a = some u := by
  let before : List (Act (Fin 2)) :=
    [.callStart, .clearStop, .setRunning, .spawn, .test, .lock, .evaluate, .block,
      .message 0 "devices/d/commands" "a", .lockQueue 0, .push 0, .unlockQueue 0,
      .message 1 "devices/d/update" "b", .lockQueue 1, .push 1, .unlockQueue 1, .notifyOne 1]
  have replay : ∃ s, exec (step "d") Executor.start before = some s ∧ s.begun = [] ∧
      s.enqueued = ["a", "b"] ∧ s.stop_requested = false ∧ s.terminated = false ∧
      s.worker = .blocked ∧ ∃ t, exec (guarded (step "d") Serving) s
        [.wake, .relockWait, .evaluate, .drain, .unlock, .finish true] = some t ∧
          t.begun = ["a"] ∧ t.worker = .relocking :=
    ⟨_, rfl, rfl, rfl, rfl, rfl, rfl, _, rfl, rfl, rfl⟩
  obtain ⟨s, run, begun, enqueued, going, alive, asleep, t, more, first, back⟩ := replay
  have path := exec_reaches_any run
  obtain ⟨bound, goesOn⟩ := queued_command_begins (n := 2) path going alive (by rw [asleep]; nofun)
    (by rw [enqueued]; exact Nat.le_refl _) more
  rw [begun] at bound
  rw [first, back] at goesOn
  refine ⟨s, t, path, begun, enqueued, first, bound, ?_⟩
  rcases goesOn with done | ⟨payload, inside⟩ | enabled
  · exact absurd done (by decide)
  · cases inside
  · exact enabled

end OrbisAgent.Services.CommandProgress
