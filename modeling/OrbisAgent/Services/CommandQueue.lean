/- OrbisAgent/Services/CommandQueue
   source: CommandExecutor: the message callback, start, stop, processCommand, workerLoop
   digest: The command queue between the callback threads, the worker and the thread that owns
   the executor, with queue_mutex_ and queue_cv_. -/

import OrbisAgent.Constants
import OrbisAgent.Lib.Transition
import Mathlib.Logic.Function.Basic

set_option autoImplicit false
set_option relaxedAutoImplicit false

namespace OrbisAgent.Services.CommandQueue

open OrbisAgent.Constants (topicFor TOPIC_COMMANDS_FMT TOPIC_UPDATE_FMT)
open OrbisAgent.Lib.Transition

universe u

/-- Where `worker_thread_` is in `workerLoop`. -/
inductive Worker
  /-- Not joinable. -/
  | absent
  /-- Before the test of `stop_requested_`. -/
  | testing
  /-- Before `lock` takes `queue_mutex_`. -/
  | locking
  /-- In the wait, holding the mutex, before the predicate. -/
  | evaluating
  /-- The predicate was false; before the mutex is released and the thread blocks. -/
  | blocking
  | blocked
  /-- Woken, before it has the mutex again. -/
  | waking
  /-- Before the test of the inner loop, holding the mutex. -/
  | draining
  /-- A payload was popped; before `lock.unlock()`. -/
  | unlocking (payload : String)
  | executing (payload : String)
  /-- Before `lock.lock()`. -/
  | relocking
  /-- The queue was empty; before `lock` is destroyed. -/
  | leaving
  | finished
  deriving DecidableEq

/-- Where the thread that calls `start` and `stop` is. -/
inductive Owner
  | idle
  | clearingStop
  | settingRunning
  | spawning
  | settingStop
  | clearingRunning
  | notifying
  | joining
  deriving DecidableEq

/-- Where a thread of the message callback is in `processCommand`. -/
inductive Caller
  | idle
  | entering (payload : String)
  /-- Holding the mutex, before and after the push. -/
  | pushing (payload : String)
  | pushed
  | notifying
  deriving DecidableEq

inductive Holder (ι : Type u)
  | worker
  | caller (i : ι)
  deriving DecidableEq

/-- `notified` is a notification that reached the blocked worker. The last three
lists are records: the payloads pushed, and those whose execution has begun and
has ended, each in order. -/
structure Executor (ι : Type u) where
  worker : Worker
  owner : Owner
  callers : ι → Caller
  queue : List String
  mutex : Option (Holder ι)
  stop_requested : Bool
  running : Bool
  notified : Bool
  terminated : Bool
  enqueued : List String
  begun : List String
  ended : List String

variable {ι : Type u}

def Executor.start : Executor ι :=
  ⟨.absent, .idle, fun _ => .idle, [], none, false, false, false, false, [], [], []⟩

inductive Act (ι : Type u)
  /-- The message callback runs in thread `i`. -/
  | message (i : ι) (topic payload : String)
  | lockQueue (i : ι)
  | push (i : ι)
  | unlockQueue (i : ι)
  | notifyOne (i : ι)
  | callStart
  | clearStop
  | setRunning
  | spawn
  | callStop
  | setStop
  | clearRunning
  | notifyAll
  | join
  | test
  | lock
  | evaluate
  | block
  /-- The worker leaves the blocked state; without a notification this is a
  spurious wake-up. -/
  | wake
  | relockWait
  | drain
  | unlock
  /-- `executeCommand` returns, or an exception leaves it. It need not do either: a shell command
  may run for ever, and a log record may wait for the lock of its own sink. -/
  | finish (returns : Bool)
  | relock
  | leave
  deriving DecidableEq

variable [DecidableEq ι]

def Executor.setCaller (s : Executor ι) (i : ι) (pc : Caller) : Executor ι :=
  { s with callers := Function.update s.callers i pc }

@[simp] theorem setCaller_same (s : Executor ι) (i : ι) (pc : Caller) :
    (s.setCaller i pc).callers i = pc := by
  simp [Executor.setCaller]

@[simp] theorem setCaller_other (s : Executor ι) {i j : ι} (pc : Caller) (h : j ≠ i) :
    (s.setCaller i pc).callers j = s.callers j := by
  simp [Executor.setCaller, h]

/-- The topics whose messages are commands. -/
def isCommandTopic (device_id topic : String) : Bool :=
  topic == topicFor TOPIC_COMMANDS_FMT device_id || topic == topicFor TOPIC_UPDATE_FMT device_id

/-- The predicate of the wait. -/
def mayProceed (s : Executor ι) : Bool := s.stop_requested || !s.queue.isEmpty

/-- One step while the process runs. -/
def move (device_id : String) (s : Executor ι) : Act ι → Option (Executor ι)
  | .message i topic payload =>
      if s.callers i = .idle then
        if isCommandTopic device_id topic then some (s.setCaller i (.entering payload)) else some s
      else none
  | .lockQueue i =>
      match s.callers i, s.mutex with
      | .entering payload, none =>
          some (Executor.setCaller { s with mutex := some (.caller i) } i (.pushing payload))
      | _, _ => none
  | .push i =>
      match s.callers i with
      | .pushing payload => some (Executor.setCaller
          { s with queue := s.queue ++ [payload], enqueued := s.enqueued ++ [payload] } i .pushed)
      | _ => none
  | .unlockQueue i =>
      match s.callers i with
      | .pushed => some (Executor.setCaller { s with mutex := none } i .notifying)
      | _ => none
  | .notifyOne i =>
      match s.callers i with
      | .notifying => some (Executor.setCaller
          { s with notified := s.notified || decide (s.worker = .blocked) } i .idle)
      | _ => none
  | .callStart =>
      if s.owner = .idle then
        if s.running then some s else some { s with owner := .clearingStop }
      else none
  | .clearStop =>
      if s.owner = .clearingStop then
        some { s with stop_requested := false, owner := .settingRunning }
      else none
  | .setRunning =>
      if s.owner = .settingRunning then some { s with running := true, owner := .spawning }
      else none
  | .spawn =>
      if s.owner = .spawning then
        -- assigning to a joinable std::thread ends the process
        if s.worker = .absent then some { s with worker := .testing, owner := .idle }
        else some { s with terminated := true }
      else none
  | .callStop => if s.owner = .idle then some { s with owner := .settingStop } else none
  | .setStop =>
      if s.owner = .settingStop then
        some { s with stop_requested := true, owner := .clearingRunning }
      else none
  | .clearRunning =>
      if s.owner = .clearingRunning then some { s with running := false, owner := .notifying }
      else none
  | .notifyAll =>
      if s.owner = .notifying then
        some { s with notified := s.notified || decide (s.worker = .blocked), owner := .joining }
      else none
  | .join =>
      if s.owner = .joining ∧ (s.worker = .absent ∨ s.worker = .finished) then
        some { s with worker := .absent, owner := .idle }
      else none
  | .test =>
      if s.worker = .testing then
        some { s with worker := if s.stop_requested then .finished else .locking }
      else none
  | .lock =>
      if s.worker = .locking ∧ s.mutex = none then
        some { s with mutex := some .worker, worker := .evaluating }
      else none
  | .evaluate =>
      if s.worker = .evaluating then
        some { s with worker := if mayProceed s then .draining else .blocking }
      else none
  | .block =>
      if s.worker = .blocking then some { s with mutex := none, worker := .blocked } else none
  | .wake =>
      if s.worker = .blocked then some { s with notified := false, worker := .waking } else none
  | .relockWait =>
      if s.worker = .waking ∧ s.mutex = none then
        some { s with mutex := some .worker, worker := .evaluating }
      else none
  | .drain =>
      if s.worker = .draining then
        match s.queue with
        | [] => some { s with worker := .leaving }
        | payload :: rest => some { s with queue := rest, worker := .unlocking payload }
      else none
  | .unlock =>
      match s.worker with
      | .unlocking payload => some { s with
          mutex := none, worker := .executing payload, begun := s.begun ++ [payload] }
      | _ => none
  | .finish returns =>
      match s.worker with
      | .executing payload => some { s with
          worker := .relocking, ended := s.ended ++ [payload], terminated := !returns }
      | _ => none
  | .relock =>
      if s.worker = .relocking ∧ s.mutex = none then
        some { s with mutex := some .worker, worker := .draining }
      else none
  | .leave =>
      if s.worker = .leaving then some { s with mutex := none, worker := .testing } else none

/-- An exception that leaves a thread ends the process. -/
def step (device_id : String) (s : Executor ι) (a : Act ι) : Option (Executor ι) :=
  if s.terminated then none else move device_id s a

/-- The steps, one constructor for each outcome, with what each needs. -/
inductive Moves (device_id : String) (s : Executor ι) : Act ι → Executor ι → Prop
  | message (i : ι) (topic payload : String) (here : s.callers i = .idle)
      (command : isCommandTopic device_id topic = true) :
      Moves device_id s (.message i topic payload) (s.setCaller i (.entering payload))
  | otherMessage (i : ι) (topic payload : String) (here : s.callers i = .idle)
      (other : isCommandTopic device_id topic = false) :
      Moves device_id s (.message i topic payload) s
  | lockQueue (i : ι) (payload : String) (here : s.callers i = .entering payload)
      (free : s.mutex = none) : Moves device_id s (.lockQueue i)
        (Executor.setCaller { s with mutex := some (.caller i) } i (.pushing payload))
  | push (i : ι) (payload : String) (here : s.callers i = .pushing payload) :
      Moves device_id s (.push i) (Executor.setCaller
        { s with queue := s.queue ++ [payload], enqueued := s.enqueued ++ [payload] } i .pushed)
  | unlockQueue (i : ι) (here : s.callers i = .pushed) : Moves device_id s (.unlockQueue i)
      (Executor.setCaller { s with mutex := none } i .notifying)
  | notifyOne (i : ι) (here : s.callers i = .notifying) : Moves device_id s (.notifyOne i)
      (Executor.setCaller
        { s with notified := s.notified || decide (s.worker = .blocked) } i .idle)
  | callStart (here : s.owner = .idle) (fresh : s.running = false) :
      Moves device_id s .callStart { s with owner := .clearingStop }
  | startAgain (here : s.owner = .idle) (already : s.running = true) :
      Moves device_id s .callStart s
  | clearStop (here : s.owner = .clearingStop) :
      Moves device_id s .clearStop { s with stop_requested := false, owner := .settingRunning }
  | setRunning (here : s.owner = .settingRunning) :
      Moves device_id s .setRunning { s with running := true, owner := .spawning }
  | spawn (here : s.owner = .spawning) (fresh : s.worker = .absent) :
      Moves device_id s .spawn { s with worker := .testing, owner := .idle }
  | spawnTwice (here : s.owner = .spawning) (busy : s.worker ≠ .absent) :
      Moves device_id s .spawn { s with terminated := true }
  | callStop (here : s.owner = .idle) : Moves device_id s .callStop { s with owner := .settingStop }
  | setStop (here : s.owner = .settingStop) :
      Moves device_id s .setStop { s with stop_requested := true, owner := .clearingRunning }
  | clearRunning (here : s.owner = .clearingRunning) :
      Moves device_id s .clearRunning { s with running := false, owner := .notifying }
  | notifyAll (here : s.owner = .notifying) : Moves device_id s .notifyAll
      { s with notified := s.notified || decide (s.worker = .blocked), owner := .joining }
  | join (here : s.owner = .joining) (ended : s.worker = .absent ∨ s.worker = .finished) :
      Moves device_id s .join { s with worker := .absent, owner := .idle }
  | test (here : s.worker = .testing) : Moves device_id s .test
      { s with worker := if s.stop_requested then .finished else .locking }
  | lock (here : s.worker = .locking) (free : s.mutex = none) :
      Moves device_id s .lock { s with mutex := some .worker, worker := .evaluating }
  | proceed (here : s.worker = .evaluating) (yes : mayProceed s = true) :
      Moves device_id s .evaluate { s with worker := .draining }
  | wait (here : s.worker = .evaluating) (no : mayProceed s = false) :
      Moves device_id s .evaluate { s with worker := .blocking }
  | block (here : s.worker = .blocking) :
      Moves device_id s .block { s with mutex := none, worker := .blocked }
  | wake (here : s.worker = .blocked) :
      Moves device_id s .wake { s with notified := false, worker := .waking }
  | relockWait (here : s.worker = .waking) (free : s.mutex = none) :
      Moves device_id s .relockWait { s with mutex := some .worker, worker := .evaluating }
  | drained (here : s.worker = .draining) (empty : s.queue = []) :
      Moves device_id s .drain { s with worker := .leaving }
  | pop (payload : String) (rest : List String) (here : s.worker = .draining)
      (next : s.queue = payload :: rest) :
      Moves device_id s .drain { s with queue := rest, worker := .unlocking payload }
  | unlock (payload : String) (here : s.worker = .unlocking payload) : Moves device_id s .unlock
      { s with mutex := none, worker := .executing payload, begun := s.begun ++ [payload] }
  | finish (returns : Bool) (payload : String) (here : s.worker = .executing payload) :
      Moves device_id s (.finish returns)
        { s with worker := .relocking, ended := s.ended ++ [payload], terminated := !returns }
  | relock (here : s.worker = .relocking) (free : s.mutex = none) :
      Moves device_id s .relock { s with mutex := some .worker, worker := .draining }
  | leave (here : s.worker = .leaving) :
      Moves device_id s .leave { s with mutex := none, worker := .testing }

private theorem moves_of_move {device_id : String} {s s' : Executor ι} {a : Act ι}
    (next : move device_id s a = some s') : Moves device_id s a s' := by
  cases a <;> simp only [move] at next
  case message i topic payload =>
    split at next
    · split at next <;> cases next
      · exact .message i topic payload ‹_› ‹_›
      · exact .otherMessage i topic payload ‹_› (Bool.eq_false_iff.mpr ‹_›)
    · cases next
  case lockQueue i =>
    split at next <;> cases next
    exact .lockQueue i _ ‹_› ‹_›
  case push i =>
    split at next <;> cases next
    exact .push i _ ‹_›
  case unlockQueue i =>
    split at next <;> cases next
    exact .unlockQueue i ‹_›
  case notifyOne i =>
    split at next <;> cases next
    exact .notifyOne i ‹_›
  case callStart =>
    split at next
    · split at next <;> cases next
      · exact .startAgain ‹_› ‹_›
      · exact .callStart ‹_› (Bool.eq_false_iff.mpr ‹_›)
    · cases next
  case spawn =>
    split at next
    · split at next <;> cases next
      · exact .spawn ‹_› ‹_›
      · exact .spawnTwice ‹_› ‹_›
    · cases next
  case join =>
    split at next <;> cases next
    rename_i ready
    exact .join ready.1 ready.2
  case lock =>
    split at next <;> cases next
    rename_i ready
    exact .lock ready.1 ready.2
  case evaluate =>
    split at next
    · rename_i here
      cases proceeds : mayProceed s <;> rw [proceeds] at next <;> cases next
      · exact .wait here proceeds
      · exact .proceed here proceeds
    · cases next
  case relockWait =>
    split at next <;> cases next
    rename_i ready
    exact .relockWait ready.1 ready.2
  case drain =>
    split at next
    · split at next <;> cases next
      · exact .drained ‹_› ‹_›
      · exact .pop _ _ ‹_› ‹_›
    · cases next
  case unlock =>
    split at next <;> cases next
    exact .unlock _ ‹_›
  case finish returns =>
    split at next <;> cases next
    exact .finish returns _ ‹_›
  case relock =>
    split at next <;> cases next
    rename_i ready
    exact .relock ready.1 ready.2
  case clearStop =>
    split at next <;> cases next
    exact .clearStop ‹_›
  case setRunning =>
    split at next <;> cases next
    exact .setRunning ‹_›
  case callStop =>
    split at next <;> cases next
    exact .callStop ‹_›
  case setStop =>
    split at next <;> cases next
    exact .setStop ‹_›
  case clearRunning =>
    split at next <;> cases next
    exact .clearRunning ‹_›
  case notifyAll =>
    split at next <;> cases next
    exact .notifyAll ‹_›
  case test =>
    split at next <;> cases next
    exact .test ‹_›
  case block =>
    split at next <;> cases next
    exact .block ‹_›
  case wake =>
    split at next <;> cases next
    exact .wake ‹_›
  case leave =>
    split at next <;> cases next
    exact .leave ‹_›

theorem moves_of_step {device_id : String} {s s' : Executor ι} {a : Act ι}
    (next : step device_id s a = some s') : Moves device_id s a s' := by
  unfold step at next
  split at next
  · cases next
  · exact moves_of_move next

end OrbisAgent.Services.CommandQueue
