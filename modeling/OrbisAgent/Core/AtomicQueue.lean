/- OrbisAgent/Core/AtomicQueue
   source: MessageQueue::push, pop, size, shutdown
   digest: The queue behaves to its callers as a bounded first-in first-out list whose operations
   happen at one moment each. -/

import OrbisAgent.Core.MessageQueue
import OrbisAgent.Lib.Simulation

set_option autoImplicit false
set_option relaxedAutoImplicit false

namespace OrbisAgent.Core.AtomicQueue

open OrbisAgent.Core.MessageQueue
open OrbisAgent.Lib.Simulation
open OrbisAgent.Lib.Transition

universe u v

variable {ι : Type u} {μ : Type v}

/-- What an operation adds to a list that takes `max_size` messages at most. -/
def cameIn (max_size : Nat) (contents : List μ) : Call μ → List μ
  | .push msg => if max_size ≤ contents.length then [] else [msg]
  | _ => []

/-- What it takes out, from the front. -/
def wentOut (contents : List μ) : Call μ → List μ
  | .pop => contents.take 1
  | _ => []

def answerOf (contents : List μ) : Call μ → Answer μ
  | .push _ | .shutdown => .done
  | .pop => .popped contents.head?
  | .size => .sized contents.length

/-- A call of a thread, before and after its effect. -/
inductive Phase (μ : Type v)
  | outside
  | called (call : Call μ)
  | answered (answer : Answer μ)

/-- The last two lists are records: what came into the list, and what was taken out. -/
structure Atomic (ι : Type u) (μ : Type v) where
  phases : ι → Phase μ
  contents : List μ
  accepted : List μ
  taken : List μ

def Atomic.start : Atomic ι μ := ⟨fun _ => .outside, [], [], []⟩

inductive Event (ι : Type u) (μ : Type v)
  | call (i : ι) (call : Call μ)
  | effect (i : ι)
  | answer (i : ι) (answer : Answer μ)

/-- What a caller sees: the calls and the answers. -/
inductive Seen (ι : Type u) (μ : Type v)
  | call (i : ι) (call : Call μ)
  | answer (i : ι) (answer : Answer μ)

def shows : Event ι μ → Option (Seen ι μ)
  | .call i call => some (.call i call)
  | .effect _ => none
  | .answer i answer => some (.answer i answer)

def sees : Act ι μ → Option (Seen ι μ)
  | .call i call => some (.call i call)
  | .leave i answer => some (.answer i answer)
  | _ => none

/-- How far a call has come, for its caller. -/
def phase : Pc μ → Phase μ
  | .outside => .outside
  | .entering call => .called call
  | .pushing msg => .called (.push msg)
  | .testing _ | .blocking | .waiting | .relocking _ | .taking _ => .called .pop
  | .measuring => .called .size
  | .closing => .called .shutdown
  | .notifyingOne | .notifyingAll => .answered .done
  | .unlocking answer | .returning answer => .answered answer

section Steps

variable [DecidableEq ι]

def Atomic.setPhase (t : Atomic ι μ) (i : ι) (phase : Phase μ) : Atomic ι μ :=
  { t with phases := Function.update t.phases i phase }

/-- The effect of a call, all at once. -/
def Atomic.perform (max_size : Nat) (t : Atomic ι μ) (i : ι) (call : Call μ) : Atomic ι μ :=
  Atomic.setPhase { t with
    contents := t.contents.drop (wentOut t.contents call).length ++
      cameIn max_size t.contents call
    accepted := t.accepted ++ cameIn max_size t.contents call
    taken := t.taken ++ wentOut t.contents call } i (.answered (answerOf t.contents call))

def atomicStep [DecidableEq μ] (max_size : Nat) (t : Atomic ι μ) : Event ι μ → Option (Atomic ι μ)
  | .call i call =>
      match t.phases i with
      | .outside => some (t.setPhase i (.called call))
      | _ => none
  | .effect i =>
      match t.phases i with
      | .called call => some (t.perform max_size i call)
      | _ => none
  | .answer i answer =>
      match t.phases i with
      | .answered given => if given = answer then some (t.setPhase i .outside) else none
      | _ => none

/-- Messages go out in the order they came in, none twice, and the list stays in its bound. -/
structure Fifo (max_size : Nat) (t : Atomic ι μ) : Prop where
  inOrder : t.accepted = t.taken ++ t.contents
  bounded : t.contents.length ≤ max_size

theorem take_append_drop_wentOut (contents : List μ) (call : Call μ) :
    wentOut contents call ++ contents.drop (wentOut contents call).length = contents := by
  cases call with
  | pop => cases contents <;> rfl
  | push | size | shutdown => rfl

theorem length_cameIn (max_size : Nat) {contents : List μ} (call : Call μ)
    (bounded : contents.length ≤ max_size) :
    (contents.drop (wentOut contents call).length ++ cameIn max_size contents call).length ≤
      max_size := by
  cases call with
  | push msg =>
      change (contents ++ if max_size ≤ contents.length then [] else [msg]).length ≤ max_size
      split
      · rw [List.append_nil]
        exact bounded
      · rw [List.length_append, List.length_singleton]
        omega
  | pop | size | shutdown =>
      change (contents.drop _ ++ []).length ≤ max_size
      rw [List.append_nil, List.length_drop]
      omega

theorem fifo_step [DecidableEq μ] {max_size : Nat} {t t' : Atomic ι μ} {b : Event ι μ}
    (before : Fifo max_size t) (move : atomicStep max_size t b = some t') : Fifo max_size t' := by
  cases b with
  | call i call =>
      simp only [atomicStep] at move
      split at move <;> cases move
      exact ⟨before.inOrder, before.bounded⟩
  | effect i =>
      simp only [atomicStep] at move
      split at move <;> cases move
      rename_i call here
      refine ⟨?_, length_cameIn max_size call before.bounded⟩
      change t.accepted ++ _ = t.taken ++ _ ++ (_ ++ _)
      rw [before.inOrder, List.append_assoc, List.append_assoc, List.append_right_inj,
        ← List.append_assoc (wentOut t.contents call), take_append_drop_wentOut]
  | answer i answer =>
      simp only [atomicStep] at move
      split at move
      · split at move <;> cases move
        exact ⟨before.inOrder, before.bounded⟩
      · cases move

theorem fifo_of_exec [DecidableEq μ] {max_size : Nat} {t : Atomic ι μ} {bs : List (Event ι μ)}
    (run : exec (atomicStep max_size) Atomic.start bs = some t) : Fifo max_size t := by
  have path : Reaches (atomicStep max_size) anyStep Atomic.start t := exec_reaches_any run
  exact path.invariant ⟨rfl, Nat.zero_le _⟩ fun _ _ _ before _ move => fifo_step before move

/-- The same calls are in progress, and the same messages are in the queue. -/
structure Same (s : Queue ι μ) (t : Atomic ι μ) : Prop where
  sound : Sound s
  contents : t.contents = s.queue
  phases : ∀ j, t.phases j = phase (s.pcs j)

theorem same_update {s : Queue ι μ} {t : Atomic ι μ} (same : Same s t) (i : ι) (pc : Pc μ) (j : ι) :
    Function.update t.phases i (phase pc) j = phase (Function.update s.pcs i pc j) := by
  by_cases other : j = i
  · subst other
    rw [Function.update_self, Function.update_self]
  · rw [Function.update_of_ne other, Function.update_of_ne other]
    exact same.phases j

/-- A step that no caller sees and that leaves the messages alone. -/
theorem same_hidden {s s' : Queue ι μ} {t : Atomic ι μ} {i : ι} {pc : Pc μ} (same : Same s t)
    (sound : Sound s') (queue : s'.queue = s.queue) (pcs : s'.pcs = Function.update s.pcs i pc)
    (phases : phase pc = phase (s.pcs i)) : Same s' t := by
  refine ⟨sound, same.contents.trans queue.symm, fun j => ?_⟩
  rw [pcs, ← same_update same i pc j, phases, ← same.phases i, Function.update_eq_self]

/-- A waiter that is woken goes on with the same call. -/
theorem same_wakeUp {s : Queue ι μ} {t : Atomic ι μ} (same : Same s t) {j : ι}
    (waits : j ∈ s.waiters) (timedOut : Bool) : Same (s.wakeUp j timedOut) t := by
  have asleep := (same.sound.waiters j).mp waits
  exact same_hidden same (sound_wakeUp same.sound j timedOut) rfl rfl (by rw [asleep]; rfl)

theorem same_wakeAll {s : Queue ι μ} {t : Atomic ι μ} (same : Same s t) : Same s.wakeAll t := by
  refine ⟨sound_wakeAll same.sound, same.contents, fun j => ?_⟩
  rw [same.phases j]
  unfold Queue.wakeAll
  dsimp only
  split
  · rename_i waits
    rw [(same.sound.waiters j).mp waits]
    rfl
  · rfl

/-- The step of an operation at which it has its effect. -/
theorem same_effect [DecidableEq μ] {max_size : Nat} {s s' : Queue ι μ} {t : Atomic ι μ} {i : ι}
    {pc : Pc μ} {call : Call μ} (same : Same s t) (sound : Sound s')
    (here : phase (s.pcs i) = .called call)
    (pcs : s'.pcs = Function.update s.pcs i pc)
    (answers : phase pc = .answered (answerOf s.queue call))
    (queue : s'.queue =
      s.queue.drop (wentOut s.queue call).length ++ cameIn max_size s.queue call) :
    atomicStep max_size t (.effect i) = some (t.perform max_size i call) ∧
      Same s' (t.perform max_size i call) := by
  constructor
  · simp only [atomicStep, same.phases i, here]
  · refine ⟨sound, ?_, fun j => ?_⟩
    · rw [queue, ← same.contents]
      rfl
    · rw [pcs, ← same_update same i pc j, answers, ← same.contents]
      rfl

theorem step_simulates [DecidableEq μ] (max_size : Nat) :
    Simulates (step max_size) (atomicStep max_size) sees shows
      (Same : Queue ι μ → Atomic ι μ → Prop) := by
  intro s t a s' same done
  have move := moves_of_step done
  have sound := sound_step same.sound move
  -- the steps under the mutex that decide what a call does to the messages
  have decides : ∀ {i : ι} {pc : Pc μ} (call : Call μ), sees a = none →
      phase (s.pcs i) = .called call → s'.pcs = Function.update s.pcs i pc →
      phase pc = .answered (answerOf s.queue call) →
      s'.queue = s.queue.drop (wentOut s.queue call).length ++ cameIn max_size s.queue call →
      ∃ bs t', exec (atomicStep max_size) t bs = some t' ∧
        bs.filterMap shows = (sees a).toList ∧ Same s' t' := by
    intro i pc call hidden here pcs answers queue
    obtain ⟨happens, after⟩ := same_effect same sound here pcs answers queue
    exact matched_by_one (.effect i) happens hidden.symm after
  cases move with
  | call i call here =>
      have matched : atomicStep max_size t (.call i call) = some (t.setPhase i (.called call)) := by
        simp only [atomicStep, same.phases i, here, phase]
      exact matched_by_one _ matched rfl ⟨sound, same.contents, same_update same i (.entering call)⟩
  | leave i answer here =>
      have matched : atomicStep max_size t (.answer i answer) = some (t.setPhase i .outside) := by
        simp only [atomicStep, same.phases i, here, phase, if_true]
      exact matched_by_one _ matched rfl ⟨sound, same.contents, same_update same i .outside⟩
  | lock i call here free =>
      refine matched_by_nothing rfl (same_hidden same sound rfl rfl ?_)
      rw [here]
      cases call <;> rfl
  | relock i timedOut here free | proceed i timedOut here yes =>
      exact matched_by_nothing rfl (same_hidden same sound rfl rfl (by rw [here]; rfl))
  | expire i here no | wait i here no | block i here | unlock i answer here | notifyNone i here =>
      exact matched_by_nothing rfl (same_hidden same sound rfl rfl (by rw [here]; rfl))
  | full i msg here full =>
      refine decides (.push msg) rfl (by rw [here]; rfl) rfl rfl ?_
      change s.queue = s.queue ++ if max_size ≤ s.queue.length then [] else [msg]
      rw [if_pos full, List.append_nil]
  | enqueue i msg here room =>
      refine decides (.push msg) rfl (by rw [here]; rfl) rfl rfl ?_
      change s.queue ++ [msg] = s.queue ++ if max_size ≤ s.queue.length then [] else [msg]
      rw [if_neg (by omega)]
  | fail i ok here no =>
      have empty : s.queue = [] := by
        cases ok with
        | true => exact no rfl
        | false => exact same.sound.expired i here
      refine decides .pop rfl (by rw [here]; rfl) rfl ?_ ?_
      · rw [empty]
        rfl
      · change s.queue = _
        rw [empty]
        rfl
  | take i msg rest here next =>
      refine decides .pop rfl (by rw [here]; rfl) rfl ?_ ?_
      · rw [next]
        rfl
      · rw [next]
        exact (List.append_nil rest).symm
  | measure i here =>
      exact decides .size rfl (by rw [here]; rfl) rfl rfl (by simp [wentOut, cameIn]; rfl)
  | close i here =>
      exact decides .shutdown rfl (by rw [here]; rfl) rfl rfl (by simp [wentOut, cameIn]; rfl)
  | wake i timedOut waits => exact matched_by_nothing rfl (same_wakeUp same waits timedOut)
  | notifyOne i j here waits =>
      have woken := same_wakeUp same waits false
      have still : phase ((s.wakeUp j false).pcs i) = .answered .done := by
        rw [← woken.phases i, same.phases i, here]
        rfl
      exact matched_by_nothing rfl (same_hidden woken sound rfl rfl still.symm)
  | notifyAll i here =>
      have woken := same_wakeAll same
      have still : phase (s.wakeAll.pcs i) = .answered .done := by
        rw [← woken.phases i, same.phases i, here]
        rfl
      exact matched_by_nothing rfl (same_hidden woken sound rfl rfl still.symm)

/-- Whatever the threads do, and however they are scheduled, woken and timed out: their calls and
answers are those of a first-in first-out list whose operations happen at one moment each. -/
theorem queue_refines_atomic_list [DecidableEq μ] (max_size : Nat) {as : List (Act ι μ)}
    {s : Queue ι μ} (run : exec (step max_size) Queue.start as = some s) :
    ∃ bs t, exec (atomicStep max_size) Atomic.start bs = some t ∧
      bs.filterMap shows = as.filterMap sees ∧ t.contents = s.queue ∧ Fifo max_size t := by
  have start : Same (Queue.start : Queue ι μ) Atomic.start := ⟨sound_start, rfl, fun _ => rfl⟩
  obtain ⟨bs, t, atomic, seen, same⟩ := (step_simulates max_size).exec start run
  exact ⟨bs, t, atomic, seen, same.contents, fifo_of_exec atomic⟩

/-- A queue for one message: the first push wakes the sleeping `pop`, and a push that comes before
the message is taken is dropped. -/
theorem woken_pop_takes_the_first_message :
    let as : List (Act (Fin 2) String) :=
      [.call 1 .pop, .lock 1, .evaluate 1, .block 1, .call 0 (.push "a"), .lock 0, .enqueue 0,
        .notifyOne 0 (some 1), .unlock 0, .leave 0 .done, .call 0 (.push "b"), .lock 0, .enqueue 0,
        .unlock 0, .lock 1, .evaluate 1, .take 1, .unlock 1, .leave 1 (.popped (some "a"))]
    ∃ s, exec (step 1) Queue.start as = some s ∧ ∃ bs t,
      exec (atomicStep 1) Atomic.start bs = some t ∧ bs.filterMap shows = as.filterMap sees ∧
        t.contents = s.queue ∧ Fifo 1 t := by
  intro as
  have replay : ∃ s, exec (step 1) Queue.start as = some s := ⟨_, rfl⟩
  obtain ⟨s, run⟩ := replay
  exact ⟨s, run, queue_refines_atomic_list 1 run⟩

end Steps

end OrbisAgent.Core.AtomicQueue
