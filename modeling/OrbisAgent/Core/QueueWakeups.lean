/- OrbisAgent/Core/QueueWakeups
   source: MessageQueue::push, pop, shutdown
   digest: No pop() sleeps on a message that nobody is on the way to, and none sleeps after
   shutdown(). -/

import OrbisAgent.Core.MessageQueue
import Mathlib.Data.Fintype.Card

set_option autoImplicit false
set_option relaxedAutoImplicit false

namespace OrbisAgent.Core.QueueWakeups

open OrbisAgent.Core.MessageQueue
open OrbisAgent.Lib.Transition

universe u v

variable {ι : Type u} {μ : Type v}

/-- Awake in `pop`, or about to wake somebody: each of these threads sees to one message. -/
def attends : Pc μ → Bool
  | .entering .pop | .testing _ | .relocking _ | .taking _ | .notifyingOne => true
  | _ => false

/-- A step of `i` that does not send it to sleep leaves no new sleeper behind. -/
theorem sleeper_before {s s' : Queue ι μ} {i : ι} (others : ∀ j, j ≠ i → s'.pcs j = s.pcs j)
    (awake : s'.pcs i ≠ .waiting) (sleeper : ∃ j, s'.pcs j = .waiting) :
    ∃ j, s.pcs j = .waiting := by
  obtain ⟨j, asleep⟩ := sleeper
  refine ⟨j, ?_⟩
  rw [← others j fun same => awake (same ▸ asleep)]
  exact asleep

/-- The thread that is about to notify everybody is still there after a step of another one. -/
theorem closer_stays {s s' : Queue ι μ} {i : ι} (others : ∀ j, j ≠ i → s'.pcs j = s.pcs j)
    (mine : s.pcs i ≠ .notifyingAll) (closer : ∃ j, s.pcs j = .notifyingAll) :
    ∃ j, s'.pcs j = .notifyingAll := by
  obtain ⟨j, here⟩ := closer
  refine ⟨j, ?_⟩
  rw [others j fun same => mine (same ▸ here)]
  exact here

theorem nobody_waits {s : Queue ι μ} (sound : Sound s) (empty : s.waiters = []) (i : ι) :
    s.pcs i ≠ .waiting := by
  intro asleep
  have mem := (sound.waiters i).mpr asleep
  rw [empty] at mem
  cases mem

section Counting

variable [Fintype ι]

def attendants (s : Queue ι μ) : Finset ι := Finset.univ.filter fun i => attends (s.pcs i) = true

/-- While somebody sleeps there is a thread for each message, and after `shutdown()` somebody
sleeps only until its notification. -/
structure Heard (s : Queue ι μ) : Prop where
  attended : (∃ i, s.pcs i = .waiting) → s.queue.length ≤ (attendants s).card
  closed : s.shutdown = true → (∃ i, s.pcs i = .waiting) → ∃ i, s.pcs i = .notifyingAll

theorem mem_attendants {s : Queue ι μ} {i : ι} :
    i ∈ attendants s ↔ attends (s.pcs i) = true := by
  simp [attendants]

theorem heard_of_nobody {s : Queue ι μ} (nobody : ∀ i, s.pcs i ≠ .waiting) : Heard s := by
  constructor
  · rintro ⟨i, asleep⟩
    exact absurd asleep (nobody i)
  · rintro _ ⟨i, asleep⟩
    exact absurd asleep (nobody i)

theorem asleep_on_nothing {s : Queue ι μ} (empty : s.queue = []) (opened : s.shutdown = false) :
    Heard s := by
  constructor
  · intro _
    rw [empty]
    exact Nat.zero_le _
  · intro closed
    rw [opened] at closed
    cases closed

variable [DecidableEq ι]

/-- A step of `i` that goes on attending, or starts to. -/
theorem card_attendants_le {s s' : Queue ι μ} {i : ι} (others : ∀ j, j ≠ i → s'.pcs j = s.pcs j)
    (keeps : attends (s.pcs i) = true → attends (s'.pcs i) = true) :
    (attendants s).card ≤ (attendants s').card := by
  apply Finset.card_le_card
  intro j
  rw [mem_attendants, mem_attendants]
  intro attended
  by_cases same : j = i
  · subst same
    exact keeps attended
  · rw [others j same]
    exact attended

/-- A step of `i` takes one attendant away at most. -/
theorem card_attendants_le_succ {s s' : Queue ι μ} {i : ι}
    (others : ∀ j, j ≠ i → s'.pcs j = s.pcs j) :
    (attendants s).card ≤ (attendants s').card + 1 := by
  have covered : attendants s ⊆ insert i (attendants s') := by
    intro j
    rw [Finset.mem_insert, mem_attendants, mem_attendants]
    intro attended
    by_cases same : j = i
    · exact Or.inl same
    · rw [others j same]
      exact Or.inr attended
  exact (Finset.card_le_card covered).trans (Finset.card_insert_le i _)

/-- A new attendant. -/
theorem card_attendants_succ_le {s s' : Queue ι μ} {i : ι}
    (others : ∀ j, j ≠ i → s'.pcs j = s.pcs j) (absent : attends (s.pcs i) = false)
    (present : attends (s'.pcs i) = true) :
    (attendants s).card + 1 ≤ (attendants s').card := by
  have fresh : i ∉ attendants s := by
    rw [mem_attendants, absent]
    exact Bool.false_ne_true
  rw [← Finset.card_insert_of_notMem fresh]
  apply Finset.card_le_card
  intro j
  rw [Finset.mem_insert, mem_attendants, mem_attendants]
  rintro (rfl | attended)
  · exact present
  · by_cases same : j = i
    · subst same
      exact present
    · rw [others j same]
      exact attended

omit [Fintype ι] in
theorem others_setPc {s t : Queue ι μ} (pcs : t.pcs = s.pcs) (i : ι) (pc : Pc μ) (j : ι)
    (other : j ≠ i) : (t.setPc i pc).pcs j = s.pcs j := by
  rw [setPc_other t pc other, pcs]

/-- A step of `i` that adds no message and keeps its attention. -/
theorem heard_keep {s s' : Queue ι μ} {i : ι} (before : Heard s)
    (others : ∀ j, j ≠ i → s'.pcs j = s.pcs j) (awake : s'.pcs i ≠ .waiting)
    (queue : s'.queue = s.queue) (shutdown : s'.shutdown = s.shutdown)
    (mine : s.pcs i ≠ .notifyingAll)
    (keeps : attends (s.pcs i) = true → attends (s'.pcs i) = true) : Heard s' := by
  constructor
  · intro sleeper
    have enough := before.attended (sleeper_before others awake sleeper)
    rw [queue]
    exact enough.trans (card_attendants_le others keeps)
  · intro closed sleeper
    rw [shutdown] at closed
    exact closer_stays others mine (before.closed closed (sleeper_before others awake sleeper))

/-- A notification hands the attention of the thread that pushed to a sleeper. -/
private theorem heard_notifyOne {s : Queue ι μ} {i j : ι} (sound : Sound s) (before : Heard s)
    (here : s.pcs i = .notifyingOne) (waits : j ∈ s.waiters) :
    Heard ((s.wakeUp j false).setPc i (.unlocking .done)) := by
  have asleep := (sound.waiters j).mp waits
  have woken : (s.wakeUp j false).pcs j = .relocking false := setPc_same _ _ _
  have othersFirst : ∀ k, k ≠ j → (s.wakeUp j false).pcs k = s.pcs k :=
    others_setPc (t := { s with waiters := s.waiters.erase j }) rfl j _
  have othersThen := others_setPc (s := s.wakeUp j false) rfl i (.unlocking .done)
  constructor
  · intro _
    have enough := before.attended ⟨j, asleep⟩
    have more := card_attendants_succ_le othersFirst (by rw [asleep]; rfl) (by rw [woken]; rfl)
    have less := card_attendants_le_succ othersThen
    change s.queue.length ≤ _
    omega
  · intro closed _
    -- both threads would be under the mutex
    obtain ⟨k, closing⟩ := before.closed closed ⟨j, asleep⟩
    have both : k = i := by
      have mine := sound.mutex i (by rw [here]; rfl)
      have others := sound.mutex k (by rw [closing]; rfl)
      exact Option.some.inj (others.symm.trans mine)
    rw [both, here] at closing
    cases closing

private theorem heard_step {max_size : Nat} {s s' : Queue ι μ} {a : Act ι μ} (sound : Sound s)
    (after : Sound s') (before : Heard s) (move : Moves max_size s a s') : Heard s' := by
  -- how a step that only moves `i` on compares with the state before
  have moved : ∀ {i : ι} {pc pc' : Pc μ} {t : Queue ι μ}, t.pcs = s.pcs → t.queue = s.queue →
      t.shutdown = s.shutdown → s.pcs i = pc → pc' ≠ .waiting → pc ≠ .notifyingAll →
      (attends pc = true → attends pc' = true) → Heard (t.setPc i pc') := by
    intro i pc pc' t pcs queue shutdown here awake mine keeps
    have now : (t.setPc i pc').pcs i = pc' := setPc_same _ _ _
    refine heard_keep before (i := i) (fun j other => ?_) ?_ queue shutdown ?_ ?_
    · rw [setPc_other _ _ other, pcs]
    · rw [now]
      exact awake
    · rw [here]
      exact mine
    · rw [here, now]
      exact keeps
  cases move with
  | call i call here => exact moved rfl rfl rfl here nofun nofun nofun
  | lock i call here free =>
      refine moved rfl rfl rfl here ?_ nofun ?_ <;> cases call <;> simp [locked, attends]
  | relock i timedOut here free => exact moved rfl rfl rfl here nofun nofun fun _ => rfl
  | full i msg here full => exact moved rfl rfl rfl here nofun nofun nofun
  | proceed i timedOut here yes => exact moved rfl rfl rfl here nofun nofun fun _ => rfl
  | expire i here no => exact moved rfl rfl rfl here nofun nofun fun _ => rfl
  | measure i here => exact moved rfl rfl rfl here nofun nofun nofun
  | unlock i answer here => exact moved rfl rfl rfl here nofun nofun nofun
  | leave i answer here => exact moved rfl rfl rfl here nofun nofun nofun
  | enqueue i msg here room =>
      have now : (Queue.setPc { s with queue := s.queue ++ [msg] } i .notifyingOne).pcs i =
        .notifyingOne := setPc_same _ _ _
      have others := others_setPc (s := s) (t := { s with queue := s.queue ++ [msg] }) rfl i
        .notifyingOne
      constructor
      · intro sleeper
        have enough := before.attended (sleeper_before others (by rw [now]; nofun) sleeper)
        have more := card_attendants_succ_le others (by rw [here]; rfl) (by rw [now]; rfl)
        change (s.queue ++ [msg]).length ≤ _
        rw [List.length_append, List.length_singleton]
        omega
      · intro closed sleeper
        have slept := sleeper_before others (by rw [now]; nofun) sleeper
        exact closer_stays others (by rw [here]; nofun) (before.closed closed slept)
  | take i msg rest here next =>
      have now : (Queue.setPc { s with queue := rest } i (.unlocking (.popped (some msg)))).pcs i =
        .unlocking (.popped (some msg)) := setPc_same _ _ _
      have others := others_setPc (s := s) (t := { s with queue := rest }) rfl i
        (.unlocking (.popped (some msg)))
      constructor
      · intro sleeper
        have enough := before.attended (sleeper_before others (by rw [now]; nofun) sleeper)
        have less := card_attendants_le_succ others
        rw [next, List.length_cons] at enough
        change rest.length ≤ _
        omega
      · intro closed sleeper
        have slept := sleeper_before others (by rw [now]; nofun) sleeper
        exact closer_stays others (by rw [here]; nofun) (before.closed closed slept)
  | fail i ok here no =>
      have empty : s.queue = [] := by
        cases ok with
        | true => exact no rfl
        | false => exact sound.expired i here
      have others := others_setPc (s := s) rfl i (.unlocking (.popped none))
      constructor
      · intro _
        change s.queue.length ≤ _
        rw [empty]
        exact Nat.zero_le _
      · intro closed sleeper
        have slept := sleeper_before others (by rw [setPc_same]; nofun) sleeper
        exact closer_stays others (by rw [here]; nofun) (before.closed closed slept)
  | wait i here no => exact asleep_on_nothing (ready_eq_false no).1 (ready_eq_false no).2
  | block i here =>
      have found := sound.blocking i here
      exact asleep_on_nothing found.1 found.2
  | wake i timedOut waits =>
      have asleep := (sound.waiters i).mp waits
      have now : (s.wakeUp i timedOut).pcs i = .relocking timedOut := setPc_same _ _ _
      have others := others_setPc (s := s) (t := { s with waiters := s.waiters.erase i }) rfl i
        (.relocking timedOut)
      refine heard_keep before others ?_ rfl rfl (by rw [asleep]; nofun) fun _ => ?_
      · rw [now]
        nofun
      · rw [now]
        rfl
  | notifyOne i j here waits => exact heard_notifyOne sound before here waits
  | notifyNone i here nobody => exact heard_of_nobody (nobody_waits after nobody)
  | notifyAll i here => exact heard_of_nobody (nobody_waits after rfl)
  | close i here =>
      have others := others_setPc (s := s) (t := { s with shutdown := true }) rfl i .notifyingAll
      constructor
      · intro sleeper
        have enough := before.attended (sleeper_before others (by rw [setPc_same]; nofun) sleeper)
        have kept := card_attendants_le others (by rw [here]; nofun)
        exact enough.trans kept
      · intro _ _
        exact ⟨i, setPc_same _ _ _⟩

/-- Every thread is outside the queue or asleep in it. -/
def Quiet (s : Queue ι μ) : Prop := ∀ i, s.pcs i = .outside ∨ s.pcs i = .waiting

omit [DecidableEq ι] in
/-- When nothing goes on, nobody sleeps beside a message or after `shutdown()`. -/
theorem quiet_sleeper {s : Queue ι μ} (heard : Heard s) (quiet : Quiet s)
    (sleeper : ∃ i, s.pcs i = .waiting) : s.queue = [] ∧ s.shutdown = false := by
  constructor
  · have none : attendants s = ∅ := by
      ext i
      rw [mem_attendants]
      rcases quiet i with here | here <;> simp [here, attends]
    have enough := heard.attended sleeper
    rw [none, Finset.card_empty, Nat.le_zero] at enough
    exact List.length_eq_zero_iff.mp enough
  · rw [Bool.eq_false_iff]
    intro closed
    obtain ⟨j, closing⟩ := heard.closed closed sleeper
    rcases quiet j with here | here <;> rw [here] at closing <;> cases closing

/-- Whatever the threads do: while a `pop()` sleeps, the messages in the queue have as many threads
on the way to them, and `shutdown()` wakes it. So none sleeps on when all others are done. -/
theorem no_pop_sleeps_on_a_message [DecidableEq μ] {max_size : Nat} {s : Queue ι μ}
    (run : Reaches (step max_size) anyStep Queue.start s) :
    Heard s ∧ (Quiet s → (∃ i, s.pcs i = .waiting) → s.queue = [] ∧ s.shutdown = false) := by
  have start : Sound (Queue.start : Queue ι μ) ∧ Heard (Queue.start : Queue ι μ) :=
    ⟨sound_start, heard_of_nobody fun _ => nofun⟩
  have all := run.invariant (I := fun r => Sound r ∧ Heard r) start ?_
  · exact ⟨all.2, quiet_sleeper all.2⟩
  · intro r r' a ⟨sound, heard⟩ _ next
    have move := moves_of_step next
    have after := sound_step sound move
    exact ⟨after, heard_step sound after heard move⟩

end Counting

/-- Two sleepers, one message: one of them is on the way to it while the other sleeps on. -/
theorem one_push_wakes_one_of_two :
    ∃ s : Queue (Fin 3) String, Reaches (step 10) anyStep Queue.start s ∧ s.pcs 2 = .waiting ∧
      s.queue = ["a"] ∧
      (Heard s ∧ (Quiet s → (∃ i, s.pcs i = .waiting) → s.queue = [] ∧ s.shutdown = false)) := by
  let as : List (Act (Fin 3) String) :=
    [.call 1 .pop, .lock 1, .evaluate 1, .block 1, .call 2 .pop, .lock 2, .evaluate 2, .block 2,
      .call 0 (.push "a"), .lock 0, .enqueue 0, .notifyOne 0 (some 1), .unlock 0, .leave 0 .done]
  have replay : ∃ s, exec (step 10) Queue.start as = some s ∧ s.pcs 2 = .waiting ∧
      s.queue = ["a"] := ⟨_, rfl, rfl, rfl⟩
  obtain ⟨s, run, asleep, queue⟩ := replay
  have path := exec_reaches_any run
  exact ⟨s, path, asleep, queue, no_pop_sleeps_on_a_message path⟩

end OrbisAgent.Core.QueueWakeups
