/- OrbisAgent/Core/MessageQueue
   source: src/core/MessageQueue.hpp, src/core/MessageQueue.cpp
   digest: The bounded queue between the threads, with its mutex and its condition variable, step
   by step. -/

import OrbisAgent.Lib.Transition
import Mathlib.Data.List.Nodup
import Mathlib.Logic.Function.Basic

set_option autoImplicit false
set_option relaxedAutoImplicit false

namespace OrbisAgent.Core.MessageQueue

open OrbisAgent.Lib.Transition

universe u v

/-- The operations. The timeout of a `pop` may elapse at any moment. -/
inductive Call (μ : Type v)
  | push (msg : μ)
  | pop
  | size
  | shutdown
  deriving DecidableEq

/-- What they return; `popped none` is `false`. -/
inductive Answer (μ : Type v)
  | done
  | popped (msg : Option μ)
  | sized (n : Nat)
  deriving DecidableEq

/-- Where a thread is. -/
inductive Pc (μ : Type v)
  | outside
  /-- Before the mutex is locked. -/
  | entering (call : Call μ)
  | pushing (msg : μ)
  | notifyingOne
  /-- Before the predicate of the wait; `timedOut` once the time is up. -/
  | testing (timedOut : Bool)
  | blocking
  /-- In the condition variable. -/
  | waiting
  | relocking (timedOut : Bool)
  /-- Behind `wait_for`, which has returned `ok`. -/
  | taking (ok : Bool)
  | measuring
  | closing
  | notifyingAll
  | unlocking (answer : Answer μ)
  | returning (answer : Answer μ)
  deriving DecidableEq

/-- `waiters` are the threads in the condition variable. -/
structure Queue (ι : Type u) (μ : Type v) where
  pcs : ι → Pc μ
  queue : List μ
  shutdown : Bool
  mutex : Option ι
  waiters : List ι

variable {ι : Type u} {μ : Type v}

def Queue.start : Queue ι μ := ⟨fun _ => .outside, [], false, none, []⟩

inductive Act (ι : Type u) (μ : Type v)
  | call (i : ι) (call : Call μ)
  | lock (i : ι)
  | enqueue (i : ι)
  /-- `notify_one` wakes the given waiter, if there is one. -/
  | notifyOne (i : ι) (woken : Option ι)
  | evaluate (i : ι)
  | block (i : ι)
  /-- A wake-up without a notification: spurious, or at the timeout. -/
  | wake (i : ι) (timedOut : Bool)
  | take (i : ι)
  | measure (i : ι)
  | close (i : ι)
  | notifyAll (i : ι)
  | unlock (i : ι)
  | leave (i : ι) (answer : Answer μ)
  deriving DecidableEq

/-- The predicate of the wait. -/
def Queue.ready (s : Queue ι μ) : Bool := !s.queue.isEmpty || s.shutdown

/-- What an operation does first under the mutex. -/
def locked : Call μ → Pc μ
  | .push msg => .pushing msg
  | .pop => .testing false
  | .size => .measuring
  | .shutdown => .closing

/-- The places under the mutex. -/
def holds : Pc μ → Bool
  | .outside | .entering _ | .waiting | .relocking _ | .returning _ => false
  | _ => true

/-- Who is in an operation past its lock holds the mutex, the waiters are those who wait, and a
thread that gives up or goes to sleep has found no message. -/
structure Sound (s : Queue ι μ) : Prop where
  mutex : ∀ i, holds (s.pcs i) = true → s.mutex = some i
  waiters : ∀ i, i ∈ s.waiters ↔ s.pcs i = .waiting
  distinct : s.waiters.Nodup
  expired : ∀ i, s.pcs i = .taking false → s.queue = []
  blocking : ∀ i, s.pcs i = .blocking → s.queue = [] ∧ s.shutdown = false

theorem sound_start : Sound (Queue.start : Queue ι μ) :=
  ⟨nofun, fun _ => ⟨nofun, nofun⟩, List.nodup_nil, nofun, nofun⟩

theorem ready_eq_false {s : Queue ι μ} (no : s.ready = false) :
    s.queue = [] ∧ s.shutdown = false := by
  unfold Queue.ready at no
  rw [Bool.or_eq_false_iff] at no
  exact ⟨by simpa using no.1, no.2⟩

/-- Nobody else is under the mutex. -/
theorem Sound.alone {s : Queue ι μ} (sound : Sound s) {i : ι} (mine : holds (s.pcs i) = true)
    (j : ι) (other : j ≠ i) : holds (s.pcs j) = false := by
  rw [Bool.eq_false_iff]
  intro his
  have same : some j = some i := (sound.mutex j his).symm.trans (sound.mutex i mine)
  exact other (Option.some.inj same)

theorem Sound.free {s : Queue ι μ} (sound : Sound s) (free : s.mutex = none) (j : ι) :
    holds (s.pcs j) = false := by
  rw [Bool.eq_false_iff]
  intro his
  have held := sound.mutex j his
  rw [free] at held
  cases held

variable [DecidableEq ι]

def Queue.setPc (s : Queue ι μ) (i : ι) (pc : Pc μ) : Queue ι μ :=
  { s with pcs := Function.update s.pcs i pc }

@[simp] theorem setPc_same (s : Queue ι μ) (i : ι) (pc : Pc μ) : (s.setPc i pc).pcs i = pc := by
  simp [Queue.setPc]

@[simp] theorem setPc_other (s : Queue ι μ) {i j : ι} (pc : Pc μ) (h : j ≠ i) :
    (s.setPc i pc).pcs j = s.pcs j := by
  simp [Queue.setPc, h]

/-- A waiter leaves the condition variable. -/
def Queue.wakeUp (s : Queue ι μ) (j : ι) (timedOut : Bool) : Queue ι μ :=
  Queue.setPc { s with waiters := s.waiters.erase j } j (.relocking timedOut)

/-- All waiters leave it. -/
def Queue.wakeAll (s : Queue ι μ) : Queue ι μ :=
  { s with
    pcs := fun j => if j ∈ s.waiters then .relocking false else s.pcs j
    waiters := [] }

def step [DecidableEq μ] (max_size : Nat) (s : Queue ι μ) : Act ι μ → Option (Queue ι μ)
  | .call i call =>
      match s.pcs i with
      | .outside => some (s.setPc i (.entering call))
      | _ => none
  | .lock i =>
      match s.pcs i, s.mutex with
      | .entering call, none => some (Queue.setPc { s with mutex := some i } i (locked call))
      | .relocking timedOut, none =>
          some (Queue.setPc { s with mutex := some i } i (.testing timedOut))
      | _, _ => none
  | .enqueue i =>
      match s.pcs i with
      | .pushing msg =>
          if max_size ≤ s.queue.length then some (s.setPc i (.unlocking .done))
          else some (Queue.setPc { s with queue := s.queue ++ [msg] } i .notifyingOne)
      | _ => none
  | .notifyOne i woken =>
      match s.pcs i, woken with
      | .notifyingOne, some j =>
          if j ∈ s.waiters then some ((s.wakeUp j false).setPc i (.unlocking .done)) else none
      | .notifyingOne, none =>
          if s.waiters.isEmpty then some (s.setPc i (.unlocking .done)) else none
      | _, _ => none
  | .evaluate i =>
      match s.pcs i with
      | .testing timedOut =>
          if s.ready then some (s.setPc i (.taking true))
          else if timedOut then some (s.setPc i (.taking false))
          else some (s.setPc i .blocking)
      | _ => none
  | .block i =>
      match s.pcs i with
      | .blocking =>
          some (Queue.setPc { s with mutex := none, waiters := s.waiters ++ [i] } i .waiting)
      | _ => none
  | .wake i timedOut => if i ∈ s.waiters then some (s.wakeUp i timedOut) else none
  | .take i =>
      match s.pcs i with
      | .taking ok =>
          match ok, s.queue with
          | true, msg :: rest =>
              some (Queue.setPc { s with queue := rest } i (.unlocking (.popped (some msg))))
          | _, _ => some (s.setPc i (.unlocking (.popped none)))
      | _ => none
  | .measure i =>
      match s.pcs i with
      | .measuring => some (s.setPc i (.unlocking (.sized s.queue.length)))
      | _ => none
  | .close i =>
      match s.pcs i with
      | .closing => some (Queue.setPc { s with shutdown := true } i .notifyingAll)
      | _ => none
  | .notifyAll i =>
      match s.pcs i with
      | .notifyingAll => some (s.wakeAll.setPc i (.unlocking .done))
      | _ => none
  | .unlock i =>
      match s.pcs i with
      | .unlocking answer => some (Queue.setPc { s with mutex := none } i (.returning answer))
      | _ => none
  | .leave i answer =>
      match s.pcs i with
      | .returning given => if given = answer then some (s.setPc i .outside) else none
      | _ => none

/-- The steps, one constructor for each outcome, with what each needs. -/
inductive Moves (max_size : Nat) (s : Queue ι μ) : Act ι μ → Queue ι μ → Prop
  | call (i : ι) (call : Call μ) (here : s.pcs i = .outside) :
      Moves max_size s (.call i call) (s.setPc i (.entering call))
  | lock (i : ι) (call : Call μ) (here : s.pcs i = .entering call) (free : s.mutex = none) :
      Moves max_size s (.lock i) (Queue.setPc { s with mutex := some i } i (locked call))
  | relock (i : ι) (timedOut : Bool) (here : s.pcs i = .relocking timedOut)
      (free : s.mutex = none) :
      Moves max_size s (.lock i) (Queue.setPc { s with mutex := some i } i (.testing timedOut))
  | full (i : ι) (msg : μ) (here : s.pcs i = .pushing msg) (full : max_size ≤ s.queue.length) :
      Moves max_size s (.enqueue i) (s.setPc i (.unlocking .done))
  | enqueue (i : ι) (msg : μ) (here : s.pcs i = .pushing msg) (room : s.queue.length < max_size) :
      Moves max_size s (.enqueue i)
        (Queue.setPc { s with queue := s.queue ++ [msg] } i .notifyingOne)
  | notifyOne (i j : ι) (here : s.pcs i = .notifyingOne) (waits : j ∈ s.waiters) :
      Moves max_size s (.notifyOne i (some j)) ((s.wakeUp j false).setPc i (.unlocking .done))
  | notifyNone (i : ι) (here : s.pcs i = .notifyingOne) (nobody : s.waiters = []) :
      Moves max_size s (.notifyOne i none) (s.setPc i (.unlocking .done))
  | proceed (i : ι) (timedOut : Bool) (here : s.pcs i = .testing timedOut)
      (yes : s.ready = true) : Moves max_size s (.evaluate i) (s.setPc i (.taking true))
  | expire (i : ι) (here : s.pcs i = .testing true) (no : s.ready = false) :
      Moves max_size s (.evaluate i) (s.setPc i (.taking false))
  | wait (i : ι) (here : s.pcs i = .testing false) (no : s.ready = false) :
      Moves max_size s (.evaluate i) (s.setPc i .blocking)
  | block (i : ι) (here : s.pcs i = .blocking) : Moves max_size s (.block i)
      (Queue.setPc { s with mutex := none, waiters := s.waiters ++ [i] } i .waiting)
  | wake (i : ι) (timedOut : Bool) (waits : i ∈ s.waiters) :
      Moves max_size s (.wake i timedOut) (s.wakeUp i timedOut)
  | fail (i : ι) (ok : Bool) (here : s.pcs i = .taking ok) (no : ok = true → s.queue = []) :
      Moves max_size s (.take i) (s.setPc i (.unlocking (.popped none)))
  | take (i : ι) (msg : μ) (rest : List μ) (here : s.pcs i = .taking true)
      (next : s.queue = msg :: rest) : Moves max_size s (.take i)
        (Queue.setPc { s with queue := rest } i (.unlocking (.popped (some msg))))
  | measure (i : ι) (here : s.pcs i = .measuring) :
      Moves max_size s (.measure i) (s.setPc i (.unlocking (.sized s.queue.length)))
  | close (i : ι) (here : s.pcs i = .closing) :
      Moves max_size s (.close i) (Queue.setPc { s with shutdown := true } i .notifyingAll)
  | notifyAll (i : ι) (here : s.pcs i = .notifyingAll) :
      Moves max_size s (.notifyAll i) (s.wakeAll.setPc i (.unlocking .done))
  | unlock (i : ι) (answer : Answer μ) (here : s.pcs i = .unlocking answer) :
      Moves max_size s (.unlock i) (Queue.setPc { s with mutex := none } i (.returning answer))
  | leave (i : ι) (answer : Answer μ) (here : s.pcs i = .returning answer) :
      Moves max_size s (.leave i answer) (s.setPc i .outside)

theorem moves_of_step [DecidableEq μ] {max_size : Nat} {s s' : Queue ι μ} {a : Act ι μ}
    (next : step max_size s a = some s') : Moves max_size s a s' := by
  cases a <;> simp only [step] at next
  case call i call =>
    split at next <;> cases next
    exact .call i call ‹_›
  case lock i =>
    split at next <;> cases next
    · exact .lock i _ ‹_› ‹_›
    · exact .relock i _ ‹_› ‹_›
  case enqueue i =>
    split at next
    · rename_i msg here
      by_cases full : max_size ≤ s.queue.length
      · rw [if_pos full] at next
        cases next
        exact .full i msg here full
      · rw [if_neg full] at next
        cases next
        exact .enqueue i msg here (by omega)
    · cases next
  case notifyOne i woken =>
    split at next
    · split at next <;> cases next
      exact .notifyOne i _ ‹_› ‹_›
    · split at next <;> cases next
      exact .notifyNone i ‹_› (List.isEmpty_iff.mp ‹_›)
    · cases next
  case evaluate i =>
    split at next
    · rename_i timedOut here
      cases ready : s.ready with
      | true =>
          rw [if_pos ready] at next
          cases next
          exact .proceed i timedOut here ready
      | false =>
          rw [if_neg (by rw [ready]; exact Bool.false_ne_true)] at next
          cases timedOut <;> cases next
          · exact .wait i here ready
          · exact .expire i here ready
    · cases next
  case block i =>
    split at next <;> cases next
    exact .block i ‹_›
  case wake i timedOut =>
    split at next <;> cases next
    exact .wake i timedOut ‹_›
  case take i =>
    split at next
    · rename_i ok here
      cases ok with
      | false =>
          cases next
          exact .fail i false here nofun
      | true =>
          cases left : s.queue with
          | nil =>
              rw [left] at next
              cases next
              exact .fail i true here fun _ => left
          | cons msg rest =>
              rw [left] at next
              cases next
              exact .take i msg rest here left
    · cases next
  case measure i =>
    split at next <;> cases next
    exact .measure i ‹_›
  case close i =>
    split at next <;> cases next
    exact .close i ‹_›
  case notifyAll i =>
    split at next <;> cases next
    exact .notifyAll i ‹_›
  case unlock i =>
    split at next <;> cases next
    exact .unlock i _ ‹_›
  case leave i answer =>
    split at next
    · split at next <;> cases next
      rename_i given here same
      subst same
      exact .leave i given here
    · cases next

/-- A step of a thread while nobody else is under the mutex. -/
private theorem sound_alone {s s' : Queue ι μ} {i : ι} {pc : Pc μ} (before : Sound s)
    (alone : ∀ j, j ≠ i → holds (s.pcs j) = false) (pcs : s'.pcs = Function.update s.pcs i pc)
    (waiters : s'.waiters = s.waiters) (awake : s.pcs i ≠ .waiting) (stays : pc ≠ .waiting)
    (mutex : holds pc = true → s'.mutex = some i) (expired : pc = .taking false → s'.queue = [])
    (blocking : pc = .blocking → s'.queue = [] ∧ s'.shutdown = false) : Sound s' := by
  have mine : s'.pcs i = pc := by rw [pcs, Function.update_self]
  have others : ∀ j, j ≠ i → s'.pcs j = s.pcs j := by
    intro j other
    rw [pcs, Function.update_of_ne other]
  refine ⟨?_, ?_, ?_, ?_, ?_⟩
  · intro j held
    by_cases other : j = i
    · subst other
      rw [mine] at held
      exact mutex held
    · rw [others j other, alone j other] at held
      cases held
  · intro j
    rw [waiters]
    by_cases other : j = i
    · subst other
      rw [mine, before.waiters]
      exact iff_of_false awake stays
    · rw [others j other]
      exact before.waiters j
  · rw [waiters]
    exact before.distinct
  · intro j here
    by_cases other : j = i
    · subst other
      rw [mine] at here
      exact expired here
    · have out := alone j other
      rw [← others j other, here] at out
      cases out
  · intro j here
    by_cases other : j = i
    · subst other
      rw [mine] at here
      exact blocking here
    · have out := alone j other
      rw [← others j other, here] at out
      cases out

/-- A step of a thread outside the mutex. -/
private theorem sound_outsider {s : Queue ι μ} {i : ι} {pc : Pc μ} (before : Sound s)
    (awake : s.pcs i ≠ .waiting) (stays : pc ≠ .waiting) (out : holds pc = false) :
    Sound (s.setPc i pc) := by
  refine ⟨?_, ?_, before.distinct, ?_, ?_⟩
  · intro j held
    by_cases other : j = i
    · subst other
      rw [setPc_same, out] at held
      cases held
    · rw [setPc_other s pc other] at held
      exact before.mutex j held
  · intro j
    by_cases other : j = i
    · subst other
      rw [setPc_same]
      exact iff_of_false (fun mem => awake ((before.waiters j).mp mem)) stays
    · rw [setPc_other s pc other]
      exact before.waiters j
  · intro j here
    by_cases other : j = i
    · subst other
      rw [setPc_same] at here
      rw [here] at out
      cases out
    · rw [setPc_other s pc other] at here
      exact before.expired j here
  · intro j here
    by_cases other : j = i
    · subst other
      rw [setPc_same] at here
      rw [here] at out
      cases out
    · rw [setPc_other s pc other] at here
      exact before.blocking j here

theorem sound_wakeUp {s : Queue ι μ} (before : Sound s) (j : ι) (timedOut : Bool) :
    Sound (s.wakeUp j timedOut) := by
  have mine : (s.wakeUp j timedOut).pcs j = .relocking timedOut := setPc_same _ _ _
  have others : ∀ k, k ≠ j → (s.wakeUp j timedOut).pcs k = s.pcs k :=
    fun k other => setPc_other _ _ other
  have keeps : ∀ k, holds ((s.wakeUp j timedOut).pcs k) = true →
      (s.wakeUp j timedOut).pcs k = s.pcs k := by
    intro k held
    by_cases other : k = j
    · subst other
      rw [mine] at held
      cases held
    · exact others k other
  refine ⟨?_, ?_, before.distinct.erase j, ?_, ?_⟩
  · intro k held
    have same := keeps k held
    rw [same] at held
    exact before.mutex k held
  · intro k
    by_cases other : k = j
    · subst other
      rw [mine]
      exact iff_of_false before.distinct.not_mem_erase nofun
    · rw [others k other, ← before.waiters]
      exact List.mem_erase_of_ne other
  · intro k here
    have same := keeps k (by rw [here]; rfl)
    exact before.expired k (same.symm.trans here)
  · intro k here
    have same := keeps k (by rw [here]; rfl)
    exact before.blocking k (same.symm.trans here)

theorem sound_wakeAll {s : Queue ι μ} (before : Sound s) : Sound s.wakeAll := by
  have keeps : ∀ k, holds (s.wakeAll.pcs k) = true → s.wakeAll.pcs k = s.pcs k := by
    intro k held
    unfold Queue.wakeAll at held ⊢
    dsimp only at held ⊢
    split at held
    · cases held
    · rename_i awake
      rw [if_neg awake]
  refine ⟨?_, ?_, List.nodup_nil, ?_, ?_⟩
  · intro k held
    have same := keeps k held
    rw [same] at held
    exact before.mutex k held
  · intro k
    refine iff_of_false List.not_mem_nil ?_
    unfold Queue.wakeAll
    dsimp only
    split
    · nofun
    · rename_i awake
      exact fun here => awake ((before.waiters k).mpr here)
  · intro k here
    have same := keeps k (by rw [here]; rfl)
    exact before.expired k (same.symm.trans here)
  · intro k here
    have same := keeps k (by rw [here]; rfl)
    exact before.blocking k (same.symm.trans here)

/-- A thread goes to sleep and unlocks the mutex. -/
private theorem sound_block {s : Queue ι μ} {i : ι} (before : Sound s)
    (here : s.pcs i = .blocking) : Sound
      (Queue.setPc { s with mutex := none, waiters := s.waiters ++ [i] } i .waiting) := by
  have alone := before.alone (i := i) (by rw [here]; rfl)
  have awake : i ∉ s.waiters := by
    rw [before.waiters, here]
    nofun
  have out : ∀ j, holds ((s.setPc i .waiting).pcs j) = false := by
    intro j
    by_cases other : j = i
    · subst other
      rw [setPc_same]
      rfl
    · rw [setPc_other s _ other]
      exact alone j other
  have nobody : ∀ j pc, holds pc = true → (s.setPc i .waiting).pcs j ≠ pc := by
    intro j pc held same
    rw [← same, out j] at held
    cases held
  refine ⟨fun j held => ?_, fun j => ?_, ?_, fun j here => ?_, fun j here => ?_⟩
  · exact absurd rfl (nobody j _ held)
  · change j ∈ s.waiters ++ [i] ↔ (s.setPc i .waiting).pcs j = .waiting
    rw [List.mem_append, List.mem_singleton]
    by_cases other : j = i
    · subst other
      rw [setPc_same]
      exact iff_of_true (Or.inr rfl) rfl
    · rw [setPc_other s _ other, before.waiters]
      exact or_iff_left other
  · apply List.nodup_append.mpr
    refine ⟨before.distinct, List.nodup_singleton i, fun j mem k last => ?_⟩
    rw [List.mem_singleton.mp last]
    rintro rfl
    exact awake mem
  · exact absurd here (nobody j _ rfl)
  · exact absurd here (nobody j _ rfl)

theorem sound_step {max_size : Nat} {s s' : Queue ι μ} {a : Act ι μ} (before : Sound s)
    (move : Moves max_size s a s') : Sound s' := by
  have under : ∀ {i : ι} {pc : Pc μ}, s.pcs i = pc → holds pc = true →
      ∀ j, j ≠ i → holds (s.pcs j) = false := by
    intro i pc here held
    exact before.alone (by rw [here]; exact held)
  cases move with
  | call i call here => exact sound_outsider before (by rw [here]; nofun) nofun rfl
  | leave i answer here => exact sound_outsider before (by rw [here]; nofun) nofun rfl
  | lock i call here free =>
      have out : locked call ≠ .waiting := by cases call <;> nofun
      refine sound_alone before (fun j _ => before.free free j) rfl rfl (by rw [here]; nofun) out
        (fun _ => rfl) ?_ ?_ <;> cases call <;> nofun
  | relock i timedOut here free =>
      exact sound_alone before (fun j _ => before.free free j) rfl rfl (by rw [here]; nofun) nofun
        (fun _ => rfl) nofun nofun
  | full i msg here | enqueue i msg here =>
      exact sound_alone before (under here rfl) rfl rfl (by rw [here]; nofun) nofun
        (fun _ => before.mutex i (by rw [here]; rfl)) nofun nofun
  | notifyNone i here | measure i here | close i here | fail i ok here | take i msg rest here =>
      exact sound_alone before (under here rfl) rfl rfl (by rw [here]; nofun) nofun
        (fun _ => before.mutex i (by rw [here]; rfl)) nofun nofun
  | notifyOne i j here waits =>
      have woken := sound_wakeUp before j false
      have apart : i ≠ j := by
        rintro rfl
        have asleep := (before.waiters i).mp waits
        rw [here] at asleep
        cases asleep
      have still : (s.wakeUp j false).pcs i = .notifyingOne := by
        rw [← here]
        exact setPc_other _ _ apart
      exact sound_alone woken (woken.alone (by rw [still]; rfl)) rfl rfl (by rw [still]; nofun)
        nofun (fun _ => before.mutex i (by rw [here]; rfl)) nofun nofun
  | notifyAll i here =>
      have woken := sound_wakeAll before
      have still : s.wakeAll.pcs i = .notifyingAll := by
        rw [← here]
        refine if_neg fun mem => ?_
        have asleep := (before.waiters i).mp mem
        rw [here] at asleep
        cases asleep
      exact sound_alone woken (woken.alone (by rw [still]; rfl)) rfl rfl (by rw [still]; nofun)
        nofun (fun _ => before.mutex i (by rw [here]; rfl)) nofun nofun
  | proceed i timedOut here yes =>
      exact sound_alone before (under here rfl) rfl rfl (by rw [here]; nofun) nofun
        (fun _ => before.mutex i (by rw [here]; rfl)) nofun nofun
  | expire i here no =>
      exact sound_alone before (under here rfl) rfl rfl (by rw [here]; nofun) nofun
        (fun _ => before.mutex i (by rw [here]; rfl)) (fun _ => (ready_eq_false no).1) nofun
  | wait i here no =>
      exact sound_alone before (under here rfl) rfl rfl (by rw [here]; nofun) nofun
        (fun _ => before.mutex i (by rw [here]; rfl)) nofun fun _ => ready_eq_false no
  | block i here => exact sound_block before here
  | wake i timedOut waits => exact sound_wakeUp before i timedOut
  | unlock i answer here =>
      exact sound_alone before (under here rfl) rfl rfl (by rw [here]; nofun) nofun nofun nofun
        nofun

end OrbisAgent.Core.MessageQueue
