/- OrbisAgent/Buffer/BoundedFifo
   source: src/buffer/LocalBuffer.cpp
   digest: Over any history of store() and flush() calls that do not overlap, the table is a queue
   that drops its oldest messages. -/

import OrbisAgent.Buffer.FlushProgress
import OrbisAgent.Buffer.Pruning
import OrbisAgent.Lib.DropOldest

set_option autoImplicit false
set_option relaxedAutoImplicit false

namespace OrbisAgent.Buffer.BoundedFifo

open OrbisAgent.Buffer.FlushProgress
open OrbisAgent.Buffer.LocalBuffer
open OrbisAgent.Buffer.Pruning (prunes store_rows)
open OrbisAgent.Constants (BUFFER_MAX_MESSAGES)
open OrbisAgent.Lib.DropOldest
open OrbisAgent.Lib.IdTable (Row Table)
open OrbisAgent.Lib.Transition

universe u

variable {μ : Type u}

/-- The messages of the table, the oldest first. -/
def messages (t : Table μ) : List μ := t.rows.map Row.msg

/-- A history of calls on the table, by any number of processes one after the other, in which all
statements succeed: what `store` puts in, and the messages for which `flush_fn_` returned true. -/
inductive History : Table μ → List (Act μ) → Table μ → Prop
  | nothing (t : Table μ) : History t [] t
  | store {t t' : Table μ} {acts : List (Act μ)} (m : μ) :
      History (LocalBuffer.store noStoreFaults m t) acts t' → History t (.put m :: acts) t'
  | flush {t t' : Table μ} {acts : List (Act μ)} (answers : Nat → Bool) (n : Nat) :
      Returned (flushing (answering answers) t n) →
      History (flushing (answering answers) t n).table acts t' →
      History t (.take (acceptedMessages (flushing (answering answers) t n).handed) :: acts) t'

/-- How many messages are dropped before one is put behind `n`. -/
def cut (n : Nat) : Nat := if BUFFER_MAX_MESSAGES ≤ n then n - BUFFER_MAX_MESSAGES + 1000 else 0

theorem messages_store (m : μ) (t : Table μ) :
    messages (LocalBuffer.store noStoreFaults m t) =
      (messages t).drop (cut (messages t).length) ++ [m] := by
  have same : cut (messages t).length = prunes t := by
    unfold cut prunes toDelete messages Table.count
    rw [List.length_map]
  unfold messages at same ⊢
  rw [store_rows, List.map_append, List.map_drop, same]
  rfl

/-- A flush that has returned has taken a front of the queue. -/
theorem messages_flush {t : Table μ} {answers : Nat → Bool} {n : Nat}
    (returned : Returned (flushing (answering answers) t n)) :
    messages t = acceptedMessages (flushing (answering answers) t n).handed ++
      messages (flushing (answering answers) t n).table := by
  obtain ⟨accepted, rest, refused, p, _⟩ := accepted_of_answering answers t n
  obtain ⟨k, done⟩ := returned
  have taken : acceptedMessages (flushing (answering answers) t n).handed =
      accepted.map Row.msg := by
    unfold acceptedMessages
    rw [p.calls, List.filter_append]
    simp [List.filter_map, Function.comp_def]
  have left : (flushing (answering answers) t n).table.rows = rest := by
    rw [p.present, done]
    rfl
  unfold messages
  rw [taken, left, p.original, List.map_append]

variable [DecidableEq μ]

theorem exec_of_history {t t' : Table μ} {acts : List (Act μ)} (history : History t acts t') :
    exec (step cut) (messages t) acts = some (messages t') := by
  induction history with
  | nothing t => rfl
  | @store t t' acts m _ ih =>
      refine Option.bind_eq_some_iff.mpr ⟨_, ?_, ih⟩
      rw [messages_store]
      rfl
  | @flush t t' acts answers n returned _ ih =>
      refine Option.bind_eq_some_iff.mpr ⟨_, ?_, ih⟩
      rw [messages_flush returned, step, List.take_left, if_pos rfl, List.drop_left]

/-- The buffer is the queue of the specification: the messages come out in the order in which they
were stored, none twice; as long as none is stored into a full table none is lost, and the cap
holds for good once it does. -/
theorem buffer_is_a_bounded_fifo {t t' : Table μ} {acts : List (Act μ)}
    (history : History t acts t') :
    exec (step cut) (messages t) acts = some (messages t') ∧
      (outs acts ++ messages t').Sublist (messages t ++ ins acts) ∧
      (Roomy cut BUFFER_MAX_MESSAGES (messages t) acts →
        outs acts ++ messages t' = messages t ++ ins acts) ∧
      ((messages t).length ≤ BUFFER_MAX_MESSAGES →
        (messages t').length ≤ BUFFER_MAX_MESSAGES) := by
  have run := exec_of_history history
  refine ⟨run, outs_sublist run, ?_, ?_⟩
  · intro roomy
    refine outs_eq ?_ roomy run
    intro n below
    exact if_neg (Nat.not_le.mpr below)
  · intro start
    refine length_le ?_ start run
    intro n
    have cap : BUFFER_MAX_MESSAGES = 100000 := rfl
    unfold cut
    split <;> omega

/-- Two messages are stored, the first is accepted and the second refused. -/
theorem one_of_two_is_flushed :
    exec (step cut) [] [.put "a", .put "b", .take ["a"]] = some ["b"] := by
  let two : Table String := LocalBuffer.store noStoreFaults "b"
    (LocalBuffer.store noStoreFaults "a" Table.empty)
  let answers : Nat → Bool := fun i => i == 0
  have returned : Returned (flushing (answering answers) two 4) := ⟨1, rfl⟩
  have history : History Table.empty [.put "a", .put "b", .take ["a"]]
      (flushing (answering answers) two 4).table :=
    .store "a" (.store "b" (.flush answers 4 returned (.nothing _)))
  exact (buffer_is_a_bounded_fifo history).1

end OrbisAgent.Buffer.BoundedFifo
