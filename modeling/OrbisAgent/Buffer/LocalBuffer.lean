/- OrbisAgent/Buffer/LocalBuffer
   source: src/buffer/LocalBuffer.hpp, src/buffer/LocalBuffer.cpp
   digest: The messages table, store() with its prune, and one flush() call as a step function. -/

import OrbisAgent.Constants
import OrbisAgent.Lib.IdTable
import OrbisAgent.Lib.Transition

set_option autoImplicit false
set_option relaxedAutoImplicit false

namespace OrbisAgent.Buffer.LocalBuffer

open OrbisAgent.Constants (BUFFER_MAX_MESSAGES BUFFER_FLUSH_BATCH_SIZE)
open OrbisAgent.Lib.IdTable (Row Table)
open OrbisAgent.Lib.Transition

universe u

/-- What the callers hand over. Both texts are free of NUL (topics and dumped
JSON), so binding them up to their first NUL keeps them whole. -/
structure Message where
  topic : String
  payload : String
  deriving DecidableEq

variable {μ : Type u}

/-- The SQLite calls of one `store()` that fail. A statement that fails leaves
the table as it was. -/
structure StoreFaults where
  countPrepare : Bool
  countStep : Bool
  prunePrepare : Bool
  pruneStep : Bool
  insertPrepare : Bool
  insertStep : Bool
  deriving DecidableEq

def noStoreFaults : StoreFaults := ⟨false, false, false, false, false, false⟩

/-- `to_delete` of `pruneIfNeeded`. -/
def toDelete (t : Table μ) : Nat := t.count - BUFFER_MAX_MESSAGES + 1000

def pruneIfNeeded (f : StoreFaults) (t : Table μ) : Table μ :=
  if f.countPrepare then t
  else if f.countStep then t
  else if BUFFER_MAX_MESSAGES ≤ t.count then
    if f.prunePrepare then t
    else if f.pruneStep then t
    else t.dropOldest (toDelete t)
  else t

def store (f : StoreFaults) (m : μ) (t : Table μ) : Table μ :=
  let t := pruneIfNeeded f t
  if f.insertPrepare then t
  else if f.insertStep then t
  else t.insert m

/-- How the SELECT of a batch ends: completely, not prepared, or with an error
after `k` rows. -/
inductive SelectFault
  | none
  | prepare
  | step (k : Nat)
  deriving DecidableEq

/-- Points of one `flush()` call between two lock-protected sections, with the
rest of the batch and the number of messages flushed so far. -/
inductive Flusher (μ : Type u)
  /-- At the head of the loop, before the SELECT. -/
  | select (flushed : Nat)
  /-- About to hand a row to `flush_fn_`. -/
  | publish (row : Row μ) (rest : List (Row μ)) (flushed : Nat)
  /-- `flush_fn_` returned true; about to DELETE the row. -/
  | delete (row : Row μ) (rest : List (Row μ)) (flushed : Nat)
  /-- Returned. -/
  | done (flushed : Nat)
  deriving DecidableEq

/-- The outside answers a step of `flush()` may read. -/
structure FlushEnv where
  select : SelectFault
  answer : Bool
  deleteFails : Bool
  deriving DecidableEq

/-- Every publish and every SQLite statement succeeds. -/
def healthy : FlushEnv := ⟨.none, true, false⟩

/-- The vector `batch` after the SELECT section. -/
def batch (f : SelectFault) (t : Table μ) : List (Row μ) :=
  match f with
  | .none => t.oldest BUFFER_FLUSH_BATCH_SIZE
  | .prepare => []
  | .step k => (t.oldest BUFFER_FLUSH_BATCH_SIZE).take k

/-- The next row of the batch, or the loop head after its last row. -/
def nextRow (rest : List (Row μ)) (flushed : Nat) : Flusher μ :=
  match rest with
  | [] => .select flushed
  | row :: rest => .publish row rest flushed

/-- One step of `flush()`. A failed prepare breaks out of the loop like an empty
batch does; a failed DELETE is not noticed and the row counts as flushed. -/
def Flusher.step (env : FlushEnv) (t : Table μ) : Flusher μ → Option (Table μ × Flusher μ)
  | .select n =>
      match batch env.select t with
      | [] => some (t, .done n)
      | row :: rest => some (t, .publish row rest n)
  | .publish row rest n =>
      if env.answer then some (t, .delete row rest n) else some (t, .done n)
  | .delete row rest n =>
      some (if env.deleteFails then t else t.remove row.id, nextRow rest (n + 1))
  | .done _ => none

/-- The rows of the current batch that have not been deleted yet. -/
def Flusher.pending : Flusher μ → List (Row μ)
  | .publish row rest _ | .delete row rest _ => row :: rest
  | .select _ | .done _ => []

/-- The value of the counter `flushed`, and of the result once returned. -/
def Flusher.flushed : Flusher μ → Nat
  | .select n | .publish _ _ n | .delete _ _ n | .done n => n

@[simp] theorem pending_nextRow (rest : List (Row μ)) (n : Nat) :
    (nextRow rest n).pending = rest := by
  cases rest <;> rfl

@[simp] theorem flushed_nextRow (rest : List (Row μ)) (n : Nat) :
    (nextRow rest n).flushed = n := by
  cases rest <;> rfl

/-- What one step of `flush()` does, section by section. -/
theorem Flusher.step_cases {env : FlushEnv} {t t' : Table μ} {fl fl' : Flusher μ}
    (move : fl.step env t = some (t', fl')) :
    (∃ n, fl = .select n ∧ t' = t ∧ fl'.pending = batch env.select t ∧ fl'.flushed = n ∧
      ∀ row rest k, fl' ≠ .delete row rest k) ∨
    (∃ row rest n, fl = .publish row rest n ∧ t' = t ∧
      (env.answer = true ∧ fl' = .delete row rest n ∨ env.answer = false ∧ fl' = .done n)) ∨
    (∃ row rest n, fl = .delete row rest n ∧
      t' = (if env.deleteFails then t else t.remove row.id) ∧ fl' = nextRow rest (n + 1)) := by
  cases fl with
  | select n =>
      simp only [step] at move
      split at move
      · rename_i empty
        cases move
        exact .inl ⟨n, rfl, rfl, empty.symm, rfl, by simp⟩
      · rename_i row rest taken
        cases move
        exact .inl ⟨n, rfl, rfl, taken.symm, rfl, by simp⟩
  | publish row rest n =>
      simp only [step] at move
      split at move
      · rename_i yes
        cases move
        exact .inr (.inl ⟨row, rest, n, rfl, rfl, .inl ⟨yes, rfl⟩⟩)
      · rename_i no
        cases move
        exact .inr (.inl ⟨row, rest, n, rfl, rfl, .inr ⟨by simpa using no, rfl⟩⟩)
  | delete row rest n =>
      cases move
      exact .inr (.inr ⟨row, rest, n, rfl, rfl, rfl⟩)
  | done n => cases move

theorem batch_sublist (f : SelectFault) (t : Table μ) : (batch f t).Sublist t.rows := by
  cases f with
  | none => exact List.take_sublist _ _
  | prepare => exact List.nil_sublist _
  | step k => exact (List.take_sublist _ _).trans (List.take_sublist _ _)

theorem pruneIfNeeded_below (f : StoreFaults) {t : Table μ}
    (below : t.count < BUFFER_MAX_MESSAGES) : pruneIfNeeded f t = t := by
  unfold pruneIfNeeded
  rw [if_neg (Nat.not_le.mpr below)]
  split
  · rfl
  · split <;> rfl

theorem store_below {t : Table μ} (m : μ) (below : t.count < BUFFER_MAX_MESSAGES) :
    store noStoreFaults m t = t.insert m := by
  simp [store, pruneIfNeeded_below _ below, noStoreFaults]

/-- What the prune keeps: all rows, or at capacity all but the oldest. -/
theorem pruneIfNeeded_cases (f : StoreFaults) (t : Table μ) :
    pruneIfNeeded f t = t ∨
      (BUFFER_MAX_MESSAGES ≤ t.count ∧ pruneIfNeeded f t = t.dropOldest (toDelete t)) := by
  unfold pruneIfNeeded
  split
  · exact .inl rfl
  · split
    · exact .inl rfl
    · split
      · split
        · exact .inl rfl
        · split
          · exact .inl rfl
          · exact .inr ⟨‹_›, rfl⟩
      · exact .inl rfl

theorem store_cases (f : StoreFaults) (m : μ) (t : Table μ) :
    store f m t = pruneIfNeeded f t ∨ store f m t = (pruneIfNeeded f t).insert m := by
  unfold store
  split
  · exact .inl rfl
  · split
    · exact .inl rfl
    · exact .inr rfl

theorem pruneIfNeeded_seq (f : StoreFaults) (t : Table μ) : (pruneIfNeeded f t).seq = t.seq := by
  rcases pruneIfNeeded_cases f t with same | ⟨_, cut⟩
  · rw [same]
  · rw [cut, Table.dropOldest_seq]

theorem pruneIfNeeded_subset (f : StoreFaults) (t : Table μ) :
    (pruneIfNeeded f t).rows ⊆ t.rows := by
  rcases pruneIfNeeded_cases f t with same | ⟨_, cut⟩
  · rw [same]
    exact List.Subset.refl _
  · rw [cut, Table.dropOldest_rows]
    exact List.drop_subset _ _

/-- A row of the stored table is an old one or carries an id never issued before. -/
theorem mem_store {f : StoreFaults} {m : μ} {t : Table μ} {r : Row μ}
    (hr : r ∈ (store f m t).rows) : r ∈ t.rows ∨ r = t.newRow m := by
  rcases store_cases f m t with same | added
  · rw [same] at hr
    exact .inl (pruneIfNeeded_subset f t hr)
  · rw [added, Table.insert_rows] at hr
    rcases List.mem_append.mp hr with old | new
    · exact .inl (pruneIfNeeded_subset f t old)
    · have same := List.mem_singleton.mp new
      simp only [Table.newRow, pruneIfNeeded_seq] at same
      exact .inr same

theorem seq_le_store (f : StoreFaults) (m : μ) (t : Table μ) : t.seq ≤ (store f m t).seq := by
  rcases store_cases f m t with same | added
  · exact Nat.le_of_eq (by rw [same, pruneIfNeeded_seq])
  · rw [added, Table.insert_seq, pruneIfNeeded_seq]
    exact Nat.le_succ _

/-- A row that a store() removes is one of the oldest, and the table was full. -/
theorem pruned_of_store {f : StoreFaults} {m : μ} {t : Table μ} {r : Row μ} (present : r ∈ t.rows)
    (gone : r ∉ (store f m t).rows) :
    BUFFER_MAX_MESSAGES ≤ t.count ∧ r ∈ t.oldest (toDelete t) := by
  have lost : r ∉ (pruneIfNeeded f t).rows := by
    rcases store_cases f m t with same | added
    · rwa [same] at gone
    · rw [added, Table.insert_rows] at gone
      exact fun h => gone (List.mem_append_left _ h)
  rcases pruneIfNeeded_cases f t with same | ⟨full, cut⟩
  · exact absurd present (same ▸ lost)
  · refine ⟨full, ?_⟩
    rw [cut, Table.dropOldest_rows] at lost
    rw [← List.take_append_drop (toDelete t) t.rows] at present
    exact (List.mem_append.mp present).resolve_right lost

/-- The call of `flush_fn_` made by a step, with its answer. -/
def Flusher.calls (env : FlushEnv) : Flusher μ → List (Row μ × Bool)
  | .publish row _ _ => [(row, env.answer)]
  | .select _ | .delete _ _ _ | .done _ => []

/-- A `flush()` running alone, and its calls of `flush_fn_` so far. -/
structure Solo (μ : Type u) where
  table : Table μ
  flusher : Flusher μ
  handed : List (Row μ × Bool)

def Solo.start (t : Table μ) : Solo μ := ⟨t, .select 0, []⟩

def Solo.step (s : Solo μ) (env : FlushEnv) : Option (Solo μ) :=
  (s.flusher.step env s.table).map fun next =>
    ⟨next.1, next.2, s.handed ++ s.flusher.calls env⟩

/-- A flush alone handles only rows that were in the table when it began. -/
structure Within (t : Table μ) (d : Solo μ) : Prop where
  rows : ∀ r ∈ d.table.rows, r ∈ t.rows
  pending : ∀ r ∈ d.flusher.pending, r ∈ t.rows
  calls : ∀ call ∈ d.handed, call.1 ∈ t.rows

theorem within_start (t : Table μ) : Within t (Solo.start t) where
  rows _ hr := hr
  pending _ hr := by cases hr
  calls _ hc := by cases hc

theorem within_step {t : Table μ} {d d' : Solo μ} {env : FlushEnv} (before : Within t d)
    (move : d.step env = some d') : Within t d' := by
  obtain ⟨table, flusher, handed⟩ := d
  obtain ⟨⟨table', flusher'⟩, moved, rfl⟩ := Option.map_eq_some_iff.mp move
  have same : ∀ call ∈ handed ++ [], call.1 ∈ t.rows := by
    rw [List.append_nil]
    exact before.calls
  rcases Flusher.step_cases moved with ⟨n, rfl, rfl, reads, -⟩ |
    ⟨row, rest, n, rfl, rfl, answer⟩ | ⟨row, rest, n, rfl, rfl, rfl⟩
  · refine ⟨before.rows, fun r hr => ?_, same⟩
    rw [reads] at hr
    exact before.rows r ((batch_sublist env.select table').subset hr)
  · refine ⟨before.rows, fun r hr => ?_, fun call hc => ?_⟩
    · rcases answer with ⟨_, rfl⟩ | ⟨_, rfl⟩
      · exact before.pending r hr
      · cases hr
    · rcases List.mem_append.mp hc with old | new
      · exact before.calls call old
      · obtain rfl := List.mem_singleton.mp new
        exact before.pending row List.mem_cons_self
  · refine ⟨fun r hr => ?_, fun r hr => ?_, same⟩
    · split at hr
      · exact before.rows r hr
      · exact before.rows r (Table.mem_remove.mp hr).1
    · rw [pending_nextRow] at hr
      exact before.pending r (List.mem_cons_of_mem row hr)

theorem solo_within {ok : Solo μ → FlushEnv → Prop} {t : Table μ} {d : Solo μ}
    (run : Reaches Solo.step ok (Solo.start t) d) : Within t d :=
  run.invariant (within_start t) fun _ _ _ before _ move => within_step before move

/-- The guard of a flush in which everything succeeds. -/
def AllSucceed (_ : Solo μ) (env : FlushEnv) : Prop := env = healthy

/-- The messages that `flush_fn_` accepted. -/
def acceptedMessages (handed : List (Row μ × Bool)) : List μ :=
  (handed.filter Prod.snd).map fun call => call.1.msg

theorem mem_acceptedMessages {row : Row μ} {handed : List (Row μ × Bool)}
    (accepted : (row, true) ∈ handed) : row.msg ∈ acceptedMessages handed := by
  unfold acceptedMessages
  rw [List.mem_map]
  exact ⟨(row, true), List.mem_filter.mpr ⟨accepted, rfl⟩, rfl⟩

private theorem solo_next {s t : Solo μ} (h : s.step healthy = some t) :
    Reaches Solo.step AllSucceed s t :=
  Reaches.single rfl h

private theorem solo_batch (row : Row μ) (rest left : List (Row μ)) (n : Nat) (t : Table μ)
    (handed : List (Row μ × Bool)) (rows : t.rows = row :: rest ++ left) :
    ∃ t' : Table μ, t'.rows = left ∧ Reaches Solo.step AllSucceed
      ⟨t, .publish row rest n, handed⟩
      ⟨t', .select (n + rest.length + 1), handed ++ (row :: rest).map (·, true)⟩ := by
  induction rest generalizing row n t handed with
  | nil =>
      have first : t.rows = [] ++ row :: left := by simpa using rows
      have removed : (t.remove row.id).rows = left := Table.remove_rows_of_split first
      refine ⟨t.remove row.id, removed, ?_⟩
      have publish : Solo.step ⟨t, .publish row [] n, handed⟩ healthy =
          some ⟨t, .delete row [] n, handed ++ [(row, true)]⟩ := rfl
      have delete : Solo.step ⟨t, .delete row [] n, handed ++ [(row, true)]⟩ healthy =
          some ⟨t.remove row.id, .select (n + 1), handed ++ [(row, true)]⟩ := by
        simp [Solo.step, Flusher.step, Flusher.calls, healthy, nextRow]
      exact (solo_next publish).trans (solo_next delete)
  | cons next rest ih =>
      have first : t.rows = [] ++ row :: (next :: rest ++ left) := by simpa using rows
      have removed : (t.remove row.id).rows = next :: rest ++ left := by
        simpa using Table.remove_rows_of_split first
      obtain ⟨t', empty, run⟩ :=
        ih next (n + 1) (t.remove row.id) (handed ++ [(row, true)]) removed
      refine ⟨t', empty, ?_⟩
      have publish : Solo.step ⟨t, .publish row (next :: rest) n, handed⟩ healthy =
          some ⟨t, .delete row (next :: rest) n, handed ++ [(row, true)]⟩ := rfl
      have delete : Solo.step ⟨t, .delete row (next :: rest) n, handed ++ [(row, true)]⟩ healthy =
          some ⟨t.remove row.id, .publish next rest (n + 1), handed ++ [(row, true)]⟩ := by
        simp [Solo.step, Flusher.step, Flusher.calls, healthy, nextRow]
      have total : n + 1 + rest.length + 1 = n + (next :: rest).length + 1 := by
        simp only [List.length_cons]
        omega
      rw [total] at run
      simpa using (solo_next publish).trans ((solo_next delete).trans run)

/-- When everything succeeds, a flush alone hands every row over in id order,
empties the table and returns the number of rows. -/
theorem solo_drains (t : Table μ) (n : Nat) (handed : List (Row μ × Bool)) :
    ∃ t' : Table μ, t'.rows = [] ∧ Reaches Solo.step AllSucceed ⟨t, .select n, handed⟩
      ⟨t', .done (n + t.count), handed ++ t.rows.map (·, true)⟩ := by
  induction size : t.count using Nat.strongRecOn generalizing t n handed with
  | ind c ih =>
      subst size
      cases taken : t.oldest BUFFER_FLUSH_BATCH_SIZE with
      | nil =>
          have none : t.rows = [] := by
            simpa [Table.oldest, BUFFER_FLUSH_BATCH_SIZE] using taken
          have stop : Solo.step ⟨t, .select n, handed⟩ healthy = some ⟨t, .done n, handed⟩ := by
            simp [Solo.step, Flusher.step, Flusher.calls, healthy, batch, taken]
          refine ⟨t, none, ?_⟩
          simpa [Table.count, none] using solo_next stop
      | cons row rest =>
          let left := t.rows.drop BUFFER_FLUSH_BATCH_SIZE
          have rows : t.rows = row :: rest ++ left := by
            rw [← taken]
            exact (List.take_append_drop _ _).symm
          have select : Solo.step ⟨t, .select n, handed⟩ healthy =
              some ⟨t, .publish row rest n, handed⟩ := by
            simp [Solo.step, Flusher.step, Flusher.calls, healthy, batch, taken]
          obtain ⟨t₁, remaining, first⟩ := solo_batch row rest left n t handed rows
          have total : t.count = rest.length + 1 + t₁.count := by
            simp only [Table.count, rows, remaining, List.length_append, List.length_cons]
          obtain ⟨t₂, empty, last⟩ := ih t₁.count (by omega) t₁ (n + rest.length + 1)
            (handed ++ (row :: rest).map (·, true)) rfl
          refine ⟨t₂, empty, ?_⟩
          have counted : n + rest.length + 1 + t₁.count = n + t.count := by omega
          rw [counted, remaining, List.append_assoc, ← List.map_append, ← rows] at last
          exact (solo_next select).trans (first.trans last)

theorem solo_done_stops {ok : Solo μ → FlushEnv → Prop} {t : Table μ} {n : Nat}
    {handed : List (Row μ × Bool)} (r : Solo μ) :
    ¬ Next Solo.step ok ⟨t, .done n, handed⟩ r := by
  rintro ⟨env, _, move⟩
  cases move

/-- Every flush in which everything succeeds returns in the state of `solo_drains`. -/
theorem solo_done_eq {t : Table μ} {d : Solo μ} {n : Nat}
    (run : Reaches Solo.step AllSucceed (Solo.start t) d) (returned : d.flusher = .done n) :
    d.table.rows = [] ∧ n = t.count ∧ d.handed = t.rows.map (·, true) := by
  obtain ⟨t', empty, drained⟩ := solo_drains t 0 []
  have functional : Relator.RightUnique (Next (Solo.step (μ := μ)) AllSucceed) := by
    rintro s r u ⟨_, rfl, first⟩ ⟨_, rfl, second⟩
    exact Option.some.inj (first.symm.trans second)
  obtain ⟨table, flusher, handed⟩ := d
  obtain rfl : flusher = .done n := returned
  obtain same := run.unique_end functional drained solo_done_stops solo_done_stops
  cases same
  exact ⟨empty, by simp, by simp⟩

end OrbisAgent.Buffer.LocalBuffer
