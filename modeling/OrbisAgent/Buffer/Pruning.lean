/- OrbisAgent/Buffer/Pruning
   source: LocalBuffer::store, LocalBuffer::pruneIfNeeded
   digest: A store() leaves the table within its cap, ends it with the new message, and prunes
   exactly the messages that were stored first. A failed one still prunes a full table. -/

import OrbisAgent.Buffer.ConcurrentFlush

set_option autoImplicit false
set_option relaxedAutoImplicit false

namespace OrbisAgent.Buffer.Pruning

open OrbisAgent.Buffer.ConcurrentFlush
open OrbisAgent.Buffer.LocalBuffer
open OrbisAgent.Constants (BUFFER_MAX_MESSAGES)
open OrbisAgent.Lib.IdTable (Row Table)
open OrbisAgent.Lib.Transition

universe u v

variable {ι : Type u} {μ : Type v}

/-- How many rows a store() prunes. -/
def prunes (t : Table μ) : Nat :=
  if BUFFER_MAX_MESSAGES ≤ t.count then toDelete t else 0

/-- The rows of the table stand in the order in which they were stored. -/
def InOrder (s : Pool ι μ) : Prop := s.table.rows.Sublist s.stored

theorem store_rows (m : μ) (t : Table μ) :
    (store noStoreFaults m t).rows = t.rows.drop (prunes t) ++ [t.newRow m] := by
  have pruned : pruneIfNeeded noStoreFaults t = t.dropOldest (prunes t) := by
    unfold pruneIfNeeded prunes
    split
    · contradiction
    · split
      · contradiction
      · by_cases full : BUFFER_MAX_MESSAGES ≤ t.count
        · rw [if_pos full, if_pos full]
          rfl
        · rw [if_neg full, if_neg full]
          rfl
  unfold store
  rw [pruned]
  rfl

/-- The new table fits, from below the cap and from any size above it. -/
theorem store_count_le (m : μ) (t : Table μ) :
    (store noStoreFaults m t).count ≤ BUFFER_MAX_MESSAGES := by
  have cap : BUFFER_MAX_MESSAGES = 100000 := rfl
  unfold Table.count
  rw [store_rows, List.length_append, List.length_drop, List.length_singleton]
  unfold prunes toDelete Table.count
  split <;> omega

/-- A store adds at most one row, behind a part of the old ones. -/
theorem store_fresh (f : StoreFaults) (m : μ) (t : Table μ) :
    ∃ kept fresh, (store f m t).rows = kept ++ fresh ∧ kept.Sublist t.rows ∧
      ∀ r ∈ fresh, t.seq < r.id := by
  have part : (pruneIfNeeded f t).rows.Sublist t.rows := by
    rcases pruneIfNeeded_cases f t with same | ⟨_, cut⟩
    · rw [same]
    · rw [cut, Table.dropOldest_rows]
      exact List.drop_sublist _ _
  rcases store_cases f m t with same | added
  · refine ⟨(pruneIfNeeded f t).rows, [], ?_, part, ?_⟩
    · rw [same, List.append_nil]
    · intro r mem
      cases mem
  · refine ⟨(pruneIfNeeded f t).rows, [t.newRow m], ?_, part, ?_⟩
    · rw [added, Table.insert_rows]
      unfold Table.newRow
      rw [pruneIfNeeded_seq]
    · intro r mem
      obtain rfl := List.mem_singleton.mp mem
      exact Nat.lt_succ_self t.seq

theorem inOrder_store {s : Pool ι μ} (before : InOrder s) (m : μ) (f : StoreFaults) :
    InOrder (s.afterStore m f) := by
  obtain ⟨kept, fresh, rows, part, issued⟩ := store_fresh f m s.table
  have old : kept.filter (fun r => s.table.seq < r.id) = [] := by
    rw [List.filter_eq_nil_iff]
    intro r mem
    have earlier := s.table.issued r (part.subset mem)
    simpa using earlier
  have new : fresh.filter (fun r => s.table.seq < r.id) = fresh := by
    rw [List.filter_eq_self]
    intro r mem
    simpa using issued r mem
  change (store f m s.table).rows.Sublist
    (s.stored ++ (store f m s.table).rows.filter fun r => s.table.seq < r.id)
  rw [rows, List.filter_append, old, new, List.nil_append]
  exact (part.trans before).append (List.Sublist.refl fresh)

/-- The count finds a full table, and the bulk DELETE goes through. -/
def PruneRuns (f : StoreFaults) (t : Table μ) : Prop :=
  f.countPrepare = false ∧ f.countStep = false ∧ f.prunePrepare = false ∧ f.pruneStep = false ∧
    BUFFER_MAX_MESSAGES ≤ t.count

theorem pruneIfNeeded_of_runs {f : StoreFaults} {t : Table μ} (runs : PruneRuns f t) :
    pruneIfNeeded f t = t.dropOldest (toDelete t) := by
  obtain ⟨counts, counted, prepares, steps, full⟩ := runs
  simp [pruneIfNeeded, counts, counted, prepares, steps, full]

theorem pruneIfNeeded_of_not_runs {f : StoreFaults} {t : Table μ} (idle : ¬ PruneRuns f t) :
    pruneIfNeeded f t = t := by
  by_contra changed
  apply idle
  unfold pruneIfNeeded at changed
  split at changed
  · exact absurd rfl changed
  · rename_i counts
    split at changed
    · exact absurd rfl changed
    · rename_i counted
      split at changed
      · rename_i full
        split at changed
        · exact absurd rfl changed
        · rename_i prepares
          split at changed
          · exact absurd rfl changed
          · rename_i steps
            simp only [Bool.not_eq_true] at counts counted prepares steps
            exact ⟨counts, counted, prepares, steps, full⟩
      · exact absurd rfl changed

theorem dropOldest_ne {t : Table μ} {n : Nat} (some : 0 < n) (rows : 0 < t.count) :
    t.dropOldest n ≠ t := by
  intro same
  have lengths := congrArg Table.count same
  unfold Table.count at lengths rows
  rw [Table.dropOldest_rows, List.length_drop] at lengths
  omega

/-- A prune that runs takes rows away. -/
theorem pruneIfNeeded_ne_of_runs {f : StoreFaults} {t : Table μ} (runs : PruneRuns f t) :
    pruneIfNeeded f t ≠ t := by
  have full := runs.2.2.2.2
  have cap : BUFFER_MAX_MESSAGES = 100000 := rfl
  rw [pruneIfNeeded_of_runs runs]
  apply dropOldest_ne
  · unfold toDelete
    omega
  · omega

theorem store_of_insert_failed {f : StoreFaults} (m : μ) (t : Table μ)
    (failed : f.insertPrepare = true ∨ f.insertStep = true) :
    store f m t = pruneIfNeeded f t := by
  rcases failed with prepare | step
  · simp [store, prepare]
  · simp [store, step]

/-- A store() whose message is not inserted leaves the table as it was, unless it has pruned
a full table before: then the oldest rows are gone and all others are as they were. -/
theorem store_uninserted {f : StoreFaults} {t : Table μ} (m : μ)
    (failed : f.insertPrepare = true ∨ f.insertStep = true) :
    (store f m t = t ↔ ¬ PruneRuns f t) ∧
      (PruneRuns f t → store f m t = t.dropOldest (toDelete t)) := by
  rw [store_of_insert_failed m t failed]
  refine ⟨⟨fun same runs => ?_, pruneIfNeeded_of_not_runs⟩, pruneIfNeeded_of_runs⟩
  exact pruneIfNeeded_ne_of_runs runs same

variable [DecidableEq ι]

theorem inOrder_step {s s' : Pool ι μ} {a : Act ι μ} (before : InOrder s)
    (move : step s a = some s') : InOrder s' := by
  rcases step_cases move with ⟨m, f, rfl, rfl⟩ | ⟨i, rfl, _, rfl⟩ |
    ⟨i, env, fl, t', fl', rfl, _, next, rfl⟩
  · exact inOrder_store before m f
  · exact before
  · have part : t'.rows.Sublist s.table.rows := by
      rcases Flusher.step_cases next with ⟨_, _, rfl, _⟩ | ⟨_, _, _, _, rfl, _⟩ |
        ⟨row, _, _, _, rfl, _⟩
      · exact List.Sublist.refl _
      · exact List.Sublist.refl _
      · split
        · exact List.Sublist.refl _
        · exact List.filter_sublist
    exact part.trans before

theorem inOrder_of_run {t : Table μ} {s : Pool ι μ}
    (run : Reaches step anyStep (Pool.start t) s) : InOrder s :=
  run.invariant (List.Sublist.refl _) fun _ _ _ before _ move => inOrder_step before move

/-- In any run of stores and flush calls, even one whose earlier statements fail, a store()
whose statements succeed leaves at most `BUFFER_MAX_MESSAGES` rows, the last of them its
message. It prunes a front of the table, and each row pruned was stored before each row kept. -/
theorem store_prunes_oldest {t : Table μ} {s s' : Pool ι μ} {m : μ}
    (run : Reaches step anyStep (Pool.start t) s)
    (move : step s (.store m noStoreFaults) = some s') :
    s'.table.count ≤ BUFFER_MAX_MESSAGES ∧
      s'.table.rows.getLast? = some (s.table.newRow m) ∧
      ∃ pruned kept, s.table.rows = pruned ++ kept ∧
        s'.table.rows = kept ++ [s.table.newRow m] ∧
        pruned.length = min (prunes s.table) s.table.count ∧
        ∀ p ∈ pruned, ∀ k ∈ kept, p.id < k.id ∧ [p, k].Sublist s.stored := by
  have order := inOrder_of_run run
  obtain rfl := Option.some.inj move
  change (store noStoreFaults m s.table).count ≤ _ ∧
    (store noStoreFaults m s.table).rows.getLast? = _ ∧ _
  have split := (List.take_append_drop (prunes s.table) s.table.rows).symm
  refine ⟨store_count_le m s.table, ?_, s.table.rows.take (prunes s.table),
    s.table.rows.drop (prunes s.table), split, store_rows m s.table, ?_, ?_⟩
  · rw [store_rows, List.getLast?_concat]
  · rw [List.length_take]
    rfl
  · intro p early k late
    have sorted := s.table.sorted
    rw [split, List.pairwise_append] at sorted
    refine ⟨sorted.2.2 p early k late, ?_⟩
    have apart : [p, k].Sublist s.table.rows := by
      rw [split]
      exact (List.singleton_sublist.mpr early).append (List.singleton_sublist.mpr late)
    exact apart.trans order

/-- A table at its cap. -/
def fullTable : Table String where
  rows := (List.range BUFFER_MAX_MESSAGES).map fun i => ⟨i, "old"⟩
  seq := BUFFER_MAX_MESSAGES
  sorted := List.pairwise_map.mpr List.pairwise_lt_range
  issued r mem := by
    obtain ⟨i, inside, rfl⟩ := List.mem_map.mp mem
    exact Nat.le_of_lt (List.mem_range.mp inside)

theorem fullTable_count : fullTable.count = 100000 := by
  unfold Table.count fullTable
  rw [List.length_map, List.length_range]
  rfl

/-- An insert into a full table that fails, as on a full disk. -/
def insertFails : StoreFaults := ⟨false, false, false, false, false, true⟩

theorem full_table_loses_rows_without_insert : store insertFails "new" fullTable ≠ fullTable := by
  have full : BUFFER_MAX_MESSAGES ≤ fullTable.count := by
    rw [fullTable_count]
    exact Nat.le_refl _
  rw [store_of_insert_failed _ _ (.inr rfl)]
  exact pruneIfNeeded_ne_of_runs ⟨rfl, rfl, rfl, rfl, full⟩

/-- Three rows. -/
def smallTable : Table String := ((Table.empty.insert "a").insert "b").insert "c"

/-- The same failure leaves a small table as it was, and takes a thousand rows off a full one. -/
theorem rows_without_insert :
    store insertFails "new" smallTable = smallTable ∧
      store insertFails "new" fullTable = fullTable.dropOldest 1000 := by
  have cap : BUFFER_MAX_MESSAGES = 100000 := rfl
  have below : ¬ PruneRuns insertFails smallTable := by
    rintro ⟨_, _, _, _, full⟩
    have three : smallTable.count = 3 := rfl
    omega
  have full : PruneRuns insertFails fullTable := by
    refine ⟨rfl, rfl, rfl, rfl, ?_⟩
    rw [fullTable_count]
    exact Nat.le_refl _
  have pruned : toDelete fullTable = 1000 := by rw [toDelete, fullTable_count, cap]
  refine ⟨(store_uninserted "new" (.inr rfl)).1.mpr below, ?_⟩
  rw [(store_uninserted "new" (.inr rfl)).2 full, pruned]

/-- A store into a full table prunes a thousand messages. -/
theorem full_table_is_pruned :
    ∃ s s' : Pool Bool String, Reaches step anyStep (Pool.start fullTable) s ∧
      step s (.store "new" noStoreFaults) = some s' ∧ s.table.count = 100000 ∧
      s'.table.count = 99001 := by
  let s : Pool Bool String := Pool.start fullTable
  have run : Reaches step anyStep s s := Relation.ReflTransGen.refl
  have move : step s (.store "new" noStoreFaults) = some (s.afterStore "new" noStoreFaults) := rfl
  have size : s.table.count = 100000 := fullTable_count
  obtain ⟨_, _, pruned, kept, before, after, count, _⟩ := store_prunes_oldest run move
  refine ⟨s, _, run, move, size, ?_⟩
  have total := congrArg List.length before
  change s.table.count = _ at total
  have pruning : prunes s.table = 1000 := by
    unfold prunes toDelete
    rw [size]
    rfl
  rw [pruning, size] at count
  rw [size, List.length_append] at total
  unfold Table.count
  rw [after, List.length_append, List.length_singleton]
  omega

end OrbisAgent.Buffer.Pruning
