/- OrbisAgent/Buffer/ConcurrentFlush
   source: LocalBuffer::store and LocalBuffer::flush under mu_, main (flush threads)
   digest: Any number of flush() calls and store() calls over one table, step by step. -/

import OrbisAgent.Buffer.LocalBuffer

set_option autoImplicit false
set_option relaxedAutoImplicit false

namespace OrbisAgent.Buffer.ConcurrentFlush

open OrbisAgent.Buffer.LocalBuffer
open OrbisAgent.Constants (BUFFER_MAX_MESSAGES BUFFER_FLUSH_BATCH_SIZE)
open OrbisAgent.Lib.IdTable (Row Table)
open OrbisAgent.Lib.Transition

universe u v

variable {ι : Type u} {μ : Type v}

/-- The shared table, every `flush()` call so far, and two records that the code
does not keep: the calls of `flush_fn_` and the rows that were ever stored. -/
structure Pool (ι : Type u) (μ : Type v) where
  table : Table μ
  flushers : ι → Option (Flusher μ)
  handed : List (ι × Row μ × Bool)
  stored : List (Row μ)

/-- A table that earlier processes left behind, before the first flush. -/
def Pool.start (t : Table μ) : Pool ι μ := ⟨t, fun _ => none, [], t.rows⟩

inductive Act (ι : Type u) (μ : Type v)
  | store (m : μ) (f : StoreFaults)
  | call (i : ι)
  | flush (i : ι) (env : FlushEnv)

/-- `store()` is one section under `mu_`. -/
def Pool.afterStore (s : Pool ι μ) (m : μ) (f : StoreFaults) : Pool ι μ :=
  let t := store f m s.table
  { s with table := t, stored := s.stored ++ t.rows.filter fun r => s.table.seq < r.id }

variable [DecidableEq ι]

def Pool.setFlusher (s : Pool ι μ) (i : ι) (fl : Flusher μ) : Pool ι μ :=
  { s with flushers := Function.update s.flushers i (some fl) }

def step (s : Pool ι μ) : Act ι μ → Option (Pool ι μ)
  | .store m f => some (s.afterStore m f)
  | .call i =>
      match s.flushers i with
      | none => some (s.setFlusher i (.select 0))
      | some _ => none
  | .flush i env =>
      match s.flushers i with
      | none => none
      | some fl =>
          (fl.step env s.table).map fun next =>
            Pool.setFlusher { s with
              table := next.1
              handed := s.handed ++ (fl.calls env).map (i, ·) } i next.2

theorem step_cases {s s' : Pool ι μ} {a : Act ι μ} (move : step s a = some s') :
    (∃ m f, a = .store m f ∧ s' = s.afterStore m f) ∨
    (∃ i, a = .call i ∧ s.flushers i = none ∧ s' = s.setFlusher i (.select 0)) ∨
    (∃ i env fl t' fl', a = .flush i env ∧ s.flushers i = some fl ∧
      fl.step env s.table = some (t', fl') ∧
      s' = Pool.setFlusher { s with
        table := t'
        handed := s.handed ++ (fl.calls env).map (i, ·) } i fl') := by
  cases a with
  | store m f => exact .inl ⟨m, f, rfl, (Option.some.inj move).symm⟩
  | call i =>
      simp only [step] at move
      split at move
      · exact .inr (.inl ⟨i, rfl, ‹_›, (Option.some.inj move).symm⟩)
      · cases move
  | flush i env =>
      simp only [step] at move
      split at move
      · cases move
      · rename_i fl here
        obtain ⟨⟨t', fl'⟩, next, rfl⟩ := Option.map_eq_some_iff.mp move
        exact .inr (.inr ⟨i, env, fl, t', fl', rfl, here, next, rfl⟩)

/-- A row read by a SELECT keeps its id: the id was issued, and a present row
under it is the row that was read. -/
def Named (t : Table μ) (row : Row μ) : Prop :=
  row.id ≤ t.seq ∧ ∀ r ∈ t.rows, r.id = row.id → r = row

omit [DecidableEq ι] in
theorem named_of_mem {t : Table μ} {row : Row μ} (present : row ∈ t.rows) : Named t row :=
  ⟨t.issued row present, fun _ hr same => Table.eq_of_id hr present same⟩

theorem named_store {t : Table μ} {row : Row μ} (named : Named t row) (f : StoreFaults) (m : μ) :
    Named (store f m t) row := by
  refine ⟨Nat.le_trans named.1 (seq_le_store f m t), fun r hr same => ?_⟩
  rcases mem_store hr with old | new
  · exact named.2 r old same
  · -- a new row carries an id that no reader has seen
    have issued : r.id ≤ t.seq := same ▸ named.1
    rw [new] at issued
    exact absurd issued (Nat.not_succ_le_self t.seq)

theorem named_remove {t : Table μ} {row : Row μ} (named : Named t row) (id : Nat) :
    Named (t.remove id) row :=
  ⟨named.1, fun r hr same => named.2 r (Table.mem_remove.mp hr).1 same⟩

/-- The safety invariant of all flush calls: snapshots name their rows, and a row
about to be deleted was accepted by `flush_fn_`. -/
structure Safe (s : Pool ι μ) : Prop where
  named : ∀ i fl, s.flushers i = some fl → ∀ row ∈ fl.pending, Named s.table row
  accepted : ∀ i row rest n, s.flushers i = some (.delete row rest n) →
    (i, row, true) ∈ s.handed

omit [DecidableEq ι] in
theorem safe_start (t : Table μ) : Safe (Pool.start t : Pool ι μ) where
  named _ _ h := by cases h
  accepted _ _ _ _ h := by cases h

@[simp] theorem setFlusher_same (s : Pool ι μ) (i : ι) (fl : Flusher μ) :
    (s.setFlusher i fl).flushers i = some fl := by
  simp [Pool.setFlusher]

@[simp] theorem setFlusher_other (s : Pool ι μ) {i j : ι} (fl : Flusher μ) (h : j ≠ i) :
    (s.setFlusher i fl).flushers j = s.flushers j := by
  simp [Pool.setFlusher, h]

@[simp] theorem setFlusher_table (s : Pool ι μ) (i : ι) (fl : Flusher μ) :
    (s.setFlusher i fl).table = s.table := rfl

@[simp] theorem setFlusher_handed (s : Pool ι μ) (i : ι) (fl : Flusher μ) :
    (s.setFlusher i fl).handed = s.handed := rfl

@[simp] theorem setFlusher_stored (s : Pool ι μ) (i : ι) (fl : Flusher μ) :
    (s.setFlusher i fl).stored = s.stored := rfl

/-- A step of `flush()` keeps the names of all rows, reads only present rows, and
comes to a DELETE only with an accepted row. -/
private theorem flusher_named {env : FlushEnv} {t t' : Table μ} {fl fl' : Flusher μ}
    (move : fl.step env t = some (t', fl')) :
    (∀ row, Named t row → Named t' row) ∧
    ((∀ row ∈ fl.pending, Named t row) → ∀ row ∈ fl'.pending, Named t row) ∧
    (∀ row rest n, fl' = .delete row rest n → (row, true) ∈ fl.calls env) := by
  rcases Flusher.step_cases move with ⟨n, rfl, rfl, reads, -, noDelete⟩ |
    ⟨row, rest, n, rfl, rfl, ⟨yes, rfl⟩ | ⟨no, rfl⟩⟩ | ⟨row, rest, n, rfl, rfl, rfl⟩
  · refine ⟨fun _ h => h, fun _ row hr => ?_, fun row rest k h => absurd h (noDelete row rest k)⟩
    rw [reads] at hr
    exact named_of_mem ((batch_sublist env.select t').subset hr)
  · refine ⟨fun _ h => h, fun h => h, fun row' rest' n' same => ?_⟩
    cases same
    simp [Flusher.calls, yes]
  · exact ⟨fun _ h => h, fun _ row hr => absurd hr (by simp [Flusher.pending]),
      fun _ _ _ same => by cases same⟩
  · refine ⟨fun r named => ?_, fun h r hr => ?_, fun row' rest' n' same => ?_⟩
    · split
      · exact named
      · exact named_remove named row.id
    · rw [pending_nextRow] at hr
      exact h r (List.mem_cons_of_mem row hr)
    · cases rest <;> cases same

theorem safe_step {s s' : Pool ι μ} {a : Act ι μ} (safe : Safe s)
    (move : step s a = some s') : Safe s' := by
  rcases step_cases move with ⟨m, f, rfl, rfl⟩ | ⟨i, rfl, fresh, rfl⟩ |
    ⟨i, env, fl, t', fl', rfl, here, next, rfl⟩
  · exact ⟨fun i fl h row hr => named_store (safe.named i fl h row hr) f m, safe.accepted⟩
  · refine ⟨fun j fl h row hr => ?_, fun j row rest n h => ?_⟩
    · by_cases same : j = i
      · subst same
        obtain rfl : Flusher.select 0 = fl := by simpa using h
        cases hr
      · exact safe.named j fl (by simpa [same] using h) row hr
    · by_cases same : j = i
      · subst same
        simp at h
      · exact safe.accepted j row rest n (by simpa [same] using h)
  · obtain ⟨keeps, reads, accepts⟩ := flusher_named next
    refine ⟨fun j gl h row hr => ?_, fun j row rest n h => ?_⟩
    · by_cases same : j = i
      · subst same
        obtain rfl : fl' = gl := by simpa using h
        exact keeps row (reads (safe.named j fl here) row hr)
      · exact keeps row (safe.named j gl (by simpa [same] using h) row hr)
    · by_cases same : j = i
      · subst same
        obtain rfl : fl' = .delete row rest n := by simpa using h
        exact List.mem_append_right _ (List.mem_map.mpr ⟨_, accepts row rest n rfl, rfl⟩)
      · exact List.mem_append_left _ (safe.accepted j row rest n (by simpa [same] using h))

theorem safe_of_run {t : Table μ} {s : Pool ι μ} (run : Reaches step anyStep (Pool.start t) s) :
    Safe s :=
  run.invariant (safe_start t) fun _ _ _ before _ move => safe_step before move

theorem table_of_delete {s s' : Pool ι μ} {i : ι} {env : FlushEnv} {row : Row μ}
    {rest : List (Row μ)} {n : Nat} (here : s.flushers i = some (.delete row rest n))
    (move : step s (.flush i env) = some s') :
    s'.table = if env.deleteFails then s.table else s.table.remove row.id := by
  simp only [step, here, Flusher.step, Option.map_some, Option.some.injEq] at move
  subst move
  rfl

/-- How a row can leave the table in one step. -/
theorem leaves_cases {s s' : Pool ι μ} {a : Act ι μ} (safe : Safe s) (move : step s a = some s')
    {r : Row μ} (present : r ∈ s.table.rows) (gone : r ∉ s'.table.rows) :
    (∃ m f, a = .store m f ∧ BUFFER_MAX_MESSAGES ≤ s.table.count ∧
      r ∈ s.table.oldest (toDelete s.table)) ∨
    (∃ i env rest n, a = .flush i env ∧ s.flushers i = some (.delete r rest n) ∧
      (i, r, true) ∈ s.handed) := by
  have original := move
  rcases step_cases move with ⟨m, f, rfl, rfl⟩ | ⟨i, rfl, fresh, rfl⟩ |
    ⟨i, env, fl, t', fl', rfl, here, next, rfl⟩
  · exact .inl ⟨m, f, rfl, pruned_of_store present gone⟩
  · exact absurd present gone
  · rcases Flusher.step_cases next with ⟨n, -, rfl, -⟩ | ⟨row, rest, n, -, rfl, -⟩ |
      ⟨row, rest, n, rfl, -, -⟩
    · exact absurd present gone
    · exact absurd present gone
    · have named := (safe.named i _ here row (by simp [Flusher.pending])).2
      have same : r.id = row.id := by
        by_contra apart
        apply gone
        rw [table_of_delete here original]
        split
        · exact present
        · exact Table.mem_remove.mpr ⟨present, apart⟩
      obtain rfl := named r present same
      exact .inr ⟨i, env, rest, n, rfl, here, safe.accepted i r rest n here⟩

/-- A row leaves the table only as one of the oldest rows of a full table, or by
the DELETE of a flush call for which `flush_fn_` returned true on this very row.
A DELETE for a row that is gone removes nothing. -/
theorem row_leaves_by_prune_or_after_publish {t : Table μ} {s s' : Pool ι μ} {a : Act ι μ}
    (run : Reaches step anyStep (Pool.start t) s) (move : step s a = some s') :
    (∀ r ∈ s.table.rows, r ∉ s'.table.rows →
      (∃ m f, a = .store m f ∧ BUFFER_MAX_MESSAGES ≤ s.table.count ∧
        r ∈ s.table.oldest (toDelete s.table)) ∨
      (∃ i env rest n, a = .flush i env ∧ s.flushers i = some (.delete r rest n) ∧
        (i, r, true) ∈ s.handed)) ∧
    (∀ i env row rest n, a = .flush i env → s.flushers i = some (.delete row rest n) →
      row ∉ s.table.rows → s'.table.rows = s.table.rows) := by
  have safe := safe_of_run run
  refine ⟨fun r present gone => leaves_cases safe move present gone, ?_⟩
  rintro i env row rest n rfl here absent
  rw [table_of_delete here move]
  split
  · rfl
  · have named := (safe.named i _ here row (by simp [Flusher.pending])).2
    apply Table.remove_rows_of_absent
    intro r hr same
    exact absent (named r hr same ▸ hr)

/-- Two flush calls read the same row; the slower one deletes it a second time
after another message was stored, and that message stays. -/
theorem late_delete_removes_nothing :
    ∃ s s' : Pool Bool String, Reaches step anyStep (Pool.start Table.empty) s ∧
      step s (.flush true healthy) = some s' ∧ s.table.rows = [⟨2, "late"⟩] ∧
      s'.table.rows = s.table.rows := by
  let run : List (Act Bool String) :=
    [.store "first" noStoreFaults, .call false, .call true, .flush false healthy,
      .flush true healthy, .flush false healthy, .flush true healthy, .flush false healthy,
      .store "late" noStoreFaults]
  have reached : ∃ s, exec step (Pool.start Table.empty) run = some s ∧
      s.table.rows = [⟨2, "late"⟩] ∧ s.flushers true = some (.delete ⟨1, "first"⟩ [] 0) :=
    ⟨_, rfl, by decide, by decide⟩
  obtain ⟨s, replay, rows, here⟩ := reached
  have moves : ∃ s', step s (.flush true healthy) = some s' := by
    simp [step, here, Flusher.step]
  obtain ⟨s', move⟩ := moves
  have absent : (⟨1, "first"⟩ : Row String) ∉ s.table.rows := by
    rw [rows]
    decide
  exact ⟨s, s', exec_reaches_any replay, move, rows,
    (row_leaves_by_prune_or_after_publish (exec_reaches_any replay) move).2 true healthy _ [] 0
      rfl here absent⟩

end OrbisAgent.Buffer.ConcurrentFlush
