/- OrbisAgent/Buffer/FlushOnce
   source: LocalBuffer::flush, main (connected callback and shutdown flush)
   digest: Concurrent flush calls hand every row over once as long as no SELECT reads a row
   that another call has already taken. -/

import OrbisAgent.Buffer.ConcurrentFlush
import Mathlib.Algebra.BigOperators.Group.Finset.Basic
import Mathlib.Data.Fintype.Basic

set_option autoImplicit false
set_option relaxedAutoImplicit false

namespace OrbisAgent.Buffer.FlushOnce

open OrbisAgent.Buffer.LocalBuffer
open OrbisAgent.Buffer.ConcurrentFlush
open OrbisAgent.Constants (BUFFER_MAX_MESSAGES BUFFER_FLUSH_BATCH_SIZE)
open OrbisAgent.Lib.IdTable (Row Table)
open OrbisAgent.Lib.Transition

universe u v

variable {ι : Type u} {μ : Type v}

/-- The rows that flush call `i` has read and not deleted yet. -/
def pendingOf (s : Pool ι μ) (i : ι) : List (Row μ) :=
  (s.flushers i).elim [] Flusher.pending

/-- The counter of flush call `i`, and its result once it has returned. -/
def returned (s : Pool ι μ) (i : ι) : Nat :=
  (s.flushers i).elim 0 Flusher.flushed

/-- The rows given to `flush_fn_`, one entry for each call of it. -/
def handedRows (s : Pool ι μ) : List (Row μ) :=
  s.handed.map fun call => call.2.1

/-- The stored rows whose id is no longer in the table. -/
def removed (s : Pool ι μ) : List (Row μ) :=
  s.stored.filter fun r => s.table.rows.all fun q => q.id != r.id

/-- Every publish and every SQLite statement succeeds, and the table is below
capacity at every `store()`. -/
def Healthy (s : Pool ι μ) : Act ι μ → Prop
  | .store _ f => f = noStoreFaults ∧ s.table.count < BUFFER_MAX_MESSAGES
  | .call _ => True
  | .flush _ env => env = healthy

/-- A SELECT reads no row that another flush call has read and not deleted. -/
def FreshSelect (s : Pool ι μ) : Act ι μ → Prop
  | .store _ _ | .call _ => True
  | .flush i _ => ∀ n, s.flushers i = some (.select n) → ∀ j, j ≠ i →
      ∀ r ∈ s.table.oldest BUFFER_FLUSH_BATCH_SIZE, r ∉ pendingOf s j

def HealthyAndFresh (s : Pool ι μ) (a : Act ι μ) : Prop := Healthy s a ∧ FreshSelect s a

/-- Each stored row is handed over exactly once: never twice, before it leaves
the table at the latest, and at the ends of the batches neither more nor fewer
rows than those that have left. -/
structure ExactlyOnce [Fintype ι] (s : Pool ι μ) : Prop where
  handedOnce : (handedRows s).Nodup
  removedHanded : ∀ r ∈ removed s, r ∈ handedRows s
  atRest : (∀ i, pendingOf s i = []) → s.stored.Perm (handedRows s ++ s.table.rows)
  counted : ∑ i, returned s i = (removed s).length

section Moves

variable [DecidableEq ι]

@[simp] theorem pendingOf_same (s : Pool ι μ) (i : ι) (fl : Flusher μ) :
    pendingOf (s.setFlusher i fl) i = fl.pending := by
  simp [pendingOf]

@[simp] theorem pendingOf_other (s : Pool ι μ) {i j : ι} (fl : Flusher μ) (h : j ≠ i) :
    pendingOf (s.setFlusher i fl) j = pendingOf s j := by
  simp [pendingOf, h]

@[simp] theorem returned_same (s : Pool ι μ) (i : ι) (fl : Flusher μ) :
    returned (s.setFlusher i fl) i = fl.flushed := by
  simp [returned]

@[simp] theorem returned_other (s : Pool ι μ) {i j : ι} (fl : Flusher μ) (h : j ≠ i) :
    returned (s.setFlusher i fl) j = returned s j := by
  simp [returned, h]

omit [DecidableEq ι] in
theorem pendingOf_eq {s : Pool ι μ} {i : ι} {fl : Flusher μ} (here : s.flushers i = some fl) :
    pendingOf s i = fl.pending := by
  simp [pendingOf, here]

/-- The steps of a healthy run, one constructor for each locked section. -/
inductive Moves (s : Pool ι μ) : Act ι μ → Pool ι μ → Prop
  | store (m : μ) : Moves s (.store m noStoreFaults)
      { s with table := s.table.insert m, stored := s.stored ++ [s.table.newRow m] }
  | call (i : ι) (fresh : s.flushers i = none) : Moves s (.call i) (s.setFlusher i (.select 0))
  | select (i : ι) (n : Nat) (fl : Flusher μ) (here : s.flushers i = some (.select n))
      (reads : fl.pending = s.table.oldest BUFFER_FLUSH_BATCH_SIZE) (kept : fl.flushed = n)
      (noDelete : ∀ row rest k, fl ≠ .delete row rest k) :
      Moves s (.flush i healthy) (s.setFlusher i fl)
  | publish (i : ι) (row : Row μ) (rest : List (Row μ)) (n : Nat)
      (here : s.flushers i = some (.publish row rest n)) :
      Moves s (.flush i healthy)
        (Pool.setFlusher { s with handed := s.handed ++ [(i, row, true)] } i (.delete row rest n))
  | delete (i : ι) (row : Row μ) (rest : List (Row μ)) (n : Nat)
      (here : s.flushers i = some (.delete row rest n)) :
      Moves s (.flush i healthy)
        (Pool.setFlusher { s with table := s.table.remove row.id } i (nextRow rest (n + 1)))

omit [DecidableEq ι] in
private theorem afterStore_below {s : Pool ι μ} (m : μ)
    (below : s.table.count < BUFFER_MAX_MESSAGES) :
    s.afterStore m noStoreFaults =
      { s with table := s.table.insert m, stored := s.stored ++ [s.table.newRow m] } := by
  have old : s.table.rows.filter (fun r => decide (s.table.seq < r.id)) = [] := by
    refine List.filter_eq_nil_iff.mpr fun r hr => ?_
    have issued := s.table.issued r hr
    simpa using issued
  simp [Pool.afterStore, store_below m below, List.filter_append, old, Table.newRow]

theorem moves_of_step {s s' : Pool ι μ} {a : Act ι μ} (ok : Healthy s a)
    (move : step s a = some s') : Moves s a s' := by
  rcases step_cases move with ⟨m, f, rfl, rfl⟩ | ⟨i, rfl, fresh, rfl⟩ |
    ⟨i, env, fl, t', fl', rfl, here, next, rfl⟩
  · obtain ⟨rfl, below⟩ := ok
    rw [afterStore_below m below]
    exact .store m
  · exact .call i fresh
  · obtain rfl : env = healthy := ok
    rcases Flusher.step_cases next with ⟨n, rfl, rfl, reads, kept, noDelete⟩ |
      ⟨row, rest, n, rfl, rfl, ⟨-, rfl⟩ | ⟨no, rfl⟩⟩ | ⟨row, rest, n, rfl, rfl, rfl⟩
    · simpa [Flusher.calls] using Moves.select i n fl' here reads kept noDelete
    · exact .publish i row rest n here
    · cases no
    · simpa [Flusher.calls, healthy] using Moves.delete i row rest n here

/-- The batches in progress are disjoint parts of the table. -/
structure Batches (s : Pool ι μ) : Prop where
  apart : ∀ i j, i ≠ j → ∀ r ∈ pendingOf s i, r ∉ pendingOf s j
  nodup : ∀ i, (pendingOf s i).Nodup
  present : ∀ i, ∀ r ∈ pendingOf s i, r ∈ s.table.rows

omit [DecidableEq ι] in
theorem batches_start (t : Table μ) : Batches (Pool.start t : Pool ι μ) where
  apart _ _ _ _ hr := by cases hr
  nodup _ := List.nodup_nil
  present _ _ hr := by cases hr

/-- One flush call moves on: its new batch must be apart from the others, and
what is pending anywhere must be in the new table. -/
private theorem batches_move {s : Pool ι μ} {i : ι} {fl : Flusher μ} {t' : Table μ}
    {handed' : List (ι × Row μ × Bool)} (before : Batches s)
    (apart : ∀ j, j ≠ i → ∀ r ∈ fl.pending, r ∉ pendingOf s j) (nodup : fl.pending.Nodup)
    (present : ∀ r ∈ fl.pending, r ∈ t'.rows)
    (others : ∀ j, j ≠ i → ∀ r ∈ pendingOf s j, r ∈ t'.rows) :
    Batches (Pool.setFlusher { s with table := t', handed := handed' } i fl) := by
  refine ⟨fun j k ne r hj hk => ?_, fun j => ?_, fun j r hr => ?_⟩
  · by_cases left : j = i
    · subst left
      rw [pendingOf_same] at hj
      rw [pendingOf_other _ _ (Ne.symm ne)] at hk
      exact apart k (Ne.symm ne) r hj hk
    · rw [pendingOf_other _ _ left] at hj
      by_cases right : k = i
      · subst right
        rw [pendingOf_same] at hk
        exact apart j left r hk hj
      · rw [pendingOf_other _ _ right] at hk
        exact before.apart j k ne r hj hk
  · by_cases same : j = i
    · subst same
      rw [pendingOf_same]
      exact nodup
    · rw [pendingOf_other _ _ same]
      exact before.nodup j
  · by_cases same : j = i
    · subst same
      rw [pendingOf_same] at hr
      exact present r hr
    · rw [pendingOf_other _ _ same] at hr
      exact others j same r hr

private theorem batches_step {s s' : Pool ι μ} {a : Act ι μ} (before : Batches s)
    (fresh : FreshSelect s a) (move : Moves s a s') : Batches s' := by
  cases move with
  | store m =>
      refine ⟨before.apart, before.nodup, fun i r hr => ?_⟩
      exact List.mem_append_left _ (before.present i r hr)
  | call i unused =>
      refine batches_move before ?_ List.nodup_nil ?_ fun j _ => before.present j
      · intro j _ r hr
        cases hr
      · intro r hr
        cases hr
  | select i n fl here reads kept noDelete =>
      refine batches_move before ?_ ?_ ?_ fun j _ => before.present j
      · intro j ne r hr
        rw [reads] at hr
        exact fresh n here j ne r hr
      · rw [reads]
        exact s.table.nodup.sublist (List.take_sublist _ _)
      · intro r hr
        rw [reads] at hr
        exact List.mem_of_mem_take hr
  | publish i row rest n here =>
      have same := pendingOf_eq here
      refine batches_move before ?_ ?_ ?_ fun j _ => before.present j
      · intro j ne r hr
        exact before.apart i j (Ne.symm ne) r (same ▸ hr)
      · exact same ▸ before.nodup i
      · intro r hr
        exact before.present i r (same ▸ hr)
  | delete i row rest n here =>
      have same : pendingOf s i = row :: rest := pendingOf_eq here
      have mine : row ∈ pendingOf s i := same ▸ List.mem_cons_self
      have first := before.nodup i
      rw [same] at first
      obtain ⟨absent, restNodup⟩ := List.nodup_cons.mp first
      have removes := fun r => Table.mem_remove_of_mem (r := r) (before.present i row mine)
      refine batches_move before ?_ ?_ ?_ ?_
      · intro j ne r hr
        rw [pending_nextRow] at hr
        exact before.apart i j (Ne.symm ne) r (same ▸ List.mem_cons_of_mem row hr)
      · rw [pending_nextRow]
        exact restNodup
      · intro r hr
        rw [pending_nextRow] at hr
        have there := before.present i r (same ▸ List.mem_cons_of_mem row hr)
        refine (removes r).mpr ⟨there, ?_⟩
        rintro rfl
        exact absent hr
      · intro j ne r hr
        refine (removes r).mpr ⟨before.present j r hr, ?_⟩
        rintro rfl
        exact before.apart i j (Ne.symm ne) r mine hr

/-- What was stored, handed over and removed so far fits together. -/
structure Ledger (s : Pool ι μ) : Prop where
  handedOnce : (handedRows s).Nodup
  handedStored : ∀ r ∈ handedRows s, r ∈ s.stored
  deleting : ∀ r ∈ handedRows s, r ∈ s.table.rows →
    ∃ i rest n, s.flushers i = some (.delete r rest n)
  goneHanded : ∀ r ∈ s.stored, r ∉ s.table.rows → r ∈ handedRows s
  tableStored : ∀ r ∈ s.table.rows, r ∈ s.stored
  storedOnce : (s.stored.map Row.id).Nodup
  issued : ∀ r ∈ s.stored, r.id ≤ s.table.seq

omit [DecidableEq ι] in
theorem ledger_start (t : Table μ) : Ledger (Pool.start t : Pool ι μ) where
  handedOnce := List.nodup_nil
  handedStored _ hr := by cases hr
  deleting _ hr := by cases hr
  goneHanded r hr gone := absurd hr gone
  tableStored _ hr := hr
  storedOnce := t.ids_nodup
  issued := t.issued

/-- A flush call that does not leave a DELETE keeps every DELETE in progress. -/
private theorem deleting_move {s : Pool ι μ} {i : ι} {fl : Flusher μ} {r : Row μ}
    (elsewhere : ∀ rest n, s.flushers i ≠ some (.delete r rest n))
    (before : ∃ j rest n, s.flushers j = some (.delete r rest n)) :
    ∃ j rest n, (s.setFlusher i fl).flushers j = some (.delete r rest n) := by
  obtain ⟨j, rest, n, there⟩ := before
  have ne : j ≠ i := by
    rintro rfl
    exact elsewhere rest n there
  exact ⟨j, rest, n, by rw [setFlusher_other s fl ne, there]⟩

omit [DecidableEq ι] in
/-- A row that a flush call is about to publish was not handed over before. -/
private theorem publishing_unhanded {s : Pool ι μ} {i : ι} {row : Row μ} {rest : List (Row μ)}
    {n : Nat} (batches : Batches s) (ledger : Ledger s)
    (here : s.flushers i = some (.publish row rest n)) : row ∉ handedRows s := by
  intro handed
  have mine : row ∈ pendingOf s i := by
    rw [pendingOf_eq here]
    exact List.mem_cons_self
  obtain ⟨j, rest', n', there⟩ := ledger.deleting row handed (batches.present i row mine)
  have ne : i ≠ j := by
    rintro rfl
    rw [here] at there
    cases there
  refine batches.apart i j ne row mine ?_
  rw [pendingOf_eq there]
  exact List.mem_cons_self

omit [DecidableEq ι] in
/-- A new row has an id of its own, so it was not handed over yet. -/
private theorem ledger_store {s : Pool ι μ} (ledger : Ledger s) (m : μ) :
    Ledger { s with table := s.table.insert m, stored := s.stored ++ [s.table.newRow m] } := by
  have new : ∀ r ∈ s.stored, r.id ≠ (s.table.newRow m).id := fun r hr =>
    Nat.ne_of_lt (Nat.lt_succ_of_le (ledger.issued r hr))
  refine ⟨ledger.handedOnce, ?_, ?_, ?_, ?_, ?_, ?_⟩
  · intro r hr
    exact List.mem_append_left _ (ledger.handedStored r hr)
  · intro r hr present
    rcases List.mem_append.mp present with old | added
    · exact ledger.deleting r hr old
    · obtain rfl := List.mem_singleton.mp added
      exact absurd rfl (new _ (ledger.handedStored _ hr))
  · intro r hr gone
    rcases List.mem_append.mp hr with old | added
    · exact ledger.goneHanded r old fun h => gone (List.mem_append_left _ h)
    · exact absurd (List.mem_append_right _ added) gone
  · intro r hr
    rcases List.mem_append.mp hr with old | added
    · exact List.mem_append_left _ (ledger.tableStored r old)
    · exact List.mem_append_right _ added
  · rw [List.map_append]
    refine List.nodup_append.mpr ⟨ledger.storedOnce, List.nodup_singleton _, ?_⟩
    intro id hid id' added same
    obtain ⟨r, hr, rfl⟩ := List.mem_map.mp hid
    exact new r hr (same.trans (List.mem_singleton.mp added))
  · intro r hr
    rcases List.mem_append.mp hr with old | added
    · exact Nat.le_succ_of_le (ledger.issued r old)
    · obtain rfl := List.mem_singleton.mp added
      exact Nat.le_refl _

/-- The row that is handed over is still present, and its DELETE comes next. -/
private theorem ledger_publish {s : Pool ι μ} (batches : Batches s) (ledger : Ledger s) {i : ι}
    {row : Row μ} {rest : List (Row μ)} {n : Nat}
    (here : s.flushers i = some (.publish row rest n)) :
    Ledger (Pool.setFlusher { s with handed := s.handed ++ [(i, row, true)] } i
      (.delete row rest n)) := by
  have mine : row ∈ pendingOf s i := by
    rw [pendingOf_eq here]
    exact List.mem_cons_self
  have unhanded := publishing_unhanded batches ledger here
  have grown : handedRows (Pool.setFlusher
      { s with handed := s.handed ++ [(i, row, true)] } i (.delete row rest n)) =
      handedRows s ++ [row] := by
    simp [handedRows]
  refine ⟨?_, ?_, ?_, ?_, ledger.tableStored, ledger.storedOnce, ledger.issued⟩
  · rw [grown]
    refine List.nodup_append.mpr ⟨ledger.handedOnce, List.nodup_singleton _, ?_⟩
    rintro r hr _ added rfl
    exact unhanded (List.mem_singleton.mp added ▸ hr)
  · intro r hr
    rw [grown] at hr
    rcases List.mem_append.mp hr with old | added
    · exact ledger.handedStored r old
    · obtain rfl := List.mem_singleton.mp added
      exact ledger.tableStored r (batches.present i r mine)
  · intro r hr present
    rw [grown] at hr
    rcases List.mem_append.mp hr with old | added
    · refine deleting_move (fun rest' n' => ?_) (ledger.deleting r old present)
      show s.flushers i ≠ _
      rw [here]
      exact nofun
    · obtain rfl := List.mem_singleton.mp added
      exact ⟨i, rest, n, setFlusher_same _ i _⟩
  · intro r hr gone
    rw [grown]
    exact List.mem_append_left _ (ledger.goneHanded r hr gone)

/-- The row that is removed was handed over by the same call. -/
private theorem ledger_delete {s : Pool ι μ} (batches : Batches s) (safe : Safe s)
    (ledger : Ledger s) {i : ι} {row : Row μ} {rest : List (Row μ)} {n : Nat}
    (here : s.flushers i = some (.delete row rest n)) :
    Ledger (Pool.setFlusher { s with table := s.table.remove row.id } i
      (nextRow rest (n + 1))) := by
  have mine : row ∈ pendingOf s i := by
    rw [pendingOf_eq here]
    exact List.mem_cons_self
  have removes := fun r => Table.mem_remove_of_mem (r := r) (batches.present i row mine)
  refine ⟨ledger.handedOnce, ledger.handedStored, ?_, ?_, ?_, ledger.storedOnce, ledger.issued⟩
  · intro r hr present
    obtain ⟨there, apart⟩ := (removes r).mp present
    refine deleting_move (fun rest' n' => ?_) (ledger.deleting r hr there)
    show s.flushers i ≠ _
    rw [here]
    intro same
    cases same
    exact apart rfl
  · intro r hr gone
    by_cases same : r = row
    · subst same
      exact List.mem_map.mpr ⟨_, safe.accepted i r rest n here, rfl⟩
    · exact ledger.goneHanded r hr fun h => gone ((removes r).mpr ⟨h, same⟩)
  · intro r hr
    exact ledger.tableStored r ((removes r).mp hr).1

private theorem ledger_step {s s' : Pool ι μ} {a : Act ι μ} (batches : Batches s)
    (safe : Safe s) (ledger : Ledger s) (move : Moves s a s') : Ledger s' := by
  cases move with
  | store m => exact ledger_store ledger m
  | call i unused =>
      refine { ledger with deleting := fun r hr present => ?_ }
      refine deleting_move (fun rest n => ?_) (ledger.deleting r hr present)
      rw [unused]
      exact nofun
  | select i n fl here reads kept noDelete =>
      refine { ledger with deleting := fun r hr present => ?_ }
      refine deleting_move (fun rest k => ?_) (ledger.deleting r hr present)
      rw [here]
      exact nofun
  | publish i row rest n here => exact ledger_publish batches ledger here
  | delete i row rest n here => exact ledger_delete batches safe ledger here

/-- The counters of all calls and the rows still present make up what was stored. -/
def Counted [Fintype ι] (s : Pool ι μ) : Prop :=
  ∑ i, returned s i + s.table.count = s.stored.length

private theorem sum_returned_set [Fintype ι] (s : Pool ι μ) (i : ι) (fl : Flusher μ) :
    ∑ j, returned (s.setFlusher i fl) j + returned s i = ∑ j, returned s j + fl.flushed := by
  have others : ∑ j ∈ Finset.univ.erase i, returned (s.setFlusher i fl) j =
      ∑ j ∈ Finset.univ.erase i, returned s j := by
    refine Finset.sum_congr rfl fun j hj => ?_
    exact returned_other s fl (Finset.ne_of_mem_erase hj)
  rw [← Finset.add_sum_erase _ _ (Finset.mem_univ i), others, returned_same,
    ← Finset.add_sum_erase _ (returned s) (Finset.mem_univ i)]
  omega

private theorem counted_step [Fintype ι] {s s' : Pool ι μ} {a : Act ι μ} (batches : Batches s)
    (counted : Counted s) (move : Moves s a s') : Counted s' := by
  unfold Counted at counted ⊢
  cases move with
  | store m =>
      show ∑ i, returned s i + (s.table.rows ++ [s.table.newRow m]).length =
        (s.stored ++ [s.table.newRow m]).length
      have present : s.table.rows.length = s.table.count := rfl
      simp only [List.length_append, List.length_singleton]
      omega
  | call i unused =>
      have moved := sum_returned_set s i (.select 0)
      have zero : returned s i = 0 := by simp [returned, unused]
      simp only [Flusher.flushed, setFlusher_table, setFlusher_stored] at moved ⊢
      omega
  | select i n fl here reads kept noDelete =>
      have moved := sum_returned_set s i fl
      have same : returned s i = n := by simp [returned, here, Flusher.flushed]
      simp only [setFlusher_table, setFlusher_stored]
      omega
  | publish i row rest n here =>
      have moved := sum_returned_set { s with handed := s.handed ++ [(i, row, true)] } i
        (.delete row rest n)
      have same : returned s i = n := by simp [returned, here, Flusher.flushed]
      change _ + returned s i = ∑ j, returned s j + n at moved
      simp only [setFlusher_table, setFlusher_stored]
      omega
  | delete i row rest n here =>
      have moved := sum_returned_set { s with table := s.table.remove row.id } i
        (nextRow rest (n + 1))
      have same : returned s i = n := by simp [returned, here, Flusher.flushed]
      have mine : row ∈ pendingOf s i := by
        rw [pendingOf_eq here]
        exact List.mem_cons_self
      have fewer := Table.count_remove_of_mem (batches.present i row mine)
      rw [flushed_nextRow] at moved
      change _ + returned s i = ∑ j, returned s j + (n + 1) at moved
      simp only [setFlusher_table, setFlusher_stored]
      omega

/-- What holds in every state of a healthy run with fresh SELECTs. -/
structure Orderly [Fintype ι] (s : Pool ι μ) : Prop where
  safe : Safe s
  batches : Batches s
  ledger : Ledger s
  counted : Counted s

theorem orderly_of_run [Fintype ι] {t : Table μ} {s : Pool ι μ}
    (run : Reaches step HealthyAndFresh (Pool.start t) s) : Orderly s := by
  have start : Orderly (Pool.start t : Pool ι μ) := by
    refine ⟨safe_start t, batches_start t, ledger_start t, ?_⟩
    simp [Counted, Pool.start, returned, Table.count]
  refine run.invariant start fun s s' a before guard move => ?_
  have moves := moves_of_step guard.1 move
  exact ⟨safe_step before.safe move, batches_step before.batches guard.2 moves,
    ledger_step before.batches before.safe before.ledger moves,
    counted_step before.batches before.counted moves⟩

omit [DecidableEq ι] in
theorem mem_removed {s : Pool ι μ} (ledger : Ledger s) {r : Row μ} :
    r ∈ removed s ↔ r ∈ s.stored ∧ r ∉ s.table.rows := by
  simp only [removed, List.mem_filter, List.all_eq_true, bne_iff_ne, ne_eq]
  constructor
  · rintro ⟨stored, apart⟩
    exact ⟨stored, fun present => apart r present rfl⟩
  · rintro ⟨stored, gone⟩
    refine ⟨stored, fun q hq same => gone ?_⟩
    have both := List.inj_on_of_nodup_map ledger.storedOnce (ledger.tableStored q hq) stored same
    exact both ▸ hq

omit [DecidableEq ι] in
private theorem stored_perm {s : Pool ι μ} (ledger : Ledger s) :
    s.stored.Perm (removed s ++ s.table.rows) := by
  have storedNodup : s.stored.Nodup := ledger.storedOnce.of_map _
  have removedNodup : (removed s).Nodup := storedNodup.filter _
  refine (List.perm_ext_iff_of_nodup storedNodup ?_).mpr fun r => ?_
  · refine List.nodup_append.mpr ⟨removedNodup, s.table.nodup, ?_⟩
    rintro r hr _ present rfl
    exact ((mem_removed ledger).mp hr).2 present
  · rw [List.mem_append, mem_removed ledger]
    constructor
    · intro stored
      by_cases present : r ∈ s.table.rows
      · exact .inr present
      · exact .inl ⟨stored, present⟩
    · rintro (⟨stored, _⟩ | present)
      · exact stored
      · exact ledger.tableStored r present

omit [DecidableEq ι] in
private theorem handed_perm_at_rest {s : Pool ι μ} (ledger : Ledger s)
    (rest : ∀ i, pendingOf s i = []) : (handedRows s).Perm (removed s) := by
  have removedNodup : (removed s).Nodup := (ledger.storedOnce.of_map _).filter _
  refine (List.perm_ext_iff_of_nodup ledger.handedOnce removedNodup).mpr fun r => ?_
  rw [mem_removed ledger]
  constructor
  · intro handed
    refine ⟨ledger.handedStored r handed, fun present => ?_⟩
    obtain ⟨i, more, n, here⟩ := ledger.deleting r handed present
    have none := rest i
    rw [pendingOf_eq here] at none
    cases none
  · rintro ⟨stored, gone⟩
    exact ledger.goneHanded r stored gone

omit [DecidableEq ι] in
private theorem exactlyOnce_of_orderly [Fintype ι] {s : Pool ι μ} (orderly : Orderly s) :
    ExactlyOnce s where
  handedOnce := orderly.ledger.handedOnce
  removedHanded r hr := by
    obtain ⟨stored, gone⟩ := (mem_removed orderly.ledger).mp hr
    exact orderly.ledger.goneHanded r stored gone
  atRest rest :=
    (stored_perm orderly.ledger).trans
      ((handed_perm_at_rest orderly.ledger rest).symm.append_right _)
  counted := by
    have total := orderly.counted
    have lengths := (stored_perm orderly.ledger).length_eq
    unfold Counted Table.count at total
    rw [List.length_append] at lengths
    omega

omit [DecidableEq ι] in
private theorem all_handed_on_empty_table [Fintype ι] {s : Pool ι μ} (orderly : Orderly s)
    (empty : s.table.rows = []) : s.stored.Perm (handedRows s) := by
  have rest : ∀ i, pendingOf s i = [] := by
    intro i
    refine List.eq_nil_iff_forall_not_mem.mpr fun r hr => ?_
    have present := orderly.batches.present i r hr
    rw [empty] at present
    cases present
  have perm := (exactlyOnce_of_orderly orderly).atRest rest
  rwa [empty, List.append_nil] at perm

/-- In every run in which no SELECT reads a row that another flush call has taken
and not deleted, each row is handed over exactly once and the results add up to
the number of removed rows. Whenever a call returns, all stored rows were handed. -/
theorem handed_exactly_once_if_selects_fresh [Fintype ι] {t : Table μ} {s : Pool ι μ}
    (run : Reaches step HealthyAndFresh (Pool.start t) s) :
    ExactlyOnce s ∧ ∀ i n s', step s (.flush i healthy) = some s' →
      s'.flushers i = some (.done n) → s'.stored.Perm (handedRows s') := by
  have orderly := orderly_of_run run
  refine ⟨exactlyOnce_of_orderly orderly, fun i n s' move returns => ?_⟩
  have moves : Moves s (.flush i healthy) s' := moves_of_step rfl move
  cases moves with
  | select i k fl here reads kept noDelete =>
      rw [setFlusher_same] at returns
      cases returns
      -- an empty batch means an empty table, since a batch takes what there is
      have empty : s.table.rows = [] := by
        have none : s.table.oldest BUFFER_FLUSH_BATCH_SIZE = [] := reads.symm
        simpa [Table.oldest, BUFFER_FLUSH_BATCH_SIZE] using none
      have perm : s.stored.Perm (handedRows s) := all_handed_on_empty_table orderly empty
      exact perm
  | publish i row rest k here =>
      rw [setFlusher_same] at returns
      cases returns
  | delete i row rest k here =>
      rw [setFlusher_same] at returns
      cases rest <;> cases returns

section Replay

variable [Fintype ι] [DecidableEq μ]

instance healthyDecidable (s : Pool ι μ) : (a : Act ι μ) → Decidable (Healthy s a)
  | .store _ f => inferInstanceAs (Decidable (f = noStoreFaults ∧ _))
  | .call _ => .isTrue trivial
  | .flush _ env => inferInstanceAs (Decidable (env = healthy))

instance freshSelectDecidable (s : Pool ι μ) : (a : Act ι μ) → Decidable (FreshSelect s a)
  | .store _ _ | .call _ => .isTrue trivial
  | .flush i _ =>
      match here : s.flushers i with
      | some (.select n) =>
          decidable_of_iff (∀ j, j ≠ i →
              ∀ r ∈ s.table.oldest BUFFER_FLUSH_BATCH_SIZE, r ∉ pendingOf s j)
            ⟨fun fresh _ _ => fresh, fun fresh => fresh n here⟩
      | none | some (.publish _ _ _) | some (.delete _ _ _) | some (.done _) =>
          .isTrue fun n select => by
            rw [here] at select
            cases select

instance healthyAndFreshDecidable (s : Pool ι μ) (a : Act ι μ) : Decidable (HealthyAndFresh s a) :=
  inferInstanceAs (Decidable (_ ∧ _))

end Replay

/-- Two flush calls and a `store()` between them: the second call reads its batch when the first
is through with its own, and finds the row that was stored meanwhile. -/
theorem handed_exactly_once_beside_another_flush :
    ∃ s : Pool Bool String, Reaches step HealthyAndFresh (Pool.start (Table.empty.insert "a")) s ∧
      handedRows s = [⟨1, "a"⟩, ⟨2, "b"⟩] ∧ (∀ i, s.flushers i = some (.done 1)) ∧
      ExactlyOnce s := by
  have reached : ∃ s, exec (guarded step HealthyAndFresh)
        (Pool.start (Table.empty.insert "a") : Pool Bool String)
        [.call false, .call true, .flush false healthy, .store "b" noStoreFaults,
          .flush false healthy, .flush false healthy, .flush true healthy, .flush true healthy,
          .flush true healthy, .flush false healthy, .flush true healthy] = some s ∧
      handedRows s = [⟨1, "a"⟩, ⟨2, "b"⟩] ∧ (∀ i, s.flushers i = some (.done 1)) :=
    ⟨_, rfl, by decide, by decide⟩
  obtain ⟨s, replay, handed, done⟩ := reached
  have path := exec_guarded_reaches replay
  exact ⟨s, path, handed, done, (handed_exactly_once_if_selects_fresh path).1⟩

/-- The second flush call reads its batch before the first one has deleted the
row: the row is published twice and both calls count it. -/
theorem overlapping_flushes_hand_a_row_twice :
    ∃ s : Pool Bool Message,
      Reaches step Healthy (Pool.start (Table.empty.insert ⟨"devices/d1/logs", "batch"⟩)) s ∧
      (∀ i, s.flushers i = some (.done 1)) ∧
      handedRows s = [⟨1, "devices/d1/logs", "batch"⟩, ⟨1, "devices/d1/logs", "batch"⟩] ∧
      ∑ i, returned s i = 2 ∧ (removed s).length = 1 ∧ ¬ ExactlyOnce s := by
  let run : List (Act Bool Message) :=
    [.call false, .call true, .flush false healthy, .flush true healthy, .flush false healthy,
      .flush true healthy, .flush false healthy, .flush true healthy, .flush false healthy,
      .flush true healthy]
  have reached : ∃ s, exec step
        (Pool.start (Table.empty.insert ⟨"devices/d1/logs", "batch"⟩)) run = some s ∧
      (∀ i, s.flushers i = some (.done 1)) ∧
      handedRows s = [⟨1, "devices/d1/logs", "batch"⟩, ⟨1, "devices/d1/logs", "batch"⟩] ∧
      ∑ i, returned s i = 2 ∧ (removed s).length = 1 :=
    ⟨_, rfl, by decide, by decide, by decide, by decide⟩
  obtain ⟨s, replay, done, handed, sum, gone⟩ := reached
  have healthyRun : ∀ s : Pool Bool Message, ∀ a ∈ run, Healthy s a := by
    intro s a ha
    simp only [run, List.mem_cons, List.not_mem_nil, or_false] at ha
    rcases ha with rfl | rfl | rfl | rfl | rfl | rfl | rfl | rfl | rfl | rfl <;>
      trivial
  refine ⟨s, exec_reaches replay healthyRun, done, handed, sum, gone, fun once => ?_⟩
  have twice := once.handedOnce
  rw [handed] at twice
  simp at twice

end Moves

end OrbisAgent.Buffer.FlushOnce
