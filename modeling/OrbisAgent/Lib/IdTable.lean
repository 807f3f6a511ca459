/- OrbisAgent/Lib/IdTable
   generality: G
   digest: Tables of rows under increasing ids that are never issued twice. -/

import Mathlib.Data.List.Basic
import Mathlib.Data.List.Nodup

set_option autoImplicit false
set_option relaxedAutoImplicit false

namespace OrbisAgent.Lib.IdTable

universe u v

/-- A value under the id it was inserted with. -/
structure Row (μ : Type u) where
  id : Nat
  msg : μ
  deriving DecidableEq

/-- Rows in id order. `seq` is the largest id ever issued, whether or not its
row is still present. -/
structure Table (μ : Type u) where
  rows : List (Row μ)
  seq : Nat
  sorted : rows.Pairwise fun a b => a.id < b.id
  issued : ∀ r ∈ rows, r.id ≤ seq

variable {μ : Type u}

namespace Table

def empty : Table μ := ⟨[], 0, .nil, by simp⟩

def count (t : Table μ) : Nat := t.rows.length

/-- The row that the next insertion adds. -/
def newRow (t : Table μ) (m : μ) : Row μ := ⟨t.seq + 1, m⟩

def insert (t : Table μ) (m : μ) : Table μ where
  rows := t.rows ++ [t.newRow m]
  seq := t.seq + 1
  sorted := List.pairwise_append.mpr ⟨t.sorted, List.pairwise_singleton _ _, by
    intro a ha b hb
    obtain rfl := List.mem_singleton.mp hb
    exact Nat.lt_succ_of_le (t.issued a ha)⟩
  issued r hr := by
    rcases List.mem_append.mp hr with old | new
    · exact Nat.le_succ_of_le (t.issued r old)
    · obtain rfl := List.mem_singleton.mp new
      exact Nat.le_refl _

/-- The same ids with other values. -/
def map {ν : Type v} (f : μ → ν) (t : Table μ) : Table ν where
  rows := t.rows.map fun r => ⟨r.id, f r.msg⟩
  seq := t.seq
  sorted := List.pairwise_map.mpr t.sorted
  issued r hr := by
    obtain ⟨old, present, rfl⟩ := List.mem_map.mp hr
    exact t.issued old present

/-- Remove the row with the given id, if it is present. -/
def remove (t : Table μ) (id : Nat) : Table μ where
  rows := t.rows.filter fun r => r.id != id
  seq := t.seq
  sorted := t.sorted.filter _
  issued r hr := t.issued r (List.mem_filter.mp hr).1

/-- Remove the `n` rows with the smallest ids. -/
def dropOldest (t : Table μ) (n : Nat) : Table μ where
  rows := t.rows.drop n
  seq := t.seq
  sorted := t.sorted.drop
  issued r hr := t.issued r (List.mem_of_mem_drop hr)

/-- The `n` rows with the smallest ids. -/
def oldest (t : Table μ) (n : Nat) : List (Row μ) := t.rows.take n

@[simp] theorem insert_rows (t : Table μ) (m : μ) : (t.insert m).rows = t.rows ++ [t.newRow m] :=
  rfl

@[simp] theorem insert_seq (t : Table μ) (m : μ) : (t.insert m).seq = t.seq + 1 := rfl

@[simp] theorem dropOldest_rows (t : Table μ) (n : Nat) :
    (t.dropOldest n).rows = t.rows.drop n := rfl

@[simp] theorem dropOldest_seq (t : Table μ) (n : Nat) : (t.dropOldest n).seq = t.seq := rfl

theorem ids_nodup (t : Table μ) : (t.rows.map Row.id).Nodup :=
  List.pairwise_map.mpr (t.sorted.imp Nat.ne_of_lt)

/-- An id names one row. -/
theorem eq_of_id {t : Table μ} {a b : Row μ} (ha : a ∈ t.rows) (hb : b ∈ t.rows)
    (same : a.id = b.id) : a = b :=
  List.inj_on_of_nodup_map t.ids_nodup ha hb same

theorem nodup (t : Table μ) : t.rows.Nodup := t.ids_nodup.of_map _

theorem mem_remove {t : Table μ} {id : Nat} {r : Row μ} :
    r ∈ (t.remove id).rows ↔ r ∈ t.rows ∧ r.id ≠ id := by
  simp [remove]

/-- Removing by the id of a present row removes exactly this row. -/
theorem mem_remove_of_mem {t : Table μ} {a r : Row μ} (ha : a ∈ t.rows) :
    r ∈ (t.remove a.id).rows ↔ r ∈ t.rows ∧ r ≠ a := by
  rw [mem_remove]
  constructor
  · rintro ⟨hr, apart⟩
    exact ⟨hr, fun same => apart (same ▸ rfl)⟩
  · rintro ⟨hr, apart⟩
    exact ⟨hr, fun same => apart (eq_of_id hr ha same)⟩

/-- Removing by an id that no present row carries changes nothing. -/
theorem remove_rows_of_absent {t : Table μ} {id : Nat} (absent : ∀ r ∈ t.rows, r.id ≠ id) :
    (t.remove id).rows = t.rows :=
  List.filter_eq_self.mpr fun r hr => by simpa using absent r hr

theorem remove_rows_of_split {t : Table μ} {a : Row μ} {before after : List (Row μ)}
    (split : t.rows = before ++ a :: after) : (t.remove a.id).rows = before ++ after := by
  have apart : ∀ r ∈ before ++ after, r.id ≠ a.id := by
    have ids := t.ids_nodup
    rw [split, List.map_append, List.map_cons] at ids
    have middle := (List.nodup_middle.mp ids)
    intro r hr same
    refine (List.nodup_cons.mp middle).1 ?_
    rw [← List.map_append, ← same]
    exact List.mem_map_of_mem hr
  simp only [remove, split, List.filter_append, List.filter_cons, bne_self_eq_false,
    Bool.false_eq_true, if_false]
  rw [← List.filter_append]
  exact List.filter_eq_self.mpr fun r hr => by simpa using apart r hr

theorem count_remove_of_mem {t : Table μ} {a : Row μ} (ha : a ∈ t.rows) :
    (t.remove a.id).count + 1 = t.count := by
  obtain ⟨before, after, split⟩ := List.append_of_mem ha
  simp only [count, remove_rows_of_split split, split, List.length_append, List.length_cons]
  omega

end Table

end OrbisAgent.Lib.IdTable
