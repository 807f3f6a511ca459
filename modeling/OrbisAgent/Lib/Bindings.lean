/- OrbisAgent/Lib/Bindings
   generality: G
   digest: Association lists under two rules for a repeated key: the first binding stays, or the
   last one replaces it. -/

import Mathlib.Data.List.Nodup

set_option autoImplicit false
set_option relaxedAutoImplicit false

namespace OrbisAgent.Lib.Bindings

universe u v

variable {κ : Type u} {ν : Type v} [BEq κ]

/-- Add a binding unless its key has one. -/
def addNew (table : List (κ × ν)) (binding : κ × ν) : List (κ × ν) :=
  if table.any fun old => old.1 == binding.1 then table else table ++ [binding]

/-- Add a binding in the place of any other one of its key. -/
def replace (table : List (κ × ν)) (binding : κ × ν) : List (κ × ν) :=
  table.filter (fun old => old.1 != binding.1) ++ [binding]

variable {table bindings : List (κ × ν)} {binding : κ × ν} {key : κ}

theorem lookup_cons_of_eq (same : (key == binding.1) = true) :
    (binding :: table).lookup key = some binding.2 := by
  obtain ⟨other, value⟩ := binding
  rw [List.lookup_cons, same]

theorem lookup_cons_of_ne (apart : (key == binding.1) = false) :
    (binding :: table).lookup key = table.lookup key := by
  obtain ⟨other, value⟩ := binding
  rw [List.lookup_cons, apart]

variable [LawfulBEq κ]

theorem lookup_eq_none_of_notMem (absent : key ∉ table.map Prod.fst) : table.lookup key = none := by
  rw [List.lookup_eq_none_iff]
  intro old mem
  have ne : key ≠ old.1 := by
    rintro rfl
    exact absent (List.mem_map_of_mem mem)
  simpa using ne

theorem lookup_addNew : (addNew table binding).lookup key = (table ++ [binding]).lookup key := by
  unfold addNew
  split
  · rename_i present
    obtain ⟨old, mem, same⟩ := List.any_eq_true.mp present
    rw [List.lookup_append]
    cases found : table.lookup key with
    | some value => rfl
    | none =>
        have apart : (key == binding.1) = false := by
          rw [← eq_of_beq same]
          simpa using (List.lookup_eq_none_iff.mp found) old mem
        rw [lookup_cons_of_ne apart]
        rfl
  · rfl

/-- Without the other bindings of some key, those of the rest are the same. -/
theorem lookup_filter_ne {other : κ} (apart : key ≠ other) :
    (table.filter fun old => old.1 != other).lookup key = table.lookup key := by
  induction table with
  | nil => rfl
  | cons old table ih =>
      by_cases same : old.1 = other
      · have dropped : (old.1 != other) = false := by simp [same]
        have skipped : (key == old.1) = false := by simpa [same] using apart
        rw [List.filter_cons, dropped, lookup_cons_of_ne skipped]
        exact ih
      · have kept : (old.1 != other) = true := by simpa using same
        rw [List.filter_cons, kept, if_pos rfl]
        cases here : key == old.1 with
        | true => rw [lookup_cons_of_eq here, lookup_cons_of_eq here]
        | false => rw [lookup_cons_of_ne here, lookup_cons_of_ne here, ih]

theorem lookup_replace : (replace table binding).lookup key = (binding :: table).lookup key := by
  unfold replace
  rw [List.lookup_append]
  cases same : key == binding.1 with
  | true =>
      have absent : (table.filter fun old => old.1 != binding.1).lookup key = none := by
        rw [eq_of_beq same]
        apply List.lookup_eq_none_iff.mpr
        intro old mem
        have other := (List.mem_filter.mp mem).2
        simp only [bne_iff_ne, ne_eq] at other
        simpa using Ne.symm other
      rw [absent, lookup_cons_of_eq same, lookup_cons_of_eq same]
      rfl
  | false =>
      rw [lookup_filter_ne (by simpa using same), lookup_cons_of_ne same, lookup_cons_of_ne same]
      exact Option.or_none

/-- Under the first rule, what was there counts, then the earliest binding. -/
theorem lookup_foldl_addNew :
    (bindings.foldl addNew table).lookup key = (table ++ bindings).lookup key := by
  induction bindings generalizing table with
  | nil => simp
  | cons binding bindings ih =>
      rw [List.foldl_cons, ih, List.lookup_append, lookup_addNew, ← List.lookup_append,
        List.append_assoc, List.singleton_append]

/-- Under the second rule, the latest binding counts, then what was there. -/
theorem lookup_foldl_replace :
    (bindings.foldl replace table).lookup key = (bindings.reverse ++ table).lookup key := by
  induction bindings generalizing table with
  | nil => simp
  | cons binding bindings ih =>
      rw [List.foldl_cons, ih, List.lookup_append, lookup_replace, ← List.lookup_append,
        List.reverse_cons, List.append_assoc, List.singleton_append]

/-- The first rule keeps one binding for a key. -/
theorem nodup_addNew (nodup : (table.map Prod.fst).Nodup) :
    ((addNew table binding).map Prod.fst).Nodup := by
  unfold addNew
  split
  · exact nodup
  · rename_i fresh
    rw [List.map_append, List.nodup_append]
    refine ⟨nodup, by simp, ?_⟩
    rintro old mem new here rfl
    obtain rfl : old = binding.1 := by simpa using here
    obtain ⟨entry, there, same⟩ := List.mem_map.mp mem
    exact fresh (List.any_eq_true.mpr ⟨entry, there, by simp [same]⟩)

theorem nodup_foldl_addNew (nodup : (table.map Prod.fst).Nodup) :
    ((bindings.foldl addNew table).map Prod.fst).Nodup := by
  induction bindings generalizing table with
  | nil => exact nodup
  | cons binding bindings ih => exact ih (nodup_addNew nodup)

/-- With one binding for a key, the order does not matter. -/
theorem lookup_reverse (nodup : (table.map Prod.fst).Nodup) :
    table.reverse.lookup key = table.lookup key := by
  induction table with
  | nil => rfl
  | cons binding table ih =>
      rw [List.map_cons, List.nodup_cons] at nodup
      rw [List.reverse_cons, List.lookup_append, ih nodup.2]
      cases same : key == binding.1 with
      | true =>
          have absent : table.lookup key = none := by
            rw [eq_of_beq same]
            exact lookup_eq_none_of_notMem nodup.1
          rw [absent, lookup_cons_of_eq same, lookup_cons_of_eq same]
          rfl
      | false =>
          rw [lookup_cons_of_ne same, lookup_cons_of_ne same]
          exact Option.or_none

end OrbisAgent.Lib.Bindings
