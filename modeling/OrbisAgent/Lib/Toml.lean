/- OrbisAgent/Lib/Toml
   generality: G
   digest: TOML values, lookup by path, replacing one string, and accessors with defaults. -/

import OrbisAgent.Lib.ByteString

set_option autoImplicit false
set_option relaxedAutoImplicit false

namespace OrbisAgent.Lib.Toml

open OrbisAgent.Lib.ByteString

/-- TOML values; floats and dates by their text. -/
inductive Value
  | boolean (b : Bool)
  | integer (n : Int)
  | floating (text : Bytes)
  | datetime (text : Bytes)
  | string (s : Bytes)
  | array (items : List Value)
  | table (entries : List (Bytes × Value))

inductive Step
  | key (name : Bytes)
  | index (n : Nat)
  deriving DecidableEq

namespace Value

def find : List Step → Value → Option Value
  | [], v => some v
  | .key name :: path, .table entries => (entries.lookup name).bind (find path)
  | .index n :: path, .array items => (items[n]?).bind (find path)
  | _ :: _, _ => none

/-- Put a string at a path that exists. -/
def set : List Step → Bytes → Value → Value
  | [], w, _ => .string w
  | .key name :: path, w, .table entries =>
      .table (entries.map fun entry =>
        (entry.1, if entry.1 = name then set path w entry.2 else entry.2))
  | .index n :: path, w, .array items => .array (items.modify n (set path w))
  | _ :: _, _, v => v

/-- `find_or` with a string default. -/
def stringOr (root : Value) (tableName name : Bytes) (other : Bytes) : Bytes :=
  match root.find [.key tableName, .key name] with
  | some (.string s) => s
  | _ => other

/-- `find_or` with an `int` default: the integer is cast to 32 bits. -/
def intOr (root : Value) (tableName name : Bytes) (other : Int) : Int :=
  match root.find [.key tableName, .key name] with
  | some (.integer n) => n.bmod (2 ^ 32)
  | _ => other

/-- `find_or` with a boolean default. -/
def boolOr (root : Value) (tableName name : Bytes) (other : Bool) : Bool :=
  match root.find [.key tableName, .key name] with
  | some (.boolean b) => b
  | _ => other

theorem stringOr_of_find {root : Value} {tableName name s : Bytes}
    (found : root.find [.key tableName, .key name] = some (.string s)) (other : Bytes) :
    root.stringOr tableName name other = s := by
  unfold stringOr
  rw [found]

theorem lookup_map_values (f : Bytes → Value → Value) (name : Bytes)
    (entries : List (Bytes × Value)) :
    (entries.map fun entry => (entry.1, f entry.1 entry.2)).lookup name =
      (entries.lookup name).map (f name) := by
  induction entries with
  | nil => rfl
  | cons entry entries ih =>
      rw [List.map_cons, List.lookup_cons, List.lookup_cons, ih]
      by_cases here : name = entry.1
      · simp [here]
      · rw [beq_false_of_ne here]

theorem find_key_set (name : Bytes) (path : List Step) (w other : Bytes) (q : List Step)
    (entries : List (Bytes × Value)) :
    (Value.table entries |>.set (.key name :: path) w).find (.key other :: q) =
      (entries.lookup other).bind fun v =>
        if other = name then (v.set path w).find q else v.find q := by
  have mapped := lookup_map_values (fun k v => if k = name then set path w v else v) other entries
  rw [set, find, mapped, Option.bind_map]
  congr 1
  ext v
  split <;> rfl

theorem find_append (path more : List Step) (root : Value) :
    root.find (path ++ more) = (root.find path).bind (find more) := by
  induction path generalizing root with
  | nil => rfl
  | cons step path ih =>
      cases step with
      | key name =>
          cases root <;> try rfl
          rw [List.cons_append, find, find, Option.bind_assoc]
          congr 1
          ext v : 1
          exact ih v
      | index n =>
          cases root <;> try rfl
          rw [List.cons_append, find, find, Option.bind_assoc]
          congr 1
          ext v : 1
          exact ih v

/-- Nothing is below a string. -/
theorem eq_of_prefix_string {path other : List Step} {root v : Value} {s : Bytes}
    (string : root.find path = some (.string s)) (found : root.find other = some v)
    (before : path <+: other) : path = other := by
  obtain ⟨more, rfl⟩ := before
  rw [find_append, string, Option.bind_some] at found
  cases more with
  | nil => rw [List.append_nil]
  | cons step more => cases step <;> cases found

/-- A string put below a path is put into the value there. -/
theorem find_set_front {path : List Step} {more : List Step} {w : Bytes} {root v : Value}
    (here : root.find path = some v) :
    (root.set (path ++ more) w).find path = some (v.set more w) := by
  induction path generalizing root with
  | nil =>
      obtain rfl := Option.some.inj here
      rfl
  | cons step path ih =>
      cases step with
      | key name =>
          cases root <;> try cases here
          rename_i entries
          rw [List.cons_append, find_key_set]
          obtain ⟨u, found, deeper⟩ := Option.bind_eq_some_iff.mp here
          rw [found, Option.bind_some, if_pos rfl]
          exact ih deeper
      | index n =>
          cases root <;> try cases here
          rename_i items
          obtain ⟨u, found, deeper⟩ := Option.bind_eq_some_iff.mp here
          rw [List.cons_append, set, find, List.getElem?_modify, found]
          simpa using ih deeper

/-- A string put at a path that exists is found there. -/
theorem find_set_same {path : List Step} {w : Bytes} {root v : Value}
    (here : root.find path = some v) : (root.set path w).find path = some (.string w) := by
  have front : (root.set (path ++ []) w).find path = some (v.set [] w) := find_set_front here
  rw [List.append_nil] at front
  exact front

/-- A string put at a path is not seen from a path beside it. -/
theorem find_set_apart {path other : List Step} {w : Bytes} {root : Value}
    (apart : ¬ path <+: other) (beside : ¬ other <+: path) :
    (root.set path w).find other = root.find other := by
  induction path generalizing root other with
  | nil => exact absurd List.nil_prefix apart
  | cons step path ih =>
      cases other with
      | nil => exact absurd List.nil_prefix beside
      | cons step' other =>
          have deeper : step = step' → ∀ v : Value, (v.set path w).find other = v.find other := by
            rintro rfl v
            exact ih (fun before => apart (List.cons_prefix_cons.mpr ⟨rfl, before⟩))
              (fun before => beside (List.cons_prefix_cons.mpr ⟨rfl, before⟩))
          cases step with
          | key name =>
              cases root <;> try rfl
              cases step' with
              | index _ => rfl
              | key name' =>
                  rw [find_key_set, find]
                  congr 1
                  ext v : 1
                  split
                  · rename_i same
                    rw [deeper (by rw [same])]
                  · rfl
          | index n =>
              cases root <;> try rfl
              rename_i items
              cases step' with
              | key _ => rfl
              | index m =>
                  rw [set, find, find, List.getElem?_modify]
                  by_cases same : n = m
                  · cases items[m]? <;> simp [same, deeper]
                  · simp [same]

/-- A value without what is below it: a table by its keys, an array by its length. -/
def surface : Value → Value
  | .table entries => .table (entries.map fun entry => (entry.1, .table []))
  | .array items => .array (items.map fun _ => .table [])
  | v => v

/-- A string put somewhere below a value does not show on its surface. -/
theorem surface_set {more : List Step} (below : more ≠ []) (w : Bytes) (v : Value) :
    (v.set more w).surface = v.surface := by
  cases more with
  | nil => exact absurd rfl below
  | cons step more =>
      cases step with
      | key name => cases v <;> simp [set, surface]
      | index n =>
          cases v <;> try rfl
          rename_i items
          simp only [set, surface, Value.array.injEq]
          rw [List.map_const', List.map_const', List.length_modify]

/-- A string put in the place of another is seen on the surface of its own path only. -/
theorem surface_find_set {path other : List Step} {root : Value} {s : Bytes}
    (here : root.find path = some (.string s)) (apart : other ≠ path) (w : Bytes) :
    ((root.set path w).find other).map surface = (root.find other).map surface := by
  by_cases below : path <+: other
  · obtain ⟨more, rfl⟩ := below
    have some' : more ≠ [] := by
      rintro rfl
      exact apart (List.append_nil path)
    have nothing : ∀ t : Bytes, find more (.string t) = none := by
      intro t
      cases more with
      | nil => exact absurd rfl some'
      | cons step more => cases step <;> rfl
    rw [find_append, find_append, find_set_same here, here]
    simp only [Option.bind_some, nothing]
  · by_cases above : other <+: path
    · obtain ⟨more, rfl⟩ := above
      have some' : more ≠ [] := by
        rintro rfl
        exact apart (List.append_nil other).symm
      rw [find_append] at here
      obtain ⟨v, found, _⟩ := Option.bind_eq_some_iff.mp here
      rw [find_set_front found, found, Option.map_some, Option.map_some, surface_set some']
    · rw [find_set_apart below above]

end Value

end OrbisAgent.Lib.Toml
