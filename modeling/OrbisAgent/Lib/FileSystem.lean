/- OrbisAgent/Lib/FileSystem
   generality: G
   digest: Paths that name files, where a rename moves a name and a write changes a file. -/

import Mathlib.Logic.Function.Basic

set_option autoImplicit false
set_option relaxedAutoImplicit false

namespace OrbisAgent.Lib.FileSystem

/-- Which file each path names, and what each file holds. A file that no path
names any more keeps its content for those who still have it open. No file has
two paths, and `next` was never used. -/
structure Fs (π α : Type) where
  dir : π → Option Nat
  data : Nat → List α
  next : Nat
  injective : ∀ p q file, dir p = some file → dir q = some file → p = q
  below : ∀ p file, dir p = some file → file < next

/-- A file's content after a write at an offset. A gap is filled. -/
def overwrite {α : Type} (fill : α) (old : List α) (offset : Nat) (chunk : List α) : List α :=
  if chunk.isEmpty then old
  else
    old.take offset ++ List.replicate (offset - old.length) fill ++ chunk ++
      old.drop (offset + chunk.length)

/-- A write to an empty file at its start. -/
theorem overwrite_nil {α : Type} (fill : α) (chunk : List α) :
    overwrite fill [] 0 chunk = chunk := by
  cases chunk <;> simp [overwrite]

/-- The rest of a text after its beginning. -/
theorem overwrite_rest {α : Type} (fill : α) (text : List α) (n : Nat) :
    overwrite fill (text.take n) n (text.drop n) = text := by
  unfold overwrite
  by_cases all : text.length ≤ n
  · rw [List.drop_eq_nil_of_le all, List.isEmpty_nil, if_pos rfl, List.take_of_length_le all]
  · have more : ¬ (text.drop n).isEmpty = true := by
      rw [List.isEmpty_iff, List.drop_eq_nil_iff]
      exact all
    have short : (text.take n).length = n := List.length_take_of_le (by omega)
    have past : (text.take n).drop (n + (text.drop n).length) = [] :=
      List.drop_eq_nil_of_le (by omega)
    rw [if_neg more, past, short, Nat.sub_self, List.take_of_length_le (by omega)]
    simp

namespace Fs

variable {π α : Type}

/-- No path names a file. -/
def empty : Fs π α := ⟨fun _ => none, fun _ => [], 0, nofun, nofun⟩

def read (fs : Fs π α) (p : π) : Option (List α) := (fs.dir p).map fs.data

/-- Replace what a file holds. -/
def store (fs : Fs π α) (file : Nat) (content : List α) : Fs π α where
  dir := fs.dir
  data := Function.update fs.data file content
  next := fs.next
  injective := fs.injective
  below := fs.below

/-- The file that opening a path for writing gives: the one that it names, or a new one. -/
def target (fs : Fs π α) (p : π) : Nat := (fs.dir p).getD fs.next

theorem dir_ne_target (fs : Fs π α) {p q : π} (other : q ≠ p) :
    fs.dir q ≠ some (fs.target p) := by
  intro named
  unfold target at named
  cases present : fs.dir p with
  | none =>
      rw [present] at named
      exact Nat.lt_irrefl _ (fs.below q fs.next named)
  | some file =>
      rw [present] at named
      exact other (fs.injective q p file named present)

variable [DecidableEq π]

/-- A name that is left after one was taken away. -/
theorem named_of_unlinked {dir : π → Option Nat} {p a : π} {file : Nat}
    (name : Function.update dir p none a = some file) : a ≠ p ∧ dir a = some file := by
  by_cases gone : a = p
  · subst gone
    rw [Function.update_self] at name
    cases name
  · rw [Function.update_of_ne gone] at name
    exact ⟨gone, name⟩

/-- Open a path for writing: its file is created, or emptied. -/
def openTrunc (fs : Fs π α) (p : π) : Fs π α where
  dir := Function.update fs.dir p (some (fs.target p))
  data := Function.update fs.data (fs.target p) []
  next := max fs.next (fs.target p + 1)
  injective a b file nameA nameB := by
    by_cases hereA : a = p <;> by_cases hereB : b = p
    · rw [hereA, hereB]
    · subst hereA
      rw [Function.update_self] at nameA
      rw [Function.update_of_ne hereB] at nameB
      exact absurd (nameB.trans nameA.symm) (fs.dir_ne_target hereB)
    · subst hereB
      rw [Function.update_self] at nameB
      rw [Function.update_of_ne hereA] at nameA
      exact absurd (nameA.trans nameB.symm) (fs.dir_ne_target hereA)
    · rw [Function.update_of_ne hereA] at nameA
      rw [Function.update_of_ne hereB] at nameB
      exact fs.injective a b file nameA nameB
  below a file name := by
    by_cases here : a = p
    · subst here
      rw [Function.update_self, Option.some.injEq] at name
      omega
    · rw [Function.update_of_ne here] at name
      have old := fs.below a file name
      omega

/-- Create or replace a file in place. -/
def put (fs : Fs π α) (p : π) (content : List α) : Fs π α :=
  (fs.openTrunc p).store (fs.target p) content

/-- Give the file of `p` the name `q`. What had that name before has no name. -/
def rename (fs : Fs π α) (p q : π) : Fs π α :=
  match present : fs.dir p with
  | none => fs
  | some moved =>
      { dir := Function.update (Function.update fs.dir p none) q (some moved)
        data := fs.data
        next := fs.next
        injective := by
          have old : ∀ a, a ≠ q → ∀ file, Function.update (Function.update fs.dir p none) q
              (some moved) a = some file → fs.dir a = some file ∧ a ≠ p := by
            intro a elsewhere file name
            rw [Function.update_of_ne elsewhere] at name
            have left := named_of_unlinked name
            exact ⟨left.2, left.1⟩
          intro a b file nameA nameB
          by_cases hereA : a = q <;> by_cases hereB : b = q
          · rw [hereA, hereB]
          · subst hereA
            rw [Function.update_self] at nameA
            have oldB := old b hereB file nameB
            exact absurd (fs.injective b p file oldB.1 (present.trans nameA)) oldB.2
          · subst hereB
            rw [Function.update_self] at nameB
            have oldA := old a hereA file nameA
            exact absurd (fs.injective a p file oldA.1 (present.trans nameB)) oldA.2
          · exact fs.injective a b file (old a hereA file nameA).1 (old b hereB file nameB).1
        below := by
          intro a file name
          by_cases here : a = q
          · subst here
            rw [Function.update_self] at name
            exact fs.below p file (present.trans name)
          · rw [Function.update_of_ne here] at name
            exact fs.below a file (named_of_unlinked name).2 }

def remove (fs : Fs π α) (p : π) : Fs π α where
  dir := Function.update fs.dir p none
  data := fs.data
  next := fs.next
  injective a b file nameA nameB :=
    fs.injective a b file (named_of_unlinked nameA).2 (named_of_unlinked nameB).2
  below a file name := fs.below a file (named_of_unlinked name).2

omit [DecidableEq π] in
@[simp] theorem dir_store (fs : Fs π α) (file : Nat) (content : List α) :
    (fs.store file content).dir = fs.dir := rfl

omit [DecidableEq π] in
@[simp] theorem data_store (fs : Fs π α) (file : Nat) (content : List α) :
    (fs.store file content).data = Function.update fs.data file content := rfl

@[simp] theorem dir_openTrunc (fs : Fs π α) (p : π) :
    (fs.openTrunc p).dir = Function.update fs.dir p (some (fs.target p)) := rfl

@[simp] theorem data_openTrunc (fs : Fs π α) (p : π) :
    (fs.openTrunc p).data = Function.update fs.data (fs.target p) [] := rfl

@[simp] theorem dir_remove (fs : Fs π α) (p : π) :
    (fs.remove p).dir = Function.update fs.dir p none := rfl

@[simp] theorem data_remove (fs : Fs π α) (p : π) : (fs.remove p).data = fs.data := rfl

@[simp] theorem data_rename (fs : Fs π α) (p q : π) : (fs.rename p q).data = fs.data := by
  unfold rename
  split <;> rfl

theorem dir_rename {fs : Fs π α} {p : π} {file : Nat} (named : fs.dir p = some file) (q : π) :
    (fs.rename p q).dir = Function.update (Function.update fs.dir p none) q (some file) := by
  unfold rename
  split
  · rename_i absent
    rw [named] at absent
    cases absent
  · rename_i moved present
    rw [named] at present
    cases present
    rfl

omit [DecidableEq π] in
/-- Changing a file changes what is read only at its own path. -/
theorem read_store_other {fs : Fs π α} {p : π} {file : Nat} (other : fs.dir p ≠ some file)
    (content : List α) : (fs.store file content).read p = fs.read p := by
  unfold read
  cases named : fs.dir p with
  | none => simp [named]
  | some here =>
      have apart : here ≠ file := by
        intro same
        exact other (same ▸ named)
      simp [named, Function.update_of_ne apart]

theorem read_openTrunc_other (fs : Fs π α) {p q : π} (other : q ≠ p) :
    (fs.openTrunc p).read q = fs.read q := by
  have apart := fs.dir_ne_target other
  unfold read
  rw [dir_openTrunc, data_openTrunc, Function.update_of_ne other]
  cases named : fs.dir q with
  | none => rfl
  | some file =>
      have elsewhere : file ≠ fs.target p := fun same => apart (same ▸ named)
      rw [Option.map_some, Option.map_some, Function.update_of_ne elsewhere]

@[simp] theorem read_put_same (fs : Fs π α) (p : π) (content : List α) :
    (fs.put p content).read p = some content := by
  simp [read, put]

theorem read_put_other (fs : Fs π α) {p q : π} (other : q ≠ p) (content : List α) :
    (fs.put p content).read q = fs.read q := by
  have apart : (fs.openTrunc p).dir q ≠ some (fs.target p) := by
    rw [dir_openTrunc, Function.update_of_ne other]
    exact fs.dir_ne_target other
  rw [put, read_store_other apart, read_openTrunc_other fs other]

theorem dir_put_other (fs : Fs π α) {p q : π} (other : q ≠ p) (content : List α) :
    (fs.put p content).dir q = fs.dir q := by
  rw [put, dir_store, dir_openTrunc, Function.update_of_ne other]

/-- After a rename the new path has the content of the old one. -/
theorem read_rename_target {fs : Fs π α} {p : π} {content : List α}
    (present : fs.read p = some content) (q : π) : (fs.rename p q).read q = some content := by
  obtain ⟨file, named, holds⟩ := Option.map_eq_some_iff.mp present
  rw [read, dir_rename named, data_rename, Function.update_self, Option.map_some, holds]

theorem dir_rename_other (fs : Fs π α) {p q r : π} (notSource : r ≠ p) (notTarget : r ≠ q) :
    (fs.rename p q).dir r = fs.dir r := by
  unfold rename
  split
  · rfl
  · rename_i moved present
    show Function.update (Function.update fs.dir p none) q (some moved) r = fs.dir r
    rw [Function.update_of_ne notTarget, Function.update_of_ne notSource]

theorem read_rename_other (fs : Fs π α) {p q r : π} (notSource : r ≠ p) (notTarget : r ≠ q) :
    (fs.rename p q).read r = fs.read r := by
  rw [read, data_rename, dir_rename_other fs notSource notTarget]
  rfl

/-- A renamed file has lost its old path. -/
theorem dir_rename_source (fs : Fs π α) {p q : π} (apart : p ≠ q) :
    (fs.rename p q).dir p = none := by
  cases named : fs.dir p with
  | none =>
      unfold rename
      split
      · exact named
      · rename_i moved present
        rw [named] at present
        cases present
  | some file => rw [dir_rename named, Function.update_of_ne apart, Function.update_self]

theorem read_remove_other (fs : Fs π α) {p q : π} (other : q ≠ p) :
    (fs.remove p).read q = fs.read q := by
  rw [read, dir_remove, data_remove, Function.update_of_ne other]
  rfl

end Fs

end OrbisAgent.Lib.FileSystem
