/- OrbisAgent/Lib/FileTree
   generality: G
   digest: Files in folders, and the calls that create folders, write, copy and remove files, each
   of which can be refused or break off. -/

import OrbisAgent.Lib.FileSystem
import Mathlib.Logic.Function.Basic

set_option autoImplicit false
set_option relaxedAutoImplicit false

namespace OrbisAgent.Lib.FileTree

open OrbisAgent.Lib.FileSystem (overwrite)

variable {π α : Type} {folder : π → π}

/-- Every file is in a folder and is none itself. `folder` is the folder of a path. -/
structure Tree (π α : Type) (folder : π → π) where
  file : π → Option (List α)
  isFolder : π → Bool
  placed : ∀ p, file p ≠ none → isFolder (folder p) = true
  apart : ∀ p, file p ≠ none → isFolder p = false

/-- How a call that writes goes where the tree allows it: not at all, up to some byte, or to
the end. -/
inductive Put
  | refused
  | cut (n : Nat)
  | whole
  deriving DecidableEq

/-- What arrives of a text. -/
def Put.kept : Put → List α → List α
  | .refused, _ => []
  | .cut n, text => text.take n
  | .whole, text => text

namespace Tree

/-- Something has this path. -/
def present (t : Tree π α folder) (p : π) : Bool := (t.file p).isSome || t.isFolder p

/-- A file can stand at the path. -/
def Writable (t : Tree π α folder) (p : π) : Prop :=
  t.isFolder (folder p) = true ∧ t.isFolder p = false

instance (t : Tree π α folder) (p : π) : Decidable (t.Writable p) :=
  inferInstanceAs (Decidable (_ ∧ _))

theorem writable_of_file {t : Tree π α folder} {p : π} (here : t.file p ≠ none) :
    t.Writable p :=
  ⟨t.placed p here, t.apart p here⟩

variable [DecidableEq π]

theorem placed_write {t : Tree π α folder} {p : π} (text : List α) (room : t.Writable p) (q : π)
    (here : Function.update t.file p (some text) q ≠ none) : t.isFolder (folder q) = true := by
  by_cases same : q = p
  · rw [same]
    exact room.1
  · rw [Function.update_of_ne same] at here
    exact t.placed q here

theorem apart_write {t : Tree π α folder} {p : π} (text : List α) (room : t.Writable p) (q : π)
    (here : Function.update t.file p (some text) q ≠ none) : t.isFolder q = false := by
  by_cases same : q = p
  · rw [same]
    exact room.2
  · rw [Function.update_of_ne same] at here
    exact t.apart q here

theorem file_of_removed {t : Tree π α folder} {p q : π}
    (here : Function.update t.file p none q ≠ none) : t.file q ≠ none := by
  by_cases same : q = p
  · rw [same, Function.update_self] at here
    exact absurd rfl here
  · rw [Function.update_of_ne same] at here
    exact here

theorem placed_created {t : Tree π α folder} (p q : π) (here : t.file q ≠ none) :
    Function.update t.isFolder p true (folder q) = true := by
  by_cases same : folder q = p
  · rw [same, Function.update_self]
  · rw [Function.update_of_ne same]
    exact t.placed q here

theorem apart_created {t : Tree π α folder} {p : π} (free : t.file p = none) (q : π)
    (here : t.file q ≠ none) : Function.update t.isFolder p true q = false := by
  have other : q ≠ p := by
    rintro rfl
    exact here free
  rw [Function.update_of_ne other]
  exact t.apart q here

def write (t : Tree π α folder) (p : π) (text : List α) (room : t.Writable p) :
    Tree π α folder where
  file := Function.update t.file p (some text)
  isFolder := t.isFolder
  placed := placed_write text room
  apart := apart_write text room

def remove (t : Tree π α folder) (p : π) : Tree π α folder where
  file := Function.update t.file p none
  isFolder := t.isFolder
  placed q here := t.placed q (file_of_removed here)
  apart q here := t.apart q (file_of_removed here)

/-- Write at an offset of a file that is open, if it still has its path. -/
def patch (t : Tree π α folder) (fill : α) (p : π) (offset : Nat) (chunk : List α) :
    Tree π α folder :=
  if here : t.file p ≠ none then
    t.write p (overwrite fill ((t.file p).getD []) offset chunk) (writable_of_file here)
  else t

/-- A folder that is there is not created again. -/
def createFolder (t : Tree π α folder) (allowed : Bool) (p : π) : Option (Tree π α folder) :=
  if t.isFolder p then some t
  else if free : t.file p = none then
    if allowed then
      some ⟨t.file, Function.update t.isFolder p true, placed_created p, apart_created free⟩
    else none
  else none

/-- Open a path for writing and write a text: whether the path opens, which is all that is
known of it. -/
def stream (t : Tree π α folder) (how : Put) (p : π) (text : List α) : Bool × Tree π α folder :=
  if room : t.Writable p then
    if how = .refused then (false, t) else (true, t.write p (how.kept text) room)
  else (false, t)

/-- Copy a file to another path: whether all of it arrives. -/
def copyFile (t : Tree π α folder) (how : Put) (overwrite : Bool) (source target : π) :
    Bool × Tree π α folder :=
  match t.file source with
  | none => (false, t)
  | some text =>
      if source = target || (t.file target).isSome && !overwrite then (false, t)
      else if room : t.Writable target then
        if how = .refused then (false, t)
        else (decide (how = .whole), t.write target (how.kept text) room)
      else (false, t)

@[simp] theorem file_write_same (t : Tree π α folder) {p : π} (text : List α)
    (room : t.Writable p) : (t.write p text room).file p = some text :=
  Function.update_self ..

theorem file_write_other (t : Tree π α folder) {p q : π} (text : List α) (room : t.Writable p)
    (other : q ≠ p) : (t.write p text room).file q = t.file q :=
  Function.update_of_ne other ..

@[simp] theorem isFolder_write (t : Tree π α folder) {p : π} (text : List α)
    (room : t.Writable p) : (t.write p text room).isFolder = t.isFolder := rfl

/-- Writing keeps what is there. -/
theorem isSome_write (t : Tree π α folder) {p q : π} (text : List α) (room : t.Writable p)
    (here : (t.file q).isSome) : ((t.write p text room).file q).isSome := by
  by_cases same : q = p
  · rw [same, file_write_same]
    rfl
  · rw [file_write_other t text room same]
    exact here

@[simp] theorem file_remove_same (t : Tree π α folder) (p : π) : (t.remove p).file p = none :=
  Function.update_self ..

theorem file_remove_other (t : Tree π α folder) {p q : π} (other : q ≠ p) :
    (t.remove p).file q = t.file q :=
  Function.update_of_ne other ..

theorem file_patch_same {t : Tree π α folder} {p : π} {old : List α} (here : t.file p = some old)
    (fill : α) (offset : Nat) (chunk : List α) :
    (t.patch fill p offset chunk).file p = some (overwrite fill old offset chunk) := by
  have named : t.file p ≠ none := by
    rw [here]
    exact Option.some_ne_none old
  unfold patch
  rw [dif_pos named, file_write_same, here, Option.getD_some]

theorem file_patch_other (t : Tree π α folder) (fill : α) {p q : π} (offset : Nat)
    (chunk : List α) (other : q ≠ p) : (t.patch fill p offset chunk).file q = t.file q := by
  unfold patch
  split
  · exact t.file_write_other _ _ other
  · rfl

@[simp] theorem isFolder_patch (t : Tree π α folder) (fill : α) (p : π) (offset : Nat)
    (chunk : List α) : (t.patch fill p offset chunk).isFolder = t.isFolder := by
  unfold patch
  split <;> rfl

theorem isSome_patch (t : Tree π α folder) (fill : α) (p : π) {q : π} (offset : Nat)
    (chunk : List α) (here : (t.file q).isSome) :
    ((t.patch fill p offset chunk).file q).isSome := by
  unfold patch
  split
  · exact t.isSome_write _ _ here
  · exact here

/-- What creating a folder does. -/
theorem createFolder_some {t u : Tree π α folder} {allowed : Bool} {p : π}
    (created : t.createFolder allowed p = some u) :
    u.file = t.file ∧ u.isFolder = Function.update t.isFolder p true := by
  unfold createFolder at created
  by_cases already : t.isFolder p = true
  · rw [if_pos already] at created
    obtain rfl := Option.some.inj created
    exact ⟨rfl, by rw [← already, Function.update_eq_self]⟩
  · rw [if_neg already] at created
    split at created
    · split at created
      · obtain rfl := Option.some.inj created
        exact ⟨rfl, rfl⟩
      · cases created
    · cases created

/-- A folder is created where no file is in the way and the system allows it. -/
theorem createFolder_allowed {t : Tree π α folder} {p : π} (free : t.file p = none) :
    ∃ u, t.createFolder true p = some u := by
  unfold createFolder
  by_cases already : t.isFolder p = true
  · exact ⟨t, if_pos already⟩
  · rw [if_neg already, dif_pos free, if_pos rfl]
    exact ⟨_, rfl⟩

/-- What a stream does: nothing, or a file with what arrives. -/
theorem stream_cases (t : Tree π α folder) (how : Put) (p : π) (text : List α) :
    (¬ (t.Writable p ∧ how ≠ .refused) ∧ t.stream how p text = (false, t)) ∨
      ∃ room, how ≠ .refused ∧ t.stream how p text = (true, t.write p (how.kept text) room) := by
  unfold stream
  by_cases room : t.Writable p
  · rw [dif_pos room]
    by_cases refused : how = .refused
    · exact .inl ⟨fun both => both.2 refused, if_pos refused⟩
    · exact .inr ⟨room, refused, if_neg refused⟩
  · rw [dif_neg room]
    exact .inl ⟨fun both => room both.1, rfl⟩

/-- A path that can be written opens, unless the system refuses. -/
theorem stream_writes {t : Tree π α folder} {how : Put} {p : π} (room : t.Writable p)
    (allowed : how ≠ .refused) (text : List α) :
    t.stream how p text = (true, t.write p (how.kept text) room) := by
  unfold stream
  rw [dif_pos room, if_neg allowed]

theorem stream_whole {t : Tree π α folder} {p : π} (room : t.Writable p) (text : List α) :
    t.stream .whole p text = (true, t.write p text room) :=
  stream_writes room (by decide) text

theorem stream_shut {t : Tree π α folder} {p : π} (shut : ¬ t.Writable p) (how : Put)
    (text : List α) : t.stream how p text = (false, t) := by
  unfold stream
  rw [dif_neg shut]

/-- A stream that does not open leaves the tree as it was. -/
theorem of_stream_shut {t u : Tree π α folder} {how : Put} {p : π} {text : List α}
    (shut : t.stream how p text = (false, u)) : u = t := by
  rcases t.stream_cases how p text with ⟨_, same⟩ | ⟨_, _, wrote⟩
  · rw [same] at shut
    exact (Prod.mk.inj shut).2.symm
  · rw [wrote] at shut
    cases shut

/-- A stream that opens and is not cut off leaves the whole text. -/
theorem of_stream_opened {t u : Tree π α folder} {how : Put} {p : π} {text : List α}
    (opened : t.stream how p text = (true, u)) (uncut : ∀ n, how ≠ .cut n) :
    ∃ room, u = t.write p text room := by
  rcases t.stream_cases how p text with ⟨_, same⟩ | ⟨room, allowed, wrote⟩
  · rw [same] at opened
    cases opened
  · rw [wrote] at opened
    obtain rfl := (Prod.mk.inj opened).2
    cases how with
    | refused => exact absurd rfl allowed
    | cut n => exact absurd rfl (uncut n)
    | whole => exact ⟨room, rfl⟩

/-- What a copy does: nothing, or another file at the target with what arrives. -/
theorem copyFile_cases (t : Tree π α folder) (how : Put) (overwrite : Bool) (source target : π) :
    t.copyFile how overwrite source target = (false, t) ∨
      ∃ text room, t.file source = some text ∧ source ≠ target ∧ how ≠ .refused ∧
        ((t.file target).isSome → overwrite = true) ∧
        t.copyFile how overwrite source target =
          (decide (how = .whole), t.write target (how.kept text) room) := by
  unfold copyFile
  cases here : t.file source with
  | none => exact .inl rfl
  | some text =>
      dsimp only
      by_cases bad : (source = target || (t.file target).isSome && !overwrite) = true
      · exact .inl (if_pos bad)
      · rw [if_neg bad]
        by_cases room : t.Writable target
        · rw [dif_pos room]
          by_cases refused : how = .refused
          · exact .inl (if_pos refused)
          · rw [Bool.or_eq_true, not_or, decide_eq_true_eq, Bool.and_eq_true, not_and] at bad
            refine .inr ⟨text, room, rfl, bad.1, refused, fun taken => ?_, if_neg refused⟩
            have kept := bad.2 taken
            rwa [Bool.not_eq_true, Bool.not_eq_false'] at kept
        · exact .inl (dif_neg room)

/-- A copy of a file to another path that may take it, unless the system refuses. -/
theorem copyFile_writes {t : Tree π α folder} {how : Put} {overwrite : Bool} {source target : π}
    {text : List α} (here : t.file source = some text) (apart : source ≠ target)
    (free : (t.file target).isSome → overwrite = true) (room : t.Writable target)
    (allowed : how ≠ .refused) :
    t.copyFile how overwrite source target =
      (decide (how = .whole), t.write target (how.kept text) room) := by
  unfold copyFile
  have good : ¬ (source = target || (t.file target).isSome && !overwrite) = true := by
    rw [Bool.or_eq_true, not_or, decide_eq_true_eq, Bool.and_eq_true, not_and, Bool.not_eq_true,
      Bool.not_eq_false']
    exact ⟨apart, free⟩
  rw [here]
  dsimp only
  rw [if_neg good, dif_pos room, if_neg allowed]

theorem copyFile_whole {t : Tree π α folder} {overwrite : Bool} {source target : π}
    {text : List α} (here : t.file source = some text) (apart : source ≠ target)
    (free : (t.file target).isSome → overwrite = true) (room : t.Writable target) :
    t.copyFile .whole overwrite source target = (true, t.write target text room) :=
  copyFile_writes here apart free room (by decide)

/-- A copy that arrives is of a file at another path. -/
theorem of_copyFile_done {t u : Tree π α folder} {how : Put} {overwrite : Bool}
    {source target : π} (copied : t.copyFile how overwrite source target = (true, u)) :
    source ≠ target ∧ ∃ text room, t.file source = some text ∧ u = t.write target text room := by
  rcases t.copyFile_cases how overwrite source target with
    same | ⟨text, room, here, apart, _, _, wrote⟩
  · rw [same] at copied
    cases copied
  · rw [wrote] at copied
    obtain ⟨done, rfl⟩ := Prod.mk.inj copied
    obtain rfl := of_decide_eq_true done
    exact ⟨apart, text, room, here, rfl⟩

/-! ### What the calls leave as it is -/

theorem stream_other (t : Tree π α folder) (how : Put) {p q : π} (text : List α)
    (other : q ≠ p) : (t.stream how p text).2.file q = t.file q := by
  rcases t.stream_cases how p text with ⟨_, same⟩ | ⟨room, _, wrote⟩
  · rw [same]
  · rw [wrote]
    exact t.file_write_other _ room other

@[simp] theorem isFolder_stream (t : Tree π α folder) (how : Put) (p : π) (text : List α) :
    (t.stream how p text).2.isFolder = t.isFolder := by
  rcases t.stream_cases how p text with ⟨_, same⟩ | ⟨room, _, wrote⟩
  · rw [same]
  · rw [wrote]
    rfl

theorem isSome_stream (t : Tree π α folder) (how : Put) (p : π) {q : π} (text : List α)
    (here : (t.file q).isSome) : ((t.stream how p text).2.file q).isSome := by
  rcases t.stream_cases how p text with ⟨_, same⟩ | ⟨room, _, wrote⟩
  · rw [same]
    exact here
  · rw [wrote]
    exact t.isSome_write _ room here

theorem copyFile_other (t : Tree π α folder) (how : Put) (overwrite : Bool) (source : π)
    {target q : π} (other : q ≠ target) :
    (t.copyFile how overwrite source target).2.file q = t.file q := by
  rcases t.copyFile_cases how overwrite source target with same | ⟨_, room, _, _, _, _, wrote⟩
  · rw [same]
  · rw [wrote]
    exact t.file_write_other _ room other

@[simp] theorem isFolder_copyFile (t : Tree π α folder) (how : Put) (overwrite : Bool)
    (source target : π) : (t.copyFile how overwrite source target).2.isFolder = t.isFolder := by
  rcases t.copyFile_cases how overwrite source target with same | ⟨_, room, _, _, _, _, wrote⟩
  · rw [same]
  · rw [wrote]
    rfl

theorem isSome_copyFile (t : Tree π α folder) (how : Put) (overwrite : Bool) (source target : π)
    {q : π} (here : (t.file q).isSome) :
    ((t.copyFile how overwrite source target).2.file q).isSome := by
  rcases t.copyFile_cases how overwrite source target with same | ⟨_, room, _, _, _, _, wrote⟩
  · rw [same]
    exact here
  · rw [wrote]
    exact t.isSome_write _ room here

omit [DecidableEq π] in
/-- What is at a path stays there, file or folder. -/
theorem present_mono {t u : Tree π α folder} {q : π}
    (files : (t.file q).isSome = true → (u.file q).isSome = true)
    (folders : t.isFolder q = true → u.isFolder q = true) (here : t.present q = true) :
    u.present q = true := by
  rw [present, Bool.or_eq_true] at here ⊢
  exact here.imp files folders

theorem present_stream (t : Tree π α folder) (how : Put) (p : π) {q : π} (text : List α)
    (here : t.present q = true) : (t.stream how p text).2.present q = true :=
  present_mono (t.isSome_stream how p text) (fun kept => by rw [isFolder_stream]; exact kept) here

theorem present_copyFile (t : Tree π α folder) (how : Put) (overwrite : Bool) (source target : π)
    {q : π} (here : t.present q = true) :
    (t.copyFile how overwrite source target).2.present q = true :=
  present_mono (t.isSome_copyFile how overwrite source target)
    (fun kept => by rw [isFolder_copyFile]; exact kept) here

theorem present_createFolder {t u : Tree π α folder} {allowed : Bool} {p q : π}
    (created : t.createFolder allowed p = some u) (here : t.present q = true) :
    u.present q = true := by
  obtain ⟨files, folders⟩ := createFolder_some created
  refine present_mono (by rw [files]; exact id) (fun kept => ?_) here
  rw [folders]
  by_cases same : q = p
  · rw [same, Function.update_self]
  · rw [Function.update_of_ne same]
    exact kept

theorem present_patch (t : Tree π α folder) (fill : α) (p : π) {q : π} (offset : Nat)
    (chunk : List α) (here : t.present q = true) :
    (t.patch fill p offset chunk).present q = true :=
  present_mono (t.isSome_patch fill p offset chunk)
    (fun kept => by rw [isFolder_patch]; exact kept) here

end Tree

end OrbisAgent.Lib.FileTree
