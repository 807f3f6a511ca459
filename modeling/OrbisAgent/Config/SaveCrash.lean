/- OrbisAgent/Config/SaveCrash
   source: src/config/ConfigManager.cpp: save
   digest: save() step by step on the file. What a crash or a failed write leaves is the old or the
   new text unless the file was opened and the new text did not reach it whole. -/

import OrbisAgent.Config.SavedFile
import OrbisAgent.Lib.Transition

set_option autoImplicit false
set_option relaxedAutoImplicit false

namespace OrbisAgent.Config.SaveCrash

open OrbisAgent.Config.ConfigManager
open OrbisAgent.Config.SavedFile
open OrbisAgent.Lib.ByteString
open OrbisAgent.Lib.Transition

/-- Where a call stands; `writing` has the part of the text that is not in the file yet. -/
inductive Pc
  | reading
  | opening (text : Bytes)
  | writing (rest : Bytes)
  | returned (value : Bool)
  deriving DecidableEq

/-- The config file and the call. A crash leaves the file as it is. -/
structure Save where
  file : Bytes
  pc : Pc
  deriving DecidableEq

inductive Act
  | read (ok : Bool)
  /-- Open for writing, which empties the file. -/
  | openFile (ok : Bool)
  /-- Some more bytes reach the file. -/
  | write (n : Nat)
  /-- The stream is closed, and nobody looks at its state. -/
  | finish
  deriving DecidableEq

def Save.start (old : Bytes) : Save := ⟨old, .reading⟩

def step (c : Manager) (s : Save) : Act → Option Save
  | .read ok =>
      match s.pc with
      | .reading =>
          some { s with pc := if ok then .opening (savedText c s.file) else .returned false }
      | _ => none
  | .openFile ok =>
      match s.pc with
      | .opening text => some (if ok then ⟨[], .writing text⟩ else { s with pc := .returned false })
      | _ => none
  | .write n =>
      match s.pc with
      | .writing rest => some ⟨s.file ++ rest.take n, .writing (rest.drop n)⟩
      | _ => none
  | .finish =>
      match s.pc with
      | .writing _ => some { s with pc := .returned true }
      | _ => none

/-- The file has the complete old or new text, and the new one once the call returned true. -/
def AllOrNothing (old new : Bytes) (s : Save) : Prop :=
  (s.file = old ∨ s.file = new) ∧ (s.pc = .returned true → s.file = new)

/-- How many bytes have reached the file. -/
def written : List Act → Nat
  | [] => 0
  | .write n :: as => n + written as
  | _ :: as => written as

/-- The file was not opened for writing, or all of the text has reached it, or the call did
not return and the part that has is the old text. -/
def Intact (old new : Bytes) (as : List Act) : Prop :=
  .openFile true ∉ as ∨ new.length ≤ written as ∨
    .finish ∉ as ∧ new.take (written as) = old

theorem written_append (first second : List Act) :
    written (first ++ second) = written first + written second := by
  induction first with
  | nil => simp [written]
  | cons a first ih => cases a <;> simp only [List.cons_append, written, ih, Nat.add_assoc]

/-- What the steps so far have done to the file. -/
def Progress (old new : Bytes) (as : List Act) (s : Save) : Prop :=
  match s.pc with
  | .reading => s.file = old ∧ .openFile true ∉ as ∧ .finish ∉ as ∧ written as = 0
  | .opening text =>
      text = new ∧ s.file = old ∧ .openFile true ∉ as ∧ .finish ∉ as ∧ written as = 0
  | .writing rest =>
      .openFile true ∈ as ∧ .finish ∉ as ∧ s.file = new.take (written as) ∧
        rest = new.drop (written as)
  | .returned false => s.file = old ∧ .openFile true ∉ as
  | .returned true => .openFile true ∈ as ∧ .finish ∈ as ∧ s.file = new.take (written as)

theorem progress_step {c : Manager} {old : Bytes} {past : List Act} {s s' : Save} {a : Act}
    (before : Progress old (savedText c old) past s) (move : step c s a = some s') :
    Progress old (savedText c old) (past ++ [a]) s' := by
  obtain ⟨file, pc⟩ := s
  have count := written_append past [a]
  cases a with
  | read ok =>
      cases pc <;> simp only [step, reduceCtorEq, Option.some.injEq] at move
      subst move
      obtain ⟨rfl, unopened, running, none⟩ := before
      cases ok
      · exact ⟨rfl, by simpa using unopened⟩
      · exact ⟨rfl, rfl, by simpa using unopened, by simpa using running, by rw [count, none]; rfl⟩
  | openFile ok =>
      cases pc <;> simp only [step, reduceCtorEq, Option.some.injEq] at move
      subst move
      obtain ⟨rfl, same, unopened, running, none⟩ := before
      cases ok
      · exact ⟨same, by simpa using unopened⟩
      · have zero : written (past ++ [.openFile true]) = 0 := by
          rw [count, none]
          rfl
        refine ⟨by simp, by simpa using running, ?_, ?_⟩
        · rw [zero]
          rfl
        · rw [zero]
          rfl
  | write n =>
      cases pc <;> simp only [step, reduceCtorEq, Option.some.injEq] at move
      subst move
      obtain ⟨opened, running, rfl, rfl⟩ := before
      have more : written (past ++ [.write n]) = written past + n := count
      refine ⟨List.mem_append_left _ opened, by simpa using running, ?_, ?_⟩
      · rw [more, List.take_add]
      · rw [more, List.drop_drop]
  | finish =>
      cases pc <;> simp only [step, reduceCtorEq, Option.some.injEq] at move
      subst move
      obtain ⟨opened, _, rfl, _⟩ := before
      have same : written (past ++ [.finish]) = written past := count
      refine ⟨List.mem_append_left _ opened, by simp, ?_⟩
      rw [same]

theorem progress_of_run {c : Manager} {old : Bytes} {as : List Act} {s : Save}
    (run : exec (step c) (.start old) as = some s) : Progress old (savedText c old) as s :=
  exec_invariant run ⟨rfl, by simp, by simp, rfl⟩ fun _ _ _ _ before move =>
    progress_step before move

/-- A call that returns returns and leaves what `save` computes. -/
theorem returned_eq_save {c : Manager} {old : Bytes} {as : List Act} {s : Save} {value : Bool}
    (run : exec (step c) (.start old) as = some s) (done : s.pc = .returned value) :
    save (some old) value (written as) c = (value, some s.file) := by
  have progress := progress_of_run run
  unfold Progress at progress
  rw [done] at progress
  cases value with
  | false =>
      obtain ⟨same, _⟩ := progress
      rw [same]
      rfl
  | true =>
      obtain ⟨_, _, same⟩ := progress
      rw [same]
      rfl

/-- A written part that is not the whole text is not the text. -/
theorem take_ne {new : Bytes} {n : Nat} (short : n < new.length) : new.take n ≠ new := by
  intro same
  have size := congrArg List.length same
  rw [List.length_take] at size
  omega

/-- At whatever point a save stands, and in particular where a crash stops it or where it
returns after failed writes, the file is all or nothing exactly under the condition. -/
theorem all_or_nothing_iff_intact (c : Manager) (old : Bytes) (as : List Act) (s : Save)
    (run : exec (step c) (.start old) as = some s) :
    AllOrNothing old (savedText c old) s ↔ Intact old (savedText c old) as := by
  have progress := progress_of_run run
  obtain ⟨file, pc⟩ := s
  generalize savedText c old = new at progress ⊢
  unfold AllOrNothing Intact
  cases pc with
  | reading =>
      obtain ⟨rfl, unopened, _⟩ := progress
      exact iff_of_true ⟨.inl rfl, nofun⟩ (.inl unopened)
  | opening text =>
      obtain ⟨_, rfl, unopened, _⟩ := progress
      exact iff_of_true ⟨.inl rfl, nofun⟩ (.inl unopened)
  | writing rest =>
      obtain ⟨opened, running, rfl, _⟩ := progress
      by_cases whole : new.length ≤ written as
      · exact iff_of_true ⟨.inr (List.take_of_length_le whole), nofun⟩ (.inr (.inl whole))
      · have part := take_ne (Nat.not_le.mp whole)
        constructor
        · rintro ⟨same | same, _⟩
          · exact .inr (.inr ⟨running, same⟩)
          · exact absurd same part
        · rintro (unopened | full | ⟨_, same⟩)
          · exact absurd opened unopened
          · exact absurd full whole
          · exact ⟨.inl same, nofun⟩
  | returned value =>
      cases value with
      | false =>
          obtain ⟨rfl, unopened⟩ := progress
          exact iff_of_true ⟨.inl rfl, nofun⟩ (.inl unopened)
      | true =>
          obtain ⟨opened, finished, rfl⟩ := progress
          by_cases whole : new.length ≤ written as
          · have all := List.take_of_length_le whole
            exact iff_of_true ⟨.inr all, fun _ => all⟩ (.inr (.inl whole))
          · have part := take_ne (Nat.not_le.mp whole)
            refine iff_of_false (fun kept => part (kept.2 rfl)) ?_
            rintro (unopened | full | ⟨running, _⟩)
            · exact unopened opened
            · exact whole full
            · exact running finished

/-- A save of the sample credentials whose text reaches the file in two parts. -/
theorem undisturbed_save_is_complete :
    ∃ s, exec (step sampleChanged) (.start sampleText)
        [.read true, .openFile true, .write 60, .write 1000, .finish] = some s ∧
      s.pc = .returned true ∧ AllOrNothing sampleText (savedText sampleChanged sampleText) s := by
  have reached : ∃ s, exec (step sampleChanged) (.start sampleText)
      [.read true, .openFile true, .write 60, .write 1000, .finish] = some s ∧
      s.pc = .returned true := ⟨_, rfl, rfl⟩
  obtain ⟨s, run, done⟩ := reached
  refine ⟨s, run, done, (all_or_nothing_iff_intact _ _ _ s run).mpr (.inr (.inl ?_))⟩
  decide +kernel

/-- Power fails right after the file was opened; the disk is full after five bytes. -/
theorem interrupted_save_loses_the_file :
    (∃ s, exec (step sampleChanged) (.start sampleText) [.read true, .openFile true] = some s ∧
        s.file = [] ∧ ¬ AllOrNothing sampleText (savedText sampleChanged sampleText) s) ∧
      ∃ s, exec (step sampleChanged) (.start sampleText)
          [.read true, .openFile true, .write 5, .finish] = some s ∧
        s.pc = .returned true ∧ s.file = bytes "[agen" ∧
        ¬ AllOrNothing sampleText (savedText sampleChanged sampleText) s := by
  constructor
  · refine ⟨_, rfl, rfl, ?_⟩
    rintro ⟨same | same, _⟩
    · exact absurd same (by decide +kernel)
    · exact absurd same (by decide +kernel)
  · refine ⟨_, rfl, rfl, by decide +kernel, ?_⟩
    rintro ⟨_, complete⟩
    exact absurd (complete rfl) (by decide +kernel)

end OrbisAgent.Config.SaveCrash
