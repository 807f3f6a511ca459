/- OrbisAgent/Plugins/ArrayText
   source: collect of the plugins under src/plugins
   digest: The array that collect() serialises at its end, under a catch-all that returns an empty
   one. One string that cannot be serialised empties it. -/

import OrbisAgent.Plugins.PluginLoader
import Mathlib.Data.List.Forall2

set_option autoImplicit false
set_option relaxedAutoImplicit false

namespace OrbisAgent.Plugins.ArrayText

open OrbisAgent.Lib.Json
open OrbisAgent.Plugins.PluginLoader (Outcome)

universe u

/-- `try { … result = arr.dump(); } catch (...) { result = "[]"; }` -/
def arrayText (codec : Codec) (entries : List Json) : Outcome :=
  match codec.dump (.arr entries) with
  | .ok result => .text result.toByteArray
  | .error _ => .text "[]".toByteArray

/-- The text of an array with elements is not that of the empty one. -/
def TellsEmpty (codec : Codec) : Prop :=
  ∀ entries, codec.render (.arr entries) = "[]" → entries = []

/-- The text of an array with one entry for each item, in order, is returned. `none` stands
for undefined behaviour. -/
def ReturnsOneEach {α : Type u} (codec : Codec) (describes : α → Json → Prop) (items : List α)
    (returned : Option Outcome) : Prop :=
  ∃ entries, returned = some (.text (codec.render (.arr entries)).toByteArray) ∧
    List.Forall₂ describes items entries

variable {α : Type u} {codec : Codec} {describes : α → Json → Prop} {items : List α}

/-- The empty array is right for no item only. -/
theorem items_eq_nil (tells : TellsEmpty codec)
    (returns : ReturnsOneEach codec describes items (some (.text "[]".toByteArray))) :
    items = [] := by
  obtain ⟨entries, same, each⟩ := returns
  have texts := String.toByteArray_inj.mp (Outcome.text.inj (Option.some.inj same))
  obtain rfl := tells entries texts.symm
  cases each
  rfl

/-- The entries built for the items are returned just when each of them can be serialised. -/
theorem returnsOneEach_arrayText {entries : List Json} (tells : TellsEmpty codec)
    (each : List.Forall₂ describes items entries) :
    ReturnsOneEach codec describes items (some (arrayText codec entries)) ↔
      ∀ e ∈ entries, e.wellEncoded = true := by
  constructor
  · intro returns
    by_cases valid : (Json.arr entries).wellEncoded = true
    · exact fun e mem => Json.wellEncoded_of_mem valid mem
    · have caught : arrayText codec entries = .text "[]".toByteArray := by
        unfold arrayText Codec.dump
        rw [if_neg valid]
      rw [caught] at returns
      obtain rfl := items_eq_nil tells returns
      cases each
      exact nofun
  · intro all
    have dumped := Codec.dump_of_wellEncoded codec (Json.wellEncoded_arr all)
    refine ⟨entries, ?_, each⟩
    unfold arrayText
    rw [dumped]

/-- Items and their entries have a property together. -/
theorem forall_entries_iff {entries : List Json} {P : Json → Prop} {Q : α → Prop}
    (each : List.Forall₂ describes items entries)
    (same : ∀ x ∈ items, ∀ e, describes x e → (P e ↔ Q x)) :
    (∀ e ∈ entries, P e) ↔ ∀ x ∈ items, Q x := by
  induction each with
  | nil => simp
  | @cons x e items entries first rest ih =>
      rw [List.forall_mem_cons, List.forall_mem_cons, same x List.mem_cons_self e first,
        ih fun y mem => same y (List.mem_cons_of_mem x mem)]

theorem plainText_ne_empty (j : Json) : plainText j ≠ "" := by
  have number : ∀ n : Int, toString n ≠ "" := by
    intro n
    cases n with
    | ofNat m =>
        show Nat.repr m ≠ ""
        rw [Nat.repr_eq_ofList_toDigits, ne_eq, String.ofList_eq_empty_iff]
        exact Nat.toDigits_ne_nil
    | negSucc m => simp [Int.repr]
  cases j with
  | null => decide
  | bool b => cases b <;> decide
  | int n => exact number n
  | float m e => exact number m
  | str s => simp [plainText, quoted]
  | arr items => simp [plainText]
  | obj fields => simp [plainText]

/-- Printed plainly, an array with elements has more than its brackets. -/
theorem tellsEmpty_plain {known : List Json} {valid : ∀ j ∈ known, j.wellEncoded = true} :
    TellsEmpty (Codec.plain known valid) := by
  intro entries same
  cases entries with
  | nil => rfl
  | cons j entries =>
      have inside : plainItems (j :: entries) = "" := by
        have bracketed : "[" ++ plainItems (j :: entries) ++ "]" = "[" ++ "" ++ "]" := same
        have lists := congrArg String.toList bracketed
        apply String.toList_inj.mp
        simpa using lists
      cases entries with
      | nil => exact absurd inside (plainText_ne_empty j)
      | cons k entries => simp [plainItems] at inside

end OrbisAgent.Plugins.ArrayText
