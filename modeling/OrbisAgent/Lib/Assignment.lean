/- OrbisAgent/Lib/Assignment
   generality: G
   digest: The pattern key\s*=\s*"[^"]*", the replacement of all its matches, and how both behave
   on parts of a text. -/

import OrbisAgent.Lib.ByteString
import Mathlib.Data.List.Infix
import Mathlib.Tactic.ByContra

set_option autoImplicit false
set_option relaxedAutoImplicit false

namespace OrbisAgent.Lib.Assignment

open OrbisAgent.Lib.ByteString

def quote : UInt8 := 34

def equals : UInt8 := 61

def dollar : UInt8 := 36

/-- `\s` -/
def isSpace (b : UInt8) : Bool := b == 32 || (9 ≤ b && b ≤ 13)

/-- What follows a word at the start. -/
def skip : Bytes → Bytes → Option Bytes
  | [], s => some s
  | _ :: _, [] => none
  | w :: word, c :: s => if w = c then skip word s else none

/-- What follows the first quote. -/
def afterQuote : Bytes → Option Bytes
  | [] => none
  | c :: s => if c = quote then some s else afterQuote s

/-- What follows a match at the start. The parts of the pattern exclude each other, so
the match is unique. -/
def matchRest (key s : Bytes) : Option Bytes :=
  (skip key s).bind fun s =>
    (skip [equals] (s.dropWhile isSpace)).bind fun s =>
      (skip [quote] (s.dropWhile isSpace)).bind afterQuote

/-- A word of the pattern: no space, sign or quote in it. -/
def Word (key : Bytes) : Prop :=
  key ≠ [] ∧ ∀ b ∈ key, isSpace b = false ∧ b ≠ equals ∧ b ≠ quote

instance (key : Bytes) : Decidable (Word key) :=
  have := List.decidableBAll (fun b => isSpace b = false ∧ b ≠ equals ∧ b ≠ quote) key
  inferInstanceAs (Decidable (key ≠ [] ∧ _))

def Spaces (s : Bytes) : Prop := ∀ b ∈ s, isSpace b = true

instance (s : Bytes) : Decidable (Spaces s) := List.decidableBAll (fun b => isSpace b = true) s

theorem skip_eq_some {word s rest : Bytes} : skip word s = some rest ↔ s = word ++ rest := by
  induction word generalizing s with
  | nil => exact Option.some_inj.trans Iff.rfl
  | cons w word ih =>
      cases s with
      | nil => simp [skip]
      | cons c s =>
          rw [skip, List.cons_append, List.cons.injEq]
          split
          · rename_i same
            rw [ih, same]
            exact (and_iff_right rfl).symm
          · rename_i other
            exact iff_of_false nofun fun both => other both.1.symm

theorem afterQuote_eq_some {s rest : Bytes} :
    afterQuote s = some rest ↔ ∃ v, quote ∉ v ∧ s = v ++ quote :: rest := by
  induction s with
  | nil => simp [afterQuote]
  | cons c s ih =>
      rw [afterQuote]
      split
      · rename_i here
        constructor
        · intro same
          obtain rfl := Option.some.inj same
          exact ⟨[], List.not_mem_nil, by rw [here]; rfl⟩
        · rintro ⟨v, without, split⟩
          cases v with
          | nil => rw [(List.cons.inj split).2]
          | cons b v =>
              have first := (List.cons.inj split).1
              rw [here] at first
              exact absurd (first ▸ List.mem_cons_self) without
      · rename_i other
        rw [ih]
        constructor
        · rintro ⟨v, without, split⟩
          refine ⟨c :: v, ?_, by rw [split]; rfl⟩
          rw [List.mem_cons, not_or]
          exact ⟨Ne.symm other, without⟩
        · rintro ⟨v, without, split⟩
          cases v with
          | nil => exact absurd (List.cons.inj split).1 other
          | cons b v =>
              exact ⟨v, fun mem => without (List.mem_cons_of_mem b mem),
                (List.cons.inj split).2⟩

theorem dropWhile_spaces {l : Bytes} (spaces : Spaces l) {c : UInt8} (visible : isSpace c = false)
    (s : Bytes) : (l ++ c :: s).dropWhile isSpace = c :: s := by
  induction l with
  | nil => rw [List.nil_append, List.dropWhile_cons, if_neg (by rw [visible]; decide)]
  | cons b l ih =>
      have tail := ih fun d mem => spaces d (List.mem_cons_of_mem b mem)
      rw [List.cons_append, List.dropWhile_cons, if_pos (spaces b List.mem_cons_self), tail]

theorem exists_spaces (s : Bytes) : ∃ l, Spaces l ∧ s = l ++ s.dropWhile isSpace :=
  ⟨s.takeWhile isSpace, fun _ mem => List.mem_takeWhile_imp mem,
    (List.takeWhile_append_dropWhile).symm⟩

/-- A text that the pattern matches whole. -/
def Matches (key m : Bytes) : Prop :=
  ∃ l r v, Spaces l ∧ Spaces r ∧ quote ∉ v ∧
    m = key ++ (l ++ equals :: (r ++ quote :: (v ++ [quote])))

/-- A match at the start, spelled out. -/
theorem matchRest_spelled {key s rest : Bytes} :
    matchRest key s = some rest ↔ ∃ l r v, Spaces l ∧ Spaces r ∧ quote ∉ v ∧
      s = key ++ (l ++ equals :: (r ++ quote :: (v ++ quote :: rest))) := by
  unfold matchRest
  constructor
  · intro found
    obtain ⟨s1, first, found⟩ := Option.bind_eq_some_iff.mp found
    obtain ⟨s2, second, found⟩ := Option.bind_eq_some_iff.mp found
    obtain ⟨s3, third, found⟩ := Option.bind_eq_some_iff.mp found
    obtain ⟨v, without, closed⟩ := afterQuote_eq_some.mp found
    obtain ⟨l, left, split1⟩ := exists_spaces s1
    obtain ⟨r, right, split2⟩ := exists_spaces s2
    rw [skip_eq_some] at first second third
    refine ⟨l, r, v, left, right, without, ?_⟩
    rw [first, split1, second, split2, third, closed]
    rfl
  · rintro ⟨l, r, v, left, right, without, rfl⟩
    rw [skip_eq_some.mpr rfl, Option.bind_some, dropWhile_spaces left (by decide),
      skip_eq_some.mpr (List.singleton_append).symm, Option.bind_some,
      dropWhile_spaces right (by decide), skip_eq_some.mpr (List.singleton_append).symm,
      Option.bind_some]
    exact afterQuote_eq_some.mpr ⟨v, without, rfl⟩

theorem matchRest_eq_some {key s rest : Bytes} :
    matchRest key s = some rest ↔ ∃ m, Matches key m ∧ s = m ++ rest := by
  rw [matchRest_spelled]
  constructor
  · rintro ⟨l, r, v, left, right, without, spelled⟩
    refine ⟨_, ⟨l, r, v, left, right, without, rfl⟩, ?_⟩
    rw [spelled]
    simp only [List.append_assoc, List.cons_append, List.nil_append]
  · rintro ⟨m, ⟨l, r, v, left, right, without, rfl⟩, spelled⟩
    refine ⟨l, r, v, left, right, without, ?_⟩
    rw [spelled]
    simp only [List.append_assoc, List.cons_append, List.nil_append]

theorem Matches.ne_nil {key m : Bytes} (whole : Matches key m) : m ≠ [] := by
  obtain ⟨l, r, v, _, _, _, rfl⟩ := whole
  simp

theorem Matches.quote_mem {key m : Bytes} (whole : Matches key m) : quote ∈ m := by
  obtain ⟨l, r, v, _, _, _, rfl⟩ := whole
  simp

/-- A match stays one before more text. -/
theorem matchRest_append {key s rest : Bytes} (found : matchRest key s = some rest)
    (more : Bytes) : matchRest key (s ++ more) = some (rest ++ more) := by
  obtain ⟨m, whole, rfl⟩ := matchRest_eq_some.mp found
  exact matchRest_eq_some.mpr ⟨m, whole, List.append_assoc _ _ _⟩

/-- A match with the text since the one before and the text after it. -/
structure Found where
  gap : Bytes
  matched : Bytes
  after : Bytes

def isDigit (b : UInt8) : Bool := 48 ≤ b && b ≤ 57

/-- The replacement written by a format: a dollar introduces the match, what is around
it, or a group, of which there is only the match itself. -/
def expand (m : Found) : Bytes → Bytes
  | [] => []
  | [c] => [c]
  | c :: d :: fmt =>
      if c = dollar then
        if d = dollar then dollar :: expand m fmt
        else if d = 38 then m.matched ++ expand m fmt
        else if d = 96 then m.gap ++ expand m fmt
        else if d = 39 then m.after ++ expand m fmt
        else if isDigit d then
          match fmt with
          | [] => if d = 48 then m.matched else []
          | e :: rest =>
              if isDigit e then (if d = 48 ∧ e = 48 then m.matched else []) ++ expand m rest
              else (if d = 48 then m.matched else []) ++ expand m (e :: rest)
        else c :: expand m (d :: fmt)
      else c :: expand m (d :: fmt)

/-- `regex_replace` from the left: the text since the last match, and how many bytes of
a match are still to be passed. -/
def replaceFrom (key fmt : Bytes) : Bytes → Nat → Bytes → Bytes
  | _, _, [] => []
  | gap, n + 1, _ :: s => replaceFrom key fmt gap n s
  | gap, 0, c :: s =>
      match matchRest key (c :: s) with
      | none => c :: replaceFrom key fmt (gap ++ [c]) 0 s
      | some rest =>
          let size := (c :: s).length - rest.length
          expand ⟨gap, (c :: s).take size, rest⟩ fmt ++ replaceFrom key fmt [] (size - 1) s

/-- Every match of the pattern replaced. -/
def regexReplace (key fmt text : Bytes) : Bytes := replaceFrom key fmt [] 0 text

/-- An assignment written as a format. -/
def assign (key w : Bytes) : Bytes := key ++ bytes " = \"" ++ w ++ [quote]

theorem expand_plain (m : Found) {fmt : Bytes} (plain : dollar ∉ fmt) : expand m fmt = fmt := by
  induction fmt with
  | nil => rfl
  | cons c fmt ih =>
      have rest := ih fun mem => plain (List.mem_cons_of_mem c mem)
      cases fmt with
      | nil => rfl
      | cons d fmt =>
          have other : c ≠ dollar := fun here => plain (here ▸ List.mem_cons_self)
          rw [expand.eq_def]
          dsimp only
          rw [if_neg other, rest]

variable {key fmt : Bytes}

theorem replaceFrom_skip (gap : Bytes) (n : Nat) (s : Bytes) :
    replaceFrom key fmt gap n s = replaceFrom key fmt gap 0 (s.drop n) := by
  induction n generalizing s with
  | zero => rfl
  | succ n ih =>
      cases s with
      | nil => rfl
      | cons c s => rw [replaceFrom, ih, List.drop_succ_cons]

/-- A format without a dollar does not see the text before the match. -/
theorem replaceFrom_gap (plain : dollar ∉ fmt) (gap other : Bytes) (n : Nat) (s : Bytes) :
    replaceFrom key fmt gap n s = replaceFrom key fmt other n s := by
  induction s generalizing gap other n with
  | nil => cases n <;> rfl
  | cons c s ih =>
      cases n with
      | succ n => exact ih gap other n
      | zero =>
          rw [replaceFrom, replaceFrom]
          split
          · rw [ih (gap ++ [c]) (other ++ [c])]
          · dsimp only
            rw [expand_plain _ plain, expand_plain _ plain]

theorem matchRest_nil : matchRest key [] = none := by
  rw [Option.eq_none_iff_forall_ne_some]
  intro rest found
  obtain ⟨m, whole, split⟩ := matchRest_eq_some.mp found
  exact whole.ne_nil (List.append_eq_nil_iff.mp split.symm).1

theorem length_matchRest_lt {s rest : Bytes} (found : matchRest key s = some rest) :
    rest.length < s.length := by
  obtain ⟨m, whole, rfl⟩ := matchRest_eq_some.mp found
  have filled := List.length_pos_of_ne_nil whole.ne_nil
  rw [List.length_append]
  omega

theorem regexReplace_nil : regexReplace key fmt [] = [] := rfl

theorem regexReplace_none (plain : dollar ∉ fmt) {c : UInt8} {s : Bytes}
    (none' : matchRest key (c :: s) = none) :
    regexReplace key fmt (c :: s) = c :: regexReplace key fmt s := by
  unfold regexReplace
  rw [replaceFrom, none']
  dsimp only
  rw [replaceFrom_gap plain]

theorem regexReplace_some (plain : dollar ∉ fmt) {s rest : Bytes}
    (found : matchRest key s = some rest) :
    regexReplace key fmt s = fmt ++ regexReplace key fmt rest := by
  obtain ⟨front, whole, split⟩ := matchRest_eq_some.mp found
  have size := whole.ne_nil
  cases s with
  | nil => simp [matchRest_nil] at found
  | cons c s =>
      unfold regexReplace
      rw [replaceFrom, found]
      dsimp only
      rw [expand_plain _ plain, replaceFrom_skip]
      have passed : s.drop ((c :: s).length - rest.length - 1) = rest := by
        cases front with
        | nil => exact absurd rfl size
        | cons b front =>
            obtain ⟨_, tail⟩ := List.cons.inj split
            have count : (c :: s).length - rest.length - 1 = front.length := by
              have sizes := congrArg List.length split
              rw [List.length_append, List.length_cons, List.length_cons] at sizes
              rw [List.length_cons]
              omega
            rw [count, tail]
            exact List.drop_left
      rw [passed]

/-- Without a match the text stays. -/
theorem regexReplace_id (plain : dollar ∉ fmt) {a : Bytes}
    (unmatched : ∀ u v, a = u ++ v → matchRest key v = none) : regexReplace key fmt a = a := by
  induction a with
  | nil => rfl
  | cons c a ih =>
      have here := unmatched [] (c :: a) rfl
      have rest := ih fun u v split => unmatched (c :: u) v (by rw [split]; rfl)
      rw [regexReplace_none plain here, rest]

/-- Where no match that begins in the first part runs beyond it, the parts are replaced
separately. -/
theorem regexReplace_append (plain : dollar ∉ fmt) {a b : Bytes}
    (inside : ∀ u v, a = u ++ v → v ≠ [] → (matchRest key (v ++ b)).isSome →
      (matchRest key v).isSome) :
    regexReplace key fmt (a ++ b) = regexReplace key fmt a ++ regexReplace key fmt b := by
  generalize bound : a.length = n
  induction n using Nat.strong_induction_on generalizing a with
  | _ n ih =>
      cases a with
      | nil => rfl
      | cons c a =>
          have here := inside [] (c :: a) rfl (List.cons_ne_nil c a)
          cases found : matchRest key (c :: a) with
          | none =>
              have none' : matchRest key (c :: (a ++ b)) = none := by
                rw [← Option.not_isSome_iff_eq_none]
                intro some'
                have both := here some'
                rw [found] at both
                cases both
              rw [List.cons_append, regexReplace_none plain none', regexReplace_none plain found,
                List.cons_append]
              rw [ih a.length (by rw [← bound]; exact Nat.lt_succ_self _)
                (fun u v split => inside (c :: u) v (by rw [split]; rfl)) rfl]
          | some rest =>
              obtain ⟨m, whole, split⟩ := matchRest_eq_some.mp found
              have shorter : rest.length < n := bound ▸ length_matchRest_lt found
              rw [regexReplace_some plain (matchRest_append found b),
                regexReplace_some plain found, List.append_assoc]
              rw [ih rest.length shorter (fun u v parts => inside (m ++ u) v (by
                rw [split, parts, List.append_assoc])) rfl]

/-- The second text is the first with some matches replaced. -/
inductive Patched (key fmt : Bytes) : Bytes → Bytes → Prop
  | nil : Patched key fmt [] []
  | keep (c : UInt8) {s t : Bytes} : Patched key fmt s t → Patched key fmt (c :: s) (c :: t)
  | swap {m s t : Bytes} : Matches key m → Patched key fmt s t →
      Patched key fmt (m ++ s) (fmt ++ t)

theorem patched_regexReplace (plain : dollar ∉ fmt) (a : Bytes) :
    Patched key fmt a (regexReplace key fmt a) := by
  generalize bound : a.length = n
  induction n using Nat.strong_induction_on generalizing a with
  | _ n ih =>
      cases a with
      | nil => exact .nil
      | cons c a =>
          cases found : matchRest key (c :: a) with
          | none =>
              rw [regexReplace_none plain found]
              exact .keep c (ih a.length (by rw [← bound]; exact Nat.lt_succ_self _) a rfl)
          | some rest =>
              obtain ⟨m, whole, split⟩ := matchRest_eq_some.mp found
              have shorter : rest.length < n := bound ▸ length_matchRest_lt found
              rw [regexReplace_some plain found, split]
              exact .swap whole (ih rest.length shorter rest rfl)

theorem Patched.append {s t s' t' : Bytes} (first : Patched key fmt s t)
    (second : Patched key fmt s' t') : Patched key fmt (s ++ s') (t ++ t') := by
  induction first with
  | nil => exact second
  | keep c _ ih => exact .keep c ih
  | swap whole _ ih =>
      rw [List.append_assoc, List.append_assoc]
      exact .swap whole ih

theorem Patched.eq_nil {t : Bytes} (patched : Patched key fmt [] t) : t = [] := by
  generalize empty : ([] : Bytes) = s at patched
  cases patched with
  | nil => rfl
  | keep c _ => cases empty
  | swap whole _ => exact absurd (List.append_eq_nil_iff.mp empty.symm).1 whole.ne_nil

theorem Patched.quote_mem {s t : Bytes} (closes : quote ∈ fmt) (patched : Patched key fmt s t) :
    quote ∈ s ↔ quote ∈ t := by
  induction patched with
  | nil => exact Iff.rfl
  | keep c _ ih => rw [List.mem_cons, List.mem_cons, ih]
  | swap whole _ _ =>
      exact iff_of_true (List.mem_append_left _ whole.quote_mem) (List.mem_append_left _ closes)

/-- The replacement of one pattern leaves the matches of another word alone: the first
byte of its matches and of its replacement is no part of the other pattern, and no match of
the other word begins in its replacement. -/
structure Separate (key fmt other : Bytes) : Prop where
  first : ∃ d, key.head? = some d ∧ fmt.head? = some d ∧ d ∉ other ∧ isSpace d = false ∧
    d ≠ equals ∧ d ≠ quote
  start : ∀ u v rest, fmt = u ++ v → v ≠ [] → matchRest other (v ++ rest) = none
  closes : quote ∈ fmt

variable {other : Bytes}

theorem Patched.of_cons {d c : UInt8} {s t : Bytes} (first : key.head? = some d) (notFirst : c ≠ d)
    (patched : Patched key fmt (c :: s) t) : ∃ t', t = c :: t' ∧ Patched key fmt s t' := by
  generalize whole : c :: s = text at patched
  cases patched with
  | nil => cases whole
  | keep c' rest =>
      obtain ⟨rfl, rfl⟩ := List.cons.inj whole
      exact ⟨_, rfl, rest⟩
  | swap matched _ =>
      obtain ⟨l, r, v, _, _, _, rfl⟩ := matched
      have heads := congrArg List.head? whole
      rw [List.append_assoc, List.head?_append, first] at heads
      exact absurd (Option.some.inj heads) notFirst

theorem Patched.to_cons {d c : UInt8} {s t : Bytes} (first : fmt.head? = some d) (notFirst : c ≠ d)
    (patched : Patched key fmt s (c :: t)) : ∃ s', s = c :: s' ∧ Patched key fmt s' t := by
  generalize whole : c :: t = text at patched
  cases patched with
  | nil => cases whole
  | keep c' rest =>
      obtain ⟨rfl, rfl⟩ := List.cons.inj whole
      exact ⟨_, rfl, rest⟩
  | swap _ _ =>
      have heads := congrArg List.head? whole
      rw [List.head?_append, first] at heads
      exact absurd (Option.some.inj heads) notFirst

/-- A text without the first byte of a replaced match is passed unchanged, both ways. -/
theorem Patched.pass {d : UInt8} (keyFirst : key.head? = some d) (fmtFirst : fmt.head? = some d)
    {h : Bytes} (without : d ∉ h) (s t : Bytes) :
    (Patched key fmt (h ++ s) t → ∃ t', t = h ++ t' ∧ Patched key fmt s t') ∧
      (Patched key fmt t (h ++ s) → ∃ t', t = h ++ t' ∧ Patched key fmt t' s) := by
  induction h generalizing t with
  | nil => exact ⟨fun patched => ⟨t, rfl, patched⟩, fun patched => ⟨t, rfl, patched⟩⟩
  | cons c h ih =>
      have rest := ih fun mem => without (List.mem_cons_of_mem c mem)
      have notFirst : c ≠ d := fun same => without (same ▸ List.mem_cons_self)
      constructor
      · intro patched
        obtain ⟨u, rfl, after⟩ := Patched.of_cons keyFirst notFirst patched
        obtain ⟨v, rfl, tail⟩ := (rest u).1 after
        exact ⟨v, rfl, tail⟩
      · intro patched
        obtain ⟨u, rfl, after⟩ := Patched.to_cons fmtFirst notFirst patched
        obtain ⟨v, rfl, tail⟩ := (rest u).2 after
        exact ⟨v, rfl, tail⟩

/-- A match at the start, by its part up to the opening quote. -/
theorem matchRest_isSome {s : Bytes} :
    (matchRest key s).isSome ↔ ∃ l r rest, Spaces l ∧ Spaces r ∧ quote ∈ rest ∧
      s = (key ++ (l ++ equals :: (r ++ [quote]))) ++ rest := by
  rw [Option.isSome_iff_exists]
  constructor
  · rintro ⟨after, found⟩
    obtain ⟨l, r, v, left, right, _, spelled⟩ := matchRest_spelled.mp found
    refine ⟨l, r, v ++ quote :: after, left, right,
      List.mem_append_right _ List.mem_cons_self, ?_⟩
    rw [spelled]
    simp only [List.append_assoc, List.cons_append, List.nil_append]
  · rintro ⟨l, r, rest, left, right, closes, spelled⟩
    obtain ⟨v, after, split, without⟩ := List.eq_append_cons_of_mem closes
    refine ⟨after, matchRest_spelled.mpr ⟨l, r, v, left, right, without, ?_⟩⟩
    rw [spelled, split]
    simp only [List.append_assoc, List.cons_append, List.nil_append]

/-- The other word has a match at the start of both texts or of neither. -/
theorem Separate.matchRest_isSome (apart : Separate key fmt other) {s t : Bytes}
    (patched : Patched key fmt s t) :
    (matchRest other s).isSome ↔ (matchRest other t).isSome := by
  obtain ⟨d, keyFirst, fmtFirst, notOther, notSpace, notEquals, notQuote⟩ := apart.first
  have without : ∀ {l r : Bytes}, Spaces l → Spaces r →
      d ∉ other ++ (l ++ equals :: (r ++ [quote])) := by
    intro l r left right mem
    have notSpaces : ∀ {u : Bytes}, Spaces u → d ∉ u := fun spaces inside =>
      absurd (spaces d inside) (by rw [notSpace]; decide)
    simp only [List.mem_append, List.mem_cons, List.not_mem_nil, or_false] at mem
    rcases mem with mem | mem | mem | mem | mem
    · exact notOther mem
    · exact notSpaces left mem
    · exact notEquals mem
    · exact notSpaces right mem
    · exact notQuote mem
  rw [Assignment.matchRest_isSome, Assignment.matchRest_isSome]
  constructor
  · rintro ⟨l, r, rest, left, right, closes, rfl⟩
    obtain ⟨u, rfl, tail⟩ := (Patched.pass keyFirst fmtFirst (without left right) rest t).1 patched
    exact ⟨l, r, u, left, right, (tail.quote_mem apart.closes).mp closes, rfl⟩
  · rintro ⟨l, r, rest, left, right, closes, rfl⟩
    obtain ⟨u, rfl, tail⟩ := (Patched.pass keyFirst fmtFirst (without left right) rest s).2 patched
    exact ⟨l, r, u, left, right, (tail.quote_mem apart.closes).mpr closes, rfl⟩

/-- An end of the new text comes from an end of the old text or begins in a replacement. -/
theorem Patched.suffix {s t t1 t2 : Bytes} (patched : Patched key fmt s t) (split : t = t1 ++ t2) :
    (∃ s1 s2, s = s1 ++ s2 ∧ Patched key fmt s2 t2) ∨
      ∃ u v rest, fmt = u ++ v ∧ v ≠ [] ∧ t2 = v ++ rest := by
  induction patched generalizing t1 with
  | nil =>
      obtain ⟨rfl, rfl⟩ := List.append_eq_nil_iff.mp split.symm
      exact .inl ⟨[], [], rfl, .nil⟩
  | @keep c s t rest ih =>
      cases t1 with
      | nil =>
          rw [List.nil_append] at split
          exact .inl ⟨[], c :: s, rfl, split ▸ .keep c rest⟩
      | cons b t1 =>
          obtain ⟨rfl, tail⟩ := List.cons.inj split
          rcases ih tail with ⟨s1, s2, rfl, back⟩ | inside
          · exact .inl ⟨c :: s1, s2, rfl, back⟩
          · exact .inr inside
  | @swap m s t matched rest ih =>
      rcases List.append_eq_append_iff.mp split with ⟨u, longer, tail⟩ | ⟨u, longer, tail⟩
      · rcases ih tail with ⟨s1, s2, rfl, back⟩ | inside
        · exact .inl ⟨m ++ s1, s2, (List.append_assoc _ _ _).symm, back⟩
        · exact .inr inside
      · by_cases empty : u = []
        · rw [empty, List.nil_append] at tail
          exact .inl ⟨m, s, rfl, tail ▸ rest⟩
        · exact .inr ⟨t1, u, t, longer, empty, tail⟩

/-- Text with a given byte at its first occurrence splits there in one way. -/
theorem split_first {b : UInt8} {u u' v v' : Bytes} (without : b ∉ u) (without' : b ∉ u')
    (same : u ++ b :: v = u' ++ b :: v') : u = u' ∧ v = v' := by
  induction u generalizing u' with
  | nil =>
      cases u' with
      | nil => exact ⟨rfl, (List.cons.inj same).2⟩
      | cons c u' =>
          have head := (List.cons.inj same).1
          exact absurd (head ▸ List.mem_cons_self) without'
  | cons c u ih =>
      cases u' with
      | nil =>
          have head := (List.cons.inj same).1
          exact absurd (head ▸ List.mem_cons_self) without
      | cons c' u' =>
          obtain ⟨rfl, tail⟩ := List.cons.inj same
          obtain ⟨rfl, rest⟩ := ih (fun mem => without (List.mem_cons_of_mem c mem))
            (fun mem => without' (List.mem_cons_of_mem c mem)) tail
          exact ⟨rfl, rest⟩

theorem matchRest_head (nonempty : key ≠ []) {s : Bytes} (found : (matchRest key s).isSome) :
    ∃ b, key.head? = some b ∧ s.head? = some b := by
  obtain ⟨l, r, rest, _, _, _, rfl⟩ := matchRest_isSome.mp found
  cases key with
  | nil => exact absurd rfl nonempty
  | cons b key => exact ⟨b, rfl, rfl⟩

/-- No match of another word begins in an assignment written for one whose key the other
word does not begin in and whose value has no sign. -/
theorem unmatched_in_assign {w : Bytes} (word : Word other)
    (outside : ∀ b, other.head? = some b → b ∉ key ++ bytes " = \"") (closed : quote ∉ w)
    (noSign : equals ∉ w) {u v : Bytes} (split : assign key w = u ++ v) (nonempty : v ≠ [])
    (rest : Bytes) : matchRest other (v ++ rest) = none := by
  rw [← Option.not_isSome_iff_eq_none]
  intro found
  obtain ⟨b, begins, first⟩ := matchRest_head word.1 found
  rw [List.head?_append_of_ne_nil v nonempty] at first
  obtain ⟨_, _, notQuote⟩ := word.2 b (List.mem_of_head? begins)
  have notInValue : ∀ c x, w = c ++ x → v ≠ x ++ [quote] := by
    intro c x value ending
    obtain ⟨l, r, after, left, right, _, spelled⟩ := matchRest_isSome.mp found
    have noQuote : ∀ {t : Bytes}, Spaces t → quote ∉ t := fun spaces mem =>
      absurd (spaces quote mem) (by decide)
    have shape : x ++ quote :: rest = (other ++ (l ++ equals :: r)) ++ quote :: after := by
      rw [ending] at spelled
      simpa only [List.append_assoc, List.cons_append, List.nil_append] using spelled
    have before : quote ∉ x := fun mem => closed (value ▸ List.mem_append_right c mem)
    have before' : quote ∉ other ++ (l ++ equals :: r) := by
      simp only [List.mem_append, List.mem_cons, not_or]
      exact ⟨fun mem => (word.2 _ mem).2.2 rfl, noQuote left, by decide, noQuote right⟩
    have same := (split_first before before' shape).1
    refine noSign ?_
    rw [value, same]
    simp
  unfold assign at split
  rw [List.append_assoc] at split
  rcases List.append_eq_append_iff.mp split with ⟨c, _, tail⟩ | ⟨c, longer, tail⟩
  · rcases List.append_eq_append_iff.mp tail with ⟨x, _, ending⟩ | ⟨x, value, ending⟩
    · cases x with
      | nil =>
          rw [List.nil_append] at ending
          rw [← ending] at first
          exact notQuote (Option.some.inj first).symm
      | cons q x =>
          obtain ⟨_, none'⟩ := List.cons.inj ending
          exact nonempty (List.append_eq_nil_iff.mp none'.symm).2
    · exact notInValue c x value ending
  · cases c with
    | nil => exact notInValue [] w rfl tail
    | cons q c =>
        rw [tail] at first
        obtain rfl := Option.some.inj first
        refine outside q begins ?_
        rw [longer]
        exact List.mem_append_right _ List.mem_cons_self

end OrbisAgent.Lib.Assignment
