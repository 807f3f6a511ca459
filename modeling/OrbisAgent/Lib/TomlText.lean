/- OrbisAgent/Lib/TomlText
   generality: G
   digest: A TOML text as a sequence of pieces, the replacement of assignments in it, and what a
   parser that reads the pieces finds afterwards. -/

import OrbisAgent.Lib.Assignment
import OrbisAgent.Lib.Toml

set_option autoImplicit false
set_option relaxedAutoImplicit false

namespace OrbisAgent.Lib.TomlText

open OrbisAgent.Lib.Assignment
open OrbisAgent.Lib.ByteString
open OrbisAgent.Lib.Toml

def backslash : UInt8 := 92

def Printable (s : Bytes) : Prop := ∀ b ∈ s, 32 ≤ b ∧ b < 127

instance (s : Bytes) : Decidable (Printable s) :=
  List.decidableBAll (fun b => 32 ≤ b ∧ b < 127) s

/-- Printable ASCII that stands for itself in a basic string. -/
def Plain (s : Bytes) : Prop := ∀ b ∈ s, 32 ≤ b ∧ b < 127 ∧ b ≠ quote ∧ b ≠ backslash

instance (s : Bytes) : Decidable (Plain s) :=
  List.decidableBAll (fun b => 32 ≤ b ∧ b < 127 ∧ b ≠ quote ∧ b ≠ backslash) s

/-- The assignment of a one-line basic string that is written without a quote inside to a bare or
dotted key. The string may hold any other escape: `body` is how it is written, and `value` is
what it says. -/
structure Entry where
  parent : List Step
  name : Bytes
  /-- The text of the key, in the whole path or the part after its table. -/
  key : Bytes
  /-- The sign and the space around it. -/
  sign : Bytes
  body : Bytes
  value : Bytes
  bareKey : ∀ b ∈ key, b ≠ quote ∧ b ≠ equals
  keyEnd : ∀ b, key.getLast? = some b → isSpace b = false
  spaced : ∃ l r, Spaces l ∧ Spaces r ∧ sign = l ++ equals :: r
  closed : quote ∉ body

namespace Entry

theorem spaced_single : ∃ l r, Spaces l ∧ Spaces r ∧ bytes " = " = l ++ equals :: r :=
  ⟨[32], [32], by decide, by decide, by decide⟩

def path (e : Entry) : List Step := e.parent ++ [.key e.name]

def text (e : Entry) : Bytes := e.key ++ (e.sign ++ quote :: (e.body ++ [quote]))

/-- The assignment of another value, with one space around the sign. A plain value is written as
it is. -/
def write (e : Entry) (w : Bytes) (plain : Plain w) : Entry :=
  { e with
    sign := bytes " = "
    body := w
    value := w
    spaced := spaced_single
    closed := fun mem => (plain quote mem).2.2.1 rfl }

@[simp] theorem write_path (e : Entry) (w : Bytes) (plain : Plain w) :
    (e.write w plain).path = e.path := rfl

@[simp] theorem write_key (e : Entry) (w : Bytes) (plain : Plain w) :
    (e.write w plain).key = e.key := rfl

end Entry

inductive Piece
  | basic (e : Entry)
  | comment (text : Bytes)
  | other (text : Bytes)

namespace Piece

def text : Piece → Bytes
  | basic e => e.text
  | comment text => text
  | other text => text

/-- Assignments and comments. -/
def editable : Piece → Prop
  | basic _ => True
  | comment _ => True
  | other _ => False

end Piece

def text (ps : List Piece) : Bytes := ps.flatMap Piece.text

@[simp] theorem text_cons (p : Piece) (ps : List Piece) : text (p :: ps) = p.text ++ text ps := rfl

/-- The replacement of one assignment, piece by piece. -/
def patch (key w : Bytes) (plain : Plain w) : Piece → Piece
  | .basic e => if key <:+ e.key then .basic (e.write w plain) else .basic e
  | .comment text => .comment (regexReplace key (assign key w) text)
  | .other text => .other text

/-- No match begins outside assignments and comments or runs beyond its own. -/
def Contained (key : Bytes) : List Piece → Prop
  | [] => True
  | p :: ps =>
      (∀ u v, p.text = u ++ v → v ≠ [] → (matchRest key (v ++ text ps)).isSome →
        p.editable ∧ (matchRest key v).isSome) ∧ Contained key ps

instance : (p : Piece) → Decidable p.editable
  | .basic _ => isTrue trivial
  | .comment _ => isTrue trivial
  | .other _ => isFalse id

instance decidableContained (key : Bytes) : (ps : List Piece) → Decidable (Contained key ps)
  | [] => isTrue trivial
  | p :: ps =>
      have := decidableContained key ps
      decidable_of_iff
        ((∀ v ∈ p.text.tails, v ≠ [] → (matchRest key (v ++ text ps)).isSome →
          p.editable ∧ (matchRest key v).isSome) ∧ Contained key ps)
        (and_congr_left fun _ =>
          ⟨fun all u v split => all v ((List.mem_tails v _).mpr ⟨u, split.symm⟩),
            fun all v mem =>
              (List.mem_tails v _).mp mem |>.elim fun u split => all u v split.symm⟩)

theorem getLast?_suffix {key k : Bytes} (nonempty : key ≠ []) (ends : key <:+ k) :
    k.getLast? = key.getLast? := by
  obtain ⟨front, rfl⟩ := ends
  exact List.getLast?_append_of_ne_nil front nonempty

/-- Space after a text that does not end in space is where the text ends. -/
theorem split_space {a b l r : Bytes} (endA : ∀ c, a.getLast? = some c → isSpace c = false)
    (endB : ∀ c, b.getLast? = some c → isSpace c = false) (left : Spaces l) (right : Spaces r)
    (same : a ++ l = b ++ r) : a = b := by
  have noMore : ∀ {u v w : Bytes}, (∀ c, u.getLast? = some c → isSpace c = false) →
      u = v ++ w → Spaces w → w = [] := by
    intro u v w ending split spaces
    by_contra more
    have last : u.getLast? = w.getLast? := by
      rw [split]
      exact List.getLast?_append_of_ne_nil v more
    have visible := ending (w.getLast more) (by rw [last, List.getLast?_eq_some_getLast more])
    rw [spaces _ (List.getLast_mem more)] at visible
    cases visible
  rcases List.append_eq_append_iff.mp same with ⟨u, longer, rest⟩ | ⟨u, longer, rest⟩
  · have none' := noMore endB longer fun c mem => left c (by
      rw [rest]
      exact List.mem_append_left _ mem)
    rw [longer, none', List.append_nil]
  · have none' := noMore endA longer fun c mem => right c (by
      rw [rest]
      exact List.mem_append_left _ mem)
    rw [longer, none', List.append_nil]

variable {key w : Bytes}

/-- A match holds two quotes. -/
theorem matchRest_quotes {s : Bytes} (found : (matchRest key s).isSome) :
    2 ≤ s.count quote := by
  obtain ⟨rest, found⟩ := Option.isSome_iff_exists.mp found
  obtain ⟨l, r, v, _, _, _, rfl⟩ := matchRest_spelled.mp found
  simp only [List.count_append, List.count_cons, beq_self_eq_true, if_true]
  omega

/-- From the sign of an assignment on nothing matches. -/
theorem unmatched_after_key (word : Word key) (e : Entry) {u v : Bytes}
    (split : e.sign ++ quote :: (e.body ++ [quote]) = u ++ v) : matchRest key v = none := by
  rw [← Option.not_isSome_iff_eq_none]
  intro found
  obtain ⟨b, keyFirst, first⟩ := matchRest_head word.1 found
  obtain ⟨notSpace, notEquals, notQuote⟩ := word.2 b (List.mem_of_head? keyFirst)
  obtain ⟨l, r, left, right, sign⟩ := e.spaced
  have inSign : b ∉ e.sign := by
    rw [sign, List.mem_append, List.mem_cons]
    rintro (mem | rfl | mem)
    · exact absurd (left b mem) (by rw [notSpace]; decide)
    · exact notEquals rfl
    · exact absurd (right b mem) (by rw [notSpace]; decide)
  rcases List.append_eq_append_iff.mp split with ⟨c, longer, rest⟩ | ⟨c, longer, rest⟩
  · cases c with
    | nil =>
        rw [List.nil_append] at rest
        rw [← rest] at first
        exact notQuote (Option.some.inj first).symm
    | cons q c =>
        have tail : e.body ++ [quote] = c ++ v := (List.cons.inj rest).2
        have total := congrArg (List.count quote) tail
        have quotes := matchRest_quotes found
        rw [List.count_append, List.count_eq_zero.mpr e.closed, List.count_append] at total
        have one : List.count quote [quote] = 1 := by decide
        omega
  · cases c with
    | nil =>
        rw [List.nil_append] at rest
        rw [rest] at first
        exact notQuote (Option.some.inj first).symm
    | cons q c =>
        rw [rest] at first
        obtain rfl := Option.some.inj first
        exact inSign (by rw [longer]; exact List.mem_append_right _ List.mem_cons_self)

/-- Where an assignment matches, it matches from the word to its end. -/
theorem match_at_key (word : Word key) (e : Entry) {u rest : Bytes} (within : u <:+ e.key)
    (nonempty : u ≠ [])
    (found : matchRest key (u ++ (e.sign ++ quote :: (e.body ++ [quote]))) = some rest) :
    u = key ∧ rest = [] := by
  obtain ⟨l, r, v, left, right, without, spelled⟩ := matchRest_spelled.mp found
  obtain ⟨l', r', left', right', sign⟩ := e.spaced
  have inKey : ∀ b ∈ u, b ≠ quote ∧ b ≠ equals := fun b mem => e.bareKey b (within.subset mem)
  have noEquals : ∀ {s : Bytes}, Spaces s → equals ∉ s := fun spaces mem =>
    absurd (spaces equals mem) (by decide)
  have noQuote : ∀ {s : Bytes}, Spaces s → quote ∉ s := fun spaces mem =>
    absurd (spaces quote mem) (by decide)
  have shape : (u ++ l') ++ equals :: (r' ++ quote :: (e.body ++ [quote])) =
      (key ++ l) ++ equals :: (r ++ quote :: (v ++ quote :: rest)) := by
    rw [sign] at spelled
    simpa only [List.append_assoc, List.cons_append] using spelled
  obtain ⟨keys, values⟩ := split_first
    (by
      rw [List.mem_append]
      rintro (mem | mem)
      · exact (inKey _ mem).2 rfl
      · exact noEquals left' mem)
    (by
      rw [List.mem_append]
      rintro (mem | mem)
      · exact (word.2 _ mem).2.1 rfl
      · exact noEquals left mem) shape
  obtain ⟨_, inner⟩ := split_first (noQuote right') (noQuote right) values
  obtain ⟨_, ending⟩ := split_first e.closed without inner
  refine ⟨split_space ?_ ?_ left' left keys, ending.symm⟩
  · intro c last
    exact e.keyEnd c (by rw [getLast?_suffix nonempty within, last])
  · intro c last
    exact (word.2 c (List.mem_of_getLast? last)).1

/-- An assignment to the word, after any front of the key. -/
theorem replace_at_key (word : Word key) {fmt : Bytes} (plain : dollar ∉ fmt) (e : Entry)
    {front : Bytes} (within : front ++ key <:+ e.key) :
    regexReplace key fmt ((front ++ key) ++ (e.sign ++ quote :: (e.body ++ [quote]))) =
      front ++ fmt := by
  induction front with
  | nil =>
      obtain ⟨l, r, left, right, sign⟩ := e.spaced
      have found : matchRest key (key ++ (e.sign ++ quote :: (e.body ++ [quote]))) = some [] := by
        refine matchRest_spelled.mpr ⟨l, r, e.body, left, right, e.closed, ?_⟩
        rw [sign, List.append_assoc, List.cons_append]
      rw [List.nil_append, regexReplace_some plain found, regexReplace_nil, List.append_nil,
        List.nil_append]
  | cons c front ih =>
      have none' : matchRest key (c :: ((front ++ key) ++
          (e.sign ++ quote :: (e.body ++ [quote])))) = none := by
        rw [Option.eq_none_iff_forall_ne_some]
        intro rest found
        have same := (match_at_key word e within (List.cons_ne_nil _ _) found).1
        have sizes := congrArg List.length same
        rw [List.length_append, List.length_cons] at sizes
        omega
      rw [List.cons_append, List.cons_append, regexReplace_none plain none',
        ih ((List.suffix_cons c (front ++ key)).trans within), List.cons_append]

/-- An assignment to another key. -/
theorem replace_beside_key (word : Word key) {fmt : Bytes} (plain : dollar ∉ fmt) (e : Entry)
    (beside : ¬ key <:+ e.key) : regexReplace key fmt e.text = e.text := by
  refine regexReplace_id plain fun u v split => ?_
  rcases List.append_eq_append_iff.mp split with ⟨c, longer, rest⟩ | ⟨c, longer, rest⟩
  · exact unmatched_after_key word e rest
  · by_cases empty : c = []
    · rw [empty, List.nil_append] at rest
      exact unmatched_after_key word e (u := []) (by rw [rest]; rfl)
    · rw [rest, Option.eq_none_iff_forall_ne_some]
      intro after found
      have within : c <:+ e.key := ⟨u, longer.symm⟩
      have same := (match_at_key word e within empty found).1
      exact beside (same ▸ within)

theorem assign_eq (front : Bytes) (key w : Bytes) :
    front ++ assign key w = (front ++ key) ++ (bytes " = " ++ quote :: (w ++ [quote])) := by
  have sign : bytes " = \"" = bytes " = " ++ [quote] := by decide
  rw [assign, sign]
  simp only [List.append_assoc, List.cons_append, List.nil_append]

/-- The replacement in the text of an assignment. -/
theorem replace_entry (word : Word key) (plain : Plain w) (unchanged : dollar ∉ assign key w)
    (e : Entry) : regexReplace key (assign key w) e.text = (patch key w plain (.basic e)).text := by
  by_cases ends : key <:+ e.key
  · rw [patch, if_pos ends]
    obtain ⟨front, same⟩ := ends
    have within : front ++ key <:+ e.key := by rw [same]
    have replaced := replace_at_key word unchanged e within
    rw [assign_eq, same] at replaced
    exact replaced
  · rw [patch, if_neg ends]
    exact replace_beside_key word unchanged e ends

theorem replace_other {t : Bytes} {fmt : Bytes} (plain : dollar ∉ fmt) {ps : List Piece}
    (contained : Contained key (.other t :: ps)) : regexReplace key fmt t = t := by
  refine regexReplace_id plain fun u v split => ?_
  by_cases empty : v = []
  · rw [empty, matchRest_nil]
  · rw [Option.eq_none_iff_forall_ne_some]
    intro rest found
    have longer : (matchRest key (v ++ text ps)).isSome := by
      rw [matchRest_append found]
      rfl
    exact (contained.1 u v split empty longer).1

/-- The replacement over a text goes piece by piece. -/
theorem regexReplace_text (word : Word key) (plain : Plain w) (unchanged : dollar ∉ assign key w)
    {ps : List Piece} (contained : Contained key ps) :
    regexReplace key (assign key w) (text ps) = text (ps.map (patch key w plain)) := by
  induction ps with
  | nil => rfl
  | cons p ps ih =>
      have piece : regexReplace key (assign key w) p.text = (patch key w plain p).text := by
        cases p with
        | basic e => exact replace_entry word plain unchanged e
        | comment t => rfl
        | other t => exact replace_other unchanged contained
      rw [text_cons, regexReplace_append unchanged fun u v split nonempty found =>
        (contained.1 u v split nonempty found).2, piece, ih contained.2]
      rfl

theorem patched_piece (word : Word key) (plain : Plain w) (unchanged : dollar ∉ assign key w)
    (p : Piece) : Patched key (assign key w) p.text (patch key w plain p).text := by
  have same : ∀ t : Bytes, Patched key (assign key w) t t := by
    intro t
    induction t with
    | nil => exact .nil
    | cons c t ih => exact .keep c ih
  cases p with
  | basic e =>
      have patched : Patched key (assign key w) e.text (regexReplace key (assign key w) e.text) :=
        patched_regexReplace unchanged e.text
      rw [replace_entry word plain unchanged e] at patched
      exact patched
  | comment t => exact patched_regexReplace unchanged t
  | other t => exact same t

theorem patched_text (word : Word key) (plain : Plain w) (unchanged : dollar ∉ assign key w)
    (ps : List Piece) :
    Patched key (assign key w) (text ps) (text (ps.map (patch key w plain))) := by
  induction ps with
  | nil => exact .nil
  | cons p ps ih => exact (patched_piece word plain unchanged p).append ih

theorem patch_editable (plain : Plain w) {p : Piece} (editable : p.editable) :
    (patch key w plain p).editable := by
  cases p with
  | basic e =>
      rw [patch]
      split <;> exact trivial
  | comment t => exact trivial
  | other t => exact editable

/-- The replacement of one word keeps the matches of another inside their pieces. -/
theorem contained_patch {other : Bytes} (word : Word key) (plain : Plain w)
    (unchanged : dollar ∉ assign key w) (apart : Separate key (assign key w) other)
    {ps : List Piece} (contained : Contained other ps) :
    Contained other (ps.map (patch key w plain)) := by
  induction ps with
  | nil => exact trivial
  | cons p ps ih =>
      refine ⟨fun u v split nonempty found => ?_, ih contained.2⟩
      have piece := patched_piece word plain unchanged p
      rcases piece.suffix split with ⟨s1, s2, split', back⟩ | ⟨x, y, rest, inside, some', ending⟩
      · have before : (matchRest other (s2 ++ text ps)).isSome :=
          (apart.matchRest_isSome (back.append (patched_text word plain unchanged ps))).mpr found
        have some' : s2 ≠ [] := by
          rintro rfl
          exact nonempty back.eq_nil
        obtain ⟨editable, within⟩ := contained.1 s1 s2 split' some' before
        exact ⟨patch_editable plain editable, (apart.matchRest_isSome back).mp within⟩
      · have none' := apart.start x y (rest ++ text (ps.map (patch key w plain))) inside some'
        rw [ending, List.append_assoc, none'] at found
        cases found

/-- The document with the strings of all assignments put in. -/
def retext : List Piece → Value → Value
  | [], root => root
  | .basic e :: ps, root => retext ps (root.set e.path e.value)
  | .comment _ :: ps, root => retext ps root
  | .other _ :: ps, root => retext ps root

/-- The document has strings at the paths of all assignments. -/
def Strings (ps : List Piece) (root : Value) : Prop :=
  ∀ e, .basic e ∈ ps → ∃ s, root.find e.path = some (.string s)

/-- Two strings of a document are at one path or beside each other. -/
theorem find_set_string {p q : List Step} {root : Value} {s t : Bytes}
    (here : root.find p = some (.string s)) (there : root.find q = some (.string t))
    (apart : p ≠ q) (value : Bytes) : (root.set p value).find q = some (.string t) := by
  rw [Value.find_set_apart (fun before => apart (Value.eq_of_prefix_string here there before))
    (fun before => apart (Value.eq_of_prefix_string there here before).symm), there]

theorem Strings.set {e : Entry} {ps : List Piece} {root : Value} {s : Bytes}
    (here : root.find e.path = some (.string s)) (strings : Strings ps root) :
    Strings ps (root.set e.path e.value) := by
  intro e' mem
  obtain ⟨t, there⟩ := strings e' mem
  by_cases same : e.path = e'.path
  · exact ⟨e.value, same ▸ Value.find_set_same here⟩
  · exact ⟨t, find_set_string here there same e.value⟩

theorem Strings.tail {p : Piece} {ps : List Piece} {root : Value}
    (strings : Strings (p :: ps) root) : Strings ps root :=
  fun e mem => strings e (List.mem_cons_of_mem p mem)

/-- A rewriting that keeps a text TOML: another plain string for a one-line basic one, and
printable text for a match inside a comment. -/
inductive Rewrites : Piece → Piece → Prop
  | same (p : Piece) : Rewrites p p
  | basic (e : Entry) (w : Bytes) (plain : Plain w) : Rewrites (.basic e) (.basic (e.write w plain))
  | comment {key fmt c c' : Bytes} : Printable key → Printable fmt → Patched key fmt c c' →
      Rewrites (.comment c) (.comment c')

/-- A parser that reads a text as pieces, as the grammar of TOML has it: the pieces make up
the text, the document has at each assignment what its string says, and a rewritten text is
the document with the new strings. -/
structure Reading (parse : Bytes → Option Value) where
  pieces : Bytes → List Piece
  lossless : ∀ {content root}, parse content = some root → text (pieces content) = content
  reads : ∀ {content root}, parse content = some root → ∀ e, .basic e ∈ pieces content →
    root.find e.path = some (.string e.value)
  reread : ∀ {content root ps}, parse content = some root →
    List.Forall₂ Rewrites (pieces content) ps →
      parse (text ps) = some (retext ps root) ∧ pieces (text ps) = ps

theorem patch_rewrites (plain : Plain w) (printable : Printable key) (p : Piece)
    (unchanged : dollar ∉ assign key w) : Rewrites p (patch key w plain p) := by
  cases p with
  | basic e =>
      rw [patch]
      split
      · exact .basic e w plain
      · exact .same _
  | comment c =>
      refine .comment printable ?_ (patched_regexReplace unchanged c)
      intro b mem
      unfold assign at mem
      simp only [List.mem_append, List.mem_singleton] at mem
      have sign : Printable (bytes " = \"") := by decide
      rcases mem with ((mem | mem) | mem) | rfl
      · exact printable b mem
      · exact sign b mem
      · exact ⟨(plain b mem).1, (plain b mem).2.1⟩
      · decide
  | other c => exact .same _

/-- The replacement in a file that parses, where matches stay inside their pieces: the new
file parses, to the document with the new strings. -/
theorem Reading.replace {parse : Bytes → Option Value} (reading : Reading parse)
    {content : Bytes} {root : Value} (parsed : parse content = some root) (word : Word key)
    (printable : Printable key) (plain : Plain w) (unchanged : dollar ∉ assign key w)
    (contained : Contained key (reading.pieces content)) :
    parse (regexReplace key (assign key w) content) =
        some (retext ((reading.pieces content).map (patch key w plain)) root) ∧
      reading.pieces (regexReplace key (assign key w) content) =
        (reading.pieces content).map (patch key w plain) := by
  have rewrites : List.Forall₂ Rewrites (reading.pieces content)
      ((reading.pieces content).map (patch key w plain)) := by
    generalize reading.pieces content = ps
    induction ps with
    | nil => exact .nil
    | cons p ps ih => exact .cons (patch_rewrites plain printable p unchanged) ih
  have written := regexReplace_text word plain unchanged contained
  rw [reading.lossless parsed] at written
  rw [written]
  exact reading.reread parsed rewrites

theorem mem_patch (plain : Plain w) {e : Entry} {ps : List Piece} (mem : .basic e ∈ ps) :
    (key <:+ e.key → .basic (e.write w plain) ∈ ps.map (patch key w plain)) ∧
      (¬ key <:+ e.key → .basic e ∈ ps.map (patch key w plain)) := by
  have image := List.mem_map_of_mem (f := patch key w plain) mem
  constructor
  · intro ends
    rw [patch, if_pos ends] at image
    exact image
  · intro beside
    rw [patch, if_neg beside] at image
    exact image

theorem Strings.patch (plain : Plain w) {ps : List Piece} {root : Value}
    (strings : Strings ps root) : Strings (ps.map (patch key w plain)) root := by
  intro e mem
  obtain ⟨p, before, same⟩ := List.mem_map.mp mem
  cases p with
  | basic e' =>
      rw [TomlText.patch] at same
      split at same
      · obtain rfl := Piece.basic.inj same
        exact strings e' before
      · obtain rfl := Piece.basic.inj same
        exact strings e' before
  | comment c => cases same
  | other c => cases same

/-- Where an assignment of a replaced text comes from. -/
theorem of_mem_patch (plain : Plain w) {e' : Entry} {ps : List Piece}
    (mem : .basic e' ∈ ps.map (patch key w plain)) :
    ∃ e, .basic e ∈ ps ∧ e'.path = e.path ∧ e'.key = e.key ∧
      (key <:+ e.key ∧ e'.value = w ∨ ¬ key <:+ e.key ∧ e' = e) := by
  obtain ⟨p, before, same⟩ := List.mem_map.mp mem
  cases p with
  | basic e =>
      rw [patch] at same
      split at same
      · rename_i ends
        obtain rfl := Piece.basic.inj same
        exact ⟨e, before, rfl, rfl, .inl ⟨ends, rfl⟩⟩
      · rename_i beside
        obtain rfl := Piece.basic.inj same
        exact ⟨e, before, rfl, rfl, .inr ⟨beside, rfl⟩⟩
  | comment c => cases same
  | other c => cases same

/-- A path keeps its surface where the assignments to it already have their values. -/
theorem surface_retext {ps : List Piece} {root : Value} {q : List Step} (strings : Strings ps root)
    (already : ∀ e, .basic e ∈ ps → e.path = q → root.find q = some (.string e.value)) :
    ((retext ps root).find q).map Value.surface = (root.find q).map Value.surface := by
  induction ps generalizing root with
  | nil => rfl
  | cons p ps ih =>
      cases p with
      | basic e =>
          obtain ⟨s, here⟩ := strings e List.mem_cons_self
          have later : ∀ e', .basic e' ∈ ps → e'.path = q → root.find q = some (.string e'.value) :=
            fun e' mem => already e' (List.mem_cons_of_mem _ mem)
          by_cases same : e.path = q
          · subst same
            have there := already e List.mem_cons_self rfl
            have put : (root.set e.path e.value).find e.path = some (.string e.value) :=
              Value.find_set_same here
            have rest := ih (strings.tail.set here) fun e' mem there' => by
              rw [put, ← there]
              exact later e' mem there'
            rw [retext, rest, put, there]
          · have rest := ih (strings.tail.set here) fun e' mem there' => by
              obtain ⟨t, string⟩ := strings.tail e' mem
              rw [there'] at string
              have value := later e' mem there'
              rw [find_set_string here string same e.value, ← string]
              exact value
            rw [retext, rest, Value.surface_find_set here (Ne.symm same)]
      | comment c => exact ih strings.tail fun e' mem => already e' (List.mem_cons_of_mem _ mem)
      | other c => exact ih strings.tail fun e' mem => already e' (List.mem_cons_of_mem _ mem)

/-- A replacement keeps the surface of a path whose matching assignments have the value. -/
theorem Reading.replace_surface {parse : Bytes → Option Value} (reading : Reading parse)
    {content : Bytes} {root : Value} (parsed : parse content = some root) (plain : Plain w)
    {q : List Step} (already : ∀ e, .basic e ∈ reading.pieces content → e.path = q →
      key <:+ e.key → e.value = w) :
    ((retext ((reading.pieces content).map (patch key w plain)) root).find q).map Value.surface =
      (root.find q).map Value.surface := by
  have strings : Strings (reading.pieces content) root :=
    fun e mem => ⟨e.value, reading.reads parsed e mem⟩
  refine surface_retext (strings.patch plain) fun e' mem there => ?_
  obtain ⟨e, before, path, _, ⟨ends, value⟩ | ⟨_, same⟩⟩ := of_mem_patch plain mem
  · rw [value, ← already e before (path ▸ there) ends, ← there, path]
    exact reading.reads parsed e before
  · rw [same, ← there, path]
    exact reading.reads parsed e before

end OrbisAgent.Lib.TomlText
