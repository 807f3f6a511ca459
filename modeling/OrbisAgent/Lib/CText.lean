/- OrbisAgent/Lib/CText
   generality: G
   digest: The buffers filled by a loop of fgets calls, a loop that reads one item from each, the
   tokens of a loop of getline calls, stoi and to_string. -/

import OrbisAgent.Lib.ByteString
import OrbisAgent.Lib.Json

set_option autoImplicit false
set_option relaxedAutoImplicit false

namespace OrbisAgent.Lib.CText

open OrbisAgent.Lib.ByteString
open OrbisAgent.Lib.Json (Exn)

universe u v

/-- The buffers of the next calls, when `line` was read so far and `left` more bytes fit. -/
def fgetsFrom (size : Nat) : Nat → Bytes → Bytes → List Bytes
  | _, line, [] => if line.isEmpty then [] else [line]
  | left, line, b :: rest =>
      if b = newline ∨ left ≤ 1 then (line ++ [b]) :: fgetsFrom size (size - 1) [] rest
      else fgetsFrom size (left - 1) (line ++ [b]) rest

/-- What `while (fgets(line, size, fp))` reads, call by call. -/
def fgetsLines (size : Nat) (stream : Bytes) : List Bytes := fgetsFrom size (size - 1) [] stream

theorem fgetsFrom_fits {size left : Nat} {line more : Bytes} (whole : newline ∉ more)
    (fits : more.length < left) (rest : Bytes) :
    fgetsFrom size left line (more ++ newline :: rest) =
      (line ++ more ++ [newline]) :: fgetsLines size rest := by
  induction more generalizing left line with
  | nil =>
      rw [List.nil_append, List.append_nil, fgetsFrom, if_pos (.inl rfl)]
      rfl
  | cons b more ih =>
      rw [List.mem_cons, not_or] at whole
      rw [List.length_cons] at fits
      have goesOn : ¬ (b = newline ∨ left ≤ 1) := by
        rintro (same | full)
        · exact whole.1 same.symm
        · omega
      have joined : line ++ [b] ++ more = line ++ b :: more := List.append_assoc line [b] more
      rw [List.cons_append, fgetsFrom, if_neg goesOn, ih whole.2 (by omega), joined]

theorem fgetsFrom_fills {size : Nat} {line more : Bytes} (whole : newline ∉ more)
    (nonempty : more ≠ []) (rest : Bytes) :
    fgetsFrom size more.length line (more ++ rest) = (line ++ more) :: fgetsLines size rest := by
  induction more generalizing line with
  | nil => exact absurd rfl nonempty
  | cons b more ih =>
      rw [List.mem_cons, not_or] at whole
      rw [List.cons_append, fgetsFrom]
      cases more with
      | nil =>
          rw [if_pos (.inr (Nat.le_refl 1))]
          rfl
      | cons c more =>
          have goesOn : ¬ (b = newline ∨ (b :: c :: more).length ≤ 1) := by
            rintro (same | full)
            · exact whole.1 same.symm
            · simp only [List.length_cons] at full
              omega
          have joined : line ++ [b] ++ c :: more = line ++ b :: c :: more :=
            List.append_assoc line [b] (c :: more)
          rw [if_neg goesOn, List.length_cons, Nat.add_sub_cancel,
            ih whole.2 (List.cons_ne_nil c more), joined]

theorem fgetsLines_newline (size : Nat) (rest : Bytes) :
    fgetsLines size (newline :: rest) = [newline] :: fgetsLines size rest := by
  unfold fgetsLines
  rw [fgetsFrom, if_pos (.inl rfl)]
  rfl

/-- A line shorter than the buffer is read by one call. Only its newline may be left for the
next one. -/
theorem fgetsLines_short {size : Nat} {line : Bytes} (whole : newline ∉ line)
    (short : line.length < size) (rest : Bytes) :
    fgetsLines size (line ++ newline :: rest) = (line ++ [newline]) :: fgetsLines size rest ∨
      fgetsLines size (line ++ newline :: rest) = line :: [newline] :: fgetsLines size rest := by
  by_cases fits : line.length < size - 1
  · exact .inl (fgetsFrom_fits whole fits rest)
  · have full : size - 1 = line.length := by omega
    by_cases empty : line = []
    · rw [empty]
      exact .inl (fgetsLines_newline size rest)
    · have filled : fgetsFrom size line.length [] (line ++ newline :: rest) =
          line :: fgetsLines size (newline :: rest) := fgetsFrom_fills whole empty _
      rw [← full, fgetsLines_newline] at filled
      exact .inr filled

/-- The calls that read a line and its newline read nothing of what follows. -/
theorem fgetsFrom_line {size left : Nat} {line more : Bytes} (whole : newline ∉ more)
    (rest : Bytes) :
    fgetsFrom size left line (more ++ newline :: rest) =
      fgetsFrom size left line (more ++ [newline]) ++ fgetsLines size rest := by
  induction more generalizing left line with
  | nil => simp [fgetsFrom, fgetsLines]
  | cons b more ih =>
      rw [List.mem_cons, not_or] at whole
      by_cases full : b = newline ∨ left ≤ 1
      · simp only [List.cons_append, fgetsFrom, if_pos full, ih whole.2]
      · simp only [List.cons_append, fgetsFrom, if_neg full, ih whole.2]

/-- The buffers together are the stream. -/
theorem flatten_fgetsFrom (size left : Nat) (line stream : Bytes) :
    (fgetsFrom size left line stream).flatten = line ++ stream := by
  induction stream generalizing left line with
  | nil => cases line <;> simp [fgetsFrom]
  | cons b rest ih =>
      rw [fgetsFrom]
      split
      · rw [List.flatten_cons, ih, List.nil_append, List.append_assoc, List.singleton_append]
      · rw [ih, List.append_assoc, List.singleton_append]

/-- A buffer as a C string ends in front of its first zero byte. -/
def cString (buf : Bytes) : Bytes := buf.takeWhile (· != 0)

theorem zero_notMem_cString (buf : Bytes) : 0 ∉ cString buf := by
  intro mem
  simpa using List.mem_takeWhile_imp mem

theorem cString_of_notMem {buf : Bytes} (solid : 0 ∉ buf) : cString buf = buf := by
  refine List.takeWhile_eq_self_iff.mpr fun b mem => ?_
  rw [bne_iff_ne]
  rintro rfl
  exact solid mem

/-- A line without its newline. -/
abbrev Line := { line : Bytes // newline ∉ line }

theorem Line.ne_ended (l : Line) (s : Bytes) : l.1 ≠ s ++ [newline] := by
  intro same
  apply l.2
  rw [same]
  exact List.mem_append_right s List.mem_cons_self

/-- Lines, each ended by a newline. -/
def stream (lines : List Line) : Bytes := lines.flatMap fun l => l.1 ++ [newline]

/-- A stream of lines is read line by line, whatever the buffer. -/
theorem fgetsLines_stream (size : Nat) (lines : List Line) :
    fgetsLines size (stream lines) =
      lines.flatMap fun l => fgetsLines size (l.1 ++ [newline]) := by
  induction lines with
  | nil => rfl
  | cons l lines ih =>
      have first : fgetsLines size (l.1 ++ newline :: stream lines) =
          fgetsLines size (l.1 ++ [newline]) ++ fgetsLines size (stream lines) :=
        fgetsFrom_line l.2 (stream lines)
      have shape : stream (l :: lines) = l.1 ++ newline :: stream lines := by
        simp [stream]
      rw [shape, first, ih, List.flatMap_cons]

/-- The pieces of `n` bytes that a line is cut into. The last one has the newline. -/
def pieces (n : Nat) (line : Bytes) : List Bytes :=
  if 0 < n ∧ n ≤ line.length then line.take n :: pieces n (line.drop n) else [line ++ [newline]]
termination_by line.length
decreasing_by
  rw [List.length_drop]
  omega

theorem length_le_of_mem_pieces {n : Nat} (pos : 0 < n) {line p : Bytes} (mem : p ∈ pieces n line) :
    p.length ≤ n := by
  induction line using pieces.induct n with
  | case1 line long ih =>
      rw [pieces, if_pos long, List.mem_cons] at mem
      rcases mem with rfl | mem
      · exact List.length_take_le n line
      · exact ih mem
  | case2 line short =>
      rw [pieces, if_neg short, List.mem_singleton] at mem
      rw [mem, List.length_append, List.length_singleton]
      omega

/-- The buffers of a line are its pieces, one byte shorter than the buffer. -/
theorem fgetsLines_line {size : Nat} (room : 2 ≤ size) (line : Line) :
    fgetsLines size (line.1 ++ [newline]) = pieces (size - 1) line.1 := by
  obtain ⟨line, whole⟩ := line
  dsimp only
  induction line using pieces.induct (size - 1) with
  | case1 line long ih =>
      have front : newline ∉ line.take (size - 1) := fun mem => whole (List.mem_of_mem_take mem)
      have back : newline ∉ line.drop (size - 1) := fun mem => whole (List.mem_of_mem_drop mem)
      have filled : (line.take (size - 1)).length = size - 1 := by
        rw [List.length_take]
        omega
      have nonempty : line.take (size - 1) ≠ [] := by
        apply List.ne_nil_of_length_pos
        omega
      have next : fgetsFrom size (line.take (size - 1)).length []
          (line.take (size - 1) ++ (line.drop (size - 1) ++ [newline])) =
            line.take (size - 1) :: fgetsLines size (line.drop (size - 1) ++ [newline]) :=
        fgetsFrom_fills front nonempty _
      rw [filled, ← List.append_assoc, List.take_append_drop] at next
      rw [pieces, if_pos long, ← ih back]
      exact next
  | case2 line short =>
      have fits : line.length < size - 1 := by omega
      rw [pieces, if_neg short]
      exact fgetsFrom_fits whole fits []

section Reading

variable {α : Type u} (read : Bytes → Except Exn (Option α))

/-- The body of a loop in `try` and `catch (...) {}`. -/
def caught (result : Except Exn (Option α)) : Option α :=
  match result with
  | .ok found => found
  | .error _ => none

/-- The items that a loop over the lines of a stream collects. -/
def readLines (size : Nat) (stream : Bytes) : List α :=
  (fgetsLines size stream).filterMap fun line => caught (read line)

variable {read}

/-- The items of a stream of lines are those of its lines. -/
theorem readLines_stream (size : Nat) (lines : List Line) :
    readLines read size (stream lines) =
      lines.flatMap fun l => readLines read size (l.1 ++ [newline]) := by
  unfold readLines
  rw [fgetsLines_stream]
  induction lines with
  | nil => rfl
  | cons l lines ih => rw [List.flatMap_cons, List.filterMap_append, ih, List.flatMap_cons]

/-- Lines shorter than the buffer that are read with and without their newline. -/
theorem readLines_short {ι : Type v} {size : Nat} {line : ι → Bytes} {value : ι → α}
    (blank : caught (read [newline]) = none) (items : List ι)
    (whole : ∀ i ∈ items, newline ∉ line i) (short : ∀ i ∈ items, (line i).length < size)
    (ended : ∀ i ∈ items, read (line i ++ [newline]) = .ok (some (value i)))
    (cut : ∀ i ∈ items, read (line i) = .ok (some (value i))) :
    readLines read size (items.flatMap fun i => line i ++ [newline]) = items.map value := by
  induction items with
  | nil => rfl
  | cons i items ih =>
      have rest := ih (fun j mem => whole j (List.mem_cons_of_mem i mem))
        (fun j mem => short j (List.mem_cons_of_mem i mem))
        (fun j mem => ended j (List.mem_cons_of_mem i mem))
        (fun j mem => cut j (List.mem_cons_of_mem i mem))
      have here := List.mem_cons_self (a := i) (l := items)
      have first : caught (read (line i ++ [newline])) = some (value i) := by
        rw [ended i here]
        rfl
      have first' : caught (read (line i)) = some (value i) := by
        rw [cut i here]
        rfl
      unfold readLines at rest ⊢
      rw [List.flatMap_cons, List.append_assoc, List.singleton_append, List.map_cons]
      rcases fgetsLines_short (whole i here) (short i here)
          (items.flatMap fun i => line i ++ [newline]) with one | two
      · rw [one, List.filterMap_cons, first, rest]
      · rw [two, List.filterMap_cons, first', List.filterMap_cons, blank, rest]

end Reading

def isSpace (b : UInt8) : Bool := b == 32 || (9 ≤ b && b ≤ 13)

def isDigit (b : UInt8) : Bool := 48 ≤ b && b ≤ 57

def number (digits : Bytes) : Nat := digits.foldl (fun n d => 10 * n + (d.toNat - 48)) 0

/-- Whether a minus sign is in front, and what follows the sign. -/
def sign : Bytes → Bool × Bytes
  | 45 :: rest => (true, rest)
  | 43 :: rest => (false, rest)
  | s => (false, s)

/-- Blanks, a sign and digits are read, and what follows is ignored. It throws when there are
no digits, and for a number that is no 32-bit int. -/
def stoi (s : Bytes) : Except Exn Int :=
  let (negative, rest) := sign (s.dropWhile isSpace)
  let digits := rest.takeWhile isDigit
  let value : Int := if negative then -(number digits : Int) else number digits
  if digits.isEmpty then .error ⟨.other, "stoi"⟩
  else if value < -2 ^ 31 ∨ 2 ^ 31 ≤ value then .error ⟨.other, "stoi"⟩
  else .ok value

/-- The integer that a sign, if there is one, and digits spell. -/
def decimal (s : Bytes) : Option Int :=
  let (negative, digits) := sign s
  if !digits.isEmpty && digits.all isDigit then
    some (if negative then -(number digits : Int) else number digits)
  else none

theorem not_space_of_digit {b : UInt8} (digit : isDigit b = true) : isSpace b = false := by
  simp only [isDigit, Bool.and_eq_true, decide_eq_true_eq, UInt8.le_iff_toNat_le] at digit
  have low : (48 : UInt8).toNat = 48 := rfl
  have top : (13 : UInt8).toNat = 13 := rfl
  have blank : (32 : UInt8).toNat = 32 := rfl
  rw [isSpace, Bool.or_eq_false_iff, Bool.and_eq_false_iff]
  refine ⟨?_, .inr ?_⟩
  · rw [beq_eq_false_iff_ne]
    rintro rfl
    omega
  · rw [decide_eq_false_iff_not, UInt8.le_iff_toNat_le]
    omega

/-- What a numeral begins with is no blank. -/
theorem dropWhile_of_decimal {s : Bytes} {n : Int} (spelled : decimal s = some n) :
    s.dropWhile isSpace = s := by
  cases s with
  | nil => rfl
  | cons b rest =>
      suffices solid : isSpace b = false by
        rw [List.dropWhile_cons, solid]
        rfl
      by_cases minus : b = 45
      · rw [minus]
        rfl
      by_cases plus : b = 43
      · rw [plus]
        rfl
      have unsigned : sign (b :: rest) = (false, b :: rest) := by
        unfold sign
        split <;> simp_all
      rw [decimal, unsigned] at spelled
      by_cases digits : isDigit b = true
      · exact not_space_of_digit digits
      · simp [digits] at spelled

/-- `stoi` reads a numeral of a 32-bit int as what it spells. -/
theorem stoi_of_decimal {s : Bytes} {n : Int} (spelled : decimal s = some n)
    (low : -2 ^ 31 ≤ n) (high : n < 2 ^ 31) : stoi s = .ok n := by
  have solid := dropWhile_of_decimal spelled
  unfold stoi
  rw [solid]
  unfold decimal at spelled
  dsimp only at spelled ⊢
  generalize (sign s).1 = negative, (sign s).2 = digits at spelled ⊢
  by_cases shape : (!digits.isEmpty && digits.all isDigit) = true
  · rw [if_pos shape, Option.some.injEq] at spelled
    rw [Bool.and_eq_true, Bool.not_eq_true', List.all_eq_true] at shape
    have all : digits.takeWhile isDigit = digits := List.takeWhile_eq_self_iff.mpr shape.2
    rw [all, spelled, shape.1, if_neg Bool.false_ne_true, if_neg (by omega)]
  · rw [if_neg shape] at spelled
    cases spelled

/-- `to_string` of a number that is not negative. -/
def digits (n : Nat) : Bytes := (Nat.toDigits 10 n).map fun c => c.toNat.toUInt8

theorem digit_toUInt8 {d : Nat} (small : d < 10) :
    (Nat.digitChar d).toNat.toUInt8.toNat = 48 + d ∧
      isDigit (Nat.digitChar d).toNat.toUInt8 = true := by
  have all : ∀ d : Fin 10, (Nat.digitChar d).toNat.toUInt8.toNat = 48 + d ∧
      isDigit (Nat.digitChar d).toNat.toUInt8 = true := by decide
  exact all ⟨d, small⟩

theorem number_snoc (front : Bytes) (b : UInt8) :
    number (front ++ [b]) = 10 * number front + (b.toNat - 48) := by
  simp [number]

/-- The last digit of a numeral, and the numeral of the rest. -/
theorem digits_eq_if (n : Nat) :
    digits n = (if n < 10 then [] else digits (n / 10)) ++
      [(Nat.digitChar (n % 10)).toNat.toUInt8] := by
  unfold digits
  rw [Nat.toDigits_eq_if (by omega)]
  split
  · rename_i small
    rw [Nat.mod_eq_of_lt small]
    rfl
  · rw [List.map_append]
    rfl

theorem digits_spells (n : Nat) :
    number (digits n) = n ∧ (digits n).all isDigit = true ∧ digits n ≠ [] := by
  induction n using Nat.strong_induction_on with
  | _ n ih =>
      obtain ⟨value, digit⟩ := digit_toUInt8 (Nat.mod_lt n (by omega : 10 > 0))
      rw [digits_eq_if, number_snoc, value, List.all_append]
      by_cases small : n < 10
      · rw [if_pos small]
        refine ⟨?_, by simp [digit], by simp⟩
        simp only [number, List.foldl_nil]
        omega
      · obtain ⟨front, solid, _⟩ := ih (n / 10) (by omega)
        rw [if_neg small, front, solid]
        refine ⟨?_, by simp [digit], by simp⟩
        omega

theorem isDigit_of_mem_digits {n : Nat} {b : UInt8} (mem : b ∈ digits n) : isDigit b = true :=
  List.all_eq_true.mp (digits_spells n).2.1 b mem

/-- A digit in front is no sign. -/
theorem sign_of_digit {b : UInt8} (digit : isDigit b = true) (rest : Bytes) :
    sign (b :: rest) = (false, b :: rest) := by
  unfold sign
  split
  · rename_i same
    obtain ⟨rfl, _⟩ := List.cons.inj same
    cases digit
  · rename_i same
    obtain ⟨rfl, _⟩ := List.cons.inj same
    cases digit
  · rfl

theorem decimal_digits (n : Nat) : decimal (digits n) = some (n : Int) := by
  obtain ⟨value, all, nonempty⟩ := digits_spells n
  cases spelled : digits n with
  | nil => exact absurd spelled nonempty
  | cons b rest =>
      rw [spelled] at value all
      have digit : isDigit b = true := by
        rw [List.all_cons, Bool.and_eq_true] at all
        exact all.1
      unfold decimal
      rw [sign_of_digit digit]
      simp only [all, value, List.isEmpty_cons, Bool.not_false, Bool.and_self, if_true,
        Bool.false_eq_true, if_false]

/-- `stoi` reads what `to_string` has written. -/
theorem stoi_digits {n : Nat} (fits : n < 2 ^ 31) : stoi (digits n) = .ok (n : Int) :=
  stoi_of_decimal (decimal_digits n) (by omega) (by omega)

/-- The tokens of `while (getline(stream, token, sep))`. -/
def getlines (sep : UInt8) : Bytes → List Bytes
  | [] => []
  | b :: rest =>
      if b = sep then [] :: getlines sep rest
      else
        match getlines sep rest with
        | [] => [[b]]
        | token :: tokens => (b :: token) :: tokens

/-- A separator ends a token. -/
theorem getlines_append {sep : UInt8} {token : Bytes} (whole : sep ∉ token) (rest : Bytes) :
    getlines sep (token ++ sep :: rest) = token :: getlines sep rest := by
  induction token with
  | nil => simp [getlines]
  | cons b token ih =>
      rw [List.mem_cons, not_or] at whole
      rw [List.cons_append, getlines, if_neg (Ne.symm whole.1), ih whole.2]

/-- The end of the stream ends the last token. -/
theorem getlines_last {sep : UInt8} {token : Bytes} (whole : sep ∉ token) (nonempty : token ≠ []) :
    getlines sep token = [token] := by
  induction token with
  | nil => exact absurd rfl nonempty
  | cons b token ih =>
      rw [List.mem_cons, not_or] at whole
      rw [getlines, if_neg (Ne.symm whole.1)]
      cases token with
      | nil => rfl
      | cons c token => rw [ih whole.2 (List.cons_ne_nil c token)]

end OrbisAgent.Lib.CText
