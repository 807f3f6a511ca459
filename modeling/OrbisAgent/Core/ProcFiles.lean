/- OrbisAgent/Core/ProcFiles
   source: src/services/HeartbeatService.cpp (Linux), src/plugins/cpu_ram/cpu_ram.cpp (Linux)
   digest: What both readers of /proc/meminfo and /proc/stat share: the loop over the entries of
   the one, and the counters in the first line of the other. -/

import OrbisAgent.Lib.Extraction

set_option autoImplicit false
set_option relaxedAutoImplicit false

namespace OrbisAgent.Core.ProcFiles

open OrbisAgent.Lib.ByteString
open OrbisAgent.Lib.CText
open OrbisAgent.Lib.Extraction
open OrbisAgent.Lib.MachineNumbers

/-- The variables of the loop. -/
structure Memory where
  total : Nat
  available : Nat

def Memory.enter (m : Memory) (e : Bytes × Nat) : Memory where
  total := if e.1 = bytes "MemTotal:" then e.2 else m.total
  available := if e.1 = bytes "MemAvailable:" then e.2 else m.available

/-- `if (total && available) break;` -/
def Memory.complete (m : Memory) : Bool := m.total != 0 && m.available != 0

/-- The loop over `/proc/meminfo`; `none` is a file that cannot be opened. -/
def readMemory (content : Option Bytes) : Memory :=
  whileEntry Memory.enter Memory.complete ⟨0, 0⟩ (.opened content)

/-- A variable has its number, or the entries have it still to come. -/
def Settles (key : Bytes) (n v : Nat) (entries : List (Bytes × Nat)) : Prop :=
  (v = n ∧ key ∉ entries.map Prod.fst) ∨ (v = 0 ∧ (key, n) ∈ entries)

theorem Settles.step {key : Bytes} {n v : Nat} {e : Bytes × Nat} {entries : List (Bytes × Nat)}
    (settles : Settles key n v (e :: entries)) (distinct : ((e :: entries).map Prod.fst).Nodup) :
    Settles key n (if e.1 = key then e.2 else v) entries := by
  obtain ⟨found, value⟩ := e
  rw [List.map_cons, List.nodup_cons] at distinct
  rcases settles with ⟨read, gone⟩ | ⟨zero, ahead⟩
  · rw [List.map_cons, List.mem_cons, not_or] at gone
    rw [if_neg (Ne.symm gone.1)]
    exact .inl ⟨read, gone.2⟩
  · rcases List.mem_cons.mp ahead with here | later
    · obtain ⟨rfl, rfl⟩ := Prod.mk.inj here
      rw [if_pos rfl]
      exact .inl ⟨rfl, distinct.1⟩
    · have other : found ≠ key := by
        rintro rfl
        exact distinct.1 (List.mem_map.mpr ⟨_, later, rfl⟩)
      rw [if_neg other]
      exact .inr ⟨zero, later⟩

theorem Settles.read {key : Bytes} {n v : Nat} {entries : List (Bytes × Nat)}
    (settles : Settles key n v entries) (nonzero : v ≠ 0) : v = n := by
  rcases settles with ⟨read, _⟩ | ⟨zero, _⟩
  · exact read
  · exact absurd zero nonzero

theorem Settles.last {key : Bytes} {n v : Nat} (settles : Settles key n v []) : v = n := by
  rcases settles with ⟨read, _⟩ | ⟨_, ahead⟩
  · exact read
  · cases ahead

/-- Entries of different keys bring both variables to their numbers. -/
theorem foldUntil_settles {total available : Nat} {m : Memory} {entries : List (Bytes × Nat)}
    (distinct : (entries.map Prod.fst).Nodup)
    (totals : Settles (bytes "MemTotal:") total m.total entries)
    (availables : Settles (bytes "MemAvailable:") available m.available entries) :
    foldUntil Memory.enter Memory.complete m entries = ⟨total, available⟩ := by
  induction entries generalizing m with
  | nil =>
      obtain ⟨t, a⟩ := m
      obtain rfl := totals.last
      obtain rfl := availables.last
      rfl
  | cons e entries ih =>
      have totals' : Settles (bytes "MemTotal:") total (m.enter e).total entries :=
        totals.step distinct
      have availables' : Settles (bytes "MemAvailable:") available (m.enter e).available entries :=
        availables.step distinct
      rw [foldUntil]
      by_cases full : (m.enter e).complete = true
      · rw [if_pos full]
        simp only [Memory.complete, Bool.and_eq_true, bne_iff_ne] at full
        have t := totals'.read full.1
        have a := availables'.read full.2
        cases entered : m.enter e
        rw [entered] at t a
        obtain rfl := t
        obtain rfl := a
        rfl
      · rw [if_neg full]
        exact ih (List.nodup_cons.mp distinct).2 totals' availables'

/-- The file has an entry for both keys, and no key twice. What comes behind the entries is
any text. -/
structure Meminfo (records : List Record) (total available : Nat) : Prop where
  distinct : (records.map Record.key).Nodup
  has_total : (bytes "MemTotal:", total) ∈ records.map Record.entry
  has_available : (bytes "MemAvailable:", available) ∈ records.map Record.entry

/-- Both numbers are found, whatever the blanks, the units, the other entries and the text that
follows. -/
theorem readMemory_meminfo {records : List Record} {total available : Nat}
    (file : Meminfo records total available) (positive : 0 < available)
    (part : available ≤ total) (rest : Bytes) :
    readMemory (some (records.flatMap Record.text ++ rest)) = ⟨total, available⟩ := by
  have keys : (records.map Record.entry).map Prod.fst = records.map Record.key := by
    rw [List.map_map]
    rfl
  have found : foldUntil Memory.enter Memory.complete ⟨0, 0⟩ (records.map Record.entry) =
      ⟨total, available⟩ :=
    foldUntil_settles (by rw [keys]; exact file.distinct) (.inr ⟨rfl, file.has_total⟩)
      (.inr ⟨rfl, file.has_available⟩)
  have complete : (⟨total, available⟩ : Memory).complete = true := by
    rw [Memory.complete, Bool.and_eq_true, bne_iff_ne, bne_iff_ne]
    dsimp only
    omega
  have none : Blank [] := by
    intro b mem
    cases mem
  rw [← found] at complete ⊢
  exact whileEntry_records rfl complete none rest

/-- Without the key nothing is available, whatever else the file has. -/
theorem readMemory_without {content : Bytes} (absent : ¬ bytes "MemAvailable:" <:+: content) :
    (readMemory (some content)).available = 0 ∧ (readMemory (some content)).total < 2 ^ 64 := by
  have step : ∀ (m : Memory) (e : Bytes × Nat), e.1 <:+: content → e.2 < 2 ^ 64 →
      m.available = 0 ∧ m.total < 2 ^ 64 →
        (m.enter e).available = 0 ∧ (m.enter e).total < 2 ^ 64 := by
    rintro m e inside fits ⟨zero, small⟩
    have other : e.1 ≠ bytes "MemAvailable:" := by
      intro same
      rw [same] at inside
      exact absent inside
    refine ⟨?_, ?_⟩
    · simp only [Memory.enter, if_neg other, zero]
    · unfold Memory.enter
      split
      · exact fits
      · exact small
  exact whileEntry_invariant (P := fun m : Memory => m.available = 0 ∧ m.total < 2 ^ 64) step
    ⟨rfl, Nat.two_pow_pos 64⟩ List.suffix_rfl

/-- Numbers that are extracted one after the other. -/
def extract : Nat → IStream → List (Option Nat)
  | 0, _ => []
  | k + 1, s => (unsignedLongLong s).1 :: extract k (unsignedLongLong s).2

/-- A counter, with the blanks in front of it. -/
structure Counter where
  gap : Bytes
  val : Nat
  isGap : Gap gap
  val_lt : val < 2 ^ 64

def Counter.text (c : Counter) : Bytes := c.gap ++ digits c.val

/-- The counter at this place of the line, or 0. -/
def counterAt (counters : List Counter) (i : Nat) : Nat := (counters.map Counter.val).getD i 0

theorem counterAt_cons_zero (c : Counter) (counters : List Counter) :
    counterAt (c :: counters) 0 = c.val := rfl

/-- What stands behind the counters of the first line: the next line, which begins with a
letter, or nothing. -/
inductive Behind : Bytes → Prop
  | nothing : Behind []
  | nextLine (b : UInt8) (rest : Bytes) : Word [b] → isDigit b = false → b ≠ 43 → b ≠ 45 →
      Behind (newline :: b :: rest)

theorem Behind.stops {rest : Bytes} (behind : Behind rest) : Stops isDigit rest := by
  cases behind with
  | nothing => exact stops_nil isDigit
  | nextLine b rest => exact stops_cons rfl (b :: rest)

theorem extract_failed (k : Nat) {s : IStream} (failed : s.fail = true) :
    extract k s = List.replicate k none := by
  induction k generalizing s with
  | zero => rfl
  | succ k ih =>
      have still : unsignedLongLong s = (none, { s with fail := true }) := by
        simp [unsignedLongLong, sentry, failed]
      rw [extract, still, List.replicate_succ, ih rfl]

/-- Behind the counters no number is read. -/
theorem extract_behind {rest : Bytes} (behind : Behind rest) (k : Nat) (atEnd : Bool)
    (ended : atEnd = true → rest = []) :
    (extract k ⟨rest, atEnd, false⟩).map (fun n => n.getD 0) = List.replicate k 0 := by
  cases k with
  | zero => rfl
  | succ k =>
      have first : (unsignedLongLong ⟨rest, atEnd, false⟩).1.getD 0 = 0 ∧
          (unsignedLongLong ⟨rest, atEnd, false⟩).2.fail = true := by
        cases behind with
        | nothing => cases atEnd <;> exact ⟨rfl, rfl⟩
        | nextLine b rest isWord letter plus minus =>
            cases atEnd with
            | true => cases ended rfl
            | false =>
                have blank : Blank [newline] := by
                  intro c mem
                  rw [List.mem_singleton.mp mem]
                  rfl
                have ahead : sentry (.at (newline :: b :: rest)) = (true, .at (b :: rest)) :=
                  sentry_word blank isWord rest
                have unsigned : sign (b :: rest) = (false, b :: rest) := by
                  unfold sign
                  split
                  · rename_i same
                    exact absurd (List.cons.inj same).1 minus
                  · rename_i same
                    exact absurd (List.cons.inj same).1 plus
                  · rfl
                simp [unsignedLongLong, ahead, unsigned, letter]
      rw [extract, List.map_cons, first.1, extract_failed k first.2, List.map_replicate,
        List.replicate_succ]
      rfl

/-- The counters of a line, and what stands behind them. -/
def countersText (counters : List Counter) (rest : Bytes) : Bytes :=
  counters.flatMap Counter.text ++ rest

theorem countersText_cons (c : Counter) (counters : List Counter) (rest : Bytes) :
    countersText (c :: counters) rest = c.text ++ countersText counters rest := by
  unfold countersText
  rw [List.flatMap_cons, List.append_assoc]

theorem countersText_stops {counters : List Counter} {rest : Bytes} (behind : Behind rest) :
    Stops isDigit (countersText counters rest) := by
  cases counters with
  | nil => exact behind.stops
  | cons c counters =>
      rw [countersText_cons, Counter.text, List.append_assoc]
      exact c.isGap.ends_number _

theorem unsignedLongLong_counter (c : Counter) {counters : List Counter} {rest : Bytes}
    (behind : Behind rest) :
    unsignedLongLong (.at (countersText (c :: counters) rest)) =
      (some c.val, .after (countersText counters rest)) := by
  rw [countersText_cons, Counter.text, List.append_assoc]
  exact unsignedLongLong_read c.isGap.blank c.val_lt (countersText_stops behind)

/-- A stream in front of counters has not met its end. -/
theorem after_counters (c : Counter) (counters : List Counter) (rest : Bytes) :
    IStream.after (countersText (c :: counters) rest) =
      .at (countersText (c :: counters) rest) := by
  rw [countersText_cons, Counter.text, List.append_assoc]
  exact c.isGap.after _

/-- The counters of the line are read one by one. -/
theorem extract_counters {counters : List Counter} {rest : Bytes} (behind : Behind rest) {k : Nat}
    (enough : k ≤ counters.length) :
    extract k (.after (countersText counters rest)) =
      (List.range k).map fun i => some (counterAt counters i) := by
  induction k generalizing counters with
  | zero => rfl
  | succ k ih =>
      cases counters with
      | nil => exact absurd enough (Nat.not_succ_le_zero k)
      | cons c counters =>
          rw [List.length_cons, Nat.succ_le_succ_iff] at enough
          rw [after_counters, extract, unsignedLongLong_counter c behind, ih enough,
            List.range_succ_eq_map, List.map_cons, List.map_map, counterAt_cons_zero]
          rfl

/-- Counters that the line does not have are 0, when this is what the variables hold before. -/
theorem extract_counters_padded {counters : List Counter} {rest : Bytes} (behind : Behind rest)
    (k : Nat) :
    (extract k (.after (countersText counters rest))).map (fun n => n.getD 0) =
      (List.range k).map fun i => counterAt counters i := by
  induction k generalizing counters with
  | zero => rfl
  | succ k ih =>
      cases counters with
      | nil =>
          have zeros := extract_behind behind (k + 1) rest.isEmpty List.isEmpty_iff.mp
          have none : (fun i => counterAt [] i) = fun _ => 0 := by
            funext i
            rfl
          rw [countersText, List.flatMap_nil, List.nil_append, zeros, none, List.map_const',
            List.length_range]
      | cons c counters =>
          rw [after_counters, extract, unsignedLongLong_counter c behind, List.map_cons, ih,
            List.range_succ_eq_map, List.map_cons, List.map_map, counterAt_cons_zero]
          rfl

/-- The beginning of `/proc/stat`: the counters of all processors, and any text behind. -/
def statText (counters : List Counter) (rest : Bytes) : Bytes :=
  bytes "cpu" ++ countersText counters rest

theorem word_statText {counters : List Counter} (some' : counters ≠ []) (rest : Bytes) :
    (word (.opened (some (statText counters rest)))).2 = .after (countersText counters rest) := by
  have name : Word (bytes "cpu") := word_of_all rfl (by decide)
  have none : Blank [] := by
    intro b mem
    cases mem
  have ended : Stops (fun b => !isSpace b) (countersText counters rest) := by
    cases counters with
    | nil => exact absurd rfl some'
    | cons c counters =>
        rw [countersText_cons, Counter.text, List.append_assoc]
        exact c.isGap.ends_word _
  have read := word_read none name ended
  rw [List.nil_append] at read
  rw [statText, IStream.opened, read]

/-- Two lines of counters, of which the second is later: counter `i` has advanced by `w i`, and
may have wrapped. All together have advanced by less than `2 ^ 64`. -/
structure Advanced (first second : List Counter) (w : Nat → Nat) : Prop where
  counter : ∀ i < 7, counterAt second i = (counterAt first i + w i) % 2 ^ 64
  fits : w 0 + w 1 + w 2 + w 3 + w 4 + w 5 + w 6 < 2 ^ 64

/-- A number has advanced by `k` since it was `m`, but for a multiple of `2 ^ 64`. -/
def Gains (m n k : Nat) : Prop := n % 2 ^ 64 = (m + k) % 2 ^ 64

theorem Gains.add {m n k m' n' k' : Nat} (gains : Gains m n k) (gains' : Gains m' n' k') :
    Gains (m + m') (n + n') (k + k') := by
  unfold Gains at *
  have order : m + m' + (k + k') = m + k + (m' + k') := by omega
  rw [Nat.add_mod, gains, gains', ← Nat.add_mod, order]

theorem Gains.difference {m n k : Nat} (gains : Gains m n k) (fits : k < 2 ^ 64) :
    subU64 (n % 2 ^ 64) (m % 2 ^ 64) = k := by
  unfold Gains at gains
  unfold subU64
  omega

theorem Advanced.gains {first second : List Counter} {w : Nat → Nat}
    (advanced : Advanced first second w) {i : Nat} (place : i < 7) :
    Gains (counterAt first i) (counterAt second i) (w i) := by
  unfold Gains
  rw [advanced.counter i place, Nat.mod_mod]

theorem counterAt_lt (counters : List Counter) (i : Nat) : counterAt counters i < 2 ^ 64 := by
  unfold counterAt
  rw [List.getD_eq_getElem?_getD, List.getElem?_map]
  cases counters[i]? with
  | none => exact Nat.two_pow_pos 64
  | some c => exact c.val_lt

theorem gap_singleton {b : UInt8} (blank : isSpace b = true) : Gap [b] where
  nonempty := List.cons_ne_nil b []
  blank := by
    intro c mem
    rw [List.mem_singleton.mp mem]
    exact blank

/-- A counter behind one space. -/
def Counter.spaced (n : Nat) (fits : n < 2 ^ 64) : Counter := ⟨[32], n, gap_singleton rfl, fits⟩

theorem word_kB : Word (bytes "kB") := word_of_all rfl (by decide)

/-- A line of `/proc/meminfo`. -/
def kilobytes (key : Bytes) (n : Nat) (isWord : Word key) (fits : n < 2 ^ 64) : Record where
  key := key
  val := n
  unit := bytes "kB"
  afterKey := [32]
  afterVal := [32]
  afterUnit := [newline]
  word_key := isWord
  val_lt := fits
  word_unit := word_kB
  gap_key := gap_singleton rfl
  gap_val := gap_singleton rfl
  gap_unit := gap_singleton rfl

end OrbisAgent.Core.ProcFiles
