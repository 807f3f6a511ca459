/- OrbisAgent/Services/ShellPipe
   source: CommandExecutor::runShell (POSIX), CommandExecutor::runShell (Windows)
   digest: What a child prints reaches the result exactly if it has no zero byte and, on Windows,
   fits into the pipe. -/

import OrbisAgent.Lib.CText
import OrbisAgent.Lib.Transition

set_option autoImplicit false
set_option relaxedAutoImplicit false

namespace OrbisAgent.Services.ShellPipe

open OrbisAgent.Lib.ByteString
open OrbisAgent.Lib.CText
open OrbisAgent.Lib.Transition

universe u v

structure ShellResult where
  exit_code : Int
  output : Bytes
  error : Bytes
  deriving DecidableEq

/-- A child process and its pipe: what it has yet to write, what is written and not yet read,
and whether it still runs. -/
structure Child where
  left : Bytes
  pipe : Bytes
  running : Bool
  deriving DecidableEq

/-- How much a pipe holds. -/
structure Capacity where
  bytes : Nat
  positive : 0 < bytes

/-- The child waits for room in the pipe. -/
def Child.blocked (cap : Capacity) (c : Child) : Prop :=
  c.running = true ∧ c.left ≠ [] ∧ cap.bytes ≤ c.pipe.length

instance (cap : Capacity) (c : Child) : Decidable (c.blocked cap) :=
  inferInstanceAs (Decidable (_ ∧ _ ∧ _))

inductive ChildAct
  | write (k : Nat)
  | exit
  deriving DecidableEq

/-- It writes as much as there is room for, and exits when it has written everything. -/
def Child.step (cap : Capacity) (c : Child) : ChildAct → Option Child
  | .write k =>
      if c.running = true ∧ 0 < k ∧ k ≤ c.left.length ∧ c.pipe.length + k ≤ cap.bytes then
        some { c with left := c.left.drop k, pipe := c.pipe ++ c.left.take k }
      else none
  | .exit => if c.running = true ∧ c.left = [] then some { c with running := false } else none

def Child.drain (c : Child) (k : Nat) : Child := { c with pipe := c.pipe.drop k }

/-- In `WaitForSingleObject`, in the loop around `ReadFile`, and returned. -/
inductive Phase
  | waiting
  | reading
  | returned
  deriving DecidableEq

structure Windows where
  child : Child
  phase : Phase
  res : ShellResult
  deriving DecidableEq

def Windows.start (s : Bytes) : Windows := ⟨⟨s, [], true⟩, .waiting, ⟨-1, [], []⟩⟩

inductive WindowsAct
  | child (a : ChildAct)
  | exited
  | timeout
  | readFile (k : Nat)
  | eof
  deriving DecidableEq

def timedOut : Bytes := bytes "Command timed out"

/-- The child is quick, so the time runs out only while it is blocked. -/
def Windows.step (cap : Capacity) (exit_code : UInt8) (w : Windows) : WindowsAct → Option Windows
  | .child a => (w.child.step cap a).map fun c => { w with child := c }
  | .exited =>
      if w.phase = .waiting ∧ w.child.running = false then
        some { w with phase := .reading, res := { w.res with exit_code := exit_code.toNat } }
      else none
  | .timeout =>
      if w.phase = .waiting ∧ w.child.blocked cap then
        -- TerminateProcess
        some { w with
          child := { w.child with running := false }
          phase := .reading
          res := { w.res with error := timedOut } }
      else none
  | .readFile k =>
      if w.phase = .reading ∧ 0 < k ∧ k ≤ 4095 ∧ k ≤ w.child.pipe.length then
        some { w with
          child := w.child.drain k
          res := { w.res with output := w.res.output ++ cString (w.child.pipe.take k) } }
      else none
  | .eof =>
      if w.phase = .reading ∧ w.child.pipe = [] ∧ w.child.running = false then
        some { w with phase := .returned }
      else none

def Windows.result (w : Windows) : Option ShellResult :=
  if w.phase = .returned then some w.res else none

/-- `got` is what the stream of `popen` has taken from the pipe, and `fut` the value of the
future. -/
structure Posix where
  child : Child
  got : Bytes
  fut : Option ShellResult
  res : Option ShellResult
  deriving DecidableEq

def Posix.start (s : Bytes) : Posix := ⟨⟨s, [], true⟩, [], none, none⟩

inductive PosixAct
  | child (a : ChildAct)
  | fill (k : Nat)
  | pclose
  | ready
  | timeout
  deriving DecidableEq

/-- The status of a process that has exited. -/
def waitStatus (exit_code : UInt8) : Nat := exit_code.toNat * 256

def wifexited (status : Nat) : Bool := status % 128 == 0

def wexitstatus (status : Nat) : Nat := status / 256 % 256

/-- What the loop around `fgets` appends to the output. -/
def fgetsOutput (stream : Bytes) : Bytes := (fgetsLines 4096 stream).flatMap cString

/-- The value of the future, when the stream has come to its end. -/
def Posix.value (p : Posix) (status : Nat) : ShellResult where
  exit_code := if wifexited status then (wexitstatus status : Int) else -1
  output := fgetsOutput p.got
  error := []

def timedOutAfter (timeout_sec : Int) : Bytes :=
  bytes "Command timed out after " ++ bytes (toString timeout_sec) ++ bytes "s"

/-- The time runs out only while the child is blocked and the reader has nothing to read. -/
def Posix.step (cap : Capacity) (timeout_sec : Int) (exit_code : UInt8) (p : Posix) :
    PosixAct → Option Posix
  | .child a => (p.child.step cap a).map fun c => { p with child := c }
  | .fill k =>
      if p.fut = none ∧ 0 < k ∧ k ≤ p.child.pipe.length then
        some { p with child := p.child.drain k, got := p.got ++ p.child.pipe.take k }
      else none
  | .pclose =>
      if p.fut = none ∧ p.child.pipe = [] ∧ p.child.running = false then
        some { p with fut := some (p.value (waitStatus exit_code)) }
      else none
  | .ready =>
      match p.fut, p.res with
      | some r, none => some { p with res := some r }
      | _, _ => none
  | .timeout =>
      if p.res = none ∧ p.fut = none ∧ p.child.blocked cap ∧ p.child.pipe = [] then
        some { p with res := some ⟨-1, [], timedOutAfter timeout_sec⟩ }
      else none

/-- Every run ends, and it ends with this result. -/
def Delivers {σ : Type u} {α : Type v} (step : σ → α → Option σ) (start : σ)
    (result : σ → Option ShellResult) (expected : ShellResult) : Prop :=
  (∃ n, ∀ as t, exec step start as = some t → as.length ≤ n) ∧
    ∀ t, Reaches step anyStep start t → (∀ a, step t a = none) → result t = some expected

/-- Everything printed, the exit code, and no error. -/
def faithful (s : Bytes) (exit_code : UInt8) : ShellResult := ⟨exit_code.toNat, s, []⟩

/-- What a child and its reader have yet to do. -/
def Child.cost (c : Child) : Nat := 2 * c.left.length + c.pipe.length + c.running.toNat

variable {cap : Capacity} {n : Int} {e : UInt8} {s : Bytes}

/-- What a step of the child does. -/
inductive ChildMoves (cap : Capacity) (c : Child) : ChildAct → Child → Prop
  | write (k : Nat) (running : c.running = true) (pos : 0 < k) (fits : k ≤ c.left.length)
      (room : c.pipe.length + k ≤ cap.bytes) :
      ChildMoves cap c (.write k) { c with left := c.left.drop k, pipe := c.pipe ++ c.left.take k }
  | exit (running : c.running = true) (finished : c.left = []) :
      ChildMoves cap c .exit { c with running := false }

theorem childMoves_of_step {c c' : Child} {a : ChildAct} (move : c.step cap a = some c') :
    ChildMoves cap c a c' := by
  cases a with
  | write k =>
      simp only [Child.step] at move
      split at move
      · rename_i here
        obtain rfl := Option.some.inj move
        exact .write k here.1 here.2.1 here.2.2.1 here.2.2.2
      · cases move
  | exit =>
      simp only [Child.step] at move
      split at move
      · rename_i here
        obtain rfl := Option.some.inj move
        exact .exit here.1 here.2
      · cases move

/-- A step of the child costs something, and keeps what is printed in all. -/
theorem child_step {c c' : Child} {a : ChildAct} (moves : ChildMoves cap c a c') :
    c'.cost < c.cost ∧ c'.pipe ++ c'.left = c.pipe ++ c.left ∧ c.running = true ∧
      (c.pipe.length ≤ cap.bytes → c'.pipe.length ≤ cap.bytes) ∧
      (c'.running = true ∨ c'.left = []) := by
  cases moves with
  | write k running pos fits room =>
      refine ⟨?_, ?_, running, fun _ => ?_, .inl running⟩
      · simp only [Child.cost, List.length_drop, List.length_append, List.length_take]
        omega
      · rw [List.append_assoc, List.take_append_drop]
      · rw [List.length_append, List.length_take]
        omega
  | exit running finished =>
      exact ⟨by simp [Child.cost, running], rfl, running, id, .inr finished⟩

theorem drain_cost {c : Child} {k : Nat} (pos : 0 < k) (fits : k ≤ c.pipe.length) :
    (c.drain k).cost < c.cost := by
  simp only [Child.drain, Child.cost, List.length_drop]
  omega

/-- What a step on Windows does. -/
inductive WindowsMoves (cap : Capacity) (e : UInt8) (w : Windows) : WindowsAct → Windows → Prop
  | child (a : ChildAct) (c : Child) (moves : ChildMoves cap w.child a c) :
      WindowsMoves cap e w (.child a) { w with child := c }
  | exited (here : w.phase = .waiting) (gone : w.child.running = false) :
      WindowsMoves cap e w .exited
        { w with phase := .reading, res := { w.res with exit_code := e.toNat } }
  | timeout (here : w.phase = .waiting) (blocked : w.child.blocked cap) :
      WindowsMoves cap e w .timeout
        { w with
          child := { w.child with running := false }
          phase := .reading
          res := { w.res with error := timedOut } }
  | readFile (k : Nat) (here : w.phase = .reading) (pos : 0 < k) (fits : k ≤ w.child.pipe.length) :
      WindowsMoves cap e w (.readFile k)
        { w with
          child := w.child.drain k
          res := { w.res with output := w.res.output ++ cString (w.child.pipe.take k) } }
  | eof (here : w.phase = .reading) (empty : w.child.pipe = []) (gone : w.child.running = false) :
      WindowsMoves cap e w .eof { w with phase := .returned }

theorem windowsMoves_of_step {w w' : Windows} {a : WindowsAct} (move : w.step cap e a = some w') :
    WindowsMoves cap e w a w' := by
  cases a with
  | child a =>
      obtain ⟨c, taken, rfl⟩ := Option.map_eq_some_iff.mp move
      exact .child a c (childMoves_of_step taken)
  | exited =>
      simp only [Windows.step] at move
      split at move <;> cases move
      rename_i here
      exact .exited here.1 here.2
  | timeout =>
      simp only [Windows.step] at move
      split at move <;> cases move
      rename_i here
      exact .timeout here.1 here.2
  | readFile k =>
      simp only [Windows.step] at move
      split at move <;> cases move
      rename_i here
      exact .readFile k here.1 here.2.1 here.2.2.2
  | eof =>
      simp only [Windows.step] at move
      split at move <;> cases move
      rename_i here
      exact .eof here.1 here.2.1 here.2.2

def Phase.cost : Phase → Nat
  | .waiting => 2
  | .reading => 1
  | .returned => 0

def Windows.cost (w : Windows) : Nat := w.child.cost + w.phase.cost

theorem windows_falls (w : Windows) (a : WindowsAct) (w' : Windows)
    (move : w.step cap e a = some w') : w'.cost < w.cost := by
  cases windowsMoves_of_step move with
  | child a c moves =>
      have cheaper := (child_step moves).1
      simp only [Windows.cost]
      omega
  | exited here gone => simp [Windows.cost, here, Phase.cost]
  | timeout here blocked => simp [Windows.cost, here, Phase.cost, Child.cost, blocked.1]
  | readFile k here pos fits =>
      have cheaper := drain_cost pos fits
      simp only [Windows.cost]
      omega
  | eof here empty gone => simp [Windows.cost, here, Phase.cost]

/-- Nothing is read before the wait has ended, and it ends with the exit code if the whole
output has gone into the pipe. -/
structure WindowsInv (cap : Capacity) (e : UInt8) (s : Bytes) (w : Windows) : Prop where
  width : w.child.pipe.length ≤ cap.bytes
  exited : w.child.running = true ∨ w.child.left = [] ∨ w.res.error = timedOut
  waits : w.phase = .waiting →
    w.res = ⟨-1, [], []⟩ ∧ w.child.pipe ++ w.child.left = s
  later : w.phase ≠ .waiting → w.child.running = false ∧
    (w.child.left = [] ∧ w.res.error = [] ∧ w.res.exit_code = e.toNat ∧ s.length ≤ cap.bytes ∨
      w.res.error = timedOut ∧ cap.bytes < s.length)
  drained : w.phase = .returned → w.child.pipe = []
  solid : 0 ∉ w.res.output
  whole : 0 ∉ s → w.res.output ++ (w.child.pipe ++ w.child.left) = s

theorem windowsInv_start : WindowsInv cap e s (.start s) where
  width := Nat.zero_le _
  exited := .inl rfl
  waits _ := ⟨rfl, rfl⟩
  later := fun other => absurd rfl other
  drained := nofun
  solid := List.not_mem_nil
  whole _ := rfl

theorem windowsInv_step {w w' : Windows} {a : WindowsAct} (inv : WindowsInv cap e s w)
    (moves : WindowsMoves cap e w a w') : WindowsInv cap e s w' := by
  cases moves with
  | child a c moves =>
      obtain ⟨_, kept, running, width, exited⟩ := child_step moves
      have early : w.phase = .waiting := by
        cases here : w.phase with
        | waiting => rfl
        | reading | returned =>
            rw [(inv.later (by rw [here]; nofun)).1] at running
            cases running
      refine ⟨width inv.width, ?_, fun here => ?_, fun other => absurd early other, fun late => ?_,
        inv.solid, fun solid => ?_⟩
      · rcases exited with goesOn | finished
        · exact .inl goesOn
        · exact .inr (.inl finished)
      · rw [kept]
        exact inv.waits here
      · rw [early] at late
        cases late
      · rw [kept]
        exact inv.whole solid
  | exited here gone =>
      obtain ⟨fresh, kept⟩ := inv.waits here
      have left : w.child.left = [] := by
        rcases inv.exited with running | finished | late
        · rw [gone] at running
          cases running
        · exact finished
        · rw [fresh] at late
          cases late
      have width := inv.width
      rw [left, List.append_nil] at kept
      rw [kept] at width
      refine ⟨inv.width, inv.exited, nofun, fun _ => ⟨gone, .inl ⟨left, ?_, rfl, width⟩⟩,
        nofun, inv.solid, inv.whole⟩
      rw [fresh]
  | timeout here blocked =>
      obtain ⟨fresh, kept⟩ := inv.waits here
      have more : 0 < w.child.left.length := List.length_pos_iff.mpr blocked.2.1
      have full := blocked.2.2
      have long : cap.bytes < s.length := by
        rw [← kept, List.length_append]
        omega
      exact ⟨inv.width, .inr (.inr rfl), nofun, fun _ => ⟨rfl, .inr ⟨rfl, long⟩⟩, nofun,
        inv.solid, inv.whole⟩
  | readFile k here pos fits =>
      have width := inv.width
      refine ⟨?_, inv.exited, fun waits => ?_, fun other => inv.later other, fun late => ?_, ?_,
        fun solid => ?_⟩
      · simp only [Child.drain, List.length_drop]
        omega
      · rw [here] at waits
        cases waits
      · rw [here] at late
        cases late
      · rw [List.mem_append, not_or]
        exact ⟨inv.solid, zero_notMem_cString _⟩
      · have before := inv.whole solid
        have clean : 0 ∉ w.child.pipe.take k := by
          intro mem
          apply solid
          rw [← before, List.mem_append, List.mem_append]
          exact .inr (.inl (List.mem_of_mem_take mem))
        simp only [Child.drain]
        rw [cString_of_notMem clean, List.append_assoc, ← List.append_assoc (w.child.pipe.take k),
          List.take_append_drop]
        exact before
  | eof here empty gone =>
      refine ⟨inv.width, inv.exited, nofun, fun _ => inv.later ?_, fun _ => empty, inv.solid,
        inv.whole⟩
      rw [here]
      nofun

/-- A run on Windows stops only where it has returned. -/
theorem windows_returned {w : Windows} (inv : WindowsInv cap e s w)
    (stuck : ∀ a, w.step cap e a = none) : w.phase = .returned := by
  cases here : w.phase with
  | returned => rfl
  | waiting =>
      cases running : w.child.running with
      | false =>
          have move := stuck .exited
          simp [Windows.step, here, running] at move
      | true =>
          by_cases finished : w.child.left = []
          · have move := stuck (.child .exit)
            simp [Windows.step, Child.step, running, finished] at move
          · have fits := List.length_pos_iff.mpr finished
            by_cases full : cap.bytes ≤ w.child.pipe.length
            · have move := stuck .timeout
              simp [Windows.step, Child.blocked, here, running, finished, full] at move
            · have room : w.child.pipe.length + 1 ≤ cap.bytes := by omega
              have move := stuck (.child (.write 1))
              simp only [Windows.step, Child.step, running, true_and, room, and_true] at move
              rw [if_pos (by omega)] at move
              cases move
  | reading =>
      have gone := (inv.later (by rw [here]; nofun)).1
      by_cases empty : w.child.pipe = []
      · have move := stuck .eof
        simp [Windows.step, here, empty, gone] at move
      · have fits := List.length_pos_iff.mpr empty
        have move := stuck (.readFile 1)
        simp only [Windows.step, here, true_and] at move
        rw [if_pos (by omega)] at move
        cases move

theorem windowsInv_run {w : Windows} (run : Reaches (Windows.step cap e) anyStep (.start s) w) :
    WindowsInv cap e s w :=
  run.invariant windowsInv_start fun _ _ _ inv _ move => windowsInv_step inv
    (windowsMoves_of_step move)

theorem timedOut_ne_nil : timedOut ≠ [] := by decide

/-- On Windows the output must fit into the pipe, since nobody reads while the child runs. -/
theorem windows_delivers_iff (cap : Capacity) (e : UInt8) (s : Bytes) :
    Delivers (Windows.step cap e) (.start s) Windows.result (faithful s e) ↔
      0 ∉ s ∧ s.length ≤ cap.bytes := by
  constructor
  · rintro ⟨_, ends⟩
    have falls : ∀ w a w', Windows.step cap e w a = some w' → w'.cost < w.cost := windows_falls
    obtain ⟨w, run, stuck⟩ := reaches_end falls (.start s)
    have inv := windowsInv_run run
    have here := windows_returned inv stuck
    have shown := ends w run stuck
    rw [Windows.result, if_pos here] at shown
    have same := Option.some.inj shown
    have solid := inv.solid
    rw [same] at solid
    refine ⟨solid, ?_⟩
    rcases (inv.later (by rw [here]; nofun)).2 with fits | late
    · exact fits.2.2.2
    · rw [same] at late
      exact absurd late.1.symm timedOut_ne_nil
  · rintro ⟨solid, fits⟩
    refine ⟨⟨_, fun as t run => Nat.le_of_add_right_le (exec_length_le windows_falls run)⟩, ?_⟩
    intro w run stuck
    have inv := windowsInv_run run
    have here := windows_returned inv stuck
    have output := inv.whole solid
    rcases (inv.later (by rw [here]; nofun)).2 with ⟨left, error, code, _⟩ | late
    · rw [left, inv.drained here, List.append_nil, List.append_nil] at output
      rw [Windows.result, if_pos here, faithful, ← output, ← error, ← code]
    · omega

/-- What a step on POSIX does. -/
inductive PosixMoves (cap : Capacity) (e : UInt8) (p : Posix) : PosixAct → Posix → Prop
  | child (a : ChildAct) (c : Child) (moves : ChildMoves cap p.child a c) :
      PosixMoves cap e p (.child a) { p with child := c }
  | fill (k : Nat) (here : p.fut = none) (pos : 0 < k) (fits : k ≤ p.child.pipe.length) :
      PosixMoves cap e p (.fill k)
        { p with child := p.child.drain k, got := p.got ++ p.child.pipe.take k }
  | pclose (here : p.fut = none) (empty : p.child.pipe = []) (gone : p.child.running = false) :
      PosixMoves cap e p .pclose { p with fut := some (p.value (waitStatus e)) }
  | ready (r : ShellResult) (here : p.fut = some r) (waits : p.res = none) :
      PosixMoves cap e p .ready { p with res := some r }

/-- An empty pipe has room, so a child that is drained is never blocked. -/
theorem not_blocked {c : Child} (empty : c.pipe = []) : ¬ c.blocked cap := by
  rintro ⟨_, _, full⟩
  rw [empty, List.length_nil] at full
  have positive := cap.positive
  omega

theorem posixMoves_of_step {p p' : Posix} {a : PosixAct} (move : p.step cap n e a = some p') :
    PosixMoves cap e p a p' := by
  cases a with
  | child a =>
      obtain ⟨c, taken, rfl⟩ := Option.map_eq_some_iff.mp move
      exact .child a c (childMoves_of_step taken)
  | fill k =>
      simp only [Posix.step] at move
      split at move <;> cases move
      rename_i here
      exact .fill k here.1 here.2.1 here.2.2
  | pclose =>
      simp only [Posix.step] at move
      split at move <;> cases move
      rename_i here
      exact .pclose here.1 here.2.1 here.2.2
  | ready =>
      simp only [Posix.step] at move
      split at move <;> cases move
      rename_i value waits
      exact .ready _ value waits
  | timeout =>
      simp only [Posix.step] at move
      split at move <;> cases move
      rename_i here
      exact absurd here.2.2.1 (not_blocked here.2.2.2)

def Posix.cost (p : Posix) : Nat := p.child.cost + p.fut.isNone.toNat + p.res.isNone.toNat

theorem posix_falls (p : Posix) (a : PosixAct) (p' : Posix) (move : p.step cap n e a = some p') :
    p'.cost < p.cost := by
  cases posixMoves_of_step move with
  | child a c moves =>
      have cheaper := (child_step moves).1
      simp only [Posix.cost]
      omega
  | fill k here pos fits =>
      have cheaper := drain_cost pos fits
      simp only [Posix.cost]
      omega
  | pclose here empty gone => simp [Posix.cost, here]
  | ready r here waits => simp [Posix.cost, waits]

/-- What was read, what is in the pipe and what is yet to come is what the child prints, and a
result is that of the whole output. -/
structure PosixInv (e : UInt8) (s : Bytes) (p : Posix) : Prop where
  whole : p.got ++ (p.child.pipe ++ p.child.left) = s
  exited : p.child.running = true ∨ p.child.left = []
  value : ∀ r, p.fut = some r → p.child.running = false ∧ r = ⟨e.toNat, fgetsOutput s, []⟩
  result : ∀ r, p.res = some r → p.fut = some r

theorem posixInv_start : PosixInv e s (.start s) where
  whole := rfl
  exited := .inl rfl
  value := nofun
  result := nofun

theorem status_exited (e : UInt8) :
    wifexited (waitStatus e) = true ∧ wexitstatus (waitStatus e) = e.toNat := by
  have byte := e.toNat_lt
  unfold wifexited wexitstatus waitStatus
  rw [beq_iff_eq]
  omega

theorem posixInv_step {p p' : Posix} {a : PosixAct} (inv : PosixInv e s p)
    (moves : PosixMoves cap e p a p') : PosixInv e s p' := by
  cases moves with
  | child a c moves =>
      obtain ⟨_, kept, running, _, exited⟩ := child_step moves
      refine ⟨?_, exited, fun r value => ?_, inv.result⟩
      · rw [kept]
        exact inv.whole
      · rw [(inv.value r value).1] at running
        cases running
  | fill k here pos fits =>
      refine ⟨?_, inv.exited, fun r value => ?_, inv.result⟩
      · simp only [Child.drain]
        rw [List.append_assoc, ← List.append_assoc (p.child.pipe.take k), List.take_append_drop]
        exact inv.whole
      · rw [here] at value
        cases value
  | pclose here empty gone =>
      have left : p.child.left = [] := by
        rcases inv.exited with running | finished
        · rw [gone] at running
          cases running
        · exact finished
      have all := inv.whole
      rw [empty, left, List.append_nil, List.append_nil] at all
      obtain ⟨exited, status⟩ := status_exited e
      refine ⟨inv.whole, inv.exited, fun r value => ?_, fun r result => ?_⟩
      · obtain rfl := Option.some.inj value
        refine ⟨gone, ?_⟩
        rw [Posix.value, if_pos exited, status, all]
      · have early := inv.result r result
        rw [here] at early
        cases early
  | ready r here waits =>
      refine ⟨inv.whole, inv.exited, inv.value, fun r' result => ?_⟩
      obtain rfl := Option.some.inj result
      exact here

theorem posixInv_run {p : Posix} (run : Reaches (Posix.step cap n e) anyStep (.start s) p) :
    PosixInv e s p :=
  run.invariant posixInv_start fun _ _ _ inv _ move => posixInv_step inv (posixMoves_of_step move)

/-- A run on POSIX stops only where it has returned. -/
theorem posix_returned {p : Posix} (inv : PosixInv e s p) (stuck : ∀ a, p.step cap n e a = none) :
    p.res = some ⟨e.toNat, fgetsOutput s, []⟩ := by
  cases value : p.fut with
  | some r =>
      obtain ⟨_, rfl⟩ := inv.value r value
      cases result : p.res with
      | some r' =>
          have same := inv.result r' result
          rw [value] at same
          rw [← Option.some.inj same]
      | none =>
          have move := stuck .ready
          simp [Posix.step, value, result] at move
  | none =>
      by_cases empty : p.child.pipe = []
      · cases running : p.child.running with
        | false =>
            have move := stuck .pclose
            simp [Posix.step, value, empty, running] at move
        | true =>
            by_cases finished : p.child.left = []
            · have move := stuck (.child .exit)
              simp [Posix.step, Child.step, running, finished] at move
            · have more := List.length_pos_iff.mpr finished
              have room := cap.positive
              have move := stuck (.child (.write 1))
              simp only [Posix.step, Child.step, running, empty, List.length_nil, true_and] at move
              rw [if_pos (by omega)] at move
              cases move
      · have more := List.length_pos_iff.mpr empty
        have move := stuck (.fill 1)
        simp only [Posix.step, value, true_and] at move
        rw [if_pos (by omega)] at move
        cases move

/-- The buffers of `fgets` are joined as C strings. -/
theorem fgetsOutput_eq_iff (s : Bytes) : fgetsOutput s = s ↔ 0 ∉ s := by
  unfold fgetsOutput
  constructor
  · intro same mem
    rw [← same, List.mem_flatMap] at mem
    obtain ⟨buf, _, zero⟩ := mem
    exact zero_notMem_cString buf zero
  · intro solid
    have whole : (fgetsLines 4096 s).flatten = s := flatten_fgetsFrom 4096 (4096 - 1) [] s
    have each : ∀ buf ∈ fgetsLines 4096 s, cString buf = buf := by
      intro buf mem
      refine cString_of_notMem fun zero => solid ?_
      rw [← whole]
      exact List.mem_flatten_of_mem mem zero
    rw [List.flatMap_def, List.map_congr_left each, List.map_id', whole]

theorem posix_delivers_iff (cap : Capacity) (n : Int) (e : UInt8) (s : Bytes) :
    Delivers (Posix.step cap n e) (.start s) Posix.res (faithful s e) ↔ 0 ∉ s := by
  rw [← fgetsOutput_eq_iff]
  constructor
  · rintro ⟨_, ends⟩
    have falls : ∀ p a p', Posix.step cap n e p a = some p' → p'.cost < p.cost := posix_falls
    obtain ⟨p, run, stuck⟩ := reaches_end falls (.start s)
    have shown := ends p run stuck
    rw [posix_returned (posixInv_run run) stuck] at shown
    exact congrArg ShellResult.output (Option.some.inj shown)
  · intro same
    refine ⟨⟨_, fun as t run => Nat.le_of_add_right_le (exec_length_le posix_falls run)⟩, ?_⟩
    intro p run stuck
    rw [posix_returned (posixInv_run run) stuck, same]
    rfl

/-- Both implementations return everything that a child prints, with its exit code and no error,
exactly if the output has no zero byte and fits into the pipe. On POSIX its size does not
matter. -/
theorem shells_deliver_iff (cap : Capacity) (timeout_sec : Int) (e : UInt8) (s : Bytes) :
    (Delivers (Posix.step cap timeout_sec e) (.start s) Posix.res (faithful s e) ∧
        Delivers (Windows.step cap e) (.start s) Windows.result (faithful s e) ↔
      0 ∉ s ∧ s.length ≤ cap.bytes) ∧
    (Delivers (Posix.step cap timeout_sec e) (.start s) Posix.res (faithful s e) ↔ 0 ∉ s) := by
  have posix := posix_delivers_iff cap timeout_sec e s
  refine ⟨?_, posix⟩
  rw [posix, windows_delivers_iff]
  exact ⟨And.right, fun both => ⟨both.1, both⟩⟩

def page : Capacity := ⟨4096, by decide⟩

/-- A zero byte ends the output of both, and 5000 bytes through a pipe of a page end in a timeout
on Windows. -/
theorem output_is_lost :
    ¬ Delivers (Posix.step page 60 0) (.start [97, 0, 98]) Posix.res (faithful [97, 0, 98] 0) ∧
      ¬ Delivers (Windows.step page 0) (.start [97, 0, 98]) Windows.result
        (faithful [97, 0, 98] 0) ∧
      ¬ Delivers (Windows.step page 0) (.start (List.replicate 5000 97)) Windows.result
        (faithful (List.replicate 5000 97) 0) := by
  have size : page.bytes = 4096 := rfl
  refine ⟨?_, ?_, ?_⟩
  · rw [posix_delivers_iff]
    decide
  · rw [windows_delivers_iff]
    decide
  · rw [windows_delivers_iff, List.length_replicate, size]
    omega

end OrbisAgent.Services.ShellPipe
