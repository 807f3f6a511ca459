/- OrbisAgent/Services/RunLoop
   source: LogCollector::run, stop, triggerNow; NetworkScanner::run, stop, triggerNow
   digest: The loop around a collection or a scan, with the flags other threads set while it runs,
   and how soon it serves a request. -/

import OrbisAgent.Lib.Transition

set_option autoImplicit false
set_option relaxedAutoImplicit false

namespace OrbisAgent.Services.RunLoop

open OrbisAgent.Lib.Transition

/-- Where `run` is. Each test of the wait is a place of its own, since a flag may be set
between two of them. -/
inductive Pc
  | head
  | starting
  | working
  | testInterval (i : Nat)
  | testStop (i : Nat)
  | testTrigger (i : Nat)
  | dozing (i : Nat)
  | sleeping (i : Nat)
  | resetting
  | finished
  deriving DecidableEq

structure Loop where
  pc : Pc
  stop_requested : Bool
  trigger_now : Bool
  deriving DecidableEq

/-- `start()` lowers `stop_requested_` and leaves `trigger_now_` as it is. -/
def Loop.start (trigger_now : Bool) : Loop := ⟨.head, false, trigger_now⟩

/-- The first three belong to other threads; `stop()` makes two of them. -/
inductive Act
  | triggerNow
  | requestStop
  | wakeForStop
  | testLoop
  | startWork
  | endWork (threw : Bool)
  | testInterval
  | testStop
  | testTrigger
  | tick
  | endTick
  | reset
  deriving DecidableEq

def ofLoop : Act → Bool
  | .triggerNow | .requestStop | .wakeForStop => false
  | _ => true

/-- The loop around `work` with this number of seconds between two of them. -/
def step (interval : Int) (s : Loop) : Act → Option Loop
  | .triggerNow => some { s with trigger_now := true }
  | .requestStop => some { s with stop_requested := true }
  | .wakeForStop => some { s with trigger_now := true }
  | .testLoop =>
      match s.pc with
      | .head => some { s with pc := if s.stop_requested then .finished else .starting }
      | _ => none
  | .startWork =>
      match s.pc with
      | .starting => some { s with pc := .working }
      | _ => none
  | .endWork _ =>
      -- an exception is logged, and the wait follows all the same
      match s.pc with
      | .working => some { s with pc := .testInterval 0 }
      | _ => none
  | .testInterval =>
      match s.pc with
      | .testInterval i => some { s with pc := if i < interval then .testStop i else .resetting }
      | _ => none
  | .testStop =>
      match s.pc with
      | .testStop i => some { s with pc := if s.stop_requested then .resetting else .testTrigger i }
      | _ => none
  | .testTrigger =>
      match s.pc with
      | .testTrigger i => some { s with pc := if s.trigger_now then .resetting else .dozing i }
      | _ => none
  | .tick =>
      match s.pc with
      | .dozing i => some { s with pc := .sleeping i }
      | _ => none
  | .endTick =>
      match s.pc with
      | .sleeping i => some { s with pc := .testInterval (i + 1) }
      | _ => none
  | .reset =>
      match s.pc with
      | .resetting => some { s with pc := .head, trigger_now := false }
      | _ => none

def logCollectorRun (interval_sec : Int) : Loop → Act → Option Loop := step interval_sec

def networkScannerRun (scan_interval_sec : Int) : Loop → Act → Option Loop := step scan_interval_sec

/-- Nobody calls `stop()`. -/
def Unstopped (_ : Loop) (a : Act) : Prop := a ≠ .requestStop ∧ a ≠ .wakeForStop

instance (s : Loop) (a : Act) : Decidable (Unstopped s a) :=
  inferInstanceAs (Decidable (_ ∧ _))

/-- Nobody has stopped the loop. -/
structure GoesOn (s : Loop) : Prop where
  going : s.stop_requested = false
  running : s.pc ≠ .finished

/-- A request is pending: its flag is up, or the loop is past the reset on its way to the next
work. -/
structure Due (s : Loop) : Prop extends GoesOn s where
  seen : s.trigger_now = true ∨ s.pc = .head ∨ s.pc = .starting

/-- The loop's own steps up to its next work, when a request is pending. -/
def ahead : Pc → Nat
  | .head => 2
  | .starting => 1
  | .working => 7
  | .testInterval _ => 6
  | .testStop _ => 5
  | .testTrigger _ => 4
  | .dozing _ => 8
  | .sleeping _ => 7
  | .resetting => 3
  | .finished => 0

/-- The ticks among them. -/
def ticksAhead : Pc → Nat
  | .dozing _ => 1
  | _ => 0

variable {interval : Int} {s t : Loop} {a : Act}

/-- Only the test of the loop's head ends it, and only after `stop()`. -/
theorem goesOn_step (before : GoesOn s) (unstopped : Unstopped s a)
    (move : step interval s a = some t) : GoesOn t := by
  obtain ⟨going, running⟩ := before
  cases a with
  | triggerNow =>
      obtain rfl := Option.some.inj move
      exact ⟨going, running⟩
  | requestStop => exact absurd rfl unstopped.1
  | wakeForStop => exact absurd rfl unstopped.2
  | testInterval | testTrigger =>
      cases here : s.pc <;> simp only [step, here, reduceCtorEq] at move
      obtain rfl := Option.some.inj move
      refine ⟨going, ?_⟩
      dsimp only
      split <;> simp
  | _ =>
      cases here : s.pc <;> simp only [step, here, reduceCtorEq] at move
      obtain rfl := Option.some.inj move
      exact ⟨going, by simp [going]⟩

theorem Due.pending (due : Due s) (past : s.pc ≠ .head ∧ s.pc ≠ .starting) :
    s.trigger_now = true := by
  rcases due.seen with flag | here | here
  · exact flag
  · exact absurd here past.1
  · exact absurd here past.2

/-- A step of the loop that leaves the flags alone keeps a pending request. -/
theorem Due.move (due : Due s) (past : s.pc ≠ .head ∧ s.pc ≠ .starting) {pc : Pc}
    (goes : pc ≠ .finished) : Due { s with pc := pc } :=
  ⟨⟨due.going, goes⟩, .inl (due.pending past)⟩

/-- A step other than the start of a work keeps the next one due, and brings it nearer if it is
the loop's own. -/
theorem due_step (due : Due s) (unstopped : Unstopped s a) (other : a ≠ .startWork)
    (move : step interval s a = some t) :
    Due t ∧ ahead t.pc + (if ofLoop a then 1 else 0) ≤ ahead s.pc ∧
      ticksAhead t.pc + (if a = .tick then 1 else 0) ≤ ticksAhead s.pc := by
  have goes := goesOn_step due.toGoesOn unstopped move
  cases a with
  | triggerNow =>
      obtain rfl := Option.some.inj move
      exact ⟨⟨goes, .inl rfl⟩, Nat.le_refl _, Nat.le_refl _⟩
  | requestStop => exact absurd rfl unstopped.1
  | wakeForStop => exact absurd rfl unstopped.2
  | startWork => exact absurd rfl other
  | testLoop =>
      cases here : s.pc <;> simp only [step, here, reduceCtorEq] at move
      simp only [due.going, Bool.false_eq_true, if_false] at move
      obtain rfl := Option.some.inj move
      exact ⟨⟨goes, .inr (.inr rfl)⟩, by simp [ahead, ofLoop], by simp [ticksAhead]⟩
  | endWork threw =>
      cases here : s.pc <;> simp only [step, here, reduceCtorEq] at move
      obtain rfl := Option.some.inj move
      exact ⟨due.move (by simp [here]) nofun, by simp [ahead, ofLoop], by simp [ticksAhead]⟩
  | testInterval =>
      cases here : s.pc <;> simp only [step, here, reduceCtorEq] at move
      rename_i i
      obtain rfl := Option.some.inj move
      have past : s.pc ≠ .head ∧ s.pc ≠ .starting := by simp [here]
      by_cases inside : (i : Int) < interval
      · rw [if_pos inside]
        exact ⟨due.move past nofun, by simp [ahead, ofLoop], by simp [ticksAhead]⟩
      · rw [if_neg inside]
        exact ⟨due.move past nofun, by simp [ahead, ofLoop], by simp [ticksAhead]⟩
  | testStop =>
      cases here : s.pc <;> simp only [step, here, reduceCtorEq] at move
      rw [if_neg (by simp [due.going])] at move
      obtain rfl := Option.some.inj move
      exact ⟨due.move (by simp [here]) nofun, by simp [ahead, ofLoop], by simp [ticksAhead]⟩
  | testTrigger =>
      cases here : s.pc <;> simp only [step, here, reduceCtorEq] at move
      -- a pending request ends the wait here
      have past : s.pc ≠ .head ∧ s.pc ≠ .starting := by simp [here]
      rw [if_pos (due.pending past)] at move
      obtain rfl := Option.some.inj move
      exact ⟨due.move past nofun, by simp [ahead, ofLoop], by simp [ticksAhead]⟩
  | tick =>
      cases here : s.pc <;> simp only [step, here, reduceCtorEq] at move
      obtain rfl := Option.some.inj move
      exact ⟨due.move (by simp [here]) nofun, by simp [ahead, ofLoop], by simp [ticksAhead]⟩
  | endTick =>
      cases here : s.pc <;> simp only [step, here, reduceCtorEq] at move
      obtain rfl := Option.some.inj move
      exact ⟨due.move (by simp [here]) nofun, by simp [ahead, ofLoop], by simp [ticksAhead]⟩
  | reset =>
      cases here : s.pc <;> simp only [step, here, reduceCtorEq] at move
      obtain rfl := Option.some.inj move
      -- the request is lowered here, but nothing is left before the next work
      exact ⟨⟨goes, .inr (.inl rfl)⟩, by simp [ahead, ofLoop], by simp [ticksAhead]⟩

/-- A run without the start of a work is no longer than the way to it. -/
theorem due_run {as : List Act} (due : Due s) (none : .startWork ∉ as)
    (run : exec (guarded (step interval) Unstopped) s as = some t) :
    Due t ∧ ahead t.pc + as.countP ofLoop ≤ ahead s.pc ∧
      ticksAhead t.pc + as.count .tick ≤ ticksAhead s.pc := by
  induction as generalizing s with
  | nil =>
      obtain rfl := Option.some.inj run
      exact ⟨due, Nat.le_refl _, Nat.le_refl _⟩
  | cons a as ih =>
      obtain ⟨r, move, rest⟩ := Option.bind_eq_some_iff.mp run
      obtain ⟨unstopped, taken⟩ := guarded_eq_some move
      rw [List.mem_cons, not_or] at none
      obtain ⟨later, own, ticks⟩ := due_step due unstopped (Ne.symm none.1) taken
      obtain ⟨last, more, moreTicks⟩ := ih later none.2 rest
      refine ⟨last, ?_, ?_⟩
      · rw [List.countP_cons]
        omega
      · rw [List.count_cons]
        simp only [beq_iff_eq]
        omega

theorem ahead_le (pc : Pc) : ahead pc ≤ 8 := by
  cases pc <;> simp [ahead]

theorem one_le_ahead {pc : Pc} (running : pc ≠ .finished) : 1 ≤ ahead pc := by
  cases pc <;> simp_all [ahead]

theorem ticksAhead_le (pc : Pc) : ticksAhead pc ≤ 1 := by
  cases pc <;> simp [ticksAhead]

/-- The loop is never blocked before it has finished. -/
theorem loop_enabled (going : s.pc ≠ .finished) :
    ∃ a t, ofLoop a = true ∧ step interval s a = some t := by
  cases here : s.pc with
  | head => exact ⟨.testLoop, _, rfl, by simp only [step, here]; rfl⟩
  | starting => exact ⟨.startWork, _, rfl, by simp only [step, here]; rfl⟩
  | working => exact ⟨.endWork false, _, rfl, by simp only [step, here]; rfl⟩
  | testInterval i => exact ⟨.testInterval, _, rfl, by simp only [step, here]; rfl⟩
  | testStop i => exact ⟨.testStop, _, rfl, by simp only [step, here]; rfl⟩
  | testTrigger i => exact ⟨.testTrigger, _, rfl, by simp only [step, here]; rfl⟩
  | dozing i => exact ⟨.tick, _, rfl, by simp only [step, here]; rfl⟩
  | sleeping i => exact ⟨.endTick, _, rfl, by simp only [step, here]; rfl⟩
  | resetting => exact ⟨.reset, _, rfl, by simp only [step, here]; rfl⟩
  | finished => exact absurd here going

/-- After each call of `triggerNow()` in an unstopped run, and as long as no work has started
since: at most one tick has begun, the loop has made seven steps at most, and it can go on. -/
def Prompt (run : Loop → Act → Option Loop) : Prop :=
  ∀ (trigger_now : Bool) (s t u : Loop) (as : List Act),
    Reaches run Unstopped (.start trigger_now) s → run s .triggerNow = some t →
    exec (guarded run Unstopped) t as = some u → .startWork ∉ as →
    as.count .tick ≤ 1 ∧ as.countP ofLoop ≤ 7 ∧ ∃ a v, ofLoop a = true ∧ run u a = some v

theorem step_prompt (interval : Int) : Prompt (step interval) := by
  intro trigger_now s t u as before call run none
  have start : GoesOn (.start trigger_now) := ⟨rfl, nofun⟩
  have here : GoesOn s := before.invariant start fun _ _ _ goes guard move =>
    goesOn_step goes guard move
  obtain rfl := Option.some.inj call
  have due : Due { s with trigger_now := true } := ⟨⟨here.going, here.running⟩, .inl rfl⟩
  obtain ⟨last, own, ticks⟩ := due_run due none run
  refine ⟨?_, ?_, loop_enabled last.running⟩
  · have most := ticksAhead_le s.pc
    dsimp only at ticks
    omega
  · have most := ahead_le s.pc
    have left := one_le_ahead last.running
    dsimp only at own
    omega

/-- A call of `triggerNow()` during a run loop is followed by a collection or a scan that
starts after it, with one tick at most in between. -/
theorem trigger_is_served (interval_sec scan_interval_sec : Int) :
    Prompt (logCollectorRun interval_sec) ∧ Prompt (networkScannerRun scan_interval_sec) :=
  ⟨step_prompt interval_sec, step_prompt scan_interval_sec⟩

/-- A request between the last test of the wait and the reset: the flag is lowered, and the next
work starts all the same. -/
example : (exec (logCollectorRun 0) (.start false)
    [.testLoop, .startWork, .endWork true, .testInterval, .triggerNow, .reset, .testLoop,
      .startWork]).map Loop.trigger_now = some false := rfl

end OrbisAgent.Services.RunLoop
