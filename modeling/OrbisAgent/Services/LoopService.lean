/- OrbisAgent/Services/LoopService
   source: LogCollector::start, stop, isRunning; NetworkScanner::start, stop, isRunning
   digest: The thread of a collector or a scanner, from its start to its join, and how much of its
   work stop() waits for. -/

import OrbisAgent.Lib.Supervision
import OrbisAgent.Services.RunLoop

set_option autoImplicit false
set_option relaxedAutoImplicit false

namespace OrbisAgent.Services.LoopService

open OrbisAgent.Lib.Supervision
open OrbisAgent.Lib.Transition
open OrbisAgent.Services.RunLoop (Loop ofLoop GoesOn Unstopped goesOn_step)

/-- Where the thread that calls `start()` and `stop()` is. -/
inductive Owner
  | idle
  | clearingStop
  | settingRunning
  | spawning
  | settingStop
  | waking
  | joining
  | clearingRunning
  deriving DecidableEq

/-- `joinable` is that of `thread_`; the loop is at its end while there is no thread. -/
structure Looped where
  loop : Loop
  joinable : Bool
  owner : Owner
  running : Bool
  terminated : Bool
  deriving DecidableEq

def Looped.new : Looped := ⟨⟨.finished, false, false⟩, false, .idle, false, false⟩

inductive Act
  | callStart
  | clearStop
  | setRunning
  | spawn
  | callStop
  | setStop
  | wakeUp
  | join
  | clearRunning
  | loop (a : RunLoop.Act)
  deriving DecidableEq

/-- With the given number of seconds between two works. -/
def move (interval : Int) (s : Looped) : Act → Option Looped
  | .callStart =>
      if s.owner = .idle then
        if s.running then some s else some { s with owner := .clearingStop }
      else none
  | .clearStop =>
      if s.owner = .clearingStop then
        some { s with loop := { s.loop with stop_requested := false }, owner := .settingRunning }
      else none
  | .setRunning =>
      if s.owner = .settingRunning then some { s with running := true, owner := .spawning }
      else none
  | .spawn =>
      if s.owner = .spawning then
        -- assigning to a joinable std::thread ends the process
        if s.joinable then some { s with terminated := true }
        else some { s with loop := { s.loop with pc := .head }, joinable := true, owner := .idle }
      else none
  | .callStop => if s.owner = .idle then some { s with owner := .settingStop } else none
  | .setStop =>
      if s.owner = .settingStop then
        (RunLoop.step interval s.loop .requestStop).map fun loop =>
          { s with loop := loop, owner := .waking }
      else none
  | .wakeUp =>
      if s.owner = .waking then
        (RunLoop.step interval s.loop .wakeForStop).map fun loop =>
          { s with loop := loop, owner := .joining }
      else none
  | .join =>
      if s.owner = .joining ∧ (s.joinable = false ∨ s.loop.pc = .finished) then
        some { s with joinable := false, owner := .clearingRunning }
      else none
  | .clearRunning =>
      if s.owner = .clearingRunning then some { s with running := false, owner := .idle }
      else none
  | .loop a =>
      if a = .requestStop ∨ a = .wakeForStop then none
      else (RunLoop.step interval s.loop a).map fun loop => { s with loop := loop }

def step (interval : Int) (s : Looped) (a : Act) : Option Looped :=
  if s.terminated then none else move interval s a

/-- The thread is in a call that need not come back: its work, or a log record at its start or its
end. -/
def Looped.inCall (s : Looped) : Bool :=
  match s.loop.pc with
  | .working | .head => true
  | _ => false

def logCollector (interval_sec : Int) : Looped → Act → Option Looped := step interval_sec

def networkScanner (scan_interval_sec : Int) : Looped → Act → Option Looped :=
  step scan_interval_sec

/-- The steps, one constructor for each outcome, with what each needs. -/
inductive Moves (interval : Int) (s : Looped) : Act → Looped → Prop
  | callStart (here : s.owner = .idle) (fresh : s.running = false) :
      Moves interval s .callStart { s with owner := .clearingStop }
  | startAgain (here : s.owner = .idle) (already : s.running = true) :
      Moves interval s .callStart s
  | clearStop (here : s.owner = .clearingStop) : Moves interval s .clearStop
      { s with loop := { s.loop with stop_requested := false }, owner := .settingRunning }
  | setRunning (here : s.owner = .settingRunning) :
      Moves interval s .setRunning { s with running := true, owner := .spawning }
  | spawn (here : s.owner = .spawning) (fresh : s.joinable = false) : Moves interval s .spawn
      { s with loop := { s.loop with pc := .head }, joinable := true, owner := .idle }
  | spawnTwice (here : s.owner = .spawning) (busy : s.joinable = true) :
      Moves interval s .spawn { s with terminated := true }
  | callStop (here : s.owner = .idle) :
      Moves interval s .callStop { s with owner := .settingStop }
  | setStop (here : s.owner = .settingStop) : Moves interval s .setStop
      { s with loop := { s.loop with stop_requested := true }, owner := .waking }
  | wakeUp (here : s.owner = .waking) : Moves interval s .wakeUp
      { s with loop := { s.loop with trigger_now := true }, owner := .joining }
  | join (here : s.owner = .joining) (ended : s.joinable = false ∨ s.loop.pc = .finished) :
      Moves interval s .join { s with joinable := false, owner := .clearingRunning }
  | clearRunning (here : s.owner = .clearingRunning) :
      Moves interval s .clearRunning { s with running := false, owner := .idle }
  | loop (a : RunLoop.Act) (l : Loop) (unstopped : Unstopped s.loop a)
      (next : RunLoop.step interval s.loop a = some l) :
      Moves interval s (.loop a) { s with loop := l }

private theorem moves_of_move {interval : Int} {s s' : Looped} {a : Act}
    (next : move interval s a = some s') : Moves interval s a s' := by
  cases a <;> simp only [move] at next
  case callStart =>
    split at next
    · split at next <;> cases next
      · exact .startAgain ‹_› ‹_›
      · exact .callStart ‹_› (Bool.eq_false_iff.mpr ‹_›)
    · cases next
  case clearStop =>
    split at next <;> cases next
    exact .clearStop ‹_›
  case setRunning =>
    split at next <;> cases next
    exact .setRunning ‹_›
  case spawn =>
    split at next
    · split at next <;> cases next
      · exact .spawnTwice ‹_› ‹_›
      · exact .spawn ‹_› (Bool.eq_false_iff.mpr ‹_›)
    · cases next
  case callStop =>
    split at next <;> cases next
    exact .callStop ‹_›
  case setStop =>
    split at next <;> cases next
    exact .setStop ‹_›
  case wakeUp =>
    split at next <;> cases next
    exact .wakeUp ‹_›
  case join =>
    split at next <;> cases next
    rename_i ready
    exact .join ready.1 ready.2
  case clearRunning =>
    split at next <;> cases next
    exact .clearRunning ‹_›
  case loop a =>
    split at next
    · cases next
    · rename_i owners
      obtain ⟨l, taken, rfl⟩ := Option.map_eq_some_iff.mp next
      exact .loop a l (not_or.mp owners) taken

theorem moves_of_step {interval : Int} {s s' : Looped} {a : Act}
    (next : step interval s a = some s') : s.terminated = false ∧ Moves interval s a s' := by
  unfold step at next
  split at next
  · cases next
  · exact ⟨Bool.eq_false_iff.mpr ‹_›, moves_of_move next⟩

def role : Act → Role
  | .callStart => .opens
  | .callStop => .closes
  | .loop a => if ofLoop a then .own else .other
  | _ => .inner

def phase (s : Looped) : Phase :=
  match s.owner with
  | .idle => .idle
  | .clearingStop | .settingRunning | .spawning => .starting
  | .settingStop | .waking | .joining | .clearingRunning => .stopping

/-- `joinable` is false in `start()` and behind the join of `stop()`. -/
def threadless : Owner → Bool
  | .clearingStop | .settingRunning | .spawning | .clearingRunning => true
  | _ => false

/-- `stop()` has raised its flag. -/
def flagged : Owner → Bool
  | .waking | .joining | .clearingRunning => true
  | _ => false

/-- The thread ends only when it is told to, and there is never a second one. -/
structure Sound (s : Looped) : Prop where
  alive : s.terminated = false
  watched : s.owner = .idle → s.running = s.joinable
  threadless : threadless s.owner = true → s.joinable = false
  starting : s.owner = .spawning → s.running = true
  cleared : s.owner = .settingRunning ∨ s.owner = .spawning → s.loop.stop_requested = false
  untold : s.owner = .idle → s.joinable = true → s.loop.stop_requested = false
  told : flagged s.owner = true → s.loop.stop_requested = true
  absent : s.joinable = false → s.loop.pc = .finished
  goes : s.joinable = true → s.loop.stop_requested = false → s.loop.pc ≠ .finished

theorem sound_new : Sound .new :=
  ⟨rfl, fun _ => rfl, fun _ => rfl, nofun, nofun, nofun, nofun, fun _ => rfl, nofun⟩

/-- Only the thread moves the place of the loop, and nobody but `stop()` raises the flag. -/
theorem loop_step_frame {interval : Int} {l l' : Loop} {a : RunLoop.Act} (unstopped : Unstopped l a)
    (next : RunLoop.step interval l a = some l') :
    l'.stop_requested = l.stop_requested ∧ (l.pc = .finished → l'.pc = .finished) ∧
      (l.pc = .finished → ofLoop a = false) := by
  cases a with
  | requestStop => exact absurd rfl unstopped.1
  | wakeForStop => exact absurd rfl unstopped.2
  | triggerNow =>
      obtain rfl := Option.some.inj next
      exact ⟨rfl, id, fun _ => rfl⟩
  | _ =>
      cases here : l.pc <;> simp only [RunLoop.step, here, reduceCtorEq] at next
      obtain rfl := Option.some.inj next
      refine ⟨rfl, ?_, ?_⟩ <;> intro ended <;> cases ended

variable {interval : Int} {s s' : Looped} {a : Act}

theorem sound_step (before : Sound s) (next : Moves interval s a s') : Sound s' := by
  have ⟨alive, watched, threadless, starting, cleared, untold, told, absent, goes⟩ := before
  cases next with
  | startAgain => exact before
  | callStart here fresh =>
      have none : s.joinable = false := (watched here).symm.trans fresh
      exact ⟨alive, nofun, fun _ => none, nofun, nofun, nofun, nofun, absent, goes⟩
  | clearStop here =>
      have none := threadless (by rw [here]; rfl)
      exact ⟨alive, nofun, fun _ => none, nofun, fun _ => rfl, nofun, nofun, absent,
        fun there => absurd there (by simp [none])⟩
  | setRunning here =>
      have none := threadless (by rw [here]; rfl)
      exact ⟨alive, nofun, fun _ => none, fun _ => rfl, fun _ => cleared (.inl here), nofun, nofun,
        absent, goes⟩
  | spawn here fresh =>
      exact ⟨alive, fun _ => starting here, nofun, nofun, nofun, fun _ _ => cleared (.inr here),
        nofun, nofun, fun _ _ => nofun⟩
  | spawnTwice here busy =>
      rw [threadless (by rw [here]; rfl)] at busy
      cases busy
  | callStop here => exact ⟨alive, nofun, nofun, nofun, nofun, nofun, nofun, absent, goes⟩
  | setStop here =>
      exact ⟨alive, nofun, nofun, nofun, nofun, nofun, fun _ => rfl, absent, fun _ => nofun⟩
  | wakeUp here =>
      exact ⟨alive, nofun, nofun, nofun, nofun, nofun, fun _ => told (by rw [here]; rfl), absent,
        goes⟩
  | join here ended =>
      have finished : s.loop.pc = .finished := ended.elim absent id
      exact ⟨alive, nofun, fun _ => rfl, nofun, nofun, nofun, fun _ => told (by rw [here]; rfl),
        fun _ => finished, nofun⟩
  | clearRunning here =>
      have none := threadless (by rw [here]; rfl)
      exact ⟨alive, fun _ => none.symm, nofun, nofun, nofun,
        fun _ there => absurd there (by simp [none]), nofun, absent, goes⟩
  | loop a l unstopped next =>
      obtain ⟨flag, stays, -⟩ := loop_step_frame unstopped next
      refine ⟨alive, watched, threadless, starting, ?_, ?_, ?_, fun none => stays (absent none), ?_⟩
      · exact fun inside => flag.trans (cleared inside)
      · exact fun idle there => flag.trans (untold idle there)
      · exact fun late => flag.trans (told late)
      · intro there unset
        have unset' := flag.symm.trans unset
        exact (goesOn_step ⟨unset', goes there unset'⟩ unstopped next).running

theorem phase_eq_idle : phase s = .idle ↔ s.owner = .idle := by
  cases here : s.owner <;> simp [phase, here]

/-- A joined thread makes no step, and one that runs between the calls has not ended. -/
theorem own_step_joinable (sound : Sound s) (absent : s.joinable = false) (own : role a = .own) :
    step interval s a = none := by
  cases next : step interval s a with
  | none => rfl
  | some t =>
      cases (moves_of_step next).2 with
      | loop a l unstopped taken =>
          have other := (loop_step_frame unstopped taken).2.2 (sound.absent absent)
          simp [role, other] at own
      | _ => cases own

private theorem service_sound {s s' : Looped} {a : Act} (before : Sound s)
    (next : step interval s a = some s') : Sound s' :=
  sound_step before (moves_of_step next).2

private theorem service_watched {s : Looped} (sound : Sound s) (idle : phase s = .idle) :
    s.running = !(!s.joinable) := by
  rw [Bool.not_not]
  exact sound.watched (phase_eq_idle.mp idle)

private theorem service_lively {s : Looped} (sound : Sound s) (idle : phase s = .idle)
    (present : (!s.joinable) = false) : decide (s.loop.pc = .finished) = false := by
  have there : s.joinable = true := by simpa using present
  have untold := sound.untold (phase_eq_idle.mp idle) there
  exact decide_eq_false (sound.goes there untold)

private theorem service_bystander {s s' : Looped} {a : Act}
    (free : role a = .own ∨ role a = .other) (next : step interval s a = some s') :
    phase s' = phase s ∧ (!s'.joinable) = !s.joinable := by
  cases (moves_of_step next).2 with
  | loop => exact ⟨rfl, rfl⟩
  | _ => simp [role] at free

private theorem service_opens {s s' : Looped} {a : Act} (opens : role a = .opens)
    (next : step interval s a = some s') :
    phase s = .idle ∧ (phase s' = .starting ∨ s' = s ∧ s.running = true) := by
  cases (moves_of_step next).2 with
  | callStart here => exact ⟨phase_eq_idle.mpr here, .inl rfl⟩
  | startAgain here already => exact ⟨phase_eq_idle.mpr here, .inr ⟨rfl, already⟩⟩
  | loop a =>
      rw [role] at opens
      split at opens <;> cases opens
  | _ => cases opens

private theorem service_closes {s s' : Looped} {a : Act} (closes : role a = .closes)
    (next : step interval s a = some s') : phase s = .idle ∧ phase s' = .stopping := by
  cases (moves_of_step next).2 with
  | callStop here => exact ⟨phase_eq_idle.mpr here, rfl⟩
  | loop a =>
      rw [role] at closes
      split at closes <;> cases closes
  | _ => cases closes

private theorem service_inner {s s' : Looped} {a : Act} (sound : Sound s) (inner : role a = .inner)
    (next : step interval s a = some s') :
    phase s ≠ .idle ∧ (phase s' = phase s ∨ phase s' = .idle ∧
      (phase s = .starting ∧ (!s'.joinable) = false ∨
        phase s = .stopping ∧ (!s'.joinable) = true)) := by
  cases (moves_of_step next).2 with
  | clearStop here | setRunning here | spawnTwice here | setStop here | wakeUp here | join here =>
      have at_owner : phase s ≠ .idle := by simp [phase, here]
      exact ⟨at_owner, .inl (by simp [phase, here])⟩
  | spawn here => exact ⟨by simp [phase, here], .inr ⟨rfl, .inl ⟨by simp [phase, here], rfl⟩⟩⟩
  | clearRunning here =>
      have none := sound.threadless (by rw [here]; rfl)
      exact ⟨by simp [phase, here], .inr ⟨rfl, .inr ⟨by simp [phase, here], by simp [none]⟩⟩⟩
  | loop a =>
      rw [role] at inner
      split at inner <;> cases inner
  | _ => cases inner

private theorem service_still {s : Looped} {a : Act} (sound : Sound s)
    (joined : (!s.joinable) = true) (own : role a = .own) : step interval s a = none :=
  own_step_joinable sound (by simpa using joined) own

/-- A collector or a scanner as a service. -/
def service (interval : Int) : Service Looped Act where
  step := step interval
  role := role
  phase := phase
  running s := s.running
  joined s := !s.joinable
  ended s := decide (s.loop.pc = .finished)
  Sound := Sound
  sound_step := service_sound
  watched := service_watched
  lively := service_lively
  bystander := service_bystander
  opens := service_opens
  closes := service_closes
  inner := service_inner
  still := service_still

/-- The loop's own steps up to its end, once the flag is up. -/
def ahead : RunLoop.Pc → Nat
  | .finished => 0
  | .head => 1
  | .resetting => 2
  | .testStop _ => 3
  | .testInterval _ => 4
  | .sleeping _ | .working => 5
  | .dozing _ | .starting => 6
  | .testTrigger _ => 7

theorem ahead_le (pc : RunLoop.Pc) : ahead pc ≤ 7 := by
  cases pc <;> simp [ahead]

/-- A loop that is told to stop comes nearer to its end with each of its steps. -/
theorem told_step {l l' : Loop} {b : RunLoop.Act} (told : l.stop_requested = true)
    (unstopped : Unstopped l b) (next : RunLoop.step interval l b = some l') :
    ahead l'.pc + (if ofLoop b then 1 else 0) ≤ ahead l.pc := by
  cases b with
  | requestStop => exact absurd rfl unstopped.1
  | wakeForStop => exact absurd rfl unstopped.2
  | triggerNow =>
      obtain rfl := Option.some.inj next
      exact Nat.le_refl _
  | testInterval | testTrigger =>
      cases here : l.pc <;> simp only [RunLoop.step, here, reduceCtorEq] at next
      obtain rfl := Option.some.inj next
      dsimp only
      split <;> simp [ahead, ofLoop]
  | testLoop | testStop =>
      cases here : l.pc <;> simp only [RunLoop.step, here, reduceCtorEq] at next
      rw [if_pos told] at next
      obtain rfl := Option.some.inj next
      simp [ahead, ofLoop]
  | _ =>
      cases here : l.pc <;> simp only [RunLoop.step, here, reduceCtorEq] at next
      obtain rfl := Option.some.inj next
      simp [ahead, ofLoop]

/-- `stop()` has raised its flag and has not joined the thread yet. -/
def awaited (s : Looped) : Bool := decide (s.owner = .waking) || decide (s.owner = .joining)

/-- The steps of `stop()` and of the thread it waits for. -/
def remaining (s : Looped) : Nat :=
  match s.owner with
  | .settingStop => 11
  | .waking => ahead s.loop.pc + 3
  | .joining => ahead s.loop.pc + 2
  | .clearingRunning => 1
  | _ => 0

theorem remaining_le (s : Looped) : remaining s ≤ 11 := by
  have most := ahead_le s.loop.pc
  cases here : s.owner <;> simp only [remaining, here] <;> omega

private theorem stopping_callable {s : Looped} (sound : Sound s) (idle : phase s = .idle) :
    ∃ a s', role a = .closes ∧ step interval s a = some s' := by
  have alive := sound.alive
  exact ⟨.callStop, _, rfl, by simp [step, move, alive, phase_eq_idle.mp idle]; rfl⟩

private theorem stopping_waits {s : Looped} (waits : awaited s = true) : phase s = .stopping := by
  have here : s.owner = .waking ∨ s.owner = .joining := by simpa [awaited] using waits
  rcases here with here | here <;> rw [phase, here]

private theorem stopping_idle {s : Looped} (idle : phase s = .idle) : remaining s = 0 := by
  simp only [remaining, phase_eq_idle.mp idle]

private theorem stopping_counted {s s' : Looped} {a : Act} (sound : Sound s)
    (stopping : phase s = .stopping) (next : step interval s a = some s') :
    remaining s' + (if role a = .inner ∨ role a = .own ∧ awaited s = true then 1 else 0) ≤
      remaining s := by
  cases (moves_of_step next).2 with
  | callStart here | startAgain here | clearStop here | setRunning here | spawn here
  | spawnTwice here | callStop here =>
      rw [phase, here] at stopping
      cases stopping
  | setStop here | wakeUp here | join here =>
      have most := ahead_le s.loop.pc
      simp only [remaining, role, here, true_or, if_true]
      omega
  | clearRunning here => simp [remaining, role, here]
  | loop a l unstopped taken =>
      by_cases waits : awaited s = true
      · have told : s.loop.stop_requested = true := by
          refine sound.told ?_
          rw [awaited] at waits
          rcases Bool.or_eq_true_iff.mp waits with here | here
          · rw [of_decide_eq_true here]
            rfl
          · rw [of_decide_eq_true here]
            rfl
        have nearer := told_step told unstopped taken
        have kind : (role (.loop a) = .inner ∨ role (.loop a) = .own ∧ awaited s = true) ↔
            ofLoop a = true := by
          cases own : ofLoop a <;> simp [role, own, waits]
        simp only [kind]
        have here : s.owner = .waking ∨ s.owner = .joining := by simpa [awaited] using waits
        rcases here with here | here <;> simp only [remaining, here] <;> omega
      · have kind : ¬ (role (.loop a) = .inner ∨ role (.loop a) = .own ∧ awaited s = true) := by
          cases own : ofLoop a <;> simp [role, own, waits]
        rw [if_neg kind]
        cases here : s.owner <;> simp_all [remaining, awaited]

private theorem stopping_enabled {s : Looped} (sound : Sound s) (stopping : phase s = .stopping) :
    ∃ a s', (role a = .inner ∨ role a = .own ∧ awaited s = true) ∧
      step interval s a = some s' := by
  have alive := sound.alive
  cases here : s.owner with
  | idle | clearingStop | settingRunning | spawning =>
      rw [phase, here] at stopping
      cases stopping
  | settingStop =>
      exact ⟨.setStop, _, .inl rfl, by simp [step, move, alive, here, RunLoop.step]; rfl⟩
  | waking => exact ⟨.wakeUp, _, .inl rfl, by simp [step, move, alive, here, RunLoop.step]; rfl⟩
  | clearingRunning => exact ⟨.clearRunning, _, .inl rfl, by simp [step, move, alive, here]; rfl⟩
  | joining =>
      by_cases ended : s.loop.pc = .finished
      · exact ⟨.join, _, .inl rfl, by simp [step, move, alive, here, ended]; rfl⟩
      · -- the thread is not at its end, so it can go on
        obtain ⟨a, l, own, taken⟩ :
            ∃ a l, ofLoop a = true ∧ RunLoop.step interval s.loop a = some l :=
          RunLoop.loop_enabled ended
        have others : ¬ (a = .requestStop ∨ a = .wakeForStop) := by
          rintro (rfl | rfl) <;> cases own
        have waits : awaited s = true := by simp [awaited, here]
        refine ⟨.loop a, { s with loop := l }, .inr ⟨by simp [role, own], waits⟩, ?_⟩
        simp [step, move, alive, others, taken]

/-- `stop()` of a collector or a scanner waits for seven steps of the thread at most. -/
def stopping (interval : Int) : Stopping (service interval) where
  awaited := awaited
  inCall := Looped.inCall
  remaining := remaining
  bound := 11
  bounded := remaining_le
  callable := stopping_callable
  waits := stopping_waits
  idle := stopping_idle
  counted := stopping_counted
  enabled sound stopping _ := stopping_enabled sound stopping

end OrbisAgent.Services.LoopService
