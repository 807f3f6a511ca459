/- OrbisAgent/Services/HeartbeatLives
   source: HeartbeatService::start, stop, isRunning, run
   digest: A heartbeat thread says online until it is stopped and offline as its last word, there
   is never a second one, and stop() waits for two messages and one tick at most. -/

import OrbisAgent.Services.Heartbeat

set_option autoImplicit false
set_option relaxedAutoImplicit false

namespace OrbisAgent.Services.HeartbeatLives

open OrbisAgent.Lib.Transition
open OrbisAgent.Services.Heartbeat

/-- What a thread tries to publish before its end. -/
def Going (attempts : List (Status × Beat)) : Prop := ∀ entry ∈ attempts, entry.1 = .online

/-- What a thread has tried to publish at its end. -/
def Complete (attempts : List (Status × Beat)) : Prop :=
  ∃ before b, attempts = before ++ [(.offline, b)] ∧ Going before

/-- The record of the thread that was started last, behind those of its predecessors. -/
structure Current (s : HeartbeatService) (past : List (List (Status × Beat)))
    (present : List (Status × Beat)) : Prop where
  attempts : s.attempts = past ++ [present]
  past : ∀ life ∈ past, Complete life
  going : s.pc ≠ .finished → Going present
  ended : s.pc = .finished → Complete present

/-- Between two calls `isRunning()` tells whether there is a thread, which ends only when it is
told to, and says offline then and only then. -/
structure Lives (s : HeartbeatService) : Prop where
  alive : s.terminated = false
  watched : s.owner = .idle → (s.running = true ↔ s.pc ≠ .absent)
  told : s.pc = .finished → s.stop_requested = true
  quiet : s.pc = .absent → ∀ life ∈ s.attempts, Complete life
  current : s.pc ≠ .absent → ∃ past present, Current s past present

/-- Steps of `start()` and the end of `stop()`, during which there is no thread. -/
def threadless : Owner → Bool
  | .clearingStop | .settingRunning | .spawning | .clearingRunning => true
  | _ => false

/-- The last message is on its way only after a request to stop. -/
def ending : Pc → Bool
  | .lastBeat | .finished => true
  | _ => false

structure Invariant (s : HeartbeatService) : Prop where
  lives : Lives s
  threadless : threadless s.owner = true → s.pc = .absent
  starting : s.owner = .spawning → s.running = true
  ending : ending s.pc = true → s.stop_requested = true
  joining : s.owner = .joining → s.stop_requested = true

theorem record_append (past : List (List (Status × Beat))) (present : List (Status × Beat))
    (entry : Status × Beat) : record (past ++ [present]) entry = past ++ [present ++ [entry]] := by
  simp [record]

theorem Going.snoc {present : List (Status × Beat)} (going : Going present) (b : Beat) :
    Going (present ++ [(.online, b)]) := by
  intro entry mem
  rcases List.mem_append.mp mem with old | new
  · exact going entry old
  · rw [List.mem_singleton.mp new]

theorem invariant_new : Invariant .new :=
  ⟨⟨rfl, fun _ => ⟨nofun, fun there => absurd rfl there⟩, nofun, fun _ => nofun,
    fun there => absurd rfl there⟩, fun _ => rfl, nofun, nofun, nofun⟩

variable {interval_sec : Int} {s s' : HeartbeatService} {a : Act}

/-- A step of the owner that leaves the thread and its record alone. -/
private theorem invariant_owner (before : Invariant s) (pc : s'.pc = s.pc)
    (attempts : s'.attempts = s.attempts) (alive : s'.terminated = false)
    (watched : s'.owner = .idle → (s'.running = true ↔ s'.pc ≠ .absent))
    (threadless : threadless s'.owner = true → s'.pc = .absent)
    (starting : s'.owner = .spawning → s'.running = true)
    (told : ending s'.pc = true → s'.stop_requested = true)
    (joining : s'.owner = .joining → s'.stop_requested = true) : Invariant s' := by
  refine ⟨⟨alive, watched, fun here => told (by rw [here]; rfl), fun here => ?_, fun there => ?_⟩,
    threadless, starting, told, joining⟩
  · rw [attempts]
    exact before.lives.quiet (pc.symm.trans here)
  · obtain ⟨past, present, now⟩ := before.lives.current (by rw [← pc]; exact there)
    refine ⟨past, present, attempts.trans now.attempts, now.past, ?_, ?_⟩ <;> rw [pc]
    · exact now.going
    · exact now.ended

/-- A step of the thread on its way between two messages. -/
private theorem invariant_thread (before : Invariant s) {pc : Pc} (was : s.pc ≠ .absent)
    (unended : s.pc ≠ .finished) (is : pc ≠ .absent) (goes : pc ≠ .finished)
    (told : ending pc = true → s.stop_requested = true) : Invariant { s with pc := pc } := by
  refine ⟨⟨before.lives.alive, fun idle => ?_, fun here => absurd here goes,
    fun here => absurd here is, fun _ => ?_⟩, fun inside => ?_, before.starting, told,
    before.joining⟩
  · exact iff_of_true ((before.lives.watched idle).mpr was) is
  · obtain ⟨past, present, now⟩ := before.lives.current was
    exact ⟨past, present, now.attempts, now.past, fun _ => now.going unended,
      fun here => absurd here goes⟩
  · exact absurd (before.threadless inside) was

theorem invariant_step (before : Invariant s) (move : Moves interval_sec s a s') :
    Invariant s' := by
  have alive := before.lives.alive
  cases move with
  | startAgain => exact before
  | callStart here fresh =>
      have absent : s.pc = .absent := by
        by_contra there
        have running := (before.lives.watched here).mpr there
        rw [fresh] at running
        cases running
      exact invariant_owner before rfl rfl alive nofun (fun _ => absent) nofun before.ending nofun
  | clearStop here =>
      have absent := before.threadless (by rw [here]; rfl)
      refine invariant_owner before rfl rfl alive nofun (fun _ => absent) nofun ?_ nofun
      intro late
      rw [show s.pc = .absent from absent] at late
      cases late
  | setRunning here =>
      have absent := before.threadless (by rw [here]; rfl)
      exact invariant_owner before rfl rfl alive nofun (fun _ => absent) (fun _ => rfl)
        before.ending nofun
  | spawn here fresh =>
      have running := before.starting here
      refine ⟨⟨alive, fun _ => iff_of_true running nofun, nofun, nofun, fun _ => ?_⟩, nofun, nofun,
        nofun, nofun⟩
      exact ⟨s.attempts, [], rfl, before.lives.quiet fresh, fun _ => nofun, nofun⟩
  | spawnTwice here busy => exact absurd (before.threadless (by rw [here]; rfl)) busy
  | callStop here =>
      exact invariant_owner before rfl rfl alive nofun nofun nofun before.ending nofun
  | setStop here =>
      exact invariant_owner before rfl rfl alive nofun nofun nofun (fun _ => rfl) fun _ => rfl
  | join here ended =>
      refine ⟨⟨alive, nofun, nofun, fun _ => ?_, fun there => absurd rfl there⟩, fun _ => rfl,
        nofun, nofun, nofun⟩
      rcases ended with absent | finished
      · exact before.lives.quiet absent
      · obtain ⟨past, present, now⟩ := before.lives.current (by rw [finished]; nofun)
        intro life mem
        rw [show s.attempts = past ++ [present] from now.attempts] at mem
        rcases List.mem_append.mp mem with old | new
        · exact now.past life old
        · rw [List.mem_singleton.mp new]
          exact now.ended finished
  | clearRunning here =>
      have absent := before.threadless (by rw [here]; rfl)
      refine invariant_owner before rfl rfl alive (fun _ => ?_) nofun nofun before.ending nofun
      exact iff_of_false nofun fun there => there absent
  | test here =>
      by_cases stopping : s.stop_requested = true
      · rw [if_pos stopping]
        exact invariant_thread before (by rw [here]; nofun) (by rw [here]; nofun) nofun nofun
          fun _ => stopping
      · rw [if_neg stopping]
        exact invariant_thread before (by rw [here]; nofun) (by rw [here]; nofun) nofun nofun nofun
  | testInterval i here =>
      split <;>
        exact invariant_thread before (by rw [here]; nofun) (by rw [here]; nofun) nofun nofun nofun
  | testStop i here =>
      split <;>
        exact invariant_thread before (by rw [here]; nofun) (by rw [here]; nofun) nofun nofun nofun
  | tick i here =>
      exact invariant_thread before (by rw [here]; nofun) (by rw [here]; nofun) nofun nofun nofun
  | beat b here =>
      have there : s.pc ≠ .absent := by rw [here]; nofun
      obtain ⟨past, present, now⟩ := before.lives.current there
      have going := now.going (by rw [here]; nofun)
      refine ⟨⟨alive, fun idle => iff_of_true ((before.lives.watched idle).mpr there) nofun, nofun,
        nofun, fun _ => ?_⟩, fun inside => ?_, before.starting, nofun, before.joining⟩
      · refine ⟨past, present ++ [(.online, b)], ?_, now.past, fun _ => going.snoc b, nofun⟩
        change record s.attempts _ = _
        rw [now.attempts, record_append]
      · exact absurd (before.threadless inside) there
  | lastBeat b here =>
      have there : s.pc ≠ .absent := by rw [here]; nofun
      obtain ⟨past, present, now⟩ := before.lives.current there
      have going := now.going (by rw [here]; nofun)
      have stopping := before.ending (by rw [here]; rfl)
      refine ⟨⟨alive, fun idle => iff_of_true ((before.lives.watched idle).mpr there) nofun,
        fun _ => stopping, nofun, fun _ => ?_⟩, fun inside => ?_, before.starting,
        fun _ => stopping, before.joining⟩
      · refine ⟨past, present ++ [(.offline, b)], ?_, now.past, fun goes => absurd rfl goes,
          fun _ => ⟨present, b, rfl, going⟩⟩
        change record s.attempts _ = _
        rw [now.attempts, record_append]
      · exact absurd (before.threadless inside) there

theorem invariant_of_reaches (run : Reaches (step interval_sec) anyStep .new s) : Invariant s :=
  run.invariant invariant_new fun _ _ _ before _ next =>
    invariant_step before (moves_of_step next).2

/-- For every sequence of calls of `start()` and `stop()`, every outcome of the messages and every
interleaving: each thread says online, and offline as its last word when it is told to stop; the
assignment to `thread_` never ends the process; and between two calls `isRunning()` is true
exactly while there is a thread, so a watchdog never starts a second one. -/
theorem heartbeat_says_offline_last (run : Reaches (step interval_sec) anyStep .new s) : Lives s :=
  (invariant_of_reaches run).lives

/-- Started twice and stopped in between; the first thread could not publish its last message. -/
theorem two_lives_end_offline :
    ∃ s, Reaches (step 1) anyStep .new s ∧ s.pc = .beating ∧
      s.attempts = [[(.online, .accepted), (.offline, .refused)], []] ∧ Lives s := by
  let as : List Act :=
    [.callStart, .clearStop, .setRunning, .spawn, .callStart, .test, .callStop, .beat .accepted,
      .testInterval, .setStop, .testStop, .test, .beat .refused, .join, .clearRunning, .callStart,
      .clearStop, .setRunning, .spawn, .test]
  have replay : ∃ s, exec (step 1) .new as = some s ∧ s.pc = .beating ∧
      s.attempts = [[(.online, .accepted), (.offline, .refused)], []] := ⟨_, rfl, rfl, rfl⟩
  obtain ⟨s, run, here, attempts⟩ := replay
  have path := exec_reaches_any run
  exact ⟨s, path, here, attempts, heartbeat_says_offline_last path⟩

/-- The thread's steps up to its end once it is told to stop, the ticks among them, and the
messages. -/
def ahead : Pc → Nat
  | .absent | .finished => 0
  | .lastBeat => 1
  | .testing => 2
  | .testStop _ => 3
  | .testInterval _ => 4
  | .sleeping _ | .beating => 5

def ticksAhead : Pc → Nat
  | .sleeping _ => 1
  | _ => 0

def beatsAhead : Pc → Nat
  | .absent | .finished => 0
  | .beating => 2
  | _ => 1

def isBeat : Act → Bool
  | .beat _ => true
  | _ => false

/-- While `stop()` waits, only the thread makes steps, and each brings its end nearer. -/
theorem stopping_step (alive : s.terminated = false) (waits : s.owner = .joining)
    (stopping : s.stop_requested = true) (other : a ≠ .join)
    (next : step interval_sec s a = some s') :
    (s'.terminated = false ∧ s'.owner = .joining ∧ s'.stop_requested = true) ∧
      ahead s'.pc + 1 ≤ ahead s.pc ∧ ticksAhead s'.pc + (if a = .tick then 1 else 0) ≤
        ticksAhead s.pc ∧ beatsAhead s'.pc + (if isBeat a then 1 else 0) ≤ beatsAhead s.pc := by
  have move := (moves_of_step next).2
  cases move with
  | callStart here | startAgain here | clearStop here | setRunning here | spawn here
  | spawnTwice here | callStop here | setStop here | clearRunning here =>
      rw [here] at waits
      cases waits
  | join => exact absurd rfl other
  | test here =>
      rw [if_pos stopping, here]
      exact ⟨⟨alive, waits, stopping⟩, by simp [ahead], by simp [ticksAhead],
        by simp [beatsAhead, isBeat]⟩
  | beat b here =>
      rw [here]
      exact ⟨⟨alive, waits, stopping⟩, by simp [ahead], by simp [ticksAhead],
        by simp [beatsAhead, isBeat]⟩
  | lastBeat b here =>
      rw [here]
      exact ⟨⟨alive, waits, stopping⟩, by simp [ahead], by simp [ticksAhead],
        by simp [beatsAhead, isBeat]⟩
  | testInterval i here =>
      rw [here]
      refine ⟨⟨alive, waits, stopping⟩, ?_, ?_, ?_⟩ <;> dsimp only <;> split <;>
        simp [ahead, ticksAhead, beatsAhead, isBeat]
  | testStop i here =>
      rw [if_pos stopping, here]
      exact ⟨⟨alive, waits, stopping⟩, by simp [ahead], by simp [ticksAhead],
        by simp [beatsAhead, isBeat]⟩
  | tick i here =>
      rw [here]
      exact ⟨⟨alive, waits, stopping⟩, by simp [ahead], by simp [ticksAhead],
        by simp [beatsAhead, isBeat]⟩

theorem stopping_run {as : List Act} (alive : s.terminated = false) (waits : s.owner = .joining)
    (stopping : s.stop_requested = true) (none : .join ∉ as)
    (run : exec (step interval_sec) s as = some s') :
    s'.terminated = false ∧ s'.owner = .joining ∧ ahead s'.pc + as.length ≤ ahead s.pc ∧
      ticksAhead s'.pc + as.count .tick ≤ ticksAhead s.pc ∧
      beatsAhead s'.pc + as.countP isBeat ≤ beatsAhead s.pc := by
  induction as generalizing s with
  | nil =>
      obtain rfl := Option.some.inj run
      exact ⟨alive, waits, Nat.le_refl _, Nat.le_refl _, Nat.le_refl _⟩
  | cons a as ih =>
      obtain ⟨r, next, rest⟩ := Option.bind_eq_some_iff.mp run
      rw [List.mem_cons, not_or] at none
      obtain ⟨⟨alive', waits', stopping'⟩, own, ticks, beats⟩ :=
        stopping_step alive waits stopping (Ne.symm none.1) next
      obtain ⟨lives, still, more, moreTicks, moreBeats⟩ :=
        ih alive' waits' stopping' none.2 rest
      refine ⟨lives, still, ?_, ?_, ?_⟩
      · rw [List.length_cons]
        omega
      · rw [List.count_cons]
        simp only [beq_iff_eq]
        omega
      · rw [List.countP_cons]
        omega

/-- While `stop()` waits there is a step, the thread's or the join, unless the thread is in a call
that need not come back. -/
theorem stopping_enabled (alive : s.terminated = false) (waits : s.owner = .joining)
    (back : s.inCall = false) : ∃ a r, step interval_sec s a = some r := by
  cases here : s.pc with
  | absent => exact ⟨.join, _, by simp [step, move, alive, waits, here]; rfl⟩
  | finished => exact ⟨.join, _, by simp [step, move, alive, waits, here]; rfl⟩
  | testing => exact ⟨.test, _, by simp [step, move, alive, here]; rfl⟩
  | beating | lastBeat =>
      rw [HeartbeatService.inCall, here] at back
      cases back
  | testInterval i => exact ⟨.testInterval, _, by simp [step, move, alive, here]; rfl⟩
  | testStop i => exact ⟨.testStop, _, by simp [step, move, alive, here]; rfl⟩
  | sleeping i => exact ⟨.tick, _, by simp [step, move, alive, here]; rfl⟩

/-- Once `stop()` has raised its flag, the thread makes five steps at most before it can be joined,
with at most one tick and two messages among them, whatever the interval; and only a call that does
not come back can hold it up. -/
theorem stop_waits_for_one_tick {u : HeartbeatService} {as : List Act}
    (run : Reaches (step interval_sec) anyStep .new s) (waits : s.owner = .joining)
    (more : exec (step interval_sec) s as = some u) (none : .join ∉ as) :
    as.length ≤ 5 ∧ as.count .tick ≤ 1 ∧ as.countP isBeat ≤ 2 ∧
      (u.inCall = false → ∃ a r, step interval_sec u a = some r) := by
  have holds := invariant_of_reaches run
  obtain ⟨alive, still, own, ticks, beats⟩ :=
    stopping_run holds.lives.alive waits (holds.joining waits) none more
  have most : ahead s.pc ≤ 5 ∧ ticksAhead s.pc ≤ 1 ∧ beatsAhead s.pc ≤ 2 := by
    cases s.pc <;> simp [ahead, ticksAhead, beatsAhead]
  exact ⟨by omega, by omega, by omega, stopping_enabled alive still⟩

/-- `stop()` comes during a message of a heartbeat of every thirty seconds. -/
theorem stop_during_a_message :
    ∃ s, Reaches (step 30) anyStep .new s ∧ s.owner = .joining ∧ s.pc = .beating ∧
      ∃ u, exec (step 30) s [.beat .threw, .testInterval, .testStop, .test, .beat .accepted] =
        some u ∧ u.pc = .finished ∧ ∃ a r, step 30 u a = some r := by
  let before : List Act :=
    [.callStart, .clearStop, .setRunning, .spawn, .test, .callStop, .setStop]
  have replay : ∃ s, exec (step 30) .new before = some s ∧ s.owner = .joining ∧
      s.pc = .beating ∧ ∃ u,
        exec (step 30) s [.beat .threw, .testInterval, .testStop, .test, .beat .accepted] =
          some u ∧ u.pc = .finished := ⟨_, rfl, rfl, rfl, _, rfl, rfl⟩
  obtain ⟨s, run, waits, here, u, more, ended⟩ := replay
  have path := exec_reaches_any run
  have prompt := stop_waits_for_one_tick path waits more (by decide)
  have back : u.inCall = false := by rw [HeartbeatService.inCall, ended]
  exact ⟨s, path, waits, here, u, more, ended, prompt.2.2.2 back⟩

end OrbisAgent.Services.HeartbeatLives
