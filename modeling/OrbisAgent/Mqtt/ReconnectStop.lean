/- OrbisAgent/Mqtt/ReconnectStop
   source: MQTTClientWrapper::disconnect, ~MQTTClientWrapper, onConnectionLost, reconnectLoop
   digest: After disconnect() or the destructor returned, no reconnect thread touches the client, if
   each return finds none of them and nothing that could still start one. -/

import OrbisAgent.Mqtt.Client

set_option autoImplicit false
set_option relaxedAutoImplicit false

namespace OrbisAgent.Mqtt.ReconnectStop

open OrbisAgent.Lib.Transition
open OrbisAgent.Mqtt.Client

universe u

variable {ι : Type u}

/-- In `reconnectLoop`. -/
def inReconnectLoop : Pc → Bool
  | .connecting .reconnectLoop | .succeeded .reconnectLoop | .flagged .reconnectLoop
  | .walking .reconnectLoop _ | .notifying .reconnectLoop => true
  | .testShutdown | .testConnected | .sleeping => true
  | _ => false

/-- On the way to a reconnect thread: in the callback of a loss, or in a `connect` that may
still bring the link up. -/
def leadsToLoop : Pc → Bool
  | .connecting .connect | .lost | .cleared => true
  | _ => false

/-- The thread that takes the step; for a loss, the one of the callback. -/
def actor : Act ι → ι
  | .callConnect i | .connect i _ | .setFlag i | .lockSubs i | .resubscribe i _ | .unlockSubs i
  | .notify i | .testShutdown i | .testConnected i | .wake i | .lose i | .clear i | .spawn i _
  | .callSubscribe i _ | .register i | .checkFlag i | .checkLink i | .subscribe i _
  | .callDisconnect i | .callDestructor i | .testDisconnect i | .closeLink i | .clearFlag i
  | .destroy i => i

/-- The last step of `disconnect()`, on either of its paths, or of the destructor. -/
def returns (s : Wrapper ι) : Act ι → Bool
  | .testDisconnect i => s.threads i == .disconnecting false && !s.connected
  | .clearFlag _ | .destroy _ => true
  | _ => false

/-- The wrapper, and whether `disconnect()` has returned with no `connect()` after it, or
the destructor has finished. -/
structure Watched (ι : Type u) where
  wrapper : Wrapper ι
  stopped : Bool

def Watched.start : Watched ι := ⟨.start, false⟩

def stoppedAfter (w : Watched ι) : Act ι → Bool
  | .callConnect _ => w.wrapper.destroyed
  | a => returns w.wrapper a || w.stopped

/-- No thread is in the loop, and without `shutdown_` none can get there on its own. -/
structure Quiet (s : Wrapper ι) : Prop where
  loops : ∀ i, inReconnectLoop (s.threads i) = false
  starts : s.shutdown = true ∨ s.linkUp = false ∧ ∀ i, leadsToLoop (s.threads i) = false

/-- The guard: a return finds the client quiet. -/
def ReturnsQuiet (w : Watched ι) (a : Act ι) : Prop := returns w.wrapper a = true → Quiet w.wrapper

instance {n : Nat} (s : Wrapper (Fin n)) : Decidable (Quiet s) :=
  decidable_of_iff ((∀ i, inReconnectLoop (s.threads i) = false) ∧
      (s.shutdown = true ∨ s.linkUp = false ∧ ∀ i, leadsToLoop (s.threads i) = false))
    ⟨fun both => ⟨both.1, both.2⟩, fun quiet => ⟨quiet.loops, quiet.starts⟩⟩

instance {n : Nat} (w : Watched (Fin n)) (a : Act (Fin n)) : Decidable (ReturnsQuiet w a) :=
  inferInstanceAs (Decidable (_ → _))

variable [DecidableEq ι]

def watch (w : Watched ι) (a : Act ι) : Option (Watched ι) :=
  (step w.wrapper a).map fun s => ⟨s, stoppedAfter w a⟩

/-- Once the client is stopped, no step belongs to a reconnect thread. -/
def LeftAlone (w : Watched ι) : Prop :=
  w.stopped = true → ∀ a s, step w.wrapper a = some s →
    inReconnectLoop (w.wrapper.threads (actor a)) = false

/-- In the destructor, behind the write of `shutdown_`. -/
def inDestructor : Pc → Bool
  | .disconnecting destructor | .closing destructor | .clearing destructor => destructor
  | .destroying => true
  | _ => false

/-- The destructor raises `shutdown_` before anything else. -/
structure Flagged (s : Wrapper ι) : Prop where
  threads : ∀ i, inDestructor (s.threads i) = true → s.shutdown = true
  destroyed : s.destroyed = true → s.shutdown = true

variable {s s' : Wrapper ι} {a : Act ι} {i : ι} {pc : Pc}

/-- A step of a thread to a place outside the loop keeps the client quiet. -/
theorem quiet_frame (quiet : Quiet s) (threads : s'.threads = Function.update s.threads i pc)
    (shutdown : s.shutdown = true → s'.shutdown = true) (outside : inReconnectLoop pc = false)
    (starts : s'.shutdown = true ∨
      leadsToLoop pc = false ∧ (s.linkUp = false → s'.linkUp = false)) : Quiet s' := by
  constructor
  · intro j
    rw [threads]
    by_cases same : j = i
    · rw [same, Function.update_self]
      exact outside
    · rw [Function.update_of_ne same]
      exact quiet.loops j
  · rcases starts with stopping | ⟨apart, link⟩
    · exact .inl stopping
    · rcases quiet.starts with stopping | ⟨down, others⟩
      · exact .inl (shutdown stopping)
      · refine .inr ⟨link down, fun j => ?_⟩
        rw [threads]
        by_cases same : j = i
        · rw [same, Function.update_self]
          exact apart
        · rw [Function.update_of_ne same]
          exact others j

omit [DecidableEq ι] in
/-- A thread on the way to the loop is one of a client that is shutting down. -/
theorem Quiet.shutdown_of_leads (quiet : Quiet s) (leads : leadsToLoop (s.threads i) = true) :
    s.shutdown = true := by
  rcases quiet.starts with stopping | ⟨_, others⟩
  · exact stopping
  · rw [others i] at leads
    cases leads

/-- Only a new call of `connect` can end the quiet, and not even that on shutdown. -/
theorem quiet_step (quiet : Quiet s) (calls : s.shutdown = true ∨ ∀ j, a ≠ .callConnect j)
    (moves : Moves s a s') : Quiet s' := by
  have absent : ∀ {P : Prop} {j : ι}, inReconnectLoop (s.threads j) = true → P := by
    intro P j inside
    rw [quiet.loops j] at inside
    cases inside
  cases moves with
  | callConnect i here =>
      rcases calls with stopping | other
      · exact quiet_frame quiet rfl id rfl (.inl stopping)
      · exact absurd rfl (other i)
  | connectOk i caller here =>
      cases caller with
      | connect =>
          have stopping := quiet.shutdown_of_leads (i := i) (by rw [here]; rfl)
          exact quiet_frame quiet rfl id rfl (.inl stopping)
      | reconnectLoop => exact absent (j := i) (by rw [here]; rfl)
  | connectFailed i caller here | setFlag i caller here | lockSubs i caller here
  | resubscribe i _ caller _ _ here | unlockSubs i caller here =>
      cases caller with
      | connect => exact quiet_frame quiet rfl id rfl (.inr ⟨rfl, id⟩)
      | reconnectLoop => exact absent (j := i) (by rw [here]; rfl)
  | testShutdown i here | testConnected i here | wake i here =>
      exact absent (j := i) (by rw [here]; rfl)
  | lose j here up =>
      rcases quiet.starts with stopping | ⟨down, _⟩
      · exact quiet_frame quiet rfl id rfl (.inl stopping)
      · rw [up] at down
        cases down
  | clear i here =>
      have stopping := quiet.shutdown_of_leads (i := i) (by rw [here]; rfl)
      exact quiet_frame quiet rfl id rfl (.inl stopping)
  | spawn i k here running =>
      have stopping := quiet.shutdown_of_leads (i := i) (by rw [here]; rfl)
      rw [running] at stopping
      cases stopping
  | callDestructor i here => exact quiet_frame quiet rfl (fun _ => rfl) rfl (.inl rfl)
  | closeLink i destructor here => exact quiet_frame quiet rfl id rfl (.inr ⟨rfl, fun _ => rfl⟩)
  | checkFlag i sub here | checkLink i sub here =>
      exact quiet_frame quiet rfl id (by split <;> rfl) (.inr ⟨by split <;> rfl, id⟩)
  | testDisconnect i destructor here =>
      exact quiet_frame quiet rfl id (by cases destructor <;> split <;> rfl)
        (.inr ⟨by cases destructor <;> split <;> rfl, id⟩)
  | clearFlag i destructor here =>
      exact quiet_frame quiet rfl id (by cases destructor <;> rfl)
        (.inr ⟨by cases destructor <;> rfl, id⟩)
  | notify i _ here | noSpawn i _ here | callSubscribe i _ here | register i _ here
  | subscribe i _ _ here | callDisconnect i here | destroy i here =>
      exact quiet_frame quiet rfl id rfl (.inr ⟨rfl, id⟩)

theorem flagged_frame (flagged : Flagged s) (threads : s'.threads = Function.update s.threads i pc)
    (shutdown : s.shutdown = true → s'.shutdown = true)
    (moved : inDestructor pc = true → s'.shutdown = true ∨ inDestructor (s.threads i) = true)
    (ended : s'.destroyed = true → s.destroyed = true ∨ inDestructor (s.threads i) = true) :
    Flagged s' := by
  constructor
  · intro j inside
    rw [threads] at inside
    by_cases same : j = i
    · rw [same, Function.update_self] at inside
      rcases moved inside with stopping | before
      · exact stopping
      · exact shutdown (flagged.threads i before)
    · rw [Function.update_of_ne same] at inside
      exact shutdown (flagged.threads j inside)
  · intro gone
    rcases ended gone with before | inside
    · exact shutdown (flagged.destroyed before)
    · exact shutdown (flagged.threads i inside)

theorem flagged_step (flagged : Flagged s) (moves : Moves s a s') : Flagged s' := by
  have outside : ∀ {pc : Pc} {P : Prop}, inDestructor pc = false → inDestructor pc = true → P := by
    intro pc P no yes
    rw [no] at yes
    cases yes
  cases moves with
  | callDestructor i here => exact flagged_frame flagged rfl (fun _ => rfl) (fun _ => .inl rfl) .inl
  | testDisconnect i destructor here =>
      refine flagged_frame flagged rfl id (fun inside => .inr ?_) .inl
      rw [here]
      cases destructor
      · split at inside <;> exact inside
      · rfl
  | closeLink i destructor here =>
      refine flagged_frame flagged rfl id (fun inside => .inr ?_) .inl
      rw [here]
      exact inside
  | clearFlag i destructor here =>
      refine flagged_frame flagged rfl id (fun inside => .inr ?_) .inl
      rw [here]
      cases destructor
      · exact inside
      · rfl
  | destroy i here =>
      refine flagged_frame flagged rfl id (outside rfl) fun _ => .inr ?_
      rw [here]
      rfl
  | spawn i k here running fresh =>
      have first : Flagged (s.setThread i .returned) :=
        flagged_frame flagged rfl id (outside rfl) .inl
      exact flagged_frame first rfl id (outside rfl) .inl
  | connectFailed i caller here =>
      exact flagged_frame flagged rfl id (outside (by cases caller <;> rfl)) .inl
  | testShutdown i here | testConnected i here | wake i here | checkFlag i _ here
  | checkLink i _ here =>
      exact flagged_frame flagged rfl id (outside (by split <;> rfl)) .inl
  | callConnect i here | connectOk i _ here | setFlag i _ here | lockSubs i _ here
  | resubscribe i _ _ _ _ here | unlockSubs i _ here | notify i _ here | lose i here
  | clear i here | noSpawn i _ here | callSubscribe i _ here | register i _ here
  | subscribe i _ _ here | callDisconnect i here =>
      exact flagged_frame flagged rfl id (outside rfl) .inl

theorem destroyed_step (moves : Moves s a s') (gone : s'.destroyed = true) :
    s.destroyed = true ∨ ∃ i, a = .destroy i := by
  cases moves with
  | destroy i here => exact .inr ⟨i, rfl⟩
  | _ => exact .inl gone

/-- The invariant of a watched run: a stopped client is quiet. -/
structure Watches (w : Watched ι) : Prop where
  flagged : Flagged w.wrapper
  ended : w.wrapper.destroyed = true → w.stopped = true
  quiet : w.stopped = true → Quiet w.wrapper

theorem watches_step {w w' : Watched ι} (before : Watches w) (guard : ReturnsQuiet w a)
    (move : watch w a = some w') : Watches w' := by
  obtain ⟨s, taken, rfl⟩ := Option.map_eq_some_iff.mp move
  have moves := moves_of_step taken
  have flagged := flagged_step before.flagged moves
  by_cases call : ∃ i, a = .callConnect i
  · obtain ⟨i, rfl⟩ := call
    refine ⟨flagged, fun gone => ?_, fun gone => ?_⟩
    · rcases destroyed_step moves gone with already | ⟨j, other⟩
      · exact already
      · cases other
    · have quiet := before.quiet (before.ended gone)
      exact quiet_step quiet (.inl (before.flagged.destroyed gone)) moves
  · have other : ∀ i, a ≠ .callConnect i := fun i same => call ⟨i, same⟩
    have goesOn : stoppedAfter w a = (returns w.wrapper a || w.stopped) := by
      cases a
      case callConnect i => exact absurd rfl (other i)
      all_goals rfl
    refine ⟨flagged, fun gone => ?_, fun stopped => ?_⟩
    · change stoppedAfter w a = true
      rw [goesOn, Bool.or_eq_true]
      rcases destroyed_step moves gone with already | ⟨i, rfl⟩
      · exact .inr (before.ended already)
      · exact .inl rfl
    · change stoppedAfter w a = true at stopped
      rw [goesOn, Bool.or_eq_true] at stopped
      have quiet : Quiet w.wrapper := stopped.elim guard before.quiet
      exact quiet_step quiet (.inr other) moves

/-- In every run in which `disconnect()` and the destructor return to a quiet client, no
reconnect thread takes a step once they have. -/
theorem left_alone_if_returns_quiet {w : Watched ι}
    (run : Reaches watch ReturnsQuiet Watched.start w) : LeftAlone w := by
  have start : Watches (Watched.start : Watched ι) := by
    refine ⟨⟨fun i inside => ?_, fun gone => ?_⟩, fun gone => ?_, fun stopped => ?_⟩
    · cases inside
    · cases gone
    · cases gone
    · cases stopped
  have watches := run.invariant start fun _ _ _ before guard move => watches_step before guard move
  exact fun stopped a _ _ => (watches.quiet stopped).loops (actor a)

/-- A client that is disconnected after a reconnect thread has finished is left alone. -/
theorem left_alone_after_disconnect :
    ∃ w : Watched (Fin 4), Reaches watch ReturnsQuiet Watched.start w ∧ w.stopped = true ∧
      LeftAlone w := by
  let run : List (Act (Fin 4)) :=
    [.callConnect 0, .connect 0 true, .setFlag 0, .lockSubs 0, .unlockSubs 0, .notify 0, .lose 1,
      .clear 1, .spawn 1 2, .testShutdown 2, .testConnected 2, .wake 2, .connect 2 true,
      .setFlag 2, .lockSubs 2, .unlockSubs 2, .notify 2, .callDisconnect 3, .testDisconnect 3,
      .closeLink 3, .clearFlag 3]
  have reached : ∃ w, exec (guarded watch ReturnsQuiet) (Watched.start : Watched (Fin 4)) run =
      some w ∧ w.stopped = true := ⟨_, rfl, rfl⟩
  obtain ⟨w, replay, stopped⟩ := reached
  have path := exec_guarded_reaches replay
  exact ⟨w, path, stopped, left_alone_if_returns_quiet path⟩

/-- The reconnect thread sleeps through its delay. `disconnect()` finds the flag down and
returns at once, and the thread then connects; the destructor finishes, and the thread then
reads `shutdown_` of a destroyed client. -/
theorem reconnect_thread_outlives_its_client :
    (∃ w : Watched (Fin 4), Reaches watch anyStep Watched.start w ∧
        w.wrapper.threads 3 = .returned ∧ w.wrapper.destroyed = false ∧
        w.wrapper.threads 2 = .connecting .reconnectLoop ∧ ¬ LeftAlone w) ∧
      ∃ w : Watched (Fin 4), Reaches watch anyStep Watched.start w ∧
        w.wrapper.destroyed = true ∧ w.wrapper.threads 2 = .sleeping ∧ ¬ LeftAlone w := by
  let lost : List (Act (Fin 4)) :=
    [.callConnect 0, .connect 0 true, .setFlag 0, .lockSubs 0, .unlockSubs 0, .notify 0, .lose 1,
      .clear 1, .spawn 1 2, .testShutdown 2, .testConnected 2]
  constructor
  · have reached : ∃ w, exec watch (Watched.start : Watched (Fin 4))
          (lost ++ [.callDisconnect 3, .testDisconnect 3, .wake 2]) = some w ∧
        w.stopped = true ∧ w.wrapper.threads 3 = .returned ∧ w.wrapper.destroyed = false ∧
        w.wrapper.threads 2 = .connecting .reconnectLoop := ⟨_, rfl, rfl, rfl, rfl, rfl⟩
    obtain ⟨w, replay, stopped, returned, here, connecting⟩ := reached
    refine ⟨w, exec_reaches_any replay, returned, here, connecting, fun alone => ?_⟩
    have outside := alone stopped (.connect 2 true) _ (by
      simp only [step, connecting]
      rfl)
    change inReconnectLoop (w.wrapper.threads 2) = false at outside
    rw [connecting] at outside
    cases outside
  · have reached : ∃ w, exec watch (Watched.start : Watched (Fin 4))
          (lost ++ [.callDestructor 3, .testDisconnect 3, .destroy 3]) = some w ∧
        w.stopped = true ∧ w.wrapper.destroyed = true ∧ w.wrapper.threads 2 = .sleeping :=
      ⟨_, rfl, rfl, rfl, rfl⟩
    obtain ⟨w, replay, stopped, gone, asleep⟩ := reached
    refine ⟨w, exec_reaches_any replay, gone, asleep, fun alone => ?_⟩
    have outside := alone stopped (.wake 2) _ (by
      simp only [step, asleep]
      rfl)
    change inReconnectLoop (w.wrapper.threads 2) = false at outside
    rw [asleep] at outside
    cases outside

end OrbisAgent.Mqtt.ReconnectStop
