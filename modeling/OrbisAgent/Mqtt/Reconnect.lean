/- OrbisAgent/Mqtt/Reconnect
   source: MQTTClientWrapper::connect, onConnectionLost, reconnectLoop
   digest: A lost connection keeps a thread that will connect again, as long as no loss is
   reported between a successful connect and the write of connected_. -/

import OrbisAgent.Mqtt.Client
import Mathlib.Data.Fintype.Basic

set_option autoImplicit false
set_option relaxedAutoImplicit false

namespace OrbisAgent.Mqtt.Reconnect

open OrbisAgent.Lib.Transition
open OrbisAgent.Mqtt.Client

universe u

variable {ι : Type u}

/-- Inside `reconnectLoop`, and not past a successful connect. -/
def retrying : Pc → Bool
  | .testShutdown | .testConnected | .sleeping | .connecting .reconnectLoop => true
  | _ => false

/-- Between the success of `MQTTClient_connect` and `connected_ = true`. -/
def inWindow : Pc → Bool
  | .succeeded _ => true
  | _ => false

/-- In `disconnect`, before `MQTTClient_disconnect`. -/
def stopping : Pc → Bool
  | .disconnecting _ | .closing _ => true
  | _ => false

/-- In the connection-lost callback, or at the end of some function. -/
def afterLoss : Pc → Bool
  | .lost | .cleared | .returned => true
  | _ => false

/-- With `shutdown_` false, thread `k` goes on to `MQTTClient_connect`: it is past
the tests of the loop, or the flag it tests is false. -/
def GoingToConnect (s : Wrapper ι) (k : ι) : Prop :=
  match s.threads k with
  | .sleeping | .connecting .reconnectLoop => True
  | .testShutdown | .testConnected => s.connected = false
  | _ => False

/-- The latest loss is a callback that has returned. -/
def CallbackDone (s : Wrapper ι) : Prop := ∃ j, s.lastLoss = some j ∧ s.threads j = .returned

/-- A lost connection is not left without a reconnection attempt. -/
def NotAbandoned (s : Wrapper ι) : Prop :=
  s.shutdown = false → s.everConnected = true → s.disconnectCalled = false → s.linkUp = false →
    CallbackDone s → ∃ k, GoingToConnect s k

/-- The callback of the latest loss does not clear `connected_` while a thread is
between its successful connect and its write of `connected_`. -/
def ClearsOutsideWindow (s : Wrapper ι) (a : Act ι) : Prop :=
  ∀ j, a = .clear j → s.lastLoss = some j → s.linkUp = false → ∀ i, inWindow (s.threads i) = false

instance [DecidableEq ι] [Fintype ι] (s : Wrapper ι) (a : Act ι) :
    Decidable (ClearsOutsideWindow s a) :=
  inferInstanceAs (Decidable (∀ j, a = .clear j → s.lastLoss = some j → s.linkUp = false →
    ∀ i, inWindow (s.threads i) = false))

/-- A thread that disconnects was told to: the owner gave up the connection. -/
def StopsOnRequest (s : Wrapper ι) : Prop :=
  ∀ i, stopping (s.threads i) = true → s.disconnectCalled = true ∨ s.shutdown = true

/-- The state that the callback of the latest loss leaves, from its write of
`connected_` on: the flag is false and stays so, and a retry is coming. -/
structure Retries (s : Wrapper ι) (j : ι) : Prop where
  flag : s.connected = false
  noWindow : ∀ i, inWindow (s.threads i) = false
  coming : s.threads j = .cleared ∨ (s.threads j = .returned ∧ ∃ k, retrying (s.threads k) = true)

/-- While the connection is lost and wanted, its latest loss is being handled. -/
def Covered (s : Wrapper ι) : Prop :=
  s.shutdown = false → s.everConnected = true → s.disconnectCalled = false → s.linkUp = false →
    ∃ j, s.lastLoss = some j ∧ (s.threads j = .lost ∨ Retries s j)

theorem retrying_cases {pc : Pc} (going : retrying pc = true) :
    pc = .testShutdown ∨ pc = .testConnected ∨ pc = .sleeping ∨
      pc = .connecting .reconnectLoop := by
  cases pc with
  | connecting caller => cases caller <;> simp_all [retrying]
  | _ => simp_all [retrying]

theorem notAbandoned_of_covered {s : Wrapper ι} (covered : Covered s) : NotAbandoned s := by
  rintro running ever wanted down ⟨j, latest, done⟩
  obtain ⟨j', latest', handled⟩ := covered running ever wanted down
  obtain rfl : j = j' := Option.some.inj (latest.symm.trans latest')
  rcases handled with started | retries
  · rw [done] at started
    cases started
  · rcases retries.coming with early | ⟨_, k, going⟩
    · rw [done] at early
      cases early
    · refine ⟨k, ?_⟩
      unfold GoingToConnect
      rcases retrying_cases going with here | here | here | here <;> rw [here]
      · exact retries.flag
      · exact retries.flag
      · trivial
      · trivial

variable [DecidableEq ι]

private theorem stops_frame {s s' : Wrapper ι} {i : ι} {q : Pc} (before : StopsOnRequest s)
    (threads : s'.threads = Function.update s.threads i q)
    (called : s.disconnectCalled = true → s'.disconnectCalled = true)
    (shut : s.shutdown = true → s'.shutdown = true)
    (told : stopping q = true → s'.disconnectCalled = true ∨ s'.shutdown = true) :
    StopsOnRequest s' := by
  intro j stops
  rw [threads] at stops
  by_cases same : j = i
  · subst same
    rw [Function.update_self] at stops
    exact told stops
  · rw [Function.update_of_ne same] at stops
    exact (before j stops).imp called shut

private theorem stops_step {s s' : Wrapper ι} {a : Act ι} (before : StopsOnRequest s)
    (move : Moves s a s') : StopsOnRequest s' := by
  have told : ∀ {q : Pc} {r : Wrapper ι}, stopping q = false → stopping q = true →
      r.disconnectCalled = true ∨ r.shutdown = true := by
    intro q r no yes
    rw [no] at yes
    cases yes
  cases move with
  | callDisconnect i here => exact stops_frame before rfl (fun _ => rfl) id fun _ => .inl rfl
  | callDestructor i here => exact stops_frame before rfl id (fun _ => rfl) fun _ => .inr rfl
  | testDisconnect i destructor here =>
      have asked := before i (by rw [here]; rfl)
      exact stops_frame before rfl id id fun _ => asked
  | clearFlag i destructor here =>
      exact stops_frame before rfl id id (told (by unfold afterDisconnect; split <;> rfl))
  | connectFailed i caller here =>
      exact stops_frame before rfl id id (told (by cases caller <;> rfl))
  | testShutdown | testConnected | wake | checkFlag | checkLink =>
      exact stops_frame before rfl id id (told (by split <;> rfl))
  | spawn i k here running fresh =>
      have first : StopsOnRequest (s.setThread i .returned) :=
        stops_frame before rfl id id (told rfl)
      exact stops_frame first rfl id id (told rfl)
  | callConnect | connectOk | setFlag | lockSubs | resubscribe | unlockSubs | notify | lose | clear
  | noSpawn | callSubscribe | register | subscribe | closeLink | destroy =>
      exact stops_frame before rfl id id (told rfl)

/-- The part of the state that `Covered` reads besides the threads. -/
private theorem covered_frame {s s' : Wrapper ι} {i : ι} {q : Pc} (before : Covered s)
    (threads : s'.threads = Function.update s.threads i q) (shut : s'.shutdown = s.shutdown)
    (ever : s'.everConnected = s.everConnected) (called : s'.disconnectCalled = s.disconnectCalled)
    (link : s'.linkUp = s.linkUp) (latest : s'.lastLoss = s.lastLoss)
    (flag : s.connected = false → s'.connected = false)
    (other : afterLoss (s.threads i) = false) (outside : inWindow q = false)
    (goesOn : retrying (s.threads i) = true → s.connected = false → s.shutdown = false →
      retrying q = true) : Covered s' := by
  intro running reached wanted down
  rw [shut] at running
  rw [ever] at reached
  rw [called] at wanted
  rw [link] at down
  obtain ⟨j, loss, handled⟩ := before running reached wanted down
  have apart : ∀ {k}, afterLoss (s.threads k) = true → s'.threads k = s.threads k := by
    intro k yes
    have ne : k ≠ i := by
      rintro rfl
      rw [other] at yes
      cases yes
    rw [threads, Function.update_of_ne ne]
  refine ⟨j, latest.trans loss, ?_⟩
  rcases handled with started | retries
  · exact .inl ((apart (by rw [started]; rfl)).trans started)
  · refine .inr ⟨flag retries.flag, fun k => ?_, ?_⟩
    · by_cases same : k = i
      · subst same
        rw [threads, Function.update_self]
        exact outside
      · rw [threads, Function.update_of_ne same]
        exact retries.noWindow k
    · rcases retries.coming with early | ⟨done, k, going⟩
      · exact .inl ((apart (by rw [early]; rfl)).trans early)
      · refine .inr ⟨(apart (by rw [done]; rfl)).trans done, ?_⟩
        by_cases same : k = i
        · subst same
          refine ⟨k, ?_⟩
          rw [threads, Function.update_self]
          exact goesOn going retries.flag running
        · refine ⟨k, ?_⟩
          rw [threads, Function.update_of_ne same]
          exact going

/-- The callback of a loss clears the flag. -/
private theorem covered_clear {s : Wrapper ι} {i : ι} (before : Covered s)
    (guard : ClearsOutsideWindow s (.clear i)) (here : s.threads i = .lost) :
    Covered (Wrapper.setThread { s with connected := false } i .cleared) := by
  intro running ever wanted down
  obtain ⟨j, latest, handled⟩ := before running ever wanted down
  refine ⟨j, latest, ?_⟩
  by_cases same : j = i
  · subst same
    refine .inr ⟨rfl, fun k => ?_, .inl (setThread_same _ j _)⟩
    by_cases mine : k = j
    · subst mine
      rw [setThread_same]
      rfl
    · rw [setThread_other _ _ mine]
      exact guard j rfl latest down k
  · rcases handled with started | retries
    · refine .inl ?_
      rw [setThread_other _ _ same]
      exact started
    · -- the callback of an older loss, late
      refine .inr ⟨rfl, fun k => ?_, ?_⟩
      · by_cases mine : k = i
        · subst mine
          rw [setThread_same]
          rfl
        · rw [setThread_other _ _ mine]
          exact retries.noWindow k
      · rw [setThread_other _ _ same]
        rcases retries.coming with early | ⟨done, k, going⟩
        · exact .inl early
        · have ne : k ≠ i := by
            rintro rfl
            rw [here] at going
            cases going
          refine .inr ⟨done, k, ?_⟩
          rw [setThread_other _ _ ne]
          exact going

/-- A callback spawns its reconnect thread. -/
private theorem covered_spawn {s : Wrapper ι} {i k : ι} (before : Covered s)
    (here : s.threads i = .cleared) (fresh : s.threads k = .idle) :
    Covered ((s.setThread i .returned).setThread k .testShutdown) := by
  have apart : i ≠ k := by
    rintro rfl
    rw [here] at fresh
    cases fresh
  have spawned : ((s.setThread i .returned).setThread k .testShutdown).threads k = .testShutdown :=
    setThread_same _ k _
  have others : ∀ {m : ι}, m ≠ i → m ≠ k →
      ((s.setThread i .returned).setThread k .testShutdown).threads m = s.threads m := by
    intro m first second
    rw [setThread_other _ _ second, setThread_other _ _ first]
  have callback : ((s.setThread i .returned).setThread k .testShutdown).threads i = .returned := by
    rw [setThread_other _ _ apart, setThread_same]
  intro running ever wanted down
  obtain ⟨j, latest, handled⟩ := before running ever wanted down
  have notFresh : ∀ {m : ι}, s.threads m ≠ .idle → m ≠ k := by
    rintro m busy rfl
    exact busy fresh
  refine ⟨j, latest, ?_⟩
  rcases handled with started | retries
  · have ne : j ≠ i := by
      rintro rfl
      rw [here] at started
      cases started
    refine .inl ?_
    rw [others ne (notFresh (by rw [started]; exact nofun))]
    exact started
  · have going :
        retrying (((s.setThread i .returned).setThread k .testShutdown).threads k) = true := by
      rw [spawned]
      rfl
    refine .inr ⟨retries.flag, fun m => ?_, ?_⟩
    · by_cases first : m = i
      · subst first
        rw [callback]
        rfl
      · by_cases second : m = k
        · subst second
          rw [spawned]
          rfl
        · rw [others first second]
          exact retries.noWindow m
    · by_cases same : j = i
      · subst same
        exact .inr ⟨callback, k, going⟩
      · rcases retries.coming with early | ⟨done, _⟩
        · refine .inl ?_
          rw [others same (notFresh (by rw [early]; exact nofun))]
          exact early
        · refine .inr ⟨?_, k, going⟩
          rw [others same (notFresh (by rw [done]; exact nofun))]
          exact done

private theorem covered_setFlag {s : Wrapper ι} {i : ι} {caller : Caller} (before : Covered s)
    (here : s.threads i = .succeeded caller) :
    Covered (Wrapper.setThread { s with connected := true } i (.flagged caller)) := by
  intro running ever wanted down
  obtain ⟨j, latest, handled⟩ := before running ever wanted down
  rcases handled with started | retries
  · have ne : j ≠ i := by
      rintro rfl
      rw [here] at started
      cases started
    refine ⟨j, latest, .inl ?_⟩
    rw [setThread_other _ _ ne]
    exact started
  · have outside := retries.noWindow i
    rw [here] at outside
    cases outside

private theorem covered_step {s s' : Wrapper ι} {a : Act ι} (before : Covered s)
    (told : StopsOnRequest s) (guard : ClearsOutsideWindow s a) (move : Moves s a s') :
    Covered s' := by
  cases move with
  | connectOk i caller here =>
      intro _ _ _ down
      cases down
  | callDisconnect i here =>
      intro _ _ wanted
      cases wanted
  | callDestructor i here =>
      intro running
      cases running
  | noSpawn i k here stopping =>
      intro running
      have stopped : s.shutdown = false := running
      rw [stopping] at stopped
      cases stopped
  | closeLink i destructor here =>
      intro running _ wanted
      have running' : s.shutdown = false := running
      have wanted' : s.disconnectCalled = false := wanted
      rcases told i (by rw [here]; rfl) with asked | asked
      · rw [wanted'] at asked
        cases asked
      · rw [running'] at asked
        cases asked
  | lose j here up =>
      exact fun _ _ _ _ => ⟨j, rfl, .inl (setThread_same _ j _)⟩
  | clear i here => exact covered_clear before guard here
  | spawn i k here running fresh => exact covered_spawn before here fresh
  | setFlag i caller here => exact covered_setFlag before here
  | connectFailed i caller here =>
      refine covered_frame before rfl rfl rfl rfl rfl rfl id (by rw [here]; rfl)
        (by cases caller <;> rfl) fun going _ _ => ?_
      rw [here] at going
      cases caller
      · cases going
      · rfl
  | testShutdown i here =>
      refine covered_frame before rfl rfl rfl rfl rfl rfl id (by rw [here]; rfl)
        (by split <;> rfl) fun _ _ running => ?_
      rw [running]
      rfl
  | testConnected i here =>
      refine covered_frame before rfl rfl rfl rfl rfl rfl id (by rw [here]; rfl)
        (by split <;> rfl) fun _ flag _ => ?_
      rw [flag]
      rfl
  | wake i here =>
      refine covered_frame before rfl rfl rfl rfl rfl rfl id (by rw [here]; rfl)
        (by split <;> rfl) fun _ _ running => ?_
      rw [running]
      rfl
  | clearFlag i destructor here =>
      refine covered_frame before rfl rfl rfl rfl rfl rfl (fun _ => rfl) (by rw [here]; rfl)
        (by unfold afterDisconnect; split <;> rfl) fun going _ _ => ?_
      rw [here] at going
      cases going
  | testDisconnect i destructor here =>
      refine covered_frame before rfl rfl rfl rfl rfl rfl id (by rw [here]; rfl)
        (by unfold afterDisconnect; split <;> [rfl; split <;> rfl]) fun going _ _ => ?_
      rw [here] at going
      cases going
  | checkFlag i sub here | checkLink i sub here =>
      refine covered_frame before rfl rfl rfl rfl rfl rfl id (by rw [here]; rfl)
        (by split <;> rfl) fun going _ _ => ?_
      rw [here] at going
      cases going
  | callConnect i here | lockSubs i _ here | resubscribe i _ _ _ _ here | unlockSubs i _ here
  | notify i _ here | callSubscribe i _ here | register i _ here | subscribe i _ _ here
  | destroy i here =>
      refine covered_frame before rfl rfl rfl rfl rfl rfl id (by rw [here]; rfl) rfl
        fun going _ _ => ?_
      rw [here] at going
      cases going

/-- In every run in which no loss is reported inside the window of a connecting
thread, a lost connection always has a thread that will connect again. -/
theorem retries_if_losses_cleared_outside_window {s : Wrapper ι}
    (run : Reaches step ClearsOutsideWindow Wrapper.start s) : NotAbandoned s := by
  have start : Covered (Wrapper.start : Wrapper ι) ∧
      StopsOnRequest (Wrapper.start : Wrapper ι) := by
    refine ⟨fun _ ever => ?_, fun i stops => ?_⟩
    · cases ever
    · cases stops
  have both := run.invariant (I := fun r => Covered r ∧ StopsOnRequest r) start ?_
  · exact notAbandoned_of_covered both.1
  · intro r r' a before guard move
    have moves := moves_of_step move
    exact ⟨covered_step before.1 before.2 guard moves, stops_step before.2 moves⟩

/-- A connect, a loss that the callback handles after the flag was set, and the
reconnect thread asleep. -/
theorem retries_after_a_loss :
    ∃ s : Wrapper (Fin 3), Reaches step ClearsOutsideWindow Wrapper.start s ∧ s.linkUp = false ∧
      s.lastLoss = some 1 ∧ s.threads 1 = .returned ∧ s.threads 2 = .sleeping ∧ NotAbandoned s := by
  let run : List (Act (Fin 3)) :=
    [.callConnect 0, .connect 0 true, .setFlag 0, .lockSubs 0, .unlockSubs 0, .lose 1, .clear 1,
      .spawn 1 2, .testShutdown 2, .testConnected 2]
  have reached : ∃ s, exec (guarded step ClearsOutsideWindow) Wrapper.start run = some s ∧
      s.linkUp = false ∧ s.lastLoss = some 1 ∧ s.threads 1 = .returned ∧
      s.threads 2 = .sleeping := ⟨_, rfl, rfl, rfl, rfl, rfl⟩
  obtain ⟨s, replay, down, latest, returned, asleep⟩ := reached
  have path := exec_guarded_reaches replay
  exact ⟨s, path, down, latest, returned, asleep, retries_if_losses_cleared_outside_window path⟩

/-- The loss falls between the success of `MQTTClient_connect` and the write of
`connected_`: the flag ends up true, the reconnect thread leaves its loop, and no
thread is left. -/
theorem loss_in_the_window_is_abandoned :
    ∃ s : Wrapper (Fin 3), Reaches step anyStep Wrapper.start s ∧
      (∀ i, s.threads i = .returned) ∧ s.linkUp = false ∧ s.connected = true ∧
      ¬ NotAbandoned s := by
  let run : List (Act (Fin 3)) :=
    [.callConnect 0, .connect 0 true, .lose 1, .clear 1, .setFlag 0, .spawn 1 2, .testShutdown 2,
      .testConnected 2, .lockSubs 0, .unlockSubs 0, .notify 0]
  have reached : ∃ s, exec step (Wrapper.start : Wrapper (Fin 3)) run = some s ∧
      (∀ i, s.threads i = .returned) ∧ s.shutdown = false ∧ s.everConnected = true ∧
      s.disconnectCalled = false ∧ s.linkUp = false ∧ s.connected = true ∧
      s.lastLoss = some 1 :=
    ⟨_, rfl, by decide, rfl, rfl, rfl, rfl, rfl, rfl⟩
  obtain ⟨s, replay, idle, running, ever, wanted, down, flag, latest⟩ := reached
  refine ⟨s, exec_reaches_any replay, idle, down, flag, fun covered => ?_⟩
  obtain ⟨k, going⟩ := covered running ever wanted down ⟨1, latest, idle 1⟩
  unfold GoingToConnect at going
  rw [idle k] at going
  exact going

end OrbisAgent.Mqtt.Reconnect
