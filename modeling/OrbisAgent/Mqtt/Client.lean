/- OrbisAgent/Mqtt/Client
   source: src/mqtt/MQTTClient.hpp, src/mqtt/MQTTClient.cpp
   digest: MQTTClientWrapper as a step system: connect, reconnectLoop, the connection-lost
   callback, subscribe, disconnect and the destructor, between their accesses to shared state. -/

import OrbisAgent.Lib.Transition
import Mathlib.Logic.Function.Basic

set_option autoImplicit false
set_option relaxedAutoImplicit false

namespace OrbisAgent.Mqtt.Client

universe u

/-- Who runs the common code around `MQTTClient_connect`. -/
inductive Caller
  | connect
  | reconnectLoop
  deriving DecidableEq

abbrev Subscription := String × Int

/-- Where a thread is. Each constructor stands before one access to the shared
state, and `returned` is the end of every function. -/
inductive Pc
  | idle
  | returned
  /-- Before `MQTTClient_connect`. -/
  | connecting (caller : Caller)
  /-- `MQTTClient_connect` succeeded; before `connected_ = true`. -/
  | succeeded (caller : Caller)
  /-- Before taking `sub_mutex_`. -/
  | flagged (caller : Caller)
  /-- Holding `sub_mutex_`, with the subscriptions not renewed yet. -/
  | walking (caller : Caller) (rest : List Subscription)
  /-- Before `connected_callback_`. -/
  | notifying (caller : Caller)
  /-- The loop test of `reconnectLoop`, first and second half. -/
  | testShutdown
  | testConnected
  | sleeping
  /-- In `onConnectionLost`, before `connected_ = false`. -/
  | lost
  /-- In `onConnectionLost`, before the test of `shutdown_`. -/
  | cleared
  /-- In `subscribe`, before the registration under `sub_mutex_`. -/
  | registering (sub : Subscription)
  /-- In `subscribe`, the two halves of `isConnected()`. -/
  | checkFlag (sub : Subscription)
  | checkLink (sub : Subscription)
  /-- Before `MQTTClient_subscribe`. -/
  | subscribing (sub : Subscription)
  /-- In `disconnect`, which the destructor also calls: the test of `connected_`,
  then `MQTTClient_disconnect`, then `connected_ = false`. -/
  | disconnecting (destructor : Bool)
  | closing (destructor : Bool)
  | clearing (destructor : Bool)
  /-- In the destructor, before `MQTTClient_destroy`. -/
  | destroying
  deriving DecidableEq

/-- The wrapper, the link, and the broker's session. The last four fields are
records: whether a connect has succeeded, whether `disconnect()` was called, the
callback thread of the latest loss, and whether the handle was destroyed. -/
structure Wrapper (ι : Type u) where
  threads : ι → Pc
  linkUp : Bool
  session : List Subscription
  connected : Bool
  shutdown : Bool
  subscriptions : List Subscription
  subOwner : Option ι
  everConnected : Bool
  disconnectCalled : Bool
  lastLoss : Option ι
  destroyed : Bool

variable {ι : Type u}

def Wrapper.start : Wrapper ι :=
  ⟨fun _ => .idle, false, [], false, false, [], none, false, false, none, false⟩

/-- A subscription replaces an earlier one of the same topic at the broker. -/
def subscribeAt (session : List Subscription) (sub : Subscription) : List Subscription :=
  session.filter (fun old => old.1 != sub.1) ++ [sub]

/-- The registration in `subscriptions_`: the first one of a topic stays. -/
def register (subscriptions : List Subscription) (sub : Subscription) : List Subscription :=
  if subscriptions.any fun old => old.1 == sub.1 then subscriptions else subscriptions ++ [sub]

inductive Act (ι : Type u)
  | callConnect (i : ι)
  | connect (i : ι) (ok : Bool)
  | setFlag (i : ι)
  | lockSubs (i : ι)
  | resubscribe (i : ι) (ok : Bool)
  | unlockSubs (i : ι)
  | notify (i : ι)
  | testShutdown (i : ι)
  | testConnected (i : ι)
  | wake (i : ι)
  /-- The link breaks, and Paho starts the callback in thread `j`. -/
  | lose (j : ι)
  | clear (i : ι)
  /-- The callback spawns the reconnect thread `k`, or does not on shutdown. -/
  | spawn (i k : ι)
  | callSubscribe (i : ι) (sub : Subscription)
  | register (i : ι)
  | checkFlag (i : ι)
  | checkLink (i : ι)
  | subscribe (i : ι) (ok : Bool)
  | callDisconnect (i : ι)
  | callDestructor (i : ι)
  | testDisconnect (i : ι)
  | closeLink (i : ι)
  | clearFlag (i : ι)
  | destroy (i : ι)
  deriving DecidableEq

variable [DecidableEq ι]

def Wrapper.setThread (s : Wrapper ι) (i : ι) (pc : Pc) : Wrapper ι :=
  { s with threads := Function.update s.threads i pc }

@[simp] theorem setThread_same (s : Wrapper ι) (i : ι) (pc : Pc) :
    (s.setThread i pc).threads i = pc := by
  simp [Wrapper.setThread]

@[simp] theorem setThread_other (s : Wrapper ι) {i j : ι} (pc : Pc) (h : j ≠ i) :
    (s.setThread i pc).threads j = s.threads j := by
  simp [Wrapper.setThread, h]

/-- After a failed `MQTTClient_connect`: connect() returns, the loop tests again. -/
def afterFailure : Caller → Pc
  | .connect => .returned
  | .reconnectLoop => .testShutdown

/-- After the body of `disconnect`, which the destructor goes on from. -/
def afterDisconnect (destructor : Bool) : Pc := if destructor then .destroying else .returned

def step (s : Wrapper ι) : Act ι → Option (Wrapper ι)
  | .callConnect i =>
      if s.threads i = .idle then some (s.setThread i (.connecting .connect)) else none
  | .connect i ok =>
      match s.threads i with
      | .connecting caller =>
          if ok then
            -- a clean session starts without subscriptions
            some (Wrapper.setThread { s with linkUp := true, session := [], everConnected := true }
              i (.succeeded caller))
          else some (s.setThread i (afterFailure caller))
      | _ => none
  | .setFlag i =>
      match s.threads i with
      | .succeeded caller =>
          some (Wrapper.setThread { s with connected := true } i (.flagged caller))
      | _ => none
  | .lockSubs i =>
      match s.threads i, s.subOwner with
      | .flagged caller, none =>
          some (Wrapper.setThread { s with subOwner := some i } i (.walking caller s.subscriptions))
      | _, _ => none
  | .resubscribe i ok =>
      match s.threads i with
      | .walking caller (sub :: rest) =>
          let session := if s.linkUp && ok then subscribeAt s.session sub else s.session
          some (Wrapper.setThread { s with session := session } i (.walking caller rest))
      | _ => none
  | .unlockSubs i =>
      match s.threads i with
      | .walking caller [] =>
          some (Wrapper.setThread { s with subOwner := none } i (.notifying caller))
      | _ => none
  | .notify i =>
      match s.threads i with
      | .notifying _ => some (s.setThread i .returned)
      | _ => none
  | .testShutdown i =>
      match s.threads i with
      | .testShutdown => some (s.setThread i (if s.shutdown then .returned else .testConnected))
      | _ => none
  | .testConnected i =>
      match s.threads i with
      | .testConnected => some (s.setThread i (if s.connected then .returned else .sleeping))
      | _ => none
  | .wake i =>
      match s.threads i with
      | .sleeping =>
          some (s.setThread i (if s.shutdown then .returned else .connecting .reconnectLoop))
      | _ => none
  | .lose j =>
      if s.linkUp = true ∧ s.threads j = .idle then
        some (Wrapper.setThread { s with linkUp := false, lastLoss := some j } j .lost)
      else none
  | .clear i =>
      match s.threads i with
      | .lost => some (Wrapper.setThread { s with connected := false } i .cleared)
      | _ => none
  | .spawn i k =>
      match s.threads i with
      | .cleared =>
          if s.shutdown then some (s.setThread i .returned)
          else if s.threads k = .idle then
            some ((s.setThread i .returned).setThread k .testShutdown)
          else none
      | _ => none
  | .callSubscribe i sub =>
      if s.threads i = .idle then some (s.setThread i (.registering sub)) else none
  | .register i =>
      match s.threads i, s.subOwner with
      | .registering sub, none => some (Wrapper.setThread
          { s with subscriptions := register s.subscriptions sub } i (.checkFlag sub))
      | _, _ => none
  | .checkFlag i =>
      match s.threads i with
      | .checkFlag sub => some (s.setThread i (if s.connected then .checkLink sub else .returned))
      | _ => none
  | .checkLink i =>
      match s.threads i with
      | .checkLink sub => some (s.setThread i (if s.linkUp then .subscribing sub else .returned))
      | _ => none
  | .subscribe i ok =>
      match s.threads i with
      | .subscribing sub =>
          let session := if s.linkUp && ok then subscribeAt s.session sub else s.session
          some (Wrapper.setThread { s with session := session } i .returned)
      | _ => none
  | .callDisconnect i =>
      if s.threads i = .idle then
        some (Wrapper.setThread { s with disconnectCalled := true } i (.disconnecting false))
      else none
  | .callDestructor i =>
      if s.threads i = .idle then
        some (Wrapper.setThread { s with shutdown := true } i (.disconnecting true))
      else none
  | .testDisconnect i =>
      match s.threads i with
      | .disconnecting destructor =>
          some (s.setThread i (if s.connected then .closing destructor
            else afterDisconnect destructor))
      | _ => none
  | .closeLink i =>
      match s.threads i with
      | .closing destructor =>
          some (Wrapper.setThread { s with linkUp := false } i (.clearing destructor))
      | _ => none
  | .clearFlag i =>
      match s.threads i with
      | .clearing destructor =>
          some (Wrapper.setThread { s with connected := false } i (afterDisconnect destructor))
      | _ => none
  | .destroy i =>
      match s.threads i with
      | .destroying => some (Wrapper.setThread { s with destroyed := true } i .returned)
      | _ => none

/-- The steps, one constructor for each outcome, with what each needs. -/
inductive Moves (s : Wrapper ι) : Act ι → Wrapper ι → Prop
  | callConnect (i : ι) (here : s.threads i = .idle) :
      Moves s (.callConnect i) (s.setThread i (.connecting .connect))
  | connectOk (i : ι) (caller : Caller) (here : s.threads i = .connecting caller) :
      Moves s (.connect i true)
        (Wrapper.setThread { s with linkUp := true, session := [], everConnected := true } i
          (.succeeded caller))
  | connectFailed (i : ι) (caller : Caller) (here : s.threads i = .connecting caller) :
      Moves s (.connect i false) (s.setThread i (afterFailure caller))
  | setFlag (i : ι) (caller : Caller) (here : s.threads i = .succeeded caller) :
      Moves s (.setFlag i) (Wrapper.setThread { s with connected := true } i (.flagged caller))
  | lockSubs (i : ι) (caller : Caller) (here : s.threads i = .flagged caller)
      (free : s.subOwner = none) : Moves s (.lockSubs i)
        (Wrapper.setThread { s with subOwner := some i } i (.walking caller s.subscriptions))
  | resubscribe (i : ι) (ok : Bool) (caller : Caller) (sub : Subscription)
      (rest : List Subscription) (here : s.threads i = .walking caller (sub :: rest)) :
      Moves s (.resubscribe i ok)
        (Wrapper.setThread { s with
          session := if s.linkUp && ok then subscribeAt s.session sub else s.session } i
          (.walking caller rest))
  | unlockSubs (i : ι) (caller : Caller) (here : s.threads i = .walking caller []) :
      Moves s (.unlockSubs i) (Wrapper.setThread { s with subOwner := none } i (.notifying caller))
  | notify (i : ι) (caller : Caller) (here : s.threads i = .notifying caller) :
      Moves s (.notify i) (s.setThread i .returned)
  | testShutdown (i : ι) (here : s.threads i = .testShutdown) : Moves s (.testShutdown i)
      (s.setThread i (if s.shutdown then .returned else .testConnected))
  | testConnected (i : ι) (here : s.threads i = .testConnected) : Moves s (.testConnected i)
      (s.setThread i (if s.connected then .returned else .sleeping))
  | wake (i : ι) (here : s.threads i = .sleeping) : Moves s (.wake i)
      (s.setThread i (if s.shutdown then .returned else .connecting .reconnectLoop))
  | lose (j : ι) (here : s.threads j = .idle) (up : s.linkUp = true) : Moves s (.lose j)
      (Wrapper.setThread { s with linkUp := false, lastLoss := some j } j .lost)
  | clear (i : ι) (here : s.threads i = .lost) :
      Moves s (.clear i) (Wrapper.setThread { s with connected := false } i .cleared)
  | noSpawn (i k : ι) (here : s.threads i = .cleared) (stopping : s.shutdown = true) :
      Moves s (.spawn i k) (s.setThread i .returned)
  | spawn (i k : ι) (here : s.threads i = .cleared) (running : s.shutdown = false)
      (fresh : s.threads k = .idle) :
      Moves s (.spawn i k) ((s.setThread i .returned).setThread k .testShutdown)
  | callSubscribe (i : ι) (sub : Subscription) (here : s.threads i = .idle) :
      Moves s (.callSubscribe i sub) (s.setThread i (.registering sub))
  | register (i : ι) (sub : Subscription) (here : s.threads i = .registering sub)
      (free : s.subOwner = none) : Moves s (.register i)
        (Wrapper.setThread { s with subscriptions := register s.subscriptions sub } i
          (.checkFlag sub))
  | checkFlag (i : ι) (sub : Subscription) (here : s.threads i = .checkFlag sub) :
      Moves s (.checkFlag i) (s.setThread i (if s.connected then .checkLink sub else .returned))
  | checkLink (i : ι) (sub : Subscription) (here : s.threads i = .checkLink sub) :
      Moves s (.checkLink i) (s.setThread i (if s.linkUp then .subscribing sub else .returned))
  | subscribe (i : ι) (ok : Bool) (sub : Subscription) (here : s.threads i = .subscribing sub) :
      Moves s (.subscribe i ok)
        (Wrapper.setThread { s with
          session := if s.linkUp && ok then subscribeAt s.session sub else s.session } i .returned)
  | callDisconnect (i : ι) (here : s.threads i = .idle) : Moves s (.callDisconnect i)
      (Wrapper.setThread { s with disconnectCalled := true } i (.disconnecting false))
  | callDestructor (i : ι) (here : s.threads i = .idle) : Moves s (.callDestructor i)
      (Wrapper.setThread { s with shutdown := true } i (.disconnecting true))
  | testDisconnect (i : ι) (destructor : Bool) (here : s.threads i = .disconnecting destructor) :
      Moves s (.testDisconnect i) (s.setThread i (if s.connected then .closing destructor
        else afterDisconnect destructor))
  | closeLink (i : ι) (destructor : Bool) (here : s.threads i = .closing destructor) :
      Moves s (.closeLink i) (Wrapper.setThread { s with linkUp := false } i (.clearing destructor))
  | clearFlag (i : ι) (destructor : Bool) (here : s.threads i = .clearing destructor) :
      Moves s (.clearFlag i)
        (Wrapper.setThread { s with connected := false } i (afterDisconnect destructor))
  | destroy (i : ι) (here : s.threads i = .destroying) :
      Moves s (.destroy i) (Wrapper.setThread { s with destroyed := true } i .returned)

theorem moves_of_step {s s' : Wrapper ι} {a : Act ι} (move : step s a = some s') :
    Moves s a s' := by
  cases a <;> simp only [step] at move
  case connect i ok =>
    split at move
    · split at move
      · rename_i yes
        subst yes
        cases move
        exact .connectOk i _ ‹_›
      · rename_i no
        obtain rfl := Bool.eq_false_iff.mpr no
        cases move
        exact .connectFailed i _ ‹_›
    · cases move
  case lose j =>
    split at move <;> cases move
    rename_i ready
    exact .lose j ready.2 ready.1
  case spawn i k =>
    split at move
    · split at move
      · cases move
        exact .noSpawn i k ‹_› ‹_›
      · split at move <;> cases move
        exact .spawn i k ‹_› (Bool.eq_false_iff.mpr ‹_›) ‹_›
    · cases move
  case callConnect i =>
    split at move <;> cases move
    exact .callConnect i ‹_›
  case setFlag i =>
    split at move <;> cases move
    exact .setFlag i _ ‹_›
  case lockSubs i =>
    split at move <;> cases move
    exact .lockSubs i _ ‹_› ‹_›
  case resubscribe i ok =>
    split at move <;> cases move
    exact .resubscribe i ok _ _ _ ‹_›
  case unlockSubs i =>
    split at move <;> cases move
    exact .unlockSubs i _ ‹_›
  case notify i =>
    split at move <;> cases move
    exact .notify i _ ‹_›
  case testShutdown i =>
    split at move <;> cases move
    exact .testShutdown i ‹_›
  case testConnected i =>
    split at move <;> cases move
    exact .testConnected i ‹_›
  case wake i =>
    split at move <;> cases move
    exact .wake i ‹_›
  case clear i =>
    split at move <;> cases move
    exact .clear i ‹_›
  case callSubscribe i sub =>
    split at move <;> cases move
    exact .callSubscribe i sub ‹_›
  case register i =>
    split at move <;> cases move
    exact .register i _ ‹_› ‹_›
  case checkFlag i =>
    split at move <;> cases move
    exact .checkFlag i _ ‹_›
  case checkLink i =>
    split at move <;> cases move
    exact .checkLink i _ ‹_›
  case subscribe i ok =>
    split at move <;> cases move
    exact .subscribe i ok _ ‹_›
  case callDisconnect i =>
    split at move <;> cases move
    exact .callDisconnect i ‹_›
  case callDestructor i =>
    split at move <;> cases move
    exact .callDestructor i ‹_›
  case testDisconnect i =>
    split at move <;> cases move
    exact .testDisconnect i _ ‹_›
  case closeLink i =>
    split at move <;> cases move
    exact .closeLink i _ ‹_›
  case clearFlag i =>
    split at move <;> cases move
    exact .clearFlag i _ ‹_›
  case destroy i =>
    split at move <;> cases move
    exact .destroy i ‹_›

end OrbisAgent.Mqtt.Client
