/- OrbisAgent/Mqtt/LogSink
   source: src/mqtt/MqttLogSink.hpp, MQTTClientWrapper::publish, main (sink attachment)
   digest: Loggers and publishers over the sink mutex and pub_mutex_, as stacks of frames. -/

import OrbisAgent.Lib.LockOrder
import OrbisAgent.Lib.Transition
import Mathlib.Data.List.Nodup
import Mathlib.Data.List.Chain
import Mathlib.Order.Lattice

set_option autoImplicit false
set_option relaxedAutoImplicit false

namespace OrbisAgent.Mqtt.LogSink

open OrbisAgent.Lib.Transition
open OrbisAgent.Lib.LockOrder (Deadlock deadlock_of_own deadlock_of_pair no_deadlock_of_order)

universe u

/-- The levels of spdlog, in increasing order. -/
inductive Level
  | trace | debug | info | warn | err | critical
  deriving DecidableEq

def Level.toNat : Level → Nat
  | .trace => 0
  | .debug => 1
  | .info => 2
  | .warn => 3
  | .err => 4
  | .critical => 5

/-- `mqtt_sink->set_level(spdlog::level::info)`: the logger skips the sink below INFO. -/
def shouldLog (lvl : Level) : Bool := decide (Level.info.toNat ≤ lvl.toNat)

/-- The mutex of the attached sink and `pub_mutex_` of the client. -/
inductive Mutex
  | sink | pub
  deriving DecidableEq

def Mutex.toNat : Mutex → Nat
  | .sink => 0
  | .pub => 1

instance : Preorder Mutex := Preorder.lift Mutex.toNat

/-- What one `publish()` meets: `isConnected()` false, a return code other than
MQTTCLIENT_SUCCESS, or an accepted message. -/
inductive LinkAnswer
  | notConnected
  | failed (rc : Int)
  | sent
  deriving DecidableEq

/-- The outside answers a step may read; `dumpThrows` is `j.dump()` on a record
whose text is not UTF-8. -/
structure Env where
  link : LinkAnswer
  dumpThrows : Bool
  deriving DecidableEq

/-- Points in `base_sink::log`, `sink_it_` and `publish()` between two steps. -/
inductive Frame
  /-- In `base_sink::log`, before its lock of the sink mutex. -/
  | logLock
  /-- At the recursion guard of `sink_it_`. -/
  | sinkIt
  /-- `in_publish_` is set and `publish_fn_` runs above this frame. -/
  | sinkPublish
  /-- `sink_it_` has returned and the sink mutex is about to be released. -/
  | sinkUnlock
  /-- In `publish()`, before its lock of `pub_mutex_`. -/
  | pubLock
  /-- At `isConnected()` and `MQTTClient_publishMessage`. -/
  | pubCheck
  /-- The failure is being logged above this frame. -/
  | pubLogging
  /-- `publish()` is about to release `pub_mutex_`. -/
  | pubUnlock
  deriving DecidableEq

/-- The mutex whose guard object lives in the frame. -/
def Frame.mutex : Frame → Option Mutex
  | .sinkIt | .sinkPublish | .sinkUnlock => some .sink
  | .pubCheck | .pubLogging | .pubUnlock => some .pub
  | .logLock | .pubLock => none

/-- A call of the logger: only records that pass the sink's level reach its lock. -/
def logCall (lvl : Level) (k : List Frame) : List Frame :=
  if shouldLog lvl then .logLock :: k else k

/-- What a step does to the state shared by the threads. -/
inductive Effect
  | silent
  | lock (m : Mutex)
  | unlock (m : Mutex)
  | setInPublish (b : Bool)

/-- One step of the thread whose call stack is given, top frame first. -/
def advance (env : Env) (inPublish : Bool) : List Frame → Option (Effect × List Frame)
  | [] => none
  | .logLock :: k => some (.lock .sink, .sinkIt :: k)
  | .sinkIt :: k =>
      if inPublish then some (.silent, .sinkUnlock :: k)
      -- the catch of sink_it_ puts the guard back before the mutex is released
      else if env.dumpThrows then some (.silent, .sinkUnlock :: k)
      else some (.setInPublish true, .pubLock :: .sinkPublish :: k)
  | .sinkPublish :: k => some (.setInPublish false, .sinkUnlock :: k)
  | .sinkUnlock :: k => some (.unlock .sink, k)
  | .pubLock :: k => some (.lock .pub, .pubCheck :: k)
  | .pubCheck :: k =>
      match env.link with
      | .sent => some (.silent, .pubUnlock :: k)
      | .notConnected => some (.silent, logCall .warn (.pubLogging :: k))
      | .failed _ => some (.silent, logCall .err (.pubLogging :: k))
  | .pubLogging :: k => some (.silent, .pubUnlock :: k)
  | .pubUnlock :: k => some (.unlock .pub, k)

/-- Any number of threads, the holders of the two mutexes, and `in_publish_`. -/
structure State (Tid : Type u) where
  stack : Tid → List Frame
  owner : Mutex → Option Tid
  inPublish : Bool

variable {Tid : Type u} [DecidableEq Tid]

def idle : State Tid := ⟨fun _ => [], fun _ => none, false⟩

def State.setStack (s : State Tid) (t : Tid) (k : List Frame) : State Tid :=
  { s with stack := Function.update s.stack t k }

/-- A lock is granted only while nobody holds the mutex, its own holder included. -/
def State.perform (s : State Tid) (t : Tid) : Effect → Option (State Tid)
  | .silent => some s
  | .lock m =>
      if s.owner m = none then some { s with owner := Function.update s.owner m (some t) }
      else none
  | .unlock m => some { s with owner := Function.update s.owner m none }
  | .setInPublish b => some { s with inPublish := b }

/-- A thread that runs neither may log or publish; one inside a call takes its next step. -/
inductive Act (Tid : Type u)
  | log (t : Tid) (lvl : Level)
  | publish (t : Tid)
  | step (t : Tid) (env : Env)

def step (s : State Tid) : Act Tid → Option (State Tid)
  | .log t lvl => if s.stack t = [] then some (s.setStack t (logCall lvl [])) else none
  | .publish t => if s.stack t = [] then some (s.setStack t [.pubLock]) else none
  | .step t env =>
      (advance env s.inPublish (s.stack t)).bind fun next =>
        (s.perform t next.1).map fun s' => s'.setStack t next.2

/-- The mutex a thread asks for in its next step. -/
def wants (s : State Tid) (t : Tid) : Option Mutex :=
  match s.stack t with
  | .logLock :: _ => some .sink
  | .pubLock :: _ => some .pub
  | _ => none

/-- Some thread waits for a mutex that it holds itself or along a cycle of waiters. -/
def Deadlocked (s : State Tid) : Prop := Deadlock (wants s) s.owner

/-- Every `publish()` that reaches the link finds it connected and is accepted. -/
def PublishSucceeds (s : State Tid) : Act Tid → Prop
  | .step t env => (s.stack t).head? = some .pubCheck → env.link = .sent
  | _ => True

instance (s : State Tid) (a : Act Tid) : Decidable (PublishSucceeds s a) :=
  match a with
  | .step t env => inferInstanceAs
      (Decidable ((s.stack t).head? = some Frame.pubCheck → env.link = .sent))
  | .log _ _ => inferInstanceAs (Decidable True)
  | .publish _ => inferInstanceAs (Decidable True)

@[simp] theorem setStack_same (s : State Tid) (t : Tid) (k : List Frame) :
    (s.setStack t k).stack t = k := by
  simp [State.setStack]

@[simp] theorem setStack_other (s : State Tid) {t u : Tid} (k : List Frame) (h : u ≠ t) :
    (s.setStack t k).stack u = s.stack u := by
  simp [State.setStack, h]

@[simp] theorem setStack_owner (s : State Tid) (t : Tid) (k : List Frame) :
    (s.setStack t k).owner = s.owner := rfl

@[simp] theorem setStack_inPublish (s : State Tid) (t : Tid) (k : List Frame) :
    (s.setStack t k).inPublish = s.inPublish := rfl

omit [DecidableEq Tid] in
private theorem perform_stack {s s' : State Tid} {t : Tid} {e : Effect}
    (h : s.perform t e = some s') : s'.stack = s.stack := by
  cases e with
  | silent => cases h; rfl
  | lock m =>
      simp only [State.perform] at h
      split at h
      · cases h; rfl
      · cases h
  | unlock m => cases h; rfl
  | setInPublish b => cases h; rfl

/-- What one step does: a thread outside every call starts one, or the stack of
one thread advances and its effect is performed. -/
theorem step_cases {s s' : State Tid} {a : Act Tid} (move : step s a = some s') :
    (∃ t lvl, a = .log t lvl ∧ s.stack t = [] ∧ s' = s.setStack t (logCall lvl [])) ∨
    (∃ t, a = .publish t ∧ s.stack t = [] ∧ s' = s.setStack t [.pubLock]) ∨
    (∃ t env e k r, a = .step t env ∧ advance env s.inPublish (s.stack t) = some (e, k) ∧
      s.perform t e = some r ∧ s' = r.setStack t k) := by
  cases a with
  | log t lvl =>
      simp only [step] at move
      split at move
      · exact .inl ⟨t, lvl, rfl, ‹_›, (Option.some.inj move).symm⟩
      · cases move
  | publish t =>
      simp only [step] at move
      split at move
      · exact .inr (.inl ⟨t, rfl, ‹_›, (Option.some.inj move).symm⟩)
      · cases move
  | step t env =>
      obtain ⟨⟨e, k⟩, next, rest⟩ := Option.bind_eq_some_iff.mp move
      obtain ⟨r, done, rfl⟩ := Option.map_eq_some_iff.mp rest
      exact .inr (.inr ⟨t, env, e, k, r, rfl, next, done, rfl⟩)

/-- The stacks that occur while no publish has failed. -/
def Calm (k : List Frame) : Prop :=
  k ∈ [[], [.logLock], [.sinkIt], [.sinkPublish], [.sinkUnlock], [.pubLock], [.pubCheck],
    [.pubUnlock], [.pubLock, .sinkPublish], [.pubCheck, .sinkPublish],
    [Frame.pubUnlock, Frame.sinkPublish]]

private theorem calm_logCall (lvl : Level) : Calm (logCall lvl []) := by
  unfold logCall
  split <;> simp [Calm]

private theorem calm_advance {env : Env} {b : Bool} {k k' : List Frame} {e : Effect}
    (calm : Calm k) (answer : k.head? = some .pubCheck → env.link = .sent)
    (next : advance env b k = some (e, k')) : Calm k' := by
  simp only [Calm, List.mem_cons, List.not_mem_nil, or_false] at calm
  rcases calm with rfl | rfl | rfl | rfl | rfl | rfl | rfl | rfl | rfl | rfl | rfl
  case inr.inr.inl =>
    simp only [advance] at next
    split at next
    · cases next; simp [Calm]
    · split at next <;> cases next <;> simp [Calm]
  all_goals first
    | cases next; done
    | (have sent := answer rfl
       simp only [advance, sent] at next
       cases next
       simp [Calm])
    | (cases next; simp [Calm])

private theorem calm_step {s s' : State Tid} {a : Act Tid} (calm : ∀ t, Calm (s.stack t))
    (answer : PublishSucceeds s a) (move : step s a = some s') : ∀ t, Calm (s'.stack t) := by
  intro u
  rcases step_cases move with ⟨t, lvl, rfl, _, rfl⟩ | ⟨t, rfl, _, rfl⟩ |
    ⟨t, env, e, k, r, rfl, next, done, rfl⟩
  · by_cases h : u = t
    · subst h
      simpa using calm_logCall lvl
    · simpa [h] using calm u
  · by_cases h : u = t
    · subst h
      simp [Calm]
    · simpa [h] using calm u
  · by_cases h : u = t
    · subst h
      simpa using calm_advance (calm u) answer next
    · simpa [h, perform_stack done] using calm u

/-- The mutexes whose guard objects live on the stack. -/
def held (k : List Frame) : List Mutex := k.filterMap Frame.mutex

/-- The effect of a step is exactly what happens to the guard objects on its stack. -/
def HeldAfter (k k' : List Frame) : Effect → Prop
  | .lock m => held k' = m :: held k
  | .unlock m => held k = m :: held k'
  | _ => held k' = held k

private theorem held_logCall (lvl : Level) (k : List Frame) : held (logCall lvl k) = held k := by
  unfold logCall
  split <;> rfl

private theorem advance_held {env : Env} {b : Bool} {k k' : List Frame} {e : Effect}
    (next : advance env b k = some (e, k')) : HeldAfter k k' e := by
  cases k with
  | nil => cases next
  | cons f k =>
      cases f
      case sinkIt =>
        simp only [advance] at next
        split at next
        · cases next; rfl
        · split at next <;> cases next <;> rfl
      case pubCheck =>
        simp only [advance] at next
        split at next
        · cases next; rfl
        · cases next; exact held_logCall _ _
        · cases next; exact held_logCall _ _
      all_goals cases next; rfl

/-- A mutex is held by the thread on whose stack its guard object lives, and by
nobody twice. -/
structure Owned (s : State Tid) : Prop where
  owner_iff : ∀ m t, s.owner m = some t ↔ m ∈ held (s.stack t)
  nodup : ∀ t, (held (s.stack t)).Nodup

private theorem owned_of_same {s : State Tid} (own : Owned s) (t : Tid) {k : List Frame}
    (same : held k = held (s.stack t)) : Owned (s.setStack t k) where
  owner_iff m u := by
    by_cases h : u = t
    · subst h
      simpa [same] using own.owner_iff m u
    · simpa [h] using own.owner_iff m u
  nodup u := by
    by_cases h : u = t
    · subst h
      simpa [same] using own.nodup u
    · simpa [h] using own.nodup u

private theorem owned_of_lock {s : State Tid} (own : Owned s) (t : Tid) {m : Mutex}
    {k : List Frame} (free : s.owner m = none) (more : held k = m :: held (s.stack t)) :
    Owned (State.setStack { s with owner := Function.update s.owner m (some t) } t k) where
  owner_iff n u := by
    have notHeld : ∀ v, m ∉ held (s.stack v) := fun v hv => by
      simp [(own.owner_iff m v).mpr hv] at free
    by_cases h : u = t
    · subst h
      by_cases hn : n = m
      · subst hn
        simp [more]
      · simpa [hn, more] using own.owner_iff n u
    · by_cases hn : n = m
      · subst hn
        simpa [h, Ne.symm h] using notHeld u
      · simpa [h, hn] using own.owner_iff n u
  nodup u := by
    by_cases h : u = t
    · subst h
      have fresh : m ∉ held (s.stack u) := fun hv => by
        simp [(own.owner_iff m u).mpr hv] at free
      simpa [more] using ⟨fresh, own.nodup u⟩
    · simpa [h] using own.nodup u

private theorem owned_of_unlock {s : State Tid} (own : Owned s) (t : Tid) {m : Mutex}
    {k : List Frame} (less : held (s.stack t) = m :: held k) :
    Owned (State.setStack { s with owner := Function.update s.owner m none } t k) where
  owner_iff n u := by
    have mine : s.owner m = some t := (own.owner_iff m t).mpr (by simp [less])
    have nodup := own.nodup t
    rw [less, List.nodup_cons] at nodup
    by_cases h : u = t
    · subst h
      by_cases hn : n = m
      · subst hn
        simpa using nodup.1
      · have same := own.owner_iff n u
        simpa [hn, less] using same
    · by_cases hn : n = m
      · subst hn
        have other : n ∉ held (s.stack u) := fun hv =>
          h (Option.some.inj ((own.owner_iff n u).mpr hv |>.symm.trans mine))
        simpa [h] using other
      · simpa [h, hn] using own.owner_iff n u
  nodup u := by
    by_cases h : u = t
    · subst h
      have nodup := own.nodup u
      rw [less, List.nodup_cons] at nodup
      simpa using nodup.2
    · simpa [h] using own.nodup u

private theorem owned_step {s s' : State Tid} {a : Act Tid} (own : Owned s)
    (move : step s a = some s') : Owned s' := by
  rcases step_cases move with ⟨t, lvl, rfl, empty, rfl⟩ | ⟨t, rfl, empty, rfl⟩ |
    ⟨t, env, e, k, r, rfl, next, done, rfl⟩
  · exact owned_of_same own t (by rw [held_logCall, empty])
  · exact owned_of_same own t (by rw [empty]; rfl)
  · have after := advance_held next
    cases e with
    | silent =>
        cases done
        exact owned_of_same own t after
    | lock m =>
        simp only [State.perform] at done
        split at done
        · cases done
          exact owned_of_lock own t ‹_› after
        · cases done
    | unlock m =>
        cases done
        exact owned_of_unlock own t after
    | setInPublish b =>
        cases done
        have same := owned_of_same own t after
        exact ⟨same.owner_iff, same.nodup⟩

omit [DecidableEq Tid] in
theorem owned_idle : Owned (idle : State Tid) where
  owner_iff m t := by simp [idle, held]
  nodup t := by simp [idle, held]

omit [DecidableEq Tid] in
/-- In a calm stack the mutex asked for lies above every mutex held. -/
private theorem calm_ordered {s : State Tid} {t : Tid} (calm : Calm (s.stack t)) {m n : Mutex}
    (mine : m ∈ held (s.stack t)) (asked : wants s t = some n) : m < n := by
  unfold wants at asked
  generalize s.stack t = k at calm mine asked
  simp only [Calm, List.mem_cons, List.not_mem_nil, or_false] at calm
  rcases calm with rfl | rfl | rfl | rfl | rfl | rfl | rfl | rfl | rfl | rfl | rfl
  case inr.inr.inr.inr.inr.inr.inr.inr.inl =>
    obtain rfl : n = .pub := (Option.some.inj asked).symm
    obtain rfl : Mutex.sink = m := by simpa [held, Frame.mutex] using mine
    exact Nat.zero_lt_one
  all_goals first
    | cases asked; done
    | simp [held, Frame.mutex] at mine

/-- While every publish that reaches the link is accepted, no thread waits for
itself or along a cycle, whatever the number of threads and their interleaving. -/
theorem no_deadlock_while_publishes_succeed {s : State Tid}
    (run : Reaches step PublishSucceeds idle s) : ¬ Deadlocked s := by
  have inv : Owned s ∧ ∀ t, Calm (s.stack t) :=
    run.invariant (I := fun s => Owned s ∧ ∀ t, Calm (s.stack t))
      ⟨owned_idle, fun _ => by simp [idle, Calm]⟩
      fun _ _ _ before answer move =>
        ⟨owned_step before.1 move, calm_step before.2 answer move⟩
  exact no_deadlock_of_order fun t m n holds asked =>
    calm_ordered (inv.2 t) ((inv.1.owner_iff m t).mp holds) asked

/-- A logger and a publisher that meet at both mutexes over a live link. -/
theorem no_deadlock_logger_and_publisher :
    ∃ s : State (Fin 2), exec (guarded step PublishSucceeds) idle
      [.publish 1, .log 0 .info, .step 1 ⟨.sent, false⟩, .step 0 ⟨.sent, false⟩,
        .step 0 ⟨.sent, false⟩, .step 1 ⟨.sent, false⟩] = some s ∧ ¬ Deadlocked s := by
  obtain ⟨s, run⟩ := Option.isSome_iff_exists.mp
    (show (exec (guarded step PublishSucceeds) (idle : State (Fin 2))
      [.publish 1, .log 0 .info, .step 1 ⟨.sent, false⟩, .step 0 ⟨.sent, false⟩,
        .step 0 ⟨.sent, false⟩, .step 1 ⟨.sent, false⟩]).isSome = true by decide)
  exact ⟨s, run, no_deadlock_while_publishes_succeed (exec_guarded_reaches run)⟩

/-- One record logged at INFO while the link is down: the warning of `publish()`
asks for the sink mutex that the same thread already holds. -/
theorem logger_waits_for_itself_when_link_is_down :
    ¬ ∀ s : State Unit, Reaches step anyStep idle s → ¬ Deadlocked s := by
  intro claimed
  let down : Env := ⟨.notConnected, false⟩
  obtain ⟨s, run, own⟩ : ∃ s : State Unit,
      exec step idle [.log () .info, .step () down, .step () down, .step () down, .step () down]
        = some s ∧ wants s () = some .sink ∧ s.owner .sink = some () := ⟨_, rfl, rfl, rfl⟩
  exact claimed s (exec_reaches_any run) (deadlock_of_own own.1 own.2)

/-- A frame runs directly above another: the logger is called from a failing
`publish()`, and `publish()` is called from `sink_it_`. -/
def Callable : Frame → Frame → Prop
  | .logLock, g | .sinkIt, g | .sinkPublish, g | .sinkUnlock, g => g = .pubLogging
  | .pubLock, g | .pubCheck, g | .pubLogging, g | .pubUnlock, g => g = .sinkPublish

private theorem callable_top {f g : Frame} {k : List Frame} (nested : (f :: k).IsChain Callable)
    (same : ∀ h, Callable f h → Callable g h) : (g :: k).IsChain Callable := by
  cases k with
  | nil => exact .singleton g
  | cons h k =>
      rw [List.isChain_cons_cons] at nested ⊢
      exact ⟨same h nested.1, nested.2⟩

private theorem nested_logCall (lvl : Level) {k : List Frame}
    (nested : (Frame.pubLogging :: k).IsChain Callable) :
    (logCall lvl (.pubLogging :: k)).IsChain Callable := by
  unfold logCall
  split
  · exact List.isChain_cons_cons.mpr ⟨rfl, nested⟩
  · exact nested

private theorem nested_advance {env : Env} {b : Bool} {k k' : List Frame} {e : Effect}
    (nested : k.IsChain Callable) (next : advance env b k = some (e, k')) :
    k'.IsChain Callable := by
  cases k with
  | nil => cases next
  | cons f k =>
      have top : ∀ g, (∀ h, Callable f h → Callable g h) → (g :: k).IsChain Callable :=
        fun g => callable_top nested
      cases f
      case sinkIt =>
        have open' : (Frame.pubLock :: .sinkPublish :: k).IsChain Callable :=
          List.isChain_cons_cons.mpr ⟨rfl, top .sinkPublish fun _ h => h⟩
        simp only [advance] at next
        split at next
        · cases next; exact top _ fun _ h => h
        · split at next <;> cases next
          · exact top _ fun _ h => h
          · exact open'
      case pubCheck =>
        simp only [advance] at next
        split at next
        · cases next; exact top _ fun _ h => h
        · cases next; exact nested_logCall _ (top _ fun _ h => h)
        · cases next; exact nested_logCall _ (top _ fun _ h => h)
      case sinkUnlock => cases next; exact nested.tail
      case pubUnlock => cases next; exact nested.tail
      all_goals cases next; exact top _ fun _ h => h

private theorem advance_sinkPublish {env : Env} {b : Bool} {k k' : List Frame} {e : Effect}
    (next : advance env b k = some (e, k')) :
    (e = .setInPublish true → .sinkPublish ∈ k') ∧
      (.sinkPublish ∈ k → e ≠ .setInPublish false → .sinkPublish ∈ k') := by
  cases k with
  | nil => cases next
  | cons f k =>
      cases f
      case sinkIt =>
        simp only [advance] at next
        split at next
        · cases next; simp
        · split at next <;> cases next <;> simp
      case pubCheck =>
        simp only [advance] at next
        split at next <;> cases next <;> simp [logCall, shouldLog, Level.toNat]
      all_goals cases next; simp

/-- What holds in every reachable state, failed publishes included. -/
structure Sound (s : State Tid) : Prop where
  owned : Owned s
  nested : ∀ t, (s.stack t).IsChain Callable
  flagged : s.inPublish = true → ∃ t, .sinkPublish ∈ s.stack t

omit [DecidableEq Tid] in
private theorem sound_idle : Sound (idle : State Tid) :=
  ⟨owned_idle, fun _ => .nil, fun h => by cases h⟩

private theorem nested_step {s s' : State Tid} {a : Act Tid}
    (nested : ∀ t, (s.stack t).IsChain Callable) (move : step s a = some s') :
    ∀ t, (s'.stack t).IsChain Callable := by
  intro u
  rcases step_cases move with ⟨t, lvl, rfl, _, rfl⟩ | ⟨t, rfl, _, rfl⟩ |
    ⟨t, env, e, k, r, rfl, next, done, rfl⟩
  · by_cases h : u = t
    · subst h
      unfold logCall
      split <;> simp
    · simpa [h] using nested u
  · by_cases h : u = t
    · subst h
      simp
    · simpa [h] using nested u
  · by_cases h : u = t
    · subst h
      simpa using nested_advance (nested u) next
    · simpa [h, perform_stack done] using nested u

private theorem flagged_step {s s' : State Tid} {a : Act Tid}
    (flagged : s.inPublish = true → ∃ t, .sinkPublish ∈ s.stack t)
    (move : step s a = some s') : s'.inPublish = true → ∃ t, .sinkPublish ∈ s'.stack t := by
  intro set
  rcases step_cases move with ⟨t, lvl, rfl, empty, rfl⟩ | ⟨t, rfl, empty, rfl⟩ |
    ⟨t, env, e, k, r, rfl, next, done, rfl⟩
  · obtain ⟨u, hu⟩ := flagged set
    have h : u ≠ t := by rintro rfl; simp [empty] at hu
    exact ⟨u, by simpa [h] using hu⟩
  · obtain ⟨u, hu⟩ := flagged set
    have h : u ≠ t := by rintro rfl; simp [empty] at hu
    exact ⟨u, by simpa [h] using hu⟩
  · have moved := advance_sinkPublish next
    by_cases opened : e = .setInPublish true
    · exact ⟨t, by simpa using moved.1 opened⟩
    have closed : e ≠ .setInPublish false := by
      rintro rfl
      cases done
      cases set
    have before : s.inPublish = true := by
      cases e with
      | silent => cases done; exact set
      | lock m =>
          simp only [State.perform] at done
          split at done
          · cases done; exact set
          · cases done
      | unlock m => cases done; exact set
      | setInPublish b => cases b <;> contradiction
    obtain ⟨u, hu⟩ := flagged before
    by_cases h : u = t
    · subst h
      exact ⟨u, by simpa using moved.2 hu closed⟩
    · exact ⟨u, by simpa [h, perform_stack done] using hu⟩

private theorem sound_step {s s' : State Tid} {a : Act Tid} (sound : Sound s)
    (move : step s a = some s') : Sound s' :=
  ⟨owned_step sound.owned move, nested_step sound.nested move, flagged_step sound.flagged move⟩

private def plain : Env := ⟨.sent, false⟩

/-- `t` holds `pub_mutex_` and is about to log: with the sink mutex free it comes
to publish again and asks for its own `pub_mutex_`. -/
private theorem deadlock_when_sink_is_free {s : State Tid} (sound : Sound s) {t : Tid}
    {k : List Frame} (top : s.stack t = .logLock :: k) (mine : Mutex.pub ∈ held k)
    (free : s.owner .sink = none) :
    ∃ d, Reaches step anyStep s d ∧ Deadlocked d := by
  have lowered : s.inPublish = false := by
    by_contra raised
    obtain ⟨u, hu⟩ := sound.flagged (by simpa using raised)
    have holds : s.owner .sink = some u :=
      (sound.owned.owner_iff .sink u).mpr (List.mem_filterMap.mpr ⟨_, hu, rfl⟩)
    simp [free] at holds
  have pubMine : s.owner .pub = some t :=
    (sound.owned.owner_iff .pub t).mpr (by simpa [top, held, Frame.mutex] using mine)
  let s₁ : State Tid := State.setStack
    { s with owner := Function.update s.owner .sink (some t) } t (.sinkIt :: k)
  have first : step s (.step t plain) = some s₁ := by
    simp [step, top, advance, State.perform, free, s₁]
  let s₂ : State Tid := State.setStack { s₁ with inPublish := true } t
    (.pubLock :: .sinkPublish :: k)
  have second : step s₁ (.step t plain) = some s₂ := by
    simp [step, advance, State.perform, lowered, plain, s₁, s₂]
  refine ⟨s₂, (Reaches.single trivial first).tail trivial second,
    deadlock_of_own (l := .pub) (t := t) ?_ ?_⟩
  · simp [wants, s₂]
  · simpa [s₁, s₂] using pubMine

/-- The same, when the holder of the sink mutex is about to give it back. -/
private theorem deadlock_once_sink_is_freed {s : State Tid} (sound : Sound s) {t u : Tid}
    {k l : List Frame} (other : u ≠ t) (top : s.stack t = .logLock :: k)
    (mine : Mutex.pub ∈ held k) (unlock : s.stack u = .sinkUnlock :: l) :
    ∃ d, Reaches step anyStep s d ∧ Deadlocked d := by
  let s' : State Tid := State.setStack { s with owner := Function.update s.owner .sink none } u l
  have move : step s (.step u plain) = some s' := by
    simp [step, unlock, advance, State.perform, s']
  have still : s'.stack t = .logLock :: k := by simpa [s', Ne.symm other] using top
  have free : s'.owner .sink = none := by simp [s']
  obtain ⟨d, run, dead⟩ := deadlock_when_sink_is_free (sound_step sound move) still mine free
  exact ⟨d, (Reaches.single trivial move).trans run, dead⟩

/-- The holder of the sink mutex, when it does not hold `pub_mutex_`, is inside
`sink_it_` or at the lock of `pub_mutex_`. -/
private theorem sink_holder_top {k : List Frame} (nested : k.IsChain Callable)
    (sink : Mutex.sink ∈ held k) (noPub : Mutex.pub ∉ held k) :
    ∃ f r, k = f :: r ∧ (f = .pubLock ∨ f = .sinkIt ∨ f = .sinkPublish ∨ f = .sinkUnlock) := by
  cases k with
  | nil => simp [held] at sink
  | cons f r =>
      refine ⟨f, r, rfl, ?_⟩
      cases f
      case logLock =>
        cases r with
        | nil => simp [held, Frame.mutex] at sink
        | cons g r =>
            obtain rfl : g = .pubLogging := (List.isChain_cons_cons.mp nested).1
            simp [held, Frame.mutex] at noPub
      all_goals first
        | (simp [held, Frame.mutex] at noPub; done)
        | simp

/-- A logger of a failed publish and the holder of the sink mutex: the holder
either asks for `pub_mutex_` or gives the sink mutex back. -/
private theorem deadlock_of_failure {s : State Tid} (sound : Sound s) {t : Tid}
    {k : List Frame} (top : s.stack t = .logLock :: k) (mine : Mutex.pub ∈ held k) :
    ∃ d, Reaches step anyStep s d ∧ Deadlocked d := by
  have pubMine : s.owner .pub = some t :=
    (sound.owned.owner_iff .pub t).mpr (by simpa [top, held, Frame.mutex] using mine)
  have tAsks : wants s t = some .sink := by simp [wants, top]
  cases owned : s.owner .sink with
  | none => exact deadlock_when_sink_is_free sound top mine owned
  | some u =>
      by_cases same : u = t
      · subst same
        exact ⟨s, .refl, deadlock_of_own tAsks owned⟩
      have sinkHeld := (sound.owned.owner_iff .sink u).mp owned
      have noPub : Mutex.pub ∉ held (s.stack u) := fun h =>
        same (Option.some.inj (((sound.owned.owner_iff .pub u).mpr h).symm.trans pubMine))
      obtain ⟨f, r, hu, tops⟩ := sink_holder_top (sound.nested u) sinkHeld noPub
      rcases tops with rfl | rfl | rfl | rfl
      · exact ⟨s, .refl, deadlock_of_pair tAsks owned (k := .pub) (by simp [wants, hu]) pubMine⟩
      · by_cases raised : s.inPublish = true
        · let s₁ := s.setStack u (.sinkUnlock :: r)
          have move : step s (.step u plain) = some s₁ := by
            simp [step, hu, advance, raised, State.perform, s₁]
          have still : s₁.stack t = .logLock :: k := by simpa [s₁, Ne.symm same] using top
          have unlock : s₁.stack u = .sinkUnlock :: r := by simp [s₁]
          obtain ⟨d, run, dead⟩ :=
            deadlock_once_sink_is_freed (sound_step sound move) same still mine unlock
          exact ⟨d, (Reaches.single trivial move).trans run, dead⟩
        · let s₁ := State.setStack { s with inPublish := true } u (.pubLock :: .sinkPublish :: r)
          have move : step s (.step u plain) = some s₁ := by
            simp [step, hu, advance, raised, plain, State.perform, s₁]
          refine ⟨s₁, Reaches.single trivial move,
            deadlock_of_pair (t := t) (u := u) (l := .sink) (k := .pub) ?_ ?_ ?_ ?_⟩
          · simp [wants, s₁, Ne.symm same, top]
          · simpa [s₁] using owned
          · simp [wants, s₁]
          · simpa [s₁] using pubMine
      · let s₁ := State.setStack { s with inPublish := false } u (.sinkUnlock :: r)
        have move : step s (.step u plain) = some s₁ := by
          simp [step, hu, advance, State.perform, s₁]
        have still : s₁.stack t = .logLock :: k := by simpa [s₁, Ne.symm same] using top
        have unlock : s₁.stack u = .sinkUnlock :: r := by simp [s₁]
        obtain ⟨d, run, dead⟩ :=
          deadlock_once_sink_is_freed (sound_step sound move) same still mine unlock
        exact ⟨d, (Reaches.single trivial move).trans run, dead⟩
      · exact deadlock_once_sink_is_freed sound same top mine hu

/-- From every reachable state, a publish that fails leads to a deadlock: no
failing publish can be allowed. -/
theorem failed_publish_leads_to_deadlock {s s' : State Tid}
    (run : Reaches step anyStep idle s) {t : Tid} {env : Env} {k : List Frame}
    (top : s.stack t = .pubCheck :: k) (fails : env.link ≠ .sent)
    (move : step s (.step t env) = some s') :
    ∃ d, Reaches step anyStep s' d ∧ Deadlocked d := by
  have sound : Sound s :=
    run.invariant sound_idle fun _ _ _ before _ move => sound_step before move
  refine deadlock_of_failure (sound_step sound move) (t := t) (k := .pubLogging :: k) ?_ ?_
  · simp only [step, top, advance] at move
    cases answer : env.link with
    | sent => exact absurd answer fails
    | notConnected =>
        simp only [answer, Option.bind_some, State.perform, Option.map_some,
          Option.some.injEq] at move
        subst move
        simp [logCall, shouldLog, Level.toNat]
    | failed rc =>
        simp only [answer, Option.bind_some, State.perform, Option.map_some,
          Option.some.injEq] at move
        subst move
        simp [logCall, shouldLog, Level.toNat]
  · simp [held, Frame.mutex]

end OrbisAgent.Mqtt.LogSink
