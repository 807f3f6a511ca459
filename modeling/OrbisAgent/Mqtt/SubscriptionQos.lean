/- OrbisAgent/Mqtt/SubscriptionQos
   source: MQTTClientWrapper::subscribe, connect, reconnectLoop, onConnectionLost
   digest: A reconnection gives every topic the QoS it was registered with first, which is the one
   the broker had before the loss exactly when no later call asked for another. -/

import OrbisAgent.Lib.Bindings
import OrbisAgent.Mqtt.Resubscribe

set_option autoImplicit false
set_option relaxedAutoImplicit false

namespace OrbisAgent.Mqtt.SubscriptionQos

open OrbisAgent.Lib.Transition
open OrbisAgent.Lib.Bindings
open OrbisAgent.Mqtt.Client
open OrbisAgent.Mqtt.Resubscribe

universe u

variable {ι : Type u}

/-- The broker's QoS of a topic, if the client is subscribed to it. -/
def brokerQos (s : Wrapper ι) (topic : String) : Option Int := s.session.lookup topic

/-- The steps of a call of `subscribe` that returns true. -/
def callRun (i : ι) (sub : Subscription) : List (Act ι) :=
  [.callSubscribe i sub, .register i, .checkFlag i, .checkLink i, .subscribe i true]

/-- No call and no second loss, and the library accepts every subscription again. -/
def undisturbed : Act ι → Bool
  | .callConnect _ | .lose _ | .callSubscribe _ _ | .callDisconnect _ | .callDestructor _ => false
  | .resubscribe _ ok => ok
  | _ => true

/-- What a connection can begin with: a call of `connect` without a link, or a loss. -/
def Opens (s : Wrapper ι) : Act ι → Prop
  | .callConnect _ => s.linkUp = false
  | .lose _ => True
  | _ => False

/-- What the session of thread `i`'s connection holds, by where the thread is. -/
def Stage (subs : List Subscription) (s : Wrapper ι) : Pc → Prop
  | .lost | .cleared | .testShutdown | .testConnected | .sleeping | .connecting _ =>
      s.linkUp = false
  | .succeeded _ | .flagged _ => s.linkUp = true ∧ s.session = []
  | .walking _ rest => s.linkUp = true ∧
      ∃ renewed, renewed ++ rest = subs ∧ s.session = renewed.foldl subscribeAt []
  | .notifying _ => s.session = subs.foldl subscribeAt []
  | .returned => s.linkUp = true → s.session = subs.foldl subscribeAt []
  | _ => False

/-- Only thread `i` is at work, on the connection. -/
structure Renewing (subs : List Subscription) (i : ι) (s : Wrapper ι) : Prop where
  subscriptions : s.subscriptions = subs
  others : ∀ k, k ≠ i → s.threads k = .idle ∨ s.threads k = .returned
  stage : Stage subs s (s.threads i)

variable [DecidableEq ι]

/-- Successful calls of `subscribe`, each begun after the one before returned. -/
inductive Subscribes : Wrapper ι → List Subscription → Wrapper ι → Prop
  | done (s : Wrapper ι) : Subscribes s [] s
  | call {s t r : Wrapper ι} {i : ι} {sub : Subscription} {calls : List Subscription}
      (one : exec step s (callRun i sub) = some t) (more : Subscribes t calls r) :
      Subscribes s (sub :: calls) r

/-- A connection, by `connect` or after a loss, from its first step until everything is
at rest on a live link. -/
structure Renews (s : Wrapper ι) (first : Act ι) (t : Wrapper ι) : Prop where
  opens : Opens s first
  run : ∃ later, (∀ a ∈ later, undisturbed a = true) ∧ exec step s (first :: later) = some t
  rest : AtRest t
  up : t.linkUp = true

/-- A test in `isConnected` that the call got past. -/
private theorem branch_taken {test : Bool} {next place : Pc}
    (here : (if test then next else .returned) = place) (stays : place ≠ .returned) :
    test = true ∧ next = place := by
  cases test with
  | true => exact ⟨rfl, here⟩
  | false => exact absurd here.symm stays

/-- What a successful call of `subscribe` changes. -/
theorem call_effect {s t : Wrapper ι} {i : ι} {sub : Subscription}
    (run : exec step s (callRun i sub) = some t) :
    t.threads = Function.update s.threads i .returned ∧
      t.subscriptions = register s.subscriptions sub ∧ t.session = subscribeAt s.session sub := by
  obtain ⟨s₁, move₁, run₁⟩ := Option.bind_eq_some_iff.mp run
  obtain ⟨s₂, move₂, run₂⟩ := Option.bind_eq_some_iff.mp run₁
  obtain ⟨s₃, move₃, run₃⟩ := Option.bind_eq_some_iff.mp run₂
  obtain ⟨s₄, move₄, run₄⟩ := Option.bind_eq_some_iff.mp run₃
  obtain ⟨s₅, move₅, run₅⟩ := Option.bind_eq_some_iff.mp run₄
  obtain rfl := Option.some.inj run₅
  cases moves_of_step move₁ with
  | callSubscribe _ _ idle =>
  cases moves_of_step move₂ with
  | register _ first here free =>
  rw [setThread_same] at here
  cases here
  cases moves_of_step move₃ with
  | checkFlag _ second here =>
  rw [setThread_same] at here
  cases here
  cases moves_of_step move₄ with
  | checkLink _ third here =>
  rw [setThread_same] at here
  obtain ⟨_, same⟩ := branch_taken here nofun
  cases same
  cases moves_of_step move₅ with
  | subscribe _ ok fourth here =>
  rw [setThread_same] at here
  obtain ⟨up, same⟩ := branch_taken here nofun
  cases same
  have live : s.linkUp = true := up
  refine ⟨by simp [Wrapper.setThread], rfl, ?_⟩
  simp [Wrapper.setThread, live]

theorem Subscribes.atRest {s t : Wrapper ι} {calls : List Subscription}
    (history : Subscribes s calls t) (rest : AtRest s) : AtRest t := by
  induction history with
  | done s => exact rest
  | @call s t r i sub calls one more ih =>
      apply ih
      intro k
      rw [(call_effect one).1]
      by_cases same : k = i
      · rw [same, Function.update_self]
        exact .inr rfl
      · rw [Function.update_of_ne same]
        exact rest k

/-- The registry and the session after the calls. -/
theorem Subscribes.effect {s t : Wrapper ι} {calls : List Subscription}
    (history : Subscribes s calls t) :
    t.subscriptions = calls.foldl register s.subscriptions ∧
      t.session = calls.foldl subscribeAt s.session := by
  induction history with
  | done s => exact ⟨rfl, rfl⟩
  | call one more ih =>
      obtain ⟨_, registered, subscribed⟩ := call_effect one
      rw [registered, subscribed] at ih
      exact ih

/-- A first step starts the connection. -/
private theorem renewing_opens {s t : Wrapper ι} {first : Act ι} (rest : AtRest s)
    (opens : Opens s first) (move : step s first = some t) :
    ∃ i, Renewing s.subscriptions i t := by
  have elsewhere : ∀ {r : Wrapper ι} {i : ι} {q : Pc}, r.threads = Function.update s.threads i q →
      ∀ k, k ≠ i → r.threads k = .idle ∨ r.threads k = .returned := by
    intro r i q threads k other
    rw [threads, Function.update_of_ne other]
    exact rest k
  cases moves_of_step move with
  | callConnect i here =>
      refine ⟨i, rfl, elsewhere rfl, ?_⟩
      rw [setThread_same]
      exact opens
  | lose j here up =>
      refine ⟨j, rfl, elsewhere rfl, ?_⟩
      rw [setThread_same]
      rfl
  | _ => exact opens.elim

omit [DecidableEq ι] in
/-- Without a link nothing is asked of the session. -/
private theorem stage_returned {subs : List Subscription} {s : Wrapper ι}
    (down : s.linkUp = false) : Stage subs s .returned := by
  intro up
  rw [down] at up
  cases up

/-- One step of the connection. -/
private theorem renewing_step {subs : List Subscription} {i : ι} {s t : Wrapper ι} {a : Act ι}
    (renewing : Renewing subs i s) (calm : undisturbed a = true) (move : Moves s a t) :
    ∃ k, Renewing subs k t := by
  obtain ⟨subscriptions, others, stage⟩ := renewing
  have mine : ∀ {k : ι} {q : Pc}, s.threads k = q → ¬ (q = .idle ∨ q = .returned) → k = i := by
    intro k q here busy
    apply Classical.byContradiction
    intro other
    apply busy
    rw [← here]
    exact others k other
  have goesOn : ∀ {r : Wrapper ι} {q : Pc}, r.threads = Function.update s.threads i q →
      r.subscriptions = s.subscriptions → Stage subs r q → ∃ k, Renewing subs k r := by
    intro r q threads same next
    refine ⟨i, same.trans subscriptions, fun k other => ?_, ?_⟩
    · rw [threads, Function.update_of_ne other]
      exact others k other
    · rw [threads, Function.update_self]
      exact next
  -- the loop either stops without a link or goes on
  have tested : ∀ {test : Bool} {q : Pc}, s.linkUp = false → Stage subs s q →
      Stage subs s (if test then .returned else q) := by
    intro test q down next
    cases test with
    | false => exact next
    | true => exact stage_returned down
  cases move with
  | callConnect | lose | callSubscribe | callDisconnect | callDestructor => cases calm
  | connectOk k caller here =>
      obtain rfl := mine here (by simp)
      exact goesOn rfl rfl ⟨rfl, rfl⟩
  | connectFailed k caller here =>
      obtain rfl := mine here (by simp)
      rw [here] at stage
      have down : s.linkUp = false := stage
      refine goesOn rfl rfl ?_
      cases caller with
      | connect => exact stage_returned down
      | reconnectLoop => exact down
  | setFlag k caller here =>
      obtain rfl := mine here (by simp)
      rw [here] at stage
      exact goesOn rfl rfl stage
  | lockSubs k caller here free =>
      obtain rfl := mine here (by simp)
      rw [here] at stage
      exact goesOn rfl rfl ⟨stage.1, [], subscriptions, stage.2⟩
  | resubscribe k ok caller sub rest here =>
      obtain rfl := mine here (by simp)
      rw [here] at stage
      obtain ⟨up, renewed, split, session⟩ := stage
      obtain rfl : ok = true := calm
      refine goesOn rfl rfl ⟨up, renewed ++ [sub], ?_, ?_⟩
      · rw [List.append_assoc, List.singleton_append]
        exact split
      · rw [List.foldl_append, ← session]
        simp [Wrapper.setThread, up]
  | unlockSubs k caller here =>
      obtain rfl := mine here (by simp)
      rw [here] at stage
      obtain ⟨_, renewed, all, session⟩ := stage
      rw [List.append_nil] at all
      rw [all] at session
      exact goesOn rfl rfl session
  | notify k caller here =>
      obtain rfl := mine here (by simp)
      rw [here] at stage
      exact goesOn rfl rfl fun _ => stage
  | testShutdown k here | testConnected k here | wake k here =>
      obtain rfl := mine here (by simp)
      rw [here] at stage
      exact goesOn rfl rfl (tested stage stage)
  | clear k here =>
      obtain rfl := mine here (by simp)
      rw [here] at stage
      exact goesOn rfl rfl stage
  | noSpawn k next here stopping =>
      obtain rfl := mine here (by simp)
      rw [here] at stage
      exact goesOn rfl rfl (stage_returned stage)
  | spawn k next here running fresh =>
      obtain rfl := mine here (by simp)
      rw [here] at stage
      refine ⟨next, subscriptions, fun other apart => ?_, ?_⟩
      · rw [setThread_other _ _ apart]
        by_cases same : other = k
        · rw [same, setThread_same]
          exact .inr rfl
        · rw [setThread_other _ _ same]
          exact others other same
      · rw [setThread_same]
        exact stage
  | register k _ here | checkFlag k _ here | checkLink k _ here | subscribe k _ _ here
  | testDisconnect k _ here | closeLink k _ here | clearFlag k _ here | destroy k here =>
      obtain rfl := mine here (by simp)
      rw [here] at stage
      exact stage.elim

/-- A connection leaves the broker with one subscription after the other of the registry. -/
theorem Renews.session {s t : Wrapper ι} {first : Act ι} (renews : Renews s first t)
    (rest : AtRest s) :
    t.subscriptions = s.subscriptions ∧ t.session = s.subscriptions.foldl subscribeAt [] := by
  obtain ⟨later, calm, run⟩ := renews.run
  obtain ⟨r, move, more⟩ := Option.bind_eq_some_iff.mp run
  have onward : Reaches step (fun _ a => undisturbed a = true) r t :=
    exec_reaches more fun _ => calm
  have kept : ∀ (p q : Wrapper ι) a, (∃ i, Renewing s.subscriptions i p) → undisturbed a = true →
      step p a = some q → ∃ i, Renewing s.subscriptions i q := by
    rintro p q a ⟨i, renewing⟩ quiet next
    exact renewing_step renewing quiet (moves_of_step next)
  have opened := renewing_opens rest renews.opens move
  obtain ⟨i, subscriptions, others, stage⟩ := onward.invariant opened kept
  refine ⟨subscriptions, ?_⟩
  rcases renews.rest i with idle | done
  · rw [idle] at stage
    exact stage.elim
  · rw [done] at stage
    exact stage renews.up

/-- The registry has a topic once, whatever has been called in whatever order. -/
theorem registry_nodup {s : Wrapper ι} (reached : Reaches step anyStep Wrapper.start s) :
    (topics s.subscriptions).Nodup := by
  have kept : ∀ (r t : Wrapper ι) a, (topics r.subscriptions).Nodup → anyStep r a →
      step r a = some t → (topics t.subscriptions).Nodup := by
    intro r t a nodup _ next
    cases moves_of_step next with
    | register i sub here free => exact nodup_addNew nodup
    | _ => exact nodup
  exact reached.invariant List.nodup_nil kept

/-- After a connection the broker has the QoS of the registry. -/
theorem brokerQos_of_renews {s t : Wrapper ι} {first : Act ι} (renews : Renews s first t)
    (rest : AtRest s) (nodup : (topics s.subscriptions).Nodup) (topic : String) :
    brokerQos t topic = s.subscriptions.lookup topic := by
  -- `subscribeAt` lets the later binding replace the earlier one
  have session : t.session = s.subscriptions.foldl replace [] := (renews.session rest).2
  rw [brokerQos, session, lookup_foldl_replace, List.append_nil, lookup_reverse nodup]

/-- The QoS of each topic that the last of the calls for it asked for is the one under
which the topic is registered: from before, or by the first of the calls for it. -/
def KeepsQos (registry calls : List Subscription) : Prop :=
  ∀ topic qos, calls.reverse.lookup topic = some qos →
    (registry ++ calls).lookup topic = some qos

/-- A wrapper that any run has left at rest connects, takes successful calls of `subscribe`,
loses the connection and reconnects. The broker's QoS of every topic is the one from just
before the loss exactly when the calls kept each topic's QoS. -/
theorem qos_survives_iff {s t u v : Wrapper ι} {first : Act ι} {j : ι} {calls : List Subscription}
    (reached : Reaches step anyStep Wrapper.start s) (rest : AtRest s)
    (connects : Renews s first t) (history : Subscribes t calls u)
    (reconnects : Renews u (.lose j) v) :
    brokerQos v = brokerQos u ↔ KeepsQos s.subscriptions calls := by
  have nodup := registry_nodup reached
  obtain ⟨registered, subscribed⟩ := history.effect
  rw [(connects.session rest).1] at registered
  have nodupLater : (topics u.subscriptions).Nodup := by
    rw [registered]
    exact nodup_foldl_addNew nodup
  have after : ∀ topic, brokerQos v topic = (s.subscriptions ++ calls).lookup topic := by
    intro topic
    rw [brokerQos_of_renews reconnects (history.atRest connects.rest) nodupLater, registered]
    exact lookup_foldl_addNew
  have before : ∀ topic,
      brokerQos u topic = (calls.reverse.lookup topic).or (s.subscriptions.lookup topic) := by
    intro topic
    rw [← brokerQos_of_renews connects rest nodup, brokerQos, brokerQos, ← List.lookup_append,
      subscribed]
    exact lookup_foldl_replace
  constructor
  · intro same topic qos last
    rw [← after, same, before, last]
    rfl
  · intro keeps
    funext topic
    rw [after, before]
    cases last : calls.reverse.lookup topic with
    | some qos => exact keeps topic qos last
    | none =>
        have uncalled : calls.lookup topic = none := by
          rw [List.lookup_eq_none_iff] at last ⊢
          simpa using last
        rw [List.lookup_append, uncalled]
        exact Option.or_none

/-- A connection, two calls for one topic, a loss, and a reconnection at the second
attempt. -/
private theorem two_calls (first second : Int) : ∃ t u v : Wrapper (Fin 5),
    Renews Wrapper.start (.callConnect 0) t ∧ Subscribes t [("t", first), ("t", second)] u ∧
      Renews u (.lose 3) v ∧ u.session = [("t", second)] ∧ v.session = [("t", first)] := by
  let connection : List (Act (Fin 5)) :=
    [.connect 0 true, .setFlag 0, .lockSubs 0, .unlockSubs 0, .notify 0]
  let reconnection : List (Act (Fin 5)) :=
    [.clear 3, .spawn 3 4, .testShutdown 4, .testConnected 4, .wake 4, .connect 4 false,
      .testShutdown 4, .testConnected 4, .wake 4, .connect 4 true, .setFlag 4, .lockSubs 4,
      .resubscribe 4 true, .unlockSubs 4, .notify 4]
  have replay : ∃ t, exec step Wrapper.start (.callConnect 0 :: connection) = some t ∧
      AtRest t ∧ t.linkUp = true ∧ ∃ r, exec step t (callRun 1 ("t", first)) = some r ∧
      ∃ u, exec step r (callRun 2 ("t", second)) = some u ∧
      ∃ v, exec step u (.lose 3 :: reconnection) = some v ∧
      AtRest v ∧ v.linkUp = true ∧ u.session = [("t", second)] ∧ v.session = [("t", first)] := by
    refine ⟨_, rfl, ?_, rfl, _, rfl, _, rfl, _, rfl, ?_, rfl, rfl, rfl⟩
    · intro i
      match i with
      | 0 => exact .inr rfl
      | 1 | 2 | 3 | 4 => exact .inl rfl
    · intro i
      match i with
      | 0 | 1 | 2 | 3 | 4 => exact .inr rfl
  obtain ⟨t, connects, restOne, upOne, r, callOne, u, callTwo, v, again, restTwo, upTwo,
    sessions⟩ := replay
  have calls : Subscribes t [("t", first), ("t", second)] u :=
    .call callOne (.call callTwo (.done u))
  exact ⟨t, u, v, ⟨rfl, ⟨connection, by decide, connects⟩, restOne, upOne⟩, calls,
    ⟨trivial, ⟨reconnection, by decide, again⟩, restTwo, upTwo⟩, sessions⟩

/-- A topic subscribed twice with one QoS keeps it. -/
theorem same_qos_survives : ∃ t u v : Wrapper (Fin 5),
    Renews Wrapper.start (.callConnect 0) t ∧ Subscribes t [("t", 1), ("t", 1)] u ∧
      Renews u (.lose 3) v ∧ brokerQos v = brokerQos u := by
  obtain ⟨t, u, v, connects, history, reconnects, _⟩ := two_calls 1 1
  have rest : AtRest (Wrapper.start : Wrapper (Fin 5)) := fun _ => .inl rfl
  have keeps : KeepsQos (Wrapper.start : Wrapper (Fin 5)).subscriptions [("t", 1), ("t", 1)] :=
    fun _ _ found => found
  have survives := qos_survives_iff (s := Wrapper.start) .refl rest connects history reconnects
  exact ⟨t, u, v, connects, history, reconnects, survives.mpr keeps⟩

/-- A topic subscribed with QoS 0 and then with QoS 1 is back at 0 after the reconnection. -/
theorem raised_qos_is_lost : ∃ t u v : Wrapper (Fin 5),
    Renews Wrapper.start (.callConnect 0) t ∧ Subscribes t [("t", 0), ("t", 1)] u ∧
      Renews u (.lose 3) v ∧ brokerQos u "t" = some 1 ∧ brokerQos v "t" = some 0 := by
  obtain ⟨t, u, v, connects, history, reconnects, before, after⟩ := two_calls 0 1
  refine ⟨t, u, v, connects, history, reconnects, ?_, ?_⟩
  · rw [brokerQos, before]
    rfl
  · rw [brokerQos, after]
    rfl

end OrbisAgent.Mqtt.SubscriptionQos
