/- OrbisAgent/Mqtt/Resubscribe
   source: MQTTClientWrapper::subscribe, connect, reconnectLoop, onConnectionLost
   digest: When nothing is in progress and the link is up, every topic that was ever passed to
   subscribe() is in the broker's session. -/

import OrbisAgent.Mqtt.Client
import Mathlib.Tactic.ByContra

set_option autoImplicit false
set_option relaxedAutoImplicit false

namespace OrbisAgent.Mqtt.Resubscribe

open OrbisAgent.Lib.Transition
open OrbisAgent.Mqtt.Client

universe u

variable {ι : Type u}

/-- The owner keeps the client, and the library subscribes whenever the link is up. -/
def keepsClient (s : Wrapper ι) : Act ι → Bool
  | .callDisconnect _ | .callDestructor _ => false
  | .resubscribe _ ok | .subscribe _ ok => !s.linkUp || ok
  | _ => true

def Kept (s : Wrapper ι) (a : Act ι) : Prop := keepsClient s a = true

instance (s : Wrapper ι) (a : Act ι) : Decidable (Kept s a) :=
  inferInstanceAs (Decidable (keepsClient s a = true))

/-- No call, callback or reconnect thread is in progress. -/
def AtRest (s : Wrapper ι) : Prop := ∀ i, s.threads i = .idle ∨ s.threads i = .returned

/-- The topics of a list of subscriptions. -/
def topics (subs : List Subscription) : List String := subs.map Prod.fst

/-- In `disconnect` or the destructor. -/
def quitting : Pc → Bool
  | .disconnecting _ | .closing _ | .clearing _ | .destroying => true
  | _ => false

/-- From the write `connected_ = false` of a callback to the next successful connect. -/
def reconnecting : Pc → Bool
  | .succeeded _ | .cleared | .testShutdown | .testConnected | .sleeping
  | .connecting .reconnectLoop => true
  | _ => false

/-- The thread will pass the topic to `MQTTClient_subscribe` as long as the flag and
the link stay up. -/
def Serves (topic : String) : Pc → Prop
  | .succeeded _ | .flagged _ => True
  | .walking _ rest => topic ∈ topics rest
  | .checkFlag sub | .checkLink sub | .subscribing sub => sub.1 = topic
  | _ => False

/-- Nobody is giving the client up. -/
structure Running (s : Wrapper ι) : Prop where
  shutdown : s.shutdown = false
  threads : ∀ i, quitting (s.threads i) = false

/-- On a live link with the flag down, somebody is about to connect again. -/
def Recovering (s : Wrapper ι) : Prop :=
  s.linkUp = true → s.connected = false → ∃ i, reconnecting (s.threads i) = true

/-- On a live link with the flag up, a registered topic is subscribed or served. -/
def Covered (s : Wrapper ι) : Prop :=
  s.linkUp = true → s.connected = true → ∀ topic ∈ topics s.subscriptions,
    topic ∈ topics s.session ∨ ∃ i, Serves topic (s.threads i)

/-- A call of `subscribe` in the labels so far is about to register its topic, or has. -/
def Registered (past : List (Act ι)) (s : Wrapper ι) : Prop :=
  ∀ i sub, .callSubscribe i sub ∈ past →
    s.threads i = .registering sub ∨ sub.1 ∈ topics s.subscriptions

theorem mem_topics_subscribeAt {session : List Subscription} {sub : Subscription} {topic : String} :
    topic ∈ topics (subscribeAt session sub) ↔ topic ∈ topics session ∨ topic = sub.1 := by
  unfold topics subscribeAt
  constructor
  · intro mem
    obtain ⟨x, here, rfl⟩ := List.mem_map.mp mem
    rcases List.mem_append.mp here with old | new
    · exact .inl (List.mem_map.mpr ⟨x, (List.mem_filter.mp old).1, rfl⟩)
    · obtain rfl := List.mem_singleton.mp new
      exact .inr rfl
  · rintro (old | rfl)
    · obtain ⟨x, here, rfl⟩ := List.mem_map.mp old
      by_cases same : x.1 = sub.1
      · exact List.mem_map.mpr ⟨sub, by simp, same.symm⟩
      · exact List.mem_map.mpr ⟨x, by simp [here, same], rfl⟩
    · exact List.mem_map.mpr ⟨sub, by simp, rfl⟩

theorem mem_topics_register {subs : List Subscription} {sub : Subscription} {topic : String} :
    topic ∈ topics (register subs sub) ↔ topic ∈ topics subs ∨ topic = sub.1 := by
  unfold register
  split
  · rename_i present
    obtain ⟨x, here, same⟩ := List.any_eq_true.mp present
    have registered : sub.1 ∈ topics subs :=
      List.mem_map.mpr ⟨x, here, eq_of_beq same⟩
    constructor
    · exact .inl
    · rintro (old | rfl)
      · exact old
      · exact registered
  · simp [topics]

/-- A subscription on the live link reaches the session. -/
private theorem mem_session_of_kept {s : Wrapper ι} {sub : Subscription} {ok : Bool}
    (guard : (!s.linkUp || ok) = true) (up : s.linkUp = true) :
    sub.1 ∈ topics (if s.linkUp && ok then subscribeAt s.session sub else s.session) := by
  rw [up] at guard
  have accepted : ok = true := guard
  rw [up, accepted]
  exact mem_topics_subscribeAt.mpr (.inr rfl)

private theorem session_grows {s : Wrapper ι} {sub : Subscription} {ok : Bool} :
    ∀ topic ∈ topics s.session,
      topic ∈ topics (if s.linkUp && ok then subscribeAt s.session sub else s.session) := by
  intro topic mem
  split
  · exact mem_topics_subscribeAt.mpr (.inl mem)
  · exact mem

/-- At rest on a live link nothing is owed any more. -/
theorem subscribed_of_invariants {s : Wrapper ι} (recovering : Recovering s) (covered : Covered s)
    (rest : AtRest s) (up : s.linkUp = true) {topic : String}
    (registered : topic ∈ topics s.subscriptions) : topic ∈ topics s.session := by
  have flag : s.connected = true := by
    by_contra down
    obtain ⟨i, busy⟩ := recovering up (Bool.eq_false_iff.mpr down)
    rcases rest i with idle | done
    · rw [idle] at busy
      cases busy
    · rw [done] at busy
      cases busy
  rcases covered up flag topic registered with subscribed | ⟨i, serves⟩
  · exact subscribed
  · rcases rest i with idle | done
    · rw [idle] at serves
      exact serves.elim
    · rw [done] at serves
      exact serves.elim

variable [DecidableEq ι]

private theorem recovering_frame {s s' : Wrapper ι} {i : ι} {q : Pc} (before : Recovering s)
    (threads : s'.threads = Function.update s.threads i q)
    (link : s'.linkUp = true → s.linkUp = true)
    (flag : s'.connected = false → s.connected = false)
    (goesOn : s.connected = false → reconnecting (s.threads i) = true → reconnecting q = true) :
    Recovering s' := by
  intro up down
  obtain ⟨j, busy⟩ := before (link up) (flag down)
  refine ⟨j, ?_⟩
  rw [threads]
  by_cases same : j = i
  · subst same
    rw [Function.update_self]
    exact goesOn (flag down) busy
  · rw [Function.update_of_ne same]
    exact busy

private theorem recovering_here {s : Wrapper ι} {i : ι} {q : Pc}
    (busy : reconnecting q = true) : Recovering (s.setThread i q) :=
  fun _ _ => ⟨i, by rw [setThread_same]; exact busy⟩

private theorem covered_frame {s s' : Wrapper ι} {i : ι} {q : Pc} (before : Covered s)
    (threads : s'.threads = Function.update s.threads i q)
    (link : s'.linkUp = true → s.linkUp = true)
    (flag : s'.connected = true → s.connected = true) (subs : s'.subscriptions = s.subscriptions)
    (session : ∀ topic ∈ topics s.session, topic ∈ topics s'.session)
    (goesOn : s'.linkUp = true → s.connected = true → ∀ topic ∈ topics s.subscriptions,
      Serves topic (s.threads i) → Serves topic q ∨ topic ∈ topics s'.session) : Covered s' := by
  intro up set topic registered
  rw [subs] at registered
  rcases before (link up) (flag set) topic registered with subscribed | ⟨j, serves⟩
  · exact .inl (session topic subscribed)
  · by_cases same : j = i
    · subst same
      rcases goesOn up (flag set) topic registered serves with still | done
      · refine .inr ⟨j, ?_⟩
        rw [threads, Function.update_self]
        exact still
      · exact .inl done
    · refine .inr ⟨j, ?_⟩
      rw [threads, Function.update_of_ne same]
      exact serves

/-- A thread that serves every topic covers all of them. -/
private theorem covered_by {s : Wrapper ι} {i : ι} {q : Pc} (all : ∀ topic, Serves topic q) :
    Covered (s.setThread i q) :=
  fun _ _ topic _ => .inr ⟨i, by rw [setThread_same]; exact all topic⟩

private theorem running_step {s s' : Wrapper ι} {a : Act ι} (before : Running s) (guard : Kept s a)
    (move : Moves s a s') : Running s' := by
  have frame : ∀ {r : Wrapper ι} {i : ι} {q : Pc}, r.threads = Function.update s.threads i q →
      r.shutdown = s.shutdown → quitting q = false → Running r := by
    intro r i q threads shut stays
    refine ⟨shut.trans before.shutdown, fun j => ?_⟩
    rw [threads]
    by_cases same : j = i
    · subst same
      rw [Function.update_self]
      exact stays
    · rw [Function.update_of_ne same]
      exact before.threads j
  cases move with
  | callDisconnect | callDestructor => cases guard
  | testDisconnect i _ here | closeLink i _ here | clearFlag i _ here | destroy i here =>
      have stays := before.threads i
      rw [here] at stays
      cases stays
  | connectFailed i caller here => exact frame rfl rfl (by cases caller <;> rfl)
  | testShutdown | testConnected | wake | checkFlag | checkLink =>
      exact frame rfl rfl (by split <;> rfl)
  | spawn i k here running fresh =>
      have callback : Running (s.setThread i .returned) := frame rfl rfl rfl
      refine ⟨callback.shutdown, fun j => ?_⟩
      by_cases same : j = k
      · subst same
        rw [setThread_same]
        rfl
      · rw [setThread_other _ _ same]
        exact callback.threads j
  | callConnect | connectOk | setFlag | lockSubs | resubscribe | unlockSubs | notify | lose | clear
  | noSpawn | callSubscribe | register | subscribe => exact frame rfl rfl rfl

private theorem recovering_step {s s' : Wrapper ι} {a : Act ι} (before : Recovering s)
    (running : Running s) (move : Moves s a s') : Recovering s' := by
  have stays := running.threads
  have on := running.shutdown
  cases move with
  | connectOk | clear => exact recovering_here rfl
  | setFlag i caller here =>
      intro _ down
      cases down
  | lose j here up =>
      intro up
      cases up
  | noSpawn i k here stopping =>
      rw [on] at stopping
      cases stopping
  | spawn => exact recovering_here rfl
  | testDisconnect i _ here | closeLink i _ here | clearFlag i _ here | destroy i here =>
      have never := stays i
      rw [here] at never
      cases never
  | connectFailed i caller here =>
      refine recovering_frame before rfl id id fun _ busy => ?_
      rw [here] at busy
      cases caller
      · cases busy
      · rfl
  | testShutdown i here | wake i here =>
      refine recovering_frame before rfl id id fun _ _ => ?_
      rw [on]
      rfl
  | testConnected i here =>
      refine recovering_frame before rfl id id fun down _ => ?_
      rw [down]
      rfl
  | callConnect i here | lockSubs i _ here | resubscribe i _ _ _ _ here | unlockSubs i _ here
  | notify i _ here | callSubscribe i _ here | register i _ here | checkFlag i _ here
  | checkLink i _ here | subscribe i _ _ here | callDisconnect i here | callDestructor i here =>
      refine recovering_frame before rfl id id fun _ busy => ?_
      rw [here] at busy
      cases busy

private theorem covered_step {s s' : Wrapper ι} {a : Act ι} (before : Covered s) (guard : Kept s a)
    (move : Moves s a s') : Covered s' := by
  have keeps : ∀ topic ∈ topics s.session, topic ∈ topics s.session := fun _ => id
  cases move with
  | connectOk | setFlag => exact covered_by fun _ => trivial
  | lose j here up =>
      intro up
      cases up
  | clear | clearFlag =>
      intro _ set
      cases set
  | closeLink =>
      intro up
      cases up
  | lockSubs i caller here free =>
      exact covered_frame before rfl id id rfl keeps fun _ _ topic registered _ => .inl registered
  | resubscribe i ok caller sub rest here =>
      refine covered_frame before rfl id id rfl session_grows fun up _ topic _ serves => ?_
      rw [here] at serves
      rcases List.mem_cons.mp serves with rfl | later
      · exact .inr (mem_session_of_kept guard up)
      · exact .inl later
  | subscribe i ok sub here =>
      refine covered_frame before rfl id id rfl session_grows fun up _ topic _ serves => ?_
      rw [here] at serves
      obtain rfl : sub.1 = topic := serves
      exact .inr (mem_session_of_kept guard up)
  | register i sub here free =>
      intro up set topic registered
      rcases mem_topics_register.mp registered with old | rfl
      · rcases before up set topic old with subscribed | ⟨j, serves⟩
        · exact .inl subscribed
        · have ne : j ≠ i := by
            rintro rfl
            rw [here] at serves
            exact serves
          refine .inr ⟨j, ?_⟩
          rw [setThread_other _ _ ne]
          exact serves
      · refine .inr ⟨i, ?_⟩
        rw [setThread_same]
        rfl
  | checkFlag i sub here =>
      refine covered_frame before rfl id id rfl keeps fun _ set topic _ serves => .inl ?_
      rw [here] at serves
      rw [set]
      exact serves
  | checkLink i sub here =>
      refine covered_frame before rfl id id rfl keeps fun up _ topic _ serves => .inl ?_
      rw [here] at serves
      rw [show s.linkUp = true from up]
      exact serves
  | unlockSubs i caller here =>
      refine covered_frame before rfl id id rfl keeps fun _ _ topic _ serves => ?_
      rw [here] at serves
      cases serves
  | spawn i k here running fresh =>
      have callback : Covered (s.setThread i .returned) := by
        refine covered_frame before rfl id id rfl keeps fun _ _ topic _ serves => ?_
        rw [here] at serves
        exact serves.elim
      have apart : k ≠ i := by
        rintro rfl
        rw [here] at fresh
        cases fresh
      refine covered_frame callback rfl id id rfl keeps fun _ _ topic _ serves => ?_
      rw [setThread_other _ _ apart, fresh] at serves
      exact serves.elim
  | callConnect i here | connectFailed i _ here | notify i _ here | testShutdown i here
  | testConnected i here | wake i here | noSpawn i _ here | callSubscribe i _ here
  | callDisconnect i here | callDestructor i here | testDisconnect i _ here | destroy i here =>
      refine covered_frame before rfl id id rfl keeps fun _ _ topic _ serves => ?_
      rw [here] at serves
      exact serves.elim

/-- The call of `subscribe` in thread `i` goes on until its topic is registered. -/
private theorem registered_move {s s' : Wrapper ι} {a : Act ι} {i : ι} {sub : Subscription}
    (before : s.threads i = .registering sub ∨ sub.1 ∈ topics s.subscriptions)
    (move : Moves s a s') :
    s'.threads i = .registering sub ∨ sub.1 ∈ topics s'.subscriptions := by
  have frame : ∀ {r : Wrapper ι} {j : ι} {q : Pc}, r.threads = Function.update s.threads j q →
      r.subscriptions = s.subscriptions → (∀ other, s.threads j ≠ .registering other) →
      r.threads i = .registering sub ∨ sub.1 ∈ topics r.subscriptions := by
    intro r j q threads subs elsewhere
    rw [threads, subs]
    rcases before with here | done
    · have ne : i ≠ j := by
        rintro rfl
        exact elsewhere sub here
      rw [Function.update_of_ne ne]
      exact .inl here
    · exact .inr done
  cases move with
  | register j other here free =>
      rcases before with mine | done
      · by_cases same : i = j
        · subst same
          rw [here] at mine
          cases mine
          exact .inr (mem_topics_register.mpr (.inr rfl))
        · rw [setThread_other _ _ same]
          exact .inl mine
      · exact .inr (mem_topics_register.mpr (.inl done))
  | spawn j k here running fresh =>
      rcases before with mine | done
      · have first : i ≠ j := by
          rintro rfl
          rw [here] at mine
          cases mine
        have second : i ≠ k := by
          rintro rfl
          rw [fresh] at mine
          cases mine
        rw [setThread_other _ _ second, setThread_other _ _ first]
        exact .inl mine
      · exact .inr done
  | callConnect j here | connectOk j _ here | connectFailed j _ here | setFlag j _ here
  | lockSubs j _ here | resubscribe j _ _ _ _ here | unlockSubs j _ here | notify j _ here
  | testShutdown j here | testConnected j here | wake j here | lose j here | clear j here
  | noSpawn j _ here | callSubscribe j _ here | checkFlag j _ here | checkLink j _ here
  | subscribe j _ _ here | callDisconnect j here | callDestructor j here | testDisconnect j _ here
  | closeLink j _ here | clearFlag j _ here | destroy j here =>
      exact frame rfl rfl fun other => by rw [here]; exact nofun

private theorem registered_step {past : List (Act ι)} {s s' : Wrapper ι} {a : Act ι}
    (before : Registered past s) (move : Moves s a s') : Registered (past ++ [a]) s' := by
  intro i sub asked
  rcases List.mem_append.mp asked with old | new
  · exact registered_move (before i sub old) move
  · obtain rfl := List.mem_singleton.mp new
    cases move with
    | callSubscribe _ _ here => exact .inl (setThread_same _ i _)

/-- In every run of calls of `subscribe` and `connect`, losses, callbacks and
reconnect threads, when all of them are through and the link is up, every topic
ever passed to `subscribe` is in the broker's session. -/
theorem every_topic_subscribed_at_rest {run : List (Act ι)} {s : Wrapper ι}
    (replay : exec (guarded step Kept) Wrapper.start run = some s) (rest : AtRest s)
    (up : s.linkUp = true) (i : ι) (sub : Subscription) (asked : .callSubscribe i sub ∈ run) :
    sub.1 ∈ topics s.session := by
  have start : Running (Wrapper.start : Wrapper ι) ∧ Recovering (Wrapper.start : Wrapper ι) ∧
      Covered (Wrapper.start : Wrapper ι) ∧ Registered [] (Wrapper.start : Wrapper ι) :=
    ⟨⟨rfl, fun _ => rfl⟩, nofun, nofun, nofun⟩
  have kept : ∀ past r r' (a : Act ι),
      Running r ∧ Recovering r ∧ Covered r ∧ Registered past r →
      guarded step Kept r a = some r' →
      Running r' ∧ Recovering r' ∧ Covered r' ∧ Registered (past ++ [a]) r' := by
    intro past r r' a ⟨running, recovering, covered, registered⟩ next
    obtain ⟨guard, move⟩ := guarded_eq_some next
    have moves := moves_of_step move
    exact ⟨running_step running guard moves, recovering_step recovering running moves,
      covered_step covered guard moves, registered_step registered moves⟩
  obtain ⟨_, recovering, covered, registered⟩ := exec_invariant
    (I := fun past r => Running r ∧ Recovering r ∧ Covered r ∧ Registered past r) replay start kept
  apply subscribed_of_invariants recovering covered rest up
  rcases registered i sub asked with early | done
  · rcases rest i with idle | returned
    · rw [idle] at early
      cases early
    · rw [returned] at early
      cases early
  · exact done

/-- A topic is passed to `subscribe` while the reconnect thread is between its
successful connect and its write of the flag: the call is deferred, and the thread
subscribes the topic. -/
theorem topic_registered_during_reconnect_is_subscribed :
    ∃ s : Wrapper (Fin 4), AtRest s ∧ s.linkUp = true ∧ "t" ∈ topics s.session := by
  let run : List (Act (Fin 4)) :=
    [.callConnect 0, .connect 0 true, .setFlag 0, .lockSubs 0, .unlockSubs 0, .notify 0, .lose 1,
      .clear 1, .spawn 1 2, .testShutdown 2, .testConnected 2, .wake 2, .connect 2 true,
      .callSubscribe 3 ("t", 1), .register 3, .checkFlag 3, .setFlag 2, .lockSubs 2,
      .resubscribe 2 true, .unlockSubs 2, .notify 2]
  have reached : ∃ s, exec (guarded step Kept) (Wrapper.start : Wrapper (Fin 4)) run = some s ∧
      (∀ i, s.threads i = .returned) ∧ s.linkUp = true := ⟨_, rfl, by decide, rfl⟩
  obtain ⟨s, replay, done, up⟩ := reached
  have rest : AtRest s := fun i => .inr (done i)
  exact ⟨s, rest, up,
    every_topic_subscribed_at_rest replay rest up 3 ("t", 1) (by simp [run])⟩

end OrbisAgent.Mqtt.Resubscribe
