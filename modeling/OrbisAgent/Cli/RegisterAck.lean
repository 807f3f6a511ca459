/- OrbisAgent/Cli/RegisterAck
   source: src/main.cpp: doOnboarding, MQTTClientWrapper::onMessageArrived
   digest: Onboarding against a callback on another thread. The stored token is that of an ok
   acknowledgement unless one without a token arrives between the wait and the store. -/

import OrbisAgent.Cli.Onboarding
import OrbisAgent.Lib.Transition
import Mathlib.Tactic.Common

set_option autoImplicit false
set_option relaxedAutoImplicit false

namespace OrbisAgent.Cli.RegisterAck

open OrbisAgent.Cli.Onboarding (HostFacts registerPayload)
open OrbisAgent.Config.ConfigManager
open OrbisAgent.Config.Token
open OrbisAgent.Constants
open OrbisAgent.Lib.ByteString
open OrbisAgent.Lib.Json
open OrbisAgent.Lib.Transition

structure Inbound where
  topic : ByteArray
  payload : ByteArray
  deriving DecidableEq

/-- What a call of `doOnboarding` works with. An id that is not valid text is not registered,
since its payload does not dump. -/
structure Device where
  codec : Codec
  aes : Aes
  hostKey : Bytes
  platform : Platform
  device_id : String
  facts : HostFacts

/-- Points of the call between two steps that the callback may come between. -/
inductive Phase
  | start
  | connected
  | subscribed
  /-- The callback is set; about to publish. -/
  | listening
  | waiting
  /-- The wait has ended with a token; about to call `setToken`. -/
  | storing
  | saving
  | returned (result : Bool)
  | threw
  deriving DecidableEq

/-- `stored` is the token that `setToken` was called with. -/
structure State where
  phase : Phase
  received_token : ByteArray
  ack_received : Bool
  cfg : Manager
  file : Bytes
  stored : Option ByteArray
  published : Option (String × Json)

def State.initial (c : Manager) (file : Bytes) : State :=
  ⟨.start, ByteArray.empty, false, c, file, none, none⟩

/-- The outside answers that a step of the call may read. -/
structure Outside where
  connects : Bool
  publishes : Bool
  timedOut : Bool
  iv : Option Iv
  readable : Bool
  writable : Bool
  written : Nat

inductive Act
  /-- `onMessageArrived` on the thread of the MQTT library. -/
  | deliver (m : Inbound)
  | advance (o : Outside)

variable (d : Device)

def ackTopic : ByteArray := (topicFor TOPIC_REGISTER_ACK_FMT d.device_id).toByteArray

/-- The message callback. It holds `ack_mutex` while it changes the shared variables, and
catches what its JSON accessors throw. -/
def onAck (m : Inbound) (s : State) : State :=
  if m.topic ≠ ackTopic d then s
  else
    match d.codec.parse m.payload with
    | .error _ => s
    | .ok j =>
        match j.value Json.getString "status" ByteArray.empty with
        | .error _ => s
        | .ok status =>
            if status = "ok".toByteArray then
              match j.value Json.getString "token" ByteArray.empty with
              | .error _ => s
              | .ok token => { s with received_token := token, ack_received := true }
            else
              -- the text of a rejection is logged, which reads it
              match j.value Json.getString "message" "unknown".toByteArray with
              | .error _ => s
              | .ok _ => { s with ack_received := true }

/-- Messages before `setMessageCallback` find no callback. -/
def deliver (m : Inbound) (s : State) : Option State :=
  match s.phase with
  | .start | .connected | .subscribed => some s
  | .listening | .waiting | .storing | .saving => some (onAck d m s)
  | .returned _ | .threw => none

def advance (o : Outside) (s : State) : Option State :=
  match s.phase with
  | .start => some { s with phase := if o.connects then .connected else .returned false }
  | .connected => some { s with phase := .subscribed }
  | .subscribed => some { s with phase := .listening }
  | .listening =>
      let reg := registerPayload d.platform (bytes d.device_id) d.facts
      match d.codec.dump reg with
      | .error _ => some { s with phase := .threw }
      | .ok _ =>
          if o.publishes then
            some { s with phase := .waiting, published := some (TOPIC_REGISTER, reg) }
          else some { s with phase := .returned false }
  | .waiting =>
      if s.ack_received || o.timedOut then
        some { s with
          phase :=
            if !s.ack_received || s.received_token.isEmpty then .returned false else .storing }
      else none
  | .storing =>
      -- the token is read again, without the mutex
      let c := setDeviceId (bytes d.device_id) s.cfg
      match setToken d.aes d.hostKey o.iv s.received_token.data.toList c with
      | none => some { s with phase := .threw, cfg := c }
      | some c => some { s with phase := .saving, cfg := c, stored := some s.received_token }
  | .saving =>
      let (saved, after) := save (if o.readable then some s.file else none) o.writable o.written
        s.cfg
      some { s with phase := .returned saved, file := after.getD s.file }
  | .returned _ | .threw => none

def step (s : State) : Act → Option State
  | .deliver m => deliver d m s
  | .advance o => advance d o s

/-- An acknowledgement of this device with status ok and this token. -/
def OkToken (m : Inbound) (token : ByteArray) : Prop :=
  m.topic = ackTopic d ∧ ∃ fields, d.codec.parse m.payload = .ok (.obj fields) ∧
    fields.lookup "status" = some (.text "ok") ∧ fields.lookup "token" = some (.str token)

/-- An acknowledgement of this device with status ok whose token is empty or missing. -/
def empties (m : Inbound) : Bool :=
  decide (m.topic = ackTopic d) &&
    match d.codec.parse m.payload with
    | .ok (.obj fields) =>
        (match fields.lookup "status" with
          | some (.str status) => decide (status = "ok".toByteArray)
          | _ => false) &&
        match fields.lookup "token" with
        | none => true
        | some (.str token) => token.isEmpty
        | _ => false
    | _ => false

/-- No acknowledgement without a token arrives between the wait and the store. -/
def Unemptied (s : State) : Act → Prop
  | .deliver m => s.phase = .storing → empties d m = false
  | .advance _ => True

instance (s : State) : (a : Act) → Decidable (Unemptied d s a)
  | .deliver m => inferInstanceAs (Decidable (s.phase = .storing → empties d m = false))
  | .advance _ => inferInstanceAs (Decidable True)

/-- The callback pays attention to a message: it is on its topic, and a JSON object. -/
def heard : Act → Bool
  | .advance _ => true
  | .deliver m =>
      decide (m.topic = ackTopic d) &&
        match d.codec.parse m.payload with
        | .ok (.obj _) => true
        | _ => false

/-- The configuration holds a token that was received with an ok acknowledgement. -/
def Stored (past : List Act) (s : State) : Prop :=
  ∃ t, s.stored = some t ∧ t.isEmpty = false ∧ (∃ m, .deliver m ∈ past ∧ OkToken d m t) ∧
    ∃ iv, encryptToken d.aes d.hostKey iv t.data.toList = some s.cfg.token_encrypted

/-- No token is stored: the configured one and the file are those of the beginning. -/
def Untouched (c : Manager) (file : Bytes) (s : State) : Prop :=
  s.stored = none ∧ s.cfg.token_encrypted = c.token_encrypted ∧ s.file = file

/-- What the call keeps to while no acknowledgement takes the checked token away. -/
structure Sound (c : Manager) (file : Bytes) (past : List Act) (s : State) : Prop where
  received : s.received_token.isEmpty = true ∨
    ∃ m, .deliver m ∈ past ∧ OkToken d m s.received_token
  kept : s.phase = .storing → s.received_token.isEmpty = false
  outcome : Untouched c file s ∨ Stored d past s
  saving : s.phase = .saving → Stored d past s
  success : s.phase = .returned true →
    Stored d past s ∧
      ∃ content written, save (some content) true written s.cfg = (true, some s.file)

variable {d}

private theorem ok_ne_empty : "ok".toByteArray ≠ ByteArray.empty := by
  decide

/-- An ok acknowledgement whose token reads has a token, or is one without. -/
theorem token_or_empties {m : Inbound} {j : Json} {token : ByteArray}
    (topic : m.topic = ackTopic d) (parsed : d.codec.parse m.payload = .ok j)
    (status : j.value Json.getString "status" ByteArray.empty = .ok "ok".toByteArray)
    (read : j.value Json.getString "token" ByteArray.empty = .ok token) :
    OkToken d m token ∧ token.isEmpty = false ∨ token.isEmpty = true ∧ empties d m = true := by
  obtain ⟨fields, rfl, ok | ⟨_, absent⟩⟩ := Json.lookup_of_value_getString status
  swap
  · exact absurd absent ok_ne_empty
  obtain ⟨_, same, found⟩ := Json.lookup_of_value_getString read
  obtain rfl := Json.obj.inj same
  rcases found with found | ⟨missing, rfl⟩
  · cases empty : token.isEmpty with
    | false => exact .inl ⟨⟨topic, fields, parsed, ok, found⟩, rfl⟩
    | true => exact .inr ⟨rfl, by simp [empties, topic, parsed, ok, found, empty]⟩
  · exact .inr ⟨rfl, by simp [empties, topic, parsed, ok, missing]⟩

/-- What the callback does with a message: nothing, or it takes the token of an ok
acknowledgement, or it ends the wait and leaves the token as it is. -/
theorem onAck_cases (d : Device) (m : Inbound) (s : State) :
    onAck d m s = s ∨
    (∃ token, onAck d m s = { s with received_token := token, ack_received := true } ∧
      (OkToken d m token ∧ token.isEmpty = false ∨ token.isEmpty = true ∧ empties d m = true)) ∨
    onAck d m s = { s with ack_received := true } := by
  unfold onAck
  by_cases topic : m.topic = ackTopic d
  swap
  · exact .inl (if_pos topic)
  rw [if_neg (not_not.mpr topic)]
  cases parsed : d.codec.parse m.payload with
  | error e => exact .inl rfl
  | ok j =>
      dsimp only
      cases read : j.value Json.getString "status" ByteArray.empty with
      | error e => exact .inl rfl
      | ok status =>
          dsimp only
          by_cases ok : status = "ok".toByteArray
          · rw [if_pos ok]
            subst ok
            cases given : j.value Json.getString "token" ByteArray.empty with
            | error e => exact .inl rfl
            | ok token =>
                exact .inr (.inl ⟨token, rfl, token_or_empties topic parsed read given⟩)
          · rw [if_neg ok]
            cases j.value Json.getString "message" "unknown".toByteArray with
            | error e => exact .inl rfl
            | ok message => exact .inr (.inr rfl)

/-- A message that the callback does not hear changes nothing. -/
theorem onAck_unheard {m : Inbound} (ignored : heard d (.deliver m) = false) (s : State) :
    onAck d m s = s := by
  unfold onAck
  by_cases topic : m.topic = ackTopic d
  · rw [if_neg (not_not.mpr topic)]
    cases parsed : d.codec.parse m.payload with
    | error e => rfl
    | ok j =>
        cases j with
        | obj fields => simp [heard, topic, parsed] at ignored
        | _ => rfl
  · exact if_pos topic

theorem deliver_cases {m : Inbound} {s t : State} (move : deliver d m s = some t) :
    t = s ∨ t = onAck d m s := by
  unfold deliver at move
  split at move <;> simp_all

theorem step_unheard {s t : State} {a : Act} (ignored : heard d a = false)
    (move : step d s a = some t) : t = s := by
  cases a with
  | advance o => cases ignored
  | deliver m =>
      rcases deliver_cases move with same | same
      · exact same
      · rw [same, onAck_unheard ignored]

theorem Stored.later {past : List Act} {s t : State} (a : Act) (held : Stored d past s)
    (stored : t.stored = s.stored) (same : t.cfg.token_encrypted = s.cfg.token_encrypted) :
    Stored d (past ++ [a]) t := by
  obtain ⟨token, given, nonempty, ⟨m, heard, ok⟩, encrypted⟩ := held
  refine ⟨token, stored.trans given, nonempty, ⟨m, ?_, ok⟩, ?_⟩
  · exact List.mem_append_left _ heard
  · rw [same]
    exact encrypted

section Steps

variable {c : Manager} {file : Bytes} {past : List Act} {s t : State}

/-- A step that keeps what is stored, and does not come to an end that needs more. -/
theorem Sound.moves (sound : Sound d c file past s) (a : Act)
    (received : t.received_token.isEmpty = true ∨
      ∃ m, .deliver m ∈ past ++ [a] ∧ OkToken d m t.received_token)
    (kept : t.phase = .storing → t.received_token.isEmpty = false)
    (stored : t.stored = s.stored) (same : t.cfg.token_encrypted = s.cfg.token_encrypted)
    (unsaved : t.file = s.file)
    (phase : t.phase = s.phase ∧ t.cfg = s.cfg ∨ t.phase ≠ .saving ∧ t.phase ≠ .returned true) :
    Sound d c file (past ++ [a]) t where
  received := received
  kept := kept
  outcome := by
    rcases sound.outcome with ⟨none, token, untouched⟩ | held
    · exact .inl ⟨stored.trans none, same.trans token, unsaved.trans untouched⟩
    · exact .inr (held.later a stored same)
  saving here := by
    rcases phase with ⟨still, _⟩ | ⟨other, _⟩
    · exact (sound.saving (still.symm.trans here)).later a stored same
    · exact absurd here other
  success here := by
    rcases phase with ⟨still, cfg⟩ | ⟨_, other⟩
    · obtain ⟨held, saved⟩ := sound.success (still.symm.trans here)
      refine ⟨held.later a stored same, ?_⟩
      rw [cfg, unsaved]
      exact saved
    · exact absurd here other

theorem Sound.received_later (sound : Sound d c file past s) (a : Act) :
    s.received_token.isEmpty = true ∨
      ∃ m, .deliver m ∈ past ++ [a] ∧ OkToken d m s.received_token := by
  rcases sound.received with empty | ⟨m, heard, ok⟩
  · exact .inl empty
  · exact .inr ⟨m, List.mem_append_left _ heard, ok⟩

theorem sound_deliver {m : Inbound} (sound : Sound d c file past s)
    (guard : Unemptied d s (.deliver m)) (move : deliver d m s = some t) :
    Sound d c file (past ++ [.deliver m]) t := by
  have still : Sound d c file (past ++ [.deliver m]) s :=
    sound.moves _ (sound.received_later _) sound.kept rfl rfl rfl (.inl ⟨rfl, rfl⟩)
  rcases deliver_cases move with rfl | rfl
  · exact still
  rcases onAck_cases d m s with same | ⟨token, same, taken⟩ | same
  · rw [same]
    exact still
  · rw [same]
    refine sound.moves _ ?_ (fun here => ?_) rfl rfl rfl (.inl ⟨rfl, rfl⟩)
    · rcases taken with ⟨ok, _⟩ | ⟨empty, _⟩
      · exact .inr ⟨m, List.mem_append_right _ List.mem_cons_self, ok⟩
      · exact .inl empty
    · rcases taken with ⟨_, nonempty⟩ | ⟨_, empties⟩
      · exact nonempty
      · rw [guard here] at empties
        cases empties
  · rw [same]
    exact sound.moves _ (sound.received_later _) sound.kept rfl rfl rfl (.inl ⟨rfl, rfl⟩)

/-- A step of the call that stores nothing. -/
theorem Sound.phase_to (sound : Sound d c file past s) (a : Act) {phase : Phase}
    (published : Option (String × Json))
    (kept : phase = .storing → s.received_token.isEmpty = false)
    (other : phase ≠ .saving ∧ phase ≠ .returned true) :
    Sound d c file (past ++ [a]) { s with phase := phase, published := published } :=
  sound.moves a (sound.received_later a) kept rfl rfl rfl (.inr other)

theorem sound_storing {o : Outside} (sound : Sound d c file past s) (here : s.phase = .storing)
    (move : advance d o s = some t) : Sound d c file (past ++ [.advance o]) t := by
  have nonempty := sound.kept here
  rw [advance, here] at move
  dsimp only [setToken] at move
  cases encrypted : encryptToken d.aes d.hostKey o.iv s.received_token.data.toList with
  | none =>
      rw [encrypted] at move
      obtain rfl := Option.some.inj move
      exact sound.moves _ (sound.received_later _) nofun rfl rfl rfl (.inr ⟨nofun, nofun⟩)
  | some token =>
      rw [encrypted] at move
      obtain rfl := Option.some.inj move
      have held : Stored d (past ++ [.advance o])
          { s with
            phase := .saving,
            cfg := { setDeviceId (bytes d.device_id) s.cfg with token_encrypted := token },
            stored := some s.received_token } := by
        rcases sound.received_later (.advance o) with empty | good
        · rw [nonempty] at empty
          cases empty
        · exact ⟨s.received_token, rfl, nonempty, good, o.iv, encrypted⟩
      exact ⟨sound.received_later _, nofun, .inr held, fun _ => held, nofun⟩

theorem sound_saving {o : Outside} (sound : Sound d c file past s) (here : s.phase = .saving)
    (move : advance d o s = some t) : Sound d c file (past ++ [.advance o]) t := by
  have held := sound.saving here
  rw [advance, here] at move
  dsimp only at move
  cases readable : o.readable with
  | false =>
      rw [readable] at move
      obtain rfl := Option.some.inj move
      exact sound.moves _ (sound.received_later _) nofun rfl rfl rfl (.inr ⟨nofun, nofun⟩)
  | true =>
      rw [readable, if_pos rfl] at move
      cases writable : o.writable with
      | false =>
          rw [writable] at move
          obtain rfl := Option.some.inj move
          exact sound.moves _ (sound.received_later _) nofun rfl rfl rfl (.inr ⟨nofun, nofun⟩)
      | true =>
          rw [writable] at move
          obtain rfl := Option.some.inj move
          exact ⟨sound.received_later _, nofun, .inr (held.later _ rfl rfl), nofun,
            fun _ => ⟨held.later _ rfl rfl, s.file, o.written, rfl⟩⟩

theorem sound_advance {o : Outside} (sound : Sound d c file past s)
    (move : advance d o s = some t) : Sound d c file (past ++ [.advance o]) t := by
  cases here : s.phase with
  | start =>
      rw [advance, here] at move
      obtain rfl := Option.some.inj move
      apply sound.phase_to
      · cases o.connects <;> nofun
      · cases o.connects <;> exact ⟨nofun, nofun⟩
  | connected =>
      rw [advance, here] at move
      obtain rfl := Option.some.inj move
      exact sound.phase_to _ _ nofun ⟨nofun, nofun⟩
  | subscribed =>
      rw [advance, here] at move
      obtain rfl := Option.some.inj move
      exact sound.phase_to _ _ nofun ⟨nofun, nofun⟩
  | listening =>
      rw [advance, here] at move
      dsimp only at move
      split at move
      · obtain rfl := Option.some.inj move
        exact sound.phase_to _ _ nofun ⟨nofun, nofun⟩
      · cases sent : o.publishes <;> rw [sent] at move <;> obtain rfl := Option.some.inj move
        · exact sound.phase_to _ _ nofun ⟨nofun, nofun⟩
        · exact sound.phase_to _ _ nofun ⟨nofun, nofun⟩
  | waiting =>
      rw [advance, here] at move
      dsimp only at move
      by_cases wakes : (s.ack_received || o.timedOut) = true
      · rw [if_pos wakes] at move
        obtain rfl := Option.some.inj move
        apply sound.phase_to
        · cases s.ack_received <;> cases empty : s.received_token.isEmpty <;> simp
        · cases s.ack_received <;> cases s.received_token.isEmpty <;> simp
      · rw [if_neg wakes] at move
        cases move
  | storing => exact sound_storing sound here move
  | saving => exact sound_saving sound here move
  | returned result =>
      rw [advance, here] at move
      cases move
  | threw =>
      rw [advance, here] at move
      cases move

end Steps

/-- The callback takes no token from an acknowledgement without one, but takes its place. -/
theorem onAck_empties {m : Inbound} (without : empties d m = true) (s : State) :
    onAck d m s = { s with received_token := ByteArray.empty, ack_received := true } := by
  unfold empties at without
  rw [Bool.and_eq_true, decide_eq_true_eq] at without
  obtain ⟨topic, body⟩ := without
  split at body
  swap
  · cases body
  rename_i fields parsed
  rw [Bool.and_eq_true] at body
  obtain ⟨ok, token⟩ := body
  split at ok
  swap
  · cases ok
  rename_i status found
  obtain rfl := of_decide_eq_true ok
  have read : (Json.obj fields).value Json.getString "status" ByteArray.empty =
      .ok "ok".toByteArray := by
    rw [Json.value_obj, found]
    rfl
  unfold onAck
  rw [if_neg (not_not.mpr topic), parsed]
  dsimp only
  rw [read]
  dsimp only
  rw [if_pos rfl, Json.value_obj]
  split at token
  · rename_i missing
    rw [missing]
  · rename_i read given
    obtain rfl := ByteArray.size_eq_zero_iff.mp (eq_of_beq token)
    rw [given]
    rfl
  · cases token

/-- Such an acknowledgement between the wait and the store has the empty token stored. -/
theorem emptied_is_stored {m : Inbound} (without : empties d m = true) {s : State}
    (here : s.phase = .storing) (o : Outside) :
    ∃ t, exec (step d) s [.deliver m, .advance o] = some t ∧ t.phase = .saving ∧
      t.stored = some ByteArray.empty ∧ isRegistered t.cfg = false := by
  have taken : step d s (.deliver m) =
      some { s with received_token := ByteArray.empty, ack_received := true } := by
    rw [← onAck_empties without s]
    simp only [step, deliver, here]
  have stored (r : State) (storing : r.phase = .storing)
      (empty : r.received_token = ByteArray.empty) :
      step d r (.advance o) =
        some { r with
          phase := .saving,
          cfg := { setDeviceId (bytes d.device_id) r.cfg with token_encrypted := [] },
          stored := some ByteArray.empty } := by
    simp only [step, advance, storing, empty]
    rfl
  have run : exec (step d) s [.deliver m, .advance o] =
      step d { s with received_token := ByteArray.empty, ack_received := true } (.advance o) := by
    simp only [exec, taken, Option.bind_some, Option.bind_fun_some]
  exact ⟨_, run.trans (stored _ here rfl), rfl, rfl, Bool.and_false _⟩

/-- For every sequence of messages and every order of their arrival: while no acknowledgement
without a token comes between the wait and the store, a token is stored only from an ok
acknowledgement, and true is returned only after it is stored and saved. Messages that are not
JSON objects on the topic change no run. -/
theorem doOnboarding_stores_ok_token (d : Device) (c : Manager) (file : Bytes) :
    (∀ as s, exec (guarded (step d) (Unemptied d)) (State.initial c file) as = some s →
      (Untouched c file s ∨ Stored d as s) ∧
      (s.phase = .returned true → Stored d as s ∧
        ∃ content written, save (some content) true written s.cfg = (true, some s.file))) ∧
    ∀ as s, exec (step d) (State.initial c file) as = some s →
      exec (step d) (State.initial c file) (as.filter (heard d)) = some s := by
  refine ⟨fun as s run => ?_, fun as s run => ?_⟩
  · have start : Sound d c file [] (State.initial c file) :=
      ⟨.inl rfl, nofun, .inl ⟨rfl, rfl, rfl⟩, nofun, nofun⟩
    have sound : Sound d c file as s := by
      refine exec_invariant run start fun past s t a sound move => ?_
      obtain ⟨guard, move⟩ := guarded_eq_some move
      cases a with
      | deliver m => exact sound_deliver sound guard move
      | advance o => exact sound_advance sound move
    exact ⟨sound.outcome, sound.success⟩
  · exact exec_filter (fun s a t => step_unheard) run

section Probe

def okFields : List (String × Json) := [("status", .text "ok"), ("token", .text "tok")]

/-- An acknowledgement without a token. -/
def bareFields : List (String × Json) := [("status", .text "ok")]

theorem probe_wellEncoded : ∀ j ∈ [Json.obj okFields, Json.obj bareFields],
    j.wellEncoded = true := by
  simp [okFields, bareFields]

def probe : Device where
  codec := Codec.plain _ probe_wellEncoded
  aes := sampleAes
  hostKey := sampleKey
  platform := .linux
  device_id := "d1"
  facts := ⟨[], [], [], []⟩

def acknowledge (fields : List (String × Json)) : Act :=
  .deliver ⟨ackTopic probe, (plainText (.obj fields)).toByteArray⟩

/-- A step to which everything answers well. -/
def smooth : Act := .advance ⟨true, true, false, some sampleIv, true, true, 0⟩

/-- Connect, subscribe, set the callback, publish, an acknowledgement, and the end of the wait. -/
def untilStore : List Act :=
  [smooth, smooth, smooth, smooth, acknowledge okFields, smooth]

def fresh : State := .initial .initial []

theorem ok_token_is_stored :
    ∃ s, exec (guarded (step probe) (Unemptied probe)) fresh (untilStore ++ [smooth, smooth]) =
        some s ∧
      s.phase = .returned true ∧ Stored probe (untilStore ++ [smooth, smooth]) s := by
  have ends : (exec (guarded (step probe) (Unemptied probe)) fresh
      (untilStore ++ [smooth, smooth])).map State.phase = some (.returned true) := by
    rfl
  obtain ⟨s, run, returned⟩ := Option.map_eq_some_iff.mp ends
  have sound := (doOnboarding_stores_ok_token probe .initial []).1 _ s run
  exact ⟨s, run, returned, (sound.2 returned).1⟩

/-- A second acknowledgement, without a token, has the empty token stored with success. -/
theorem late_bare_ack_stores_empty_token :
    let run := untilStore ++ [acknowledge bareFields, smooth, smooth]
    ∃ s, exec (step probe) fresh run = some s ∧ s.phase = .returned true ∧
      s.stored = some ByteArray.empty ∧ isRegistered s.cfg = false ∧ ¬ Stored probe run s := by
  intro run
  have ends : (exec (step probe) fresh run).map
      (fun s => (s.phase, s.stored, isRegistered s.cfg)) =
        some (.returned true, some ByteArray.empty, false) := by
    rfl
  obtain ⟨s, done, outcome⟩ := Option.map_eq_some_iff.mp ends
  simp only [Prod.mk.injEq] at outcome
  obtain ⟨returned, stored, registered⟩ := outcome
  refine ⟨s, done, returned, stored, registered, ?_⟩
  rintro ⟨t, given, nonempty, _⟩
  obtain rfl := Option.some.inj (stored.symm.trans given)
  cases nonempty

end Probe

end OrbisAgent.Cli.RegisterAck
