/- OrbisAgent/Services/Presence
   source: main (connect, heartbeat, shutdown), HeartbeatService::run, MQTTClientWrapper::connect,
   disconnect, publish, onConnectionLost, reconnectLoop
   digest: The status that the broker shows for the device, over any number of lives of the agent,
   with links that come and go and crashes at any moment. -/

import OrbisAgent.Services.HeartbeatLives

set_option autoImplicit false
set_option relaxedAutoImplicit false

namespace OrbisAgent.Services.Presence

open OrbisAgent.Lib.Transition
open OrbisAgent.Services.Heartbeat
open OrbisAgent.Services.HeartbeatLives

/-- Where `main()` is: not running, before its connect, with the services started, and past the
shutdown signal. -/
inductive Main
  | off
  | up
  | serving
  | leaving
  deriving DecidableEq

/-- What the client sends on the topic of the status, and its farewell. -/
inductive Packet
  | status (s : Status)
  | disconnect
  deriving DecidableEq

/-- `link` is what the client believes. The broker has a session with the packets of its
connection that it has not read yet, or none, and a retained status. -/
structure World where
  main : Main
  heart : HeartbeatService
  link : Bool
  session : Option (List Packet)
  retained : Option Status

def World.start (retained : Option Status) : World := ⟨.off, .new, false, none, retained⟩

inductive Event
  | boot
  | connect (ok : Bool)
  | heart (a : Act)
  | signal
  | disconnect
  /-- The process ends, by its return from `main()` or by a crash. -/
  | exit
  /-- The client notices that the link is down. -/
  | lose
  /-- A reconnect loop connects. -/
  | reconnect
  /-- The broker reads the next packet. -/
  | deliver
  /-- The broker closes the session without a farewell, and publishes its last will. -/
  | drop
  deriving DecidableEq

/-- A new connection; a session that is still open is closed first. -/
def World.openSession (w : World) : World :=
  { w with
    link := true
    session := some []
    retained := if w.session.isSome then some .offline else w.retained }

/-- The packet goes onto the connection, where the broker may have left it. -/
def World.send (w : World) (p : Packet) : World :=
  { w with session := w.session.map fun wire => wire ++ [p] }

/-- The status that an attempt of the thread at this place sends. -/
def spoken : Pc → Status
  | .lastBeat => .offline
  | _ => .online

/-- Which steps of the heartbeat `main()` and the link allow. -/
def allowed (w : World) : Act → Bool
  | .callStart => w.main == .serving
  | .callStop => w.main == .leaving
  | .beat .accepted => w.link
  | _ => true

def step (interval_sec : Int) (w : World) : Event → Option World
  | .boot => if w.main = .off then some { w with main := .up } else none
  | .connect ok =>
      if w.main = .up then
        if ok then some { w.openSession with main := .serving } else some { w with main := .off }
      else none
  | .heart a =>
      if allowed w a then
        (Heartbeat.step interval_sec w.heart a).map fun heart =>
          if a = .beat .accepted then
            { w.send (.status (spoken w.heart.pc)) with heart := heart }
          else { w with heart := heart }
      else none
  | .signal =>
      if w.main = .serving ∧ w.heart.owner = .idle then some { w with main := .leaving } else none
  | .disconnect =>
      if w.main = .leaving ∧ w.heart.owner = .idle ∧ w.heart.running = false then
        if w.link then some { w.send .disconnect with link := false } else some w
      else none
  | .exit =>
      if w.main = .off then none
      else some { w with main := .off, heart := .new, link := false }
  | .lose => if w.link then some { w with link := false } else none
  | .reconnect =>
      if (w.main = .serving ∨ w.main = .leaving) ∧ w.link = false then some w.openSession else none
  | .deliver =>
      match w.session with
      | some (.status s :: wire) => some { w with session := some wire, retained := some s }
      | some (.disconnect :: _) => some { w with session := none }
      | _ => none
  | .drop =>
      if w.session.isSome then some { w with session := none, retained := some .offline } else none

/-- The steps, one constructor for each outcome, with what each needs. -/
inductive Moves (interval_sec : Int) (w : World) : Event → World → Prop
  | boot (here : w.main = .off) : Moves interval_sec w .boot { w with main := .up }
  | connect (here : w.main = .up) :
      Moves interval_sec w (.connect true) { w.openSession with main := .serving }
  | refused (here : w.main = .up) : Moves interval_sec w (.connect false) { w with main := .off }
  | speak (heart : HeartbeatService) (up : w.link = true)
      (next : Heartbeat.Moves interval_sec w.heart (.beat .accepted) heart) :
      Moves interval_sec w (.heart (.beat .accepted))
        { w.send (.status (spoken w.heart.pc)) with heart := heart }
  | heart (a : Act) (heart : HeartbeatService) (silent : a ≠ .beat .accepted)
      (next : Heartbeat.Moves interval_sec w.heart a heart) :
      Moves interval_sec w (.heart a) { w with heart := heart }
  | signal (here : w.main = .serving) : Moves interval_sec w .signal { w with main := .leaving }
  | farewell (idle : w.heart.owner = .idle) (stopped : w.heart.running = false)
      (up : w.link = true) :
      Moves interval_sec w .disconnect { w.send .disconnect with link := false }
  | unlinked (down : w.link = false) : Moves interval_sec w .disconnect w
  | exit : Moves interval_sec w .exit { w with main := .off, heart := .new, link := false }
  | lose : Moves interval_sec w .lose { w with link := false }
  | reconnect (down : w.link = false) : Moves interval_sec w .reconnect w.openSession
  | deliver (s : Status) (wire : List Packet) (here : w.session = some (.status s :: wire)) :
      Moves interval_sec w .deliver { w with session := some wire, retained := some s }
  | close (wire : List Packet) (here : w.session = some (.disconnect :: wire)) :
      Moves interval_sec w .deliver { w with session := none }
  | drop : Moves interval_sec w .drop { w with session := none, retained := some .offline }

theorem moves_of_step {interval_sec : Int} {w w' : World} {e : Event}
    (next : step interval_sec w e = some w') : Moves interval_sec w e w' := by
  cases e <;> simp only [step] at next
  case boot =>
    split at next <;> cases next
    exact .boot ‹_›
  case connect ok =>
    split at next
    · cases ok <;> cases next
      · exact .refused ‹_›
      · exact .connect ‹_›
    · cases next
  case heart a =>
    split at next
    · rename_i allow
      obtain ⟨heart, moved, rfl⟩ := Option.map_eq_some_iff.mp next
      have move := (Heartbeat.moves_of_step moved).2
      by_cases speaks : a = .beat .accepted
      · subst speaks
        rw [if_pos rfl]
        exact .speak heart allow move
      · rw [if_neg speaks]
        exact .heart a heart speaks move
    · cases next
  case signal =>
    split at next <;> cases next
    rename_i ready
    exact .signal ready.1
  case disconnect =>
    split at next
    · rename_i ready
      split at next <;> cases next
      · exact .farewell ready.2.1 ready.2.2 ‹_›
      · exact .unlinked (Bool.eq_false_iff.mpr ‹_›)
    · cases next
  case exit =>
    split at next <;> cases next
    exact .exit
  case lose =>
    split at next <;> cases next
    exact .lose
  case reconnect =>
    split at next <;> cases next
    rename_i ready
    exact .reconnect ready.2
  case deliver =>
    split at next <;> cases next
    · exact .deliver _ _ ‹_›
    · exact .close _ ‹_›
  case drop =>
    split at next <;> cases next
    exact .drop

/-- The status that the broker will show when it has read these packets. -/
def settled : Option Status → List Packet → Option Status
  | retained, [] => retained
  | _, .status s :: wire => settled (some s) wire
  | retained, .disconnect :: wire => settled retained wire

@[simp] theorem settled_append_status (retained : Option Status) (wire : List Packet)
    (s : Status) : settled retained (wire ++ [.status s]) = some s := by
  induction wire generalizing retained with
  | nil => rfl
  | cons p wire ih => cases p <;> exact ih _

/-- The heartbeat thread has said its last word, or there is none. -/
def Speechless (h : HeartbeatService) : Prop := h.pc = .absent ∨ h.pc = .finished

/-- A farewell comes last, and only when the broker is going to show something else than online;
so it is once the heartbeat has had its last word on a live link; and without a session the
device is not shown online. -/
structure Truthful (w : World) : Prop where
  heart : Invariant w.heart
  closed : w.session = none → w.retained ≠ some .online
  farewell : ∀ wire, w.session = some wire → .disconnect ∈ wire →
    ∃ before, wire = before ++ [.disconnect] ∧ .disconnect ∉ before ∧
      settled w.retained before ≠ some .online
  linked : w.link = true → ∀ wire, w.session = some wire → .disconnect ∉ wire
  spoken : w.link = true → Speechless w.heart →
    ∀ wire, w.session = some wire → settled w.retained wire ≠ some .online

/-- The last message of the heartbeat is built, and not refused while the link is up. -/
def LastWordTaken (w : World) (e : Event) : Prop :=
  ∀ b, e = .heart (.beat b) → w.heart.pc = .lastBeat → b = .accepted ∨ b = .refused ∧ w.link = false

instance lastWordTakenDecidable (w : World) (e : Event) : Decidable (LastWordTaken w e) :=
  match e with
  | .heart (.beat b) =>
      if h : w.heart.pc = .lastBeat → b = .accepted ∨ b = .refused ∧ w.link = false then
        isTrue fun _ same here => by cases same; exact h here
      else isFalse fun all => h (all b rfl)
  | .heart .callStart | .heart .clearStop | .heart .setRunning | .heart .spawn | .heart .callStop
  | .heart .setStop | .heart .join | .heart .clearRunning | .heart .test | .heart .testInterval
  | .heart .testStop | .heart .tick | .boot | .connect _ | .signal | .disconnect | .exit | .lose
  | .reconnect | .deliver | .drop => isTrue nofun

theorem truthful_start {retained : Option Status} (shown : retained ≠ some .online) :
    Truthful (.start retained) :=
  ⟨invariant_new, fun _ => shown, nofun, nofun, nofun⟩

variable {interval_sec : Int} {w w' : World} {e : Event}

/-- A new session starts with nothing to read, and behind the last will of an old one. -/
theorem truthful_openSession (before : Truthful w) : Truthful w.openSession := by
  have shown : w.openSession.retained ≠ some .online := by
    unfold World.openSession
    dsimp only
    split
    · nofun
    · rename_i closed
      exact before.closed (by simpa using closed)
  refine ⟨before.heart, nofun, fun wire here mem => ?_, fun _ wire here => ?_,
    fun _ _ wire here => ?_⟩
  all_goals
    obtain rfl : [] = wire := Option.some.inj here
  · cases mem
  · exact List.not_mem_nil
  · exact shown

/-- A step that leaves the connection and its packets alone. -/
private theorem truthful_same (before : Truthful w) (heart : Invariant w'.heart)
    (session : w'.session = w.session) (retained : w'.retained = w.retained)
    (link : w'.link = true → w.link = true)
    (speechless : w'.link = true → Speechless w'.heart → Speechless w.heart) : Truthful w' := by
  refine ⟨heart, ?_, ?_, ?_, ?_⟩ <;> rw [session]
  · rw [retained]
    exact before.closed
  · rw [retained]
    exact before.farewell
  · exact fun up => before.linked (link up)
  · rw [retained]
    exact fun up quiet => before.spoken (link up) (speechless up quiet)

/-- Only the last message makes the thread fall silent. -/
theorem speechless_before {h h' : HeartbeatService} {a : Act}
    (move : Heartbeat.Moves interval_sec h a h') (quiet : Speechless h') :
    Speechless h ∨ ∃ b, a = .beat b ∧ h.pc = .lastBeat := by
  cases move with
  | callStart | startAgain | clearStop | setRunning | spawnTwice | callStop | setStop
  | clearRunning => exact Or.inl quiet
  | spawn => rcases quiet with here | here <;> cases here
  | join here ended => exact Or.inl ended
  | test | testInterval | testStop =>
      rcases quiet with here | here <;> (dsimp only at here; split at here <;> cases here)
  | beat | tick => rcases quiet with here | here <;> cases here
  | lastBeat b here => exact Or.inr ⟨b, rfl, here⟩

theorem truthful_step (before : Truthful w) (guard : LastWordTaken w e)
    (move : Moves interval_sec w e w') : Truthful w' := by
  cases move with
  | boot | refused | signal =>
      exact truthful_same before before.heart rfl rfl (fun up => up) fun _ quiet => quiet
  | unlinked => exact before
  | exit => exact truthful_same before invariant_new rfl rfl nofun nofun
  | lose => exact truthful_same before before.heart rfl rfl nofun nofun
  | connect here =>
      have opened := truthful_openSession before
      exact truthful_same opened opened.heart rfl rfl (fun up => up) fun _ quiet => quiet
  | reconnect down => exact truthful_openSession before
  | drop => exact ⟨before.heart, fun _ => nofun, nofun, fun _ => nofun, fun _ _ => nofun⟩
  | heart a heart silent next =>
      refine truthful_same before (invariant_step before.heart next) rfl rfl (fun up => up) ?_
      intro up quiet
      rcases speechless_before next quiet with old | ⟨b, rfl, last⟩
      · exact old
      · -- the last message was refused, so the link is down
        rcases guard b rfl last with taken | ⟨_, down⟩
        · exact absurd (by rw [taken]) silent
        · rw [show w.link = true from up] at down
          cases down
  | speak heart up next =>
      have silentYet : ∀ {wire}, (w.send (.status (spoken w.heart.pc))).session = some wire →
          ∃ old, wire = old ++ [.status (spoken w.heart.pc)] ∧ .disconnect ∉ old := by
        intro wire here
        obtain ⟨old, was, rfl⟩ := Option.map_eq_some_iff.mp here
        exact ⟨old, rfl, before.linked up old was⟩
      refine ⟨invariant_step before.heart next, fun none => ?_, fun wire here mem => ?_,
        fun _ wire here => ?_, fun _ quiet wire here => ?_⟩
      · exact before.closed (Option.map_eq_none_iff.mp none)
      · obtain ⟨old, rfl, without⟩ := silentYet here
        exact absurd mem (by simp [without])
      · obtain ⟨old, rfl, without⟩ := silentYet here
        simp [without]
      · obtain ⟨old, rfl, _⟩ := silentYet here
        dsimp only
        rw [settled_append_status]
        cases next with
        | beat _ there => rcases quiet with now | now <;> cases now
        | lastBeat _ there =>
            rw [there]
            nofun
  | farewell idle stopped up =>
      have absent : w.heart.pc = .absent := by
        by_contra there
        have running := (before.heart.lives.watched idle).mpr there
        rw [stopped] at running
        cases running
      refine ⟨before.heart, fun none => ?_, fun wire here _ => ?_, nofun, nofun⟩
      · exact before.closed (Option.map_eq_none_iff.mp none)
      · obtain ⟨old, was, rfl⟩ := Option.map_eq_some_iff.mp here
        exact ⟨old, rfl, before.linked up old was, before.spoken up (Or.inl absent) old was⟩
  | deliver s wire here =>
      refine ⟨before.heart, nofun, fun rest same mem => ?_, fun up rest same mem => ?_,
        fun up quiet rest same => ?_⟩
      all_goals
        obtain rfl : wire = rest := Option.some.inj same
      · obtain ⟨old, split, without, shown⟩ :=
          before.farewell _ here (List.mem_cons_of_mem _ mem)
        cases old with
        | nil => cases split
        | cons p old =>
            obtain ⟨rfl, rfl⟩ := List.cons.inj split
            exact ⟨old, rfl, fun inside => without (List.mem_cons_of_mem _ inside), shown⟩
      · exact before.linked up _ here (List.mem_cons_of_mem _ mem)
      · exact before.spoken up quiet _ here
  | close wire here =>
      refine ⟨before.heart, fun _ => ?_, nofun, fun _ => nofun, fun _ _ => nofun⟩
      obtain ⟨old, split, without, shown⟩ := before.farewell _ here List.mem_cons_self
      cases old with
      | nil => exact shown
      | cons p old =>
          obtain ⟨rfl, _⟩ := List.cons.inj split
          exact absurd List.mem_cons_self without

/-- Over any number of lives of the agent, with crashes, links and reconnections at any moment:
whenever the broker has no session of the device, it does not show it online, provided that the
last message of each heartbeat is built and not refused on a live link. -/
theorem no_session_is_not_online {retained : Option Status} (shown : retained ≠ some .online)
    (run : Reaches (step interval_sec) LastWordTaken (.start retained) w) :
    w.session = none → w.retained ≠ some .online :=
  (run.invariant (truthful_start shown) fun _ _ _ before guard next =>
    truthful_step before guard (moves_of_step next)).closed

/-- The steps of `start()` and of `stop()`. -/
def startHeartbeat : List Event :=
  [.heart .callStart, .heart .clearStop, .heart .setRunning, .heart .spawn]

def stopHeartbeat : List Event := [.heart .callStop, .heart .setStop]

/-- An agent that goes on the air, loses its link, comes back, and is shut down. -/
theorem shut_down_after_a_reconnect :
    ∃ w, Reaches (step 30) LastWordTaken (.start none) w ∧ w.session = none ∧
      w.retained = some .offline ∧ (w.session = none → w.retained ≠ some .online) := by
  let events : List Event :=
    [.boot, .connect true] ++ startHeartbeat ++
    [.heart .test, .heart (.beat .accepted), .deliver, .lose, .drop, .reconnect,
      .heart .testInterval, .heart .testStop, .heart .tick, .signal] ++ stopHeartbeat ++
    [.heart .testInterval, .heart .testStop, .heart .test, .heart (.beat .accepted), .heart .join,
      .heart .clearRunning, .disconnect, .deliver, .exit, .deliver]
  have replay : ∃ w, exec (guarded (step 30) LastWordTaken) (.start none) events = some w ∧
      w.session = none ∧ w.retained = some .offline := ⟨_, rfl, rfl, rfl⟩
  obtain ⟨w, run, closed, shown⟩ := replay
  have path := exec_guarded_reaches run
  have never : (none : Option Status) ≠ some .online := nofun
  exact ⟨w, path, closed, shown, no_session_is_not_online never path⟩

/-- The condition is needed: the broker goes on showing a device online whose last message was
refused on a live link. -/
theorem refused_last_word_stays_online :
    ∃ w, Reaches (step 30) anyStep (.start none) w ∧ w.main = .off ∧ w.session = none ∧
      w.retained = some .online := by
  let events : List Event :=
    [.boot, .connect true] ++ startHeartbeat ++
    [.heart .test, .heart (.beat .accepted), .deliver, .signal] ++ stopHeartbeat ++
    [.heart .testInterval, .heart .testStop, .heart .test, .heart (.beat .refused), .heart .join,
      .heart .clearRunning, .disconnect, .exit, .deliver]
  have replay : ∃ w, exec (step 30) (.start none) events = some w ∧ w.main = .off ∧
      w.session = none ∧ w.retained = some .online := ⟨_, rfl, rfl, rfl, rfl⟩
  obtain ⟨w, run, off, closed, shown⟩ := replay
  exact ⟨w, exec_reaches_any run, off, closed, shown⟩

end OrbisAgent.Services.Presence
