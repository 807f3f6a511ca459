/- OrbisAgent/Mqtt/Delivery
   source: MQTTClientWrapper::publish, LocalBuffer, main (publish lambda, flush threads)
   digest: Where a message handed to the publish lambda can be while links come and go. -/

import OrbisAgent.Buffer.ConcurrentFlush

set_option autoImplicit false
set_option relaxedAutoImplicit false

namespace OrbisAgent.Mqtt.Delivery

open OrbisAgent.Buffer.LocalBuffer
open OrbisAgent.Buffer.ConcurrentFlush (Pool Safe safe_start safe_step leaves_cases)
open OrbisAgent.Constants (BUFFER_MAX_MESSAGES)
open OrbisAgent.Lib.IdTable (Row Table)
open OrbisAgent.Lib.Transition

universe u v w

/-- A message with the number it was handed over under. Rows of earlier processes
carry no number. -/
structure Tagged (μ : Type w) where
  number : Option Nat
  msg : μ
  deriving DecidableEq

/-- A running call of the publish lambda. -/
inductive Sender (μ : Type w)
  /-- Before `mqtt->publish`. -/
  | publishing (x : Tagged μ)
  /-- `mqtt->publish` returned false; before `buffer->store`. -/
  | storing (x : Tagged μ)

def Sender.message {μ : Type w} : Sender μ → Tagged μ
  | .publishing x | .storing x => x

/-- The buffer with its flush calls, the lambda calls, and the link. The lists are
records: accepted by `MQTTClient_publishMessage` and not acknowledged on this link,
acknowledged by the broker, discarded with a lost link, pruned at capacity, and
handed to the lambda. -/
structure Net (ι : Type u) (κ : Type v) (μ : Type w) where
  pool : Pool ι (Tagged μ)
  senders : κ → Option (Sender μ)
  linkUp : Bool
  inflight : List (Tagged μ)
  acked : List (Tagged μ)
  discarded : List (Tagged μ)
  pruned : List (Tagged μ)
  handed : List (Tagged μ)

variable {ι : Type u} {κ : Type v} {μ : Type w}

def Net.start (t : Table (Tagged μ)) (linkUp : Bool) : Net ι κ μ :=
  ⟨Pool.start t, fun _ => none, linkUp, [], [], [], [], []⟩

inductive Event (ι : Type u) (κ : Type v) (μ : Type w)
  /-- The lambda is called. -/
  | hand (k : κ) (m : μ)
  /-- Its `mqtt->publish`; `ok` is the answer of the library on a live link. -/
  | send (k : κ) (ok : Bool)
  /-- Its `buffer->store`. -/
  | store (k : κ)
  | call (i : ι)
  | flush (i : ι) (select : SelectFault) (ok deleteFails : Bool)
  | puback (x : Tagged μ)
  | lost
  | reconnected

/-- The rows that a store() at capacity prunes. -/
def prunedBy (t : Table μ) : List (Row μ) :=
  if BUFFER_MAX_MESSAGES ≤ t.count then t.oldest (toDelete t) else []

variable [DecidableEq ι] [DecidableEq κ] [DecidableEq μ]

def Net.setSender (s : Net ι κ μ) (k : κ) (call : Option (Sender μ)) : Net ι κ μ :=
  { s with senders := Function.update s.senders k call }

omit [DecidableEq ι] [DecidableEq μ] in
theorem setSender_other (s : Net ι κ μ) {j k : κ} (call : Option (Sender μ)) (h : j ≠ k) :
    (s.setSender k call).senders j = s.senders j :=
  Function.update_of_ne h _ _

def step (s : Net ι κ μ) : Event ι κ μ → Option (Net ι κ μ)
  | .hand k m =>
      match s.senders k with
      | none =>
          let x : Tagged μ := ⟨some s.handed.length, m⟩
          some (Net.setSender { s with handed := s.handed ++ [x] } k (some (.publishing x)))
      | some _ => none
  | .send k ok =>
      match s.senders k with
      | some (.publishing x) =>
          if s.linkUp && ok then
            some (Net.setSender { s with inflight := s.inflight ++ [x] } k none)
          else some (s.setSender k (some (.storing x)))
      | _ => none
  | .store k =>
      match s.senders k with
      | some (.storing x) =>
          some (Net.setSender { s with
            pool := s.pool.afterStore x noStoreFaults
            pruned := s.pruned ++ (prunedBy s.pool.table).map Row.msg } k none)
      | _ => none
  | .call i => (Buffer.ConcurrentFlush.step s.pool (.call i)).map fun pool =>
      { s with pool := pool }
  | .flush i select ok deleteFails =>
      let env : FlushEnv := ⟨select, s.linkUp && ok, deleteFails⟩
      match s.pool.flushers i with
      | none => none
      | some fl => (Buffer.ConcurrentFlush.step s.pool (.flush i env)).map fun pool =>
          { s with pool := pool, inflight := s.inflight ++ acceptedMessages (fl.calls env) }
  | .puback x =>
      if x ∈ s.inflight then
        some { s with inflight := s.inflight.erase x, acked := s.acked ++ [x] }
      else none
  | .lost =>
      if s.linkUp then
        some { s with linkUp := false, inflight := [], discarded := s.discarded ++ s.inflight }
      else none
  | .reconnected => if s.linkUp then none else some { s with linkUp := true }

inductive Moves (s : Net ι κ μ) : Event ι κ μ → Net ι κ μ → Prop
  | hand (k : κ) (m : μ) (free : s.senders k = none) : Moves s (.hand k m)
      (Net.setSender { s with handed := s.handed ++ [⟨some s.handed.length, m⟩] } k
        (some (.publishing ⟨some s.handed.length, m⟩)))
  | accepted (k : κ) (ok : Bool) (x : Tagged μ) (here : s.senders k = some (.publishing x))
      (up : s.linkUp = true) : Moves s (.send k ok)
        (Net.setSender { s with inflight := s.inflight ++ [x] } k none)
  | refused (k : κ) (ok : Bool) (x : Tagged μ) (here : s.senders k = some (.publishing x)) :
      Moves s (.send k ok) (s.setSender k (some (.storing x)))
  | store (k : κ) (x : Tagged μ) (here : s.senders k = some (.storing x)) : Moves s (.store k)
      (Net.setSender { s with
        pool := s.pool.afterStore x noStoreFaults
        pruned := s.pruned ++ (prunedBy s.pool.table).map Row.msg } k none)
  | call (i : ι) (pool : Pool ι (Tagged μ))
      (next : Buffer.ConcurrentFlush.step s.pool (.call i) = some pool) :
      Moves s (.call i) { s with pool := pool }
  | flush (i : ι) (select : SelectFault) (ok deleteFails : Bool) (fl : Flusher (Tagged μ))
      (pool : Pool ι (Tagged μ)) (here : s.pool.flushers i = some fl)
      (next : Buffer.ConcurrentFlush.step s.pool
        (.flush i ⟨select, s.linkUp && ok, deleteFails⟩) = some pool) :
      Moves s (.flush i select ok deleteFails)
        { s with
          pool := pool
          inflight := s.inflight ++
            acceptedMessages (fl.calls ⟨select, s.linkUp && ok, deleteFails⟩) }
  | puback (x : Tagged μ) (sent : x ∈ s.inflight) : Moves s (.puback x)
      { s with inflight := s.inflight.erase x, acked := s.acked ++ [x] }
  | lost : Moves s .lost
      { s with linkUp := false, inflight := [], discarded := s.discarded ++ s.inflight }
  | reconnected (down : s.linkUp = false) : Moves s .reconnected { s with linkUp := true }

theorem moves_of_step {s s' : Net ι κ μ} {a : Event ι κ μ} (move : step s a = some s') :
    Moves s a s' := by
  cases a <;> simp only [step] at move
  case hand k m =>
    split at move <;> cases move
    exact .hand k m ‹_›
  case send k ok =>
    split at move
    · split at move <;> cases move
      · rename_i x here up
        exact .accepted k ok x here (Bool.and_eq_true_iff.mp up).1
      · exact .refused k ok _ ‹_›
    · cases move
  case store k =>
    split at move <;> cases move
    exact .store k _ ‹_›
  case call i =>
    obtain ⟨pool, next, rfl⟩ := Option.map_eq_some_iff.mp move
    exact .call i pool next
  case flush i select ok deleteFails =>
    split at move
    · cases move
    · rename_i fl here
      obtain ⟨pool, next, rfl⟩ := Option.map_eq_some_iff.mp move
      exact .flush i select ok deleteFails fl pool here next
  case puback x =>
    split at move <;> cases move
    exact .puback x ‹_›
  case lost =>
    split at move <;> cases move
    exact .lost
  case reconnected =>
    split at move <;> cases move
    exact .reconnected (Bool.eq_false_iff.mpr ‹_›)

/-- The library has taken the message: it was acknowledged, waits for that on the
live link, or was discarded with a lost link. -/
def Accepted (s : Net ι κ μ) (x : Tagged μ) : Prop :=
  x ∈ s.acked ∨ x ∈ s.inflight ∨ x ∈ s.discarded

def Stored (s : Net ι κ μ) (x : Tagged μ) : Prop := ∃ r ∈ s.pool.table.rows, r.msg = x

/-- A call of the lambda still has the message. -/
def Held (s : Net ι κ μ) (x : Tagged μ) : Prop :=
  ∃ k call, s.senders k = some call ∧ call.message = x

def Accounted (s : Net ι κ μ) (x : Tagged μ) : Prop :=
  Accepted s x ∨ Stored s x ∨ x ∈ s.pruned ∨ Held s x

structure Kept (s : Net ι κ μ) : Prop where
  safe : Safe s.pool
  sent : ∀ i row, (i, row, true) ∈ s.pool.handed → Accepted s row.msg
  live : s.linkUp = false → s.inflight = []
  accounted : ∀ x ∈ s.handed, Accounted s x

/-- What the library has taken stays taken. -/
theorem accepted_step {s s' : Net ι κ μ} {a : Event ι κ μ} (move : Moves s a s') {x : Tagged μ}
    (taken : Accepted s x) : Accepted s' x := by
  cases move with
  | hand | refused | store | call | reconnected => exact taken
  | accepted | flush =>
      rcases taken with acked | sent | lost
      · exact .inl acked
      · exact .inr (.inl (List.mem_append_left _ sent))
      · exact .inr (.inr lost)
  | puback y sent =>
      rcases taken with acked | waiting | lost
      · exact .inl (List.mem_append_left _ acked)
      · by_cases same : x = y
        · subst same
          exact .inl (List.mem_append_right _ (List.mem_singleton.mpr rfl))
        · exact .inr (.inl ((List.mem_erase_of_ne same).mpr waiting))
      · exact .inr (.inr lost)
  | lost =>
      rcases taken with acked | waiting | lost
      · exact .inl acked
      · exact .inr (.inr (List.mem_append_right _ waiting))
      · exact .inr (.inr (List.mem_append_left _ lost))

omit [DecidableEq μ] in
/-- The calls of `flush_fn_` recorded by one step of a flush. -/
private theorem handed_flush {p p' : Pool ι (Tagged μ)} {i : ι} {env : FlushEnv}
    {fl : Flusher (Tagged μ)} (here : p.flushers i = some fl)
    (next : Buffer.ConcurrentFlush.step p (.flush i env) = some p') :
    p'.handed = p.handed ++ (fl.calls env).map (i, ·) := by
  simp only [Buffer.ConcurrentFlush.step, here] at next
  obtain ⟨_, _, rfl⟩ := Option.map_eq_some_iff.mp next
  rfl

private theorem sent_step {s s' : Net ι κ μ} {a : Event ι κ μ} (kept : Kept s)
    (move : Moves s a s') :
    ∀ i row, (i, row, true) ∈ s'.pool.handed → Accepted s' row.msg := by
  have old : ∀ i row, (i, row, true) ∈ s.pool.handed → Accepted s' row.msg :=
    fun i row h => accepted_step move (kept.sent i row h)
  cases move with
  | hand | accepted | refused | store | puback | lost | reconnected => exact old
  | call i pool next =>
      intro j row h
      rcases Buffer.ConcurrentFlush.step_cases next with ⟨_, _, same, _⟩ | ⟨_, _, _, rfl⟩ |
        ⟨_, _, _, _, _, same, _⟩
      · cases same
      · exact old j row h
      · cases same
  | flush i select ok deleteFails fl pool here next =>
      intro j row h
      rw [handed_flush here next] at h
      rcases List.mem_append.mp h with before | now
      · exact old j row before
      · obtain ⟨call, hc, same⟩ := List.mem_map.mp now
        cases same
        exact .inr (.inl (List.mem_append_right _ (mem_acceptedMessages hc)))

/-- A stored message is pruned at capacity, or leaves only after the library has
taken it. -/
private theorem stored_step {s s' : Net ι κ μ} {a : Event ι κ μ} (kept : Kept s)
    (move : Moves s a s') {x : Tagged μ} (stored : Stored s x) :
    Stored s' x ∨ x ∈ s'.pruned ∨ Accepted s' x := by
  obtain ⟨r, present, rfl⟩ := stored
  have taken : ∀ i, (i, r, true) ∈ s.pool.handed → Accepted s' r.msg :=
    fun i h => accepted_step move (kept.sent i r h)
  cases move with
  | hand | accepted | refused | puback | lost | reconnected => exact .inl ⟨r, present, rfl⟩
  | store k y here =>
      by_cases stays : r ∈ (store noStoreFaults y s.pool.table).rows
      · exact .inl ⟨r, stays, rfl⟩
      · obtain ⟨full, oldest⟩ := pruned_of_store present stays
        have cut : r ∈ prunedBy s.pool.table := by
          rw [prunedBy, if_pos full]
          exact oldest
        exact .inr (.inl (List.mem_append_right _ (List.mem_map_of_mem cut)))
  | call i pool next =>
      by_cases stays : r ∈ pool.table.rows
      · exact .inl ⟨r, stays, rfl⟩
      · rcases leaves_cases kept.safe next present stays with
          ⟨_, _, same, _⟩ | ⟨_, _, _, _, same, _⟩
        · cases same
        · cases same
  | flush i select ok deleteFails fl pool here next =>
      by_cases stays : r ∈ pool.table.rows
      · exact .inl ⟨r, stays, rfl⟩
      · rcases leaves_cases kept.safe next present stays with
          ⟨_, _, same, _⟩ | ⟨j, _, _, _, _, _, h⟩
        · cases same
        · exact .inr (.inr (taken j h))

omit [DecidableEq μ] in
private theorem newRow_stored (t : Table (Tagged μ)) (x : Tagged μ) :
    ∃ r ∈ (store noStoreFaults x t).rows, r.msg = x := by
  refine ⟨(pruneIfNeeded noStoreFaults t).newRow x, ?_, rfl⟩
  simp [store, noStoreFaults]

/-- The message of a lambda call stays with it until it is sent or stored. -/
private theorem held_step {s s' : Net ι κ μ} {a : Event ι κ μ} (move : Moves s a s')
    {x : Tagged μ} (held : Held s x) : Held s' x ∨ Accepted s' x ∨ Stored s' x := by
  obtain ⟨j, c, calling, rfl⟩ := held
  have elsewhere : ∀ {k : κ} {next : Option (Sender μ)} {r : Net ι κ μ}, j ≠ k →
      r.senders = s.senders → Held (r.setSender k next) c.message := by
    intro k next r ne same
    refine ⟨j, c, ?_, rfl⟩
    rw [setSender_other r next ne, same]
    exact calling
  cases move with
  | call | flush | puback | lost | reconnected => exact .inl ⟨j, c, calling, rfl⟩
  | hand k m free =>
      refine .inl (elsewhere ?_ rfl)
      rintro rfl
      rw [free] at calling
      cases calling
  | accepted k ok y here up =>
      by_cases same : j = k
      · subst same
        rw [here] at calling
        cases calling
        exact .inr (.inl (.inr (.inl (List.mem_append_right _ (List.mem_singleton.mpr rfl)))))
      · exact .inl (elsewhere same rfl)
  | refused k ok y here =>
      by_cases same : j = k
      · subst same
        rw [here] at calling
        cases calling
        exact .inl ⟨j, .storing y, Function.update_self _ _ _, rfl⟩
      · exact .inl (elsewhere same rfl)
  | store k y here =>
      by_cases same : j = k
      · subst same
        rw [here] at calling
        cases calling
        exact .inr (.inr (newRow_stored s.pool.table y))
      · exact .inl (elsewhere same rfl)

private theorem safe_pool {s s' : Net ι κ μ} {a : Event ι κ μ} (kept : Kept s)
    (move : Moves s a s') : Safe s'.pool := by
  cases move with
  | hand | accepted | refused | puback | lost | reconnected => exact kept.safe
  | store k x here => exact safe_step kept.safe (a := .store x noStoreFaults) rfl
  | call i pool next => exact safe_step kept.safe next
  | flush i select ok deleteFails fl pool here next => exact safe_step kept.safe next

private theorem live_step {s s' : Net ι κ μ} {a : Event ι κ μ} (kept : Kept s)
    (move : Moves s a s') : s'.linkUp = false → s'.inflight = [] := by
  cases move with
  | hand | refused | store | call => exact kept.live
  | accepted k ok x here up =>
      intro down
      have up' : s.linkUp = false := down
      rw [up] at up'
      cases up'
  | flush i select ok deleteFails fl pool here next =>
      intro down
      have down' : s.linkUp = false := down
      -- no call is answered with true while the link is down
      have none : acceptedMessages (fl.calls ⟨select, s.linkUp && ok, deleteFails⟩) = [] := by
        rw [down']
        cases fl <;> rfl
      show s.inflight ++ acceptedMessages _ = []
      rw [none, List.append_nil]
      exact kept.live down'
  | puback x sent =>
      intro down
      rw [kept.live down] at sent
      cases sent
  | lost => exact fun _ => rfl
  | reconnected down =>
      intro up
      cases up

theorem kept_step {s s' : Net ι κ μ} {a : Event ι κ μ} (kept : Kept s) (move : Moves s a s') :
    Kept s' := by
  have same : ∀ x ∈ s.handed, Accounted s' x := by
    intro x hx
    rcases kept.accounted x hx with taken | stored | cut | held
    · exact .inl (accepted_step move taken)
    · rcases stored_step kept move stored with stays | cut | taken
      · exact .inr (.inl stays)
      · exact .inr (.inr (.inl cut))
      · exact .inl taken
    · refine .inr (.inr (.inl ?_))
      cases move with
      | store => exact List.mem_append_left _ cut
      | hand | accepted | refused | call | flush | puback | lost | reconnected => exact cut
    · rcases held_step move held with held | taken | stored
      · exact .inr (.inr (.inr held))
      · exact .inl taken
      · exact .inr (.inl stored)
  refine ⟨safe_pool kept move, sent_step kept move, live_step kept move, ?_⟩
  cases move with
  | hand k m free =>
      intro x hx
      rcases List.mem_append.mp hx with old | new
      · exact same x old
      · obtain rfl := List.mem_singleton.mp new
        exact .inr (.inr (.inr ⟨k, _, Function.update_self _ _ _, rfl⟩))
  | accepted | refused | store | call | flush | puback | lost | reconnected => exact same

theorem kept_of_run {t : Table (Tagged μ)} {up : Bool} {s : Net ι κ μ}
    (run : Reaches step anyStep (Net.start t up) s) : Kept s := by
  have start : Kept (Net.start t up : Net ι κ μ) := by
    refine ⟨safe_start t, ?_, fun _ => rfl, ?_⟩
    · intro i row h
      cases h
    · intro x hx
      cases hx
  exact run.invariant start fun _ _ _ kept _ move => kept_step kept (moves_of_step move)

/-- No message disappears without a disconnection: unless it was pruned, it is
acknowledged, stored, in flight on the live link, still with its lambda call, or
was in flight on a link that was lost before its PUBACK. -/
theorem message_accounted_for {t : Table (Tagged μ)} {up : Bool} {s : Net ι κ μ}
    (run : Reaches step anyStep (Net.start t up) s) :
    ∀ x ∈ s.handed, x ∉ s.pruned → x ∈ s.acked ∨ Stored s x ∨ (x ∈ s.inflight ∧ s.linkUp = true) ∨
      Held s x ∨ x ∈ s.discarded := by
  have kept := kept_of_run run
  intro x hx notPruned
  rcases kept.accounted x hx with (acked | waiting | lost) | stored | cut | held
  · exact .inl acked
  · refine .inr (.inr (.inl ⟨waiting, ?_⟩))
    cases up' : s.linkUp with
    | true => rfl
    | false =>
        rw [kept.live up'] at waiting
        cases waiting
  · exact .inr (.inr (.inr (.inr lost)))
  · exact .inr (.inl stored)
  · exact absurd cut notPruned
  · exact .inr (.inr (.inr (.inl held)))

theorem message_accounted_for_after_outage :
    ∃ s : Net Unit Unit String, Reaches step anyStep (Net.start Table.empty true) s ∧
      s.handed = [⟨some 0, "status"⟩, ⟨some 1, "result"⟩] ∧
      s.acked = [⟨some 0, "status"⟩] ∧ s.linkUp = false ∧ Stored s ⟨some 1, "result"⟩ ∧
      ∀ x ∈ s.handed, x ∉ s.pruned → x ∈ s.acked ∨ Stored s x ∨
        (x ∈ s.inflight ∧ s.linkUp = true) ∨ Held s x ∨ x ∈ s.discarded := by
  let run : List (Event Unit Unit String) :=
    [.hand () "status", .send () true, .puback ⟨some 0, "status"⟩, .lost, .hand () "result",
      .send () true, .store ()]
  have reached : ∃ s, exec step (Net.start Table.empty true) run = some s ∧
      s.handed = [⟨some 0, "status"⟩, ⟨some 1, "result"⟩] ∧ s.acked = [⟨some 0, "status"⟩] ∧
      s.linkUp = false ∧ s.pool.table.rows = [⟨1, ⟨some 1, "result"⟩⟩] :=
    ⟨_, rfl, by decide, by decide, by decide, by decide⟩
  obtain ⟨s, replay, handed, acked, down, rows⟩ := reached
  have path := exec_reaches_any replay
  refine ⟨s, path, handed, acked, down, ?_, message_accounted_for path⟩
  exact ⟨⟨1, ⟨some 1, "result"⟩⟩, by rw [rows]; exact List.mem_singleton.mpr rfl, rfl⟩

/-- The link is lost between the report of `MQTTClient_publishMessage` and the
PUBACK: the lambda has returned true and the message is nowhere. -/
theorem accepted_message_lost_with_the_link :
    ∃ s : Net Unit Unit String, Reaches step anyStep (Net.start Table.empty true) s ∧
      ∃ x ∈ s.handed, x ∉ s.pruned ∧ s.senders () = none ∧
        ¬ (x ∈ s.acked ∨ Stored s x ∨ (x ∈ s.inflight ∧ s.linkUp = true)) := by
  let run : List (Event Unit Unit String) := [.hand () "result", .send () true, .lost]
  have reached : ∃ s, exec step (Net.start Table.empty true) run = some s ∧
      s.handed = [⟨some 0, "result"⟩] ∧ s.pruned = [] ∧ s.senders () = none ∧ s.acked = [] ∧
      s.pool.table.rows = [] ∧ s.inflight = [] :=
    ⟨_, rfl, by decide, by decide, rfl, by decide, by decide, by decide⟩
  obtain ⟨s, replay, handed, pruned, returned, acked, rows, inflight⟩ := reached
  refine ⟨s, exec_reaches_any replay, ⟨some 0, "result"⟩, ?_, ?_, returned, ?_⟩
  · rw [handed]
    exact List.mem_singleton.mpr rfl
  · rw [pruned]
    exact List.not_mem_nil
  · rintro (acknowledged | ⟨r, stored, _⟩ | ⟨waiting, _⟩)
    · rw [acked] at acknowledged
      cases acknowledged
    · rw [rows] at stored
      cases stored
    · rw [inflight] at waiting
      cases waiting

end OrbisAgent.Mqtt.Delivery
