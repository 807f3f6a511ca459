/- OrbisAgent/Services/ResultOrder
   source: main (publish lambda, connected callback), CommandExecutor::publishResult, LocalBuffer
   digest: The results of a command reach the broker in lifecycle order as long as none goes out
   while an earlier one is still buffered. -/

import OrbisAgent.Mqtt.Delivery
import OrbisAgent.Services.CommandResults
import Mathlib.Data.Fintype.Basic

set_option autoImplicit false
set_option relaxedAutoImplicit false

namespace OrbisAgent.Services.ResultOrder

open OrbisAgent.Buffer.LocalBuffer
open OrbisAgent.Lib.IdTable (Row Table)
open OrbisAgent.Lib.Transition
open OrbisAgent.Mqtt.Delivery (Net Event Tagged Sender Stored Held)
open OrbisAgent.Lib.Json (Json)
open OrbisAgent.Lib.Trace
open OrbisAgent.Services.CommandExecutor
open OrbisAgent.Services.CommandResults

universe u v w

/-- The stages of a command: acknowledged, executing, and the terminal ones. -/
def rank : Statut → Nat
  | .acknowledged => 0
  | .executing => 1
  | .success | .failed => 2

def Lifecycle (statuts : List Statut) : Prop := statuts.Pairwise fun a b => rank a ≤ rank b

instance (statuts : List Statut) : Decidable (Lifecycle statuts) :=
  inferInstanceAs (Decidable (statuts.Pairwise fun a b => rank a ≤ rank b))

/-- The results belong to one command and are in lifecycle order. -/
def ShowsLifecycle (results : List Published) : Prop :=
  ∃ id statuts, Lifecycle statuts ∧ Shows id results statuts

/-- A payload with a readable command id is an object. -/
private theorem object_of_readCommandId {host : Host} {payload id : ByteArray} {j : Json}
    (read : readCommandId host payload = .ok (j, id)) :
    ∃ fields, j = .obj fields ∧ host.codec.parse payload = .ok (.obj fields) := by
  obtain ⟨parsed, named⟩ := parse_of_readCommandId read
  cases j with
  | obj fields => exact ⟨fields, rfl, parsed⟩
  | null | bool | int | float | str | arr => cases named

private theorem lifecycle_of_ending {ss : List Statut} (ending : Ending ss) :
    Lifecycle (.acknowledged :: ss) := by
  obtain ⟨last, ended, rfl | rfl⟩ := ending <;> cases last <;> first | decide | cases ended

private theorem lifecycle_of_broken {ss : List Statut} (broken : Broken ss) :
    Lifecycle ss ∧ Lifecycle (ss ++ [.failed]) := by
  rcases broken with rfl | ⟨more, rfl | rfl, rfl⟩ <;> decide

/-- The scripts of the worker are what `executeCommand` publishes: whether it returns
or throws, its results are in lifecycle order. The terminal result of an `agent_update` is
published by the thread of the update, and is no result of the worker. -/
theorem executeCommand_lifecycle (host : Host) (payload : ByteArray)
    (other : ∀ fields, host.codec.parse payload = .ok (.obj fields) →
      fields.lookup "type" ≠ some (.text "agent_update")) :
    Emits World.published (executeCommand host payload) (fun _ => ShowsLifecycle)
      fun _ => ShowsLifecycle := by
  unfold executeCommand
  cases read : readCommandId host payload with
  | error e => exact Emits.pure ⟨ByteArray.empty, [], .nil, shows_nil _⟩
  | ok found =>
      obtain ⟨j, id⟩ := found
      obtain ⟨fields, rfl, parsed⟩ := object_of_readCommandId read
      have body := dispatch_emits host id (other fields parsed)
      refine Emits.tryCatch (body.weaken (fun _ l done => ?_) fun _ _ broken => broken)
        fun e l broken => ?_
      · obtain ⟨ss, ending, shown⟩ := done
        exact ⟨id, _, lifecycle_of_ending ending, shown⟩
      · obtain ⟨ss, broken, shown⟩ := broken
        obtain ⟨alone, failed⟩ := lifecycle_of_broken broken
        show Emits _ (if id.isEmpty then pure () else publishResult _ _ _ _ _ _) _ _
        split
        · refine Emits.pure ⟨id, ss, alone, ?_⟩
          rw [List.append_nil]
          exact shown
        · refine (publishResult_emits host id .failed _ _ _).weaken ?_ ?_
          · exact fun _ more last => ⟨id, _, failed, shown.append last⟩
          · intro _ more nothing
            have both := shown.append nothing
            rw [List.append_nil] at both
            exact ⟨id, ss, alone, both⟩

/-- What the publish lambda is called with: a result of the nth command that the
worker executes, or a message of another thread. Among the others are the terminal results of
an `agent_update`, which the thread of the update publishes: no order is shown of them. -/
inductive Report (μ : Type w)
  | result (execution : Nat) (statut : Statut)
  | other (m : μ)
  deriving DecidableEq

/-- The network of publishers, the results that the worker has still to publish for
its present command, and the messages that the library took, in order. -/
structure Run (ι : Type u) (κ : Type v) (μ : Type w) where
  net : Net ι κ (Report μ)
  execution : Nat
  script : List Statut
  sent : List (Tagged (Report μ))

variable {ι : Type u} {κ : Type v} {μ : Type w}

/-- A process that finds the buffer of earlier ones. -/
def Run.start (t : Table (Report μ)) (linkUp : Bool) : Run ι κ μ :=
  ⟨Net.start (t.map (Tagged.mk none)) linkUp, 0, [], []⟩

inductive Act (ι : Type u) (κ : Type v) (μ : Type w)
  /-- The worker takes the next command, which will publish these statuts. -/
  | begin (script : List Statut)
  /-- The worker calls the lambda with its next result. -/
  | report
  /-- Anything else: the other services, the link, the lambda calls and the flushes. -/
  | net (e : Event ι κ (Report μ))

/-- `z` and `x` are results of one command of this process, and `z` comes first in
the lifecycle. Rows of earlier processes carry no number. -/
def earlier (z x : Tagged (Report μ)) : Bool :=
  match z.msg, x.msg with
  | .result e st, .result e' st' =>
      z.number.isSome && x.number.isSome && e == e' && decide (rank st < rank st')
  | _, _ => false

/-- Nothing is sent after a later result of its command. -/
def InOrder (sent : List (Tagged (Report μ))) : Prop := sent.Pairwise fun x y => earlier y x = false

theorem earlier_other {z x : Tagged (Report μ)} (h : ∀ e st, z.msg ≠ .result e st) :
    earlier z x = false := by
  unfold earlier
  split
  · rename_i e st _ _ here _
    exact absurd here (h e st)
  · rfl

theorem earlier_than_other {z x : Tagged (Report μ)} (h : ∀ e st, x.msg ≠ .result e st) :
    earlier z x = false := by
  unfold earlier
  split
  · rename_i _ _ e st _ here
    exact absurd here (h e st)
  · rfl

theorem earlier_unnumbered {z x : Tagged (Report μ)} (h : x.number = none) :
    earlier z x = false := by
  unfold earlier
  split
  · simp [h]
  · rfl

/-- The messages that the library takes in a step. -/
def outgoing (s : Net ι κ (Report μ)) : Event ι κ (Report μ) → List (Tagged (Report μ))
  | .send k ok =>
      match s.senders k with
      | some (.publishing x) => if s.linkUp && ok then [x] else []
      | _ => []
  | .flush i select ok deleteFails =>
      match s.pool.flushers i with
      | some fl => acceptedMessages (fl.calls ⟨select, s.linkUp && ok, deleteFails⟩)
      | none => []
  | _ => []

/-- The rows of its batch that a flush has still to publish. -/
def unsent : Flusher (Tagged (Report μ)) → List (Row (Tagged (Report μ)))
  | .publish row rest _ => row :: rest
  | .delete _ rest _ => rest
  | .select _ | .done _ => []

/-- The rows that flush call `i` has still to publish. -/
def unsentOf (s : Net ι κ (Report μ)) (i : ι) : List (Row (Tagged (Report μ))) :=
  (s.pool.flushers i).elim [] unsent

/-- In the buffer, or in the batch of a flush that has still to publish it. -/
def Waiting (s : Net ι κ (Report μ)) (z : Tagged (Report μ)) : Prop :=
  Stored s z ∨ ∃ i, ∃ row ∈ unsentOf s i, row.msg = z

/-- No message goes out while an earlier result of its command waits. -/
def SendsInTurn (s : Run ι κ μ) : Act ι κ μ → Prop
  | .begin _ | .report => True
  | .net e => ∀ x ∈ outgoing s.net e,
      (∀ row ∈ s.net.pool.table.rows, earlier row.msg x = false) ∧
        ∀ i, ∀ row ∈ unsentOf s.net i, earlier row.msg x = false

instance [Fintype ι] (s : Run ι κ μ) : (a : Act ι κ μ) → Decidable (SendsInTurn s a)
  | .begin _ | .report => inferInstanceAs (Decidable True)
  | .net e => inferInstanceAs (Decidable (∀ x ∈ outgoing s.net e,
      (∀ row ∈ s.net.pool.table.rows, earlier row.msg x = false) ∧
        ∀ i, ∀ row ∈ unsentOf s.net i, earlier row.msg x = false))

private theorem unsent_subset_pending (fl : Flusher (Tagged (Report μ))) :
    unsent fl ⊆ fl.pending := by
  cases fl with
  | select n | done n => exact List.Subset.refl _
  | publish row rest n => exact List.Subset.refl _
  | delete row rest n => exact List.subset_cons_of_subset row (List.Subset.refl rest)

/-- What a flush has still to publish was so before, or its SELECT has just read it. -/
private theorem unsent_before {env : FlushEnv} {t t' : Table (Tagged (Report μ))}
    {fl fl' : Flusher (Tagged (Report μ))} (next : fl.step env t = some (t', fl'))
    {row : Row (Tagged (Report μ))} (mem : row ∈ unsent fl') : row ∈ unsent fl ∨ row ∈ t.rows := by
  rcases Flusher.step_cases next with ⟨n, rfl, rfl, reads, -, -⟩ |
    ⟨first, rest, n, rfl, rfl, ⟨-, rfl⟩ | ⟨-, rfl⟩⟩ | ⟨first, rest, n, rfl, rfl, rfl⟩
  · have read := unsent_subset_pending fl' mem
    rw [reads] at read
    exact .inr ((batch_sublist env.select t').subset read)
  · exact .inl (List.mem_cons_of_mem first mem)
  · cases mem
  · have left := unsent_subset_pending _ mem
    rw [pending_nextRow] at left
    exact .inl left

private theorem rows_before {env : FlushEnv} {t t' : Table (Tagged (Report μ))}
    {fl fl' : Flusher (Tagged (Report μ))} (next : fl.step env t = some (t', fl'))
    {row : Row (Tagged (Report μ))} (mem : row ∈ t'.rows) : row ∈ t.rows := by
  rcases Flusher.step_cases next with ⟨n, rfl, rfl, _⟩ | ⟨first, rest, n, rfl, rfl, _⟩ |
    ⟨first, rest, n, rfl, rfl, rfl⟩
  · exact mem
  · exact mem
  · split at mem
    · exact mem
    · exact (Table.mem_remove.mp mem).1

/-- What goes out was waiting or in a lambda call, and one message goes at a time. -/
private theorem outgoing_cases (s : Net ι κ (Report μ)) (e : Event ι κ (Report μ)) :
    outgoing s e = [] ∨ ∃ x, outgoing s e = [x] ∧ (Waiting s x ∨ Held s x) := by
  cases e with
  | send k ok =>
      cases here : s.senders k with
      | none => exact .inl (by simp [outgoing, here])
      | some call =>
          cases call with
          | storing x => exact .inl (by simp [outgoing, here])
          | publishing x =>
              cases up : s.linkUp && ok with
              | false => exact .inl (by simp [outgoing, here, up])
              | true =>
                  exact .inr ⟨x, by simp [outgoing, here, up], .inr ⟨k, _, here, rfl⟩⟩
  | flush i select ok deleteFails =>
      cases here : s.pool.flushers i with
      | none => exact .inl (by simp [outgoing, here])
      | some fl =>
          cases fl with
          | select n | delete row rest n | done n =>
              exact .inl (by simp [outgoing, here, Flusher.calls, acceptedMessages])
          | publish row rest n =>
              cases up : s.linkUp && ok with
              | false =>
                  exact .inl (by simp [outgoing, here, Flusher.calls, acceptedMessages, up])
              | true =>
                  refine .inr ⟨row.msg, ?_, .inl (.inr ⟨i, row, ?_, rfl⟩)⟩
                  · simp [outgoing, here, Flusher.calls, acceptedMessages, up]
                  · simp [unsentOf, here, unsent]
  | hand | store | call | puback | lost | reconnected => exact .inl rfl

/-- What a run keeps: every numbered message was handed over; the results handed over
and those still to come are in lifecycle order; what is in a lambda call is the
newest of its command; and nothing waits that is earlier than something sent. -/
structure Tidy (worker : κ) (s : Run ι κ μ) : Prop where
  known : ∀ x, x ∈ s.sent ∨ Waiting s.net x ∨ Held s.net x → x.number = none ∨ x ∈ s.net.handed
  script : Lifecycle s.script
  ahead : ∀ y ∈ s.net.handed, ∀ e st, y.msg = .result e st →
    e < s.execution ∨ (e = s.execution ∧ ∀ st' ∈ s.script, rank st ≤ rank st')
  others : ∀ k call, s.net.senders k = some call → k ≠ worker →
    ∀ e st, call.message.msg ≠ .result e st
  latest : ∀ x, Held s.net x → ∀ y ∈ s.net.handed, earlier x y = false
  waiting : ∀ y ∈ s.sent, ∀ z, Waiting s.net z → earlier z y = false
  order : InOrder s.sent

private theorem tidy_start {worker : κ} {t : Table (Report μ)} {up : Bool} :
    Tidy worker (Run.start t up : Run ι κ μ) := by
  refine ⟨?_, .nil, nofun, nofun, ?_, nofun, .nil⟩
  · rintro x (sent | (⟨row, present, rfl⟩ | ⟨i, row, mem, _⟩) | ⟨k, call, here, _⟩)
    · cases sent
    · obtain ⟨old, _, rfl⟩ := List.mem_map.mp present
      exact .inl rfl
    · cases mem
    · cases here
  · rintro x ⟨k, call, here, _⟩
    cases here

/-- A message of a lambda call is never earlier than one that was sent. -/
private theorem held_not_earlier {worker : κ} {s : Run ι κ μ} (before : Tidy worker s)
    {x y : Tagged (Report μ)} (held : Held s.net x)
    (there : y ∈ s.sent ∨ Waiting s.net y ∨ Held s.net y) : earlier x y = false := by
  rcases before.known y there with none | handed
  · exact earlier_unnumbered none
  · exact before.latest x held y handed

private theorem tidy_begin {worker : κ} {s : Run ι κ μ} {script : List Statut}
    (before : Tidy worker s) (lifecycle : Lifecycle script) :
    Tidy worker { s with script := script, execution := s.execution + 1 } where
  known := before.known
  script := lifecycle
  ahead y mem e st here := by
    have bound : e ≤ s.execution := by
      rcases before.ahead y mem e st here with past | ⟨present, _⟩
      · exact Nat.le_of_lt past
      · exact Nat.le_of_eq present
    exact .inl (Nat.lt_succ_of_le bound)
  others := before.others
  latest := before.latest
  waiting := before.waiting
  order := before.order

variable [DecidableEq ι] [DecidableEq κ] [DecidableEq μ]

/-- Results are handed over by the worker, and by nobody else. -/
def outside (worker : κ) : Event ι κ (Report μ) → Bool
  | .hand k (.other _) => k ≠ worker
  | .hand _ (.result _ _) => false
  | _ => true

def step (worker : κ) (s : Run ι κ μ) : Act ι κ μ → Option (Run ι κ μ)
  | .begin script =>
      if s.script = [] ∧ s.net.senders worker = none ∧ Lifecycle script then
        some { s with script := script, execution := s.execution + 1 }
      else none
  | .report =>
      match s.script with
      | [] => none
      | statut :: rest =>
          (Mqtt.Delivery.step s.net (.hand worker (.result s.execution statut))).map fun net =>
            { s with net := net, script := rest }
  | .net e =>
      if outside worker e then
        (Mqtt.Delivery.step s.net e).map fun net =>
          { s with net := net, sent := s.sent ++ outgoing s.net e }
      else none

omit [DecidableEq ι] [DecidableEq μ] in
/-- One entry of the senders has changed. -/
private theorem sender_cases {s s' : Net ι κ (Report μ)} {j k : κ}
    {next : Option (Sender (Report μ))} {call : Sender (Report μ)}
    (senders : s'.senders = Function.update s.senders j next)
    (here : s'.senders k = some call) : (j = k ∧ next = some call) ∨ s.senders k = some call := by
  rw [senders] at here
  by_cases same : j = k
  · subst same
    rw [Function.update_self] at here
    exact .inl ⟨rfl, here⟩
  · rw [Function.update_of_ne (Ne.symm same)] at here
    exact .inr here

/-- A message of a lambda call was in that call before, or is just handed over. -/
private theorem held_before {s s' : Net ι κ (Report μ)} {e : Event ι κ (Report μ)}
    (move : Mqtt.Delivery.Moves s e s') {k : κ} {call : Sender (Report μ)}
    (here : s'.senders k = some call) :
    (∃ call', s.senders k = some call' ∧ call'.message = call.message) ∨
      ∃ m, e = .hand k m ∧ call.message = ⟨some s.handed.length, m⟩ := by
  cases move with
  | hand j m free =>
      rcases sender_cases rfl here with ⟨rfl, now⟩ | old
      · cases now
        exact .inr ⟨m, rfl, rfl⟩
      · exact .inl ⟨call, old, rfl⟩
  | refused j ok x before =>
      rcases sender_cases rfl here with ⟨rfl, now⟩ | old
      · cases now
        exact .inl ⟨_, before, rfl⟩
      · exact .inl ⟨call, old, rfl⟩
  | accepted j ok x before | store j x before =>
      rcases sender_cases rfl here with ⟨_, now⟩ | old
      · cases now
      · exact .inl ⟨call, old, rfl⟩
  | call | flush | puback | lost | reconnected => exact .inl ⟨call, here, rfl⟩

/-- What waits after a step waited before, or was in a lambda call. -/
private theorem waiting_before {s s' : Net ι κ (Report μ)} {e : Event ι κ (Report μ)}
    (move : Mqtt.Delivery.Moves s e s') {z : Tagged (Report μ)} (waits : Waiting s' z) :
    Waiting s z ∨ Held s z := by
  cases move with
  | hand | accepted | refused | puback | lost | reconnected => exact .inl waits
  | store k x here =>
      rcases waits with ⟨r, present, rfl⟩ | batch
      · rcases mem_store present with old | rfl
        · exact .inl (.inl ⟨r, old, rfl⟩)
        · exact .inr ⟨k, _, here, rfl⟩
      · exact .inl (.inr batch)
  | call i pool next =>
      rcases Buffer.ConcurrentFlush.step_cases next with ⟨_, _, same, _⟩ | ⟨j, _, fresh, rfl⟩ |
        ⟨_, _, _, _, _, same, _⟩
      · cases same
      · rcases waits with stored | ⟨i', row, mem, rfl⟩
        · exact .inl (.inl stored)
        · refine .inl (.inr ⟨i', row, ?_, rfl⟩)
          by_cases same : i' = j
          · subst same
            simp [unsentOf, unsent] at mem
          · simpa [unsentOf, same] using mem
      · cases same
  | flush i select ok deleteFails fl pool here next =>
      rcases Buffer.ConcurrentFlush.step_cases next with ⟨_, _, same, _⟩ | ⟨_, same, _⟩ |
        ⟨j, env, fl', t', gl, same, here', flushes, rfl⟩
      · cases same
      · cases same
      · cases same
        rw [here] at here'
        cases here'
        rcases waits with ⟨r, present, rfl⟩ | ⟨i', row, mem, rfl⟩
        · exact .inl (.inl ⟨r, rows_before flushes present, rfl⟩)
        · by_cases same : i' = i
          · subst same
            have mine : row ∈ unsent gl := by simpa [unsentOf] using mem
            rcases unsent_before flushes mine with old | read
            · exact .inl (.inr ⟨i', row, by simpa [unsentOf, here] using old, rfl⟩)
            · exact .inl (.inl ⟨row, read, rfl⟩)
          · exact .inl (.inr ⟨i', row, by simpa [unsentOf, same] using mem, rfl⟩)

/-- The lambda is called with a message that is not earlier than any before. -/
private theorem tidy_hand {worker k : κ} {s : Run ι κ μ} {m : Report μ} (script : List Statut)
    (before : Tidy worker s) (free : s.net.senders k = none)
    (newest : ∀ y ∈ s.net.handed, earlier ⟨some s.net.handed.length, m⟩ y = false)
    (held : ∀ x, Held s.net x → earlier x ⟨some s.net.handed.length, m⟩ = false)
    (lifecycle : Lifecycle script)
    (ahead : ∀ y ∈ s.net.handed ++ [⟨some s.net.handed.length, m⟩], ∀ e st,
      y.msg = .result e st →
        e < s.execution ∨ (e = s.execution ∧ ∀ st' ∈ script, rank st ≤ rank st'))
    (mine : k ≠ worker → ∀ e st, m ≠ .result e st) :
    Tidy worker { s with
      net := Net.setSender { s.net with
        handed := s.net.handed ++ [⟨some s.net.handed.length, m⟩] } k
          (some (.publishing ⟨some s.net.handed.length, m⟩))
      script := script } := by
  have heldCases : ∀ x, Held (Net.setSender { s.net with
      handed := s.net.handed ++ [⟨some s.net.handed.length, m⟩] } k
        (some (.publishing ⟨some s.net.handed.length, m⟩))) x →
      x = ⟨some s.net.handed.length, m⟩ ∨ Held s.net x := by
    rintro x ⟨j, call, here, rfl⟩
    rcases held_before (.hand k m free) here with ⟨call', old, same⟩ | ⟨m', same, now⟩
    · exact .inr ⟨j, call', old, same⟩
    · cases same
      exact .inl now
  constructor
  · rintro x (sent | waits | now)
    · exact (before.known x (.inl sent)).imp_right (List.mem_append_left _)
    · exact (before.known x (.inr (.inl waits))).imp_right (List.mem_append_left _)
    · rcases heldCases x now with rfl | old
      · exact .inr (List.mem_append_right _ (List.mem_singleton.mpr rfl))
      · exact (before.known x (.inr (.inr old))).imp_right (List.mem_append_left _)
  · exact lifecycle
  · exact ahead
  · intro j call here other
    rcases held_before (.hand k m free) here with ⟨call', old, same⟩ | ⟨m', same, now⟩
    · rw [← same]
      exact before.others j call' old other
    · cases same
      rw [now]
      exact mine other
  · intro x now y mem
    rcases heldCases x now with rfl | old
    · rcases List.mem_append.mp mem with earlierOne | this
      · exact newest y earlierOne
      · obtain rfl := List.mem_singleton.mp this
        unfold earlier
        split <;> simp_all
    · rcases List.mem_append.mp mem with earlierOne | this
      · exact before.latest x old y earlierOne
      · obtain rfl := List.mem_singleton.mp this
        exact held x old
  · exact before.waiting
  · exact before.order

/-- Every step but a new call of the lambda. -/
private theorem tidy_quiet {worker : κ} {s : Run ι κ μ} {e : Event ι κ (Report μ)}
    {net : Net ι κ (Report μ)} (before : Tidy worker s) (guard : SendsInTurn s (.net e))
    (move : Mqtt.Delivery.Moves s.net e net) (noHand : ∀ k m, e ≠ .hand k m)
    (handed : net.handed = s.net.handed) :
    Tidy worker { s with net := net, sent := s.sent ++ outgoing s.net e } := by
  have heldCases : ∀ x, Held net x → Held s.net x := by
    rintro x ⟨j, call, here, rfl⟩
    rcases held_before move here with ⟨call', old, same⟩ | ⟨m, same, _⟩
    · exact ⟨j, call', old, same⟩
    · exact absurd same (noHand j m)
  have goes : ∀ x ∈ outgoing s.net e, Waiting s.net x ∨ Held s.net x := by
    intro x mem
    rcases outgoing_cases s.net e with nothing | ⟨y, one, place⟩
    · rw [nothing] at mem
      cases mem
    · rw [one] at mem
      obtain rfl := List.mem_singleton.mp mem
      exact place
  constructor
  · intro x there
    show x.number = none ∨ x ∈ net.handed
    rw [handed]
    rcases there with sent | waits | held
    · rcases List.mem_append.mp sent with old | new
      · exact before.known x (.inl old)
      · exact before.known x (.inr (goes x new))
    · exact before.known x (.inr (waiting_before move waits))
    · exact before.known x (.inr (.inr (heldCases x held)))
  · exact before.script
  · show ∀ y ∈ net.handed, _
    rw [handed]
    exact before.ahead
  · intro j call here other
    rcases held_before move here with ⟨call', old, same⟩ | ⟨m, same, _⟩
    · rw [← same]
      exact before.others j call' old other
    · exact absurd same (noHand j m)
  · intro x held
    show ∀ y ∈ net.handed, _
    rw [handed]
    exact before.latest x (heldCases x held)
  · intro y sent z waits
    rcases waiting_before move waits with old | held
    · rcases List.mem_append.mp sent with past | new
      · exact before.waiting y past z old
      · obtain ⟨stored, batches⟩ := guard y new
        rcases old with ⟨row, present, rfl⟩ | ⟨i, row, mem, rfl⟩
        · exact stored row present
        · exact batches i row mem
    · rcases List.mem_append.mp sent with past | new
      · exact held_not_earlier before held (.inl past)
      · exact held_not_earlier before held (.inr (goes y new))
  · refine List.pairwise_append.mpr ⟨before.order, ?_, ?_⟩
    · rcases outgoing_cases s.net e with nothing | ⟨x, one, _⟩
      · rw [nothing]
        exact .nil
      · rw [one]
        exact List.pairwise_singleton _ x
    · intro y past x new
      rcases goes x new with waits | held
      · exact before.waiting y past x waits
      · exact held_not_earlier before held (.inl past)

private theorem tidy_report {worker : κ} {s : Run ι κ μ} {statut : Statut} {rest : List Statut}
    {net : Net ι κ (Report μ)} (before : Tidy worker s) (next : s.script = statut :: rest)
    (move : Mqtt.Delivery.Moves s.net (.hand worker (.result s.execution statut)) net) :
    Tidy worker { s with net := net, script := rest } := by
  have lifecycle := before.script
  rw [next] at lifecycle
  obtain ⟨first, later⟩ := List.pairwise_cons.mp lifecycle
  have ahead := before.ahead
  rw [next] at ahead
  cases move with
  | hand _ _ free =>
      refine tidy_hand rest before free ?_ ?_ later ?_ fun ne => absurd rfl ne
      · intro y mem
        unfold earlier
        split
        · rename_i e st e' st' here there
          cases here
          rcases ahead y mem e' st' there with past | ⟨_, behind⟩
          · have apart : (s.execution == e') = false := beq_false_of_ne (by omega)
            simp [apart]
          · have notBefore : ¬ rank statut < rank st' := by
              have le := behind statut List.mem_cons_self
              omega
            simp [notBefore]
        · rfl
      · rintro x ⟨j, call, here, rfl⟩
        have ne : j ≠ worker := by
          rintro rfl
          rw [free] at here
          cases here
        exact earlier_other (before.others j call here ne)
      · intro y mem e st here
        rcases List.mem_append.mp mem with old | new
        · rcases ahead y old e st here with past | ⟨present, behind⟩
          · exact .inl past
          · exact .inr ⟨present, fun st' mem' => behind st' (List.mem_cons_of_mem _ mem')⟩
        · obtain rfl := List.mem_singleton.mp new
          cases here
          exact .inr ⟨rfl, first⟩

private theorem tidy_step {worker : κ} {s s' : Run ι κ μ} {a : Act ι κ μ} (before : Tidy worker s)
    (guard : SendsInTurn s a) (next : step worker s a = some s') : Tidy worker s' := by
  cases a with
  | begin script =>
      simp only [step] at next
      split at next <;> cases next
      rename_i ready
      exact tidy_begin before ready.2.2
  | report =>
      simp only [step] at next
      split at next
      · cases next
      · rename_i statut rest script
        obtain ⟨net, move, rfl⟩ := Option.map_eq_some_iff.mp next
        exact tidy_report before script (Mqtt.Delivery.moves_of_step move)
  | net e =>
      simp only [step] at next
      split at next
      · rename_i allowed
        obtain ⟨net, move, rfl⟩ := Option.map_eq_some_iff.mp next
        have moves := Mqtt.Delivery.moves_of_step move
        cases e with
        | hand k m =>
            cases m with
            | result e st => cases allowed
            | other m =>
                cases moves with
                | hand _ _ free =>
                    have none : outgoing s.net (.hand k (.other m)) = [] := rfl
                    rw [none, List.append_nil]
                    refine tidy_hand s.script before free
                      (fun y _ => earlier_other nofun) (fun x _ => earlier_than_other nofun)
                      before.script ?_ fun _ => nofun
                    intro y mem e st here
                    rcases List.mem_append.mp mem with old | new
                    · exact before.ahead y old e st here
                    · obtain rfl := List.mem_singleton.mp new
                      cases here
        | send | store | call | flush | puback | lost | reconnected =>
            refine tidy_quiet before guard moves nofun ?_
            cases moves <;> rfl
      · cases next

/-- In every run in which no message goes out while an earlier result of its command
is in the buffer or in the batch of a flush, the broker gets the results of every
command in lifecycle order. -/
theorem results_in_lifecycle_order_if_sent_in_turn {worker : κ} {t : Table (Report μ)}
    {up : Bool} {s : Run ι κ μ} (run : Reaches (step worker) SendsInTurn (Run.start t up) s) :
    InOrder s.sent :=
  (run.invariant (I := Tidy worker) tidy_start fun _ _ _ before guard move =>
    tidy_step before guard move).order

/-- The acknowledgement is buffered during an outage and flushed before the worker
publishes its terminal result. -/
theorem results_in_order_after_a_finished_flush :
    ∃ s : Run (Fin 1) Unit Unit, Reaches (step ()) SendsInTurn (Run.start Table.empty false) s ∧
      s.sent.map Tagged.msg = [.result 1 .acknowledged, .result 1 .success] ∧ InOrder s.sent := by
  let run : List (Act (Fin 1) Unit Unit) :=
    [.begin [.acknowledged, .success], .report, .net (.send () true), .net (.store ()),
      .net .reconnected, .net (.call 0), .net (.flush 0 .none true false),
      .net (.flush 0 .none true false), .net (.flush 0 .none true false), .report,
      .net (.send () true)]
  have reached : (exec (guarded (step ()) SendsInTurn)
      (Run.start Table.empty false : Run (Fin 1) Unit Unit) run).map
        (fun s => s.sent.map Tagged.msg) =
      some [.result 1 .acknowledged, .result 1 .success] := by decide +kernel
  obtain ⟨s, replay, sent⟩ := Option.map_eq_some_iff.mp reached
  have path := exec_guarded_reaches replay
  exact ⟨s, path, sent, results_in_lifecycle_order_if_sent_in_turn path⟩

/-- The link comes back between two results of one command: the terminal one is
published live, and the flush delivers the acknowledgement after it. -/
theorem acknowledgement_after_terminal_result :
    ∃ s : Run (Fin 1) Unit Unit, Reaches (step ()) anyStep (Run.start Table.empty false) s ∧
      s.sent.map Tagged.msg = [.result 1 .success, .result 1 .acknowledged] ∧
      ¬ InOrder s.sent := by
  let run : List (Act (Fin 1) Unit Unit) :=
    [.begin [.acknowledged, .success], .report, .net (.send () true), .net (.store ()),
      .net .reconnected, .report, .net (.send () true), .net (.call 0),
      .net (.flush 0 .none true false), .net (.flush 0 .none true false)]
  have reached : (exec (step ()) (Run.start Table.empty false : Run (Fin 1) Unit Unit) run).map
      (fun s => s.sent) =
      some [⟨some 1, .result 1 .success⟩, ⟨some 0, .result 1 .acknowledged⟩] := by decide +kernel
  obtain ⟨s, replay, sent⟩ := Option.map_eq_some_iff.mp reached
  refine ⟨s, exec_reaches_any replay, by rw [sent]; rfl, ?_⟩
  rw [sent]
  intro order
  have wrong := List.rel_of_pairwise_cons order List.mem_cons_self
  revert wrong
  decide

end OrbisAgent.Services.ResultOrder
