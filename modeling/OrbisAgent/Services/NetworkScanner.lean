/- OrbisAgent/Services/NetworkScanner
   source: src/services/NetworkScanner.cpp: scan, pingHost, probePort
   digest: One scan as a step system: its bounded queue of probe tasks, what a task reports of a
   host, and the payload at the end. -/

import OrbisAgent.Constants
import OrbisAgent.Lib.Json
import OrbisAgent.Lib.Transition

set_option autoImplicit false
set_option relaxedAutoImplicit false

namespace OrbisAgent.Services.NetworkScanner

open OrbisAgent.Constants (TOPIC_DISCOVERY_FMT topicFor)
open OrbisAgent.Lib.Json
open OrbisAgent.Lib.Transition

/-- What a host does with a connection request to a port. -/
inductive Behaviour
  | accepts
  | refuses
  | drops
  deriving DecidableEq

/-- Whether `select` reports the connecting socket writable before its timeout. -/
def writable : Behaviour → Bool
  | .accepts | .refuses => true
  | .drops => false

/-- The network: the hosts' ports by number, their names, and how long a ping takes. -/
structure Lan where
  behaviour : String → Nat → Behaviour
  hostname : String → ByteArray
  response_ms : String → Int

/-- The port is dialled as a `uint16_t`. -/
def probePort (lan : Lan) (ip : String) (port : Int) : Bool :=
  writable (lan.behaviour ip (UInt16.ofInt port).toNat)

def pingHost (lan : Lan) (ip : String) : Bool :=
  probePort lan ip 80 || probePort lan ip 443 || probePort lan ip 22

structure Neighbor where
  ip : String
  hostname : ByteArray
  open_ports : List Int
  response_time_ms : Int

/-- What one probe task adds to `neighbors`. -/
def probeHost (lan : Lan) (ports : List Int) (ip : String) : Option Neighbor :=
  if !pingHost lan ip then none
  else
    some {
      ip := ip
      hostname := lan.hostname ip
      open_ports := ports.filter fun port => probePort lan ip port
      response_time_ms := lan.response_ms ip }

/-- What a scan has determined before it starts its tasks. -/
structure Setup where
  lan : Lan
  ports : List Int
  device_id : String
  timestamp : String
  network : String
  codec : Codec

def neighborJson (n : Neighbor) : Json :=
  .obj [("hostname", .str n.hostname), ("ip", .text n.ip),
    ("open_ports", .arr (n.open_ports.map .int)), ("response_time_ms", .int n.response_time_ms)]

def discoveryJson (c : Setup) (neighbors : List Neighbor) : Json :=
  .obj [("device_id", .text c.device_id), ("neighbors", .arr (neighbors.map neighborJson)),
    ("network", .text c.network), ("timestamp", .text c.timestamp)]

def concurrency : Nat := 32

/-- An element of `tasks`, which stays there after it has finished. -/
structure Task where
  ip : String
  finished : Bool

/-- In the loop over the hosts before and after the test of `stop_requested_`, at the waits
behind it, and returned. -/
inductive Phase
  | head
  | admitted
  | joining
  | done
  deriving DecidableEq

/-- The last two fields are records: the hosts whose tasks have finished, in this order,
and what was published. -/
structure Scan where
  phase : Phase
  todo : List String
  stop_requested : Bool
  tasks : List Task
  neighbors : List Neighbor
  finished : List String
  published : Option (String × Json)

def Scan.start (hosts : List String) : Scan := ⟨.head, hosts, false, [], [], [], none⟩

inductive Act
  | stop
  | next
  | dropFront
  | launch
  | finish (k : Nat)
  | publish
  deriving DecidableEq

def step (c : Setup) (s : Scan) : Act → Option Scan
  | .stop => some { s with stop_requested := true }
  | .next =>
      if s.phase = .head then
        some { s with phase := if s.todo.isEmpty || s.stop_requested then .joining else .admitted }
      else none
  | .dropFront =>
      if s.phase = .admitted ∧ concurrency ≤ s.tasks.length then
        match s.tasks with
        | ⟨_, true⟩ :: rest => some { s with tasks := rest }
        | _ => none
      else none
  | .launch =>
      if s.phase = .admitted ∧ s.tasks.length < concurrency then
        match s.todo with
        | ip :: rest =>
            some { s with phase := .head, todo := rest, tasks := s.tasks ++ [⟨ip, false⟩] }
        | [] => none
      else none
  | .finish k =>
      match s.tasks[k]? with
      | some ⟨ip, false⟩ =>
          some { s with
            tasks := s.tasks.set k ⟨ip, true⟩
            neighbors := s.neighbors ++ (probeHost c.lan c.ports ip).toList
            finished := s.finished ++ [ip] }
      | _ => none
  | .publish =>
      if s.phase = .joining ∧ s.tasks.all Task.finished then
        match c.codec.dump (discoveryJson c s.neighbors) with
        | .ok _ =>
            some { s with
              phase := .done
              published := some (topicFor TOPIC_DISCOVERY_FMT c.device_id,
                discoveryJson c s.neighbors) }
        | .error _ => some { s with phase := .done }
      else none

/-- What each step can do. -/
inductive Moves (c : Setup) (s : Scan) : Act → Scan → Prop
  | stop : Moves c s .stop { s with stop_requested := true }
  | leave (here : s.phase = .head) (ends : (s.todo.isEmpty || s.stop_requested) = true) :
      Moves c s .next { s with phase := .joining }
  | enter (here : s.phase = .head) (goesOn : (s.todo.isEmpty || s.stop_requested) = false) :
      Moves c s .next { s with phase := .admitted }
  | dropFront (ip : String) (rest : List Task) (here : s.phase = .admitted)
      (full : concurrency ≤ s.tasks.length) (front : s.tasks = ⟨ip, true⟩ :: rest) :
      Moves c s .dropFront { s with tasks := rest }
  | launch (ip : String) (rest : List String) (here : s.phase = .admitted)
      (room : s.tasks.length < concurrency) (next : s.todo = ip :: rest) :
      Moves c s .launch { s with phase := .head, todo := rest, tasks := s.tasks ++ [⟨ip, false⟩] }
  | finish (k : Nat) (ip : String) (here : s.tasks[k]? = some ⟨ip, false⟩) :
      Moves c s (.finish k) { s with
        tasks := s.tasks.set k ⟨ip, true⟩
        neighbors := s.neighbors ++ (probeHost c.lan c.ports ip).toList
        finished := s.finished ++ [ip] }
  | publish (here : s.phase = .joining) (ended : s.tasks.all Task.finished = true) (text : String)
      (dumped : c.codec.dump (discoveryJson c s.neighbors) = .ok text) :
      Moves c s .publish { s with
        phase := .done
        published := some (topicFor TOPIC_DISCOVERY_FMT c.device_id,
          discoveryJson c s.neighbors) }
  | throws (here : s.phase = .joining) (ended : s.tasks.all Task.finished = true) (e : Exn)
      (failed : c.codec.dump (discoveryJson c s.neighbors) = .error e) :
      Moves c s .publish { s with phase := .done }

theorem moves_of_step {c : Setup} {s s' : Scan} {a : Act} (move : step c s a = some s') :
    Moves c s a s' := by
  cases a with
  | stop =>
      obtain rfl := Option.some.inj move
      exact .stop
  | next =>
      simp only [step] at move
      split at move <;> cases move
      rename_i here
      cases test : s.todo.isEmpty || s.stop_requested with
      | true => exact .leave here test
      | false => exact .enter here test
  | dropFront =>
      simp only [step] at move
      split at move
      · rename_i here
        split at move <;> cases move
        rename_i front
        exact .dropFront _ _ here.1 here.2 front
      · cases move
  | launch =>
      simp only [step] at move
      split at move
      · rename_i here
        split at move <;> cases move
        rename_i front
        exact .launch _ _ here.1 here.2 front
      · cases move
  | finish k =>
      simp only [step] at move
      split at move <;> cases move
      rename_i here
      exact .finish k _ here
  | publish =>
      simp only [step] at move
      split at move
      · rename_i here
        split at move <;> cases move
        · rename_i dumped
          exact .publish here.1 here.2 _ dumped
        · rename_i failed
          exact .throws here.1 here.2 _ failed
      · cases move

/-- The hosts whose tasks are still running. -/
def running (tasks : List Task) : List String :=
  (tasks.filter fun t => !t.finished).map Task.ip

/-- Every host is still to do, running or finished, and the finished ones have reported. -/
structure Accounts (c : Setup) (hosts : List String) (s : Scan) : Prop where
  shared : hosts.Perm (s.finished ++ (running s.tasks ++ s.todo))
  reported : s.neighbors = s.finished.filterMap (probeHost c.lan c.ports)

theorem running_middle (front back : List Task) (ip : String) :
    running (front ++ ⟨ip, false⟩ :: back) = running front ++ ip :: running back ∧
      running (front ++ ⟨ip, true⟩ :: back) = running front ++ running back := by
  simp [running]

/-- A task that finishes leaves the running ones. -/
theorem running_set {tasks : List Task} {k : Nat} {ip : String}
    (here : tasks[k]? = some ⟨ip, false⟩) :
    (running tasks).Perm (ip :: running (tasks.set k ⟨ip, true⟩)) := by
  obtain ⟨inside, item⟩ := List.getElem?_eq_some_iff.mp here
  have split : tasks = tasks.take k ++ ⟨ip, false⟩ :: tasks.drop (k + 1) := by
    rw [← item, List.getElem_cons_drop, List.take_append_drop]
  have after : tasks.set k ⟨ip, true⟩ = tasks.take k ++ ⟨ip, true⟩ :: tasks.drop (k + 1) := by
    rw [List.set_eq_take_append_cons_drop, if_pos inside]
  have before : running tasks = running (tasks.take k) ++ ip :: running (tasks.drop (k + 1)) := by
    have both := (running_middle (tasks.take k) (tasks.drop (k + 1)) ip).1
    rw [← split] at both
    exact both
  rw [after, before, (running_middle _ _ ip).2]
  exact List.perm_middle

theorem accounts_start (c : Setup) (hosts : List String) : Accounts c hosts (.start hosts) where
  shared := by simp [Scan.start, running]
  reported := rfl

theorem accounts_step {c : Setup} {hosts : List String} {s s' : Scan} {a : Act}
    (before : Accounts c hosts s) (moves : Moves c s a s') : Accounts c hosts s' := by
  cases moves with
  | stop | leave | enter | publish | throws => exact ⟨before.shared, before.reported⟩
  | dropFront ip rest here full front =>
      have shared := before.shared
      rw [front] at shared
      exact ⟨by simpa [running] using shared, before.reported⟩
  | launch ip rest here room next =>
      have shared := before.shared
      rw [next] at shared
      exact ⟨by simpa [running] using shared, before.reported⟩
  | finish k ip here =>
      constructor
      · have left := (running_set here).append_right s.todo
        refine before.shared.trans ((left.append_left s.finished).trans ?_)
        simp
      · have single : [ip].filterMap (probeHost c.lan c.ports) =
            (probeHost c.lan c.ports ip).toList := by
          cases found : probeHost c.lan c.ports ip <;> simp [List.filterMap, found]
        change s.neighbors ++ _ = _
        rw [before.reported, List.filterMap_append, single]

/-- No task of a list is running when all have finished. -/
theorem running_eq_nil {tasks : List Task} (ended : tasks.all Task.finished = true) :
    running tasks = [] := by
  unfold running
  rw [List.map_eq_nil_iff, List.filter_eq_nil_iff]
  intro t mem
  simpa using List.all_eq_true.mp ended t mem

/-- A scan whose end waits for the tasks is not over while one of them runs. -/
theorem not_done_of_unfinished {s : Scan} {k : Nat} {ip : String}
    (joined : s.phase = .done → running s.tasks = [])
    (here : s.tasks[k]? = some ⟨ip, false⟩) : s.phase ≠ .done := by
  intro ended
  have left := running_set here
  rw [joined ended] at left
  cases List.nil_perm.mp left

/-- Only the names of the hosts can keep a payload from being dumped. -/
theorem discoveryJson_wellEncoded (c : Setup) {neighbors : List Neighbor}
    (names : ∀ n ∈ neighbors, n.hostname.validateUTF8 = true) :
    (discoveryJson c neighbors).wellEncoded = true := by
  have items : (Json.arr (neighbors.map neighborJson)).wellEncoded = true := by
    refine Json.wellEncoded_arr fun j mem => ?_
    obtain ⟨n, here, rfl⟩ := List.mem_map.mp mem
    have ports : (Json.arr (n.open_ports.map .int)).wellEncoded = true := by
      refine Json.wellEncoded_arr fun j mem => ?_
      obtain ⟨port, _, rfl⟩ := List.mem_map.mp mem
      rfl
    simp [neighborJson, names n here, ports]
  simp [discoveryJson, items]

end OrbisAgent.Services.NetworkScanner
