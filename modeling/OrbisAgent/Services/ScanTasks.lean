/- OrbisAgent/Services/ScanTasks
   source: NetworkScanner::scan
   digest: Whatever the order in which tasks finish, a scan starts one for each host, keeps at most
   32 of them running, and uses the result when all it started have finished. -/

import OrbisAgent.Services.NetworkScanner
import Mathlib.Algebra.GroupWithZero.Nat

set_option autoImplicit false
set_option relaxedAutoImplicit false

namespace OrbisAgent.Services.ScanTasks

open OrbisAgent.Constants (TOPIC_DISCOVERY_FMT topicFor)
open OrbisAgent.Lib.Json
open OrbisAgent.Lib.Transition
open OrbisAgent.Services.NetworkScanner

/-- What the end of a scan hands to `publish_fn_`; nothing if its text has no encoding. -/
def payload (c : Setup) (neighbors : List Neighbor) : Option (String × Json) :=
  match c.codec.dump (discoveryJson c neighbors) with
  | .ok _ => some (topicFor TOPIC_DISCOVERY_FMT c.device_id, discoveryJson c neighbors)
  | .error _ => none

/-- The steps that a task has yet to cause. -/
def taskCost (t : Task) : Nat := if t.finished then 1 else 2

/-- The steps that are left at each place, apart from those of hosts and tasks. -/
def phaseCost : Phase → Nat
  | .head => 2
  | .admitted => 1
  | .joining => 1
  | .done => 0

/-- A bound of the steps that are left. -/
def cost (s : Scan) : Nat := phaseCost s.phase + 4 * s.todo.length + (s.tasks.map taskCost).sum

/-- The steps of the scan itself and of its tasks. -/
def ofScan (a : Act) : Bool := a != .stop

/-- What holds after every history of a scan. -/
structure Window (c : Setup) (hosts : List String) (past : List Act) (s : Scan) : Prop where
  accounts : Accounts c hosts s
  width : s.tasks.length ≤ concurrency
  launched : s.todo = hosts.drop (past.count .launch)
  counted : past.count .launch ≤ hosts.length
  admitted : s.phase = .admitted → s.todo ≠ []
  joined : s.phase = .done → running s.tasks = []
  unstopped : .stop ∉ past → s.stop_requested = false ∧
    (s.phase = .joining ∨ s.phase = .done → s.todo = [])
  outcome : s.published = if s.phase = .done then payload c s.neighbors else none
  spent : cost s + past.countP ofScan ≤ 4 * hosts.length + 2

theorem window_start (c : Setup) (hosts : List String) : Window c hosts [] (.start hosts) where
  accounts := accounts_start c hosts
  width := Nat.zero_le _
  launched := rfl
  counted := Nat.zero_le _
  admitted := nofun
  joined := nofun
  unstopped := fun _ => ⟨rfl, nofun⟩
  outcome := rfl
  spent := by simp [cost, phaseCost, Scan.start]; omega

/-- A task that finishes has one step less to cause. -/
theorem cost_set {tasks : List Task} {k : Nat} {ip : String}
    (here : tasks[k]? = some ⟨ip, false⟩) :
    ((tasks.set k ⟨ip, true⟩).map taskCost).sum + 1 = (tasks.map taskCost).sum := by
  induction tasks generalizing k with
  | nil => cases here
  | cons t tasks ih =>
      cases k with
      | zero =>
          obtain rfl := Option.some.inj here
          simp only [List.set_cons_zero, List.map_cons, List.sum_cons, taskCost]
          simp
          omega
      | succ k =>
          have rest := ih here
          simp only [List.set_cons_succ, List.map_cons, List.sum_cons]
          omega

theorem unstopped_init {past : List Act} {a : Act} (unstopped : .stop ∉ past ++ [a]) :
    .stop ∉ past :=
  fun mem => unstopped (List.mem_append_left [a] mem)

/-- The count of a label after one more step. -/
theorem count_snoc (past : List Act) (a b : Act) :
    (past ++ [a]).count b = past.count b + if a = b then 1 else 0 := by
  rw [List.count_append, List.count_singleton]
  simp only [beq_iff_eq]

theorem countP_snoc (past : List Act) (a : Act) :
    (past ++ [a]).countP ofScan = past.countP ofScan + if a = .stop then 0 else 1 := by
  rw [List.countP_append, List.countP_singleton]
  by_cases same : a = .stop <;> simp [ofScan, same]

/-- The scan is over, whether its payload could be written or not. -/
theorem window_end {c : Setup} {hosts : List String} {past : List Act} {s : Scan}
    {sent : Option (String × Json)} (before : Window c hosts past s) (here : s.phase = .joining)
    (ended : s.tasks.all Task.finished = true)
    (accounts : Accounts c hosts { s with phase := .done, published := sent })
    (outcome : sent = payload c s.neighbors) :
    Window c hosts (past ++ [.publish]) { s with phase := .done, published := sent } := by
  have spent := before.spent
  refine ⟨accounts, before.width, ?_, ?_, nofun, fun _ => running_eq_nil ended,
    fun unstopped => ?_, outcome, ?_⟩
  · simpa [count_snoc] using before.launched
  · simpa [count_snoc] using before.counted
  · have kept := before.unstopped (unstopped_init unstopped)
    exact ⟨kept.1, fun _ => kept.2 (.inl here)⟩
  · simp only [cost, here, phaseCost, countP_snoc, reduceCtorEq, if_false] at spent ⊢
    omega

theorem window_step {c : Setup} {hosts : List String} {past : List Act} {s s' : Scan} {a : Act}
    (before : Window c hosts past s) (moves : Moves c s a s') :
    Window c hosts (past ++ [a]) s' := by
  have accounts := accounts_step before.accounts moves
  have spent := before.spent
  have todo := before.launched
  have few := before.counted
  cases moves with
  | stop =>
      refine ⟨accounts, before.width, ?_, ?_, before.admitted, before.joined, fun unstopped => ?_,
        before.outcome, ?_⟩
      · simpa [count_snoc] using todo
      · simpa [count_snoc] using few
      · exact absurd (List.mem_append_right past List.mem_cons_self) unstopped
      · rw [countP_snoc, if_pos rfl]
        exact spent
  | leave here ends =>
      refine ⟨accounts, before.width, ?_, ?_, nofun, nofun, fun unstopped => ?_, ?_, ?_⟩
      · simpa [count_snoc] using todo
      · simpa [count_snoc] using few
      · have going := (before.unstopped (unstopped_init unstopped)).1
        rw [going, Bool.or_false] at ends
        exact ⟨going, fun _ => List.isEmpty_iff.mp ends⟩
      · simpa [here] using before.outcome
      · simp only [cost, here, phaseCost, countP_snoc, reduceCtorEq, if_false] at spent ⊢
        omega
  | enter here goesOn =>
      refine ⟨accounts, before.width, ?_, ?_, fun _ => ?_, nofun, fun unstopped => ?_, ?_, ?_⟩
      · simpa [count_snoc] using todo
      · simpa [count_snoc] using few
      · rw [Bool.or_eq_false_iff] at goesOn
        exact List.isEmpty_eq_false_iff.mp goesOn.1
      · exact ⟨(before.unstopped (unstopped_init unstopped)).1, by simp⟩
      · simpa [here] using before.outcome
      · simp only [cost, here, phaseCost, countP_snoc, reduceCtorEq, if_false] at spent ⊢
        omega
  | dropFront ip rest here full front =>
      have width := before.width
      rw [front, List.length_cons] at width
      refine ⟨accounts, ?_, ?_, ?_, before.admitted, fun ended => ?_, fun unstopped => ?_,
        before.outcome, ?_⟩
      · dsimp only
        omega
      · simpa [count_snoc] using todo
      · simpa [count_snoc] using few
      · rw [here] at ended
        cases ended
      · exact before.unstopped (unstopped_init unstopped)
      · simp only [cost, front, List.map_cons, List.sum_cons, taskCost, if_true, countP_snoc,
          reduceCtorEq, if_false] at spent ⊢
        omega
  | launch ip rest here room next =>
      rw [next] at todo
      have short := congrArg List.length todo
      rw [List.length_cons, List.length_drop] at short
      refine ⟨accounts, ?_, ?_, ?_, nofun, nofun, fun unstopped => ?_, ?_, ?_⟩
      · rw [List.length_append, List.length_singleton]
        omega
      · rw [count_snoc, if_pos rfl, ← List.drop_drop, ← todo]
        rfl
      · rw [count_snoc, if_pos rfl]
        omega
      · exact ⟨(before.unstopped (unstopped_init unstopped)).1, by simp⟩
      · simpa [here] using before.outcome
      · simp only [cost, here, next, phaseCost, countP_snoc, reduceCtorEq, if_false,
          List.map_append, List.sum_append, List.map_cons, List.map_nil, List.sum_cons,
          List.sum_nil, taskCost, Bool.false_eq_true, List.length_cons] at spent ⊢
        omega
  | finish k ip here =>
      have busy := not_done_of_unfinished before.joined here
      have cheaper := cost_set here
      refine ⟨accounts, ?_, ?_, ?_, before.admitted, fun ended => absurd ended busy,
        fun unstopped => ?_, ?_, ?_⟩
      · rw [List.length_set]
        exact before.width
      · simpa [count_snoc] using todo
      · simpa [count_snoc] using few
      · exact before.unstopped (unstopped_init unstopped)
      · simpa [busy] using before.outcome
      · simp only [cost, countP_snoc, reduceCtorEq, if_false] at spent ⊢
        omega
  | publish here ended text dumped =>
      exact window_end before here ended accounts (by simp [payload, dumped])
  | throws here ended e failed =>
      exact window_end before here ended accounts
        (by simpa [payload, failed, here] using before.outcome)

theorem window_run {c : Setup} {hosts : List String} {as : List Act} {s : Scan}
    (run : exec (step c) (.start hosts) as = some s) : Window c hosts as s :=
  exec_invariant run (window_start c hosts) fun _ _ _ _ before move =>
    window_step before (moves_of_step move)

/-- Before its end, the scan can go on or a task can finish. -/
theorem scan_enabled {c : Setup} {hosts : List String} {past : List Act} {s : Scan}
    (window : Window c hosts past s) (early : s.phase ≠ .done) :
    ∃ a s', ofScan a = true ∧ step c s a = some s' := by
  cases here : s.phase with
  | head => exact ⟨.next, _, rfl, by simp only [step, here]; rfl⟩
  | admitted =>
      by_cases room : s.tasks.length < concurrency
      · cases next : s.todo with
        | nil => exact absurd next (window.admitted here)
        | cons ip rest => exact ⟨.launch, _, rfl, by simp only [step, here, room, next]; rfl⟩
      · cases tasks : s.tasks with
        | nil => simp [tasks, concurrency] at room
        | cons t rest =>
            obtain ⟨ip, finished⟩ := t
            cases finished with
            | false => exact ⟨.finish 0, _, rfl, by simp only [step, tasks]; rfl⟩
            | true =>
                have full : concurrency ≤ s.tasks.length := by omega
                rw [tasks] at full
                exact ⟨.dropFront, _, rfl, by simp only [step, here, tasks, full]; rfl⟩
  | joining =>
      by_cases ended : s.tasks.all Task.finished = true
      · cases dumped : c.codec.dump (discoveryJson c s.neighbors) with
        | ok text => exact ⟨.publish, _, rfl, by simp only [step, here, ended, dumped]; rfl⟩
        | error e => exact ⟨.publish, _, rfl, by simp only [step, here, ended, dumped]; rfl⟩
      · rw [Bool.not_eq_true, List.all_eq_false] at ended
        obtain ⟨⟨ip, finished⟩, mem, waits⟩ := ended
        obtain ⟨k, inside, item⟩ := List.getElem_of_mem mem
        obtain rfl : finished = false := by simpa using waits
        have found : s.tasks[k]? = some ⟨ip, false⟩ := List.getElem?_eq_some_iff.mpr ⟨inside, item⟩
        exact ⟨.finish k, _, rfl, by simp only [step, found]; rfl⟩
  | done => exact absurd here early

/-- The names of the hosts that answer are UTF-8. -/
def NamesEncoded (c : Setup) (hosts : List String) : Prop :=
  ∀ ip ∈ hosts, pingHost c.lan ip = true → (c.lan.hostname ip).validateUTF8 = true

/-- What a history of a scan has come to. -/
structure Conducted (c : Setup) (hosts : List String) (past : List Act) (s : Scan) : Prop where
  /-- each host in front of the loop has got one task -/
  launched : (hosts.take (past.count .launch)).Perm (s.finished ++ running s.tasks)
  bounded : (running s.tasks).length ≤ concurrency
  ends : past.countP ofScan ≤ 4 * hosts.length + 2
  goesOn : s.phase ≠ .done → ∃ a s', ofScan a = true ∧ step c s a = some s'
  /-- the result is used when no task is running -/
  joined : s.phase = .done ∨ step c s .publish ≠ none → running s.tasks = []
  used : s.phase = .done → s.published = payload c s.neighbors
  /-- a scan that nobody stopped has done all hosts -/
  whole : .stop ∉ past → s.phase = .done →
    past.count .launch = hosts.length ∧
    (s.neighbors.map Neighbor.ip).Perm (hosts.filter (pingHost c.lan)) ∧
    s.neighbors.Perm (hosts.filterMap (probeHost c.lan c.ports)) ∧
    (NamesEncoded c hosts → s.published =
      some (topicFor TOPIC_DISCOVERY_FMT c.device_id, discoveryJson c s.neighbors))

theorem running_length_le (tasks : List Task) : (running tasks).length ≤ tasks.length := by
  unfold running
  rw [List.length_map]
  exact List.length_filter_le _ tasks

/-- The reports are those of the hosts that answer. -/
theorem map_ip_filterMap_probeHost (lan : Lan) (ports : List Int) (hosts : List String) :
    (hosts.filterMap (probeHost lan ports)).map Neighbor.ip = hosts.filter (pingHost lan) := by
  induction hosts with
  | nil => rfl
  | cons ip hosts ih =>
      cases answers : pingHost lan ip with
      | true =>
          have found : probeHost lan ports ip = some ⟨ip, lan.hostname ip,
              ports.filter fun port => probePort lan ip port, lan.response_ms ip⟩ := by
            simp [probeHost, answers]
          rw [List.filterMap_cons_some found, List.map_cons, ih, List.filter_cons_of_pos answers]
      | false =>
          have nothing : probeHost lan ports ip = none := by
            simp [probeHost, answers]
          rw [List.filterMap_cons_none nothing, ih, List.filter_cons_of_neg (by simp [answers])]

theorem hostname_of_probeHost {lan : Lan} {ports : List Int} {ip : String} {n : Neighbor}
    (found : probeHost lan ports ip = some n) :
    pingHost lan ip = true ∧ n.hostname = lan.hostname ip := by
  unfold probeHost at found
  cases answers : pingHost lan ip with
  | true =>
      rw [answers] at found
      obtain rfl := Option.some.inj found
      exact ⟨rfl, rfl⟩
  | false =>
      rw [answers] at found
      cases found

/-- Every history of a scan: one task for each host, a window of 32, an end, and a result that
is used when all tasks have finished. -/
theorem scan_conducted (c : Setup) (hosts : List String) {past : List Act} {s : Scan}
    (run : exec (step c) (.start hosts) past = some s) : Conducted c hosts past s := by
  have window := window_run run
  have shared : (hosts.take (past.count .launch)).Perm (s.finished ++ running s.tasks) := by
    have all := window.accounts.shared
    rw [← List.append_assoc, window.launched] at all
    have both : (hosts.take (past.count .launch) ++ hosts.drop (past.count .launch)).Perm
        (s.finished ++ running s.tasks ++ hosts.drop (past.count .launch)) := by
      rw [List.take_append_drop]
      exact all
    exact (List.perm_append_right_iff _).mp both
  have used : s.phase = .done → s.published = payload c s.neighbors := by
    intro ended
    rw [window.outcome, if_pos ended]
  refine ⟨shared, ?_, ?_, fun early => scan_enabled window early, ?_, used,
    fun unstopped ended => ?_⟩
  · have narrow := running_length_le s.tasks
    have width := window.width
    omega
  · have spent := window.spent
    omega
  · rintro (ended | enabled)
    · exact window.joined ended
    · obtain ⟨t, move⟩ := Option.ne_none_iff_exists'.mp enabled
      cases moves_of_step move with
      | publish here ended text dumped => exact running_eq_nil ended
      | throws here ended e failed => exact running_eq_nil ended
  · have todo := (window.unstopped unstopped).2 (.inr ended)
    have count : past.count .launch = hosts.length := by
      have short := congrArg List.length window.launched
      have few := window.counted
      rw [todo, List.length_nil, List.length_drop] at short
      omega
    have all : hosts.Perm s.finished := by
      rw [count, List.take_length, window.joined ended, List.append_nil] at shared
      exact shared
    have reports : s.neighbors.Perm (hosts.filterMap (probeHost c.lan c.ports)) := by
      rw [window.accounts.reported]
      exact (all.filterMap _).symm
    refine ⟨count, ?_, reports, fun names => ?_⟩
    · rw [← map_ip_filterMap_probeHost c.lan c.ports hosts]
      exact reports.map _
    · have encoded : (discoveryJson c s.neighbors).wellEncoded = true := by
        refine discoveryJson_wellEncoded c fun n mem => ?_
        obtain ⟨ip, host, found⟩ := List.mem_filterMap.mp (reports.mem_iff.mp mem)
        obtain ⟨answers, name⟩ := hostname_of_probeHost found
        rw [name]
        exact names ip host answers
      rw [used ended, payload, Codec.dump_of_wellEncoded c.codec encoded]

def pairText (ip : String) : String :=
  "\x7b\"hostname\":\"\",\"ip\":\"" ++ ip ++ "\",\"open_ports\":[80],\"response_time_ms\":2\x7d"

theorem pair_unparsed (_text : ByteArray) (j : Json)
    (parsed : (.error ⟨.parse_error, "parse error"⟩ : Except Exn Json) = .ok j) :
    j.wellEncoded = true := by
  cases parsed

/-- Two hosts that answer on port 80, and a resolver that knows none of them. -/
def pair : Setup where
  lan :=
    { behaviour := fun _ port => if port = 80 then .accepts else .drops
      hostname := fun _ => .empty
      response_ms := fun _ => 2 }
  ports := [22, 80]
  device_id := "d1"
  timestamp := "2025-01-01T00:00:00Z"
  network := "10.0.0.0/30"
  codec :=
    { parse := fun _ => .error ⟨.parse_error, "parse error"⟩
      render := fun _ =>
        "\x7b\"device_id\":\"d1\",\"neighbors\":[" ++ pairText "10.0.0.2" ++ "," ++
          pairText "10.0.0.1" ++ "],\"network\":\"10.0.0.0/30\"," ++
          "\"timestamp\":\"2025-01-01T00:00:00Z\"\x7d"
      badEncoding := fun _ => ⟨.other, "[json.exception.type_error.316] invalid UTF-8 byte"⟩
      wellEncoded_of_parse := pair_unparsed }

/-- The second host answers first. -/
theorem pair_conducted :
    let hosts := ["10.0.0.1", "10.0.0.2"]
    let past : List Act :=
      [.next, .launch, .next, .launch, .next, .finish 1, .finish 0, .publish]
    ∃ s, exec (step pair) (.start hosts) past = some s ∧ Conducted pair hosts past s ∧
      s.neighbors.map Neighbor.ip = ["10.0.0.2", "10.0.0.1"] ∧
      s.published =
        some (topicFor TOPIC_DISCOVERY_FMT pair.device_id, discoveryJson pair s.neighbors) := by
  intro hosts past
  have replay : ∃ s, exec (step pair) (.start hosts) past = some s ∧ s.phase = .done ∧
      s.neighbors.map Neighbor.ip = ["10.0.0.2", "10.0.0.1"] := ⟨_, rfl, rfl, rfl⟩
  obtain ⟨s, run, ended, ips⟩ := replay
  have conducted := scan_conducted pair hosts run
  have names : NamesEncoded pair hosts := fun _ _ _ => Json.validateUTF8_empty
  exact ⟨s, run, conducted, ips, (conducted.whole (by decide) ended).2.2.2 names⟩

end OrbisAgent.Services.ScanTasks
