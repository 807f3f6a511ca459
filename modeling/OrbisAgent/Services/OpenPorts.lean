/- OrbisAgent/Services/OpenPorts
   source: NetworkScanner::scan, pingHost, probePort
   digest: The published open ports are the ports that accept exactly if no host that answers a
   ping refuses a configured port. -/

import OrbisAgent.Services.NetworkScanner

set_option autoImplicit false
set_option relaxedAutoImplicit false

namespace OrbisAgent.Services.OpenPorts

open OrbisAgent.Lib.Json
open OrbisAgent.Lib.Transition
open OrbisAgent.Services.NetworkScanner

/-- A scan that nobody stops. -/
def NotStopped (_ : Scan) (a : Act) : Prop := a ≠ .stop

instance (s : Scan) (a : Act) : Decidable (NotStopped s a) :=
  inferInstanceAs (Decidable (a ≠ .stop))

/-- The payload has a neighbor of this address with these open ports. -/
def Lists (payload : Json) (ip : String) (open_ports : List Int) : Prop :=
  ∃ fields neighbors n, payload = .obj fields ∧
    fields.lookup "neighbors" = some (.arr neighbors) ∧ .obj n ∈ neighbors ∧
    n.lookup "ip" = some (.text ip) ∧
    n.lookup "open_ports" = some (.arr (open_ports.map .int))

/-- Each neighbor has exactly the configured ports on which its host accepts. -/
def ListsAccepting (c : Setup) (payload : Json) : Prop :=
  ∀ ip open_ports, Lists payload ip open_ports →
    open_ports = c.ports.filter fun port => c.lan.behaviour ip port.toNat == .accepts

/-- One of the three ports of a ping is not silent. -/
def Answers (lan : Lan) (ip : String) : Prop :=
  lan.behaviour ip 80 ≠ .drops ∨ lan.behaviour ip 443 ≠ .drops ∨ lan.behaviour ip 22 ≠ .drops

theorem lists_discoveryJson {c : Setup} {neighbors : List Neighbor} {ip : String}
    {open_ports : List Int} :
    Lists (discoveryJson c neighbors) ip open_ports ↔
      ∃ n ∈ neighbors, n.ip = ip ∧ n.open_ports = open_ports := by
  constructor
  · rintro ⟨fields, items, n, same, found, mem, address, ports⟩
    obtain rfl := Json.obj.inj same
    obtain rfl := Json.arr.inj (Option.some.inj found)
    obtain ⟨m, here, shown⟩ := List.mem_map.mp mem
    obtain rfl := Json.obj.inj shown
    have texts : m.ip.toByteArray = ip.toByteArray := Json.str.inj (Option.some.inj address)
    have numbers : m.open_ports.map Json.int = open_ports.map Json.int :=
      Json.arr.inj (Option.some.inj ports)
    exact ⟨m, here, String.toByteArray_inj.mp texts,
      (List.map_inj_right fun _ _ => Json.int.inj).mp numbers⟩
  · rintro ⟨n, mem, rfl, rfl⟩
    exact ⟨_, _, _, rfl, rfl, List.mem_map_of_mem mem, rfl, rfl⟩

theorem writable_iff {b : Behaviour} : writable b = true ↔ b ≠ .drops := by
  cases b <;> simp [writable]

theorem pingHost_iff {lan : Lan} {ip : String} : pingHost lan ip = true ↔ Answers lan ip := by
  unfold pingHost Answers probePort
  rw [Bool.or_eq_true, Bool.or_eq_true, writable_iff, writable_iff, writable_iff, or_assoc]
  rfl

/-- A port in range is dialled as it is. -/
theorem dialled {port : Int} (low : 1 ≤ port) (high : port ≤ 65535) :
    (UInt16.ofInt port).toNat = port.toNat := by
  unfold UInt16.ofInt
  rw [UInt16.toNat_ofNat']
  omega

theorem probePort_iff {lan : Lan} {ip : String} {port : Int} (low : 1 ≤ port)
    (high : port ≤ 65535) :
    probePort lan ip port = true ↔ lan.behaviour ip port.toNat ≠ .drops := by
  unfold probePort
  rw [writable_iff, dialled low high]

/-- What holds in an unstopped scan: its tasks account for all hosts, the loop ends only when
every host has a task, and a payload is the one of all tasks. -/
structure Complete (c : Setup) (hosts : List String) (s : Scan) : Prop where
  accounts : Accounts c hosts s
  going : s.stop_requested = false
  launched : s.phase = .joining ∨ s.phase = .done → s.todo = []
  joined : s.phase = .done → running s.tasks = []
  payload : ∀ topic payload, s.published = some (topic, payload) →
    s.phase = .done ∧ payload = discoveryJson c s.neighbors

theorem complete_step {c : Setup} {hosts : List String} {s s' : Scan} {a : Act}
    (before : Complete c hosts s) (unstopped : a ≠ .stop) (moves : Moves c s a s') :
    Complete c hosts s' := by
  have accounts := accounts_step before.accounts moves
  have silent : s.phase ≠ .done → ∀ topic payload, s.published ≠ some (topic, payload) :=
    fun early topic payload published => early (before.payload topic payload published).1
  cases moves with
  | stop => exact absurd rfl unstopped
  | leave here ends =>
      have none := silent (by simp [here])
      rw [before.going, Bool.or_false] at ends
      exact ⟨accounts, before.going, fun _ => List.isEmpty_iff.mp ends, nofun,
        fun topic payload published => absurd published (none topic payload)⟩
  | enter here goesOn =>
      have none := silent (by simp [here])
      exact ⟨accounts, before.going, by simp, nofun,
        fun topic payload published => absurd published (none topic payload)⟩
  | dropFront ip rest here full front =>
      refine ⟨accounts, before.going, before.launched, fun late => ?_, before.payload⟩
      rw [here] at late
      cases late
  | launch ip rest here room next =>
      have none := silent (by simp [here])
      exact ⟨accounts, before.going, by simp, nofun,
        fun topic payload published => absurd published (none topic payload)⟩
  | finish k ip here =>
      have busy := not_done_of_unfinished before.joined here
      have none := silent busy
      exact ⟨accounts, before.going, before.launched, fun ended => absurd ended busy,
        fun topic payload published => absurd published (none topic payload)⟩
  | publish here ended text dumped =>
      refine ⟨accounts, before.going, fun _ => before.launched (.inl here),
        fun _ => running_eq_nil ended, fun topic payload published => ?_⟩
      obtain ⟨_, rfl⟩ := Prod.mk.inj (Option.some.inj published)
      exact ⟨rfl, rfl⟩
  | throws here ended e failed =>
      have none := silent (by simp [here])
      exact ⟨accounts, before.going, fun _ => before.launched (.inl here),
        fun _ => running_eq_nil ended,
        fun topic payload published => absurd published (none topic payload)⟩

/-- The neighbors of a published payload are the reports of all hosts. -/
theorem neighbors_of_published {c : Setup} {hosts : List String} {s : Scan} {topic : String}
    {payload : Json} (run : Reaches (step c) NotStopped (.start hosts) s)
    (published : s.published = some (topic, payload)) :
    payload = discoveryJson c s.neighbors ∧
      ∀ n, n ∈ s.neighbors ↔ ∃ ip ∈ hosts, probeHost c.lan c.ports ip = some n := by
  have start : Complete c hosts (.start hosts) :=
    ⟨accounts_start c hosts, rfl, nofun, nofun, nofun⟩
  have complete := run.invariant start fun _ _ _ before unstopped move =>
    complete_step before unstopped (moves_of_step move)
  obtain ⟨ended, same⟩ := complete.payload topic payload published
  have shared := complete.accounts.shared
  rw [complete.joined ended, complete.launched (.inr ended), List.append_nil, List.append_nil]
    at shared
  refine ⟨same, fun n => ?_⟩
  rw [complete.accounts.reported, List.mem_filterMap]
  constructor
  · rintro ⟨ip, mem, found⟩
    exact ⟨ip, shared.mem_iff.mpr mem, found⟩
  · rintro ⟨ip, mem, found⟩
    exact ⟨ip, shared.mem_iff.mp mem, found⟩

/-- A host is reported when it answers its ping, with the ports on which a probe succeeds. -/
theorem probeHost_iff {lan : Lan} {ports : List Int} {ip : String} {n : Neighbor} :
    probeHost lan ports ip = some n ↔ Answers lan ip ∧
      n = ⟨ip, lan.hostname ip, ports.filter fun port => probePort lan ip port,
        lan.response_ms ip⟩ := by
  unfold probeHost
  rw [← pingHost_iff]
  cases pingHost lan ip with
  | true => exact ⟨fun found => ⟨rfl, (Option.some.inj found).symm⟩, fun h => by rw [h.2]; rfl⟩
  | false => exact ⟨nofun, fun h => by cases h.1⟩

/-- A probe tells an accepting port from the others exactly if no port refuses. -/
theorem probed_eq_accepting_iff {lan : Lan} {ports : List Int} {ip : String}
    (range : ∀ port ∈ ports, 1 ≤ port ∧ port ≤ 65535) :
    (ports.filter fun port => probePort lan ip port) =
        (ports.filter fun port => lan.behaviour ip port.toNat == .accepts) ↔
      ∀ port ∈ ports, lan.behaviour ip port.toNat ≠ .refuses := by
  have probed : ∀ port ∈ ports, probePort lan ip port = true ↔
      lan.behaviour ip port.toNat ≠ .drops :=
    fun port mem => probePort_iff (range port mem).1 (range port mem).2
  constructor
  · intro same port mem refused
    have found : port ∈ ports.filter fun port => probePort lan ip port := by
      refine List.mem_filter.mpr ⟨mem, (probed port mem).mpr ?_⟩
      rw [refused]
      decide
    rw [same] at found
    have accepts := (List.mem_filter.mp found).2
    rw [refused] at accepts
    cases accepts
  · intro noRefusal
    refine List.filter_congr fun port mem => ?_
    have answered := probed port mem
    have reacts := noRefusal port mem
    cases behaviour : lan.behaviour ip port.toNat with
    | accepts =>
        rw [behaviour] at answered
        exact answered.mpr (by decide)
    | refuses => exact absurd behaviour reacts
    | drops =>
        rw [behaviour] at answered
        exact Bool.not_eq_true _ ▸ fun open' => answered.mp open' rfl

/-- A published scan lists exactly the ports that accept if and only if no host that answers
its ping refuses a configured port. -/
theorem open_ports_exact_iff (c : Setup) (hosts : List String)
    (range : ∀ port ∈ c.ports, 1 ≤ port ∧ port ≤ 65535) {s : Scan} {topic : String}
    {payload : Json} (run : Reaches (step c) NotStopped (.start hosts) s)
    (published : s.published = some (topic, payload)) :
    ListsAccepting c payload ↔ ∀ ip ∈ hosts, Answers c.lan ip → ∀ port ∈ c.ports,
      c.lan.behaviour ip port.toNat ≠ .refuses := by
  obtain ⟨rfl, reports⟩ := neighbors_of_published run published
  constructor
  · intro listsAll ip host answers
    have listed : Lists (discoveryJson c s.neighbors) ip
        (c.ports.filter fun port => probePort c.lan ip port) :=
      lists_discoveryJson.mpr
        ⟨_, (reports _).mpr ⟨ip, host, probeHost_iff.mpr ⟨answers, rfl⟩⟩, rfl, rfl⟩
    exact (probed_eq_accepting_iff range).mp (listsAll ip _ listed)
  · intro noRefusal ip open_ports listed
    obtain ⟨n, mem, rfl, rfl⟩ := lists_discoveryJson.mp listed
    obtain ⟨ip, host, found⟩ := (reports n).mp mem
    obtain ⟨answers, rfl⟩ := probeHost_iff.mp found
    exact (probed_eq_accepting_iff range).mpr (noRefusal ip host answers)

/-- Hosts with a shell and a web server that refuse port 8080 and are silent elsewhere. -/
def officeLan : Lan where
  behaviour _ port :=
    if port = 22 ∨ port = 80 then .accepts else if port = 8080 then .refuses else .drops
  hostname _ := "nas".toByteArray
  response_ms _ := 3

/-- A scan of these ports, with the text of its payload. -/
def officeScan (ports : List Int) (text : String) : Setup where
  lan := officeLan
  ports := ports
  device_id := "d1"
  timestamp := "2025-01-01T00:00:00Z"
  network := "10.0.0.0/30"
  codec :=
    { parse := fun _ => .error ⟨.parse_error, "parse error"⟩
      render := fun _ => text
      badEncoding := fun _ => ⟨.other, "[json.exception.type_error.316] invalid UTF-8 byte"⟩
      wellEncoded_of_parse := fun _ _ parsed => by cases parsed }

def officeText (open_ports : String) : String :=
  "\x7b\"device_id\":\"d1\",\"neighbors\":[\x7b\"hostname\":\"nas\",\"ip\":\"10.0.0.2\"," ++
    "\"open_ports\":[" ++ open_ports ++ "],\"response_time_ms\":3\x7d]," ++
    "\"network\":\"10.0.0.0/30\",\"timestamp\":\"2025-01-01T00:00:00Z\"\x7d"

private theorem office_published (c : Setup) (n : Neighbor) (valid : n.hostname.validateUTF8 = true)
    (found : probeHost c.lan c.ports "10.0.0.2" = some n) :
    ∃ s topic, Reaches (step c) NotStopped (.start ["10.0.0.2"]) s ∧
      s.published = some (topic, discoveryJson c [n]) := by
  have probing : exec (guarded (step c) NotStopped) (.start ["10.0.0.2"])
      [.next, .launch, .next, .finish 0] =
        some ⟨.joining, [], false, [⟨"10.0.0.2", true⟩],
          [] ++ (probeHost c.lan c.ports "10.0.0.2").toList, ["10.0.0.2"], none⟩ := rfl
  rw [found] at probing
  have encoded : (discoveryJson c [n]).wellEncoded = true :=
    discoveryJson_wellEncoded c fun m mem => by rw [List.mem_singleton.mp mem, valid]
  have publish : step c ⟨.joining, [], false, [⟨"10.0.0.2", true⟩], [n], ["10.0.0.2"], none⟩
      .publish = some ⟨.done, [], false, [⟨"10.0.0.2", true⟩], [n], ["10.0.0.2"],
        some (Constants.topicFor Constants.TOPIC_DISCOVERY_FMT c.device_id,
          discoveryJson c [n])⟩ := by
    simp [step, encoded]
  have unstopped : Act.publish ≠ .stop := by decide
  exact ⟨_, _, (exec_guarded_reaches probing).tail unstopped publish, rfl⟩

theorem open_ports_exact_without_refusals :
    let c := officeScan [22, 443] (officeText "22")
    ∃ s topic payload, Reaches (step c) NotStopped (.start ["10.0.0.2"]) s ∧
      s.published = some (topic, payload) ∧ Lists payload "10.0.0.2" [22] ∧
      ListsAccepting c payload := by
  intro c
  obtain ⟨s, topic, run, published⟩ := office_published c
    ⟨"10.0.0.2", "nas".toByteArray, [22], 3⟩ (by simp) (by rfl)
  refine ⟨s, topic, _, run, published, lists_discoveryJson.mpr ⟨_, List.mem_cons_self, rfl, rfl⟩,
    (open_ports_exact_iff c ["10.0.0.2"] (by decide) run published).mpr ?_⟩
  have shell : officeLan.behaviour "10.0.0.2" 22 ≠ .refuses := by decide
  have tls : officeLan.behaviour "10.0.0.2" 443 ≠ .refuses := by decide
  intro ip _ _ port mem
  change port ∈ [22, 443] at mem
  simp only [List.mem_cons, List.not_mem_nil, or_false] at mem
  rcases mem with rfl | rfl
  · exact shell
  · exact tls

/-- The host refuses port 8080, and the payload lists it as open. -/
theorem refused_port_is_reported_open :
    let c := officeScan [22, 8080] (officeText "22,8080")
    ∃ s topic payload, Reaches (step c) NotStopped (.start ["10.0.0.2"]) s ∧
      s.published = some (topic, payload) ∧ Lists payload "10.0.0.2" [22, 8080] ∧
      c.lan.behaviour "10.0.0.2" 8080 = .refuses ∧ ¬ ListsAccepting c payload := by
  intro c
  obtain ⟨s, topic, run, published⟩ := office_published c
    ⟨"10.0.0.2", "nas".toByteArray, [22, 8080], 3⟩ (by simp) (by rfl)
  have listed : Lists (discoveryJson c [⟨"10.0.0.2", "nas".toByteArray, [22, 8080], 3⟩])
      "10.0.0.2" [22, 8080] := lists_discoveryJson.mpr ⟨_, List.mem_cons_self, rfl, rfl⟩
  refine ⟨s, topic, _, run, published, listed, by decide, fun accepting => ?_⟩
  have same := accepting _ _ listed
  exact absurd same (by decide)

end OrbisAgent.Services.OpenPorts
