/- OrbisAgent/Services/Subnet
   source: NetworkScanner::detectLocalSubnet (POSIX), expandCIDR; scan (its first lines)
   digest: From the interfaces of the machine to the hosts of a scan: the text of the subnet, and
   the addresses that it is expanded to. -/

import OrbisAgent.Lib.Ipv4

set_option autoImplicit false
set_option relaxedAutoImplicit false

namespace OrbisAgent.Services.Subnet

open OrbisAgent.Lib.ByteString
open OrbisAgent.Lib.CText
open OrbisAgent.Lib.Ipv4
open OrbisAgent.Lib.Json (Exn)

/-- `ifa_addr`, with `ifa_netmask` where it is an `AF_INET` address. The numbers are in network
order. -/
inductive SockAddr
  | null
  | inet (s_addr netmask : UInt32)
  | other

structure IfAddr where
  ifa_name : String
  ifa_addr : SockAddr

theorem shiftLeft_lt {m : UInt32} (set : m &&& 0x80000000 ≠ 0) : (m <<< 1).toNat < m.toNat := by
  have size := m.toNat_lt
  have top := (top_bit_iff m).mp set
  rw [shiftLeft_one_toNat]
  omega

/-- The loop that counts the bits of the prefix. -/
def prefixBits (m : UInt32) : Nat :=
  if m &&& 0x80000000 ≠ 0 then prefixBits (m <<< 1) + 1 else 0
termination_by m.toNat
decreasing_by
  apply shiftLeft_lt
  assumption

/-- A slash. -/
def slash : UInt8 := 47

/-- What `detectLocalSubnet` returns for the interface it has chosen. -/
def subnetText (net : Inet) (s_addr netmask : UInt32) : Bytes :=
  let ip_n := net.ntohl s_addr
  let msk_n := net.ntohl netmask
  let net_n := ip_n &&& msk_n
  net.inet_ntop (net.htonl net_n) ++ slash :: digits (prefixBits msk_n)

/-- The loop over the interfaces. -/
def firstSubnet (net : Inet) : List IfAddr → Bytes
  | [] => []
  | ifa :: rest =>
      match ifa.ifa_addr with
      | .null | .other => firstSubnet net rest
      | .inet s_addr netmask =>
          if ifa.ifa_name = "lo" then firstSubnet net rest else subnetText net s_addr netmask

/-- `none` where `getifaddrs` fails. -/
def detectLocalSubnet (net : Inet) (ifa_list : Option (List IfAddr)) : Bytes :=
  match ifa_list with
  | none => []
  | some list => firstSubnet net list

/-- The number of hosts, in 32-bit arithmetic. -/
def hostCount (pfx : Int) : UInt32 :=
  let host_bits := UInt32.ofInt (32 - pfx)
  let count : UInt32 := ((1 : UInt32) <<< host_bits) - 2
  if 254 < count then 254 else count

/-- The texts of the addresses behind `net_n`. `stale` is what `net_n` holds when `inet_pton`
has not set it. -/
def expandCIDR (net : Inet) (stale : UInt32) (cidr : Bytes) : Except Exn (List Bytes) :=
  if slash ∉ cidr then .ok []
  else
    let net_s := cidr.takeWhile (· != slash)
    match stoi (cidr.drop (net_s.length + 1)) with
    | .error e => .error e
    | .ok pfx =>
        if pfx < 16 ∨ 30 < pfx then .ok []
        else
          let net_n := net.ntohl ((net.inet_pton net_s).getD stale)
          .ok ((List.range (hostCount pfx).toNat).map fun i =>
            net.inet_ntop (net.htonl (net_n + UInt32.ofNat (i + 1))))

/-- The hosts that a scan gives a task, when it comes that far. -/
def scanHosts (net : Inet) (stale : UInt32) (ifa_list : Option (List IfAddr)) :
    Except Exn (List Bytes) :=
  let cidr := detectLocalSubnet net ifa_list
  if cidr.isEmpty then .ok [] else expandCIDR net stale cidr

/-- The loop counts the ones of a mask. -/
theorem prefixBits_netmask {p : Nat} (le : p ≤ 32) : prefixBits (netmask p) = p := by
  induction p with
  | zero =>
      have clear : ¬ (netmask 0 &&& 0x80000000 ≠ 0) := by
        rw [top_bit_iff, netmask_toNat]
        omega
      rw [prefixBits, if_neg clear]
  | succ p ih =>
      have set : netmask (p + 1) &&& 0x80000000 ≠ 0 := by
        rw [top_bit_iff, netmask_toNat]
        have bound : 2 ^ (32 - (p + 1)) ≤ 2 ^ 31 := Nat.pow_le_pow_right (by omega) (by omega)
        omega
      rw [prefixBits, if_pos set, netmask_shift (by omega), ih (by omega)]

theorem capped_toNat (count : UInt32) :
    (if 254 < count then 254 else count).toNat = min 254 count.toNat := by
  have cap : (254 : UInt32).toNat = 254 := rfl
  by_cases many : 254 < count
  · rw [if_pos many, cap]
    rw [UInt32.lt_iff_toNat_lt, cap] at many
    omega
  · rw [if_neg many]
    rw [UInt32.lt_iff_toNat_lt, cap] at many
    omega

/-- The number of hosts of a prefix in range: the shift and the subtraction do not wrap. -/
theorem hostCount_toNat {p : Nat} (low : 16 ≤ p) (high : p ≤ 30) :
    (hostCount p).toNat = min 254 (2 ^ (32 - p) - 2) := by
  have bits : (UInt32.ofInt (32 - (p : Int))).toNat = 32 - p := by
    unfold UInt32.ofInt
    rw [UInt32.toNat_ofNat']
    omega
  have least : 2 ^ 2 ≤ 2 ^ (32 - p) := Nat.pow_le_pow_right (by omega) (by omega)
  have most : 2 ^ (32 - p) ≤ 2 ^ 16 := Nat.pow_le_pow_right (by omega) (by omega)
  have one : (1 : UInt32).toNat = 1 := rfl
  have two : (2 : UInt32).toNat = 2 := rfl
  have small : 32 - p < 32 := by omega
  unfold hostCount
  rw [capped_toNat, UInt32.toNat_sub, UInt32.toNat_shiftLeft, bits, one, two,
    Nat.mod_eq_of_lt small, Nat.shiftLeft_eq, Nat.one_mul]
  congr 1
  omega

/-- The addresses behind a network address, as many as a scan takes. -/
def hostsAfter (network : UInt32) (p : Nat) : List UInt32 :=
  (List.range (min 254 (2 ^ (32 - p) - 2))).map fun i => network + UInt32.ofNat (i + 1)

/-- The hosts that a subnet is expanded to are the first addresses behind that of the network,
in order, inside the subnet, and neither the first nor the last of it. -/
structure FirstHosts (a mask : UInt32) (p : Nat) (hosts : List UInt32) : Prop where
  /-- as numbers: nothing wraps -/
  numbers : hosts.map UInt32.toNat =
    (List.range (min 254 (2 ^ (32 - p) - 2))).map fun i => (a &&& mask).toNat + (i + 1)
  increasing : hosts.Pairwise (· < ·)
  inside : ∀ h ∈ hosts, h &&& mask = a &&& mask
  apart : ∀ h ∈ hosts, h ≠ a &&& mask ∧ h ≠ broadcast (a &&& mask) mask

/-- A number below the width of the subnet is added without a carry into the network. -/
theorem add_toNat (a : UInt32) {p k : Nat} (inside : k < 2 ^ (32 - p)) :
    ((a &&& netmask p) + UInt32.ofNat k).toNat = (a &&& netmask p).toNat + k := by
  have last := (broadcast (a &&& netmask p) (netmask p)).toNat_lt
  rw [broadcast_toNat] at last
  rw [UInt32.toNat_add, UInt32.toNat_ofNat']
  omega

theorem mem_hostsAfter {network h : UInt32} {p : Nat} (mem : h ∈ hostsAfter network p) :
    ∃ k, 1 ≤ k ∧ k < 2 ^ (32 - p) - 1 ∧ h = network + UInt32.ofNat k := by
  obtain ⟨i, inside, rfl⟩ := List.mem_map.mp mem
  have few := List.mem_range.mp inside
  exact ⟨i + 1, by omega, by omega, rfl⟩

theorem hostsAfter_first (a : UInt32) (p : Nat) :
    FirstHosts a (netmask p) p (hostsAfter (a &&& netmask p) p) := by
  have numbers : (hostsAfter (a &&& netmask p) p).map UInt32.toNat =
      (List.range (min 254 (2 ^ (32 - p) - 2))).map fun i =>
        (a &&& netmask p).toNat + (i + 1) := by
    unfold hostsAfter
    rw [List.map_map]
    refine List.map_congr_left fun i mem => ?_
    have few := List.mem_range.mp mem
    exact add_toNat a (by omega)
  refine ⟨numbers, ?_, fun h mem => ?_, fun h mem => ?_⟩
  · have sorted : ((List.range (min 254 (2 ^ (32 - p) - 2))).map fun i =>
        (a &&& netmask p).toNat + (i + 1)).Pairwise (· < ·) := by
      refine List.pairwise_map.mpr (List.pairwise_lt_range.imp fun less => ?_)
      omega
    rw [← numbers, List.pairwise_map] at sorted
    exact sorted.imp fun less => UInt32.lt_iff_toNat_lt.mpr less
  · obtain ⟨k, first, last, rfl⟩ := mem_hostsAfter mem
    have pos : 0 < 2 ^ (32 - p) := Nat.two_pow_pos _
    have low : k / 2 ^ (32 - p) = 0 := Nat.div_eq_of_lt (by omega)
    rw [and_netmask_eq_iff, add_toNat a (by omega), and_netmask_toNat, Nat.add_comm,
      Nat.add_mul_div_right _ _ pos, low, Nat.zero_add]
  · obtain ⟨k, first, last, rfl⟩ := mem_hostsAfter mem
    have number := add_toNat a (p := p) (k := k) (by omega)
    constructor
    · intro same
      rw [same] at number
      omega
    · intro same
      rw [same, broadcast_toNat] at number
      omega

/-- The text of a subnet is taken apart as it was put together. -/
theorem expandCIDR_subnetText (net : Inet) (stale s_addr mask : UInt32) {p : Nat} (le : p ≤ 32)
    (contiguous : net.ntohl mask = netmask p) :
    expandCIDR net stale (subnetText net s_addr mask) =
      .ok (if p < 16 ∨ 30 < p then []
        else (hostsAfter (net.ntohl s_addr &&& netmask p) p).map net.text) := by
  have solid : slash ∉ net.inet_ntop (net.htonl (net.ntohl s_addr &&& netmask p)) :=
    net.ntop_solid _
  unfold subnetText
  dsimp only
  rw [contiguous, prefixBits_netmask le]
  generalize shown : net.inet_ntop (net.htonl (net.ntohl s_addr &&& netmask p)) = text at solid
  have front : (text ++ slash :: digits p).takeWhile (· != slash) = text := by
    rw [List.takeWhile_append_of_pos]
    · simp
    · intro b mem
      rw [bne_iff_ne]
      rintro rfl
      exact solid mem
  have back : (text ++ slash :: digits p).drop (text.length + 1) = digits p := by
    rw [← List.drop_drop, List.drop_left]
    rfl
  have parsed := net.pton_ntop (net.htonl (net.ntohl s_addr &&& netmask p))
  rw [shown] at parsed
  unfold expandCIDR
  rw [if_neg (by simp), front]
  dsimp only
  rw [back, stoi_digits (by omega)]
  dsimp only
  by_cases outside : p < 16 ∨ 30 < p
  · rw [if_pos outside, if_pos (by omega)]
  · rw [if_neg outside, if_neg (by omega), parsed, Option.getD_some, net.ntohl_htonl,
      hostCount_toNat (by omega) (by omega), hostsAfter, List.map_map]
    rfl

theorem slash_mem_subnetText (net : Inet) (s_addr mask : UInt32) :
    slash ∈ subnetText net s_addr mask := by
  simp [subnetText]

/-- The first IPv4 address of an interface that is not named `lo`, with its mask. -/
def candidate : List IfAddr → Option (UInt32 × UInt32)
  | [] => none
  | ⟨_, .null⟩ :: rest | ⟨_, .other⟩ :: rest => candidate rest
  | ⟨ifa_name, .inet s_addr netmask⟩ :: rest =>
      if ifa_name = "lo" then candidate rest else some (s_addr, netmask)

theorem firstSubnet_eq (net : Inet) (list : List IfAddr) :
    firstSubnet net list = match candidate list with
      | none => []
      | some (s_addr, netmask) => subnetText net s_addr netmask := by
  induction list with
  | nil => rfl
  | cons ifa rest ih =>
      obtain ⟨ifa_name, ifa_addr⟩ := ifa
      cases ifa_addr with
      | null => exact ih
      | other => exact ih
      | inet s_addr netmask =>
          by_cases loopback : ifa_name = "lo"
          · simp [firstSubnet, candidate, loopback, ih]
          · simp [firstSubnet, candidate, loopback]

theorem detectLocalSubnet_of_candidate (net : Inet) {list : List IfAddr} {s_addr mask : UInt32}
    (chosen : candidate list = some (s_addr, mask)) :
    detectLocalSubnet net (some list) = subnetText net s_addr mask := by
  have first := firstSubnet_eq net list
  rw [chosen] at first
  exact first

/-- For every address and every contiguous mask of 16 to 30 bits, the subnet that is detected
is expanded to the first addresses behind that of the network, each once. -/
theorem detected_subnet_expands (net : Inet) (stale s_addr mask : UInt32) {p : Nat}
    {list : List IfAddr} (chosen : candidate list = some (s_addr, mask)) (low : 16 ≤ p)
    (high : p ≤ 30) (contiguous : net.ntohl mask = netmask p) :
    ∃ hosts, expandCIDR net stale (detectLocalSubnet net (some list)) = .ok (hosts.map net.text) ∧
      FirstHosts (net.ntohl s_addr) (net.ntohl mask) p hosts ∧ (hosts.map net.text).Nodup := by
  have first := hostsAfter_first (net.ntohl s_addr) p
  refine ⟨hostsAfter (net.ntohl s_addr &&& netmask p) p, ?_, ?_, ?_⟩
  · rw [detectLocalSubnet_of_candidate net chosen,
      expandCIDR_subnetText net stale s_addr mask (by omega) contiguous, if_neg (by omega)]
  · rw [contiguous]
    exact first
  · refine List.Pairwise.map _ (fun a b less same => ?_) first.increasing
    rw [net.text_injective same, UInt32.lt_iff_toNat_lt] at less
    exact Nat.lt_irrefl _ less

/-- 192.168.1.77 with a mask of 30 bits has two hosts. -/
theorem detected_subnet_expands_smallest :
    let list : List IfAddr := [⟨"lo", .inet 0x0100007F 0x000000FF⟩, ⟨"eth0", .other⟩,
      ⟨"eth0", .inet 0x4D01A8C0 0xFCFFFFFF⟩]
    ∃ hosts, expandCIDR dotted 0 (detectLocalSubnet dotted (some list)) =
        .ok (hosts.map dotted.text) ∧
      FirstHosts 0xC0A8014D 0xFFFFFFFC 30 hosts ∧ (hosts.map dotted.text).Nodup :=
  detected_subnet_expands dotted 0 0x4D01A8C0 0xFCFFFFFF rfl (by omega) (by omega) rfl

end OrbisAgent.Services.Subnet
