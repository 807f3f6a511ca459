/- OrbisAgent/Services/InterfaceChoice
   source: NetworkScanner::detectLocalSubnet (POSIX), expandCIDR; scan (its first lines)
   digest: A scan probes a subnet of the machine exactly if the first interface that is not named
   lo is one that can be scanned, since no other is tried. -/

import OrbisAgent.Services.Subnet

set_option autoImplicit false
set_option relaxedAutoImplicit false

namespace OrbisAgent.Services.InterfaceChoice

open OrbisAgent.Lib.ByteString
open OrbisAgent.Lib.Ipv4
open OrbisAgent.Services.Subnet

/-- In 127.0.0.0/8. -/
def Loopback (a : UInt32) : Prop := a &&& netmask 8 = 0x7F000000

/-- An address outside 127.0.0.0/8 with a mask of 16 to 30 bits. -/
structure Scannable (net : Inet) (s_addr mask : UInt32) : Prop where
  outside : ¬ Loopback (net.ntohl s_addr)
  limits : ∃ p, 16 ≤ p ∧ p ≤ 30 ∧ net.ntohl mask = netmask p

/-- Every mask is a number of one bits in front of zero bits. -/
def Contiguous (net : Inet) (list : List IfAddr) : Prop :=
  ∀ ifa ∈ list, ∀ s_addr mask, ifa.ifa_addr = .inet s_addr mask →
    ∃ p, p ≤ 32 ∧ net.ntohl mask = netmask p

/-- The hosts of a scan are addresses of the subnet of an interface that can be scanned, one at
least, and none of them is a loopback address. -/
def ProbesSubnet (net : Inet) (stale : UInt32) (list : List IfAddr) : Prop :=
  ∃ hosts : List UInt32, scanHosts net stale (some list) = .ok (hosts.map net.text) ∧
    hosts ≠ [] ∧
    (∃ ifa ∈ list, ∃ s_addr mask, ifa.ifa_addr = .inet s_addr mask ∧ Scannable net s_addr mask ∧
      ∀ h ∈ hosts, h &&& net.ntohl mask = net.ntohl s_addr &&& net.ntohl mask) ∧
    ∀ h ∈ hosts, ¬ Loopback h

/-- Loopback addresses are told by their first byte. -/
theorem loopback_iff (a : UInt32) : Loopback a ↔ a.toNat / 2 ^ 24 = 127 := by
  have first : (0x7F000000 : UInt32).toNat = 127 * 2 ^ 24 := rfl
  rw [Loopback, ← UInt32.toNat_inj, and_netmask_toNat, first]
  exact Nat.mul_left_inj (by omega)

/-- A subnet of 8 bits or more lies inside 127.0.0.0/8 or outside. -/
theorem loopback_congr {a h : UInt32} {p : Nat} (le : 8 ≤ p)
    (same : h &&& netmask p = a &&& netmask p) : Loopback h ↔ Loopback a := by
  rw [and_netmask_eq_iff] at same
  have width : 2 ^ 24 = 2 ^ (32 - p) * 2 ^ (p - 8) ∨ 32 < p := by
    by_cases long : 32 < p
    · exact .inr long
    · refine .inl ?_
      rw [← Nat.pow_add]
      congr 1
      omega
  rw [loopback_iff, loopback_iff]
  rcases width with width | long
  · rw [width, ← Nat.div_div_eq_div_mul, ← Nat.div_div_eq_div_mul, same]
  · have one : 32 - p = 0 := by omega
    rw [one, Nat.pow_zero, Nat.div_one, Nat.div_one] at same
    rw [same]

theorem mem_of_candidate {list : List IfAddr} {s_addr mask : UInt32}
    (chosen : candidate list = some (s_addr, mask)) :
    ∃ ifa ∈ list, ifa.ifa_addr = .inet s_addr mask := by
  induction list with
  | nil => cases chosen
  | cons ifa rest ih =>
      obtain ⟨ifa_name, ifa_addr⟩ := ifa
      have later : candidate rest = some (s_addr, mask) →
          ∃ ifa ∈ (⟨ifa_name, ifa_addr⟩ : IfAddr) :: rest, ifa.ifa_addr = .inet s_addr mask := by
        intro found
        obtain ⟨ifa, mem, same⟩ := ih found
        exact ⟨ifa, List.mem_cons_of_mem _ mem, same⟩
      cases ifa_addr with
      | null => exact later chosen
      | other => exact later chosen
      | inet x y =>
          rw [candidate] at chosen
          by_cases loopback : ifa_name = "lo"
          · rw [if_pos loopback] at chosen
            exact later chosen
          · rw [if_neg loopback] at chosen
            cases chosen
            exact ⟨_, List.mem_cons_self, rfl⟩

theorem scanHosts_of_none (net : Inet) (stale : UInt32) {list : List IfAddr}
    (none : candidate list = none) : scanHosts net stale (some list) = .ok [] := by
  have empty : detectLocalSubnet net (some list) = [] := by
    have first := firstSubnet_eq net list
    rw [none] at first
    exact first
  simp [scanHosts, empty]

theorem scanHosts_of_candidate (net : Inet) (stale : UInt32) {list : List IfAddr}
    {s_addr mask : UInt32} (chosen : candidate list = some (s_addr, mask)) {p : Nat}
    (le : p ≤ 32) (contiguous : net.ntohl mask = netmask p) :
    scanHosts net stale (some list) = .ok (if p < 16 ∨ 30 < p then []
      else (hostsAfter (net.ntohl s_addr &&& netmask p) p).map net.text) := by
  have nonempty : (subnetText net s_addr mask).isEmpty = false := by
    rw [List.isEmpty_eq_false_iff]
    intro empty
    have mem := slash_mem_subnetText net s_addr mask
    rw [empty] at mem
    cases mem
  unfold scanHosts
  dsimp only
  rw [detectLocalSubnet_of_candidate net chosen, nonempty, if_neg Bool.false_ne_true]
  exact expandCIDR_subnetText net stale s_addr mask le contiguous

theorem hostsAfter_ne_nil (network : UInt32) {p : Nat} (high : p ≤ 30) :
    hostsAfter network p ≠ [] := by
  intro empty
  have none := congrArg List.length empty
  have least : 2 ^ 2 ≤ 2 ^ (32 - p) := Nat.pow_le_pow_right (by omega) (by omega)
  rw [hostsAfter, List.length_map, List.length_range, List.length_nil] at none
  omega

/-- A scan probes the subnet of an interface that can be scanned exactly if the first one that is
not named `lo` can. -/
theorem probes_subnet_iff (net : Inet) (stale : UInt32) {list : List IfAddr}
    (contiguous : Contiguous net list) :
    ProbesSubnet net stale list ↔
      ∃ s_addr mask, candidate list = some (s_addr, mask) ∧ Scannable net s_addr mask := by
  constructor
  · rintro ⟨hosts, probed, nonempty, _, foreign⟩
    cases chosen : candidate list with
    | none =>
        rw [scanHosts_of_none net stale chosen] at probed
        exact absurd (List.map_eq_nil_iff.mp (Except.ok.inj probed).symm) nonempty
    | some pair =>
        obtain ⟨s_addr, mask⟩ := pair
        obtain ⟨ifa, mem, address⟩ := mem_of_candidate chosen
        obtain ⟨p, le, ones⟩ := contiguous ifa mem s_addr mask address
        rw [scanHosts_of_candidate net stale chosen le ones] at probed
        have inside : 16 ≤ p ∧ p ≤ 30 := by
          by_cases outside : p < 16 ∨ 30 < p
          · rw [if_pos outside] at probed
            exact absurd (List.map_eq_nil_iff.mp (Except.ok.inj probed).symm) nonempty
          · omega
        rw [if_neg (by omega)] at probed
        have same : hostsAfter (net.ntohl s_addr &&& netmask p) p = hosts :=
          (List.map_inj_right fun _ _ => net.text_injective).mp (Except.ok.inj probed)
        refine ⟨s_addr, mask, rfl, ⟨fun loopback => ?_, p, inside.1, inside.2, ones⟩⟩
        obtain ⟨h, host⟩ := List.exists_mem_of_ne_nil hosts nonempty
        have subnet := (hostsAfter_first (net.ntohl s_addr) p).inside h (by rw [same]; exact host)
        exact foreign h host ((loopback_congr (by omega) subnet).mpr loopback)
  · rintro ⟨s_addr, mask, chosen, outside, p, low, high, ones⟩
    have first := hostsAfter_first (net.ntohl s_addr) p
    obtain ⟨ifa, mem, address⟩ := mem_of_candidate chosen
    refine ⟨hostsAfter (net.ntohl s_addr &&& netmask p) p, ?_, hostsAfter_ne_nil _ high,
      ⟨ifa, mem, s_addr, mask, address, ⟨outside, p, low, high, ones⟩, ?_⟩, fun h host => ?_⟩
    · rw [scanHosts_of_candidate net stale chosen (by omega) ones, if_neg (by omega)]
    · rw [ones]
      exact first.inside
    · rw [loopback_congr (by omega) (first.inside h host)]
      exact outside

/-- The loopback interface and an Ethernet interface with 192.168.1.77/24. -/
def machine (loopback : String) : List IfAddr :=
  [⟨loopback, .inet 0x0100007F 0x000000FF⟩, ⟨"en0", .other⟩,
    ⟨"en0", .inet 0x4D01A8C0 0x00FFFFFF⟩]

theorem machine_contiguous (loopback : String) : Contiguous dotted (machine loopback) := by
  intro ifa mem s_addr mask address
  simp only [machine, List.mem_cons, List.not_mem_nil, or_false] at mem
  rcases mem with rfl | rfl | rfl
  · cases address
    exact ⟨8, by omega, rfl⟩
  · cases address
  · cases address
    exact ⟨24, by omega, rfl⟩

theorem ethernet_scannable : Scannable dotted 0x4D01A8C0 0x00FFFFFF where
  outside := by
    have first : (dotted.ntohl 0x4D01A8C0).toNat / 2 ^ 24 = 192 := rfl
    rw [loopback_iff, first]
    omega
  limits := ⟨24, by omega, by omega, rfl⟩

/-- With the loopback interface of Linux, the Ethernet interface is scanned. -/
theorem linux_probes_subnet : ProbesSubnet dotted 0 (machine "lo") :=
  (probes_subnet_iff dotted 0 (machine_contiguous "lo")).mpr ⟨_, _, rfl, ethernet_scannable⟩

/-- The loopback interface of macOS is named `lo0`: it is chosen, its prefix is too short, and
no host is probed, although the Ethernet interface could be scanned. -/
theorem lo0_hides_every_interface :
    (∃ ifa ∈ machine "lo0", ∃ s_addr mask, ifa.ifa_addr = .inet s_addr mask ∧
      Scannable dotted s_addr mask) ∧
    scanHosts dotted 0 (some (machine "lo0")) = .ok [] ∧
    ¬ ProbesSubnet dotted 0 (machine "lo0") := by
  have nothing : scanHosts dotted 0 (some (machine "lo0")) = .ok [] := by
    have chosen : candidate (machine "lo0") = some (0x0100007F, 0x000000FF) := rfl
    rw [scanHosts_of_candidate dotted 0 chosen (p := 8) (by omega) rfl, if_pos (by omega)]
  have last : (⟨"en0", .inet 0x4D01A8C0 0x00FFFFFF⟩ : IfAddr) ∈ machine "lo0" := by
    simp [machine]
  refine ⟨⟨_, last, _, _, rfl, ethernet_scannable⟩, nothing, ?_⟩
  rintro ⟨hosts, probed, nonempty, _⟩
  rw [nothing] at probed
  exact nonempty (List.map_eq_nil_iff.mp (Except.ok.inj probed).symm)

end OrbisAgent.Services.InterfaceChoice
