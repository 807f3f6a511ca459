/- OrbisAgent/Lib/Ipv4
   generality: G
   digest: 32-bit addresses with contiguous netmasks, and their texts. -/

import Mathlib.Data.Nat.Bitwise
import OrbisAgent.Lib.CText

set_option autoImplicit false
set_option relaxedAutoImplicit false

namespace OrbisAgent.Lib.Ipv4

open OrbisAgent.Lib.ByteString
open OrbisAgent.Lib.CText

/-- The mask of `p` one bits in front of zero bits. -/
def netmask (p : Nat) : UInt32 := UInt32.ofNat (2 ^ 32 - 2 ^ (32 - p))

/-- The last address of a network. -/
def broadcast (network mask : UInt32) : UInt32 := network ||| ~~~mask

theorem netmask_toNat (p : Nat) : (netmask p).toNat = 2 ^ 32 - 2 ^ (32 - p) := by
  unfold netmask
  rw [UInt32.toNat_ofNat']
  have pos : 0 < 2 ^ (32 - p) := Nat.two_pow_pos _
  omega

/-- The bits of a mask of `32 - k` ones. -/
theorem testBit_mask {k : Nat} (le : k ≤ 32) (i : Nat) :
    (2 ^ 32 - 2 ^ k).testBit i = (decide (k ≤ i) && decide (i < 32)) := by
  have shape : 2 ^ 32 - 2 ^ k = (2 ^ (32 - k) - 1) * 2 ^ k := by
    rw [Nat.sub_mul, ← Nat.pow_add, Nat.one_mul, Nat.sub_add_cancel le]
  rw [shape, Nat.testBit_mul_two_pow, Nat.testBit_two_pow_sub_one]
  by_cases low : k ≤ i
  · simp only [low, decide_true, Bool.true_and, decide_eq_decide]
    omega
  · simp [low]

/-- Masking clears the last `32 - p` bits. -/
theorem and_netmask_toNat (a : UInt32) (p : Nat) :
    (a &&& netmask p).toNat = a.toNat / 2 ^ (32 - p) * 2 ^ (32 - p) := by
  rw [UInt32.toNat_and, netmask_toNat]
  apply Nat.eq_of_testBit_eq
  intro i
  rw [Nat.testBit_and, testBit_mask (by omega), Nat.testBit_mul_two_pow, Nat.testBit_div_two_pow]
  by_cases low : 32 - p ≤ i
  · rw [Nat.sub_add_cancel low]
    by_cases high : i < 32
    · simp [low, high]
    · have zero : a.toNat.testBit i = false :=
        Nat.testBit_lt_two_pow (Nat.lt_of_lt_of_le a.toNat_lt
          (Nat.pow_le_pow_right (by omega) (by omega)))
      simp [zero]
  · simp [low]

/-- Two addresses are in one network when they agree up to the last `32 - p` bits. -/
theorem and_netmask_eq_iff (a b : UInt32) (p : Nat) :
    a &&& netmask p = b &&& netmask p ↔ a.toNat / 2 ^ (32 - p) = b.toNat / 2 ^ (32 - p) := by
  rw [← UInt32.toNat_inj, and_netmask_toNat, and_netmask_toNat]
  exact Nat.mul_left_inj (Nat.two_pow_pos _).ne'

theorem broadcast_toNat (a : UInt32) (p : Nat) :
    (broadcast (a &&& netmask p) (netmask p)).toNat =
      (a &&& netmask p).toNat + (2 ^ (32 - p) - 1) := by
  have pos : 0 < 2 ^ (32 - p) := Nat.two_pow_pos _
  have le : 2 ^ (32 - p) ≤ 2 ^ 32 := Nat.pow_le_pow_right (by omega) (by omega)
  have rest : (~~~netmask p).toNat = 2 ^ (32 - p) - 1 := by
    have size : UInt32.size = 2 ^ 32 := rfl
    rw [UInt32.toNat_not, netmask_toNat, size]
    omega
  rw [broadcast, UInt32.toNat_or, rest, and_netmask_toNat, Nat.mul_comm]
  exact (Nat.two_pow_add_eq_or_of_lt (by omega) _).symm

/-- The test `m & 0x80000000`. -/
theorem top_bit_iff (m : UInt32) : m &&& 0x80000000 ≠ 0 ↔ 2 ^ 31 ≤ m.toNat := by
  have size := m.toNat_lt
  have zero : (0 : UInt32).toNat = 0 := rfl
  have top : (0x80000000 : UInt32).toNat = 2 ^ 31 := rfl
  have bit : m.toNat.testBit 31 = decide (m.toNat / 2 ^ 31 % 2 = 1) :=
    Nat.testBit_eq_decide_div_mod_eq
  rw [ne_eq, ← UInt32.toNat_inj, UInt32.toNat_and, top, Nat.and_two_pow, zero, bit]
  simp
  omega

theorem shiftLeft_one_toNat (m : UInt32) : (m <<< 1).toNat = 2 * m.toNat % 2 ^ 32 := by
  have one : (1 : UInt32).toNat % 32 = 1 := rfl
  rw [UInt32.toNat_shiftLeft, one, Nat.shiftLeft_eq, Nat.pow_one, Nat.mul_comm]

/-- A one bit shifted out of a mask leaves the mask of the others. -/
theorem netmask_shift {p : Nat} (le : p < 32) : netmask (p + 1) <<< 1 = netmask p := by
  rw [← UInt32.toNat_inj, shiftLeft_one_toNat, netmask_toNat, netmask_toNat]
  have double : 2 ^ (32 - p) = 2 * 2 ^ (32 - (p + 1)) := by
    rw [← Nat.pow_succ']
    congr 1
    omega
  have pos : 0 < 2 ^ (32 - (p + 1)) := Nat.two_pow_pos _
  have bound : 2 ^ (32 - (p + 1)) ≤ 2 ^ 31 := Nat.pow_le_pow_right (by omega) (by omega)
  omega

/-- Where the numbers come from that text and byte order stand for: the functions of the C
library, with what they promise. -/
structure Inet where
  inet_ntop : UInt32 → Bytes
  inet_pton : Bytes → Option UInt32
  htonl : UInt32 → UInt32
  ntohl : UInt32 → UInt32
  pton_ntop : ∀ a, inet_pton (inet_ntop a) = some a
  ntohl_htonl : ∀ a, ntohl (htonl a) = a
  ntop_solid : ∀ a, 47 ∉ inet_ntop a

/-- The text of an address in host order. -/
def Inet.text (net : Inet) (a : UInt32) : Bytes := net.inet_ntop (net.htonl a)

theorem Inet.text_injective (net : Inet) {a b : UInt32} (same : net.text a = net.text b) :
    a = b := by
  have parsed := congrArg net.inet_pton same
  unfold Inet.text at parsed
  rw [net.pton_ntop, net.pton_ntop] at parsed
  have order := congrArg net.ntohl (Option.some.inj parsed)
  rw [net.ntohl_htonl, net.ntohl_htonl] at order
  exact order

/-- The four bytes of an address in dotted decimal. -/
def dottedText (a : UInt32) : Bytes :=
  digits (a.toNat / 2 ^ 24) ++ 46 :: (digits (a.toNat / 2 ^ 16 % 256) ++ 46 ::
    (digits (a.toNat / 2 ^ 8 % 256) ++ 46 :: digits (a.toNat % 256)))

/-- Four numerals below 256. -/
def dottedAddress (s : Bytes) : Option UInt32 :=
  match (getlines 46 s).mapM fun token => (decimal token).map Int.toNat with
  | some [a, b, c, d] =>
      if a < 256 ∧ b < 256 ∧ c < 256 ∧ d < 256 then
        some (UInt32.ofNat (2 ^ 24 * a + 2 ^ 16 * b + 2 ^ 8 * c + d))
      else none
  | _ => none

theorem notMem_digits {b : UInt8} (other : isDigit b = false) (n : Nat) : b ∉ digits n := by
  intro mem
  rw [isDigit_of_mem_digits mem] at other
  cases other

theorem dottedAddress_dottedText (a : UInt32) : dottedAddress (dottedText a) = some a := by
  have size := a.toNat_lt
  have dot : ∀ n, (46 : UInt8) ∉ digits n := notMem_digits (by decide)
  have tokens : getlines 46 (dottedText a) = [digits (a.toNat / 2 ^ 24),
      digits (a.toNat / 2 ^ 16 % 256), digits (a.toNat / 2 ^ 8 % 256), digits (a.toNat % 256)] := by
    unfold dottedText
    rw [getlines_append (dot _), getlines_append (dot _), getlines_append (dot _),
      getlines_last (dot _) (digits_spells _).2.2]
  have joined : 2 ^ 24 * (a.toNat / 2 ^ 24) + 2 ^ 16 * (a.toNat / 2 ^ 16 % 256) +
      2 ^ 8 * (a.toNat / 2 ^ 8 % 256) + a.toNat % 256 = a.toNat := by omega
  unfold dottedAddress
  rw [tokens]
  simp only [List.mapM_cons, List.mapM_nil, decimal_digits, Option.map_some, Int.toNat_natCast,
    Option.pure_def, Option.bind_eq_bind, Option.bind_some]
  rw [if_pos (by omega), joined, UInt32.ofNat_toNat]

/-- The order of the four bytes of a number reversed. -/
def swapBytes (a : UInt32) : UInt32 :=
  UInt32.ofNat (2 ^ 24 * (a.toNat % 256) + 2 ^ 16 * (a.toNat / 2 ^ 8 % 256) +
    2 ^ 8 * (a.toNat / 2 ^ 16 % 256) + a.toNat / 2 ^ 24)

theorem swapBytes_toNat {a : UInt32} {p q r s : Nat} (bytes : p < 256 ∧ q < 256 ∧ r < 256 ∧ s < 256)
    (shape : a.toNat = 2 ^ 24 * p + 2 ^ 16 * q + 2 ^ 8 * r + s) :
    (swapBytes a).toNat = 2 ^ 24 * s + 2 ^ 16 * r + 2 ^ 8 * q + p := by
  have first : a.toNat / 2 ^ 24 = p := by omega
  have second : a.toNat / 2 ^ 16 % 256 = q := by omega
  have third : a.toNat / 2 ^ 8 % 256 = r := by omega
  have fourth : a.toNat % 256 = s := by omega
  rw [swapBytes, UInt32.toNat_ofNat', first, second, third, fourth]
  omega

theorem swapBytes_swapBytes (a : UInt32) : swapBytes (swapBytes a) = a := by
  have size := a.toNat_lt
  have shape : a.toNat = 2 ^ 24 * (a.toNat / 2 ^ 24) + 2 ^ 16 * (a.toNat / 2 ^ 16 % 256) +
      2 ^ 8 * (a.toNat / 2 ^ 8 % 256) + a.toNat % 256 := by omega
  have once := swapBytes_toNat (by omega) shape
  have twice := swapBytes_toNat (by omega) once
  rw [← UInt32.toNat_inj, twice]
  exact shape.symm

/-- Addresses in dotted decimal on a machine that stores the last byte first. -/
def dotted : Inet where
  inet_ntop a := dottedText (swapBytes a)
  inet_pton s := (dottedAddress s).map swapBytes
  htonl := swapBytes
  ntohl := swapBytes
  pton_ntop a := by
    rw [dottedAddress_dottedText, Option.map_some, swapBytes_swapBytes]
  ntohl_htonl := swapBytes_swapBytes
  ntop_solid a := by
    have slash : ∀ n, (47 : UInt8) ∉ digits n := notMem_digits (by decide)
    simp [dottedText, slash]

end OrbisAgent.Lib.Ipv4
