/- OrbisAgent/Config/Base64
   source: src/config/ConfigManager.cpp: b64Encode, b64Decode
   digest: The encoder, the decoder over a wrapping 32-bit accumulator, and their round trip. -/

import OrbisAgent.Lib.ByteString
import Mathlib.Data.Nat.Bitwise

set_option autoImplicit false
set_option relaxedAutoImplicit false

namespace OrbisAgent.Config.Base64

open OrbisAgent.Lib.ByteString

/-- The alphabet of the encoder. -/
def tbl : Bytes := bytes "ABCDEFGHIJKLMNOPQRSTUVWXYZabcdefghijklmnopqrstuvwxyz0123456789+/"

/-- `=` -/
def pad : UInt8 := 61

/-- The four characters of one group; a missing byte counts as 0 and is padded. -/
def b64Group (b0 : UInt8) (next last : Option UInt8) : Bytes :=
  let b1 := next.getD 0
  let b2 := last.getD 0
  [tbl.getD (b0.toNat >>> 2) 0,
    tbl.getD (((b0.toNat &&& 3) <<< 4) ||| (b1.toNat >>> 4)) 0,
    if next.isSome then tbl.getD (((b1.toNat &&& 15) <<< 2) ||| (b2.toNat >>> 6)) 0 else pad,
    if last.isSome then tbl.getD (b2.toNat &&& 63) 0 else pad]

def b64Encode : Bytes → Bytes
  | [] => []
  | [b0] => b64Group b0 none none
  | [b0, b1] => b64Group b0 (some b1) none
  | b0 :: b1 :: b2 :: rest => b64Group b0 (some b1) (some b2) ++ b64Encode rest

/-- The table of the decoder. Its 256 entries beyond those written out are 0. -/
def lookupTable : List Int :=
  [-1,-1,-1,-1,-1,-1,-1,-1,-1,-1,-1,-1,-1,-1,-1,-1,
   -1,-1,-1,-1,-1,-1,-1,-1,-1,-1,-1,-1,-1,-1,-1,-1,
   -1,-1,-1,-1,-1,-1,-1,-1,-1,-1,-1,62,-1,-1,-1,63,
   52,53,54,55,56,57,58,59,60,61,-1,-1,-1,-1,-1,-1,
   -1, 0, 1, 2, 3, 4, 5, 6, 7, 8, 9,10,11,12,13,14,
   15,16,17,18,19,20,21,22,23,24,25,-1,-1,-1,-1,-1,
   -1,26,27,28,29,30,31,32,33,34,35,36,37,38,39,40,
   41,42,43,44,45,46,47,48,49,50,51,-1,-1,-1,-1,-1]

def lookup (c : UInt8) : Int := lookupTable.getD c.toNat 0

/-- A 32-bit `int`. -/
def wrap32 (x : Int) : Int := x.bmod (2 ^ 32)

/-- The loop of the decoder, from an accumulator and its count of bits. -/
def b64Loop : Bytes → Int → Int → Bytes
  | [], _, _ => []
  | c :: rest, val, bits =>
      if c ≥ 128 || lookup c == -1 then []
      else
        let val := wrap32 (wrap32 (val * 2 ^ 6) + lookup c)
        let bits := bits + 6
        if bits ≥ 0 then
          UInt8.ofNat ((val >>> bits.toNat) % 256).toNat :: b64Loop rest val (bits - 8)
        else b64Loop rest val bits

def b64Decode (input : Bytes) : Bytes := b64Loop input 0 (-8)

/-- A position of the alphabet decodes to itself. -/
theorem lookup_tbl {n : Nat} (small : n < 64) :
    ¬ (tbl.getD n 0 ≥ 128 || lookup (tbl.getD n 0) == -1) ∧ lookup (tbl.getD n 0) = n := by
  have all : ∀ k : Fin 64, ¬ (tbl.getD k 0 ≥ 128 || lookup (tbl.getD k 0) == -1) ∧
      lookup (tbl.getD k 0) = k := by decide +kernel
  exact all ⟨n, small⟩

theorem wrap32_eq (x : Int) : ∃ k : Int, wrap32 x = x - 2 ^ 32 * k := by
  refine ⟨x.bdiv (2 ^ 32), ?_⟩
  have split := Int.bmod_add_bdiv x (2 ^ 32)
  unfold wrap32
  omega

/-- A character of the alphabet extends the accumulator. -/
theorem b64Loop_tbl {n : Nat} (small : n < 64) (rest : Bytes) (val bits : Int) :
    ∃ k : Int, b64Loop (tbl.getD n 0 :: rest) val bits =
      if bits + 6 ≥ 0 then
        UInt8.ofNat (((val * 64 + n - 2 ^ 32 * k) >>> (bits + 6).toNat) % 256).toNat ::
          b64Loop rest (val * 64 + n - 2 ^ 32 * k) (bits + 6 - 8)
      else b64Loop rest (val * 64 + n - 2 ^ 32 * k) (bits + 6) := by
  obtain ⟨inside, value⟩ := lookup_tbl small
  obtain ⟨k, shifted⟩ := wrap32_eq (val * 2 ^ 6)
  obtain ⟨l, added⟩ := wrap32_eq (wrap32 (val * 2 ^ 6) + n)
  refine ⟨k + l, ?_⟩
  have same : wrap32 (wrap32 (val * 2 ^ 6) + lookup (tbl.getD n 0)) =
      val * 64 + n - 2 ^ 32 * (k + l) := by
    rw [value, added, shifted]
    omega
  rw [b64Loop, if_neg inside]
  dsimp only
  rw [same]

theorem b64Loop_pad (rest : Bytes) (val bits : Int) : b64Loop (pad :: rest) val bits = [] := by
  rw [b64Loop, if_pos (by decide)]

theorem high_index (b0 b1 : Nat) (small : b1 < 256) :
    ((b0 &&& 3) <<< 4) ||| (b1 >>> 4) = b0 % 4 * 16 + b1 / 16 := by
  have masked : b0 &&& 3 = b0 % 4 := Nat.and_two_pow_sub_one_eq_mod b0 2
  have shifted : b1 >>> 4 = b1 / 16 := Nat.shiftRight_eq_div_pow b1 4
  rw [masked, shifted, ← Nat.shiftLeft_add_eq_or_of_lt (by omega), Nat.shiftLeft_eq]

theorem middle_index (b1 b2 : Nat) (small : b2 < 256) :
    ((b1 &&& 15) <<< 2) ||| (b2 >>> 6) = b1 % 16 * 4 + b2 / 64 := by
  have masked : b1 &&& 15 = b1 % 16 := Nat.and_two_pow_sub_one_eq_mod b1 4
  have shifted : b2 >>> 6 = b2 / 64 := Nat.shiftRight_eq_div_pow b2 6
  rw [masked, shifted, ← Nat.shiftLeft_add_eq_or_of_lt (by omega), Nat.shiftLeft_eq]

/-- Two characters give the first byte and leave the high half of the second. -/
theorem b64Loop_first (b0 : UInt8) {m : Nat} (small : m < 16) (rest : Bytes) (val : Int) :
    ∃ v : Int, v % 16 = m ∧
      b64Loop (tbl.getD (b0.toNat / 4) 0 :: tbl.getD (b0.toNat % 4 * 16 + m) 0 :: rest) val (-8) =
        b0 :: b64Loop rest v (-4) := by
  have bound := b0.toNat_lt
  obtain ⟨k, enter⟩ := b64Loop_tbl (n := b0.toNat / 4) (by omega)
    (tbl.getD (b0.toNat % 4 * 16 + m) 0 :: rest) val (-8)
  obtain ⟨l, emit⟩ := b64Loop_tbl (n := b0.toNat % 4 * 16 + m) (by omega) rest
    (val * 64 + (b0.toNat / 4 : Nat) - 2 ^ 32 * k) (-8 + 6)
  have byte : ((((val * 64 + (b0.toNat / 4 : Nat) - 2 ^ 32 * k) * 64 +
      (b0.toNat % 4 * 16 + m : Nat) - 2 ^ 32 * l) >>> (4 : Nat)) % 256).toNat = b0.toNat := by
    rw [Int.shiftRight_eq_div_pow]
    omega
  refine ⟨(val * 64 + (b0.toNat / 4 : Nat) - 2 ^ 32 * k) * 64 +
    (b0.toNat % 4 * 16 + m : Nat) - 2 ^ 32 * l, by omega, ?_⟩
  rw [enter, if_neg (by decide), emit, if_pos (by decide),
    show ((-8 : Int) + 6 + 6).toNat = 4 from rfl, byte, UInt8.ofNat_toNat]
  rfl

/-- The third character gives the second byte and leaves the high quarter of the third. -/
theorem b64Loop_second (b1 : UInt8) {m : Nat} (small : m < 4) (rest : Bytes) {v : Int}
    (low : v % 16 = (b1.toNat / 16 : Nat)) :
    ∃ w : Int, w % 4 = m ∧ b64Loop (tbl.getD (b1.toNat % 16 * 4 + m) 0 :: rest) v (-4) =
      b1 :: b64Loop rest w (-6) := by
  have bound := b1.toNat_lt
  obtain ⟨k, emit⟩ := b64Loop_tbl (n := b1.toNat % 16 * 4 + m) (by omega) rest v (-4)
  have byte : (((v * 64 + (b1.toNat % 16 * 4 + m : Nat) - 2 ^ 32 * k) >>> (2 : Nat)) % 256).toNat =
      b1.toNat := by
    rw [Int.shiftRight_eq_div_pow]
    omega
  refine ⟨v * 64 + (b1.toNat % 16 * 4 + m : Nat) - 2 ^ 32 * k, by omega, ?_⟩
  rw [emit, if_pos (by decide), show ((-4 : Int) + 6).toNat = 2 from rfl, byte,
    UInt8.ofNat_toNat]
  rfl

/-- The fourth character gives the third byte. -/
theorem b64Loop_third (b2 : UInt8) (rest : Bytes) {w : Int}
    (low : w % 4 = (b2.toNat / 64 : Nat)) :
    ∃ x, b64Loop (tbl.getD (b2.toNat % 64) 0 :: rest) w (-6) = b2 :: b64Loop rest x (-8) := by
  have bound := b2.toNat_lt
  obtain ⟨k, emit⟩ := b64Loop_tbl (n := b2.toNat % 64) (by omega) rest w (-6)
  have byte : (((w * 64 + (b2.toNat % 64 : Nat) - 2 ^ 32 * k) >>> (0 : Nat)) % 256).toNat =
      b2.toNat := by
    rw [Int.shiftRight_eq_div_pow]
    omega
  refine ⟨w * 64 + (b2.toNat % 64 : Nat) - 2 ^ 32 * k, ?_⟩
  rw [emit, if_pos (by decide), show ((-6 : Int) + 6).toNat = 0 from rfl, byte,
    UInt8.ofNat_toNat]
  rfl

theorem b64Group_one (b0 : UInt8) :
    b64Group b0 none none =
      [tbl.getD (b0.toNat / 4) 0, tbl.getD (b0.toNat % 4 * 16 + 0) 0, pad, pad] := by
  unfold b64Group
  simp only [Option.getD_none, Option.isSome_none, Bool.false_eq_true, if_false]
  rw [high_index _ _ (by decide), Nat.shiftRight_eq_div_pow]
  rfl

theorem b64Group_two (b0 b1 : UInt8) :
    b64Group b0 (some b1) none =
      [tbl.getD (b0.toNat / 4) 0, tbl.getD (b0.toNat % 4 * 16 + b1.toNat / 16) 0,
        tbl.getD (b1.toNat % 16 * 4 + 0) 0, pad] := by
  have bound := b1.toNat_lt
  unfold b64Group
  simp only [Option.getD_some, Option.getD_none, Option.isSome_some, Option.isSome_none,
    Bool.false_eq_true, if_false, if_true]
  rw [high_index _ _ (by omega), middle_index _ _ (by decide), Nat.shiftRight_eq_div_pow]
  rfl

theorem b64Group_three (b0 b1 b2 : UInt8) :
    b64Group b0 (some b1) (some b2) =
      [tbl.getD (b0.toNat / 4) 0, tbl.getD (b0.toNat % 4 * 16 + b1.toNat / 16) 0,
        tbl.getD (b1.toNat % 16 * 4 + b2.toNat / 64) 0, tbl.getD (b2.toNat % 64) 0] := by
  have bound1 := b1.toNat_lt
  have bound2 := b2.toNat_lt
  have mask : b2.toNat &&& 63 = b2.toNat % 64 := Nat.and_two_pow_sub_one_eq_mod _ 6
  unfold b64Group
  simp only [Option.getD_some, Option.isSome_some, if_true]
  rw [high_index _ _ (by omega), middle_index _ _ (by omega), mask, Nat.shiftRight_eq_div_pow]

theorem tbl_mem {n : Nat} (small : n < 64) : tbl.getD n 0 ∈ tbl := by
  have length : tbl.length = 64 := by decide
  rw [List.getD_eq_getElem _ _ (by omega)]
  exact List.getElem_mem _

theorem pad_not_mem_tbl : pad ∉ tbl := by decide

/-- Alphabet characters, then as much padding as the last group lacks bytes. -/
theorem b64Encode_body (data : Bytes) :
    ∃ body, b64Encode data = body ++ List.replicate ((3 - data.length % 3) % 3) pad ∧
      ∀ c ∈ body, c ∈ tbl := by
  induction data using b64Encode.induct with
  | case1 => exact ⟨[], rfl, fun _ mem => absurd mem List.not_mem_nil⟩
  | case2 b0 =>
      have bound := b0.toNat_lt
      refine ⟨[_, _], b64Group_one b0, ?_⟩
      intro c mem
      simp only [List.mem_cons, List.not_mem_nil, or_false] at mem
      rcases mem with rfl | rfl
      all_goals exact tbl_mem (by omega)
  | case3 b0 b1 =>
      have bound0 := b0.toNat_lt
      have bound1 := b1.toNat_lt
      refine ⟨[_, _, _], b64Group_two b0 b1, ?_⟩
      intro c mem
      simp only [List.mem_cons, List.not_mem_nil, or_false] at mem
      rcases mem with rfl | rfl | rfl
      all_goals exact tbl_mem (by omega)
  | case4 b0 b1 b2 rest ih =>
      have bound0 := b0.toNat_lt
      have bound1 := b1.toNat_lt
      have bound2 := b2.toNat_lt
      obtain ⟨body, shape, inside⟩ := ih
      have residue : (b0 :: b1 :: b2 :: rest).length % 3 = rest.length % 3 := by
        simp only [List.length_cons]
        omega
      refine ⟨b64Group b0 (some b1) (some b2) ++ body, ?_, ?_⟩
      · rw [b64Encode, shape, residue, List.append_assoc]
      intro c mem
      rcases List.mem_append.mp mem with mem | mem
      · rw [b64Group_three] at mem
        simp only [List.mem_cons, List.not_mem_nil, or_false] at mem
        rcases mem with rfl | rfl | rfl | rfl
        all_goals exact tbl_mem (by omega)
      · exact inside c mem

/-- The encoder writes characters of the alphabet and padding only. -/
theorem mem_b64Encode {c : UInt8} {data : Bytes} (mem : c ∈ b64Encode data) : c ∈ pad :: tbl := by
  obtain ⟨body, shape, inside⟩ := b64Encode_body data
  rw [shape, List.mem_append] at mem
  rcases mem with mem | mem
  · exact List.mem_cons_of_mem pad (inside c mem)
  · rw [List.eq_of_mem_replicate mem]
    exact List.mem_cons_self

theorem length_b64Group (b0 : UInt8) (next last : Option UInt8) :
    (b64Group b0 next last).length = 4 := rfl

theorem length_b64Encode (data : Bytes) :
    (b64Encode data).length = 4 * ((data.length + 2) / 3) := by
  induction data using b64Encode.induct with
  | case1 => rfl
  | case2 b0 => rw [b64Encode, length_b64Group, List.length_singleton]
  | case3 b0 b1 => rw [b64Encode, length_b64Group, List.length_cons, List.length_singleton]
  | case4 b0 b1 b2 rest ih =>
      rw [b64Encode, List.length_append, length_b64Group, ih]
      simp only [List.length_cons]
      omega

/-- The loop gives back what was encoded, whatever the accumulator holds. -/
theorem b64Loop_b64Encode (data : Bytes) (val : Int) :
    b64Loop (b64Encode data) val (-8) = data := by
  induction data using b64Encode.induct generalizing val with
  | case1 => rfl
  | case2 b0 =>
      obtain ⟨v, _, first⟩ := b64Loop_first b0 (m := 0) (by decide) [pad, pad] val
      rw [b64Encode, b64Group_one, first, b64Loop_pad]
  | case3 b0 b1 =>
      have bound := b1.toNat_lt
      obtain ⟨v, low, first⟩ := b64Loop_first b0 (m := b1.toNat / 16) (by omega)
        [tbl.getD (b1.toNat % 16 * 4 + 0) 0, pad] val
      obtain ⟨w, _, second⟩ := b64Loop_second b1 (m := 0) (by decide) [pad] low
      rw [b64Encode, b64Group_two, first, second, b64Loop_pad]
  | case4 b0 b1 b2 rest ih =>
      have bound1 := b1.toNat_lt
      have bound2 := b2.toNat_lt
      rw [b64Encode, b64Group_three]
      dsimp only [List.cons_append, List.nil_append]
      obtain ⟨v, low, first⟩ := b64Loop_first b0 (m := b1.toNat / 16) (by omega)
        (tbl.getD (b1.toNat % 16 * 4 + b2.toNat / 64) 0 :: tbl.getD (b2.toNat % 64) 0 ::
          b64Encode rest) val
      obtain ⟨w, low', second⟩ := b64Loop_second b1 (m := b2.toNat / 64) (by omega)
        (tbl.getD (b2.toNat % 64) 0 :: b64Encode rest) low
      obtain ⟨x, third⟩ := b64Loop_third b2 (b64Encode rest) low'
      rw [first, second, third, ih]

theorem b64Decode_b64Encode (data : Bytes) : b64Decode (b64Encode data) = data :=
  b64Loop_b64Encode data 0

/-- Decoding inverts encoding. An encoding has four characters for every three bytes begun,
and padding stands only at its end. -/
theorem b64Encode_roundTrip (data : Bytes) :
    b64Decode (b64Encode data) = data ∧
      (b64Encode data).length = 4 * ((data.length + 2) / 3) ∧
      ∃ (body : Bytes) (pads : Nat), b64Encode data = body ++ List.replicate pads pad ∧
        pads ≤ 2 ∧ pads = (3 - data.length % 3) % 3 ∧ pad ∉ body ∧ ∀ c ∈ body, c ∈ tbl := by
  obtain ⟨body, shape, inside⟩ := b64Encode_body data
  refine ⟨b64Decode_b64Encode data, length_b64Encode data, body, _, shape, by omega, rfl, ?_,
    inside⟩
  intro mem
  exact pad_not_mem_tbl (inside pad mem)

end OrbisAgent.Config.Base64
