/- OrbisAgent/Services/FileDigest
   source: UpdateManager::verifySHA256
   digest: A file is verified exactly if the expected text is the hexadecimal form of the digest
   of its whole content. -/

import OrbisAgent.Lib.InputStream
import OrbisAgent.Services.UpdateManager

set_option autoImplicit false
set_option relaxedAutoImplicit false

namespace OrbisAgent.Services.FileDigest

open OrbisAgent.Lib.ByteString
open OrbisAgent.Lib
open OrbisAgent.Lib.InputStream
open OrbisAgent.Services
open OrbisAgent.Services.UpdateManager (Host Outcomes World)

universe u

/-- The digest functions of the crypto library. Updates with the pieces of a text give the digest
of the text. -/
structure Evp where
  Ctx : Type u
  init : Ctx
  update : Ctx → Bytes → Ctx
  final : Ctx → Bytes
  sha256 : Bytes → Bytes
  final_updates : ∀ pieces : List Bytes, final (pieces.foldl update init) = sha256 pieces.flatten
  length_sha256 : ∀ s, (sha256 s).length = 32

/-- A context that keeps what it was given. -/
def Evp.collecting (sha256 : Bytes → Bytes) (length : ∀ s, (sha256 s).length = 32) : Evp where
  Ctx := Bytes
  init := []
  update := fun seen buf => seen ++ buf
  final := sha256
  sha256 := sha256
  final_updates pieces := by
    have joined : ∀ seen : Bytes, pieces.foldl (fun seen buf => seen ++ buf) seen =
        seen ++ pieces.flatten := by
      induction pieces with
      | nil => simp
      | cons piece pieces ih => simp [ih]
    rw [joined, List.nil_append]
  length_sha256 := length

/-- A number as `std::hex` writes it. -/
def hexNumber (n : Nat) : Bytes := (Nat.toDigits 16 n).map fun c => c.toNat.toUInt8

/-- `setw` and `setfill` for one item. -/
def padded (width : Nat) (fill : UInt8) (s : Bytes) : Bytes :=
  List.replicate (width - s.length) fill ++ s

def toHex (digest : Bytes) : Bytes := digest.flatMap fun b => padded 2 48 (hexNumber b.toNat)

/-- The size of `buf`, less one. -/
def lastIndex : Nat := 65535

/-- `none` where the file does not open. -/
def verifySHA256 (evp : Evp.{u}) (file : Option Bytes) (allocated : Bool) (expected_hex : Bytes) :
    Bool :=
  match file with
  | none => false
  | some content =>
      if !allocated then false
      else
        let ctx := whileRead evp.update lastIndex evp.init (.opened content)
        toHex (evp.final ctx) == expected_hex

/-- Two lower-case digits for each byte. -/
def hexForm (digest : Bytes) : Bytes := digest.flatMap fun b => hex 2 b.toNat

theorem digitChar_toUInt8 {d : Nat} (small : d < 16) :
    (Nat.digitChar d).toNat.toUInt8 = hexDigit d := by
  have all : ∀ d : Fin 16, (Nat.digitChar d).toNat.toUInt8 = hexDigit d := by decide
  exact all ⟨d, small⟩

/-- A byte below 16 gets a zero in front. -/
theorem padded_hexNumber {n : Nat} (byte : n < 256) : padded 2 48 (hexNumber n) = hex 2 n := by
  have low := digitChar_toUInt8 (Nat.mod_lt n (by omega : 16 > 0))
  have high := digitChar_toUInt8 (Nat.mod_lt (n / 16) (by omega : 16 > 0))
  have zero : hexDigit 0 = 48 := rfl
  unfold hexNumber
  rw [Nat.toDigits_eq_if (by omega)]
  by_cases small : n < 16
  · have none : n / 16 = 0 := by omega
    rw [Nat.mod_eq_of_lt small] at low
    simp [small, padded, hex, low, none, zero, Nat.mod_eq_of_lt small]
  · have one : n / 16 < 16 := by omega
    rw [Nat.mod_eq_of_lt one] at high
    rw [if_neg small, Nat.toDigits_of_lt_base one]
    simp [padded, hex, low, high, Nat.mod_eq_of_lt one]

theorem toHex_eq (digest : Bytes) : toHex digest = hexForm digest := by
  unfold toHex hexForm
  induction digest with
  | nil => rfl
  | cons b digest ih =>
      rw [List.flatMap_cons, List.flatMap_cons, ih, padded_hexNumber b.toNat_lt]

/-- A lower-case hexadecimal digit. -/
def IsHexDigit (b : UInt8) : Prop := (48 ≤ b ∧ b ≤ 57) ∨ (97 ≤ b ∧ b ≤ 102)

theorem hexForm_shape (digest : Bytes) :
    (hexForm digest).length = 2 * digest.length ∧ ∀ b ∈ hexForm digest, IsHexDigit b := by
  have digits : ∀ d : Fin 16, (48 ≤ hexDigit d ∧ hexDigit d ≤ 57) ∨
      (97 ≤ hexDigit d ∧ hexDigit d ≤ 102) := by decide
  unfold hexForm
  induction digest with
  | nil => simp
  | cons b digest ih =>
      rw [List.flatMap_cons]
      refine ⟨?_, fun c mem => ?_⟩
      · rw [List.length_append, length_hex, ih.1, List.length_cons]
        omega
      · rcases List.mem_append.mp mem with here | there
        · obtain ⟨d, small, rfl⟩ := mem_hex here
          exact digits ⟨d, small⟩
        · exact ih.2 c there

/-- Whatever the length of a file, it is verified exactly if the expected text is the 64
lower-case digits of the digest of all its bytes. -/
theorem verified_iff (evp : Evp.{u}) (content expected_hex : Bytes) :
    (verifySHA256 evp (some content) true expected_hex = true ↔
      expected_hex = hexForm (evp.sha256 content)) ∧
    (buffers lastIndex content).flatten = content ∧
    (hexForm (evp.sha256 content)).length = 64 ∧
    ∀ b ∈ hexForm (evp.sha256 content), IsHexDigit b := by
  obtain ⟨length, digits⟩ := hexForm_shape (evp.sha256 content)
  refine ⟨?_, flatten_buffers lastIndex content, ?_, digits⟩
  · have hashed : whileRead evp.update lastIndex evp.init (.opened content) =
        (buffers lastIndex content).foldl evp.update evp.init := whileRead_opened _ _ _ _ _
    simp only [verifySHA256, Bool.not_true, Bool.false_eq_true, if_false, hashed,
      evp.final_updates, flatten_buffers, toHex_eq, beq_iff_eq]
    exact eq_comm
  · rw [length, evp.length_sha256]

/-- The SHA-256 digests of no bytes and of `abc`. -/
def emptyDigest : Bytes :=
  [227, 176, 196, 66, 152, 252, 28, 20, 154, 251, 244, 200, 153, 111, 185, 36,
    39, 174, 65, 228, 100, 155, 147, 76, 164, 149, 153, 27, 120, 82, 184, 85]

def abcDigest : Bytes :=
  [186, 120, 22, 191, 143, 1, 207, 234, 65, 65, 64, 222, 93, 174, 34, 35,
    176, 3, 97, 163, 150, 23, 122, 156, 180, 16, 255, 97, 242, 0, 21, 173]

/-- A digest that is right for both texts. -/
def sampleEvp : Evp :=
  Evp.collecting (fun s => if s = bytes "abc" then abcDigest else emptyDigest) fun s => by
    split <;> rfl

/-- The text of the digest fits one file and not the other. -/
theorem abc_file_verified :
    let expected := bytes "ba7816bf8f01cfea414140de5dae2223b00361a396177a9cb410ff61f20015ad"
    verifySHA256 sampleEvp (some (bytes "abc")) true expected = true ∧
      verifySHA256 sampleEvp (some []) true expected = false := by
  intro expected
  refine ⟨(verified_iff sampleEvp (bytes "abc") expected).1.mpr (by decide +kernel), ?_⟩
  rw [← Bool.not_eq_true, (verified_iff sampleEvp [] expected).1]
  decide +kernel

/-- The digest of an update, which `UpdateManager` takes as one function of the content, is
computed by this loop. -/
theorem verifySHA256_computes (evp : Evp.{u}) (host : Host)
    (same : ∀ content, bytes (host.sha256Hex content) = hexForm (evp.sha256 content))
    (o : Outcomes) (file_path : String) (expected_hex : ByteArray) (w : World) :
    (UpdateManager.verifySHA256 host o file_path expected_hex).exec w =
      (.ok (match w.fs.read file_path with
        | none => false
        | some content => o.readable &&
            verifySHA256 evp (some content) true expected_hex.data.toList), w) := by
  unfold UpdateManager.verifySHA256
  rw [Trace.exec_bind, Trace.exec_get]
  cases file : w.fs.read file_path with
  | none =>
      dsimp only
      rw [file]
      rfl
  | some content =>
      have verified := (verified_iff evp content expected_hex.data.toList).1
      have agree : decide ((host.sha256Hex content).toByteArray = expected_hex) =
          verifySHA256 evp (some content) true expected_hex.data.toList := by
        rw [Bool.eq_iff_iff, decide_eq_true_iff, verified, ← same content]
        constructor
        · rintro rfl
          rfl
        · intro texts
          exact (ByteArray.ext (Array.toList_inj.mp texts)).symm
      dsimp only
      rw [file, ← agree]
      rfl

end OrbisAgent.Services.FileDigest
