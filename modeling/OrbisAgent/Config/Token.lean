/- OrbisAgent/Config/Token
   source: src/config/ConfigManager.cpp: encryptToken, decryptToken
   digest: The token on disk, over an assumed AES-256-CBC; decryption inverts encryption. -/

import OrbisAgent.Config.Base64

set_option autoImplicit false
set_option relaxedAutoImplicit false

namespace OrbisAgent.Config.Token

open OrbisAgent.Config.Base64
open OrbisAgent.Lib.ByteString

/-- AES-256-CBC with PKCS#7 padding. Decryption fails on a ciphertext that is not one. -/
structure Aes where
  encrypt : (key iv plaintext : Bytes) → Bytes
  decrypt : (key iv ciphertext : Bytes) → Option Bytes
  decrypt_encrypt : ∀ key iv plaintext,
    decrypt key iv (encrypt key iv plaintext) = some plaintext
  length_encrypt : ∀ key iv plaintext,
    (encrypt key iv plaintext).length = 16 * (plaintext.length / 16 + 1)

/-- An initialisation vector. -/
abbrev Iv := { iv : Bytes // iv.length = 16 }

/-- `none` when it throws. The random source may fail; lengths are passed and added
as `int`, and a negative one is refused. -/
def encryptToken (aes : Aes) (key : Bytes) (iv : Option Iv) (plaintext : Bytes) : Option Bytes :=
  if plaintext.isEmpty then some []
  else
    match iv with
    | none => none
    | some iv =>
        let len := wrap32 plaintext.length
        if len < 0 then none
        else
          let ciphertext := aes.encrypt key iv.1 (plaintext.take len.toNat)
          if wrap32 ciphertext.length < 0 then none
          else some (b64Encode (iv.1 ++ ciphertext))

def decryptToken (aes : Aes) (key ciphertext_b64 : Bytes) : Bytes :=
  if ciphertext_b64.isEmpty then []
  else
    let combined := b64Decode ciphertext_b64
    if combined.length < 17 then []
    else
      let iv := combined.take 16
      let ciphertext := combined.drop 16
      let len := wrap32 ciphertext.length
      if len < 0 then []
      else (aes.decrypt key iv (ciphertext.take len.toNat)).getD []

variable {aes : Aes} {key : Bytes}

theorem wrap32_of_lt {n : Nat} (small : n < 2 ^ 31) : wrap32 n = n := by
  unfold wrap32
  exact Int.bmod_eq_of_le (by omega) (by omega)

/-- A token short enough for the `int` lengths is encrypted whole. -/
theorem encryptToken_some {iv : Iv} {token : Bytes} (nonempty : token ≠ [])
    (short : token.length < 2 ^ 31 - 16) :
    encryptToken aes key (some iv) token =
      some (b64Encode (iv.1 ++ aes.encrypt key iv.1 token)) := by
  have whole : token.take (token.length : Int).toNat = token := by
    rw [Int.toNat_natCast, List.take_length]
  have size := aes.length_encrypt key iv.1 token
  have given : token.isEmpty = false := by
    rw [List.isEmpty_eq_false_iff]
    exact nonempty
  unfold encryptToken
  rw [given, if_neg (by decide)]
  dsimp only
  rw [wrap32_of_lt (by omega), if_neg (by omega), whole, wrap32_of_lt (by omega),
    if_neg (by omega)]

/-- What a call of `encryptToken` can store. -/
theorem encryptToken_cases {iv : Option Iv} {token text : Bytes}
    (encrypted : encryptToken aes key iv token = some text) :
    token = [] ∧ text = [] ∨
      token ≠ [] ∧ ∃ iv' : Iv, iv = some iv' ∧ 0 ≤ wrap32 token.length ∧
        0 ≤ wrap32 (aes.encrypt key iv'.1 (token.take (wrap32 token.length).toNat)).length ∧
        text = b64Encode (iv'.1 ++
          aes.encrypt key iv'.1 (token.take (wrap32 token.length).toNat)) := by
  unfold encryptToken at encrypted
  split at encrypted
  · rename_i empty
    exact .inl ⟨List.isEmpty_iff.mp empty, (Option.some.inj encrypted).symm⟩
  · rename_i given
    have nonempty : token ≠ [] := fun none => given (List.isEmpty_iff.mpr none)
    split at encrypted
    · cases encrypted
    · rename_i iv'
      dsimp only at encrypted
      split at encrypted
      · cases encrypted
      · rename_i counted
        split at encrypted
        · cases encrypted
        · rename_i fits
          exact .inr ⟨nonempty, iv', rfl, by omega, by omega, (Option.some.inj encrypted).symm⟩

/-- The stored text is base64. -/
theorem encryptToken_base64 {iv : Option Iv} {token text : Bytes}
    (encrypted : encryptToken aes key iv token = some text) : ∀ b ∈ text, b ∈ pad :: tbl := by
  rcases encryptToken_cases encrypted with ⟨_, rfl⟩ | ⟨_, _, _, _, _, rfl⟩
  · exact fun _ mem => absurd mem List.not_mem_nil
  · exact fun _ mem => mem_b64Encode mem

theorem b64Encode_nonempty {data : Bytes} (nonempty : data ≠ []) : b64Encode data ≠ [] := by
  intro encoded
  have back := b64Decode_b64Encode data
  rw [encoded] at back
  exact nonempty back.symm

/-- The stored text is not empty and is decrypted to the token. -/
theorem decryptToken_encryptToken {iv : Iv} {token : Bytes}
    (short : token.length < 2 ^ 31 - 16) :
    b64Encode (iv.1 ++ aes.encrypt key iv.1 token) ≠ [] ∧
      decryptToken aes key (b64Encode (iv.1 ++ aes.encrypt key iv.1 token)) = token := by
  have size := aes.length_encrypt key iv.1 token
  have ivSize := iv.2
  have some' : iv.1 ++ aes.encrypt key iv.1 token ≠ [] := by
    intro none
    have empty := congrArg List.length none
    rw [List.length_append, ivSize, List.length_nil] at empty
    omega
  have encoded := b64Encode_nonempty some'
  have filled : (b64Encode (iv.1 ++ aes.encrypt key iv.1 token)).isEmpty = false := by
    rw [List.isEmpty_eq_false_iff]
    exact encoded
  have front : (iv.1 ++ aes.encrypt key iv.1 token).take 16 = iv.1 :=
    List.take_left' ivSize
  have back : (iv.1 ++ aes.encrypt key iv.1 token).drop 16 = aes.encrypt key iv.1 token :=
    List.drop_left' ivSize
  refine ⟨encoded, ?_⟩
  unfold decryptToken
  rw [filled, if_neg (by decide)]
  dsimp only
  rw [b64Decode_b64Encode, if_neg (by rw [List.length_append]; omega), front, back,
    wrap32_of_lt (by omega), if_neg (by omega), Int.toNat_natCast, List.take_length,
    aes.decrypt_encrypt]
  rfl

/-- What a call of `encryptToken` stores is decrypted to the token. -/
theorem decryptToken_of_encryptToken {iv : Option Iv} {token text : Bytes}
    (short : token.length < 2 ^ 31 - 16) (encrypted : encryptToken aes key iv token = some text) :
    decryptToken aes key text = token := by
  rcases encryptToken_cases encrypted with ⟨rfl, rfl⟩ | ⟨nonempty, iv', rfl, _⟩
  · rfl
  · rw [encryptToken_some nonempty short] at encrypted
    obtain rfl := Option.some.inj encrypted
    exact (decryptToken_encryptToken short).2

/-- The key of a host, the digest of the name agent-host. -/
def sampleKey : Bytes :=
  [199, 177, 48, 135, 49, 212, 232, 80, 213, 85, 244, 250, 196, 206, 33, 0, 240, 220, 122, 50,
    170, 146, 234, 97, 202, 47, 81, 241, 39, 214, 47, 56]

def sampleIv : Iv := ⟨[0, 1, 2, 3, 4, 5, 6, 7, 8, 9, 10, 11, 12, 13, 14, 15], by decide⟩

/-- The ciphertext of the text tok under `sampleKey` and `sampleIv`. -/
def sampleCiphertext : Bytes :=
  [163, 252, 242, 123, 247, 28, 179, 194, 78, 177, 15, 130, 243, 59, 183, 138]

/-- The padding of PKCS#7. -/
def padded (plaintext : Bytes) : Bytes :=
  plaintext ++ List.replicate (16 - plaintext.length % 16)
    (UInt8.ofNat (16 - plaintext.length % 16))

def unpadded (text : Bytes) : Option Bytes :=
  text.getLast?.map fun count => text.take (text.length - count.toNat)

theorem padded_last (plaintext : Bytes) :
    (padded plaintext).getLast? = some (UInt8.ofNat (16 - plaintext.length % 16)) := by
  unfold padded
  rw [List.getLast?_append, List.getLast?_replicate, if_neg (by omega)]
  rfl

theorem padded_length (plaintext : Bytes) :
    (padded plaintext).length = 16 * (plaintext.length / 16 + 1) := by
  unfold padded
  rw [List.length_append, List.length_replicate]
  omega

theorem unpadded_padded (plaintext : Bytes) : unpadded (padded plaintext) = some plaintext := by
  unfold unpadded
  rw [padded_last, Option.map_some, padded_length, UInt8.toNat_ofNat_of_lt' (by
    have size : UInt8.size = 256 := rfl
    omega)]
  congr 1
  refine List.take_left' ?_
  omega

theorem padded_ne_sample (plaintext : Bytes) : padded plaintext ≠ sampleCiphertext := by
  intro same
  have last := padded_last plaintext
  have big : sampleCiphertext.getLast? = some 138 := by decide
  rw [same, big] at last
  have count := congrArg UInt8.toNat (Option.some.inj last)
  rw [UInt8.toNat_ofNat_of_lt' (by
    have size : UInt8.size = 256 := rfl
    omega)] at count
  have value : (138 : UInt8).toNat = 138 := rfl
  omega

/-- A cipher that is right on the sample and pads elsewhere. -/
def sampleAes : Aes where
  encrypt key iv plaintext :=
    if key = sampleKey ∧ iv = sampleIv.1 ∧ plaintext = bytes "tok" then sampleCiphertext
    else padded plaintext
  decrypt key iv ciphertext :=
    if key = sampleKey ∧ iv = sampleIv.1 ∧ ciphertext = sampleCiphertext then
      some (bytes "tok")
    else unpadded ciphertext
  decrypt_encrypt := by
    intro key iv plaintext
    by_cases sample : key = sampleKey ∧ iv = sampleIv.1 ∧ plaintext = bytes "tok"
    · rw [if_pos sample, if_pos ⟨sample.1, sample.2.1, rfl⟩, sample.2.2]
    · rw [if_neg sample, if_neg fun other => padded_ne_sample plaintext other.2.2,
        unpadded_padded]
  length_encrypt := by
    intro key iv plaintext
    split
    · rename_i sample
      rw [sample.2.2]
      decide
    · exact padded_length plaintext

end OrbisAgent.Config.Token
