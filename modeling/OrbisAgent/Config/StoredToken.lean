/- OrbisAgent/Config/StoredToken
   source: src/config/ConfigManager.cpp: encryptToken, decryptToken, getToken, isRegistered
   digest: A token is stored as quotable text that decrypts to it; a registered manager has a
   password unless a stored token does not open under the host's key. -/

import OrbisAgent.Config.SavedFile

set_option autoImplicit false
set_option relaxedAutoImplicit false

namespace OrbisAgent.Config.StoredToken

open OrbisAgent.Config.Base64
open OrbisAgent.Config.ConfigManager
open OrbisAgent.Config.SavedFile
open OrbisAgent.Config.Token
open OrbisAgent.Constants
open OrbisAgent.Lib.ByteString
open OrbisAgent.Lib.Toml
open OrbisAgent.Lib.TomlText

/-- A token is stored as base64 text, which a basic string holds as it is, and read back. -/
theorem token_round_trip (aes : Aes) (key : Bytes) (iv : Iv) (token : Bytes)
    (nonempty : token ≠ []) (short : token.length < 2 ^ 31 - 16) :
    ∃ text, encryptToken aes key (some iv) token = some text ∧
      decryptToken aes key text = token ∧ (∀ b ∈ text, b ∈ pad :: tbl) ∧ Plain text := by
  have encrypted : encryptToken aes key (some iv) token =
      some (b64Encode (iv.1 ++ aes.encrypt key iv.1 token)) := encryptToken_some nonempty short
  have alphabet := encryptToken_base64 encrypted
  exact ⟨_, encrypted, decryptToken_of_encryptToken short encrypted, alphabet,
    fun b mem => (base64_plain (alphabet b mem)).1⟩

theorem sample_token_round_trip :
    bytes "tok" ≠ [] ∧ (bytes "tok").length < 2 ^ 31 - 16 ∧
      ∃ text, encryptToken sampleAes sampleKey (some sampleIv) (bytes "tok") = some text ∧
        decryptToken sampleAes sampleKey text = bytes "tok" ∧ (∀ b ∈ text, b ∈ pad :: tbl) ∧
        Plain text :=
  ⟨by decide, by decide,
    token_round_trip sampleAes sampleKey sampleIv (bytes "tok") (by decide) (by decide)⟩

/-- The operations that change the fields. A load that finds no identity generates one of
the random words. -/
inductive Call
  | load (content : Option Bytes) (hi lo : UInt64) (config_path : Bytes)
  | setDeviceId (id : Bytes)
  | setToken (token : Bytes) (iv : Option Iv)

variable (platform : Platform) (parse : Bytes → Option Value) (aes : Aes) (hostKey : Bytes)

/-- A `setToken` that throws leaves the fields. -/
def call (c : Manager) : Call → Manager
  | .load content hi lo config_path =>
      (load platform parse (generateUUID hi lo) config_path content c).2
  | .setDeviceId id => setDeviceId id c
  | .setToken token iv => (setToken aes hostKey iv token c).getD c

/-- A registered manager has a password. -/
def HasPassword (c : Manager) : Prop := isRegistered c = true → getToken aes hostKey c ≠ []

/-- Base64 of an IV and a ciphertext that opens to some text under the host's key. -/
def Opens (stored : Bytes) : Prop :=
  ∃ iv ciphertext plaintext, b64Decode stored = iv ++ ciphertext ∧ iv.length = 16 ∧
    ciphertext ≠ [] ∧ 0 ≤ wrap32 ciphertext.length ∧
    aes.decrypt hostKey iv (ciphertext.take (wrap32 ciphertext.length).toNat) = some plaintext ∧
    plaintext ≠ []

/-- The token of the file is missing, empty or opens; a token to set is not of a length that
the `int` of the cipher counts as 0. -/
def Sound : Call → Prop
  | .load content _ _ _ => ∀ root, content.bind parse = some root →
      root.stringOr (bytes "agent") (bytes "token") [] = [] ∨
        Opens aes hostKey (root.stringOr (bytes "agent") (bytes "token") [])
  | .setDeviceId _ => True
  | .setToken token _ => token.length % 2 ^ 32 = 0 → token = []

variable {platform parse aes hostKey}

theorem decryptToken_ne_nil {stored : Bytes} :
    decryptToken aes hostKey stored ≠ [] ↔ Opens aes hostKey stored := by
  unfold decryptToken
  constructor
  · intro given
    split at given
    · exact absurd rfl given
    · dsimp only at given
      split at given
      · exact absurd rfl given
      · rename_i long
        split at given
        · exact absurd rfl given
        · rename_i counted
          have size : ((b64Decode stored).take 16).length = 16 := by
            rw [List.length_take]
            omega
          have more : (b64Decode stored).drop 16 ≠ [] := by
            intro none
            have short := congrArg List.length none
            rw [List.length_drop, List.length_nil] at short
            omega
          cases opened : aes.decrypt hostKey ((b64Decode stored).take 16)
              (((b64Decode stored).drop 16).take
                (wrap32 ((b64Decode stored).drop 16).length).toNat) with
          | none =>
              rw [opened] at given
              exact absurd rfl given
          | some plaintext =>
              rw [opened] at given
              exact ⟨_, _, plaintext, (List.take_append_drop 16 _).symm, size, more, by omega,
                opened, given⟩
  · rintro ⟨iv, ciphertext, plaintext, decoded, size, more, counted, opened, nonempty⟩
    have filled : stored.isEmpty = false := by
      rw [List.isEmpty_eq_false_iff]
      rintro rfl
      have short := congrArg List.length decoded
      rw [List.length_append, size] at short
      have none : (b64Decode []).length = 0 := rfl
      omega
    have long : 0 < ciphertext.length := List.length_pos_iff.mpr more
    rw [filled, if_neg (by decide)]
    dsimp only
    rw [decoded, if_neg (by rw [List.length_append]; omega), List.take_left' size,
      List.drop_left' size, if_neg (by omega), opened]
    exact nonempty

/-- What is stored is empty or opens. -/
theorem opens_of_encryptToken {iv : Option Iv} {token text : Bytes}
    (counted : token.length % 2 ^ 32 = 0 → token = [])
    (encrypted : encryptToken aes hostKey iv token = some text) :
    text = [] ∨ Opens aes hostKey text := by
  rcases encryptToken_cases encrypted with ⟨_, rfl⟩ | ⟨nonempty, iv', _, positive, fits, rfl⟩
  · exact .inl rfl
  · right
    have range := Int.bmod_lt (x := token.length) (m := 2 ^ 32) (by decide)
    have some' : wrap32 token.length ≠ 0 := fun zero =>
      nonempty (counted (Nat.mod_eq_zero_of_dvd (Int.natCast_dvd_natCast.mp
        (Int.dvd_of_bmod_eq_zero zero))))
    change wrap32 token.length < _ at range
    generalize wrap32 token.length = len at positive fits range some' ⊢
    have size := aes.length_encrypt hostKey iv'.1 (token.take len.toNat)
    have kept := List.length_take_le len.toNat token
    have below : (aes.encrypt hostKey iv'.1 (token.take len.toNat)).length ≠ 2 ^ 31 := by
      intro full
      rw [full] at fits
      exact absurd fits (by decide)
    have whole := wrap32_of_lt (n := (aes.encrypt hostKey iv'.1 (token.take len.toNat)).length)
      (by omega)
    refine ⟨iv'.1, aes.encrypt hostKey iv'.1 (token.take len.toNat), token.take len.toNat,
      b64Decode_b64Encode _, iv'.2, ?_, fits, ?_, ?_⟩
    · intro none
      rw [none, List.length_nil] at size
      omega
    · rw [whole, Int.toNat_natCast, List.take_length, aes.decrypt_encrypt]
    · intro none
      rcases List.take_eq_nil_iff.mp none with zero | empty
      · omega
      · exact nonempty empty

theorem hasPassword_iff {c : Manager} :
    HasPassword aes hostKey c ↔
      (c.device_id ≠ [] → c.token_encrypted = [] ∨ Opens aes hostKey c.token_encrypted) := by
  unfold HasPassword isRegistered getToken
  rw [decryptToken_ne_nil, Bool.and_eq_true, Bool.not_eq_true', Bool.not_eq_true',
    List.isEmpty_eq_false_iff, List.isEmpty_eq_false_iff]
  constructor
  · intro usable given
    by_cases none : c.token_encrypted = []
    · exact .inl none
    · exact .inr (usable ⟨given, none⟩)
  · rintro usable ⟨given, stored⟩
    exact (usable given).resolve_left stored

/-- A load leaves a usable password exactly if the token of the file is missing, empty or opens. -/
theorem hasPassword_load_iff {c : Manager} {content : Option Bytes} {hi lo : UInt64}
    {config_path : Bytes} {root : Value} (parsed : content.bind parse = some root) :
    HasPassword aes hostKey (call platform parse aes hostKey c (.load content hi lo config_path)) ↔
      Sound parse aes hostKey (.load content hi lo config_path) := by
  obtain ⟨_, device_id, token_encrypted, _⟩ :=
    load_fields platform (generateUUID hi lo) config_path c parsed
  have given : (call platform parse aes hostKey c (.load content hi lo config_path)).device_id ≠
      [] := by
    unfold call
    rw [device_id]
    split
    · exact generateUUID_ne_nil hi lo
    · rename_i some'
      exact fun none => some' (List.isEmpty_iff.mpr none)
  unfold Sound
  rw [hasPassword_iff, forall_prop_of_true given]
  unfold call
  rw [token_encrypted]
  constructor
  · intro usable root' same
    rw [parsed] at same
    obtain rfl := Option.some.inj same
    exact usable
  · exact fun sound => sound root parsed

/-- The token of the fields is empty or opens. -/
theorem stored_call {c : Manager} {a : Call}
    (before : c.token_encrypted = [] ∨ Opens aes hostKey c.token_encrypted)
    (sound : Sound parse aes hostKey a) :
    (call platform parse aes hostKey c a).token_encrypted = [] ∨
      Opens aes hostKey (call platform parse aes hostKey c a).token_encrypted := by
  cases a with
  | load content hi lo config_path =>
      unfold call
      cases parsed : content.bind parse with
      | none =>
          dsimp only
          rw [load_unparsed platform _ config_path c parsed]
          exact before
      | some root =>
          obtain ⟨_, _, token_encrypted, _⟩ :=
            load_fields platform (generateUUID hi lo) config_path c parsed
          dsimp only
          rw [token_encrypted]
          exact sound root parsed
  | setDeviceId id => exact before
  | setToken token iv =>
      unfold call
      dsimp only
      cases stored : setToken aes hostKey iv token c with
      | none => exact before
      | some changed =>
          rw [Option.getD_some]
          exact opens_of_encryptToken sound (setToken_fields stored).1

/-- After any sound calls a registered manager has a password, and no other load leaves one. -/
theorem registered_has_password_if_sound (platform : Platform) (parse : Bytes → Option Value)
    (aes : Aes) (hostKey : Bytes) :
    (∀ calls : List Call, (∀ a ∈ calls, Sound parse aes hostKey a) →
      HasPassword aes hostKey (calls.foldl (call platform parse aes hostKey) .initial)) ∧
    ∀ c content hi lo config_path root, content.bind parse = some root →
      (HasPassword aes hostKey (call platform parse aes hostKey c
          (.load content hi lo config_path)) ↔
        Sound parse aes hostKey (.load content hi lo config_path)) := by
  constructor
  · intro calls sound
    have stored : ∀ c : Manager,
        c.token_encrypted = [] ∨ Opens aes hostKey c.token_encrypted →
        (calls.foldl (call platform parse aes hostKey) c).token_encrypted = [] ∨
          Opens aes hostKey (calls.foldl (call platform parse aes hostKey) c).token_encrypted := by
      induction calls with
      | nil => exact fun _ before => before
      | cons a calls ih =>
          intro c before
          have first : (call platform parse aes hostKey c a).token_encrypted = [] ∨
              Opens aes hostKey (call platform parse aes hostKey c a).token_encrypted :=
            stored_call before (sound a List.mem_cons_self)
          exact ih (fun b mem => sound b (List.mem_cons_of_mem a mem)) _ first
    exact hasPassword_iff.mpr fun _ => stored .initial (.inl rfl)
  · exact fun c content hi lo config_path root parsed => hasPassword_load_iff parsed

/-- The agent loads a file without credentials, and onboarding sets them. -/
theorem sample_registered_has_password :
    let c := [Call.load (some sampleText) 1 2 (bytes "config.toml"), .setDeviceId sampleId,
      .setToken (bytes "tok") (some sampleIv)].foldl
        (call .linux parseSample sampleAes sampleKey) .initial
    isRegistered c = true ∧ HasPassword sampleAes sampleKey c := by
  refine ⟨by decide +kernel,
    (registered_has_password_if_sound .linux parseSample sampleAes sampleKey).1 _ ?_⟩
  intro a mem
  simp only [List.mem_cons, List.not_mem_nil, or_false] at mem
  rcases mem with rfl | rfl | rfl
  · intro root parsed
    obtain rfl := Option.some.inj ((parseSample_text noValue noValue).symm.trans parsed)
    exact .inl rfl
  · trivial
  · exact fun zero => absurd zero (by decide)

def truncated : SampleText := ⟨bytes "AAEC", by decide⟩

/-- The rest of a stored token is too short to hold an IV: the agent counts as registered
and connects with an empty password. -/
theorem registered_without_password :
    let content := text (samplePieces ⟨sampleId, by decide⟩ truncated)
    let c := call .linux parseSample sampleAes sampleKey .initial
      (.load (some content) 1 2 (bytes "config.toml"))
    (load .linux parseSample (generateUUID 1 2) (bytes "config.toml") (some content) .initial).1 =
        .returned true ∧
      isRegistered c = true ∧ getToken sampleAes sampleKey c = [] ∧
      ¬ HasPassword sampleAes sampleKey c := by
  intro content c
  have registered : isRegistered c = true := by decide +kernel
  have silent : getToken sampleAes sampleKey c = [] := by decide +kernel
  exact ⟨by decide +kernel, registered, silent, fun usable => usable registered silent⟩

end OrbisAgent.Config.StoredToken
