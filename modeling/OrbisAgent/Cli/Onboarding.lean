/- OrbisAgent/Cli/Onboarding
   source: src/main.cpp: doOnboarding, main (onboarding loop)
   digest: A failed onboarding keeps the credentials exactly when its save does not fail; the loop
   leaves with persisted credentials when saves go through. -/

import OrbisAgent.Config.SavedFile
import OrbisAgent.Lib.Json

set_option autoImplicit false
set_option relaxedAutoImplicit false

namespace OrbisAgent.Cli.Onboarding

open OrbisAgent.Config.Base64
open OrbisAgent.Config.ConfigManager
open OrbisAgent.Config.SavedFile
open OrbisAgent.Config.Token
open OrbisAgent.Constants
open OrbisAgent.Lib.ByteString
open OrbisAgent.Lib.Json (Json)
open OrbisAgent.Lib.Toml
open OrbisAgent.Lib.TomlText

/-- What the payload says of the host. -/
structure HostFacts where
  hostname : Bytes
  os_version : Bytes
  architecture : Bytes
  timestamp : Bytes

def jsonBytes (s : Bytes) : Json := .str ⟨s.toArray⟩

def getPlatform : Platform → String
  | .windows => "windows"
  | .macos => "macos"
  | .linux => "linux"

def registerPayload (platform : Platform) (device_id : Bytes) (facts : HostFacts) : Json :=
  .obj [("device_id", jsonBytes device_id), ("hostname", jsonBytes facts.hostname),
    ("plateforme", .text (getPlatform platform)), ("os_version", jsonBytes facts.os_version),
    ("architecture", jsonBytes facts.architecture), ("version_agent", .text AGENT_VERSION),
    ("timestamp", jsonBytes facts.timestamp)]

/-- A token of an acknowledgement, which is part of one MQTT payload. -/
abbrev AckToken := { token : Bytes // token.length < 2 ^ 28 }

/-- The outcomes of the steps of one call: the connection, the publication, the token
at the end of the wait (`none` on a timeout, empty on a rejection), the random source, and
whether the file opens for reading and writing and how much of it is written. -/
structure Attempt where
  connects : Bool
  facts : HostFacts
  publishes : Bool
  acknowledgement : Option AckToken
  iv : Option Iv
  readable : Bool
  writable : Bool
  written : Nat

/-- What a call returns and leaves, and the message it published. -/
structure Onboarded where
  exit : Exit
  cfg : Manager
  file : Bytes
  published : Option (String × Json)

variable (aes : Aes) (hostKey : Bytes) (platform : Platform)

/-- The part after a valid acknowledgement. -/
def persist (device_id : Bytes) (received_token : AckToken) (a : Attempt) (c : Manager)
    (file : Bytes) : Exit × Manager × Bytes :=
  match setToken aes hostKey a.iv received_token.1 (setDeviceId device_id c) with
  | none => (.threw, setDeviceId device_id c, file)
  | some c =>
      let (saved, after) := save (if a.readable then some file else none) a.writable a.written c
      (.returned saved, c, after.getD file)

def doOnboarding (device_id : Bytes) (a : Attempt) (c : Manager) (file : Bytes) : Onboarded :=
  if !a.connects then ⟨.returned false, c, file, none⟩
  else
    let reg := registerPayload platform device_id a.facts
    if !reg.wellEncoded then ⟨.threw, c, file, none⟩
    else if !a.publishes then ⟨.returned false, c, file, none⟩
    else
      let published := some (TOPIC_REGISTER, reg)
      match a.acknowledgement with
      | none => ⟨.returned false, c, file, published⟩
      | some token =>
          if token.1.isEmpty then ⟨.returned false, c, file, published⟩
          else
            let (exit, c, file) := persist aes hostKey device_id token a c file
            ⟨exit, c, file, published⟩

/-- How `main` leaves the loop; `waiting` when the rounds are used up first. -/
inductive Leave
  | registered
  | shutdown
  | gaveUp
  | threw
  | waiting
  deriving DecidableEq

/-- One turn: the shutdown flag at its test, and the call. -/
structure Round where
  shutdown : Bool
  attempt : Attempt

/-- After the loop; `late` is the shutdown flag there. -/
def leave (late : Bool) (c : Manager) : Leave :=
  if late then .shutdown else if isRegistered c then .registered else .gaveUp

/-- The loop of `main`. -/
def onboardingLoop (device_id : Bytes) (late : Bool) :
    List Round → Manager → Bytes → Leave × Manager × Bytes
  | [], c, file => (.waiting, c, file)
  | r :: rounds, c, file =>
      if r.shutdown then (.shutdown, c, file)
      else if isRegistered c then (leave late c, c, file)
      else
        let o := doOnboarding aes hostKey platform device_id r.attempt c file
        match o.exit with
        | .threw => (.threw, o.cfg, o.file)
        | .returned true => (leave late o.cfg, o.cfg, o.file)
        | .returned false => onboardingLoop device_id late rounds o.cfg o.file

/-- The credentials of one state are those of another. -/
def SameCredentials (c c' : Manager) : Prop :=
  getDeviceId c' = getDeviceId c ∧ getToken aes hostKey c' = getToken aes hostKey c ∧
    isRegistered c' = isRegistered c

/-- A call that returns false leaves the credentials as they were. -/
def KeepsOnFailure (device_id : Bytes) (a : Attempt) (c : Manager) (file : Bytes) : Prop :=
  (doOnboarding aes hostKey platform device_id a c file).exit = .returned false →
    SameCredentials aes hostKey c (doOnboarding aes hostKey platform device_id a c file).cfg

/-- The call comes to its save with this token. -/
def Receives (device_id : Bytes) (a : Attempt) (token : AckToken) : Prop :=
  a.connects = true ∧ (registerPayload platform device_id a.facts).wellEncoded = true ∧
    a.publishes = true ∧ a.acknowledgement = some token ∧ token.1 ≠ [] ∧ a.iv.isSome = true

/-- A call that comes to its save can read and write the file, or has nothing to change. -/
def SavesOrSame (device_id : Bytes) (a : Attempt) (c : Manager) : Prop :=
  ∀ token, Receives platform device_id a token →
    (a.readable = true ∧ a.writable = true) ∨
      (getDeviceId c = device_id ∧ getToken aes hostKey c = token.1)

variable {aes hostKey platform}

/-- Without random bytes for the encryption the call throws. -/
theorem persist_threw (aes : Aes) (hostKey device_id : Bytes) {token : AckToken} {a : Attempt}
    (c : Manager) (file : Bytes) (nonempty : token.1 ≠ []) (random : a.iv = none) :
    (persist aes hostKey device_id token a c file).1 = .threw := by
  have given : token.1.isEmpty = false := by
    rw [List.isEmpty_eq_false_iff]
    exact nonempty
  have crypt : encryptToken aes hostKey none token.1 = none := by
    unfold encryptToken
    rw [given]
    rfl
  unfold persist setToken
  rw [random, crypt]
  rfl

/-- The branches of a call. -/
theorem doOnboarding_cases (aes : Aes) (hostKey : Bytes) (platform : Platform)
    (device_id : Bytes) (a : Attempt) (c : Manager) (file : Bytes) :
    (∃ token, Receives platform device_id a token ∧
      doOnboarding aes hostKey platform device_id a c file =
        ⟨(persist aes hostKey device_id token a c file).1,
          (persist aes hostKey device_id token a c file).2.1,
          (persist aes hostKey device_id token a c file).2.2,
          some (TOPIC_REGISTER, registerPayload platform device_id a.facts)⟩) ∨
    ((∀ token, ¬ Receives platform device_id a token) ∧
      ((doOnboarding aes hostKey platform device_id a c file).exit = .threw ∨
        (doOnboarding aes hostKey platform device_id a c file).exit = .returned false ∧
        (doOnboarding aes hostKey platform device_id a c file).cfg = c ∧
        (doOnboarding aes hostKey platform device_id a c file).file = file)) := by
  unfold doOnboarding
  by_cases connects : a.connects = true
  · by_cases encoded : (registerPayload platform device_id a.facts).wellEncoded = true
    · by_cases publishes : a.publishes = true
      · simp only [connects, encoded, publishes, Bool.not_true, Bool.false_eq_true, if_false]
        cases answer : a.acknowledgement with
        | none =>
            exact .inr ⟨fun token received => absurd (answer.symm.trans received.2.2.2.1) nofun,
              .inr ⟨rfl, rfl, rfl⟩⟩
        | some token =>
            by_cases empty : token.1 = []
            · refine .inr ⟨fun other received => ?_, .inr ?_⟩
              · obtain rfl := Option.some.inj (answer.symm.trans received.2.2.2.1)
                exact received.2.2.2.2.1 empty
              · simp [empty]
            · have given : token.1.isEmpty = false := by
                rw [List.isEmpty_eq_false_iff]
                exact empty
              simp only [given, Bool.false_eq_true, if_false]
              cases random : a.iv with
              | some iv =>
                  have drawn : a.iv.isSome = true := by rw [random, Option.isSome_some]
                  exact .inl ⟨token, ⟨connects, encoded, publishes, answer, empty, drawn⟩, rfl⟩
              | none =>
                  refine .inr ⟨fun other received => ?_, .inl ?_⟩
                  · have drawn := received.2.2.2.2.2
                    rw [random] at drawn
                    cases drawn
                  · exact persist_threw aes hostKey device_id c file empty random
      · refine .inr ⟨fun token received => publishes received.2.2.1, .inr ?_⟩
        simp [connects, encoded, publishes]
    · refine .inr ⟨fun token received => encoded received.2.1, .inl ?_⟩
      simp [connects, encoded]
  · refine .inr ⟨fun token received => connects received.1, .inr ?_⟩
    simp [connects]

/-- A call publishes its registration or leaves the file alone. -/
theorem doOnboarding_published (device_id : Bytes) (a : Attempt) (c : Manager) (file : Bytes) :
    (doOnboarding aes hostKey platform device_id a c file).published =
        some (TOPIC_REGISTER, registerPayload platform device_id a.facts) ∨
      (doOnboarding aes hostKey platform device_id a c file).published = none ∧
        (doOnboarding aes hostKey platform device_id a c file).file = file := by
  unfold doOnboarding
  split
  · exact .inr ⟨rfl, rfl⟩
  · dsimp only
    split
    · exact .inr ⟨rfl, rfl⟩
    · split
      · exact .inr ⟨rfl, rfl⟩
      · left
        split
        · rfl
        · split <;> rfl

/-- The manager with the received credentials. -/
def received (aes : Aes) (hostKey device_id : Bytes) (token : AckToken) (iv : Iv) (c : Manager) :
    Manager :=
  { setDeviceId device_id c with
    token_encrypted := b64Encode (iv.1 ++ aes.encrypt hostKey iv.1 token.1) }

/-- The save of a call that received a token. -/
theorem persist_eq (aes : Aes) (hostKey device_id : Bytes) {token : AckToken} {a : Attempt}
    {iv : Iv} (c : Manager) (file : Bytes) (nonempty : token.1 ≠ []) (random : a.iv = some iv) :
    encryptToken aes hostKey a.iv token.1 =
        some (received aes hostKey device_id token iv c).token_encrypted ∧
      persist aes hostKey device_id token a c file =
        (.returned (save (if a.readable then some file else none) a.writable a.written
            (received aes hostKey device_id token iv c)).1,
          received aes hostKey device_id token iv c,
          ((save (if a.readable then some file else none) a.writable a.written
            (received aes hostKey device_id token iv c)).2.getD file)) := by
  have short := token.2
  have crypt : encryptToken aes hostKey (some iv) token.1 =
      some (b64Encode (iv.1 ++ aes.encrypt hostKey iv.1 token.1)) :=
    encryptToken_some nonempty (by omega)
  unfold persist setToken
  rw [random, crypt]
  exact ⟨rfl, rfl⟩

theorem save_returns {content : Option Bytes} {opens : Bool} {written : Nat} {c : Manager} :
    (save content opens written c).1 = (content.isSome && opens) := by
  unfold save
  cases content with
  | none => rfl
  | some content => cases opens <;> rfl

theorem received_credentials (aes : Aes) (hostKey device_id : Bytes) (token : AckToken) (iv : Iv)
    (c : Manager) :
    getDeviceId (received aes hostKey device_id token iv c) = device_id ∧
      getToken aes hostKey (received aes hostKey device_id token iv c) = token.1 ∧
      isRegistered (received aes hostKey device_id token iv c) = !device_id.isEmpty := by
  have short := token.2
  obtain ⟨filled, back⟩ : b64Encode (iv.1 ++ aes.encrypt hostKey iv.1 token.1) ≠ [] ∧
      decryptToken aes hostKey (b64Encode (iv.1 ++ aes.encrypt hostKey iv.1 token.1)) = token.1 :=
    decryptToken_encryptToken (by omega)
  refine ⟨rfl, back, ?_⟩
  have given : (received aes hostKey device_id token iv c).token_encrypted.isEmpty = false := by
    rw [List.isEmpty_eq_false_iff]
    exact filled
  unfold isRegistered
  rw [given, Bool.not_false, Bool.and_true]
  rfl

/-- A call that received a token: its return value, credentials and file. -/
theorem doOnboarding_received (aes : Aes) (hostKey : Bytes) {platform : Platform}
    {device_id : Bytes} {a : Attempt} {token : AckToken} (c : Manager) (file : Bytes)
    (got : Receives platform device_id a token) :
    ∃ iv, a.iv = some iv ∧ encryptToken aes hostKey a.iv token.1 =
        some (received aes hostKey device_id token iv c).token_encrypted ∧
      (doOnboarding aes hostKey platform device_id a c file).exit =
        .returned (a.readable && a.writable) ∧
      (doOnboarding aes hostKey platform device_id a c file).cfg =
        received aes hostKey device_id token iv c ∧
      (doOnboarding aes hostKey platform device_id a c file).file =
        ((save (if a.readable then some file else none) a.writable a.written
          (received aes hostKey device_id token iv c)).2.getD file) := by
  obtain ⟨iv, random⟩ := Option.isSome_iff_exists.mp got.2.2.2.2.2
  refine ⟨iv, ?_⟩
  rcases doOnboarding_cases aes hostKey platform device_id a c file with
    ⟨token', got', computed⟩ | ⟨none', _⟩
  · obtain rfl := Option.some.inj (got.2.2.2.1.symm.trans got'.2.2.2.1)
    obtain ⟨crypt, persisted⟩ :=
      persist_eq aes hostKey device_id c file got.2.2.2.2.1 random
    refine ⟨random, crypt, ?_, ?_, ?_⟩
    · rw [computed, persisted]
      dsimp only
      rw [save_returns]
      cases a.readable <;> rfl
    · rw [computed, persisted]
    · rw [computed, persisted]
  · exact absurd got (none' token)

/-- A call keeps the credentials on failure exactly when its save goes through or changes
nothing. -/
theorem keepsOnFailure_iff (device_id : Bytes) (a : Attempt) (c : Manager) (file : Bytes) :
    KeepsOnFailure aes hostKey platform device_id a c file ↔
      SavesOrSame aes hostKey platform device_id a c := by
  by_cases some' : ∃ token, Receives platform device_id a token
  · obtain ⟨token, got⟩ := some'
    obtain ⟨iv, _, _, exit', cfg', _⟩ := doOnboarding_received aes hostKey c file got
    obtain ⟨sameId, sameToken, registered⟩ :=
      received_credentials aes hostKey device_id token iv c
    unfold KeepsOnFailure SameCredentials
    rw [exit', cfg', sameId, sameToken, registered]
    constructor
    · intro keeps token' got'
      obtain rfl := Option.some.inj (got.2.2.2.1.symm.trans got'.2.2.2.1)
      by_cases saves : (a.readable && a.writable) = true
      · exact .inl (Bool.and_eq_true_iff.mp saves)
      · rw [Bool.not_eq_true] at saves
        obtain ⟨id', token', _⟩ := keeps (congrArg Exit.returned saves)
        exact .inr ⟨id'.symm, token'.symm⟩
    · intro condition failed
      have saves := Exit.returned.inj failed
      rcases condition token got with ⟨readable, writable⟩ | ⟨id', token'⟩
      · rw [readable, writable] at saves
        cases saves
      · refine ⟨id'.symm, token'.symm, ?_⟩
        have filled : c.token_encrypted.isEmpty = false := by
          rw [List.isEmpty_eq_false_iff]
          intro empty
          unfold getToken at token'
          rw [empty] at token'
          exact got.2.2.2.2.1 token'.symm
        unfold isRegistered
        rw [filled, ← id', Bool.not_false, Bool.and_true]
        rfl
  · have none' : ∀ token, ¬ Receives platform device_id a token :=
      fun token got => some' ⟨token, got⟩
    refine iff_of_true ?_ fun token got => absurd got (none' token)
    intro failed
    rcases doOnboarding_cases aes hostKey platform device_id a c file with
      ⟨token, got, _⟩ | ⟨_, threw | ⟨_, still, _⟩⟩
    · exact absurd got (none' token)
    · rw [threw] at failed
      cases failed
    · rw [still]
      exact ⟨rfl, rfl, rfl⟩

/-- A call that receives a token finds the file readable and writes the whole new text. -/
def SavesWhole (aes : Aes) (hostKey : Bytes) (platform : Platform) (device_id : Bytes)
    (a : Attempt) (c : Manager) (file : Bytes) : Prop :=
  ∀ token iv, Receives platform device_id a token → a.iv = some iv →
    a.readable = true ∧ a.writable = true ∧
      (savedText (received aes hostKey device_id token iv c) file).length ≤ a.written

/-- Every later load of the file finds the credentials of the state. -/
def Persisted (aes : Aes) (hostKey : Bytes) (parse : Bytes → Option Value) (c : Manager)
    (file : Bytes) : Prop :=
  ∀ platform uuid path fresh, LoadsBack aes hostKey platform parse uuid path fresh file
    (getDeviceId c) (getToken aes hostKey c)

/-- The loop left as registered: with a token that one of its calls received, and with
the credentials in the file. -/
structure LeftPersisted (aes : Aes) (hostKey : Bytes) (parse : Bytes → Option Value)
    (device_id : Bytes) (rounds : List Round) (c : Manager) (file : Bytes) : Prop where
  device_id : getDeviceId c = device_id
  token : ∃ r ∈ rounds, ∃ token, r.attempt.acknowledgement = some token ∧
    getToken aes hostKey c = token.1
  persisted : Persisted aes hostKey parse c file

theorem loop_persists {parse : Bytes → Option Value} (reading : Reading parse) {file : Bytes}
    {root : Value} (parsed : parse file = some root) (readable : ListsReadable root)
    (layout : Layout (reading.pieces file)) {device_id : Bytes} (storable : Storable device_id)
    (nonempty : device_id ≠ []) {c : Manager} (unregistered : isRegistered c = false)
    (late : Bool) {rounds : List Round}
    (saves : ∀ r ∈ rounds, SavesWhole aes hostKey platform device_id r.attempt c file)
    (left : (onboardingLoop aes hostKey platform device_id late rounds c file).1 =
      .registered) :
    LeftPersisted aes hostKey parse device_id rounds
      (onboardingLoop aes hostKey platform device_id late rounds c file).2.1
      (onboardingLoop aes hostKey platform device_id late rounds c file).2.2 := by
  induction rounds with
  | nil => cases left
  | cons r rounds ih =>
      rw [onboardingLoop] at left ⊢
      by_cases stopped : r.shutdown = true
      · rw [if_pos stopped] at left
        cases left
      · rw [if_neg stopped, unregistered, if_neg (by decide)] at left ⊢
        dsimp only at left ⊢
        rcases doOnboarding_cases aes hostKey platform device_id r.attempt c file with
          ⟨token, got, _⟩ | ⟨_, threw | ⟨failed, sameCfg, sameFile⟩⟩
        · obtain ⟨iv, random, crypt, exit', cfg', file'⟩ :=
            doOnboarding_received aes hostKey c file got
          obtain ⟨canRead, canWrite, whole⟩ := saves r List.mem_cons_self token iv got random
          rw [canRead, canWrite, Bool.and_self] at exit'
          have text : (doOnboarding aes hostKey platform device_id r.attempt c file).file =
              (savedText (received aes hostKey device_id token iv c) file).take
                r.attempt.written := by
            rw [file', canRead, canWrite]
            rfl
          rw [exit', cfg', text]
          dsimp only
          obtain ⟨sameId, sameToken, _⟩ := received_credentials aes hostKey device_id token iv c
          refine ⟨sameId, ⟨r, List.mem_cons_self, token, got.2.2.2.1, sameToken⟩, ?_⟩
          intro platform' uuid path fresh
          have short := token.2
          have saved : save (some file) true r.attempt.written
              (received aes hostKey device_id token iv c) =
                (true, some ((savedText (received aes hostKey device_id token iv c) file).take
                  r.attempt.written)) := rfl
          rw [sameToken]
          exact loadsBack_of_save reading parsed readable layout storable nonempty (by omega)
            crypt saved whole platform' uuid path fresh
        · rw [threw] at left
          cases left
        · rw [failed, sameCfg, sameFile] at left ⊢
          obtain ⟨id', ⟨r', mem, token⟩, persisted⟩ :=
            ih (fun r' mem => saves r' (List.mem_cons_of_mem r mem)) left
          exact ⟨id', ⟨r', List.mem_cons_of_mem r mem, token⟩, persisted⟩

/-- A call keeps the credentials on failure exactly when its save goes through or changes
nothing; where every save goes through, the loop leaves as registered only with a
received token that the file has. -/
theorem failure_keeps_credentials (aes : Aes) (hostKey : Bytes) (platform : Platform) :
    (∀ device_id a c file, KeepsOnFailure aes hostKey platform device_id a c file ↔
      SavesOrSame aes hostKey platform device_id a c) ∧
    ∀ {parse : Bytes → Option Value} (reading : Reading parse) {file : Bytes} {root : Value},
      parse file = some root → ListsReadable root → Layout (reading.pieces file) →
      ∀ {device_id : Bytes}, Storable device_id → device_id ≠ [] →
      ∀ {c : Manager}, isRegistered c = false →
      ∀ (late : Bool) {rounds : List Round},
      (∀ r ∈ rounds, SavesWhole aes hostKey platform device_id r.attempt c file) →
      (onboardingLoop aes hostKey platform device_id late rounds c file).1 = .registered →
      LeftPersisted aes hostKey parse device_id rounds
        (onboardingLoop aes hostKey platform device_id late rounds c file).2.1
        (onboardingLoop aes hostKey platform device_id late rounds c file).2.2 :=
  ⟨keepsOnFailure_iff, loop_persists⟩

/-- A call that receives the token `tok`. -/
def sampleAttempt : Attempt where
  connects := true
  facts := ⟨bytes "host", bytes "Linux 6.1", bytes "x86_64", bytes "2025-01-01T00:00:00Z"⟩
  publishes := true
  acknowledgement := some ⟨bytes "tok", by decide⟩
  iv := some sampleIv
  readable := true
  writable := true
  written := 1000

/-- The manager that loaded the sample file. -/
def sampleLoaded : Manager :=
  (load .linux parseSample sampleId (bytes "config.toml") (some sampleText) .initial).2

/-- A call whose acknowledgement does not come. -/
def unanswered : Attempt := { sampleAttempt with acknowledgement := none }

/-- A call that cannot write the credentials which memory already has, and a loop that
registers at its second call. -/
theorem sample_failure_keeps_credentials :
    (doOnboarding sampleAes sampleKey .linux sampleId { sampleAttempt with writable := false }
        sampleChanged sampleText).exit = .returned false ∧
      SameCredentials sampleAes sampleKey sampleChanged
        (doOnboarding sampleAes sampleKey .linux sampleId { sampleAttempt with writable := false }
          sampleChanged sampleText).cfg ∧
      LeftPersisted sampleAes sampleKey parseSample sampleId
        [⟨false, unanswered⟩, ⟨false, sampleAttempt⟩]
        (onboardingLoop sampleAes sampleKey .linux sampleId false
          [⟨false, unanswered⟩, ⟨false, sampleAttempt⟩] sampleLoaded sampleText).2.1
        (onboardingLoop sampleAes sampleKey .linux sampleId false
          [⟨false, unanswered⟩, ⟨false, sampleAttempt⟩] sampleLoaded sampleText).2.2 := by
  obtain ⟨keeps, persists⟩ := failure_keeps_credentials sampleAes sampleKey .linux
  have layout : Layout (sampleReading.pieces sampleText) := by
    rw [sampleText, pieces_sampleReading]
    exact sample_layout
  have failed : (doOnboarding sampleAes sampleKey .linux sampleId
      { sampleAttempt with writable := false } sampleChanged sampleText).exit =
        .returned false := by
    decide +kernel
  refine ⟨failed, (keeps sampleId _ sampleChanged sampleText).mpr ?_ failed,
    persists sampleReading (parseSample_text noValue noValue) (fun _ => ⟨rfl, rfl⟩) layout
      (by decide +kernel) (by decide) (by decide +kernel) false ?_ (by decide +kernel)⟩
  · intro token got
    obtain rfl := Option.some.inj got.2.2.2.1
    exact .inr (by decide +kernel)
  · intro r mem token iv got random
    simp only [List.mem_cons, List.not_mem_nil, or_false] at mem
    rcases mem with rfl | rfl
    · cases got.2.2.2.1
    · obtain rfl := Option.some.inj got.2.2.2.1
      obtain rfl := Option.some.inj random
      exact ⟨rfl, rfl, by decide +kernel⟩

/-- Where the file cannot be written, the call fails with the credentials in memory, and
the loop leaves as registered with the file as it was. -/
theorem registered_without_saved_credentials :
    (doOnboarding sampleAes sampleKey .linux sampleId { sampleAttempt with writable := false }
        sampleLoaded sampleText).exit = .returned false ∧
      isRegistered sampleLoaded = false ∧
      isRegistered (doOnboarding sampleAes sampleKey .linux sampleId
        { sampleAttempt with writable := false } sampleLoaded sampleText).cfg = true ∧
      ∃ c, onboardingLoop sampleAes sampleKey .linux sampleId false
          [⟨false, { sampleAttempt with writable := false }⟩, ⟨false, sampleAttempt⟩]
          sampleLoaded sampleText = (.registered, c, sampleText) ∧
        ¬ Persisted sampleAes sampleKey parseSample c sampleText := by
  refine ⟨by decide +kernel, by decide +kernel, by decide +kernel,
    (doOnboarding sampleAes sampleKey .linux sampleId { sampleAttempt with writable := false }
      sampleLoaded sampleText).cfg, by decide +kernel, ?_⟩
  intro persisted
  obtain ⟨_, sameId, _⟩ := persisted .linux (bytes "11111111-0000-4000-8000-000000000000")
    (bytes "config.toml") .initial
  exact absurd sameId (by decide +kernel)

end OrbisAgent.Cli.Onboarding
