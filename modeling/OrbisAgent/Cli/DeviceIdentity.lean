/- OrbisAgent/Cli/DeviceIdentity
   source: src/main.cpp: main (load, onboarding loop), doOnboarding; ConfigManager::load
   digest: Process lifetimes over one configuration file present one identity each, and one
   altogether when a lifetime that registered ends with its identity in the file. -/

import OrbisAgent.Cli.Onboarding
import OrbisAgent.Lib.Transition

set_option autoImplicit false
set_option relaxedAutoImplicit false

namespace OrbisAgent.Cli.DeviceIdentity

open OrbisAgent.Cli.Onboarding
open OrbisAgent.Config.ConfigManager
open OrbisAgent.Config.SavedFile
open OrbisAgent.Config.Token
open OrbisAgent.Constants
open OrbisAgent.Lib.ByteString
open OrbisAgent.Lib.Json (Json)
open OrbisAgent.Lib.Toml
open OrbisAgent.Lib.TomlText
open OrbisAgent.Lib.Transition

/-- A topic and its payload. -/
abbrev Message := String × Json

/-- A running process: the manager, the identity that `main` passes to `doOnboarding`,
whether it has not left the onboarding loop, and the registrations it published. -/
structure Process where
  cfg : Manager
  device_id : Bytes
  onboarding : Bool
  published : List Message

/-- The configuration file, the running process, and what each earlier one published. -/
structure State where
  file : Bytes
  process : Option Process
  past : List (List Message)

def State.fresh (file : Bytes) : State := ⟨file, none, []⟩

/-- A start draws two random words. A crash inside `doOnboarding` is an attempt with the
outcomes so far, of which the last may be a partial write, and then `stop`. -/
inductive Act
  | start (readable : Bool) (hi lo : UInt64) (config_path : Bytes)
  | attempt (a : Attempt)
  | stop

section Runs

variable (aes : Aes) (hostKey : Bytes) (platform : Platform) (parse : Bytes → Option Value)

/-- What `main` loads. -/
def loaded (readable : Bool) (hi lo : UInt64) (config_path file : Bytes) : Exit × Manager :=
  load platform parse (generateUUID hi lo) config_path (if readable then some file else none)
    .initial

/-- The process after one turn of the onboarding loop. -/
def Process.after (p : Process) (o : Onboarded) : Process :=
  { p with
    cfg := o.cfg
    onboarding := decide (o.exit = .returned false)
    published := p.published ++ o.published.toList }

def step (s : State) : Act → Option State
  | .start readable hi lo config_path =>
      match s.process with
      | some _ => none
      | none =>
          match loaded platform parse readable hi lo config_path s.file with
          | (.returned true, c) => some { s with process := some ⟨c, getDeviceId c, true, []⟩ }
          | _ => some s
  | .attempt a =>
      s.process.bind fun p =>
        if p.onboarding && !isRegistered p.cfg then
          let o := doOnboarding aes hostKey platform p.device_id a p.cfg s.file
          some { s with file := o.file, process := some (p.after o) }
        else none
  | .stop => s.process.map fun p => { s with process := none, past := s.past ++ [p.published] }

/-- What a step can do. -/
inductive Moves (s : State) : Act → State → Prop
  | start {readable : Bool} {hi lo : UInt64} {config_path : Bytes} {c : Manager}
      (free : s.process = none)
      (accepted : loaded platform parse readable hi lo config_path s.file = (.returned true, c)) :
      Moves s (.start readable hi lo config_path)
        { s with process := some ⟨c, getDeviceId c, true, []⟩ }
  | refused {readable : Bool} {hi lo : UInt64} {config_path : Bytes} (free : s.process = none) :
      Moves s (.start readable hi lo config_path) s
  | attempt {p : Process} (a : Attempt) (running : s.process = some p) :
      Moves s (.attempt a)
        { s with
          file := (doOnboarding aes hostKey platform p.device_id a p.cfg s.file).file
          process :=
            some (p.after (doOnboarding aes hostKey platform p.device_id a p.cfg s.file)) }
  | stop {p : Process} (running : s.process = some p) :
      Moves s .stop { s with process := none, past := s.past ++ [p.published] }

end Runs

variable {aes : Aes} {hostKey : Bytes} {platform : Platform} {parse : Bytes → Option Value}

theorem moves_of_step {s t : State} {a : Act}
    (move : step aes hostKey platform parse s a = some t) :
    Moves aes hostKey platform parse s a t := by
  cases a with
  | start readable hi lo config_path =>
      simp only [step] at move
      split at move
      · cases move
      · rename_i free
        split at move
        · rename_i c accepted
          obtain rfl := Option.some.inj move
          exact .start free accepted
        · obtain rfl := Option.some.inj move
          exact .refused free
  | attempt a =>
      obtain ⟨p, running, move⟩ := Option.bind_eq_some_iff.mp move
      dsimp only at move
      split at move
      · obtain rfl := Option.some.inj move
        exact .attempt a running
      · cases move
  | stop =>
      obtain ⟨p, running, rfl⟩ := Option.map_eq_some_iff.mp move
      exact .stop running

/-- What each process published so far, in the order of the starts. -/
def State.lifetimes (s : State) : List (List Message) :=
  s.past ++ (s.process.map Process.published).toList

/-- The identity in a payload. -/
def payloadId (m : Message) : Option Bytes :=
  match m.2 with
  | .obj fields =>
      match fields.lookup "device_id" with
      | some (.str id) => some id.data.toList
      | _ => none
  | _ => none

/-- Every payload carries this identity. -/
def Carries (id : Bytes) (ms : List Message) : Prop := ∀ m ∈ ms, payloadId m = some id

/-- All payloads carry the same identity. -/
def OneIdentity (ms : List Message) : Prop := ∃ id, Carries id ms

/-- The file, where it parses, has this identity. -/
def Names (parse : Bytes → Option Value) (file id : Bytes) : Prop :=
  id ≠ [] ∧ ∀ root ∈ parse file, root.stringOr (bytes "agent") (bytes "device_id") [] = id

instance (file id : Bytes) : Decidable (Names parse file id) := inferInstanceAs (Decidable (_ ∧ _))

/-- A process that published a registration ends with its identity in the file. -/
def EndsNamed (parse : Bytes → Option Value) (s : State) : Act → Prop
  | .stop => ∀ p ∈ s.process, p.published ≠ [] → Names parse s.file p.device_id
  | _ => True

instance (s : State) (a : Act) : Decidable (EndsNamed parse s a) :=
  match a with
  | .start _ _ _ _ => isTrue trivial
  | .attempt _ => isTrue trivial
  | .stop => inferInstanceAs (Decidable (∀ p ∈ s.process, _))

/-- Credentials that load back anywhere are named by the file. -/
theorem names_of_persisted {c : Manager} {file : Bytes}
    (persisted : Persisted aes hostKey parse c file) (given : getDeviceId c ≠ []) :
    Names parse file (getDeviceId c) := by
  obtain ⟨accepted, sameId, _⟩ := persisted .linux [] [] .initial
  obtain ⟨root, parsed, _⟩ := load_true.mp accepted
  obtain ⟨_, device_id, _⟩ := load_fields .linux [] [] Manager.initial parsed
  have stored := device_id.symm.trans sameId
  refine ⟨given, fun root' parsed' => ?_⟩
  obtain rfl := Option.some.inj (parsed.symm.trans parsed')
  split at stored
  · exact absurd stored.symm given
  · exact stored

/-- A process with a generated identity that leaves the loop as registered, after saves
that went through, leaves a file that names the identity: it may end at any point. -/
theorem named_when_registered (reading : Reading parse) {file : Bytes} {root : Value}
    (parsed : parse file = some root) (readable : ListsReadable root)
    (layout : Layout (reading.pieces file)) (hi lo : UInt64) {c : Manager}
    (unregistered : isRegistered c = false) (late : Bool) {rounds : List Round}
    (saves : ∀ r ∈ rounds,
      SavesWhole aes hostKey platform (generateUUID hi lo) r.attempt c file)
    (left : (onboardingLoop aes hostKey platform (generateUUID hi lo) late rounds c file).1 =
      .registered) :
    Names parse (onboardingLoop aes hostKey platform (generateUUID hi lo) late rounds c file).2.2
      (generateUUID hi lo) := by
  have storable : Storable (generateUUID hi lo) := storable_uuid fun b => uuidChar_generateUUID
  have nonempty := generateUUID_ne_nil hi lo
  have persists := loop_persists reading parsed readable layout storable nonempty unregistered
    late saves left
  have named := names_of_persisted persists.persisted (by rw [persists.device_id]; exact nonempty)
  rw [persists.device_id] at named
  exact named

theorem Carries.append {id : Bytes} {ms ns : List Message} (first : Carries id ms)
    (second : Carries id ns) : Carries id (ms ++ ns) := by
  intro m mem
  rcases List.mem_append.mp mem with inFirst | inSecond
  · exact first m inFirst
  · exact second m inSecond

theorem payloadId_registerPayload (id : Bytes) (facts : HostFacts) :
    payloadId (TOPIC_REGISTER, registerPayload platform id facts) = some id := by
  simp [payloadId, registerPayload, jsonBytes]

/-- A process whose payloads carry its identity keeps that through an attempt. -/
theorem carries_after {p : Process} (own : Carries p.device_id p.published) (a : Attempt)
    (file : Bytes) :
    Carries p.device_id
      (p.after (doOnboarding aes hostKey platform p.device_id a p.cfg file)).published := by
  refine own.append fun m mem => ?_
  rcases doOnboarding_published p.device_id a p.cfg file with sent | ⟨silent, _⟩
  · rw [sent, Option.toList_some, List.mem_singleton] at mem
    rw [mem]
    exact payloadId_registerPayload p.device_id a.facts
  · rw [silent] at mem
    cases mem

/-- An attempt after which nothing is published yet left the file alone. -/
theorem file_of_silent {p : Process} {a : Attempt} {file : Bytes}
    (silent :
      (p.after (doOnboarding aes hostKey platform p.device_id a p.cfg file)).published = []) :
    p.published = [] ∧
      (doOnboarding aes hostKey platform p.device_id a p.cfg file).file = file := by
  obtain ⟨before, now⟩ := List.append_eq_nil_iff.mp silent
  refine ⟨before, ?_⟩
  rcases doOnboarding_published p.device_id a p.cfg file with sent | ⟨_, same⟩
  · rw [sent] at now
    cases now
  · exact same

/-- A process that starts on a file with an identity has that identity. -/
theorem device_id_loaded {readable : Bool} {hi lo : UInt64} {config_path file id : Bytes}
    {c : Manager}
    (accepted : loaded platform parse readable hi lo config_path file = (.returned true, c))
    (named : Names parse file id) : getDeviceId c = id := by
  have done := congrArg Prod.fst accepted
  obtain ⟨root, parsed, _⟩ := load_true.mp done
  obtain ⟨_, device_id, _⟩ :=
    load_fields platform (generateUUID hi lo) config_path Manager.initial parsed
  have same :
      (loaded platform parse readable hi lo config_path file).2.device_id = c.device_id := by
    rw [accepted]
  have stored : root.stringOr (bytes "agent") (bytes "device_id") [] = id := by
    cases readable with
    | false => cases parsed
    | true => exact named.2 root parsed
  have given : id.isEmpty = false := by
    rw [List.isEmpty_eq_false_iff]
    exact named.1
  have device_id' := same.symm.trans device_id
  rw [stored, given] at device_id'
  exact device_id'

private theorem forall_of_ended {s : State} {P : Process → Prop} (ended : s.process = none) :
    ∀ p ∈ s.process, P p := by
  intro p running
  rw [ended] at running
  cases running

/-- Each process presents itself under its own identity. -/
structure Separately (s : State) : Prop where
  past : ∀ l ∈ s.past, OneIdentity l
  running : ∀ p ∈ s.process, Carries p.device_id p.published

theorem separately_step {s t : State} {a : Act} (before : Separately s)
    (next : Moves aes hostKey platform parse s a t) : Separately t := by
  cases next with
  | start free accepted =>
      refine ⟨before.past, fun p running => ?_⟩
      obtain rfl := Option.some.inj running
      exact fun m mem => absurd mem List.not_mem_nil
  | refused free => exact before
  | attempt a running =>
      refine ⟨before.past, fun q now => ?_⟩
      obtain rfl := Option.some.inj now
      exact carries_after (before.running _ running) a s.file
  | stop running =>
      refine ⟨fun l mem => ?_, forall_of_ended rfl⟩
      rcases List.mem_append.mp mem with earlier | last
      · exact before.past l earlier
      · obtain rfl := List.mem_singleton.mp last
        exact ⟨_, before.running _ running⟩

/-- What earlier processes published carries this identity; once there is any, the file
has it between processes, and a process has it, in its file too until it publishes. -/
structure Settled (parse : Bytes → Option Value) (id : Bytes) (s : State) : Prop where
  past : Carries id s.past.flatten
  stopped : s.past.flatten ≠ [] → s.process = none → Names parse s.file id
  running : s.past.flatten ≠ [] → ∀ p ∈ s.process, p.device_id = id ∧
    (p.published = [] → Names parse s.file id)

theorem settled_step {s t : State} {a : Act} {id : Bytes} (apart : Separately s)
    (before : Settled parse id s) (guard : EndsNamed parse s a)
    (next : Moves aes hostKey platform parse s a t) : ∃ id', Settled parse id' t := by
  cases next with
  | start free accepted =>
      refine ⟨id, before.past, fun _ ended => absurd ended (Option.some_ne_none _),
        fun some' p running => ?_⟩
      obtain rfl := Option.some.inj running
      have named := before.stopped some' free
      exact ⟨device_id_loaded accepted named, fun _ => named⟩
  | refused free => exact ⟨id, before⟩
  | attempt a running =>
      refine ⟨id, before.past, fun _ ended => absurd ended (Option.some_ne_none _),
        fun some' q now => ?_⟩
      obtain rfl := Option.some.inj now
      obtain ⟨sameId, named⟩ := before.running some' _ running
      refine ⟨sameId, fun silent => ?_⟩
      obtain ⟨silent', sameFile⟩ := file_of_silent silent
      have still := named silent'
      dsimp only
      rw [sameFile]
      exact still
  | @stop p running =>
      have flat : (s.past ++ [p.published]).flatten = s.past.flatten ++ p.published := by
        rw [List.flatten_append, List.flatten_singleton]
      have own := apart.running p running
      by_cases silent : p.published = []
      · refine ⟨id, ?_, fun some' _ => ?_, fun _ => forall_of_ended rfl⟩
        · dsimp only
          rw [flat, silent, List.append_nil]
          exact before.past
        · dsimp only at some' ⊢
          rw [flat, silent, List.append_nil] at some'
          exact (before.running some' p running).2 silent
      · have named : Names parse s.file p.device_id := guard p running silent
        refine ⟨p.device_id, ?_, fun _ _ => named, fun _ => forall_of_ended rfl⟩
        dsimp only
        rw [flat]
        by_cases first : s.past.flatten = []
        · rw [first]
          exact own
        · have sameId := (before.running first p running).1
          rw [sameId] at own ⊢
          exact before.past.append own

theorem oneIdentity_of_settled {s : State} {id : Bytes} (apart : Separately s)
    (settled : Settled parse id s) : OneIdentity s.lifetimes.flatten := by
  unfold State.lifetimes
  rw [List.flatten_append]
  cases running : s.process with
  | none =>
      refine ⟨id, settled.past.append ?_⟩
      exact fun m mem => absurd mem List.not_mem_nil
  | some p =>
      have own := apart.running p running
      have flat : (Option.map Process.published (some p)).toList.flatten = p.published := by
        rw [Option.map_some, Option.toList_some, List.flatten_singleton]
      rw [flat]
      by_cases first : s.past.flatten = []
      · rw [first]
        exact ⟨p.device_id, own⟩
      · rw [(settled.running first p running).1] at own
        exact ⟨id, settled.past.append own⟩

/-- In every run the registrations of one process carry one identity, and in every run
whose registered processes end with their identity in the file, all of them do. -/
theorem one_identity (aes : Aes) (hostKey : Bytes) (platform : Platform)
    (parse : Bytes → Option Value) (file : Bytes) :
    (∀ s, Reaches (step aes hostKey platform parse) anyStep (.fresh file) s →
      ∀ l ∈ s.lifetimes, OneIdentity l) ∧
    ∀ s, Reaches (step aes hostKey platform parse) (EndsNamed parse) (.fresh file) s →
      OneIdentity s.lifetimes.flatten := by
  have start : Separately (.fresh file) := ⟨nofun, forall_of_ended rfl⟩
  have settled : Settled parse [] (.fresh file) :=
    ⟨fun m mem => absurd mem List.not_mem_nil, fun some' => absurd rfl some',
      fun some' => absurd rfl some'⟩
  constructor
  · intro s run l mem
    have apart := run.invariant (I := Separately) start fun r t a before _ move =>
      separately_step before (moves_of_step move)
    rcases List.mem_append.mp mem with earlier | last
    · exact apart.past l earlier
    · obtain ⟨p, running, rfl⟩ := Option.map_eq_some_iff.mp (Option.mem_toList.mp last)
      exact ⟨p.device_id, apart.running p running⟩
  · intro s run
    have both := run.invariant (I := fun r => Separately r ∧ ∃ id, Settled parse id r)
      ⟨start, [], settled⟩ ?_
    · obtain ⟨apart, id, settled⟩ := both
      exact oneIdentity_of_settled apart settled
    · rintro r t a ⟨apart, id, before⟩ guard move
      have next := moves_of_step move
      exact ⟨separately_step apart next, settled_step apart before guard next⟩

/-- The sample file with an identity and no token. -/
def namedText : Bytes := text (samplePieces ⟨sampleId, by decide⟩ noValue)

/-- The first words of the generator of `generateUUID` for the seeds 5489 and 1. -/
def firstDraw : UInt64 × UInt64 := (0xc96d191cf6f6aea6, 0x401f7ac78bc80f1c)

def secondDraw : UInt64 × UInt64 := (0x2245bd5fbb686f68, 0x22eb92502318fa4e)

/-- A process that registers without an answer and stops, one that completes, and one
that starts registered. -/
theorem one_identity_on_named_file :
    ∃ s, Reaches (step sampleAes sampleKey .linux parseSample) (EndsNamed parseSample)
        (.fresh namedText) s ∧
      s.lifetimes.map (List.map payloadId) = [[some sampleId], [some sampleId], []] ∧
      OneIdentity s.lifetimes.flatten := by
  let start : Act := .start true firstDraw.1 firstDraw.2 (bytes "config.toml")
  let run : List Act :=
    [start, .attempt unanswered, .stop, start, .attempt sampleAttempt, .stop, start]
  have replay : (exec (guarded (step sampleAes sampleKey .linux parseSample)
      (EndsNamed parseSample)) (.fresh namedText) run).map
      (fun s => s.lifetimes.map (List.map payloadId)) =
        some [[some sampleId], [some sampleId], []] := by
    decide +kernel
  obtain ⟨s, path, ids⟩ := Option.map_eq_some_iff.mp replay
  have run' := exec_guarded_reaches path
  exact ⟨s, run', ids, (one_identity sampleAes sampleKey .linux parseSample namedText).2 s run'⟩

/-- A process registers under a generated identity and ends before an acknowledgement is
saved; the next one generates another and registers under it. -/
theorem two_identities_after_a_crash :
    ∃ s, Reaches (step sampleAes sampleKey .linux parseSample) anyStep (.fresh sampleText) s ∧
      ¬ OneIdentity s.lifetimes.flatten := by
  let run : List Act :=
    [.start true firstDraw.1 firstDraw.2 (bytes "config.toml"), .attempt unanswered, .stop,
      .start true secondDraw.1 secondDraw.2 (bytes "config.toml"), .attempt unanswered]
  have replay : (exec (step sampleAes sampleKey .linux parseSample) (.fresh sampleText) run).map
      (fun s => s.lifetimes.flatten.map payloadId) =
        some [some (generateUUID firstDraw.1 firstDraw.2),
          some (generateUUID secondDraw.1 secondDraw.2)] := by
    decide +kernel
  obtain ⟨s, path, ids⟩ := Option.map_eq_some_iff.mp replay
  have run' := exec_reaches_any path
  refine ⟨s, run', fun one => ?_⟩
  obtain ⟨id, carries⟩ := one
  have same : ∀ other ∈ s.lifetimes.flatten.map payloadId, other = some id := by
    intro other mem
    obtain ⟨m, inside, rfl⟩ := List.mem_map.mp mem
    exact carries m inside
  rw [ids] at same
  have first := same _ List.mem_cons_self
  have second := same _ (List.mem_cons_of_mem _ List.mem_cons_self)
  exact absurd (first.trans second.symm) (by decide)

end OrbisAgent.Cli.DeviceIdentity
