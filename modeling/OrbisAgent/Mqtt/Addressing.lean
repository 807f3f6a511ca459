/- OrbisAgent/Mqtt/Addressing
   source: src/constants.hpp, src/services/CommandExecutor.cpp, src/main.cpp
   digest: Which topic belongs to which device and which kind of message, and which published
   messages a device takes as commands. -/

import OrbisAgent.Config.Uuid
import OrbisAgent.Services.CommandQueue

set_option autoImplicit false
set_option relaxedAutoImplicit false

namespace OrbisAgent.Mqtt.Addressing

open OrbisAgent.Config.ConfigManager (generateUUID dash)
open OrbisAgent.Config.Uuid
open OrbisAgent.Constants
open OrbisAgent.Lib.ByteString
open OrbisAgent.Services.CommandQueue

/-- The topics of one device. -/
inductive DeviceTopic
  | registerAck
  | logs
  | status
  | commands
  | results
  | update
  | updateProgress
  | discovery
  | agentLogs
  deriving DecidableEq

/-- The topic of the log sink, which `main` puts together itself. -/
def agent_log_topic (device_id : String) : String := "devices/" ++ device_id ++ "/agent_logs"

def DeviceTopic.topic (device_id : String) : DeviceTopic → String
  | .registerAck => topicFor TOPIC_REGISTER_ACK_FMT device_id
  | .logs => topicFor TOPIC_LOGS_FMT device_id
  | .status => topicFor TOPIC_STATUS_FMT device_id
  | .commands => topicFor TOPIC_COMMANDS_FMT device_id
  | .results => topicFor TOPIC_RESULTS_FMT device_id
  | .update => topicFor TOPIC_UPDATE_FMT device_id
  | .updateProgress => topicFor TOPIC_UPDATE_PROGRESS_FMT device_id
  | .discovery => topicFor TOPIC_DISCOVERY_FMT device_id
  | .agentLogs => agent_log_topic device_id

/-- The last level of the topic. -/
def DeviceTopic.level : DeviceTopic → String
  | .registerAck => "register_ack"
  | .logs => "logs"
  | .status => "status"
  | .commands => "commands"
  | .results => "results"
  | .update => "update"
  | .updateProgress => "update_progress"
  | .discovery => "discovery"
  | .agentLogs => "agent_logs"

/-- A topic has three levels, of which the second is the device. -/
theorem topic_levels (t : DeviceTopic) (device_id : String) :
    (t.topic device_id).toList =
      "devices/".toList ++ (device_id.toList ++ '/' :: t.level.toList) := by
  cases t
  case agentLogs =>
    simp only [DeviceTopic.topic, agent_log_topic, String.toList_append, List.append_assoc]
    rfl
  all_goals
    unfold DeviceTopic.topic topicFor
    rw [String.toList_ofList]
    rfl

theorem slash_notMem_level (t : DeviceTopic) : '/' ∉ t.level.toList := by
  cases t <;> decide

theorem level_injective {t t' : DeviceTopic} (same : t.level = t'.level) : t = t' := by
  cases t <;> cases t' <;> first | rfl | exact absurd same (by decide)

/-- A text is cut at its last slash in one way only. -/
theorem append_slash_injective {a b l m : List Char} (last : '/' ∉ l) (last' : '/' ∉ m)
    (same : a ++ '/' :: l = b ++ '/' :: m) : a = b ∧ l = m := by
  rcases List.append_eq_append_iff.mp same with ⟨c, more, rest⟩ | ⟨c, more, rest⟩
  · cases c with
    | nil =>
        rw [List.append_nil] at more
        exact ⟨more.symm, (List.cons.inj rest).2⟩
    | cons x c =>
        have inside := (List.cons.inj rest).2
        rw [inside] at last
        exact absurd (List.mem_append_right c List.mem_cons_self) last
  · cases c with
    | nil =>
        rw [List.append_nil] at more
        exact ⟨more, (List.cons.inj rest).2.symm⟩
    | cons x c =>
        have inside := (List.cons.inj rest).2
        rw [inside] at last'
        exact absurd (List.mem_append_right c List.mem_cons_self) last'

/-- A topic belongs to one device and one kind of message, whatever the device calls itself. -/
theorem topic_injective {t t' : DeviceTopic} {i j : String}
    (same : t.topic i = t'.topic j) : t = t' ∧ i = j := by
  have lists := congrArg String.toList same
  rw [topic_levels, topic_levels] at lists
  obtain ⟨device, level⟩ := append_slash_injective (slash_notMem_level t) (slash_notMem_level t')
    (List.append_cancel_left lists)
  exact ⟨level_injective (String.toList_inj.mp level), String.toList_inj.mp device⟩

theorem isCommandTopic_iff (i j : String) (t : DeviceTopic) :
    isCommandTopic i (t.topic j) = true ↔ i = j ∧ (t = .commands ∨ t = .update) := by
  rw [isCommandTopic, Bool.or_eq_true, beq_iff_eq, beq_iff_eq]
  constructor
  · rintro (commands | update)
    · obtain ⟨kind, device⟩ : t = .commands ∧ j = i := topic_injective commands
      exact ⟨device.symm, .inl kind⟩
    · obtain ⟨kind, device⟩ : t = .update ∧ j = i := topic_injective update
      exact ⟨device.symm, .inr kind⟩
  · rintro ⟨rfl, rfl | rfl⟩
    · exact .inl rfl
    · exact .inr rfl

/-- What `start()` subscribes to. -/
def subscriptions (device_id : String) : List String :=
  [topicFor TOPIC_COMMANDS_FMT device_id, topicFor TOPIC_UPDATE_FMT device_id]

/-- A text without the wildcards of topic filters. -/
def Plain (s : String) : Prop := '+' ∉ s.toList ∧ '#' ∉ s.toList

theorem plain_topic (t : DeviceTopic) {device_id : String} (plain : Plain device_id) :
    Plain (t.topic device_id) := by
  have front : '+' ∉ "devices/".toList ∧ '#' ∉ "devices/".toList := by decide
  have back : '+' ∉ '/' :: t.level.toList ∧ '#' ∉ '/' :: t.level.toList := by
    cases t <;> decide
  unfold Plain
  rw [topic_levels, List.mem_append, List.mem_append, List.mem_append, List.mem_append]
  refine ⟨?_, ?_⟩
  · rintro (inFront | inside | inBack)
    · exact front.1 inFront
    · exact plain.1 inside
    · exact back.1 inBack
  · rintro (inFront | inside | inBack)
    · exact front.2 inFront
    · exact plain.2 inside
    · exact back.2 inBack

/-- A character of ASCII is among the bytes of the text. -/
theorem mem_bytes {s : String} {c : Char} (mem : c ∈ s.toList) {b : UInt8}
    (one : String.utf8EncodeChar c = [b]) : b ∈ bytes s := by
  obtain ⟨front, back, split⟩ := List.append_of_mem mem
  have encoded : s.toByteArray = s.toList.utf8Encode := String.utf8Encode_toList.symm
  rw [bytes, encoded, split, List.utf8Encode_append, List.utf8Encode_cons, ByteArray.data_append,
    ByteArray.data_append, List.utf8Encode_singleton, one]
  simp

/-- A generated identity has no wildcards. -/
theorem plain_of_generated {id : String} {hi lo : UInt64}
    (generated : bytes id = generateUUID hi lo) :
    Plain id := by
  have places : ∀ b ∈ generateUUID hi lo, b ≠ 43 ∧ b ≠ 35 := by
    intro b mem
    have digit : ∀ d : Fin 16, hexDigit d ≠ 43 ∧ hexDigit d ≠ 35 := by decide +kernel
    have dashes : b ∈ dash → b ≠ 43 ∧ b ≠ 35 := by
      intro here
      rw [List.mem_singleton.mp (here : b ∈ [45])]
      decide
    have digits : ∀ width n, b ∈ hex width n → b ≠ 43 ∧ b ≠ 35 := by
      intro width n here
      obtain ⟨d, small, rfl⟩ := mem_hex here
      exact digit ⟨d, small⟩
    rw [generateUUID_eq] at mem
    simp only [List.mem_append] at mem
    rcases mem with (((((((m | m) | m) | m) | m) | m) | m) | m) | m
    all_goals first | exact digits _ _ m | exact dashes m
  constructor
  · intro mem
    exact (places 43 (generated ▸ mem_bytes mem rfl)).1 rfl
  · intro mem
    exact (places 35 (generated ▸ mem_bytes mem rfl)).2 rfl

section Fleet

-- whether the broker sends what is published to a topic to the subscribers of a filter
variable (delivers : String → String → Prop)

/-- The message reaches the device, and its callback takes it for a command. -/
def Takes (device_id topic : String) : Prop :=
  (∃ f ∈ subscriptions device_id, delivers f topic) ∧ isCommandTopic device_id topic = true

/-- A filter without wildcards selects the one topic that it spells. -/
def SelectsExactly : Prop := ∀ f topic, Plain f → (delivers f topic ↔ f = topic)

variable {delivers}

theorem takes_iff (selects : SelectsExactly delivers) {device_id : String}
    (plain : Plain device_id) (other : String) (t : DeviceTopic) :
    Takes delivers device_id (t.topic other) ↔
      device_id = other ∧ (t = .commands ∨ t = .update) := by
  unfold Takes
  rw [isCommandTopic_iff]
  constructor
  · exact fun takes => takes.2
  · rintro ⟨rfl, kind⟩
    have delivered := (selects _ _ (plain_topic t plain)).mpr rfl
    refine ⟨⟨t.topic device_id, ?_, delivered⟩, rfl, kind⟩
    rcases kind with rfl | rfl
    · exact List.mem_cons_self
    · exact List.mem_cons_of_mem _ List.mem_cons_self

/-- Of all messages for all devices, a device with a generated name takes the commands and the
updates for itself, and nothing else. No other device with such a name takes one of these, but for
one whose 122 random bits are the same. -/
theorem each_device_takes_its_own_commands (selects : SelectsExactly delivers) {i j : String}
    {hi lo hi' lo' : UInt64} (named : bytes i = generateUUID hi lo)
    (named' : bytes j = generateUUID hi' lo') (k : String) (t : DeviceTopic) :
    (Takes delivers i (t.topic k) ↔ i = k ∧ (t = .commands ∨ t = .update)) ∧
      (Takes delivers i (t.topic k) → Takes delivers j (t.topic k) →
        randomHi hi = randomHi hi' ∧ randomLo lo = randomLo lo') := by
  have first := takes_iff selects (plain_of_generated named) k t
  have second := takes_iff selects (plain_of_generated named') k t
  refine ⟨first, ?_⟩
  intro takes takes'
  obtain ⟨rfl, _⟩ := first.mp takes
  obtain ⟨rfl, _⟩ := second.mp takes'
  exact random_of_generateUUID (named.symm.trans named')

/-- A broker that compares, and a device among many. -/
theorem commands_of_one_device :
    Takes (fun f topic => f = topic) "00000000-0000-4001-8000-000000000002"
        (topicFor TOPIC_COMMANDS_FMT "00000000-0000-4001-8000-000000000002") ∧
      ¬ Takes (fun f topic => f = topic) "00000000-0000-4001-8000-000000000002"
        (agent_log_topic "00000000-0000-4001-8000-000000000002") := by
  have selects : SelectsExactly fun f topic => f = topic := fun f topic _ => Iff.rfl
  have named : bytes "00000000-0000-4001-8000-000000000002" = generateUUID 1 2 := by decide
  have commands := each_device_takes_its_own_commands selects named named
    "00000000-0000-4001-8000-000000000002" .commands
  have logs := each_device_takes_its_own_commands selects named named
    "00000000-0000-4001-8000-000000000002" .agentLogs
  refine ⟨commands.1.mpr ⟨rfl, .inl rfl⟩, ?_⟩
  intro takes
  rcases (logs.1.mp takes).2 with same | same
  · cases same
  · cases same

end Fleet

end OrbisAgent.Mqtt.Addressing
