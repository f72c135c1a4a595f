/-
# ZephyrSamples.Mqtt.Routing -- which incoming topics reach the command handler

`on_mqtt_publish` compares the received topic with `MQTT_SUB_TOPIC_CMD` by `strcmp`, but the topic is
a slice of `rx_buffer` without a terminator: at QoS 1 and 2 the packet identifier follows it, at QoS 0
whatever an earlier packet left there. `commandRouting_iff` says exactly for which messages the
comparison still answers the question that was asked.
-/
import ZephyrSamples.Mqtt.Process

namespace ZephyrSamples.Mqtt

open ZephyrSamples.Lib.CString

/-! ## The comparison -/

/-- `device_command_handler` was called between `c` and `c'`. -/
def HandlesCommand (c c' : Client) : Prop := ∃ command, Called (.commandHandler command) c c'

/-- Once the payload is read, the handler runs exactly when the C string at the topic pointer is the
command topic. -/
theorem onMqttPublish_handles (c : Client) (m : PublishMsg) (k : Nat) :
    HandlesCommand c (onMqttPublish c m (.ready k)) ↔ IsString m.topicUtf8 mqttSubTopicCmd := by
  rw [← strcmp_eq_zero_iff, onMqttPublish_ready c m k rfl]
  by_cases h : strcmp m.topicUtf8 mqttSubTopicCmd = 0
  · refine iff_of_true ⟨(c.unread.take (min (k + 1) mqttPayloadSize)).takeWhile (· != 0), ?_⟩ h
    rw [if_pos h]
    simp only [Called, callCommandHandler, emit_log, List.count_cons_self]
    rw [List.count_cons_of_ne (by simp)]
    exact Nat.lt_succ_self _
  · refine iff_of_false ?_ h
    rintro ⟨s, hs⟩
    rw [if_neg h] at hs
    simp only [Called, emit_log] at hs
    rw [List.count_cons_of_ne (by simp)] at hs
    exact Nat.lt_irrefl _ hs

/-- The acknowledgement sent first changes nothing about that. -/
theorem publishEvent_handles (c : Client) (m : PublishMsg) (o : CallOutcome) (k : Nat) :
    HandlesCommand c (publishEvent c m ⟨o, .ready k⟩) ↔ IsString m.topicUtf8 mqttSubTopicCmd := by
  have key : ∀ c' : Client,
      (∀ s, c'.log.count (.commandHandler s) = c.log.count (.commandHandler s)) →
      (HandlesCommand c (onMqttPublish c' m (.ready k)) ↔
        IsString m.topicUtf8 mqttSubTopicCmd) := by
    intro c' hc'
    rw [← onMqttPublish_handles c' m k]
    simp only [HandlesCommand, Called, hc']
  unfold publishEvent
  split
  · exact key _ fun s => (grows_answer c _ o).count_eq (by simp)
  · exact key _ fun s => (grows_answer c _ o).count_eq (by simp)
  · exact key c fun s => rfl

/-! ## Exactness -/

/-- The byte behind the topic in `rx_buffer` is NUL: the high byte of the packet identifier, or what
an earlier packet left. -/
def NulFollowsTopic (m : PublishMsg) : Prop :=
  match m.qos with
  | .atMostOnce => m.older 0 = 0
  | .atLeastOnce | .exactlyOnce => m.messageId.toNat < 256

theorem highByte_eq_zero_iff (id : UInt16) : (id >>> 8).toUInt8 = 0 ↔ id.toNat < 256 := by
  have h : (id >>> 8).toUInt8.toNat = id.toNat / 256 % 256 := by
    simp [Nat.shiftRight_eq_div_pow]
  have hlt : id.toNat < 65536 := UInt16.toNat_lt id
  rw [← UInt8.toNat_inj, h]
  simp only [UInt8.toNat_zero]
  omega

theorem afterTopic_zero_iff (m : PublishMsg) : m.afterTopic 0 = 0 ↔ NulFollowsTopic m := by
  cases hq : m.qos with
  | atMostOnce => simp [PublishMsg.afterTopic, PublishMsg.idBytes, NulFollowsTopic, hq]
  | atLeastOnce =>
      simp [PublishMsg.afterTopic, PublishMsg.idBytes, NulFollowsTopic, hq, highByte_eq_zero_iff]
  | exactlyOnce =>
      simp [PublishMsg.afterTopic, PublishMsg.idBytes, NulFollowsTopic, hq, highByte_eq_zero_iff]

/-- The command topic itself is recognised exactly if a NUL follows it: the other two ways to match
are out, being longer or shorter. -/
theorem isString_commandTopic_iff {m : PublishMsg} (ht : m.topic = mqttSubTopicCmd) :
    IsString m.topicUtf8 mqttSubTopicCmd ↔ NulFollowsTopic m := by
  rw [PublishMsg.topicUtf8, isString_append_iff, afterTopic_zero_iff, ht]
  constructor
  · rintro (⟨-, h⟩ | h | ⟨missing, hne, heq, -⟩)
    · exact h
    · have hlen := h.length_le
      rw [List.length_append, List.length_singleton] at hlen
      omega
    · exact absurd (List.append_right_eq_self.mp heq) hne
  · intro h
    exact Or.inl ⟨rfl, h⟩

/-- When the missing terminator does no harm. The command topic needs a NUL behind it. Another topic
must not carry the command topic and a NUL as its first bytes, and, if it is an initial piece of the
command topic, the bytes behind it must not complete it. -/
def RoutesExactly (m : PublishMsg) : Prop :=
  (m.topic = mqttSubTopicCmd → NulFollowsTopic m) ∧
  (m.topic ≠ mqttSubTopicCmd → ¬ mqttSubTopicCmd ++ [0] <+: m.topic ∧
    ∀ missing, m.topic ++ missing = mqttSubTopicCmd → ¬ IsString m.afterTopic missing)

/-- **Command routing.** For every topic, quality of service, packet identifier and content of
`rx_buffer`, handling the PUBLISH calls `device_command_handler` exactly for the command topic if and
only if `RoutesExactly`. The bytes delivered by `mqtt_read_publish_payload` play no part. -/
theorem commandRouting_iff (c : Client) (m : PublishMsg) (o : CallOutcome) (k : Nat) :
    (HandlesCommand c (mqttEventHandler c ⟨o, .ready k⟩ (.packet (.publish m))) ↔
      m.topic = mqttSubTopicCmd) ↔ RoutesExactly m := by
  rw [mqttEventHandler, publishEvent_handles]
  unfold RoutesExactly
  by_cases ht : m.topic = mqttSubTopicCmd
  · simp only [isString_commandTopic_iff ht, ht, iff_true, ne_eq, not_true_eq_false,
      false_implies, and_true, true_implies]
  · -- a wrong topic: no way to match may be open
    rw [PublishMsg.topicUtf8, isString_append_iff]
    simp only [ht, false_and, false_or, iff_false, not_or, false_implies, true_and, ne_eq,
      not_false_eq_true, true_implies, and_congr_right_iff]
    intro _
    constructor
    · intro h missing heq hs
      refine h ⟨missing, ?_, heq, hs⟩
      rintro rfl
      exact ht (by simpa using heq)
    · rintro h ⟨missing, -, heq, hs⟩
      exact h missing heq hs

/-- A command sent at QoS 1 with packet identifier 256. -/
def lateCommand : PublishMsg where
  topic := mqttSubTopicCmd
  qos := .atLeastOnce
  messageId := 256
  older := fun _ => 0
  payload := ascii "led_on"

/-- A connected client whose library has just decoded the header of `lateCommand`. -/
def receivingLateCommand : Client :=
  { Client.boot with mqttConnected := true, transportOpen := true, unread := lateCommand.payload }

/-- Identifier 256 puts the byte 1 behind the topic: the command is read, acknowledged, and never
handed to `device_command_handler`. -/
theorem lateCommand_ignored :
    ¬ (HandlesCommand receivingLateCommand
        (mqttEventHandler receivingLateCommand ⟨⟨0, false⟩, .ready 5⟩
          (.packet (.publish lateCommand))) ↔
      lateCommand.topic = mqttSubTopicCmd) := by
  rw [mqttEventHandler, publishEvent_handles, ← strcmp_eq_zero_iff]
  decide

end ZephyrSamples.Mqtt
