/-
# ZephyrSamples.Mqtt.Client -- the state of `mqtt_client.c` and its event callbacks

`Client` holds the statics of `mqtt_client.c` (the connection flag, the `pollfd`, the packet counter
and the JSON buffer), the LEDs they drive, and what Zephyr's MQTT library keeps behind the client
object: whether the transport is open, which payload bytes of the last PUBLISH are still unread, and
which packets are unacknowledged. `log` is a history, newest first, of the calls and events the
program's behaviour is judged by.

The library is not part of the repository. Each of its calls takes the outcome the environment picks
as an argument; what a call does with an outcome is the documented behaviour: a call on a closed
transport fails with `-ENOTCONN`, a call that gives the connection up closes the transport and raises
`MQTT_EVT_DISCONNECT` before it returns.
-/
import Mathlib.Logic.Relation
import ZephyrSamples.Mqtt.Device

namespace ZephyrSamples.Mqtt

open ZephyrSamples.Lib.CString

/-! ## Data -/

/-- The flags `poll` reports in `fds[0].revents`. -/
structure Revents where
  pollin : Bool
  pollerr : Bool
  pollhup : Bool
  pollnval : Bool
  deriving DecidableEq, Repr

def Revents.none : Revents := ⟨false, false, false, false⟩

/-- `struct mqtt_binstr`: the memory `data` points to, and a length. -/
structure MqttBinstr where
  data : List UInt8
  len : Nat
  deriving DecidableEq, Repr

/-- The bytes a library call sends for it. -/
def MqttBinstr.bytes (b : MqttBinstr) : List UInt8 := b.data.take b.len

/-- `struct mqtt_publish_param` of an outgoing PUBLISH. -/
structure PublishParam where
  topic : List UInt8
  qos : QoS
  payload : MqttBinstr
  messageId : UInt16
  dupFlag : Bool
  retainFlag : Bool
  deriving DecidableEq, Repr

/-- `struct mqtt_subscription_list` with its single topic. -/
structure SubscribeParam where
  topic : List UInt8
  qos : QoS
  messageId : UInt16
  deriving DecidableEq, Repr

/-- What an identifier was spent on. A PUBLISH remembers which call of `app_mqtt_publish` since
boot sent it. -/
inductive PacketKind where
  | subscribe
  | publish (call : Nat)
  deriving DecidableEq, Repr

/-- A packet that awaits its acknowledgement. -/
structure Packet where
  kind : PacketKind
  id : UInt16
  deriving DecidableEq, Repr

/-- The calls and events worth remembering. -/
inductive Act where
  | enterConnect
  | mqttConnect
  | mqttInput
  | mqttLive
  | mqttAbort
  | mqttDisconnect
  | mqttSubscribe (param : SubscribeParam)
  | mqttPublish (param : PublishParam)
  | sent (packet : Packet) (unacked : List Packet)
  | connackEvt (result : Int)
  | disconnectEvt
  | puback (id : UInt16)
  | pubrec (id : UInt16)
  | pubrel (id : UInt16)
  | pubcomp (id : UInt16)
  | payloadStore (index : Nat)
  | commandHandler (command : List UInt8)
  | pollTimedOut (msecs : Int)
  | kMsleep (msecs : Nat)
  deriving DecidableEq, Repr

structure Client where
  mqttConnected : Bool
  nfds : Nat
  revents : Revents
  /-- `msg_id` of `app_mqtt_publish` -/
  msgId : UInt16
  payloadBuf : List UInt8
  leds : Leds
  transportOpen : Bool
  unread : List UInt8
  inFlight : List Packet
  log : List Act
  deriving DecidableEq, Repr

/-- The statics at boot: nothing written, nothing open. -/
def Client.boot : Client where
  mqttConnected := false
  nfds := 0
  revents := .none
  msgId := 1
  payloadBuf := List.replicate mqttPayloadSize 0
  leds := ⟨none, none⟩
  transportOpen := false
  unread := []
  inFlight := []
  log := []

def Client.emit (c : Client) (a : Act) : Client := { c with log := a :: c.log }

/-- `a` was done between `c` and `c'`. -/
def Called (a : Act) (c c' : Client) : Prop := c.log.count a < c'.log.count a

theorem count_lt_count_cons_iff (a b : Act) (l : List Act) :
    l.count a < (b :: l).count a ↔ b = a := by
  by_cases h : b = a
  · simp [h]
  · simp [List.count_cons_of_ne h, h]

/-- From `c` to `c'` the history grew, by calls and events of the kind `P` only. -/
def Grows (P : Act → Prop) (c c' : Client) : Prop :=
  ∃ new, c'.log = new ++ c.log ∧ ∀ a ∈ new, P a

namespace Grows

variable {P : Act → Prop} {c c' c'' : Client}

theorem of_log_eq (h : c'.log = c.log) : Grows P c c' := ⟨[], by simp [h], by simp⟩

theorem refl (c : Client) : Grows P c c := of_log_eq rfl

theorem of_cons {a : Act} (h : c'.log = a :: c.log) (ha : P a) : Grows P c c' :=
  ⟨[a], by simp [h], by simpa using ha⟩

theorem trans (h : Grows P c c') (h' : Grows P c' c'') : Grows P c c'' := by
  obtain ⟨new, hlog, hnew⟩ := h
  obtain ⟨new', hlog', hnew'⟩ := h'
  refine ⟨new' ++ new, by rw [hlog', hlog, List.append_assoc], ?_⟩
  intro a ha
  rcases List.mem_append.mp ha with ha | ha
  · exact hnew' a ha
  · exact hnew a ha

theorem mono {Q : Act → Prop} (h : Grows P c c') (hpq : ∀ a, P a → Q a) : Grows Q c c' := by
  obtain ⟨new, hlog, hnew⟩ := h
  exact ⟨new, hlog, fun a ha => hpq a (hnew a ha)⟩

/-- What is of another kind is neither added nor lost. -/
theorem count_eq (h : Grows P c c') {b : Act} (hb : ¬ P b) :
    c'.log.count b = c.log.count b := by
  obtain ⟨new, hlog, hnew⟩ := h
  have hnotin : b ∉ new := fun hmem => hb (hnew b hmem)
  rw [hlog, List.count_append, List.count_eq_zero_of_not_mem hnotin, Nat.zero_add]

theorem not_called (h : Grows P c c') {b : Act} (hb : ¬ P b) : ¬ Called b c c' := by
  rw [Called, h.count_eq hb]
  exact Nat.lt_irrefl _

/-- An act done first is an act done, whatever followed. -/
theorem called_of_emit {a : Act} (h : Grows P (c.emit a) c') : Called a c c' := by
  obtain ⟨new, hlog, -⟩ := h
  have hle : (a :: c.log).count a ≤ c'.log.count a := by
    rw [hlog, List.count_append]
    exact Nat.le_add_left _ _
  exact Nat.lt_of_lt_of_le ((count_lt_count_cons_iff a a c.log).mpr rfl) hle

/-- An act of another kind than what followed was done exactly if it was the first one. -/
theorem called_iff_of_emit {a b : Act} (h : Grows P (c.emit a) c') (hb : ¬ P b) :
    Called b c c' ↔ a = b := by
  rw [Called, h.count_eq hb]
  exact count_lt_count_cons_iff b a c.log

theorem mem (h : Grows P c c') {a : Act} (ha : a ∈ c'.log) : P a ∨ a ∈ c.log := by
  obtain ⟨new, hlog, hnew⟩ := h
  rw [hlog] at ha
  rcases List.mem_append.mp ha with ha | ha
  · exact Or.inl (hnew a ha)
  · exact Or.inr ha

theorem mem_of_mem (h : Grows P c c') {a : Act} (ha : a ∈ c.log) : a ∈ c'.log := by
  obtain ⟨new, hlog, -⟩ := h
  rw [hlog]
  exact List.mem_append_right new ha

end Grows

/-! ## Connection events -/

/-- `clear_fds` -/
def clearFds (c : Client) : Client := { c with nfds := 0 }

/-- `on_mqtt_connect` -/
def onMqttConnect (c : Client) : Client :=
  { c with mqttConnected := true, leds := deviceWriteLed c.leds .ledNet .ledOn }

/-- `on_mqtt_disconnect` -/
def onMqttDisconnect (c : Client) : Client :=
  let c := clearFds { c with mqttConnected := false }
  { c with leds := deviceWriteLed c.leds .ledNet .ledOff }

/-- The library gives the connection up: the transport closes, the client object is reset, and
`MQTT_EVT_DISCONNECT` reaches the callback. Nothing happens to a closed transport. -/
def dropTransport (c : Client) : Client :=
  if c.transportOpen then
    onMqttDisconnect
      ({ c with transportOpen := false, unread := [], inFlight := [] }.emit .disconnectEvt)
  else c

/-! ## Library calls -/

/-- How a library call ends: its return code and, when it fails, whether it gave the connection up. -/
structure CallOutcome where
  rc : Int
  closes : Bool
  deriving DecidableEq, Repr

/-- The common shape of the calls that send one packet. -/
def libCall (c : Client) (o : CallOutcome) : Client × Int :=
  if !c.transportOpen then (c, -ENOTCONN)
  else if o.rc = 0 then (c, 0)
  else (if o.closes then dropTransport c else c, o.rc)

/-- What one `mqtt_read_publish_payload` finds: `n + 1` bytes ready on the transport, or an error. -/
inductive ReadOutcome where
  | ready (n : Nat)
  | failed (err : Nat) (closes : Bool)
  deriving DecidableEq, Repr

/-- `mqtt_read_publish_payload(client, buf, length)`: the return code and the bytes stored. -/
def mqttReadPublishPayload (c : Client) (length : Nat) :
    ReadOutcome → Client × Int × List UInt8
  | .ready n =>
      let bytes := c.unread.take (min (n + 1) length)
      ({ c with unread := c.unread.drop bytes.length }, bytes.length, bytes)
  | .failed err closes =>
      (if closes then dropTransport c else c, -(err + 1 : Nat), [])

/-! ## Incoming packets -/

/-- An incoming PUBLISH: its header fields, the bytes that stand in `rx_buffer` behind the header,
and its payload. -/
structure PublishMsg where
  topic : List UInt8
  qos : QoS
  messageId : UInt16
  older : Memory
  payload : List UInt8

/-- The packet identifier field of the header: absent at QoS 0, else two bytes, high byte first. -/
def PublishMsg.idBytes (m : PublishMsg) : List UInt8 :=
  match m.qos with
  | .atMostOnce => []
  | _ => [(m.messageId >>> 8).toUInt8, m.messageId.toUInt8]

/-- What stands in `rx_buffer` behind the topic: the identifier, then older bytes. -/
def PublishMsg.afterTopic (m : PublishMsg) : Memory := append m.idBytes m.older

/-- The memory `message.topic.topic.utf8` points to: the topic is a slice of `rx_buffer`. -/
def PublishMsg.topicUtf8 (m : PublishMsg) : Memory := append m.topic m.afterTopic

/-- The packets the library hands to the callback. -/
inductive RxPacket where
  | connack (result : Int)
  | pingresp
  | puback (result : Int) (id : UInt16)
  | pubrec (result : Int) (id : UInt16)
  | pubrel (result : Int) (id : UInt16)
  | pubcomp (result : Int) (id : UInt16)
  | suback (result : Int) (id : UInt16)
  | publish (m : PublishMsg)

/-- `struct mqtt_evt`: a packet came in, or the connection was given up. -/
inductive MqttEvt where
  | packet (p : RxPacket)
  | disconnect

/-- The outcomes of the library calls the callback makes: the answer it sends, and the payload
read. -/
structure Nested where
  answer : CallOutcome
  read : ReadOutcome
  deriving DecidableEq, Repr

/-- `device_command_handler(payload)` with the bytes read and the terminator behind them. -/
def callCommandHandler (c : Client) (bytes : List UInt8) : Client :=
  { c with leds := deviceCommandHandler (append (bytes ++ [0]) fun _ => 0) c.leds }.emit
    (.commandHandler (bytes.takeWhile (· != 0)))

/-- `on_mqtt_publish` -/
def onMqttPublish (c : Client) (m : PublishMsg) (read : ReadOutcome) : Client :=
  let (c, rc, bytes) := mqttReadPublishPayload c mqttPayloadSize read
  if rc < 0 then c
  else
    -- payload[rc] = '\0'
    let c := c.emit (.payloadStore rc.toNat)
    if strcmp m.topicUtf8 mqttSubTopicCmd = 0 then callCommandHandler c bytes else c

/-- A failed read ends the handler. -/
theorem onMqttPublish_failed (c : Client) (m : PublishMsg) (err : Nat) (closes : Bool) :
    onMqttPublish c m (.failed err closes) = if closes then dropTransport c else c := by
  have hneg : -((err + 1 : Nat) : Int) < 0 := by omega
  exact if_pos hneg

/-- A successful read takes `bytes` off the stream, stores the terminator behind them, and calls the
command handler if `strcmp` finds the command topic. -/
theorem onMqttPublish_ready (c : Client) (m : PublishMsg) (n : Nat) {bytes : List UInt8}
    (hb : c.unread.take (min (n + 1) mqttPayloadSize) = bytes) :
    onMqttPublish c m (.ready n) =
      let c' := { c with unread := c.unread.drop bytes.length }.emit (.payloadStore bytes.length)
      if strcmp m.topicUtf8 mqttSubTopicCmd = 0 then callCommandHandler c' bytes else c' := by
  have hpos : ¬ (bytes.length : Int) < 0 := by omega
  subst hb
  simp only [onMqttPublish, mqttReadPublishPayload, hpos, if_false, Int.toNat_natCast]

/-- `mqtt_publish_qos1_ack`, `_qos2_receive`, `_qos2_release` and `_qos2_complete`: the callback
ignores their result. -/
def answer (c : Client) (a : Act) (o : CallOutcome) : Client := (libCall (c.emit a) o).1

/-- The `MQTT_EVT_PUBLISH` case of `mqtt_event_handler`: acknowledge, then read. -/
def publishEvent (c : Client) (m : PublishMsg) (n : Nested) : Client :=
  let c := match m.qos with
    | .atLeastOnce => answer c (.puback m.messageId) n.answer
    | .exactlyOnce => answer c (.pubrec m.messageId) n.answer
    | .atMostOnce => c
  onMqttPublish c m n.read

/-- The `MQTT_EVT_CONNACK` case of `mqtt_event_handler`. -/
def connackEvent (c : Client) (result : Int) : Client :=
  let c := c.emit (.connackEvt result)
  if result ≠ 0 then c else onMqttConnect c

/-- `mqtt_event_handler`. The cases that only print leave the state alone. -/
def mqttEventHandler (c : Client) (n : Nested) : MqttEvt → Client
  | .packet (.connack result) => connackEvent c result
  | .disconnect => onMqttDisconnect (c.emit .disconnectEvt)
  | .packet .pingresp => c
  | .packet (.puback _ _) => c
  | .packet (.pubrec result id) => if result ≠ 0 then c else answer c (.pubrel id) n.answer
  | .packet (.pubrel result id) => if result ≠ 0 then c else answer c (.pubcomp id) n.answer
  | .packet (.pubcomp _ _) => c
  | .packet (.suback _ _) => c
  | .packet (.publish m) => publishEvent c m n

/-! ## What the calls leave alone -/

section Frame

variable (c : Client)

@[simp] theorem emit_transportOpen (a : Act) : (c.emit a).transportOpen = c.transportOpen := rfl
@[simp] theorem emit_unread (a : Act) : (c.emit a).unread = c.unread := rfl
@[simp] theorem emit_log (a : Act) : (c.emit a).log = a :: c.log := rfl

theorem dropTransport_closed {c : Client} (h : c.transportOpen = false) : dropTransport c = c := by
  simp [dropTransport, h]

/-- A closed transport is left behind, and nothing that was unread on it. -/
theorem dropTransport_transportOpen (c : Client) : (dropTransport c).transportOpen = false := by
  cases h : c.transportOpen with
  | true => simp [dropTransport, h, onMqttDisconnect, clearFds, Client.emit]
  | false => rw [dropTransport_closed h, h]

/-- A call that does not give the connection up changes nothing. -/
theorem libCall_of_not_closes (rc : Int) : (libCall c ⟨rc, false⟩).1 = c := by
  simp only [libCall, Bool.false_eq_true, if_false]
  split_ifs <;> rfl

theorem grows_dropTransport : Grows (· = .disconnectEvt) c (dropTransport c) := by
  unfold dropTransport
  split_ifs
  · exact .of_cons rfl rfl
  · exact .refl c

theorem grows_libCall (o : CallOutcome) : Grows (· = .disconnectEvt) c (libCall c o).1 := by
  simp only [libCall]
  split_ifs
  · exact .refl c
  · exact .refl c
  · exact grows_dropTransport c
  · exact .refl c

/-- An answer adds itself, and a DISCONNECT event if it gives the connection up. -/
theorem grows_answer (a : Act) (o : CallOutcome) :
    Grows (fun b => b = a ∨ b = .disconnectEvt) c (answer c a o) :=
  (Grows.of_cons rfl (Or.inl rfl)).trans ((grows_libCall (c.emit a) o).mono fun _ => Or.inr)

end Frame

/-! ## Everything a callback can do

The library calls and the callbacks they raise change the client in five ways only, a CONNACK apart.
Whatever must survive them is proved for these moves, once. -/

/-- The entries callbacks make in the history, connection events apart. -/
def Act.IsNote : Act → Prop
  | .puback _ | .pubrec _ | .pubrel _ | .pubcomp _ | .payloadStore _ | .commandHandler _ => True
  | _ => False

inductive Move (c : Client) : Client → Prop
  | drop : c.transportOpen = true → Move c (dropTransport c)
  | note {a : Act} : a.IsNote → Move c (c.emit a)
  | read (unread : List UInt8) : Move c { c with unread := unread }
  | retire {inFlight : List Packet} : inFlight.Sublist c.inFlight →
      Move c { c with inFlight := inFlight }
  | command {leds : Leds} : leds.net = c.leds.net → Move c { c with leds := leds }

/-- Any number of moves. -/
abbrev Moves : Client → Client → Prop := Relation.ReflTransGen Move

section Moves

variable (c : Client)

theorem moves_dropTransport : Moves c (dropTransport c) := by
  cases h : c.transportOpen with
  | true => exact .single (.drop h)
  | false => rw [dropTransport_closed h]

theorem moves_libCall (o : CallOutcome) : Moves c (libCall c o).1 := by
  simp only [libCall]
  split_ifs
  · exact .refl
  · exact .refl
  · exact moves_dropTransport c
  · exact .refl

theorem moves_answer {a : Act} (ha : a.IsNote) (o : CallOutcome) : Moves c (answer c a o) :=
  .head (.note ha) (moves_libCall (c.emit a) o)

theorem moves_mqttReadPublishPayload (length : Nat) (o : ReadOutcome) :
    Moves c (mqttReadPublishPayload c length o).1 := by
  cases o with
  | ready n => exact .single (.read _)
  | failed err closes =>
      simp only [mqttReadPublishPayload]
      split_ifs
      · exact moves_dropTransport c
      · exact .refl

theorem moves_callCommandHandler (bytes : List UInt8) : Moves c (callCommandHandler c bytes) :=
  .head (.command (deviceCommandHandler_net _ _)) (.single (.note trivial))

theorem moves_onMqttPublish (m : PublishMsg) (o : ReadOutcome) :
    Moves c (onMqttPublish c m o) := by
  refine (moves_mqttReadPublishPayload c mqttPayloadSize o).trans ?_
  simp only [onMqttPublish]
  split_ifs
  · exact .refl
  · exact .head (.note (by trivial)) (moves_callCommandHandler _ _)
  · exact .single (.note trivial)

theorem moves_publishEvent (m : PublishMsg) (n : Nested) : Moves c (publishEvent c m n) := by
  simp only [publishEvent]
  refine Relation.ReflTransGen.trans ?_ (moves_onMqttPublish _ m n.read)
  split
  · exact moves_answer c (by trivial) n.answer
  · exact moves_answer c (by trivial) n.answer
  · exact .refl

/-- Every packet but a CONNACK. -/
theorem moves_mqttEventHandler (n : Nested) {p : RxPacket} (hp : ∀ result, p ≠ .connack result) :
    Moves c (mqttEventHandler c n (.packet p)) := by
  cases p with
  | connack result => exact absurd rfl (hp result)
  | pubrec result id | pubrel result id =>
      simp only [mqttEventHandler]
      split_ifs
      · exact .refl
      · exact moves_answer c (by trivial) n.answer
  | publish m => exact moves_publishEvent c m n
  | pingresp | puback _ _ | pubcomp _ _ | suback _ _ => exact .refl

end Moves

/-! ### What they leave alone -/

/-- The statics no library call and no callback writes. -/
def Client.statics (c : Client) : Revents × UInt16 × List UInt8 := (c.revents, c.msgId, c.payloadBuf)

theorem Move.statics {c c' : Client} (h : Move c c') : c'.statics = c.statics := by
  cases h with
  | drop hopen => simp [dropTransport, hopen, Client.statics, onMqttDisconnect, clearFds, Client.emit]
  | note _ | read _ | retire _ | command _ => rfl

theorem Moves.statics {c c' : Client} (h : Moves c c') : c'.statics = c.statics := by
  induction h with
  | refl => rfl
  | tail _ hmove ih => rw [hmove.statics, ih]

/-- The history grows by notes and DISCONNECT events. -/
theorem Move.grows {c c' : Client} (h : Move c c') :
    Grows (fun a => a.IsNote ∨ a = .disconnectEvt) c c' := by
  cases h with
  | drop _ => exact (grows_dropTransport c).mono fun _ => Or.inr
  | note ha => exact .of_cons rfl (Or.inl ha)
  | read _ | retire _ | command _ => exact .of_log_eq rfl

theorem Moves.grows {c c' : Client} (h : Moves c c') :
    Grows (fun a => a.IsNote ∨ a = .disconnectEvt) c c' := by
  induction h with
  | refl => exact .refl c
  | tail _ hmove ih => exact ih.trans hmove.grows

theorem connackEvent_statics (c : Client) (result : Int) :
    (connackEvent c result).statics = c.statics := by
  simp only [connackEvent]
  split_ifs <;> rfl

theorem grows_connackEvent (c : Client) (result : Int) :
    Grows (· = .connackEvt result) c (connackEvent c result) := by
  simp only [connackEvent]
  split_ifs <;> exact .of_cons rfl rfl

end ZephyrSamples.Mqtt
