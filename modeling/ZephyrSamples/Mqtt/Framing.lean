/-
# ZephyrSamples.Mqtt.Framing -- payloads and packet boundaries

The library leaves the payload of a PUBLISH on the stream and refuses to read the next packet while
any of it is unread. `on_mqtt_publish` reads once, into a buffer of `MQTT_PAYLOAD_SIZE` bytes. A
sequence of deliveries keeps the session at packet boundaries exactly when each of them fits that one
read (`deliveries_unbroken_iff`).
-/
import ZephyrSamples.Mqtt.Process

namespace ZephyrSamples.Mqtt

open ZephyrSamples.Lib.CString

/-- The stream stands between two packets of an open connection. -/
structure AtBoundary (c : Client) : Prop where
  transportOpen : c.transportOpen = true
  unread : c.unread = []

/-- A well-formed PUBLISH and how the stack serves the handler: the code the acknowledgement returns,
and for `mqtt_read_publish_payload` either a positive number of bytes ready or an error that consumes
nothing. The connection itself stays up. -/
structure Delivery where
  timeLeft : Int
  msg : PublishMsg
  answerRc : Int
  read : Except Nat Nat

def Delivery.readOutcome (d : Delivery) : ReadOutcome :=
  match d.read with
  | .ok n => .ready n
  | .error err => .failed err false

/-- The call of `app_mqtt_process` that finds the packet on the socket. -/
def Delivery.env (d : Delivery) : ProcessEnv where
  timeLeft := d.timeLeft
  poll := .ready ⟨true, false, false, false⟩
  input := .packet (.publish d.msg) ⟨⟨d.answerRc, false⟩, d.readOutcome⟩
  live := .notYet

/-- The client after that call. -/
def Client.deliver (c : Client) (d : Delivery) : Client := (appMqttProcess c d.env).1

/-- One delivery does the session no harm: the handler stays inside its payload buffer, returns with
the whole payload consumed, and whatever comes next is processed without an error. -/
structure Unbroken (c : Client) (d : Delivery) : Prop where
  inBounds : ∀ i, Called (.payloadStore i) c (c.deliver d) → i < mqttPayloadSize
  consumed : (c.deliver d).unread = []
  next : ∀ d' : Delivery, (appMqttProcess (c.deliver d) d'.env).2 = 0

/-- Every delivery of a sequence, each met in the state its predecessors left. -/
def UnbrokenRun : Client → List Delivery → Prop
  | _, [] => True
  | c, d :: ds => Unbroken c d ∧ UnbrokenRun (c.deliver d) ds

/-- The payload is shorter than the buffer and, unless it is empty, the one read brings all of it. -/
def WholeInOneRead (d : Delivery) : Prop :=
  d.msg.payload.length < mqttPayloadSize ∧
    (d.msg.payload = [] ∨ ∃ n, d.read = .ok n ∧ d.msg.payload.length ≤ n + 1)

/-! ## One delivery -/

/-- The packet is decoded and its payload left on the stream. -/
def Client.staged (c : Client) (d : Delivery) : Client :=
  { (c.polled d.env).emit .mqttInput with unread := d.msg.payload }

/-- The client as `on_mqtt_publish` finds it: the acknowledgement is sent. -/
def Client.beforeRead (c : Client) (d : Delivery) : Client :=
  match d.msg.qos with
  | .atLeastOnce => (c.staged d).emit (.puback d.msg.messageId)
  | .exactlyOnce => (c.staged d).emit (.pubrec d.msg.messageId)
  | .atMostOnce => c.staged d

/-- At a packet boundary `app_mqtt_process` takes the packet, runs the handler and returns 0. -/
theorem process_delivery {c : Client} (h : AtBoundary c) (d : Delivery) :
    appMqttProcess c d.env = (onMqttPublish (c.beforeRead d) d.msg d.readOutcome, 0) := by
  have hopen : (c.polled d.env).transportOpen = true := h.transportOpen
  have hunread : (c.polled d.env).unread = [] := h.unread
  have hinput := mqttInput_packet hopen hunread (.publish d.msg)
    ⟨⟨d.answerRc, false⟩, d.readOutcome⟩
  have hhandler : receivePacket ((c.polled d.env).emit .mqttInput) (.publish d.msg)
      ⟨⟨d.answerRc, false⟩, d.readOutcome⟩ =
      onMqttPublish (c.beforeRead d) d.msg d.readOutcome := by
    simp only [receivePacket, retire, stage, mqttEventHandler, publishEvent, Client.beforeRead]
    cases d.msg.qos <;> simp only [answer, libCall_of_not_closes] <;> rfl
  rw [appMqttProcess_pollin c (r := ⟨true, false, false, false⟩) rfl rfl]
  simp only [Delivery.env] at hinput ⊢
  rw [hinput]
  exact Prod.ext hhandler rfl

theorem deliver_eq {c : Client} (h : AtBoundary c) (d : Delivery) :
    c.deliver d = onMqttPublish (c.beforeRead d) d.msg d.readOutcome := by
  rw [Client.deliver, process_delivery h]

@[simp] theorem beforeRead_unread (c : Client) (d : Delivery) :
    (c.beforeRead d).unread = d.msg.payload := by
  simp only [Client.beforeRead]
  cases d.msg.qos <;> rfl

@[simp] theorem beforeRead_transportOpen (c : Client) (d : Delivery) :
    (c.beforeRead d).transportOpen = c.transportOpen := by
  simp only [Client.beforeRead]
  cases d.msg.qos <;> rfl

theorem count_beforeRead (c : Client) (d : Delivery) (i : Nat) :
    (c.beforeRead d).log.count (.payloadStore i) = c.log.count (.payloadStore i) := by
  have hstaged : (c.staged d).log = .mqttInput :: c.log := rfl
  simp only [Client.beforeRead]
  cases d.msg.qos <;> simp [hstaged, List.count_cons_of_ne]

/-- The bytes a successful read brings. -/
def Delivery.taken (d : Delivery) (n : Nat) : List UInt8 :=
  d.msg.payload.take (min (n + 1) mqttPayloadSize)

/-- The client when the handler has stored the terminator behind `bytes`. -/
def Client.afterRead (c : Client) (d : Delivery) (bytes : List UInt8) : Client :=
  { c.beforeRead d with unread := d.msg.payload.drop bytes.length }.emit
    (.payloadStore bytes.length)

/-- A delivery is a read, the terminator, and possibly the command handler. -/
theorem deliver_ok {c : Client} (h : AtBoundary c) {d : Delivery} {n : Nat} (hr : d.read = .ok n) :
    c.deliver d = if strcmp d.msg.topicUtf8 mqttSubTopicCmd = 0 then
      callCommandHandler (c.afterRead d (d.taken n)) (d.taken n) else c.afterRead d (d.taken n) := by
  rw [deliver_eq h, Delivery.readOutcome, hr, Client.afterRead, ← beforeRead_unread c d]
  refine onMqttPublish_ready (c.beforeRead d) d.msg n ?_
  rw [beforeRead_unread, Delivery.taken]

/-- A failed read leaves the client as it was. -/
theorem deliver_error {c : Client} (h : AtBoundary c) {d : Delivery} {err : Nat}
    (hr : d.read = .error err) : c.deliver d = c.beforeRead d := by
  rw [deliver_eq h, Delivery.readOutcome, hr]
  exact onMqttPublish_failed (c.beforeRead d) d.msg err false

/-- What the handler leaves unread: a successful read takes at most one buffer of bytes off the
payload, a failing one nothing. -/
theorem deliver_unread {c : Client} (h : AtBoundary c) (d : Delivery) :
    (c.deliver d).unread = match d.read with
      | .ok n => d.msg.payload.drop (min (n + 1) mqttPayloadSize)
      | .error _ => d.msg.payload := by
  cases hr : d.read with
  | ok n =>
      have hdrop : d.msg.payload.drop (d.taken n).length =
          d.msg.payload.drop (min (n + 1) mqttPayloadSize) := by
        rw [Delivery.taken, List.length_take]
        exact List.drop_eq_drop_min.symm
      rw [deliver_ok h hr]
      split_ifs
      · exact hdrop
      · exact hdrop
  | error err => rw [deliver_error h hr, beforeRead_unread]

theorem deliver_transportOpen {c : Client} (h : AtBoundary c) (d : Delivery) :
    (c.deliver d).transportOpen = true := by
  have hopen : (c.beforeRead d).transportOpen = true := by
    rw [beforeRead_transportOpen, h.transportOpen]
  cases hr : d.read with
  | ok n =>
      rw [deliver_ok h hr]
      split_ifs
      · exact hopen
      · exact hopen
  | error err => rw [deliver_error h hr, hopen]

/-- A successful read stores the terminator behind the bytes it brought, and nowhere else. -/
theorem called_payloadStore_iff {c : Client} (h : AtBoundary c) (d : Delivery) (i : Nat) :
    Called (.payloadStore i) c (c.deliver d) ↔
      ∃ n, d.read = .ok n ∧ i = min (min (n + 1) mqttPayloadSize) d.msg.payload.length := by
  rw [Called, ← count_beforeRead c d i]
  cases hr : d.read with
  | ok n =>
      have hlen : (d.taken n).length = min (min (n + 1) mqttPayloadSize) d.msg.payload.length :=
        List.length_take
      have hstore : (c.afterRead d (d.taken n)).log =
          .payloadStore (d.taken n).length :: (c.beforeRead d).log := rfl
      have hcount : (c.deliver d).log.count (.payloadStore i) =
          (c.afterRead d (d.taken n)).log.count (.payloadStore i) := by
        rw [deliver_ok h hr]
        split_ifs
        · exact List.count_cons_of_ne (by simp)
        · rfl
      rw [hcount, hstore, count_lt_count_cons_iff, hlen, Act.payloadStore.injEq]
      constructor
      · intro heq
        exact ⟨n, rfl, heq.symm⟩
      · rintro ⟨n', hn, heq⟩
        obtain rfl := Except.ok.inj hn
        exact heq.symm
  | error err =>
      rw [deliver_error h hr]
      constructor
      · intro hlt
        exact absurd hlt (Nat.lt_irrefl _)
      · rintro ⟨n, hn, -⟩
        cases hn

/-- The handler leaves a packet boundary behind exactly when the read took the payload whole. -/
theorem atBoundary_deliver_iff {c : Client} (h : AtBoundary c) (d : Delivery) :
    AtBoundary (c.deliver d) ↔ d.msg.payload = [] ∨
      ∃ n, d.read = .ok n ∧ d.msg.payload.length ≤ min (n + 1) mqttPayloadSize := by
  have hunread := deliver_unread h d
  constructor
  · intro hb
    rw [hb.unread] at hunread
    cases hr : d.read with
    | ok n =>
        rw [hr] at hunread
        exact Or.inr ⟨n, rfl, List.drop_eq_nil_iff.mp hunread.symm⟩
    | error err =>
        rw [hr] at hunread
        exact Or.inl hunread.symm
  · intro hwhole
    refine ⟨deliver_transportOpen h d, ?_⟩
    rw [hunread]
    rcases hwhole with hnil | ⟨n, hr, hle⟩
    · cases d.read <;> simp [hnil]
    · rw [hr]
      exact List.drop_eq_nil_iff.mpr hle

/-- **One delivery.** It does the session no harm exactly when one read suffices. -/
theorem unbroken_iff {c : Client} (h : AtBoundary c) (d : Delivery) :
    Unbroken c d ↔ WholeInOneRead d := by
  constructor
  · intro hu
    have hb : AtBoundary (c.deliver d) := ⟨deliver_transportOpen h d, hu.consumed⟩
    rcases (atBoundary_deliver_iff h d).mp hb with hnil | ⟨n, hr, hle⟩
    · exact ⟨by simp [hnil, mqttPayloadSize], Or.inl hnil⟩
    · -- the store index is the payload's length, so staying in bounds bounds the payload
      have hstore := hu.inBounds d.msg.payload.length
        ((called_payloadStore_iff h d _).mpr ⟨n, hr, by omega⟩)
      exact ⟨hstore, Or.inr ⟨n, hr, by omega⟩⟩
  · rintro ⟨hlt, hwhole⟩
    have hb : AtBoundary (c.deliver d) := (atBoundary_deliver_iff h d).mpr <| by
      rcases hwhole with hnil | ⟨n, hr, hle⟩
      · exact Or.inl hnil
      · exact Or.inr ⟨n, hr, by omega⟩
    refine ⟨?_, hb.unread, fun d' => by rw [process_delivery hb d']⟩
    intro i hi
    obtain ⟨n, -, rfl⟩ := (called_payloadStore_iff h d i).mp hi
    omega

/-! ## A sequence of deliveries -/

/-- **Any number of deliveries.** From a packet boundary of an open connection, every PUBLISH of the
sequence is consumed whole, inside the buffer, and followed by an `app_mqtt_process` that returns 0,
if and only if each of them is shorter than the buffer and arrives in one read. -/
theorem deliveries_unbroken_iff (c : Client) (h : AtBoundary c) (ds : List Delivery) :
    UnbrokenRun c ds ↔ ∀ d ∈ ds, WholeInOneRead d := by
  induction ds generalizing c with
  | nil => simp [UnbrokenRun]
  | cons d ds ih =>
      rw [UnbrokenRun, unbroken_iff h d, List.forall_mem_cons]
      refine and_congr_right fun hd => ih (c.deliver d) ?_
      exact ⟨deliver_transportOpen h d, ((unbroken_iff h d).mpr hd).consumed⟩

/-- A connected client between two packets. -/
def idleClient : Client := { Client.boot with mqttConnected := true, transportOpen := true }

theorem idleClient_atBoundary : AtBoundary idleClient := ⟨rfl, rfl⟩

/-- `led_on` whole, then `led_off` in a segment of its own. -/
def shortCommands : List Delivery :=
  [⟨60000, ⟨mqttSubTopicCmd, .atMostOnce, 0, fun _ => 0, ascii "led_on"⟩, 0, .ok 5⟩,
   ⟨60000, ⟨mqttSubTopicCmd, .atLeastOnce, 7, fun _ => 0, ascii "led_off"⟩, 0, .ok 99⟩]

theorem shortCommands_unbroken :
    UnbrokenRun idleClient shortCommands ↔ ∀ d ∈ shortCommands, WholeInOneRead d :=
  deliveries_unbroken_iff idleClient idleClient_atBoundary shortCommands

/-- `led_on` split by the transport after three bytes. -/
def splitCommand : Delivery :=
  ⟨60000, ⟨mqttSubTopicCmd, .atLeastOnce, 7, fun _ => 0, ascii "led_on"⟩, 0, .ok 2⟩

/-- Three bytes stay unread, and the next packet meets `-EBUSY`. -/
theorem splitCommand_breaks : ¬ UnbrokenRun idleClient [splitCommand] := by
  intro h
  have hconsumed := h.1.consumed
  revert hconsumed
  decide

end ZephyrSamples.Mqtt
