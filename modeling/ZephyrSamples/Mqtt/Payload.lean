/-
# ZephyrSamples.Mqtt.Payload -- the local buffer of `on_mqtt_publish`

`on_mqtt_publish` lets the library read up to `MQTT_PAYLOAD_SIZE` bytes into an array of that size and
then stores a NUL behind them. `Client` keeps of this only the bytes and the index; here the array is the
memory it starts in, so that a store behind its end is visible, and the command handler runs on that
memory. The two agree (`onMqttPublishOn_fst`), and the buffer is respected exactly when the read leaves
room for the terminator (`onMqttPublish_inBuffer_iff`).
-/
import ZephyrSamples.Mqtt.Client

namespace ZephyrSamples.Mqtt

open ZephyrSamples.Lib.CString

/-- What happened to the local array: the indices of `payload[]` that were stored to, by the library and
by the terminator, and the memory from `payload` on when it was printed and passed on. -/
structure PayloadUse where
  written : List Nat
  printed : Option Memory

/-- `on_mqtt_publish` with `payload` at the start of `stack`. -/
def onMqttPublishOn (stack : Memory) (c : Client) (m : PublishMsg) (read : ReadOutcome) :
    Client × PayloadUse :=
  let (c, rc, bytes) := mqttReadPublishPayload c mqttPayloadSize read
  let stack := stack.blit 0 bytes
  let written := List.range bytes.length
  if rc < 0 then (c, ⟨written, none⟩)
  else
    -- payload[rc] = '\0'
    let stack := stack.set rc.toNat 0
    let written := written ++ [rc.toNat]
    let c := c.emit (.payloadStore rc.toNat)
    let c :=
      if strcmp m.topicUtf8 mqttSubTopicCmd = 0 then
        { c with leds := deviceCommandHandler stack c.leds }.emit
          (.commandHandler (bytes.takeWhile (· != 0)))
      else c
    (c, ⟨written, some stack⟩)

/-- The array is respected: every store is inside, and what is printed and passed on is terminated inside
and is the bytes read, up to the first NUL among them. -/
structure InBuffer (bytes : List UInt8) (u : PayloadUse) : Prop where
  inBounds : ∀ i ∈ u.written, i < mqttPayloadSize
  terminated : ∀ m, u.printed = some m → ∃ i < mqttPayloadSize, m i = 0
  string : ∀ m, u.printed = some m → Reads m (bytes.takeWhile (· != 0))

/-- The bytes one call of `mqtt_read_publish_payload` stores. -/
def bytesRead (c : Client) (read : ReadOutcome) : List UInt8 :=
  (mqttReadPublishPayload c mqttPayloadSize read).2.2

/-- The payload or the part of it that is ready is shorter than the array. -/
def LeavesRoom (c : Client) : ReadOutcome → Prop
  | .ready n => min (n + 1) c.unread.length < mqttPayloadSize
  | .failed _ _ => True

/-! ## The command handler sees the bytes read -/

/-- Two places that hold the same string are one command to any table without NULs in it. -/
theorem dispatchCommand_congr {m m' : Memory} {str : List UInt8} (h : Reads m str)
    (h' : Reads m' str) (leds : Leds) {cmds : List DeviceCmd} (hnul : ∀ d ∈ cmds, 0 ∉ d.command) :
    dispatchCommand m leds cmds = dispatchCommand m' leds cmds := by
  induction cmds with
  | nil => rfl
  | cons d ds ih =>
      have hd : 0 ∉ d.command := hnul d List.mem_cons_self
      have hsame : strcmp m d.command = 0 ↔ strcmp m' d.command = 0 := by
        rw [strcmp_eq_zero_iff, strcmp_eq_zero_iff, h.isString_iff hd, h'.isString_iff hd]
      simp only [dispatchCommand, hsame]
      rw [ih fun d' hmem => hnul d' (List.mem_cons_of_mem d hmem)]

theorem deviceCommandHandler_congr {m m' : Memory} {str : List UInt8} (h : Reads m str)
    (h' : Reads m' str) (leds : Leds) : deviceCommandHandler m leds = deviceCommandHandler m' leds := by
  apply dispatchCommand_congr h h' leds
  decide

/-- Wherever the array stands, the handler does what it does with the bytes and the NUL alone. -/
theorem callCommandHandler_eq (stack : Memory) (c : Client) (bytes : List UInt8) :
    callCommandHandler c bytes =
      { c with
        leds := deviceCommandHandler ((stack.blit 0 bytes).set bytes.length 0) c.leds }.emit
        (.commandHandler (bytes.takeWhile (· != 0))) := by
  have halone : IsString (append (bytes ++ [0]) fun _ => 0) bytes :=
    (isString_append_iff (bytes ++ [0]) bytes _).mpr (Or.inr (Or.inl List.prefix_rfl))
  have hstack : IsString ((stack.blit 0 bytes).set bytes.length 0) bytes :=
    isString_blit_set stack bytes
  unfold callCommandHandler
  rw [deviceCommandHandler_congr halone.reads hstack.reads]

/-! ## Both outcomes of the read -/

section Outcomes

variable (stack : Memory) (c : Client) (m : PublishMsg)

theorem onMqttPublishOn_failed (err : Nat) (closes : Bool) :
    onMqttPublishOn stack c m (.failed err closes) =
      (onMqttPublish c m (.failed err closes), ⟨[], none⟩) := by
  have hneg : -((err + 1 : Nat) : Int) < 0 := by omega
  rw [onMqttPublish_failed]
  exact if_pos hneg

theorem onMqttPublishOn_ready (n : Nat) {bytes : List UInt8}
    (hb : bytesRead c (.ready n) = bytes) :
    onMqttPublishOn stack c m (.ready n) =
      (onMqttPublish c m (.ready n),
        ⟨List.range bytes.length ++ [bytes.length],
          some ((stack.blit 0 bytes).set bytes.length 0)⟩) := by
  have hb' : c.unread.take (min (n + 1) mqttPayloadSize) = bytes := hb
  have hpos : ¬ (bytes.length : Int) < 0 := by omega
  rw [onMqttPublish_ready c m n hb']
  simp only [onMqttPublishOn, mqttReadPublishPayload, hb', hpos, if_false, Int.toNat_natCast,
    callCommandHandler_eq stack]

/-- **The two readings of `on_mqtt_publish` agree**, whatever stands on the stack. -/
theorem onMqttPublishOn_fst (read : ReadOutcome) :
    (onMqttPublishOn stack c m read).1 = onMqttPublish c m read := by
  rcases read with n | ⟨err, closes⟩
  · rw [onMqttPublishOn_ready stack c m n rfl]
  · rw [onMqttPublishOn_failed]

theorem length_bytesRead (n : Nat) :
    (bytesRead c (.ready n)).length = min (min (n + 1) c.unread.length) mqttPayloadSize := by
  show (c.unread.take (min (n + 1) mqttPayloadSize)).length = _
  rw [List.length_take]
  omega

end Outcomes

/-- **The payload buffer.** For every payload and every outcome of the read, the array is respected exactly
if the library fails or stores fewer bytes than the array has. -/
theorem onMqttPublish_inBuffer_iff (stack : Memory) (c : Client) (m : PublishMsg)
    (read : ReadOutcome) :
    InBuffer (bytesRead c read) (onMqttPublishOn stack c m read).2 ↔ LeavesRoom c read := by
  rcases read with n | ⟨err, closes⟩
  · have hlen := length_bytesRead c n
    rw [onMqttPublishOn_ready stack c m n rfl]
    show _ ↔ min (n + 1) c.unread.length < mqttPayloadSize
    constructor
    · intro h
      have hend : (bytesRead c (.ready n)).length < mqttPayloadSize :=
        h.inBounds _ (List.mem_append_right _ List.mem_cons_self)
      omega
    · intro hroom
      have hend : (bytesRead c (.ready n)).length < mqttPayloadSize := by omega
      refine ⟨?_, ?_, ?_⟩
      · rw [List.forall_mem_append, List.forall_mem_singleton]
        refine ⟨?_, hend⟩
        intro i hi
        exact Nat.lt_trans (List.mem_range.mp hi) hend
      · rintro mem ⟨⟩
        exact ⟨_, hend, set_self _ _ _⟩
      · rintro mem ⟨⟩
        exact (isString_blit_set stack _).reads
  · rw [onMqttPublishOn_failed]
    refine iff_of_true ⟨?_, ?_, ?_⟩ trivial
    · intro i hi
      cases hi
    · rintro mem ⟨⟩
    · rintro mem ⟨⟩

/-- A command of `MQTT_PAYLOAD_SIZE` bytes, all of it ready. -/
def fullCommand : PublishMsg where
  topic := mqttSubTopicCmd
  qos := .atLeastOnce
  messageId := 1
  older := fun _ => 0
  payload := List.replicate mqttPayloadSize 65

theorem fullCommand_overruns :
    ¬ InBuffer (bytesRead { Client.boot with unread := fullCommand.payload } (.ready 127))
      (onMqttPublishOn (fun _ => 0) { Client.boot with unread := fullCommand.payload } fullCommand
        (.ready 127)).2 := by
  intro h
  have hlen : (bytesRead { Client.boot with unread := fullCommand.payload } (.ready 127)).length =
      mqttPayloadSize := by
    rw [length_bytesRead]
    show min (min 128 (List.replicate mqttPayloadSize (65 : UInt8)).length) 128 = 128
    rw [List.length_replicate]
    rfl
  have hend : mqttPayloadSize < mqttPayloadSize := by
    apply h.inBounds
    rw [onMqttPublishOn_ready _ _ _ _ rfl, hlen]
    exact List.mem_append_right _ List.mem_cons_self
  exact Nat.lt_irrefl _ hend

end ZephyrSamples.Mqtt
