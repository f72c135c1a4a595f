/-
# ZephyrSamples.Mqtt.Publish -- sensor samples and outgoing packets

`app_mqtt_publish` reads the sensor, encodes the sample as JSON and hands a PUBLISH to the library.
`get_mqtt_payload` reports a failed reading or encoding, but its caller prints the code and goes on
with a payload nobody has written.

The JSON library is not part of the repository. An encoding either succeeds with a NUL-free text that
fits the buffer, stored with its terminator, or fails with a non-zero code and leaves anything behind.
-/
import ZephyrSamples.Mqtt.Client

namespace ZephyrSamples.Mqtt

open ZephyrSamples.Lib.CString

/-! ## Sending packets -/

def Act.isMqttPublish : Act → Bool
  | .mqttPublish _ => true
  | _ => false

/-- How many times `mqtt_publish` was called since boot. -/
def Client.publishCalls (c : Client) : Nat := c.log.countP Act.isMqttPublish

/-- Calls are counted by their entries. -/
theorem Grows.publishCalls {c c' : Client} (h : Grows (fun a => a.isMqttPublish = false) c c') :
    c'.publishCalls = c.publishCalls := by
  obtain ⟨new, hlog, hnew⟩ := h
  have hzero : new.countP Act.isMqttPublish = 0 :=
    List.countP_eq_zero.mpr fun a ha => by simp [hnew a ha]
  rw [Client.publishCalls, hlog, List.countP_append, hzero, Nat.zero_add]
  rfl

/-- A packet with an identifier goes out and stays in flight until it is acknowledged. -/
def transmit (c : Client) (p : Packet) : Client :=
  { c with inFlight := p :: c.inFlight }.emit (.sent p c.inFlight)

/-- `mqtt_publish`. Identifier 0 is refused above QoS 0. Only QoS 1 leaves a packet in flight: QoS 0
has no identifier, and QoS 2 has a handshake of its own. -/
def mqttPublish (c : Client) (param : PublishParam) (o : CallOutcome) : Client × Int :=
  let c := c.emit (.mqttPublish param)
  if !c.transportOpen then (c, -ENOTCONN)
  else if param.qos ≠ .atMostOnce ∧ param.messageId = 0 then (c, -EINVAL)
  else if o.rc = 0 then
    (if param.qos = .atLeastOnce then transmit c ⟨.publish c.publishCalls, param.messageId⟩ else c, 0)
  else (if o.closes then dropTransport c else c, o.rc)

/-- `mqtt_subscribe` -/
def mqttSubscribe (c : Client) (param : SubscribeParam) (o : CallOutcome) : Client × Int :=
  let c := c.emit (.mqttSubscribe param)
  if !c.transportOpen then (c, -ENOTCONN)
  else if o.rc = 0 then (transmit c ⟨.subscribe, param.messageId⟩, 0)
  else (if o.closes then dropTransport c else c, o.rc)

/-- `app_mqtt_subscribe` -/
def appMqttSubscribe (qos : QoS) (c : Client) (o : CallOutcome) : Client × Int :=
  mqttSubscribe c ⟨mqttSubTopicCmd, qos, subscribeMessageId⟩ o

/-! ## The payload -/

/-- A text `json_obj_encode_buf` can store in the payload buffer. -/
structure JsonText where
  bytes : List UInt8
  noNul : 0 ∉ bytes
  fits : bytes.length < mqttPayloadSize

/-- The text of a number, the smallest there is. -/
def JsonText.one : JsonText := ⟨ascii "1", by decide, by decide⟩

/-- A failed encoding: a non-zero code, and whatever it left in the buffer. -/
structure JsonFailure where
  rc : Int
  rc_ne : rc ≠ 0
  buf : List UInt8

/-- What one call of `app_mqtt_publish` meets. -/
structure PublishEnv where
  sensor : SensorEnv
  /-- `json_obj_encode_buf` on the sample -/
  encode : SensorSample → Except JsonFailure JsonText
  /-- the local `payload` before anything is stored in it -/
  uninit : MqttBinstr
  publish : CallOutcome

/-- `get_mqtt_payload`: the return code and, on success, the `payload` it fills. -/
def getMqttPayload (c : Client) (e : PublishEnv) : Client × Int × Option MqttBinstr :=
  match deviceReadSensor e.sensor with
  | .error rc => (c, rc, none)
  | .ok sample =>
      match e.encode sample with
      | .error f => ({ c with payloadBuf := f.buf }, f.rc, none)
      | .ok text =>
          let c := { c with payloadBuf := overwrite (text.bytes ++ [0]) c.payloadBuf }
          (c, 0, some ⟨c.payloadBuf, strlen c.payloadBuf⟩)

/-- The `param` of a PUBLISH. -/
def publishParam (qos : QoS) (payload : MqttBinstr) (messageId : UInt16) : PublishParam :=
  ⟨mqttPubTopic, qos, payload, messageId, false, false⟩

/-- `app_mqtt_publish` -/
def appMqttPublish (qos : QoS) (c : Client) (e : PublishEnv) : Client × Int :=
  -- a non-zero code of get_mqtt_payload is printed, then overwritten
  let (c, _rc, payload) := getMqttPayload c e
  let param := publishParam qos (payload.getD e.uninit) c.msgId
  mqttPublish { c with msgId := c.msgId + 1 } param e.publish

/-! ## What a call leaves behind -/

theorem grows_transmit (c : Client) (p : Packet) :
    Grows (· = .sent p c.inFlight) c (transmit c p) := .of_cons rfl rfl

/-- The history kinds a sending call adds behind its own entry. -/
def Act.BySend : Act → Prop
  | .sent _ _ | .disconnectEvt => True
  | _ => False

theorem grows_mqttPublish (c : Client) (param : PublishParam) (o : CallOutcome) :
    Grows Act.BySend (c.emit (.mqttPublish param)) (mqttPublish c param o).1 := by
  simp only [mqttPublish]
  split_ifs
  · exact .refl _
  · exact .refl _
  · exact (grows_transmit _ _).mono (by rintro a rfl; trivial)
  · exact .refl _
  · exact (grows_dropTransport _).mono (by rintro a rfl; trivial)
  · exact .refl _

/-- `get_mqtt_payload` writes the JSON buffer and nothing else. -/
theorem getMqttPayload_client (c : Client) (e : PublishEnv) :
    ∃ buf, (getMqttPayload c e).1 = { c with payloadBuf := buf } := by
  unfold getMqttPayload
  split
  · exact ⟨c.payloadBuf, rfl⟩
  · split <;> exact ⟨_, rfl⟩

theorem getMqttPayload_log (c : Client) (e : PublishEnv) :
    (getMqttPayload c e).1.log = c.log := by
  obtain ⟨buf, h⟩ := getMqttPayload_client c e
  rw [h]

theorem getMqttPayload_msgId (c : Client) (e : PublishEnv) :
    (getMqttPayload c e).1.msgId = c.msgId := by
  obtain ⟨buf, h⟩ := getMqttPayload_client c e
  rw [h]

theorem getMqttPayload_transportOpen (c : Client) (e : PublishEnv) :
    (getMqttPayload c e).1.transportOpen = c.transportOpen := by
  obtain ⟨buf, h⟩ := getMqttPayload_client c e
  rw [h]

theorem transmit_msgId (c : Client) (p : Packet) : (transmit c p).msgId = c.msgId := rfl

theorem dropTransport_msgId (c : Client) : (dropTransport c).msgId = c.msgId := by
  unfold dropTransport
  split <;> rfl

theorem mqttPublish_msgId (c : Client) (param : PublishParam) (o : CallOutcome) :
    (mqttPublish c param o).1.msgId = c.msgId := by
  simp only [mqttPublish]
  split_ifs <;> simp [transmit_msgId, dropTransport_msgId] <;> rfl

/-- The identifier counter moves by one in every call, whatever happens. -/
theorem appMqttPublish_msgId (qos : QoS) (c : Client) (e : PublishEnv) :
    (appMqttPublish qos c e).1.msgId = c.msgId + 1 := by
  simp only [appMqttPublish, mqttPublish_msgId, getMqttPayload_msgId]

/-- The PUBLISH a call hands to the library. -/
def outgoing (qos : QoS) (c : Client) (e : PublishEnv) : PublishParam :=
  publishParam qos ((getMqttPayload c e).2.2.getD e.uninit) c.msgId

/-- Behind its one `mqtt_publish` a call adds only what sending adds. -/
theorem grows_appMqttPublish (qos : QoS) (c : Client) (e : PublishEnv) :
    Grows Act.BySend (c.emit (.mqttPublish (outgoing qos c e))) (appMqttPublish qos c e).1 := by
  have h := grows_mqttPublish { (getMqttPayload c e).1 with msgId := c.msgId + 1 }
    (outgoing qos c e) e.publish
  have hstart : (c.emit (.mqttPublish (outgoing qos c e))).log =
      ({ (getMqttPayload c e).1 with msgId := c.msgId + 1 }.emit
        (.mqttPublish (outgoing qos c e))).log := by
    simp [getMqttPayload_log]
  simp only [appMqttPublish, getMqttPayload_msgId]
  exact (Grows.of_log_eq hstart.symm).trans h

/-- Every call of `app_mqtt_publish` calls `mqtt_publish`, once. -/
theorem called_mqttPublish_iff (qos : QoS) (c : Client) (e : PublishEnv) (param : PublishParam) :
    Called (.mqttPublish param) c (appMqttPublish qos c e).1 ↔ outgoing qos c e = param := by
  rw [(grows_appMqttPublish qos c e).called_iff_of_emit (by exact id)]
  simp

end ZephyrSamples.Mqtt
