/-
# ZephyrSamples.Mqtt.Samples -- only real samples are published

`app_mqtt_publish` prints the code of a failing `get_mqtt_payload` and publishes all the same.
`publishRun_iff`: a run of publishes sends nothing but the samples of its own calls, and reports its
failures, exactly when no reading and no encoding fails.
-/
import ZephyrSamples.Mqtt.Publish

namespace ZephyrSamples.Mqtt

open ZephyrSamples.Lib.CString

/-- `text` is the encoding of the sample read in this call. -/
def Produces (e : PublishEnv) (text : JsonText) : Prop :=
  ∃ sample, deviceReadSensor e.sensor = .ok sample ∧ e.encode sample = .ok text

/-- Sensor and encoder answer: no sensor is configured or both driver calls return 0, and the sample
so read is encoded. -/
def Sampled (e : PublishEnv) : Prop :=
  (e.sensor.present = false ∨ (e.sensor.fetch = 0 ∧ e.sensor.get = 0)) ∧
    ∀ sample, deviceReadSensor e.sensor = .ok sample → ∃ text, e.encode sample = .ok text

/-- What one call of `app_mqtt_publish` owes its caller. A PUBLISH is handed to the library only with
the text produced in this call; a failed reading or encoding is returned as an error, sends nothing
and costs no identifier. -/
structure OnlySamples (qos : QoS) (c : Client) (e : PublishEnv) : Prop where
  published : ∀ param, Called (.mqttPublish param) c (appMqttPublish qos c e).1 →
    ∃ text, Produces e text ∧ param.payload.bytes = text.bytes ∧
      param.payload.len = text.bytes.length
  failed : (¬ ∃ text, Produces e text) →
    (appMqttPublish qos c e).2 ≠ 0 ∧
      (∀ param, ¬ Called (.mqttPublish param) c (appMqttPublish qos c e).1) ∧
      (appMqttPublish qos c e).1.msgId = c.msgId

/-- Every call of a run, each with the statics its predecessors left. -/
def OnlySamplesRun (qos : QoS) : Client → List PublishEnv → Prop
  | _, [] => True
  | c, e :: es => OnlySamples qos c e ∧ OnlySamplesRun qos (appMqttPublish qos c e).1 es

/-! ## One call -/

/-- `device_read_sensor` succeeds exactly if there is no sensor or both driver calls return 0. -/
theorem deviceReadSensor_isOk_iff (e : SensorEnv) :
    (∃ sample, deviceReadSensor e = .ok sample) ↔
      e.present = false ∨ (e.fetch = 0 ∧ e.get = 0) := by
  simp only [deviceReadSensor]
  cases hp : e.present with
  | false => simp
  | true =>
      by_cases hf : e.fetch = 0 <;> by_cases hg : e.get = 0 <;> simp [hf, hg]

theorem produces_iff_sampled (e : PublishEnv) : (∃ text, Produces e text) ↔ Sampled e := by
  rw [Sampled, ← deviceReadSensor_isOk_iff]
  constructor
  · rintro ⟨text, sample, hread, henc⟩
    refine ⟨⟨sample, hread⟩, fun sample' hread' => ?_⟩
    have hsame : sample = sample' := Except.ok.inj (hread.symm.trans hread')
    exact ⟨text, hsame ▸ henc⟩
  · rintro ⟨⟨sample, hread⟩, henc⟩
    obtain ⟨text, htext⟩ := henc sample hread
    exact ⟨text, sample, hread, htext⟩

/-- On success the payload is the text: `strlen` stops at the terminator stored behind it. -/
theorem outgoing_of_produces (qos : QoS) (c : Client) {e : PublishEnv} {text : JsonText}
    (h : Produces e text) :
    (outgoing qos c e).payload.bytes = text.bytes ∧
      (outgoing qos c e).payload.len = text.bytes.length := by
  obtain ⟨sample, hread, henc⟩ := h
  simp only [outgoing, publishParam, getMqttPayload, hread, henc, Option.getD_some,
    MqttBinstr.bytes]
  exact ⟨take_strlen_overwrite text.noNul _, strlen_overwrite text.noNul _⟩

/-- **One call.** It keeps to real samples exactly when reading and encoding succeed. -/
theorem onlySamples_iff (qos : QoS) (c : Client) (e : PublishEnv) :
    OnlySamples qos c e ↔ Sampled e := by
  rw [← produces_iff_sampled]
  constructor
  · intro h
    by_contra hno
    -- the PUBLISH goes out even so
    exact (h.failed hno).2.1 _ ((called_mqttPublish_iff qos c e _).mpr rfl)
  · rintro ⟨text, htext⟩
    refine ⟨?_, fun hno => absurd ⟨text, htext⟩ hno⟩
    intro param hcalled
    obtain rfl := (called_mqttPublish_iff qos c e param).mp hcalled
    exact ⟨text, htext, outgoing_of_produces qos c htext⟩

/-! ## A run of calls -/

/-- **Only samples are published**, in every call of a run, if and only if the sensor and the encoder
answer in every call. -/
theorem publishRun_iff (qos : QoS) (c : Client) (es : List PublishEnv) :
    OnlySamplesRun qos c es ↔ ∀ e ∈ es, Sampled e := by
  induction es generalizing c with
  | nil => simp [OnlySamplesRun]
  | cons e es ih =>
      rw [OnlySamplesRun, onlySamples_iff, ih, List.forall_mem_cons]

/-- A sensor that is present and does not answer, on an open connection; the stack still holds a
pointer to the previous payload. -/
def brokenSensor : PublishEnv where
  sensor := ⟨true, 0, -5, 0, ⟨0, 0⟩⟩
  encode := fun _ => .ok .one
  uninit := ⟨ascii "1", 1⟩
  publish := ⟨0, false⟩

/-- The failed reading is published and reported as success. -/
theorem brokenSensor_published :
    ¬ OnlySamplesRun mqttQos { Client.boot with mqttConnected := true, transportOpen := true }
      [brokenSensor] := by
  intro h
  have hfail := h.1.failed (by
    rw [produces_iff_sampled]
    rintro ⟨hsensor, -⟩
    revert hsensor
    decide)
  have hrc := hfail.1
  revert hrc
  decide

end ZephyrSamples.Mqtt
