/-
# ZephyrSamples.Mqtt.Config -- the constants of the MQTT sample

`mqtt_config.h` fixes topics, quality of service, publish interval and buffer size; `mqtt_client.h`
fixes the two timeouts of the connection loop. Error codes are the positive `errno` values the code
negates. What `app_mqtt_init` reads besides is in `Mqtt.Setup`.
-/
import ZephyrSamples.Lib.CString

namespace ZephyrSamples.Mqtt

open ZephyrSamples.Lib.CString

/-! ## `mqtt_config.h` and `mqtt_client.h` -/

/-- The three quality-of-service levels of MQTT. -/
inductive QoS where
  | atMostOnce
  | atLeastOnce
  | exactlyOnce
  deriving DecidableEq, Repr

def mqttPubTopic : List UInt8 := ascii "zephyr_sample/sensor"
def mqttSubTopicCmd : List UInt8 := ascii "zephyr_sample/command"

/-- `MQTT_QOS` as the repository configures it. Results that hold for every configuration take the
level as a parameter instead. -/
def mqttQos : QoS := .atLeastOnce

/-- `MQTT_PUBLISH_INTERVAL`, in milliseconds. -/
def mqttPublishInterval : Nat := 3000
def mqttPayloadSize : Nat := 128
def msecsNetPollTimeout : Nat := 5000
def msecsWaitReconnect : Nat := 1000

/-- The packet identifier `app_mqtt_subscribe` always uses. -/
def subscribeMessageId : UInt16 := 5841

/-! ## `errno` -/

def EAGAIN : Int := 11
def EBUSY : Int := 16
def EINVAL : Int := 22
def ENOTCONN : Int := 128

end ZephyrSamples.Mqtt
