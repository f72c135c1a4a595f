/-
# ZephyrSamples.Mqtt.Commands -- what command messages do to the LEDs

`on_mqtt_publish` puts a NUL behind the payload, and `device_command_handler` looks the C string it is
given up in a table of command strings. So a message counts by its bytes up to the first NUL, whatever
follows, and the user LED is left by the last message that counts as a command (`commands_leds`).
-/
import ZephyrSamples.Mqtt.Payload

namespace ZephyrSamples.Mqtt

open ZephyrSamples.Lib.CString

/-- A PUBLISH on the command topic whose payload leaves room for the terminator and is there to be read at
once, with what stands on the stack when it comes in. -/
structure CommandMsg where
  msg : PublishMsg
  stack : Memory
  ready : Nat
  fits : msg.payload.length < mqttPayloadSize
  complete : msg.payload.length ≤ ready + 1
  routed : strcmp msg.topicUtf8 mqttSubTopicCmd = 0

/-- The library has decoded the header and calls back. -/
def handleCommand (c : Client) (m : CommandMsg) : Client :=
  (onMqttPublishOn m.stack { c with unread := m.msg.payload } m.msg (.ready m.ready)).1

def handleCommands (c : Client) (ms : List CommandMsg) : Client := ms.foldl handleCommand c

/-- The bytes of the message. -/
def CommandMsg.bytes (m : CommandMsg) : List UInt8 := m.msg.payload

/-- The bytes up to the first NUL. -/
def CommandMsg.text (m : CommandMsg) : List UInt8 := m.msg.payload.takeWhile (· != 0)

/-! ## What the commands mean -/

/-- The state a command sets the user LED to. -/
def commandState (command : List UInt8) : Option LedState :=
  if command = ascii "led_on" then some .ledOn
  else if command = ascii "led_off" then some .ledOff
  else none

/-- The state the last of the commands sets, or the initial one. -/
def lastState (commands : List (List UInt8)) (initial : Option LedState) : Option LedState :=
  (commands.filterMap commandState).getLast?.or initial

/-- After the messages the user LED shows the last command, with `command` telling which command a message
is, and the network LED is as it was. -/
def ShowsLast (command : CommandMsg → List UInt8) (c : Client) (ms : List CommandMsg) : Prop :=
  (handleCommands c ms).leds = ⟨c.leds.net, lastState (ms.map command) c.leds.user⟩

theorem lastState_cons (command : List UInt8) (commands : List (List UInt8))
    (initial : Option LedState) :
    lastState (command :: commands) initial =
      lastState commands ((commandState command).or initial) := by
  unfold lastState
  cases hstate : commandState command with
  | none => simp [hstate]
  | some state =>
      rw [List.filterMap_cons_some hstate, List.getLast?_cons]
      cases (commands.filterMap commandState).getLast? <;> rfl

/-! ## One message -/

/-- The table is searched for the string at the pointer. -/
theorem deviceCommandHandler_eq {m : Memory} {str : List UInt8} (h : Reads m str) (leds : Leds) :
    deviceCommandHandler m leds = ⟨leds.net, (commandState str).or leds.user⟩ := by
  have hsees (lit : List UInt8) (hlit : 0 ∉ lit) : strcmp m lit = 0 ↔ str = lit := by
    rw [strcmp_eq_zero_iff, h.isString_iff hlit, eq_comm]
  have hon := hsees (ascii "led_on") (by decide)
  have hoff := hsees (ascii "led_off") (by decide)
  simp only [deviceCommandHandler, deviceCommands, dispatchCommand, commandState, hon, hoff]
  split_ifs
  · rfl
  · rfl
  · rfl

theorem handleCommand_leds (c : Client) (m : CommandMsg) :
    (handleCommand c m).leds = ⟨c.leds.net, (commandState m.text).or c.leds.user⟩ := by
  have hall : m.msg.payload.take (min (m.ready + 1) mqttPayloadSize) = m.msg.payload := by
    apply List.take_of_length_le
    have hfits := m.fits
    have hcomplete := m.complete
    omega
  have hread : bytesRead { c with unread := m.msg.payload } (.ready m.ready) = m.msg.payload := hall
  unfold handleCommand
  rw [onMqttPublishOn_ready _ _ _ _ hread, onMqttPublish_ready _ _ _ hall]
  simp only [m.routed, if_true]
  rw [callCommandHandler_eq m.stack]
  exact deviceCommandHandler_eq (isString_blit_set m.stack m.msg.payload).reads c.leds

/-! ## Sequences of messages -/

/-- **Commands.** After every sequence of command messages the user LED is in the state set by the last
message whose bytes up to the first NUL are a command, or as it was if there is none, and the network LED
is as it was. -/
theorem commands_leds (c : Client) (ms : List CommandMsg) : ShowsLast CommandMsg.text c ms := by
  unfold ShowsLast
  induction ms generalizing c with
  | nil => rfl
  | cons m ms ih =>
      have hfirst := handleCommand_leds c m
      show (handleCommands (handleCommand c m) ms).leds = _
      rw [ih, hfirst, List.map_cons, lastState_cons]

/-- `led_on`, a NUL and one byte more. -/
def nulCommand : CommandMsg where
  msg := ⟨mqttSubTopicCmd, .atMostOnce, 0, fun _ => 0, ascii "led_on" ++ [0, 120]⟩
  stack := fun _ => 0
  ready := 7
  fits := by decide
  complete := by decide
  routed := by decide

/-- It is not the command byte for byte, and switches the LED on. -/
theorem nulCommand_switches : ¬ ShowsLast CommandMsg.bytes Client.boot [nulCommand] := by
  have hon : (handleCommands Client.boot [nulCommand]).leds.user = some .ledOn := by
    show (handleCommand Client.boot nulCommand).leds.user = _
    rw [handleCommand_leds]
    decide
  intro h
  rw [h] at hon
  revert hon
  decide

end ZephyrSamples.Mqtt
