/-
# ZephyrSamples.Mqtt.Device -- `device.c`: LEDs, commands and the sensor

The LEDs are what was last written to them through `device_write_led`; whether a real LED driver is
behind the call (`leds != NULL`) changes only who receives the write. `device_command_handler`
compares the command string with a table by `strcmp` and runs the first handler that matches.
`device_read_sensor` fills its out-parameter on the success paths only, so it is a function into
`Except`: the error is the non-zero return code.
-/
import ZephyrSamples.Lib.CString
import ZephyrSamples.Mqtt.Config

namespace ZephyrSamples.Mqtt

open ZephyrSamples.Lib.CString

/-! ## LEDs -/

inductive LedId where
  | ledNet
  | ledUser
  deriving DecidableEq, Repr

inductive LedState where
  | ledOff
  | ledOn
  deriving DecidableEq, Repr

/-- The state last written to each LED, `none` before the first write. -/
structure Leds where
  net : Option LedState
  user : Option LedState
  deriving DecidableEq, Repr

/-- `device_write_led`. Its return value is never set on these paths and no caller reads it. -/
def deviceWriteLed (leds : Leds) : LedId → LedState → Leds
  | .ledNet, state => { leds with net := some state }
  | .ledUser, state => { leds with user := some state }

@[simp] theorem deviceWriteLed_net_net (leds : Leds) (state : LedState) :
    (deviceWriteLed leds .ledNet state).net = some state := rfl

@[simp] theorem deviceWriteLed_user_net (leds : Leds) (state : LedState) :
    (deviceWriteLed leds .ledUser state).net = leds.net := rfl

/-! ## Commands -/

def ledOnHandler (leds : Leds) : Leds := deviceWriteLed leds .ledUser .ledOn
def ledOffHandler (leds : Leds) : Leds := deviceWriteLed leds .ledUser .ledOff

structure DeviceCmd where
  command : List UInt8
  handler : Leds → Leds

def deviceCommands : List DeviceCmd :=
  [⟨ascii "led_on", ledOnHandler⟩, ⟨ascii "led_off", ledOffHandler⟩]

/-- The `for` loop of `device_command_handler` over the commands that are left. -/
def dispatchCommand (command : Memory) (leds : Leds) : List DeviceCmd → Leds
  | [] => leds
  | d :: ds => if strcmp command d.command = 0 then d.handler leds
      else dispatchCommand command leds ds

def deviceCommandHandler (command : Memory) (leds : Leds) : Leds :=
  dispatchCommand command leds deviceCommands

/-- A command table whose handlers spare the network LED spares it whatever the command. -/
theorem dispatchCommand_net {command : Memory} {leds : Leds} {cmds : List DeviceCmd}
    (h : ∀ d ∈ cmds, (d.handler leds).net = leds.net) :
    (dispatchCommand command leds cmds).net = leds.net := by
  induction cmds with
  | nil => rfl
  | cons d ds ih =>
      simp only [dispatchCommand]
      split
      · exact h d List.mem_cons_self
      · exact ih fun d' hd => h d' (List.mem_cons_of_mem d hd)

/-- No command touches the network LED. -/
@[simp] theorem deviceCommandHandler_net (command : Memory) (leds : Leds) :
    (deviceCommandHandler command leds).net = leds.net := by
  apply dispatchCommand_net
  simp [deviceCommands, ledOnHandler, ledOffHandler]

/-! ## The sensor -/

structure SensorSample where
  unit : List UInt8
  value : Int
  deriving DecidableEq, Repr

/-- Zephyr's fixed-point reading: `val1` units and `val2` millionths. -/
structure SensorValue where
  val1 : Int
  val2 : Int
  deriving DecidableEq, Repr

def sensorUnit : List UInt8 := ascii "Celsius"

/-- `sensor_value_to_double` stored into the `int` field of the sample: C truncates towards zero. -/
def SensorValue.toSample (v : SensorValue) : Int := (v.val1 * 1000000 + v.val2).tdiv 1000000

/-- What the sensor driver answers during one call of `device_read_sensor`. -/
structure SensorEnv where
  /-- `sensor != NULL` -/
  present : Bool
  /-- `sys_rand32_get()` -/
  rand : UInt32
  /-- `sensor_sample_fetch` -/
  fetch : Int
  /-- `sensor_channel_get` -/
  get : Int
  /-- the value `sensor_channel_get` stores -/
  sensorVal : SensorValue
  deriving DecidableEq, Repr

def deviceReadSensor (e : SensorEnv) : Except Int SensorSample :=
  -- without a sensor the sample is a random value from 20 to 25
  if !e.present then .ok ⟨sensorUnit, 20 + (e.rand.toNat * 5 / 4294967295 : Nat)⟩
  else if e.fetch ≠ 0 then .error e.fetch
  else if e.get ≠ 0 then .error e.get
  else .ok ⟨sensorUnit, e.sensorVal.toSample⟩

/-- A failing `device_read_sensor` returns a non-zero code. -/
theorem deviceReadSensor_error {e : SensorEnv} {rc : Int} (h : deviceReadSensor e = .error rc) :
    rc ≠ 0 := by
  simp only [deviceReadSensor] at h
  split_ifs at h with hp hf hg
  · exact Except.error.inj h ▸ hf
  · exact Except.error.inj h ▸ hg

end ZephyrSamples.Mqtt
