/-
# ZephyrSamples.Mqtt.Process -- receiving, keep-alive and the connection attempt

The receiving half of `mqtt_client.c`: `poll_mqtt_socket`, `app_mqtt_process` with the loop of
`app_mqtt_run` around it, and one pass of the loop of `app_mqtt_connect`. Each function takes the
outcomes of the library and socket calls it makes.

`app_mqtt_process` is cut at its library calls: `processCall` decides from the poll which call
follows, `processInputRc` and `processLiveRc` turn that call's result into the return value. The
pieces are what an interleaving with another thread needs; `appMqttProcess` puts them together.
-/
import ZephyrSamples.Mqtt.Client

namespace ZephyrSamples.Mqtt

/-! ## The socket -/

/-- How one `poll` on one descriptor ends. -/
inductive PollOutcome where
  | failed (err : Nat)
  | timeout
  | ready (r : Revents)
  deriving DecidableEq, Repr

/-- `prepare_fds`: one descriptor, waiting for input. -/
def prepareFds (c : Client) : Client := { c with nfds := 1 }

/-- `poll(fds, nfds, timeout)`. A failing poll leaves `revents` as an earlier one wrote it. -/
def poll (c : Client) (timeout : Int) : PollOutcome → Client × Int
  | .failed err => (c, -(err + 1 : Nat))
  | .timeout => ({ c with revents := .none }.emit (.pollTimedOut timeout), 0)
  | .ready r => ({ c with revents := r }, 1)

/-- `poll_mqtt_socket` -/
def pollMqttSocket (c : Client) (timeout : Int) (o : PollOutcome) : Client × Int :=
  let c := prepareFds c
  if c.nfds ≤ 0 then (c, -EINVAL) else poll c timeout o

@[simp] theorem pollMqttSocket_eq (c : Client) (timeout : Int) (o : PollOutcome) :
    pollMqttSocket c timeout o = poll (prepareFds c) timeout o := rfl

/-! ## `mqtt_input` and `mqtt_live` -/

/-- What one `mqtt_input` on an open transport comes to: no complete packet yet, a packet, or a
failure, which may follow a packet event (a refused CONNACK) and may give the connection up. -/
inductive InputOutcome where
  | incomplete
  | packet (p : RxPacket) (n : Nested)
  | failed (p : Option (RxPacket × Nested)) (err : Nat) (closes : Bool)

def PacketKind.isPublish : PacketKind → Bool
  | .subscribe => false
  | .publish _ => true

/-- An acknowledgement takes its packet out of flight. -/
def retire (c : Client) : RxPacket → Client
  | .puback _ id => { c with inFlight := c.inFlight.eraseP fun p => p.kind.isPublish && p.id == id }
  | .suback _ id => { c with inFlight := c.inFlight.eraseP fun p => !p.kind.isPublish && p.id == id }
  | _ => c

/-- A PUBLISH leaves its payload on the stream for `mqtt_read_publish_payload`. -/
def stage (c : Client) : RxPacket → Client
  | .publish m => { c with unread := m.payload }
  | _ => c

/-- The library decodes a packet and calls `mqtt_event_handler`. -/
def receivePacket (c : Client) (p : RxPacket) (n : Nested) : Client :=
  mqttEventHandler (stage (retire c p) p) n (.packet p)

/-- `mqtt_input`. It refuses to read while payload bytes of the last PUBLISH are unread. -/
def mqttInput (c : Client) (o : InputOutcome) : Client × Int :=
  let c := c.emit .mqttInput
  if !c.transportOpen then (c, -ENOTCONN)
  else if c.unread ≠ [] then (c, -EBUSY)
  else match o with
    | .incomplete => (c, 0)
    | .packet p n => (receivePacket c p n, 0)
    | .failed p err closes =>
        let c := match p with
          | none => c
          | some (p, n) => receivePacket c p n
        (if closes then dropTransport c else c, -(err + 1 : Nat))

/-- The library's bookkeeping before the callback is made of moves. -/
theorem moves_stage_retire (c : Client) (p : RxPacket) : Moves c (stage (retire c p) p) := by
  cases p with
  | puback _ _ | suback _ _ => exact .single (.retire List.eraseP_sublist)
  | publish m => exact .single (.read m.payload)
  | connack _ | pingresp | pubrec _ _ | pubrel _ _ | pubcomp _ _ => exact .refl

/-- A received packet is a CONNACK or a number of moves. -/
theorem receivePacket_cases (c : Client) (p : RxPacket) (n : Nested) :
    Moves c (receivePacket c p n) ∨ ∃ result, receivePacket c p n = connackEvent c result := by
  by_cases hp : ∃ result, p = .connack result
  · obtain ⟨result, rfl⟩ := hp
    exact Or.inr ⟨result, rfl⟩
  · refine Or.inl ((moves_stage_retire c p).trans (moves_mqttEventHandler _ n ?_))
    intro result heq
    exact hp ⟨result, heq⟩

/-- **What `mqtt_input` can do.** Behind its own entry in the history come moves; on an open transport
a CONNACK event may come first. -/
theorem mqttInput_cases (c : Client) (o : InputOutcome) :
    Moves (c.emit .mqttInput) (mqttInput c o).1 ∨ (c.transportOpen = true ∧
      ∃ result, Moves (connackEvent (c.emit .mqttInput) result) (mqttInput c o).1) := by
  simp only [mqttInput]
  split_ifs with hclosed
  · exact Or.inl .refl
  · exact Or.inl .refl
  · have hopen : c.transportOpen = true := by simpa using hclosed
    cases o with
    | incomplete => exact Or.inl .refl
    | packet p n =>
        rcases receivePacket_cases (c.emit .mqttInput) p n with h | ⟨result, h⟩
        · exact Or.inl h
        · exact Or.inr ⟨hopen, result, by dsimp only; rw [h]⟩
    | failed p err closes =>
        have hdrop (c' : Client) : Moves c' (if closes then dropTransport c' else c') := by
          split_ifs
          · exact moves_dropTransport c'
          · exact .refl
        cases p with
        | none => exact Or.inl (hdrop _)
        | some p =>
            rcases receivePacket_cases (c.emit .mqttInput) p.1 p.2 with h | ⟨result, h⟩
            · exact Or.inl (h.trans (hdrop _))
            · exact Or.inr ⟨hopen, result, h ▸ hdrop _⟩

/-- `mqtt_input` leaves poll flags, packet counter and JSON buffer alone. -/
theorem mqttInput_statics (c : Client) (o : InputOutcome) : (mqttInput c o).1.statics = c.statics := by
  rcases mqttInput_cases c o with h | ⟨-, result, h⟩
  · exact h.statics
  · rw [h.statics, connackEvent_statics]
    rfl

@[simp] theorem mqttInput_revents (c : Client) (o : InputOutcome) :
    (mqttInput c o).1.revents = c.revents := congrArg Prod.fst (mqttInput_statics c o)

/-- The calls and events that come from inside `mqtt_event_handler`. -/
def Act.ByCallback (a : Act) : Prop := a.IsNote ∨ a = .disconnectEvt ∨ ∃ result, a = .connackEvt result

/-- Behind its own call `mqtt_input` adds only what the callbacks add. -/
theorem grows_mqttInput (c : Client) (o : InputOutcome) :
    Grows Act.ByCallback (c.emit .mqttInput) (mqttInput c o).1 := by
  have hnote : ∀ a, (a.IsNote ∨ a = .disconnectEvt) → Act.ByCallback a := by
    rintro a (ha | ha)
    · exact Or.inl ha
    · exact Or.inr (Or.inl ha)
  rcases mqttInput_cases c o with h | ⟨-, result, h⟩
  · exact h.grows.mono hnote
  · refine ((grows_connackEvent _ result).mono ?_).trans (h.grows.mono hnote)
    rintro a rfl
    exact Or.inr (Or.inr ⟨result, rfl⟩)

/-- On an open transport with no payload left over, a complete packet reaches the callback. -/
theorem mqttInput_packet {c : Client} (hopen : c.transportOpen = true) (hunread : c.unread = [])
    (p : RxPacket) (n : Nested) :
    mqttInput c (.packet p n) = (receivePacket (c.emit .mqttInput) p n, 0) := by
  simp [mqttInput, hopen, hunread]

/-- How `mqtt_live` ends: the keep-alive period is not over, or a PINGREQ is due. -/
inductive LiveOutcome where
  | notYet
  | ping (o : CallOutcome)
  deriving DecidableEq, Repr

/-- `mqtt_live` -/
def mqttLive (c : Client) : LiveOutcome → Client × Int
  | .notYet => (c.emit .mqttLive, -EAGAIN)
  | .ping o => libCall (c.emit .mqttLive) o

/-- Behind its own call `mqtt_live` adds at most a DISCONNECT event. -/
theorem grows_mqttLive (c : Client) (o : LiveOutcome) :
    Grows (· = .disconnectEvt) (c.emit .mqttLive) (mqttLive c o).1 := by
  cases o with
  | notYet => exact .refl _
  | ping o => exact grows_libCall _ o

/-! ## `app_mqtt_process` -/

/-- The library call that follows the poll. -/
inductive ProcessCall where
  | input
  | live
  | none
  deriving DecidableEq, Repr

def processCall (rc : Int) (revents : Revents) : ProcessCall :=
  if rc ≠ 0 then
    if revents.pollin then .input else .none
  else .live

/-- The return value after `mqtt_input` returned `rc`. -/
def processInputRc (rc : Int) (revents : Revents) : Int :=
  if rc ≠ 0 then rc
  else if revents.pollhup || revents.pollerr then -ENOTCONN
  else 0

/-- The return value after `mqtt_live` returned `rc`. -/
def processLiveRc (rc : Int) : Int := if rc ≠ 0 then rc else 0

theorem processInputRc_eq_zero_iff {rc : Int} {revents : Revents} :
    processInputRc rc revents = 0 ↔ rc = 0 ∧ (revents.pollhup || revents.pollerr) = false := by
  unfold processInputRc
  split_ifs with hrc hsocket
  · simp [hrc]
  · simp [ENOTCONN, hsocket]
  · exact iff_of_true rfl ⟨not_not.mp hrc, Bool.eq_false_iff.mpr hsocket⟩

theorem processLiveRc_eq_zero_iff {rc : Int} : processLiveRc rc = 0 ↔ rc = 0 := by
  simp [processLiveRc]

/-- What one call of `app_mqtt_process` meets. -/
structure ProcessEnv where
  /-- `mqtt_keepalive_time_left(client)` -/
  timeLeft : Int
  poll : PollOutcome
  input : InputOutcome
  live : LiveOutcome

/-- `app_mqtt_process` -/
def appMqttProcess (c : Client) (e : ProcessEnv) : Client × Int :=
  let (c, rc) := pollMqttSocket c e.timeLeft e.poll
  match processCall rc c.revents with
  | .input =>
      let (c, rc) := mqttInput c e.input
      (c, processInputRc rc c.revents)
  | .live =>
      let (c, rc) := mqttLive c e.live
      (c, processLiveRc rc)
  | .none => (c, 0)

/-- The client when the poll of `app_mqtt_process` has returned. -/
def Client.polled (c : Client) (e : ProcessEnv) : Client := (pollMqttSocket c e.timeLeft e.poll).1

/-- A poll adds a timeout to the history or nothing. -/
theorem grows_polled (c : Client) (e : ProcessEnv) :
    Grows (· = .pollTimedOut e.timeLeft) c (c.polled e) := by
  unfold Client.polled
  cases hp : e.poll with
  | failed err => exact .of_log_eq rfl
  | timeout => exact .of_cons rfl rfl
  | ready r => exact .of_log_eq rfl

/-- A poll that reports input makes `app_mqtt_process` a call of `mqtt_input`. -/
theorem appMqttProcess_pollin (c : Client) {e : ProcessEnv} {r : Revents} (hp : e.poll = .ready r)
    (hin : r.pollin = true) :
    appMqttProcess c e = ((mqttInput (c.polled e) e.input).1,
      processInputRc (mqttInput (c.polled e) e.input).2 r) := by
  have hrev : (c.polled e).revents = r := by simp [Client.polled, hp, poll]
  simp [appMqttProcess, Client.polled, hp, poll, processCall, hin]

/-- A poll that times out makes it a call of `mqtt_live`. -/
theorem appMqttProcess_timeout (c : Client) {e : ProcessEnv} (hp : e.poll = .timeout) :
    appMqttProcess c e = ((mqttLive (c.polled e) e.live).1,
      processLiveRc (mqttLive (c.polled e) e.live).2) := by
  simp [appMqttProcess, Client.polled, hp, poll, processCall]

/-- Where the loop of `app_mqtt_run` stands when `app_mqtt_process` has returned. -/
inductive RunNext where
  | again
  | leave
  deriving DecidableEq, Repr

/-- `if (rc != 0) break;` -/
def afterProcess (rc : Int) : RunNext := if rc ≠ 0 then .leave else .again

/-! ## One pass of `app_mqtt_connect` -/

/-- `mqtt_connect`: success opens the transport, failure leaves it closed. -/
def mqttConnect (c : Client) (rc : Int) : Client × Int :=
  ({ c with transportOpen := rc == 0, unread := [], inFlight := [] }.emit .mqttConnect, rc)

/-- `mqtt_abort` -/
def mqttAbort (c : Client) : Client := dropTransport (c.emit .mqttAbort)

/-- `mqtt_disconnect`. On an open transport it closes it, whether or not the DISCONNECT packet could
be sent. -/
def mqttDisconnect (c : Client) : Client := dropTransport (c.emit .mqttDisconnect)

/-- What one pass of the loop of `app_mqtt_connect` meets. -/
structure AttemptEnv where
  connect : Int
  poll : PollOutcome
  input : InputOutcome

/-- The body of `while (!mqtt_connected)` in `app_mqtt_connect`. -/
def connectAttempt (c : Client) (e : AttemptEnv) : Client :=
  let (c, rc) := mqttConnect c e.connect
  if rc ≠ 0 then c.emit (.kMsleep msecsWaitReconnect)
  else
    let (c, rc) := pollMqttSocket c msecsNetPollTimeout e.poll
    let c := if rc > 0 then (mqttInput c e.input).1 else c
    if !c.mqttConnected then mqttAbort c else c

end ZephyrSamples.Mqtt
