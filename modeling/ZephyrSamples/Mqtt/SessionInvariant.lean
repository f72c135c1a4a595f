/-
# ZephyrSamples.Mqtt.SessionInvariant -- the flag, the LED and the transport

Three callers write `mqtt_connected`: `app_mqtt_connect`, the CONNACK callback and the DISCONNECT
callback, and the last may run inside the publisher's failing `mqtt_publish`. What all of them touch
is the `Link` of a client. A call that raises no CONNACK either leaves the link as it is or drops an
open one (`Quiet`), and both survive everything that is asked of a link at any program point of
`main` (`Link.At`). The one call that raises the flag, `mqtt_input`, is treated where `main` makes it.

`session_invariant`: in every reachable state of the two threads the flag is up exactly if the network
LED is lit, it is up only on an open transport, `mqtt_connect` meets a closed one, and
`app_mqtt_connect` leaves its loop on an accepted CONNACK of this call.
-/
import ZephyrSamples.Mqtt.Session

namespace ZephyrSamples.Mqtt

open ZephyrSamples.Lib

/-! ## The link -/

/-- The events that tell one session from the next: the outcome of a connection attempt, its loss,
and the entry of `app_mqtt_connect`. -/
def Act.isMark : Act → Bool
  | .connackEvt _ | .disconnectEvt | .enterConnect => true
  | _ => false

/-- What the connection callbacks read and write. -/
structure Link where
  connected : Bool
  net : Option LedState
  isOpen : Bool
  /-- the latest mark in the history -/
  mark : Option Act
  deriving DecidableEq, Repr

def Client.link (c : Client) : Link :=
  ⟨c.mqttConnected, c.leds.net, c.transportOpen, c.log.find? Act.isMark⟩

/-- The link after a DISCONNECT event. -/
def Link.dropped : Link := ⟨false, some .ledOff, false, some .disconnectEvt⟩

/-- The link is as it was, or it was open and has been dropped. -/
def Quiet (c c' : Client) : Prop :=
  c'.link = c.link ∨ (c.transportOpen = true ∧ c'.link = .dropped)

theorem Quiet.of_link_eq {c c' : Client} (h : c'.link = c.link) : Quiet c c' := Or.inl h

theorem Quiet.refl (c : Client) : Quiet c c := .of_link_eq rfl

theorem Quiet.trans {c c' c'' : Client} (h : Quiet c c') (h' : Quiet c' c'') : Quiet c c'' := by
  rcases h with heq | ⟨hopen, hdrop⟩
  · rcases h' with heq' | ⟨hopen', hdrop'⟩
    · exact Or.inl (heq'.trans heq)
    · have hsame : c'.transportOpen = c.transportOpen := congrArg Link.isOpen heq
      exact Or.inr ⟨hsame ▸ hopen', hdrop'⟩
  · rcases h' with heq' | ⟨hopen', -⟩
    · exact Or.inr ⟨hopen, heq'.trans hdrop⟩
    · -- a dropped link is closed: it cannot be dropped again
      have hclosed : c'.transportOpen = false := congrArg Link.isOpen hdrop
      rw [hclosed] at hopen'
      cases hopen'

/-- A quiet step does not raise the flag. -/
theorem Quiet.connected {c c' : Client} (h : Quiet c c') (hup : c'.mqttConnected = true) :
    c.mqttConnected = true := by
  rcases h with heq | ⟨-, hdrop⟩
  · exact (congrArg Link.connected heq).symm.trans hup
  · have hdown : c'.mqttConnected = false := congrArg Link.connected hdrop
    rw [hdown] at hup
    cases hup

theorem Quiet.disconnected {c c' : Client} (h : Quiet c c') (hdown : c.mqttConnected = false) :
    c'.mqttConnected = false :=
  Bool.eq_false_iff.mpr (mt h.connected (Bool.eq_false_iff.mp hdown))

theorem link_emit (c : Client) {a : Act} (ha : a.isMark = false) : (c.emit a).link = c.link := by
  simp [Client.link, Client.emit, ha]

theorem link_dropTransport {c : Client} (h : c.transportOpen = true) :
    (dropTransport c).link = .dropped := by
  simp [dropTransport, h, Client.link, Link.dropped, onMqttDisconnect, clearFds, Client.emit,
    Act.isMark]

theorem Act.IsNote.isMark {a : Act} (ha : a.IsNote) : a.isMark = false := by
  cases a <;> first | rfl | exact ha.elim

theorem quiet_dropTransport (c : Client) : Quiet c (dropTransport c) := by
  cases h : c.transportOpen with
  | true => exact Or.inr ⟨h, link_dropTransport h⟩
  | false => exact .of_link_eq (by rw [dropTransport_closed h])

theorem Move.quiet {c c' : Client} (h : Move c c') : Quiet c c' := by
  cases h with
  | drop _ => exact quiet_dropTransport c
  | note ha => exact .of_link_eq (link_emit c ha.isMark)
  | read _ | retire _ => exact .of_link_eq rfl
  | command hnet => exact .of_link_eq (by simp [Client.link, hnet])

theorem Moves.quiet {c c' : Client} (h : Moves c c') : Quiet c c' := by
  induction h with
  | refl => exact .refl c
  | tail _ hmove ih => exact ih.trans hmove.quiet

/-! ## The calls of the two threads -/

section Calls

variable (c : Client)

theorem quiet_emit {a : Act} (ha : a.isMark = false) : Quiet c (c.emit a) :=
  .of_link_eq (link_emit c ha)

theorem quiet_transmit (p : Packet) : Quiet c (transmit c p) :=
  .of_link_eq (link_emit { c with inFlight := p :: c.inFlight } rfl)

theorem quiet_mqttPublish (param : PublishParam) (o : CallOutcome) :
    Quiet c (mqttPublish c param o).1 := by
  refine (quiet_emit c (a := .mqttPublish param) rfl).trans ?_
  simp only [mqttPublish]
  split_ifs
  · exact .refl _
  · exact .refl _
  · exact quiet_transmit _ _
  · exact .refl _
  · exact quiet_dropTransport _
  · exact .refl _

theorem quiet_mqttSubscribe (param : SubscribeParam) (o : CallOutcome) :
    Quiet c (mqttSubscribe c param o).1 := by
  refine (quiet_emit c (a := .mqttSubscribe param) rfl).trans ?_
  simp only [mqttSubscribe]
  split_ifs
  · exact .refl _
  · exact quiet_transmit _ _
  · exact quiet_dropTransport _
  · exact .refl _

theorem quiet_getMqttPayload (e : PublishEnv) : Quiet c (getMqttPayload c e).1 := by
  obtain ⟨buf, h⟩ := getMqttPayload_client c e
  exact .of_link_eq (by rw [h]; rfl)

theorem quiet_appMqttPublish (qos : QoS) (e : PublishEnv) : Quiet c (appMqttPublish qos c e).1 := by
  refine (quiet_getMqttPayload c e).trans ?_
  have hcount : Quiet (getMqttPayload c e).1
      { (getMqttPayload c e).1 with msgId := (getMqttPayload c e).1.msgId + 1 } := .of_link_eq rfl
  exact hcount.trans (quiet_mqttPublish _ _ e.publish)

theorem quiet_poll (timeout : Int) (o : PollOutcome) : Quiet c (pollMqttSocket c timeout o).1 := by
  rw [pollMqttSocket_eq]
  cases o with
  | failed err => exact .of_link_eq rfl
  | timeout => exact quiet_emit { prepareFds c with revents := .none } rfl
  | ready r => exact .of_link_eq rfl

theorem quiet_mqttLive (o : LiveOutcome) : Quiet c (mqttLive c o).1 := by
  refine (quiet_emit c (a := .mqttLive) rfl).trans ?_
  cases o with
  | notYet => exact .refl _
  | ping o => exact (moves_libCall _ o).quiet

/-- The CONNACK callback on the link. -/
theorem link_connackEvent (result : Int) :
    (connackEvent c result).link =
      if result ≠ 0 then { c.link with mark := some (.connackEvt result) }
      else ⟨true, some .ledOn, c.transportOpen, some (.connackEvt 0)⟩ := by
  simp only [connackEvent]
  split_ifs with hresult
  · simp [Client.link, Client.emit, Act.isMark]
  · obtain rfl : result = 0 := not_not.mp hresult
    simp [Client.link, onMqttConnect, Client.emit, Act.isMark]

/-- `mqtt_input` is quiet, or a CONNACK came in on an open transport and quiet steps followed. -/
theorem mqttInput_link_cases (o : InputOutcome) :
    Quiet c (mqttInput c o).1 ∨ (c.transportOpen = true ∧
      ∃ result, Quiet (connackEvent (c.emit .mqttInput) result) (mqttInput c o).1) := by
  rcases mqttInput_cases c o with h | ⟨hopen, result, h⟩
  · exact Or.inl ((quiet_emit c rfl).trans h.quiet)
  · exact Or.inr ⟨hopen, result, h.quiet⟩

end Calls

/-! ## The invariant -/

/-- What holds of the link wherever `main` stands: the LED shows the flag, and the flag needs an open
transport. -/
structure Link.Ok (l : Link) : Prop where
  led : l.connected = true ↔ l.net = some .ledOn
  live : l.connected = true → l.isOpen = true

/-- What `main` may rely on at each point. A transport is opened by `connectCall` only, and from
there on `main` closes it or sees the flag raised before it calls `mqtt_connect` again. -/
def Link.At (l : Link) : MainPc → Prop
  | .connectEntry | .connectCall | .connectSleep => l.isOpen = false
  | .connectWhile => (l.isOpen = true → l.connected = true) ∧
      (l.connected = true → l.mark = some (.connackEvt 0))
  | .connectPoll | .connectInput | .connectAbort => l.connected = false
  | .connectTest => l.connected = true → l.mark = some (.connackEvt 0)
  | .reschedule | .subscribe | .runWhile | .processPoll | .processInput | .processLive =>
      l.isOpen = true → l.connected = true
  | .disconnect => True

theorem Link.dropped_ok : Link.dropped.Ok := ⟨by decide, by decide⟩

/-- A dropped link is in order at every point. -/
theorem Link.dropped_at (pc : MainPc) : Link.dropped.At pc := by
  cases pc <;> simp [Link.At, Link.dropped]

theorem Link.Ok.quiet {c c' : Client} (h : c.link.Ok) (hq : Quiet c c') : c'.link.Ok := by
  rcases hq with heq | ⟨-, hdrop⟩
  · exact heq ▸ h
  · exact hdrop ▸ Link.dropped_ok

theorem Link.At.quiet {c c' : Client} {pc : MainPc} (h : c.link.At pc) (hq : Quiet c c') :
    c'.link.At pc := by
  rcases hq with heq | ⟨-, hdrop⟩
  · exact heq ▸ h
  · exact hdrop ▸ Link.dropped_at pc

/-- A CONNACK on an open transport leaves flag and LED in step. -/
theorem Link.Ok.connack {c : Client} (h : c.link.Ok) (hopen : c.transportOpen = true)
    (result : Int) : (connackEvent (c.emit .mqttInput) result).link.Ok := by
  rw [link_connackEvent, link_emit c rfl]
  split_ifs
  · exact ⟨h.led, h.live⟩
  · exact ⟨by simp, fun _ => hopen⟩

theorem Link.Ok.input {c : Client} (h : c.link.Ok) (o : InputOutcome) :
    (mqttInput c o).1.link.Ok := by
  rcases mqttInput_link_cases c o with hq | ⟨hopen, result, hq⟩
  · exact h.quiet hq
  · -- the CONNACK first, then what followed it, which may have dropped the link again
    exact (h.connack hopen result).quiet hq

/-- Inside a session the flag is up already, so a further CONNACK changes nothing that matters. -/
theorem Link.At.input_run {c : Client} (h : c.link.At .processInput) (o : InputOutcome) :
    (mqttInput c o).1.link.At .processInput := by
  rcases mqttInput_link_cases c o with hq | ⟨hopen, result, hq⟩
  · exact h.quiet hq
  · refine Link.At.quiet ?_ hq
    rw [link_connackEvent, link_emit c rfl]
    split_ifs
    · exact h
    · exact fun _ => rfl

/-- Inside an attempt the flag can only have been raised by the CONNACK just received. -/
theorem Link.At.input_connect {c : Client} (h : c.link.At .connectInput) (o : InputOutcome) :
    (mqttInput c o).1.link.At .connectTest := by
  have hdown : ∀ l : Link, l.connected = false → l.At .connectTest := by
    intro l hl hup
    rw [hl] at hup
    cases hup
  rcases mqttInput_link_cases c o with hq | ⟨hopen, result, hq⟩
  · exact (hdown _ h).quiet hq
  · refine Link.At.quiet ?_ hq
    rw [link_connackEvent, link_emit c rfl]
    split_ifs
    · exact hdown _ h
    · exact fun _ => rfl

structure SessionInv (s : Session) : Prop where
  ok : s.client.link.Ok
  point : s.client.link.At s.main

theorem SessionInv.boot : SessionInv Session.boot := ⟨⟨by decide, by decide⟩, rfl⟩

/-- Without a transport nothing is connected. -/
theorem Link.Ok.not_connected {l : Link} (h : l.Ok) (hclosed : l.isOpen = false) :
    l.connected = false := by
  cases hup : l.connected with
  | false => rfl
  | true => rw [h.live hup] at hclosed; cases hclosed

/-- A closed link is in order where the loop of `app_mqtt_connect` is tested. -/
theorem Link.Ok.connectWhile {l : Link} (h : l.Ok) (hclosed : l.isOpen = false) :
    l.At .connectWhile := by
  refine ⟨fun hopen => ?_, fun hup => ?_⟩
  · rw [hclosed] at hopen
    cases hopen
  · rw [h.not_connected hclosed] at hup
    cases hup

/-- Wherever a session goes from inside `app_mqtt_process`, it keeps what it relies on. -/
theorem Link.At.run {l : Link} (h : l.isOpen = true → l.connected = true) (next : RunNext) :
    l.At next.pc := by
  cases next with
  | again => exact h
  | leave => trivial

theorem Link.At.process {l : Link} (h : l.isOpen = true → l.connected = true) (call : ProcessCall) :
    l.At call.pc := by
  cases call with
  | input => exact h
  | live => exact h
  | none => exact Link.At.run h (afterProcess 0)

/-- **Step.** `main` keeps the invariant. -/
theorem SessionInv.main_step {s : Session} (h : SessionInv s) (qos : QoS) (e : Env) :
    SessionInv (mainStep qos e s) := by
  obtain ⟨c, pc, worker, pending⟩ := s
  obtain ⟨hok, hat⟩ := h
  dsimp only at hok hat
  cases pc with
  | connectEntry =>
      -- the flag is down already: the assignment leaves the LED behind in no case
      have hdown : c.mqttConnected = false := hok.not_connected hat
      have hlink : ({ c with mqttConnected := false }.emit .enterConnect).link =
          { c.link with mark := some .enterConnect } := by
        simp [Client.link, Client.emit, Act.isMark, hdown]
      have hok' : ({ c with mqttConnected := false }.emit .enterConnect).link.Ok := by
        rw [hlink]
        exact ⟨hok.led, hok.live⟩
      exact ⟨hok', hok'.connectWhile hat⟩
  | connectWhile =>
      -- the loop is left on the flag; it goes round only with the transport closed
      refine ⟨hok, ?_⟩
      simp only [mainStep]
      cases hup : c.mqttConnected with
      | true => exact fun _ => hup
      | false =>
          cases hopen : c.transportOpen with
          | true => exact absurd (hat.1 hopen) (by simp [Client.link, hup])
          | false => exact hopen
  | connectCall =>
      have hdown : c.mqttConnected = false := hok.not_connected hat
      have hlink : (mqttConnect c e.rc).1.link = { c.link with isOpen := e.rc == 0 } := by
        simp [mqttConnect, Client.link, Client.emit, Act.isMark]
      refine ⟨?_, ?_⟩
      · simp only [mainStep, hlink]
        exact ⟨hok.led, fun hup => by rw [show c.link.connected = false from hdown] at hup; cases hup⟩
      · simp only [mainStep, hlink]
        show Link.At _ (if e.rc ≠ 0 then .connectSleep else .connectPoll)
        by_cases hrc : e.rc = 0
        · rw [if_neg (not_not.mpr hrc)]
          exact hdown
        · rw [if_pos hrc]
          exact beq_eq_false_iff_ne.mpr hrc
  | connectSleep =>
      have hq : Quiet c (c.emit (.kMsleep msecsWaitReconnect)) := quiet_emit c rfl
      exact ⟨hok.quiet hq, (hok.connectWhile hat).quiet hq⟩
  | connectPoll =>
      have hq := quiet_poll c msecsNetPollTimeout e.poll
      refine ⟨hok.quiet hq, ?_⟩
      have hwait : c.link.At .connectInput := hat
      have hdown : (pollMqttSocket c msecsNetPollTimeout e.poll).1.link.connected = false :=
        hwait.quiet hq
      simp only [mainStep]
      split_ifs
      · exact hdown
      · intro hup
        rw [hdown] at hup
        cases hup
  | connectInput => exact ⟨hok.input e.input, hat.input_connect e.input⟩
  | connectTest =>
      -- down means abort, which is what closes the transport of a failed attempt
      refine ⟨hok, ?_⟩
      simp only [mainStep]
      cases hup : c.mqttConnected with
      | true => exact ⟨fun _ => hup, hat⟩
      | false => exact hup
  | connectAbort =>
      have hok' : (mqttAbort c).link.Ok :=
        hok.quiet ((quiet_emit c rfl).trans (quiet_dropTransport _))
      exact ⟨hok', hok'.connectWhile (dropTransport_transportOpen _)⟩
  | reschedule => exact ⟨hok, hat⟩
  | subscribe =>
      have hq := quiet_mqttSubscribe c ⟨mqttSubTopicCmd, qos, subscribeMessageId⟩ e.call
      have hrun : c.link.At .runWhile := hat
      exact ⟨hok.quiet hq, hrun.quiet hq⟩
  | runWhile =>
      refine ⟨hok, ?_⟩
      simp only [mainStep]
      split_ifs
      · exact hat
      · trivial
  | processPoll =>
      have hq := quiet_poll c e.timeLeft e.poll
      exact ⟨hok.quiet hq, Link.At.process (hat.quiet hq) _⟩
  -- the only library call of a session that could raise the flag
  | processInput => exact ⟨hok.input e.input, Link.At.run (hat.input_run e.input) _⟩
  | processLive =>
      have hq := quiet_mqttLive c e.live
      exact ⟨hok.quiet hq, Link.At.run (hat.quiet hq) _⟩
  | disconnect =>
      have hok' : (mqttDisconnect c).link.Ok :=
        hok.quiet ((quiet_emit c rfl).trans (quiet_dropTransport _))
      exact ⟨hok', dropTransport_transportOpen _⟩

/-- **Step.** The work queue is quiet and leaves `main` where it is. -/
theorem SessionInv.worker_step {s s' : Session} (h : SessionInv s) {qos : QoS} {e : Env}
    (hs : workerStep qos e s = some s') : SessionInv s' := by
  obtain ⟨hmain, hclient⟩ := workerStep_client hs
  have hquiet : Quiet s.client s'.client := by
    rcases hclient with heq | heq
    · rw [heq]
      exact .refl _
    · rw [heq]
      exact quiet_appMqttPublish s.client qos e.publish
  exact ⟨h.ok.quiet hquiet, hmain ▸ h.point.quiet hquiet⟩

theorem sessionInv {qos : QoS} {s : Session} (h : (sessions qos).Reachable s) : SessionInv s := by
  refine h.invariant ?_ ?_
  · rintro s rfl
    exact .boot
  · intro s t thread _ hinv hstep
    cases thread with
    | main =>
        obtain ⟨e, rfl⟩ := hstep
        exact hinv.main_step qos e
    | workQueue =>
        obtain ⟨e, he⟩ := hstep
        exact hinv.worker_step he

/-- **The session invariant.** In every reachable state, whatever the library calls return and however
the two threads interleave: the flag is up exactly if the network LED was last written ON; it is up
only on an open transport; `mqtt_connect` is about to be called only on a closed one; and where the
loop of `app_mqtt_connect` is left, the latest of the CONNACK and DISCONNECT events and of the entries
of `app_mqtt_connect` is an accepted CONNACK. -/
theorem session_invariant {qos : QoS} {s : Session} (h : (sessions qos).Reachable s) :
    (s.client.mqttConnected = true ↔ s.client.leds.net = some .ledOn) ∧
      (s.client.mqttConnected = true → s.client.transportOpen = true) ∧
      (s.main = .connectCall → s.client.transportOpen = false) ∧
      (s.main = .connectWhile → s.client.mqttConnected = true →
        s.client.log.find? Act.isMark = some (.connackEvt 0)) := by
  obtain ⟨hok, hat⟩ := sessionInv h
  refine ⟨hok.led, hok.live, ?_, ?_⟩
  · intro hpc
    rw [hpc] at hat
    exact hat
  · intro hpc hup
    rw [hpc] at hat
    exact hat.2 hup

/-- A first connection: entered, tested, called, polled, accepted, tested again. -/
def firstConnection (qos : QoS) : Session := (mainStep qos .fine)^[6] Session.boot

theorem firstConnection_invariant :
    (firstConnection mqttQos).main = .connectWhile ∧
      (firstConnection mqttQos).client.transportOpen = true ∧
      (firstConnection mqttQos).client.log.find? Act.isMark = some (.connackEvt 0) := by
  have h := session_invariant (mainSteps_reachable (.init rfl) .fine 6 :
    (sessions mqttQos).Reachable (firstConnection mqttQos))
  have hpc : (firstConnection mqttQos).main = .connectWhile := by decide
  have hup : (firstConnection mqttQos).client.mqttConnected = true := by decide
  exact ⟨hpc, h.2.1 hup, h.2.2.2 hpc hup⟩

end ZephyrSamples.Mqtt
