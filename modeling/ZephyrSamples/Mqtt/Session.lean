/-
# ZephyrSamples.Mqtt.Session -- the two threads of the MQTT sample

`main` connects, schedules the publish work, runs the session, and starts over; the system work queue
runs `publish_work_handler` whenever the delayable work item is due. Both are given as program counters
over the shared `Client`: one step is one library or kernel call together with the callbacks it
raises, or one test of `mqtt_connected`. The functions the steps compute are those of `Process` and
`Publish`.

A delayable work item may become due at any time after it was scheduled, so the queue may take a
pending instance at any step; deadlines are recorded but not waited for.
-/
import Mathlib.Logic.Function.Iterate
import ZephyrSamples.Lib.Transition
import ZephyrSamples.Mqtt.Process
import ZephyrSamples.Mqtt.Publish

namespace ZephyrSamples.Mqtt

open ZephyrSamples.Lib

/-! ## Program counters -/

/-- Where `main` stands: in `app_mqtt_connect`, between it and `app_mqtt_run`, or in the latter. -/
inductive MainPc where
  /-- `mqtt_connected = false;` -/
  | connectEntry
  /-- `while (!mqtt_connected)` -/
  | connectWhile
  /-- `rc = mqtt_connect(client);` -/
  | connectCall
  /-- `k_msleep(MSECS_WAIT_RECONNECT); continue;` -/
  | connectSleep
  /-- `rc = poll_mqtt_socket(client, MSECS_NET_POLL_TIMEOUT);` -/
  | connectPoll
  /-- `mqtt_input(client);` -/
  | connectInput
  /-- `if (!mqtt_connected)` -/
  | connectTest
  /-- `mqtt_abort(client);` -/
  | connectAbort
  /-- `k_work_reschedule(&mqtt_publish_work, ...);` in `main` -/
  | reschedule
  /-- `app_mqtt_subscribe(client);` -/
  | subscribe
  /-- `while (mqtt_connected)` -/
  | runWhile
  /-- the poll of `app_mqtt_process` -/
  | processPoll
  /-- its `mqtt_input` -/
  | processInput
  /-- its `mqtt_live` -/
  | processLive
  /-- `mqtt_disconnect(client, NULL);` -/
  | disconnect
  deriving DecidableEq, Repr

/-- Where `publish_work_handler` stands; `idle` when it is not running. -/
inductive WorkerPc where
  | idle
  /-- `if (mqtt_connected)` -/
  | test
  /-- `rc = app_mqtt_publish(&client_ctx);` -/
  | publish
  /-- the packet is handed over, the call has not returned -/
  | published
  /-- `k_work_reschedule(&mqtt_publish_work, ...);` -/
  | reschedule
  /-- `k_work_cancel_delayable(&mqtt_publish_work);` -/
  | cancel
  deriving DecidableEq, Repr

structure Session where
  client : Client
  main : MainPc
  worker : WorkerPc
  /-- the pending instances of `mqtt_publish_work`, each with its delay -/
  pending : List Nat
  deriving DecidableEq, Repr

/-- `k_work_reschedule`: a new instance in place of an earlier one. -/
def kWorkReschedule (pending : List Nat) (delay : Nat) : List Nat := delay :: pending.drop 1

/-- `k_work_cancel_delayable`: a pending instance is removed. -/
def kWorkCancelDelayable (pending : List Nat) : List Nat := pending.drop 1

/-- Everything the environment decides during one step. -/
structure Env where
  rc : Int
  timeLeft : Int
  poll : PollOutcome
  input : InputOutcome
  live : LiveOutcome
  call : CallOutcome
  publish : PublishEnv

/-! ## Steps -/

/-- Where `main` goes after `app_mqtt_process` returned `rc`. -/
def RunNext.pc : RunNext → MainPc
  | .again => .runWhile
  | .leave => .disconnect

/-- Where `app_mqtt_process` goes after its poll. -/
def ProcessCall.pc : ProcessCall → MainPc
  | .input => .processInput
  | .live => .processLive
  | .none => (afterProcess 0).pc

/-- One step of `main`. -/
def mainStep (qos : QoS) (e : Env) (s : Session) : Session :=
  let c := s.client
  match s.main with
  | .connectEntry =>
      -- the flag is cleared without the LED
      { s with client := { c with mqttConnected := false }.emit .enterConnect, main := .connectWhile }
  | .connectWhile => { s with main := if !c.mqttConnected then .connectCall else .reschedule }
  | .connectCall =>
      let (c, rc) := mqttConnect c e.rc
      { s with client := c, main := if rc ≠ 0 then .connectSleep else .connectPoll }
  | .connectSleep =>
      { s with client := c.emit (.kMsleep msecsWaitReconnect), main := .connectWhile }
  | .connectPoll =>
      let (c, rc) := pollMqttSocket c msecsNetPollTimeout e.poll
      { s with client := c, main := if rc > 0 then .connectInput else .connectTest }
  | .connectInput => { s with client := (mqttInput c e.input).1, main := .connectTest }
  | .connectTest => { s with main := if !c.mqttConnected then .connectAbort else .connectWhile }
  | .connectAbort => { s with client := mqttAbort c, main := .connectWhile }
  | .reschedule =>
      { s with pending := kWorkReschedule s.pending mqttPublishInterval, main := .subscribe }
  | .subscribe => { s with client := (appMqttSubscribe qos c e.call).1, main := .runWhile }
  | .runWhile => { s with main := if c.mqttConnected then .processPoll else .disconnect }
  | .processPoll =>
      let (c, rc) := pollMqttSocket c e.timeLeft e.poll
      { s with client := c, main := (processCall rc c.revents).pc }
  | .processInput =>
      let (c, rc) := mqttInput c e.input
      { s with client := c, main := (afterProcess (processInputRc rc c.revents)).pc }
  | .processLive =>
      let (c, rc) := mqttLive c e.live
      { s with client := c, main := (afterProcess (processLiveRc rc)).pc }
  -- reached by a break and by the loop test alike
  | .disconnect => { s with client := mqttDisconnect c, main := .connectEntry }

/-- One step of the system work queue. An idle queue needs a pending instance; the instance leaves
the pending state before the handler is called. -/
def workerStep (qos : QoS) (e : Env) (s : Session) : Option Session :=
  let c := s.client
  match s.worker with
  | .idle =>
      match s.pending with
      | [] => none
      | _ :: rest => some { s with pending := rest, worker := .test }
  | .test => some { s with worker := if c.mqttConnected then .publish else .cancel }
  | .publish => some { s with client := (appMqttPublish qos c e.publish).1, worker := .published }
  -- the return code is printed; the item is rescheduled whatever it was
  | .published => some { s with worker := .reschedule }
  | .reschedule =>
      some { s with pending := kWorkReschedule s.pending mqttPublishInterval, worker := .idle }
  | .cancel => some { s with pending := kWorkCancelDelayable s.pending, worker := .idle }

inductive Thread where
  | main
  | workQueue
  deriving DecidableEq, Repr

def Session.Step (qos : QoS) : Thread → Session → Session → Prop
  | .main, s, s' => ∃ e, mainStep qos e s = s'
  | .workQueue, s, s' => ∃ e, workerStep qos e s = some s'

/-- `main` enters its loop: the statics are as at boot, the work item is initialised and idle. -/
def Session.boot : Session := ⟨Client.boot, .connectEntry, .idle, []⟩

/-- The client with both threads scheduled in any order. -/
def sessions (qos : QoS) : System Session Thread where
  init s := s = Session.boot
  step := Session.Step qos

/-- `publish_work_handler` gives the processor away only inside `app_mqtt_publish`. -/
def Yields (s : Session) : Prop :=
  s.worker = .idle ∨ s.worker = .publish ∨ s.worker = .published

/-- The same client under the cooperative work queue thread of the system. -/
def coopSessions (qos : QoS) : System Session Thread :=
  (sessions qos).restrict fun t s => t = .main → Yields s

/-! ## Control flow -/

/-- The points of `main` that may follow a point. -/
def MainPc.successors : MainPc → List MainPc
  | .connectEntry | .connectSleep | .connectAbort => [.connectWhile]
  | .connectWhile => [.connectCall, .reschedule]
  | .connectCall => [.connectSleep, .connectPoll]
  | .connectPoll => [.connectInput, .connectTest]
  | .connectInput => [.connectTest]
  | .connectTest => [.connectAbort, .connectWhile]
  | .reschedule => [.subscribe]
  | .subscribe => [.runWhile]
  | .runWhile => [.processPoll, .disconnect]
  | .processPoll => [.processInput, .processLive, .runWhile]
  | .processInput | .processLive => [.runWhile, .disconnect]
  | .disconnect => [.connectEntry]

theorem ite_mem_pair {α : Type} (p : Prop) [Decidable p] (a b : α) :
    (if p then a else b) ∈ [a, b] := by
  split_ifs
  · exact List.mem_cons_self
  · exact List.mem_cons_of_mem _ List.mem_cons_self

theorem RunNext.pc_mem (next : RunNext) : next.pc ∈ [MainPc.runWhile, .disconnect] := by
  cases next with
  | again => exact List.mem_cons_self
  | leave => exact List.mem_cons_of_mem _ List.mem_cons_self

theorem ProcessCall.pc_mem (call : ProcessCall) :
    call.pc ∈ [MainPc.processInput, .processLive, .runWhile] := by
  cases call with
  | input => decide
  | live => decide
  | none => decide

theorem mainStep_main_mem (qos : QoS) (e : Env) (s : Session) :
    (mainStep qos e s).main ∈ s.main.successors := by
  obtain ⟨c, pc, worker, pending⟩ := s
  cases pc with
  -- a test of the flag or of a return code
  | connectWhile | connectCall | connectPoll | connectTest | runWhile => exact ite_mem_pair _ _ _
  | processPoll => exact ProcessCall.pc_mem _
  | processInput | processLive => exact RunNext.pc_mem _
  | connectEntry | connectSleep | connectInput | connectAbort | reschedule | subscribe
  | disconnect => exact List.mem_cons_self

/-! ## Without interruption the steps compute the functions -/

section Sequential

variable (qos : QoS) (e : Env) (s : Session)

/-- Steps of `main` alone, in one environment. -/
abbrev MainSteps : Session → Session → Prop :=
  Relation.ReflTransGen fun s s' => mainStep qos e s = s'

/-- `main` left alone from its poll on computes `appMqttProcess`. -/
theorem process_steps (c : Client) :
    MainSteps qos e { s with client := c, main := .processPoll }
      { s with
        client := (appMqttProcess c ⟨e.timeLeft, e.poll, e.input, e.live⟩).1
        main := (afterProcess (appMqttProcess c ⟨e.timeLeft, e.poll, e.input, e.live⟩).2).pc } := by
  have hpoll : MainSteps qos e { s with client := c, main := .processPoll }
      { s with
        client := (pollMqttSocket c e.timeLeft e.poll).1
        main := (processCall (pollMqttSocket c e.timeLeft e.poll).2
          (pollMqttSocket c e.timeLeft e.poll).1.revents).pc } := .single rfl
  refine hpoll.trans ?_
  unfold appMqttProcess
  generalize pollMqttSocket c e.timeLeft e.poll = polled
  obtain ⟨c, rc⟩ := polled
  dsimp only
  cases processCall rc c.revents with
  | input => exact .single rfl
  | live => exact .single rfl
  | none => exact .refl

/-- The end of a connection attempt: test the flag, abort if it is down. -/
theorem connectTest_steps (c : Client) :
    MainSteps qos e { s with client := c, main := .connectTest }
      { s with client := if !c.mqttConnected then mqttAbort c else c, main := .connectWhile } := by
  have htest : MainSteps qos e { s with client := c, main := .connectTest }
      { s with client := c, main := if !c.mqttConnected then .connectAbort else .connectWhile } :=
    .single rfl
  refine htest.trans ?_
  cases c.mqttConnected with
  | false => exact .single rfl
  | true => exact .refl

/-- `main` left alone inside the loop of `app_mqtt_connect` computes `connectAttempt`. -/
theorem connectAttempt_steps (c : Client) :
    MainSteps qos e { s with client := c, main := .connectCall }
      { s with client := connectAttempt c ⟨e.rc, e.poll, e.input⟩, main := .connectWhile } := by
  have hcall : MainSteps qos e { s with client := c, main := .connectCall }
      { s with
        client := (mqttConnect c e.rc).1
        main := if (mqttConnect c e.rc).2 ≠ 0 then .connectSleep else .connectPoll } := .single rfl
  refine hcall.trans ?_
  unfold connectAttempt
  generalize mqttConnect c e.rc = called
  obtain ⟨c, rc⟩ := called
  dsimp only
  by_cases hrc : rc ≠ 0
  · rw [if_pos hrc, if_pos hrc]
    exact .single rfl
  · rw [if_neg hrc, if_neg hrc]
    have hpoll : MainSteps qos e { s with client := c, main := .connectPoll }
        { s with
          client := (pollMqttSocket c msecsNetPollTimeout e.poll).1
          main := if (pollMqttSocket c msecsNetPollTimeout e.poll).2 > 0 then .connectInput
            else .connectTest } := .single rfl
    refine hpoll.trans ?_
    generalize pollMqttSocket c msecsNetPollTimeout e.poll = polled
    obtain ⟨c, rc⟩ := polled
    dsimp only
    by_cases hready : rc > 0
    · rw [if_pos hready, if_pos hready]
      exact .head rfl (connectTest_steps qos e s (mqttInput c e.input).1)
    · rw [if_neg hready, if_neg hready]
      exact connectTest_steps qos e s c

end Sequential

/-- A step of the work queue leaves `main` where it is; it is a call of `app_mqtt_publish` or
leaves the client alone. -/
theorem workerStep_client {qos : QoS} {e : Env} {s s' : Session} (h : workerStep qos e s = some s') :
    s'.main = s.main ∧
      (s'.client = s.client ∨ s'.client = (appMqttPublish qos s.client e.publish).1) := by
  obtain ⟨c, pc, worker, pending⟩ := s
  cases worker with
  | idle =>
      cases pending with
      | nil => cases h
      | cons d rest => cases h; exact ⟨rfl, Or.inl rfl⟩
  | publish => cases h; exact ⟨rfl, Or.inr rfl⟩
  | test | published | reschedule | cancel => cases h; exact ⟨rfl, Or.inl rfl⟩

theorem mainStep_reachable {qos : QoS} {s : Session} (h : (sessions qos).Reachable s) (e : Env) :
    (sessions qos).Reachable (mainStep qos e s) :=
  .step (l := Thread.main) h ⟨e, rfl⟩

theorem workerStep_reachable {qos : QoS} {s s' : Session} (h : (sessions qos).Reachable s) (e : Env)
    (hs : workerStep qos e s = some s') : (sessions qos).Reachable s' :=
  .step (l := Thread.workQueue) h ⟨e, hs⟩

theorem mainSteps_reachable {qos : QoS} {s : Session} (h : (sessions qos).Reachable s) (e : Env)
    (n : Nat) : (sessions qos).Reachable ((mainStep qos e)^[n] s) := by
  induction n with
  | zero => exact h
  | succ n ih =>
      rw [Function.iterate_succ_apply']
      exact mainStep_reachable ih e

/-- Nothing fails: the broker accepts, no sensor is configured, the keep-alive period is not over. -/
def Env.fine : Env where
  rc := 0
  timeLeft := 0
  poll := .ready ⟨true, false, false, false⟩
  input := .packet (.connack 0) ⟨⟨0, false⟩, .ready 0⟩
  live := .notYet
  call := ⟨0, false⟩
  publish := ⟨⟨false, 0, 0, 0, ⟨0, 0⟩⟩, fun _ => .ok .one,
    ⟨[], 0⟩, ⟨0, false⟩⟩

/-- Nothing comes in until the poll times out. -/
def Env.silent : Env := { Env.fine with poll := .timeout }

/-! ## Whole rounds -/

/-- The work queue runs `publish_work_handler` once, from start to end, with the flag up. -/
def publishRound (qos : QoS) (e : Env) (s : Session) : Session :=
  { s with
    client := (appMqttPublish qos s.client e.publish).1
    pending := kWorkReschedule s.pending.tail mqttPublishInterval }

theorem publishRound_reachable {qos : QoS} {s : Session} (h : (sessions qos).Reachable s) (e : Env)
    (hidle : s.worker = .idle) (hpending : s.pending ≠ []) (hup : s.client.mqttConnected = true) :
    (sessions qos).Reachable (publishRound qos e s) := by
  obtain ⟨c, pc, worker, pending⟩ := s
  obtain ⟨d, rest, rfl⟩ := List.exists_cons_of_ne_nil hpending
  dsimp only at hidle hup
  subst hidle
  have htest : (sessions qos).Reachable ⟨c, pc, .test, rest⟩ := workerStep_reachable h e rfl
  have hpublish : (sessions qos).Reachable ⟨c, pc, .publish, rest⟩ :=
    workerStep_reachable htest e (by simp [workerStep, hup])
  have hdone := workerStep_reachable hpublish e rfl
  exact workerStep_reachable (workerStep_reachable hdone e rfl) e rfl

/-- The first session: connected, scheduled, subscribed, in the loop of `app_mqtt_run`. -/
def firstSession (qos : QoS) : Session := (mainStep qos .fine)^[9] Session.boot

theorem firstSession_reachable (qos : QoS) : (sessions qos).Reachable (firstSession qos) :=
  mainSteps_reachable (.init rfl) .fine 9

end ZephyrSamples.Mqtt
