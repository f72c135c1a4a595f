/-
# ZephyrSamples.Mqtt.Pacing -- how soon `main` calls `mqtt_connect` again

The delay of `app_mqtt_connect` stands on one path only, a failed `mqtt_connect`. Any other attempt that
comes to nothing leads straight to the next one: a CONNACK that is refused or incomplete, a failed poll, a
connection lost while subscribing, a first `app_mqtt_process` that fails. `Paced` adds to the two threads a
history of attempts and of what counts as a wait between them; `pacing_of_unhurried` says which outcomes
keep them apart, and `attempts_again_of_hurried` that no others do.
-/
import ZephyrSamples.Mqtt.SessionInvariant

namespace ZephyrSamples.Mqtt

open ZephyrSamples.Lib

/-! ## Attempts and rests -/

inductive PaceEvent where
  /-- a call of `mqtt_connect` -/
  | attempt
  /-- the reconnect delay, a whole poll of `MSECS_NET_POLL_TIMEOUT`, or an `app_mqtt_process` that
  returned 0 -/
  | rest
  deriving DecidableEq, Repr

/-- The step `main` is about to make is one of the three rests. -/
def rests (e : Env) (s : Session) : Bool :=
  match s.main with
  | .connectSleep => true
  | .connectPoll => e.poll == .timeout
  | .processPoll =>
      let (c, rc) := pollMqttSocket s.client e.timeLeft e.poll
      processCall rc c.revents == .none
  | .processInput =>
      let (c, rc) := mqttInput s.client e.input
      processInputRc rc c.revents == 0
  | .processLive => processLiveRc (mqttLive s.client e.live).2 == 0
  | _ => false

/-- The two threads, and the attempts and rests so far, newest first. -/
structure Paced where
  session : Session
  log : List PaceEvent

namespace Paced

def boot : Paced := ⟨Session.boot, []⟩

/-- One step of `main`. -/
def main (qos : QoS) (e : Env) (p : Paced) : Paced where
  session := mainStep qos e p.session
  log :=
    if p.session.main = .connectCall then .attempt :: p.log
    else if rests e p.session then .rest :: p.log
    else p.log

/-- `mqtt_connect` was called and no rest has followed. -/
def Owes (p : Paced) : Prop := p.log.head? = some .attempt

end Paced

inductive PaceLabel where
  | main (e : Env)
  | workQueue (e : Env)

inductive Paced.Step (qos : QoS) : PaceLabel → Paced → Paced → Prop
  | main {p : Paced} (e : Env) : Step qos (.main e) p (p.main qos e)
  | workQueue {p : Paced} (e : Env) {s : Session} : workerStep qos e p.session = some s →
      Step qos (.workQueue e) p { p with session := s }

def pacedSessions (qos : QoS) : System Paced PaceLabel where
  init p := p = .boot
  step := Paced.Step qos

/-- The two threads are those of `Session`. -/
theorem Paced.session_reachable {qos : QoS} {p : Paced} (h : (pacedSessions qos).Reachable p) :
    (sessions qos).Reachable p.session := by
  refine System.Reachable.project Paced.session ?_ ?_ h
  · rintro p rfl
    rfl
  · rintro p p' label hstep
    rcases hstep with e | ⟨e, hs⟩
    · exact Or.inr ⟨.main, e, rfl⟩
    · exact Or.inr ⟨.workQueue, e, hs⟩

/-- `main` may step any number of times. -/
theorem Paced.mainSteps_reachable {qos : QoS} {p : Paced} (h : (pacedSessions qos).Reachable p)
    (e : Env) (n : Nat) : (pacedSessions qos).Reachable ((Paced.main qos e)^[n] p) := by
  induction n with
  | zero => exact h
  | succ n ih =>
      rw [Function.iterate_succ_apply']
      exact .step ih (Paced.Step.main e)

/-- Between any two consecutive attempts there is a rest. -/
def Spaced : List PaceEvent → Prop
  | [] => True
  | a :: log => (a = .attempt → log.head? ≠ some .attempt) ∧ Spaced log

/-! ## What keeps the attempts apart -/

/-- The call succeeds, or fails without giving the connection up. -/
def CallOutcome.Keeps (o : CallOutcome) : Prop := o.rc = 0 ∨ o.closes = false

/-- `main` stands between the end of the attempt and `app_mqtt_process`. -/
def MainPc.InSetup (pc : MainPc) : Prop :=
  pc = .connectWhile ∨ pc = .reschedule ∨ pc = .subscribe ∨ pc = .runWhile

/-- While a rest is owed: the flag is up when `app_mqtt_connect` tests it at the end of the attempt, neither
`mqtt_subscribe` nor a `mqtt_publish` of the work queue gives the connection up before `app_mqtt_process` is
called, and there `mqtt_input` succeeds on a socket without error, or `mqtt_live` succeeds. -/
def Unhurried : PaceLabel → Paced → Prop
  | .main e, p => p.Owes →
      match p.session.main with
      | .connectTest => p.session.client.mqttConnected = true
      | .subscribe => e.call.Keeps
      | .processInput => (mqttInput p.session.client e.input).2 = 0 ∧
          (p.session.client.revents.pollhup || p.session.client.revents.pollerr) = false
      | .processLive => (mqttLive p.session.client e.live).2 = 0
      | _ => True
  | .workQueue e, p => p.Owes → p.session.main.InSetup → p.session.worker = .publish →
      e.publish.publish.Keeps

/-! ## Calls that keep the connection keep the flag -/

section Keeps

variable {o : CallOutcome}

theorem CallOutcome.Keeps.closes (h : o.Keeps) (hrc : ¬ o.rc = 0) : ¬ o.closes = true := by
  rcases h with hzero | hopen
  · exact absurd hzero hrc
  · rw [hopen]
    exact Bool.false_ne_true

theorem mqttSubscribe_keeps (h : o.Keeps) (c : Client) (param : SubscribeParam) :
    (mqttSubscribe c param o).1.mqttConnected = c.mqttConnected := by
  simp only [mqttSubscribe]
  split_ifs with _ hrc hcloses
  · rfl
  · rfl
  · exact absurd hcloses (h.closes hrc)
  · rfl

theorem mqttPublish_keeps (h : o.Keeps) (c : Client) (param : PublishParam) :
    (mqttPublish c param o).1.mqttConnected = c.mqttConnected := by
  simp only [mqttPublish]
  split_ifs with _ _ hrc _ hcloses
  · rfl
  · rfl
  · rfl
  · rfl
  · exact absurd hcloses (h.closes hrc)
  · rfl

theorem appMqttPublish_keeps {e : PublishEnv} (h : e.publish.Keeps) (qos : QoS) (c : Client) :
    (appMqttPublish qos c e).1.mqttConnected = c.mqttConnected := by
  obtain ⟨buf, hpayload⟩ := getMqttPayload_client c e
  simp only [appMqttPublish, mqttPublish_keeps h, hpayload]

end Keeps

/-! ## The invariant -/

/-- Where `main` may stand while a rest is owed, and with the flag up where the flag is all that keeps it from
the next attempt. -/
def Underway (c : Client) : MainPc → Prop
  | .connectSleep | .connectPoll | .connectInput | .connectTest => True
  | .connectWhile | .reschedule | .subscribe | .runWhile => c.mqttConnected = true
  | .processPoll | .processInput | .processLive => True
  | .connectEntry | .connectCall | .connectAbort | .disconnect => False

structure PaceInv (p : Paced) : Prop where
  spaced : Spaced p.log
  underway : p.Owes → Underway p.session.client p.session.main

namespace PaceInv

variable {p : Paced} {qos : QoS} {e : Env}

theorem boot : PaceInv .boot := ⟨trivial, fun howes => by cases howes⟩

/-- After a rest nothing is owed. -/
theorem rest (h : PaceInv p) (s : Session) : PaceInv ⟨s, .rest :: p.log⟩ := by
  refine ⟨⟨?_, h.spaced⟩, ?_⟩
  · intro hrest
    cases hrest
  · intro howes
    cases howes

/-- An attempt finds nothing owed, for `main` is not underway there. -/
theorem attempt (h : PaceInv p) (hpc : p.session.main = .connectCall) :
    PaceInv (p.main qos e) := by
  have hnot : ¬ p.Owes := by
    intro howes
    have hunder := h.underway howes
    rw [hpc] at hunder
    exact hunder
  have hmem := mainStep_main_mem qos e p.session
  rw [hpc] at hmem
  have hlog : (p.main qos e).log = .attempt :: p.log := if_pos hpc
  refine ⟨hlog ▸ ⟨fun _ => hnot, h.spaced⟩, fun _ => ?_⟩
  show Underway _ (mainStep qos e p.session).main
  rcases List.mem_cons.mp hmem with hsleep | hpoll
  · rw [hsleep]
    trivial
  · rw [List.mem_singleton.mp hpoll]
    trivial

/-- The library call that follows the poll of `app_mqtt_process` is part of the way. -/
theorem underway_call (c : Client) {call : ProcessCall} (h : call ≠ .none) : Underway c call.pc := by
  rcases call with _ | _ | _
  · trivial
  · trivial
  · exact absurd rfl h

/-- A step that is neither, made while a rest is owed, leaves `main` underway. -/
theorem underway_step (hunder : Underway p.session.client p.session.main) (howes : p.Owes)
    (hun : Unhurried (.main e) p) (hrest : rests e p.session = false) :
    Underway (mainStep qos e p.session).client (mainStep qos e p.session).main := by
  have hgo := hun howes
  clear hun howes
  obtain ⟨⟨c, pc, worker, pending⟩, log⟩ := p
  dsimp only at hunder hgo hrest ⊢
  cases pc with
  | connectEntry | connectCall | connectAbort | disconnect => exact hunder.elim
  | connectSleep => cases hrest
  | connectWhile =>
      have hup : c.mqttConnected = true := hunder
      show Underway c (if !c.mqttConnected then .connectCall else .reschedule)
      rw [hup]
      exact hup
  | connectPoll =>
      show Underway _ (if _ then .connectInput else .connectTest)
      split_ifs
      · trivial
      · trivial
  | connectInput => trivial
  | connectTest =>
      have hup : c.mqttConnected = true := hgo
      show Underway c (if !c.mqttConnected then .connectAbort else .connectWhile)
      rw [hup]
      exact hup
  | reschedule => exact hunder
  | subscribe => exact (mqttSubscribe_keeps hgo c _).trans hunder
  | runWhile =>
      have hup : c.mqttConnected = true := hunder
      show Underway c (if c.mqttConnected then .processPoll else .disconnect)
      rw [hup]
      trivial
  | processPoll =>
      -- without a call to follow, `app_mqtt_process` returns 0 and has rested
      have hcall : processCall (pollMqttSocket c e.timeLeft e.poll).2
          (pollMqttSocket c e.timeLeft e.poll).1.revents ≠ .none := by
        simpa [rests] using hrest
      exact underway_call _ hcall
  | processInput =>
      obtain ⟨hrc, hsocket⟩ := hgo
      simp [rests, processInputRc_eq_zero_iff, hrc, hsocket] at hrest
  | processLive =>
      have hrc : (mqttLive c e.live).2 = 0 := hgo
      simp [rests, processLiveRc_eq_zero_iff, hrc] at hrest

/-- A step that is neither attempt nor rest leaves the log alone. -/
theorem main_eq (hcall : p.session.main ≠ .connectCall) (hrest : rests e p.session = false) :
    p.main qos e = ⟨mainStep qos e p.session, p.log⟩ := by
  rw [Paced.main, if_neg hcall, if_neg (Bool.eq_false_iff.mp hrest)]

/-- **Step.** `main` keeps the attempts apart as long as it is unhurried. -/
theorem main_step (h : PaceInv p) (hun : Unhurried (.main e) p) : PaceInv (p.main qos e) := by
  by_cases hcall : p.session.main = .connectCall
  · exact h.attempt hcall
  · by_cases hrest : rests e p.session = true
    · have hlog : p.main qos e = ⟨mainStep qos e p.session, .rest :: p.log⟩ := by
        rw [Paced.main, if_neg hcall, if_pos hrest]
      rw [hlog]
      exact h.rest _
    · have hno : rests e p.session = false := Bool.eq_false_iff.mpr hrest
      rw [main_eq hcall hno]
      exact ⟨h.spaced, fun howes => underway_step (h.underway howes) howes hun hno⟩

/-- The flag alone matters to where `main` may stand. -/
theorem underway_of_connected {c c' : Client} {pc : MainPc} (h : Underway c pc)
    (hsame : pc.InSetup → c'.mqttConnected = c.mqttConnected) : Underway c' pc := by
  cases pc with
  | connectWhile => exact (hsame (Or.inl rfl)).trans h
  | reschedule => exact (hsame (Or.inr (Or.inl rfl))).trans h
  | subscribe => exact (hsame (Or.inr (Or.inr (Or.inl rfl)))).trans h
  | runWhile => exact (hsame (Or.inr (Or.inr (Or.inr rfl)))).trans h
  | _ => exact h

/-- **Step.** So does the work queue. -/
theorem worker_step (h : PaceInv p) {s : Session} (hs : workerStep qos e p.session = some s)
    (hun : Unhurried (.workQueue e) p) : PaceInv { p with session := s } := by
  refine ⟨h.spaced, fun howes => ?_⟩
  obtain ⟨hmain, hclient⟩ := workerStep_client hs
  show Underway s.client s.main
  rw [hmain]
  refine underway_of_connected (h.underway howes) ?_
  intro hsetup
  by_cases hpub : p.session.worker = .publish
  · have hkeeps := hun howes hsetup hpub
    rcases hclient with hsame | hpublish
    · rw [hsame]
    · rw [hpublish, appMqttPublish_keeps hkeeps]
  · -- elsewhere the work queue does not touch the client
    have hsame : s.client = p.session.client := by
      obtain ⟨⟨c, pc, worker, pending⟩, log⟩ := p
      rcases worker with _ | _ | _ | _ | _ | _
      · rcases pending with _ | ⟨d, rest⟩
        · cases hs
        · cases hs
          rfl
      · cases hs
        rfl
      · exact absurd rfl hpub
      · cases hs
        rfl
      · cases hs
        rfl
      · cases hs
        rfl
    rw [hsame]

end PaceInv

/-- **Pacing.** In every run of the two threads whose steps are all unhurried, any two consecutive calls of
`mqtt_connect` have a rest between them. -/
theorem pacing_of_unhurried {qos : QoS} {p : Paced}
    (h : ((pacedSessions qos).restrict Unhurried).Reachable p) : Spaced p.log := by
  refine (System.Reachable.invariant (I := PaceInv) ?_ ?_ h).spaced
  · rintro p rfl
    exact .boot
  · rintro p p' label - hinv ⟨hun, hstep⟩
    rcases hstep with e | ⟨e, hs⟩
    · exact hinv.main_step hun
    · exact hinv.worker_step hs hun

/-! ## The condition is needed -/

/-- With the flag down `main` is on its way back to `mqtt_connect`; at the end of `app_mqtt_run` it is so
with the flag up, too. -/
def Returning (c : Client) : MainPc → Prop
  | .connectCall | .connectEntry | .disconnect => True
  | .connectWhile | .connectAbort | .reschedule | .subscribe | .runWhile => c.mqttConnected = false
  | _ => False

/-- How many steps it has to go. -/
def MainPc.toAttempt : MainPc → Nat
  | .connectWhile => 1
  | .connectEntry | .connectAbort => 2
  | .disconnect => 3
  | .runWhile => 4
  | .subscribe => 5
  | .reschedule => 6
  | _ => 0

/-- `main` alone, with any outcomes. -/
def mainAlone (qos : QoS) : System Paced PaceLabel :=
  (pacedSessions qos).restrict fun label _ => ∃ e, label = .main e

section Returning

variable {qos : QoS} {e : Env} {p : Paced}

/-- No step on that way is a rest. -/
theorem returning_step (qos : QoS) (e : Env) {s : Session} (hret : Returning s.client s.main)
    (hpc : s.main ≠ .connectCall) :
    rests e s = false ∧ Returning (mainStep qos e s).client (mainStep qos e s).main ∧
      (mainStep qos e s).main.toAttempt < s.main.toAttempt := by
  obtain ⟨c, pc, worker, pending⟩ := s
  cases pc with
  | connectCall => exact absurd rfl hpc
  | connectEntry => exact ⟨rfl, rfl, Nat.lt_succ_self 1⟩
  | connectWhile =>
      have hdown : c.mqttConnected = false := hret
      simp [mainStep, hdown, rests, Returning, MainPc.toAttempt]
  | connectAbort =>
      have hquiet : Quiet c (mqttAbort c) := (quiet_emit c rfl).trans (quiet_dropTransport _)
      exact ⟨rfl, hquiet.disconnected hret, Nat.lt_succ_self 1⟩
  | reschedule => exact ⟨rfl, hret, Nat.lt_succ_self 5⟩
  | subscribe =>
      exact ⟨rfl, (quiet_mqttSubscribe c _ e.call).disconnected hret, Nat.lt_succ_self 4⟩
  | runWhile =>
      have hdown : c.mqttConnected = false := hret
      simp [mainStep, hdown, rests, Returning, MainPc.toAttempt]
  | disconnect => exact ⟨rfl, trivial, Nat.lt_succ_self 2⟩
  | connectSleep | connectPoll | connectInput | connectTest | processPoll | processInput
  | processLive => exact hret.elim

/-- So the next attempt comes without one. A publish of the work queue that takes the flag down before
`app_mqtt_process` brings `main` there, too. -/
theorem attempts_again (howes : p.Owes) (hret : Returning p.session.client p.session.main) :
    (mainAlone qos).Inevitable (fun p => ¬ Spaced p.log) p := by
  refine .of_rank (fun n p => (n = 0 ∧ ¬ Spaced p.log) ∨
    (p.Owes ∧ Returning p.session.client p.session.main ∧
      n = p.session.main.toAttempt + 1)) ?_ (Or.inr ⟨howes, hret, rfl⟩)
  rintro n p (⟨-, hnot⟩ | ⟨howes, hret, rfl⟩)
  · exact Or.inl hnot
  · apply Or.inr
    refine ⟨⟨_, _, ⟨.fine, rfl⟩, .main .fine⟩, ?_⟩
    rintro label p' ⟨⟨e, rfl⟩, ⟨⟩⟩
    by_cases hpc : p.session.main = .connectCall
    · -- the attempt stands next to the one before it
      refine ⟨0, Nat.succ_pos _, Or.inl ⟨rfl, ?_⟩⟩
      have hlog : (p.main qos e).log = .attempt :: p.log := if_pos hpc
      rw [hlog]
      exact fun hspaced => hspaced.1 rfl howes
    · obtain ⟨hrest, hret', hlower⟩ := returning_step qos e hret hpc
      rw [PaceInv.main_eq hpc hrest]
      exact ⟨_, Nat.succ_lt_succ hlower, Or.inr ⟨howes, hret', rfl⟩⟩

theorem mqttSubscribe_drops {o : CallOutcome} (h : ¬ o.Keeps) {c : Client} (hok : c.link.Ok)
    (param : SubscribeParam) : (mqttSubscribe c param o).1.mqttConnected = false := by
  obtain ⟨hrc, hcloses⟩ := not_or.mp h
  cases hopen : c.transportOpen with
  | false =>
      have hclosed : (mqttSubscribe c param o).1 = c.emit (.mqttSubscribe param) := by
        simp [mqttSubscribe, hopen]
      rw [hclosed]
      exact hok.not_connected hopen
  | true =>
      have hdrop : (mqttSubscribe c param o).1 = dropTransport (c.emit (.mqttSubscribe param)) := by
        simp [mqttSubscribe, hopen, hrc, hcloses]
      rw [hdrop]
      exact congrArg Link.connected (link_dropTransport (c := c.emit (.mqttSubscribe param)) hopen)

/-- An `app_mqtt_process` that fails ends the loop of `app_mqtt_run`. -/
theorem leave_of_failed {rc : Int} (h : rc ≠ 0) : (afterProcess rc).pc = .disconnect := by
  simp [afterProcess, h, RunNext.pc]

/-- A hurried step sets `main` on that way. -/
theorem returning_of_hurried (h : (pacedSessions qos).Reachable p) (hun : ¬ Unhurried (.main e) p) :
    rests e p.session = false ∧
      Returning (mainStep qos e p.session).client (mainStep qos e p.session).main := by
  have hok := (sessionInv (Paced.session_reachable h)).ok
  have hbad := (Classical.not_imp.mp hun).2
  clear h hun
  obtain ⟨⟨c, pc, worker, pending⟩, log⟩ := p
  dsimp only at hok hbad ⊢
  cases pc with
  | connectTest =>
      have hdown : c.mqttConnected = false := Bool.eq_false_iff.mpr hbad
      simp [mainStep, hdown, rests, Returning]
  | subscribe => exact ⟨rfl, mqttSubscribe_drops hbad hok _⟩
  | processInput =>
      have hfails : processInputRc (mqttInput c e.input).2 (mqttInput c e.input).1.revents ≠ 0 := by
        rw [mqttInput_revents]
        exact mt processInputRc_eq_zero_iff.mp hbad
      refine ⟨beq_eq_false_iff_ne.mpr hfails, ?_⟩
      show Returning _ (afterProcess (processInputRc (mqttInput c e.input).2
        (mqttInput c e.input).1.revents)).pc
      rw [leave_of_failed hfails]
      trivial
  | processLive =>
      have hfails : processLiveRc (mqttLive c e.live).2 ≠ 0 := mt processLiveRc_eq_zero_iff.mp hbad
      refine ⟨beq_eq_false_iff_ne.mpr hfails, ?_⟩
      show Returning _ (afterProcess (processLiveRc (mqttLive c e.live).2)).pc
      rw [leave_of_failed hfails]
      trivial
  | _ => exact absurd trivial hbad

/-- **No rest.** After a hurried step `main`, left alone, calls `mqtt_connect` again without a rest. -/
theorem attempts_again_of_hurried (h : (pacedSessions qos).Reachable p)
    (hun : ¬ Unhurried (.main e) p) :
    (mainAlone qos).Inevitable (fun p => ¬ Spaced p.log) (p.main qos e) := by
  obtain ⟨hrest, hret⟩ := returning_of_hurried h hun
  have howes : p.Owes := (Classical.not_imp.mp hun).1
  have hcall : p.session.main ≠ .connectCall := by
    intro hpc
    apply hun
    intro _
    rw [hpc]
    trivial
  rw [PaceInv.main_eq hcall hrest]
  exact attempts_again howes hret

end Returning

/-- The broker does not answer the first attempt: its poll times out, and `mqtt_connect` is called again. -/
def unanswered : Paced := (Paced.main mqttQos .silent)^[8] .boot

theorem unanswered_spaced : unanswered.log = [.attempt, .rest, .attempt] ∧ Spaced unanswered.log := by
  have hstep {p : Paced} (h : ((pacedSessions mqttQos).restrict Unhurried).Reachable p)
      (hun : Unhurried (.main .silent) p) :
      ((pacedSessions mqttQos).restrict Unhurried).Reachable (p.main mqttQos .silent) :=
    .step (l := PaceLabel.main .silent) h ⟨hun, .main _⟩
  have hcall := hstep (hstep (hstep (.init rfl) fun _ => trivial) fun _ => trivial) fun _ => trivial
  have htest := hstep hcall fun _ => trivial
  -- the poll has timed out: nothing is owed where the flag is tested
  have habort := hstep htest fun howes => by cases howes
  have hagain := hstep (hstep (hstep habort fun _ => trivial) fun _ => trivial) fun _ => trivial
  exact ⟨rfl, pacing_of_unhurried hagain⟩

/-- The broker answers with a CONNACK that refuses the connection. -/
def Env.refused : Env :=
  { Env.fine with input := .failed (some (.connack (-111), ⟨⟨0, false⟩, .ready 0⟩)) 110 true }

theorem refused_not_spaced :
    ∃ p, (pacedSessions mqttQos).Reachable p ∧ ¬ Spaced p.log := by
  refine ⟨_, Paced.mainSteps_reachable (.init rfl) .refused 9, ?_⟩
  have hlog : ((Paced.main mqttQos .refused)^[9] .boot).log = [.attempt, .attempt] := rfl
  rw [hlog]
  intro hspaced
  exact hspaced.1 rfl rfl

end ZephyrSamples.Mqtt
