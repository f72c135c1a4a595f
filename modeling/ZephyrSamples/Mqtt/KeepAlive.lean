/-
# ZephyrSamples.Mqtt.KeepAlive -- polls that time out, against a clock

`app_mqtt_process` polls for as long as `mqtt_keepalive_time_left` says when the poll starts, and takes
a timeout as the moment to ping. The library measures from the last write, and the work queue may
write while `main` is blocked in the poll. `Timed` puts the two threads of `Session` against a clock in
milliseconds: the poll of `app_mqtt_process` has a start and an end, every write moves
`last_activity`, and `mqtt_live` does what `last_activity` makes it do. A timed run is a run of
`sessions` (`Timed.session_reachable`).

`keepAlive_iff`: no timed-out poll made `app_mqtt_process` fail exactly if nothing was written less
than a keep-alive period before the `mqtt_live` of a timed-out poll.
-/
import ZephyrSamples.Mqtt.Numbering

namespace ZephyrSamples.Mqtt

open ZephyrSamples.Lib

/-! ## The library's clock -/

/-- `mqtt_keepalive_time_left`: -1 without a keep-alive period, else what is left of it. -/
def mqttKeepaliveTimeLeft (keepalive lastActivity now : Nat) : Int :=
  if keepalive = 0 then -1
  else if keepalive ≤ now - lastActivity then 0
  else (keepalive - (now - lastActivity) : Nat)

/-- What `mqtt_live` comes to when every write succeeds. -/
def liveOutcome (keepalive lastActivity now : Nat) : LiveOutcome :=
  if keepalive = 0 ∨ now - lastActivity < keepalive then .notYet else .ping ⟨0, false⟩

/-! ## Timed runs -/

/-- A call of `app_mqtt_process` that is in or behind its poll. -/
structure Window where
  start : Nat
  /-- `last_activity` at the start -/
  last : Nat
  /-- the timeout the poll was given -/
  timeLeft : Int
  /-- the latest write of the work queue since the start -/
  wrote : Option Nat
  deriving DecidableEq, Repr

/-- A poll that timed out: the latest write since its start, the time of its `mqtt_live`, and what
`app_mqtt_process` returned. -/
structure TimedOut where
  wrote : Option Nat
  live : Nat
  rc : Int
  deriving DecidableEq, Repr

structure Timed where
  session : Session
  now : Nat
  lastActivity : Nat
  window : Option Window
  timedOut : List TimedOut
  deriving DecidableEq, Repr

/-- How the poll of a window may end at time `now` on a socket without errors: by input, or by the
timeout once it is over. A negative timeout never is. -/
def Window.Ends (w : Window) (now : Nat) : PollOutcome → Prop
  | .failed _ => False
  | .ready r => r.pollin = true ∧ r.pollerr = false ∧ r.pollhup = false ∧ r.pollnval = false
  | .timeout => 0 ≤ w.timeLeft ∧ w.start + w.timeLeft ≤ now

/-- A write of the work queue at time `now` falls into the window, if there is one. -/
def Window.write (now : Nat) (w : Window) : Window := { w with wrote := some now }

/-- The next step of the work queue writes a PUBLISH. -/
def Writes (qos : QoS) (e : Env) (s : Session) : Prop :=
  s.worker = .publish ∧ (appMqttPublish qos s.client e.publish).2 = 0

instance (qos : QoS) (e : Env) (s : Session) : Decidable (Writes qos e s) :=
  inferInstanceAs (Decidable (_ ∧ _))

inductive TimedLabel where
  | time
  | main
  | workQueue
  deriving DecidableEq, Repr

/-- One step. The poll of `app_mqtt_process` is cut in two, so that time may pass and the work queue
may run in between; where `main` does anything else it may write or not. -/
inductive Timed.Step (qos : QoS) (keepalive : Nat) : TimedLabel → Timed → Timed → Prop
  | pass {t : Timed} (d : Nat) : Step qos keepalive .time t { t with now := t.now + d }
  | pollStart {t : Timed} (hpc : t.session.main = .processPoll) (hw : t.window = none) :
      Step qos keepalive .main t { t with
        window := some ⟨t.now, t.lastActivity,
          mqttKeepaliveTimeLeft keepalive t.lastActivity t.now, none⟩ }
  | pollReady {t : Timed} (w : Window) (e : Env) (r : Revents)
      (hpc : t.session.main = .processPoll) (hw : t.window = some w)
      (hleft : e.timeLeft = w.timeLeft) (hpoll : e.poll = .ready r) (hend : w.Ends t.now e.poll) :
      Step qos keepalive .main t { t with session := mainStep qos e t.session, window := none }
  | pollTimeout {t : Timed} (w : Window) (e : Env)
      (hpc : t.session.main = .processPoll) (hw : t.window = some w)
      (hleft : e.timeLeft = w.timeLeft) (hpoll : e.poll = .timeout) (hend : w.Ends t.now e.poll) :
      Step qos keepalive .main t { t with session := mainStep qos e t.session }
  | live {t : Timed} (w : Window) (e : Env)
      (hpc : t.session.main = .processLive) (hw : t.window = some w)
      (hlive : e.live = liveOutcome keepalive t.lastActivity t.now) :
      Step qos keepalive .main t { t with
        session := mainStep qos e t.session
        lastActivity := if e.live = .notYet then t.lastActivity else t.now
        window := none
        timedOut := ⟨w.wrote, t.now, processLiveRc (mqttLive t.session.client e.live).2⟩
          :: t.timedOut }
  | other {t : Timed} (e : Env) (writes : Bool)
      (hpoll : t.session.main ≠ .processPoll) (hlive : t.session.main ≠ .processLive) :
      Step qos keepalive .main t { t with
        session := mainStep qos e t.session
        lastActivity := if writes then t.now else t.lastActivity }
  | work {t : Timed} (e : Env) (s : Session) (hs : workerStep qos e t.session = some s)
      (hwrite : e.publish.publish.rc = 0) :
      Step qos keepalive .workQueue t { t with
        session := s
        lastActivity := if Writes qos e t.session then t.now else t.lastActivity
        window := if Writes qos e t.session then t.window.map (Window.write t.now) else t.window }

def Timed.boot : Timed := ⟨Session.boot, 0, 0, none, []⟩

/-- The client against the clock, for a keep-alive period of `keepalive` milliseconds. -/
def timedSessions (qos : QoS) (keepalive : Nat) : System Timed TimedLabel where
  init t := t = Timed.boot
  step := Timed.Step qos keepalive

/-- A step of a timed run is a step of one of the two threads, or changes neither. -/
theorem Timed.Step.session {qos : QoS} {keepalive : Nat} {label : TimedLabel} {t t' : Timed}
    (h : Timed.Step qos keepalive label t t') :
    t'.session = t.session ∨ ∃ thread, (sessions qos).step thread t.session t'.session := by
  cases h with
  | pass d => exact Or.inl rfl
  | pollStart hpc hw => exact Or.inl rfl
  | pollReady w e r hpc hw hleft hpoll hend => exact Or.inr ⟨.main, e, rfl⟩
  | pollTimeout w e hpc hw hleft hpoll hend => exact Or.inr ⟨.main, e, rfl⟩
  | live w e hpc hw hlive => exact Or.inr ⟨.main, e, rfl⟩
  | other e writes hpoll hlive => exact Or.inr ⟨.main, e, rfl⟩
  | work e s hs hwrite => exact Or.inr ⟨.workQueue, e, hs⟩

/-- A timed run is a run of the two threads. -/
theorem Timed.session_reachable {qos : QoS} {keepalive : Nat} {t : Timed}
    (h : (timedSessions qos keepalive).Reachable t) : (sessions qos).Reachable t.session := by
  refine h.project Timed.session ?_ fun t t' label hs => Timed.Step.session hs
  rintro t rfl
  rfl

/-! ## The invariant -/

/-- What a timed-out poll comes to: success, if the latest write since its start is a keep-alive
period old. -/
def TimedOut.Spared (keepalive : Nat) (p : TimedOut) : Prop :=
  ∀ w, p.wrote = some w → w + keepalive ≤ p.live

/-- A window knows the last activity: the write that fell into it, or else the one at its start. -/
structure Window.Ok (keepalive lastActivity : Nat) (w : Window) : Prop where
  wrote : ∀ x, w.wrote = some x → lastActivity = x
  quiet : w.wrote = none → lastActivity = w.last
  past : w.last ≤ w.start
  left : w.timeLeft = mqttKeepaliveTimeLeft keepalive w.last w.start

/-- `main` is in a poll of `app_mqtt_process`, or at the `mqtt_live` behind it. -/
def MainPc.InPoll (pc : MainPc) : Prop := pc = .processPoll ∨ pc = .processLive

structure TimedInv (keepalive : Nat) (t : Timed) : Prop where
  clock : t.lastActivity ≤ t.now
  isOpen : t.session.main.InPoll → t.session.client.transportOpen = true
  window : ∀ w, t.window = some w → w.Ok keepalive t.lastActivity
  owner : t.window ≠ none → t.session.main.InPoll
  expired : t.session.main = .processLive → ∀ w, t.window = some w →
    0 ≤ w.timeLeft ∧ w.start + w.timeLeft ≤ t.now
  polls : ∀ p ∈ t.timedOut, p.rc = 0 ↔ p.Spared keepalive

/-- With no window open three facts are left to show. -/
theorem TimedInv.of_noWindow {keepalive : Nat} {t : Timed} (hnone : t.window = none)
    (hclock : t.lastActivity ≤ t.now)
    (hopen : t.session.main.InPoll → t.session.client.transportOpen = true)
    (hpolls : ∀ p ∈ t.timedOut, p.rc = 0 ↔ p.Spared keepalive) : TimedInv keepalive t where
  clock := hclock
  isOpen := hopen
  window w hw := by
    rw [hnone] at hw
    cases hw
  owner hne := absurd hnone hne
  expired _ w hw := by
    rw [hnone] at hw
    cases hw
  polls := hpolls

theorem TimedInv.boot (keepalive : Nat) : TimedInv keepalive Timed.boot := by
  refine .of_noWindow rfl (le_refl _) ?_ fun p hp => absurd hp List.not_mem_nil
  rintro (hpc | hpc)
  · cases hpc
  · cases hpc

/-- `mqtt_live` on an open transport succeeds exactly if a period has passed since the last write. -/
theorem mqttLive_liveOutcome {c : Client} (hopen : c.transportOpen = true)
    (keepalive lastActivity now : Nat) :
    processLiveRc (mqttLive c (liveOutcome keepalive lastActivity now)).2 = 0 ↔
      keepalive ≠ 0 ∧ keepalive ≤ now - lastActivity := by
  unfold liveOutcome
  by_cases hdue : keepalive = 0 ∨ now - lastActivity < keepalive
  · rw [if_pos hdue]
    have hrc : processLiveRc (mqttLive c .notYet).2 = -EAGAIN := rfl
    rw [hrc]
    constructor
    · intro h
      cases h
    · intro h
      omega
  · rw [if_neg hdue]
    have hrc : processLiveRc (mqttLive c (.ping ⟨0, false⟩)).2 = 0 := by
      simp [mqttLive, libCall, hopen, processLiveRc]
    rw [hrc]
    omega

/-- A timeout that was waited for is what was left of the period: without a write the period is over. -/
theorem period_over {keepalive last start now : Nat} (hlast : last ≤ start)
    (h0 : 0 ≤ mqttKeepaliveTimeLeft keepalive last start)
    (hnow : start + mqttKeepaliveTimeLeft keepalive last start ≤ now) :
    keepalive ≠ 0 ∧ keepalive ≤ now - last := by
  unfold mqttKeepaliveTimeLeft at h0 hnow
  split_ifs at h0 hnow
  · omega
  · omega
  · omega

/-! ## Steps -/

theorem poll_transportOpen (c : Client) (timeout : Int) (o : PollOutcome) :
    (pollMqttSocket c timeout o).1.transportOpen = c.transportOpen := by
  rw [pollMqttSocket_eq]
  cases o <;> rfl

/-- A poll is entered from the loop test of `app_mqtt_run`. -/
theorem inPoll_of_successor {pc next : MainPc} (hmem : next ∈ pc.successors) (h : next.InPoll)
    (hpoll : pc ≠ .processPoll) : pc = .runWhile := by
  cases pc with
  | runWhile => rfl
  | processPoll => exact absurd rfl hpoll
  | _ =>
      simp only [MainPc.successors, List.mem_cons, List.not_mem_nil, or_false] at hmem
      rcases hmem with rfl | rfl <;> simp [MainPc.InPoll] at h

/-- The loop test of `app_mqtt_run` leads to a poll only with the flag up, and changes nothing. -/
theorem mainStep_enters_poll {qos : QoS} {e : Env} {s : Session}
    (hpc : (mainStep qos e s).main.InPoll) (hpoll : s.main ≠ .processPoll) :
    s.client.mqttConnected = true ∧ (mainStep qos e s).client = s.client := by
  have hwhile := inPoll_of_successor (mainStep_main_mem qos e s) hpc hpoll
  obtain ⟨c, pc, worker, pending⟩ := s
  obtain rfl : pc = .runWhile := hwhile
  refine ⟨?_, rfl⟩
  cases hup : c.mqttConnected with
  | true => rfl
  | false => simp [mainStep, hup, MainPc.InPoll] at hpc

/-- What follows `mqtt_live` is not a poll. -/
theorem mainStep_leaves_live {qos : QoS} {e : Env} {s : Session} (hlive : s.main = .processLive) :
    ¬ (mainStep qos e s).main.InPoll := by
  intro hpc
  have hwhile := inPoll_of_successor (mainStep_main_mem qos e s) hpc (by rw [hlive]; decide)
  rw [hlive] at hwhile
  cases hwhile

/-- **The verdict on a timed-out poll**, when its `mqtt_live` runs. -/
theorem TimedInv.verdict {keepalive : Nat} {t : Timed} (h : TimedInv keepalive t)
    (hpc : t.session.main = .processLive) {w : Window} (hw : t.window = some w) :
    processLiveRc (mqttLive t.session.client
        (liveOutcome keepalive t.lastActivity t.now)).2 = 0 ↔
      TimedOut.Spared keepalive ⟨w.wrote, t.now, 0⟩ := by
  obtain ⟨h0, hnow⟩ := h.expired hpc w hw
  obtain ⟨hwrote, hquiet, hpast, hleft⟩ := h.window w hw
  rw [hleft] at h0 hnow
  obtain ⟨hperiod, hover⟩ := period_over hpast h0 hnow
  rw [mqttLive_liveOutcome (h.isOpen (Or.inr hpc))]
  have hclock := h.clock
  cases hx : w.wrote with
  | none =>
      -- the timeout was computed from this very activity
      have hlast := hquiet hx
      constructor
      · intro _ x hsome
        cases hsome
      · intro _
        exact ⟨hperiod, hlast ▸ hover⟩
  | some x =>
      -- the period is measured from the write, which the timeout knew nothing of
      have hlast := hwrote x hx
      constructor
      · rintro ⟨-, hold⟩ y hy
        obtain rfl : x = y := Option.some.inj hy
        show x + keepalive ≤ t.now
        omega
      · intro hspared
        have hold : x + keepalive ≤ t.now := hspared x rfl
        exact ⟨hperiod, by omega⟩

theorem mainStep_poll_transportOpen {s : Session} (hpc : s.main = .processPoll) (qos : QoS) (e : Env) :
    (mainStep qos e s).client.transportOpen = s.client.transportOpen := by
  simp only [mainStep, hpc]
  exact poll_transportOpen s.client e.timeLeft e.poll

theorem Window.Ok.write {keepalive lastActivity : Nat} {w : Window} (h : w.Ok keepalive lastActivity)
    (now : Nat) : (w.write now).Ok keepalive now where
  wrote x hx := Option.some.inj hx
  quiet hx := by cases hx
  past := h.past
  left := h.left

namespace TimedInv

variable {qos : QoS} {keepalive : Nat} {t : Timed} {e : Env}

theorem pass (h : TimedInv keepalive t) (d : Nat) : TimedInv keepalive { t with now := t.now + d } where
  clock := Nat.le_add_right_of_le h.clock
  isOpen := h.isOpen
  window := h.window
  owner := h.owner
  expired hpc w hw := by
    obtain ⟨h0, hnow⟩ := h.expired hpc w hw
    refine ⟨h0, ?_⟩
    show w.start + w.timeLeft ≤ ((t.now + d : Nat) : Int)
    omega
  polls := h.polls

theorem pollStart (h : TimedInv keepalive t) (hpc : t.session.main = .processPoll) :
    TimedInv keepalive { t with
      window := some ⟨t.now, t.lastActivity,
        mqttKeepaliveTimeLeft keepalive t.lastActivity t.now, none⟩ } where
  clock := h.clock
  isOpen := h.isOpen
  window w hsome := by
    obtain rfl := Option.some.inj hsome
    exact ⟨fun x hx => (by cases hx), fun _ => rfl, h.clock, rfl⟩
  owner _ := Or.inl hpc
  expired hlive := by
    rw [show t.session.main = .processLive from hlive] at hpc
    cases hpc
  polls := h.polls

theorem pollReady (h : TimedInv keepalive t) (hpc : t.session.main = .processPoll) :
    TimedInv keepalive { t with session := mainStep qos e t.session, window := none } := by
  refine .of_noWindow rfl h.clock (fun _ => ?_) h.polls
  exact (mainStep_poll_transportOpen hpc qos e).trans (h.isOpen (Or.inl hpc))

theorem pollTimeout (h : TimedInv keepalive t) {w : Window} (hpc : t.session.main = .processPoll)
    (hw : t.window = some w) (hpoll : e.poll = .timeout) (hend : w.Ends t.now e.poll) :
    TimedInv keepalive { t with session := mainStep qos e t.session } where
  clock := h.clock
  isOpen _ := (mainStep_poll_transportOpen hpc qos e).trans (h.isOpen (Or.inl hpc))
  window := h.window
  owner _ := by
    refine Or.inr ?_
    simp only [mainStep, hpc, hpoll]
    rfl
  expired _ w' hw' := by
    obtain rfl : w = w' := Option.some.inj (hw.symm.trans hw')
    rw [hpoll] at hend
    exact hend
  polls := h.polls

theorem live (h : TimedInv keepalive t) {w : Window} (hpc : t.session.main = .processLive)
    (hw : t.window = some w) (hlive : e.live = liveOutcome keepalive t.lastActivity t.now) :
    TimedInv keepalive { t with
      session := mainStep qos e t.session
      lastActivity := if e.live = .notYet then t.lastActivity else t.now
      window := none
      timedOut := ⟨w.wrote, t.now, processLiveRc (mqttLive t.session.client e.live).2⟩
        :: t.timedOut } := by
  refine .of_noWindow rfl ?_ (fun hnext => absurd hnext (mainStep_leaves_live hpc)) ?_
  · have hclock := h.clock
    dsimp only
    split_ifs
    · exact hclock
    · exact le_refl _
  · refine List.forall_mem_cons.mpr ⟨?_, h.polls⟩
    rw [hlive]
    exact h.verdict hpc hw

/-- Outside a poll no window is open. -/
theorem noWindow (h : TimedInv keepalive t) (hpoll : ¬ t.session.main.InPoll) : t.window = none :=
  not_not.mp fun hne => hpoll (h.owner hne)

theorem other (h : TimedInv keepalive t) (hinv : SessionInv t.session) (writes : Bool)
    (hpoll : t.session.main ≠ .processPoll) (hlive : t.session.main ≠ .processLive) :
    TimedInv keepalive { t with
      session := mainStep qos e t.session
      lastActivity := if writes then t.now else t.lastActivity } := by
  refine .of_noWindow (h.noWindow fun hpc => hpc.elim hpoll hlive) ?_ ?_ h.polls
  · have hclock := h.clock
    dsimp only
    split_ifs
    · exact le_refl _
    · exact hclock
  · intro hpc
    obtain ⟨hup, hsame⟩ := mainStep_enters_poll hpc hpoll
    show (mainStep qos e t.session).client.transportOpen = true
    rw [hsame]
    exact hinv.ok.live hup

/-- A write of the work queue, as far as the clock sees it. -/
theorem write (h : TimedInv keepalive t) :
    TimedInv keepalive { t with
      lastActivity := t.now
      window := t.window.map (Window.write t.now) } where
  clock := le_refl _
  isOpen := h.isOpen
  window w hw := by
    obtain ⟨w0, hw0, rfl⟩ := Option.map_eq_some_iff.mp hw
    exact (h.window w0 hw0).write t.now
  owner hne := h.owner fun hnone => hne (by simp [hnone])
  expired hpc w hw := by
    obtain ⟨w0, hw0, rfl⟩ := Option.map_eq_some_iff.mp hw
    exact h.expired hpc w0 hw0
  polls := h.polls

/-- A step that leaves `main` where it is, as far as the session sees it. -/
theorem of_main (h : TimedInv keepalive t) {s : Session} (hmain : s.main = t.session.main)
    (hopen : s.client.transportOpen = t.session.client.transportOpen) :
    TimedInv keepalive { t with session := s } where
  clock := h.clock
  isOpen hpc := hopen.trans (h.isOpen (hmain ▸ hpc))
  window := h.window
  owner hne := show s.main.InPoll from hmain ▸ h.owner hne
  expired hpc := h.expired (hmain ▸ hpc)
  polls := h.polls

theorem work (h : TimedInv keepalive t) {s : Session} (hwork : workerStep qos e t.session = some s)
    (hwrite : e.publish.publish.rc = 0) :
    TimedInv keepalive { t with
      session := s
      lastActivity := if Writes qos e t.session then t.now else t.lastActivity
      window := if Writes qos e t.session then t.window.map (Window.write t.now) else t.window } := by
  obtain ⟨hmain, hclient⟩ := workerStep_client hwork
  have hopen : s.client.transportOpen = t.session.client.transportOpen := by
    rcases hclient with heq | heq
    · rw [heq]
    · rw [heq]
      exact congrArg Link.isOpen (link_appMqttPublish qos t.session.client (Or.inl hwrite))
  split_ifs
  · exact h.write.of_main hmain hopen
  · exact h.of_main hmain hopen

/-- **Step.** -/
theorem step {label : TimedLabel} {t' : Timed} (h : TimedInv keepalive t)
    (hinv : SessionInv t.session) (hs : Timed.Step qos keepalive label t t') :
    TimedInv keepalive t' := by
  cases hs with
  | pass d => exact h.pass d
  | pollStart hpc hw => exact h.pollStart hpc
  | pollReady w e r hpc hw hleft hpoll hend => exact h.pollReady hpc
  | pollTimeout w e hpc hw hleft hpoll hend => exact h.pollTimeout hpc hw hpoll hend
  | live w e hpc hw hlive => exact h.live hpc hw hlive
  | other e writes hpoll hlive => exact h.other hinv writes hpoll hlive
  | work e s hwork hwrite => exact h.work hwork hwrite

end TimedInv

theorem timedInv {qos : QoS} {keepalive : Nat} {t : Timed}
    (h : (timedSessions qos keepalive).Reachable t) : TimedInv keepalive t := by
  refine h.invariant ?_ ?_
  · rintro t rfl
    exact .boot keepalive
  · intro t t' label hr hinv hstep
    exact hinv.step (sessionInv (Timed.session_reachable hr)) hstep

/-! ## Keep-alive -/

/-- No poll that timed out made `app_mqtt_process` return non-zero. -/
def KeepsAlive (t : Timed) : Prop := ∀ p ∈ t.timedOut, p.rc = 0

/-- **Keep-alive.** For every period, every QoS and every interleaving of successful writes: a poll
that times out never made `app_mqtt_process` fail, if and only if no write of the work queue fell
between the start of a timed-out poll and its `mqtt_live`, less than a period before the latter. -/
theorem keepAlive_iff {qos : QoS} {keepalive : Nat} {t : Timed}
    (h : (timedSessions qos keepalive).Reachable t) :
    KeepsAlive t ↔ ∀ p ∈ t.timedOut, p.Spared keepalive :=
  forall₂_congr (timedInv h).polls

/-- Time may pass up to any later moment. -/
theorem wait_reachable {qos : QoS} {keepalive : Nat} {t : Timed}
    (h : (timedSessions qos keepalive).Reachable t) {n : Nat} (hn : t.now ≤ n) :
    (timedSessions qos keepalive).Reachable { t with now := n } := by
  obtain ⟨d, rfl⟩ := Nat.exists_eq_add_of_le hn
  exact .step (l := TimedLabel.time) h (.pass d)

/-! ### One poll of a minute -/

/-- The first session at the poll of `app_mqtt_process`, which is given the whole minute. -/
def minutePoll : Timed :=
  { Timed.boot with
    session := (mainStep mqttQos .fine)^[10] Session.boot
    window := some ⟨0, 0, 60000, none⟩ }

theorem minutePoll_reachable : (timedSessions mqttQos 60000).Reachable minutePoll := by
  have hpc : ∀ n < 10, ((mainStep mqttQos .fine)^[n] Session.boot).main ≠ .processPoll ∧
      ((mainStep mqttQos .fine)^[n] Session.boot).main ≠ .processLive := by decide
  have hsteps : ∀ n ≤ 10, (timedSessions mqttQos 60000).Reachable
      { Timed.boot with session := (mainStep mqttQos .fine)^[n] Session.boot } := by
    intro n hn
    induction n with
    | zero => exact .init rfl
    | succ n ih =>
        rw [Function.iterate_succ_apply']
        exact .step (ih (by omega)) (.other .fine true (hpc n hn).1 (hpc n hn).2)
  exact .step (hsteps 10 (le_refl _)) (.pollStart (by decide) rfl)

/-- Nothing comes in for the minute the poll was given. -/
def Env.minute : Env := { Env.silent with timeLeft := 60000 }

/-- The poll of a session times out after a minute and `app_mqtt_process` returns. -/
theorem minute_over {t : Timed} (h : (timedSessions mqttQos 60000).Reachable t)
    (hpc : t.session.main = .processPoll) {w : Window} (hw : t.window = some w)
    (hstart : w.start = 0) (hleft : w.timeLeft = 60000) (hnow : t.now = 60000) :
    ∃ t', (timedSessions mqttQos 60000).Reachable t' ∧ t'.timedOut =
      ⟨w.wrote, 60000, processLiveRc (mqttLive (mainStep mqttQos .minute t.session).client
        (liveOutcome 60000 t.lastActivity 60000)).2⟩ :: t.timedOut := by
  have htimeout : (timedSessions mqttQos 60000).Reachable
      { t with session := mainStep mqttQos .minute t.session } := by
    refine .step (l := TimedLabel.main) h (.pollTimeout w .minute hpc hw hleft.symm rfl ?_)
    show 0 ≤ w.timeLeft ∧ w.start + w.timeLeft ≤ t.now
    omega
  have hlive : (mainStep mqttQos .minute t.session).main = .processLive := by
    simp only [mainStep, hpc]
    rfl
  refine ⟨_, .step (l := TimedLabel.main) htimeout
    (.live w { Env.minute with live := liveOutcome 60000 t.lastActivity t.now } hlive hw rfl), ?_⟩
  dsimp only
  rw [hnow]

/-- A quiet minute ends in a ping. -/
theorem quietMinute_keepsAlive : ∃ t, (timedSessions mqttQos 60000).Reachable t ∧
    t.timedOut.length = 1 ∧ KeepsAlive t := by
  have hpass : (timedSessions mqttQos 60000).Reachable { minutePoll with now := 60000 } :=
    wait_reachable minutePoll_reachable (Nat.zero_le _)
  obtain ⟨t, hr, ht⟩ := minute_over hpass (by decide) rfl rfl rfl rfl
  refine ⟨t, hr, by rw [ht]; rfl, (keepAlive_iff hr).mpr ?_⟩
  rw [ht]
  intro p hp x hx
  obtain rfl := List.mem_singleton.mp hp
  cases hx

/-- One publish, three seconds into the poll, and the healthy connection is given up. -/
theorem publishInPoll_gives_up :
    ¬ ∀ t, (timedSessions mqttQos 60000).Reachable t → KeepsAlive t := by
  intro h
  let s := (mainStep mqttQos .fine)^[10] Session.boot
  have hpass : (timedSessions mqttQos 60000).Reachable { minutePoll with now := 3000 } :=
    wait_reachable minutePoll_reachable (Nat.zero_le _)
  have htest : (timedSessions mqttQos 60000).Reachable
      { minutePoll with now := 3000, session := { s with worker := .test, pending := [] } } :=
    .step (l := TimedLabel.workQueue) hpass (.work .fine _ rfl rfl)
  have hpublish : (timedSessions mqttQos 60000).Reachable
      { minutePoll with now := 3000, session := { s with worker := .publish, pending := [] } } :=
    .step (l := TimedLabel.workQueue) htest (.work .fine _ rfl rfl)
  have hpublished : (timedSessions mqttQos 60000).Reachable
      { minutePoll with
        now := 3000
        session := { s with
          client := (appMqttPublish mqttQos s.client Env.fine.publish).1
          worker := .published, pending := [] }
        lastActivity := 3000
        window := some ⟨0, 0, 60000, some 3000⟩ } :=
    .step (l := TimedLabel.workQueue) hpublish (.work .fine _ rfl rfl)
  have hwait := wait_reachable hpublished (n := 60000) (by decide)
  obtain ⟨t, hr, ht⟩ := minute_over hwait (by decide) rfl rfl rfl rfl
  have hrc := h t hr _ (ht ▸ List.mem_cons_self)
  revert hrc
  decide

end ZephyrSamples.Mqtt
