/-
# ZephyrSamples.Mqtt.Polling -- when `app_mqtt_process` notices a dead connection

`app_mqtt_process` looks at `fds[0].revents` whenever `poll` did not time out, a failing `poll`
included, and looks for error flags only behind the test for `POLLIN`. `deadConnection_iff` gives,
for every state of the static `pollfd` and every outcome of the calls, the exact condition under
which a failed or erroneous poll is nevertheless reported to `app_mqtt_run`, input is read only on
fresh readiness, and zero is returned only on a healthy socket.
-/
import ZephyrSamples.Mqtt.Process

namespace ZephyrSamples.Mqtt

/-! ## The three requirements -/

/-- `POLLHUP`, `POLLERR` or `POLLNVAL` is reported. -/
def Revents.hasError (r : Revents) : Bool := r.pollhup || r.pollerr || r.pollnval

/-- The poll succeeded and reported no error flag. -/
def PollOutcome.Healthy : PollOutcome → Prop
  | .failed _ => False
  | .timeout => True
  | .ready r => r.hasError = false

/-- The poll reported input. -/
def PollOutcome.ReportsInput : PollOutcome → Prop
  | .ready r => r.pollin = true
  | _ => False

/-- What a caller relies on: an unhealthy poll makes `app_mqtt_process` return non-zero, so that the
loop is left; input is read only when this very poll reported it; zero means that the poll was
healthy and that the library call made, if any, returned zero. -/
structure NoticesDeadConnection (c : Client) (e : ProcessEnv) : Prop where
  leaves : ¬ e.poll.Healthy →
    (appMqttProcess c e).2 ≠ 0 ∧ afterProcess (appMqttProcess c e).2 = .leave
  freshInput : Called .mqttInput c (appMqttProcess c e).1 → e.poll.ReportsInput
  zeroHealthy : (appMqttProcess c e).2 = 0 → e.poll.Healthy ∧
    (Called .mqttInput c (appMqttProcess c e).1 → (mqttInput (c.polled e) e.input).2 = 0) ∧
    (Called .mqttLive c (appMqttProcess c e).1 → (mqttLive (c.polled e) e.live).2 = 0)

/-- When the code meets them. The poll must not fail. If it reports input and `mqtt_input` succeeds,
`POLLNVAL` must not come alone; if it reports readiness without input, no error flag may be set. -/
def ErrorsVisible (c : Client) (e : ProcessEnv) : Prop :=
  match e.poll with
  | .failed _ => False
  | .timeout => True
  | .ready r =>
      if r.pollin then (mqttInput (c.polled e) e.input).2 ≠ 0 ∨
        (r.pollnval = true → r.pollhup = true ∨ r.pollerr = true)
      else r.hasError = false

/-! ## The cases of the poll -/

/-- A failing poll leaves the old flags to decide, and its own code is lost. -/
theorem appMqttProcess_failed (c : Client) {e : ProcessEnv} {err : Nat}
    (hp : e.poll = .failed err) :
    appMqttProcess c e = if c.revents.pollin then
      ((mqttInput (prepareFds c) e.input).1,
        processInputRc (mqttInput (prepareFds c) e.input).2 c.revents)
      else (prepareFds c, 0) := by
  have hrc : (-(err + 1 : Nat) : Int) ≠ 0 := by omega
  have hrev : (prepareFds c).revents = c.revents := rfl
  simp only [appMqttProcess, pollMqttSocket_eq, hp, poll, processCall, hrc, if_true, hrev, ne_eq,
    not_false_eq_true]
  cases c.revents.pollin <;> simp [hrev]

/-- Readiness without `POLLIN` ends `app_mqtt_process` at once. -/
theorem appMqttProcess_noInput (c : Client) {e : ProcessEnv} {r : Revents}
    (hp : e.poll = .ready r) (hin : r.pollin = false) :
    appMqttProcess c e = (c.polled e, 0) := by
  simp [appMqttProcess, Client.polled, hp, poll, processCall, hin]

theorem afterProcess_leave_iff (rc : Int) : afterProcess rc = .leave ↔ rc ≠ 0 := by
  unfold afterProcess
  split_ifs with h
  · simp [h]
  · simpa using h

/-! ## The condition -/

theorem notices_failed {c : Client} {e : ProcessEnv} {err : Nat} (hp : e.poll = .failed err) :
    ¬ NoticesDeadConnection c e := by
  intro h
  have hproc := appMqttProcess_failed c hp
  cases hin : c.revents.pollin with
  | false =>
      -- no old POLLIN: the failure is swallowed
      rw [hin, if_neg (by simp)] at hproc
      have hrc := (h.leaves (by simp [hp, PollOutcome.Healthy])).1
      rw [hproc] at hrc
      exact hrc rfl
  | true =>
      -- an old POLLIN: input is read from a socket that reported none
      rw [hin, if_pos rfl] at hproc
      have hcalled : Called .mqttInput c (appMqttProcess c e).1 := by
        rw [hproc]
        exact (grows_mqttInput (prepareFds c) e.input).called_of_emit
      have hfresh := h.freshInput hcalled
      simp [hp, PollOutcome.ReportsInput] at hfresh

theorem notices_timeout {c : Client} {e : ProcessEnv} (hp : e.poll = .timeout) :
    NoticesDeadConnection c e := by
  have hproc := appMqttProcess_timeout c hp
  have hhealthy : e.poll.Healthy := by simp [hp, PollOutcome.Healthy]
  have hpoll : Grows (· ≠ .mqttInput) c ((c.polled e).emit .mqttLive) :=
    ((grows_polled c e).mono fun a ha => by simp [ha]).trans
      (.of_cons (a := .mqttLive) rfl (by simp))
  have hnoInput : ¬ Called .mqttInput c (appMqttProcess c e).1 := by
    rw [hproc]
    refine (hpoll.trans ((grows_mqttLive (c.polled e) e.live).mono ?_)).not_called (by simp)
    rintro a rfl
    simp
  refine ⟨fun hsick => absurd hhealthy hsick, fun hcalled => absurd hcalled hnoInput, ?_⟩
  intro hzero
  refine ⟨hhealthy, fun hcalled => absurd hcalled hnoInput, fun _ => ?_⟩
  rw [hproc] at hzero
  simpa [processLiveRc] using hzero

/-- Readiness without `POLLIN` is answered by zero and no call. -/
theorem notices_noInput_iff {c : Client} {e : ProcessEnv} {r : Revents} (hp : e.poll = .ready r)
    (hin : r.pollin = false) : NoticesDeadConnection c e ↔ r.hasError = false := by
  have hproc := appMqttProcess_noInput c hp hin
  have hhealthy : e.poll.Healthy ↔ r.hasError = false := by simp [hp, PollOutcome.Healthy]
  have hgrows : Grows (fun _ => False) c (appMqttProcess c e).1 := by
    rw [hproc]
    exact .of_log_eq (by simp [Client.polled, hp, poll, prepareFds])
  constructor
  · intro h
    by_contra hsick
    exact (h.leaves (mt hhealthy.mp hsick)).1 (by rw [hproc])
  · intro hok
    exact ⟨fun hsick => absurd (hhealthy.mpr hok) hsick,
      fun hcalled => absurd hcalled (hgrows.not_called (by simp)),
      fun _ => ⟨hhealthy.mpr hok, fun hcalled => absurd hcalled (hgrows.not_called (by simp)),
        fun hcalled => absurd hcalled (hgrows.not_called (by simp))⟩⟩

theorem pollin_not_mqttLive {c : Client} {e : ProcessEnv} {r : Revents} (hp : e.poll = .ready r)
    (hin : r.pollin = true) : ¬ Called .mqttLive c (appMqttProcess c e).1 := by
  have hpoll : Grows (· ≠ .mqttLive) c ((c.polled e).emit .mqttInput) :=
    ((grows_polled c e).mono fun a ha => by simp [ha]).trans
      (.of_cons (a := .mqttInput) rfl (by simp))
  rw [appMqttProcess_pollin c hp hin]
  refine (hpoll.trans ((grows_mqttInput (c.polled e) e.input).mono ?_)).not_called (by simp)
  rintro a ha rfl
  simp [Act.ByCallback, Act.IsNote] at ha

/-- Readiness with `POLLIN` is answered by `mqtt_input`; only a lone `POLLNVAL` goes unseen. -/
theorem notices_pollin_iff {c : Client} {e : ProcessEnv} {r : Revents} (hp : e.poll = .ready r)
    (hin : r.pollin = true) : NoticesDeadConnection c e ↔
      (mqttInput (c.polled e) e.input).2 ≠ 0 ∨
        (r.pollnval = true → r.pollhup = true ∨ r.pollerr = true) := by
  have hrc : (appMqttProcess c e).2 = processInputRc (mqttInput (c.polled e) e.input).2 r := by
    rw [appMqttProcess_pollin c hp hin]
  have hzero : processInputRc (mqttInput (c.polled e) e.input).2 r = 0 ↔
      (mqttInput (c.polled e) e.input).2 = 0 ∧ r.pollhup = false ∧ r.pollerr = false := by
    rw [processInputRc_eq_zero_iff, Bool.or_eq_false_iff]
  have hhealthy : e.poll.Healthy ↔ r.hasError = false := by simp [hp, PollOutcome.Healthy]
  constructor
  · intro h
    by_cases hinput : (mqttInput (c.polled e) e.input).2 = 0
    · refine Or.inr fun hnval => ?_
      by_contra hno
      simp only [not_or, Bool.not_eq_true] at hno
      have hret := hzero.mpr ⟨hinput, hno⟩
      exact (h.leaves (by simp [hhealthy, Revents.hasError, hnval])).1 (hrc.trans hret)
    · exact Or.inl hinput
  · intro hvisible
    have hok : (appMqttProcess c e).2 = 0 → r.hasError = false := by
      intro hret
      obtain ⟨hinput, hhup, herr⟩ := hzero.mp (hrc.symm.trans hret)
      rcases hvisible with hne | hnval
      · exact absurd hinput hne
      · have : r.pollnval = false := by
          cases hn : r.pollnval with
          | false => rfl
          | true => simpa [hhup, herr] using hnval hn
        simp [Revents.hasError, hhup, herr, this]
    refine ⟨fun hsick => ?_, fun _ => by simpa [hp, PollOutcome.ReportsInput] using hin, ?_⟩
    · have hret : (appMqttProcess c e).2 ≠ 0 := fun hret => hsick (hhealthy.mpr (hok hret))
      exact ⟨hret, (afterProcess_leave_iff _).mpr hret⟩
    · intro hret
      exact ⟨hhealthy.mpr (hok hret), fun _ => (hzero.mp (hrc.symm.trans hret)).1,
        fun hcalled => absurd hcalled (pollin_not_mqttLive hp hin)⟩

/-- **Dead connections.** Whatever earlier polls left in `revents` and whatever the calls return,
`app_mqtt_process` meets the three requirements if and only if `ErrorsVisible`. -/
theorem deadConnection_iff (c : Client) (e : ProcessEnv) :
    NoticesDeadConnection c e ↔ ErrorsVisible c e := by
  unfold ErrorsVisible
  cases hp : e.poll with
  | failed err => exact iff_of_false (notices_failed hp) id
  | timeout => exact iff_of_true (notices_timeout hp) trivial
  | ready r =>
      dsimp only
      cases hin : r.pollin with
      | false => simpa using notices_noInput_iff hp hin
      | true => simpa using notices_pollin_iff hp hin

/-- The peer hung up: `POLLHUP` and nothing to read. -/
def hungUp : ProcessEnv := ⟨60000, .ready ⟨false, false, true, false⟩, .incomplete, .notYet⟩

/-- `app_mqtt_process` returns 0 on it, so `app_mqtt_run` polls the dead socket again. -/
theorem hungUp_unnoticed :
    ¬ NoticesDeadConnection { Client.boot with mqttConnected := true, transportOpen := true }
      hungUp := by
  intro h
  have hrc := (h.leaves (by simp [hungUp, PollOutcome.Healthy, Revents.hasError])).1
  revert hrc
  decide

end ZephyrSamples.Mqtt
