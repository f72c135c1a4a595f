/-
# ZephyrSamples.Mqtt.Schedule -- periodic publishing is never lost

`main` schedules `mqtt_publish_work` once per session; from then on `publish_work_handler` keeps it
alive, or cancels it when it finds the flag down. A handler that was suspended in `mqtt_publish` may
wake up in a later session, and a cancel there would end the telemetry of a healthy connection.

`periodic_publishing`: under the cooperative work queue thread this never happens. The handler tests
the flag and cancels without giving the processor away, so it cancels only while the flag is down; and
once `main` is past the scheduling, the flag cannot be raised again before the next one, because it is
already up whenever the transport is open (`Link.At`).
-/
import ZephyrSamples.Mqtt.SessionInvariant

namespace ZephyrSamples.Mqtt

open ZephyrSamples.Lib

/-! ## Where the work item is owed -/

/-- `main` is inside the loop of `app_mqtt_run`. -/
def MainPc.InRunLoop : MainPc → Prop
  | .runWhile | .processPoll | .processInput | .processLive => True
  | _ => False

/-- `main` has scheduled the work item for this session: the SUBSCRIBE, then the loop. -/
def MainPc.Scheduled (pc : MainPc) : Prop := pc = .subscribe ∨ pc.InRunLoop

/-- The item is pending or its handler is running. -/
def Session.Alive (s : Session) : Prop := s.pending ≠ [] ∨ s.worker ≠ .idle

/-- One instance at most; it is alive in a scheduled session with the flag up; and the handler is
about to cancel it only with the flag down. -/
structure ScheduleInv (s : Session) : Prop where
  single : s.pending.length ≤ 1
  alive : s.main.Scheduled → s.client.mqttConnected = true → s.Alive
  cancel : s.worker = .cancel → s.client.mqttConnected = false

theorem ScheduleInv.boot : ScheduleInv Session.boot := by
  refine ⟨by decide, fun _ hup => ?_, ?_⟩
  · cases hup
  · simp [Session.boot]

/-! ## `main` -/

theorem mainStep_worker (qos : QoS) (e : Env) (s : Session) :
    (mainStep qos e s).worker = s.worker := by
  obtain ⟨c, pc, worker, pending⟩ := s
  cases pc <;> rfl

/-- `main` touches the queue where it reschedules, nowhere else. -/
theorem mainStep_pending (qos : QoS) (e : Env) {s : Session} (h : s.main ≠ .reschedule) :
    (mainStep qos e s).pending = s.pending := by
  obtain ⟨c, pc, worker, pending⟩ := s
  cases pc with
  | reschedule => exact absurd rfl h
  | _ => rfl

/-- Inside a session `mqtt_input` does not raise the flag either: on an open transport it is up. -/
theorem mqttInput_connected {c : Client} (hat : c.link.At .processInput) (o : InputOutcome)
    (hup : (mqttInput c o).1.mqttConnected = true) : c.mqttConnected = true := by
  rcases mqttInput_link_cases c o with hq | ⟨hopen, -⟩
  · exact hq.connected hup
  · exact hat hopen

theorem scheduled_of_successor {pc next : MainPc} (hmem : next ∈ pc.successors)
    (h : next.Scheduled) : pc = .reschedule ∨ pc.Scheduled := by
  cases pc with
  | reschedule => exact Or.inl rfl
  | subscribe => exact Or.inr (Or.inl rfl)
  | runWhile | processPoll | processInput | processLive => exact Or.inr (Or.inr trivial)
  | _ =>
      simp only [MainPc.successors, List.mem_cons, List.not_mem_nil, or_false] at hmem
      rcases hmem with rfl | rfl <;> simp [MainPc.Scheduled, MainPc.InRunLoop] at h

/-- In a scheduled session no step of `main` raises the flag. -/
theorem mainStep_connected {qos : QoS} {e : Env} {s : Session} (hinv : SessionInv s)
    (hpc : s.main.Scheduled) (hup : (mainStep qos e s).client.mqttConnected = true) :
    s.client.mqttConnected = true := by
  have hlink := hinv.point
  obtain ⟨c, pc, worker, pending⟩ := s
  rcases hpc with hsub | hrun
  · obtain rfl : pc = .subscribe := hsub
    exact (quiet_mqttSubscribe c _ e.call).connected hup
  · cases pc with
    | runWhile => exact hup
    | processPoll => exact (quiet_poll c e.timeLeft e.poll).connected hup
    | processInput => exact mqttInput_connected hlink e.input hup
    | processLive => exact (quiet_mqttLive c e.live).connected hup
    | _ => exact hrun.elim

/-- **Step.** `main`, let in where the handler gives the processor away, keeps the item alive. -/
theorem ScheduleInv.main_step {s : Session} (h : ScheduleInv s) (hinv : SessionInv s)
    (hyield : Yields s) (qos : QoS) (e : Env) : ScheduleInv (mainStep qos e s) := by
  have hworker := mainStep_worker qos e s
  have hcancel : (mainStep qos e s).worker = .cancel →
      (mainStep qos e s).client.mqttConnected = false := by
    intro hc
    rw [hworker] at hc
    -- the handler does not give the processor away between its test and its cancel
    rcases hyield with hy | hy | hy
    · simp [hy] at hc
    · simp [hy] at hc
    · simp [hy] at hc
  by_cases hpc : s.main = .reschedule
  · obtain ⟨c, pc, worker, pending⟩ := s
    obtain rfl : pc = .reschedule := hpc
    refine ⟨?_, fun _ _ => Or.inl (List.cons_ne_nil _ _), hcancel⟩
    have hone : pending.length ≤ 1 := h.single
    show (mqttPublishInterval :: pending.drop 1).length ≤ 1
    rw [List.length_cons, List.length_drop]
    omega
  · have hpending := mainStep_pending qos e hpc
    refine ⟨hpending ▸ h.single, ?_, hcancel⟩
    intro hsched hup
    rcases scheduled_of_successor (mainStep_main_mem qos e s) hsched with hres | hold
    · exact absurd hres hpc
    · rw [Session.Alive, hpending, hworker]
      exact h.alive hold (mainStep_connected hinv hold hup)

/-! ## The work queue -/

/-- **Step.** The handler keeps the item alive with the flag up, and cancels it with the flag down. -/
theorem ScheduleInv.worker_step {s s' : Session} (h : ScheduleInv s) {qos : QoS} {e : Env}
    (hs : workerStep qos e s = some s') : ScheduleInv s' := by
  obtain ⟨c, pc, worker, pending⟩ := s
  have hone : pending.length ≤ 1 := h.single
  have hdrop : (pending.drop 1).length = 0 := by
    rw [List.length_drop]
    omega
  cases worker with
  | idle =>
      cases pending with
      | nil => cases hs
      | cons d rest =>
          -- the item leaves the pending state and its handler starts
          cases hs
          refine ⟨?_, fun _ _ => Or.inr (by simp), by simp⟩
          rw [List.length_cons] at hone
          show rest.length ≤ 1
          omega
  | test =>
      cases hs
      refine ⟨hone, fun _ _ => Or.inr ?_, fun hc => ?_⟩
      · show (if c.mqttConnected then WorkerPc.publish else .cancel) ≠ .idle
        split_ifs <;> simp
      · cases hup : c.mqttConnected with
        | false => rfl
        | true => simp [hup] at hc
  | publish => cases hs; exact ⟨hone, fun _ _ => Or.inr (by simp), by simp⟩
  | published => cases hs; exact ⟨hone, fun _ _ => Or.inr (by simp), by simp⟩
  | reschedule =>
      cases hs
      refine ⟨?_, fun _ _ => Or.inl (List.cons_ne_nil _ _), by simp⟩
      show (mqttPublishInterval :: pending.drop 1).length ≤ 1
      rw [List.length_cons]
      omega
  | cancel =>
      -- the item goes, but the flag is still down: nothing is owed
      cases hs
      have hdown : c.mqttConnected = false := h.cancel rfl
      refine ⟨?_, fun _ hup => ?_, by simp⟩
      · show (pending.drop 1).length ≤ 1
        omega
      · rw [show c.mqttConnected = true from hup] at hdown
        cases hdown

/-! ## Runs -/

theorem scheduleInv {qos : QoS} {s : Session} (h : (coopSessions qos).Reachable s) :
    ScheduleInv s := by
  refine h.invariant ?_ ?_
  · rintro s rfl
    exact .boot
  · rintro s t thread hr hinv ⟨hyield, hstep⟩
    cases thread with
    | main =>
        obtain ⟨e, rfl⟩ := hstep
        exact hinv.main_step (sessionInv hr.of_restrict) (hyield rfl) qos e
    | workQueue =>
        obtain ⟨e, he⟩ := hstep
        exact hinv.worker_step he

/-- **Periodic publishing is never lost.** In every reachable state under the cooperative work queue
thread, over any number of reconnects: there is at most one pending instance of the work item, and
while `main` is inside the loop of `app_mqtt_run` with the flag up, the item is pending or its handler
is running. -/
theorem periodic_publishing {qos : QoS} {s : Session} (h : (coopSessions qos).Reachable s) :
    s.pending.length ≤ 1 ∧
      (s.main.InRunLoop → s.client.mqttConnected = true → s.pending ≠ [] ∨ s.worker ≠ .idle) :=
  ⟨(scheduleInv h).single, fun hpc hup => (scheduleInv h).alive (Or.inr hpc) hup⟩

/-- `main` may step any number of times while the queue is idle. -/
theorem coop_mainSteps_reachable {qos : QoS} {s : Session} (h : (coopSessions qos).Reachable s)
    (hidle : s.worker = .idle) (e : Env) (n : Nat) :
    (coopSessions qos).Reachable ((mainStep qos e)^[n] s) ∧
      ((mainStep qos e)^[n] s).worker = .idle := by
  induction n with
  | zero => exact ⟨h, hidle⟩
  | succ n ih =>
      rw [Function.iterate_succ_apply', mainStep_worker]
      exact ⟨.step (l := Thread.main) ih.1 ⟨fun _ => Or.inl ih.2, e, rfl⟩, ih.2⟩

theorem firstSession_publishing :
    (firstSession mqttQos).main.InRunLoop ∧ (firstSession mqttQos).client.mqttConnected = true ∧
      ((firstSession mqttQos).pending ≠ [] ∨ (firstSession mqttQos).worker ≠ .idle) := by
  have h := periodic_publishing (coop_mainSteps_reachable (.init rfl) rfl .fine 9 :
    (coopSessions mqttQos).Reachable (firstSession mqttQos) ∧ _).1
  have hpc : (firstSession mqttQos).main = .runWhile := by decide
  have hup : (firstSession mqttQos).client.mqttConnected = true := by decide
  have hrun : (firstSession mqttQos).main.InRunLoop := by
    rw [hpc]
    trivial
  exact ⟨hrun, hup, h.2 hrun hup⟩

end ZephyrSamples.Mqtt
