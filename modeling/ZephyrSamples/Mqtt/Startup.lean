/-
# ZephyrSamples.Mqtt.Startup -- waiting for the first address

Before it touches the broker, `main` registers `net_event_handler`, asks whether the interface has a
preferred address, and if not waits for a semaphore the handler gives. The network stack makes
addresses preferred and dispatches their events on its own account, before, between and after these
steps; an event is dispatched to whoever is registered when that happens.

The order register, ask, wait is what makes this right: an address that appears before the question is
seen by it, and one that appears after finds the handler registered (`StartInv.awake`).
-/
import Mathlib.Data.List.Basic
import ZephyrSamples.Lib.Transition

namespace ZephyrSamples.Mqtt

open ZephyrSamples.Lib

/-! ## `main` up to `app_mqtt_init` -/

/-- What the network stack reports: `NET_EVENT_IPV4_ADDR_ADD`, or another event. -/
inductive NetEvent where
  | ipv4AddrAdd
  | other (code : Nat)
  deriving DecidableEq, Repr

/-- Where `main` stands: before `net_mgmt_add_event_callback`, before `net_if_ipv4_get_global_addr`, before
`k_sem_take`, inside it, at `app_mqtt_init`. -/
inductive StartPc where
  | register
  | ask
  | take
  | blocked
  | init
  deriving DecidableEq, Repr

/-- `main`, `net_conn_sem`, and the interface: whether it has a preferred address, which events are still
to be dispatched, and whether it ever had such an address. -/
structure Startup where
  pc : StartPc
  registered : Bool
  sem : Nat
  preferred : Bool
  pending : List NetEvent
  everPreferred : Bool
  deriving DecidableEq, Repr

namespace Startup

/-- `K_SEM_DEFINE(net_conn_sem, 0, 1)`, and nothing has happened. -/
def boot : Startup := ⟨.register, false, 0, false, [], false⟩

/-- `k_sem_give(&net_conn_sem)`: a waiting `main` is released, otherwise the count rises up to 1. -/
def kSemGive (s : Startup) : Startup :=
  if s.pc = .blocked then { s with pc := .init } else { s with sem := min 1 (s.sem + 1) }

/-- `net_event_handler` -/
def netEventHandler (s : Startup) : NetEvent → Startup
  | .ipv4AddrAdd => s.kSemGive
  | .other _ => s

/-! ### Steps of `main` -/

def register (s : Startup) : Startup := { s with registered := true, pc := .ask }

/-- `if (!net_if_ipv4_get_global_addr(iface, NET_ADDR_PREFERRED))` -/
def ask (s : Startup) : Startup := { s with pc := if s.preferred then .init else .take }

/-- `k_sem_take(&net_conn_sem, K_MSEC(5000))`: it returns 0 at once or blocks. -/
def take (s : Startup) : Startup :=
  if s.sem > 0 then { s with sem := s.sem - 1, pc := .init } else { s with pc := .blocked }

/-- The five seconds are over: `k_sem_take` fails and is called again. -/
def timeout (s : Startup) : Startup := { s with pc := .take }

/-! ### Steps of the network stack -/

/-- An address becomes preferred, which raises its event. -/
def prefer (s : Startup) : Startup :=
  { s with
    preferred := true
    everPreferred := true
    pending := .ipv4AddrAdd :: s.pending }

/-- No address is preferred any more. -/
def lose (s : Startup) : Startup := { s with preferred := false }

def raise (s : Startup) (code : Nat) : Startup := { s with pending := .other code :: s.pending }

/-- An event is dispatched to the callbacks registered now. -/
def dispatch (s : Startup) (e : NetEvent) : Startup :=
  let s := { s with pending := s.pending.erase e }
  if s.registered then s.netEventHandler e else s

end Startup

inductive StartLabel where
  | main
  | network
  deriving DecidableEq, Repr

inductive Startup.Step : StartLabel → Startup → Startup → Prop
  | register {s : Startup} : s.pc = .register → Step .main s s.register
  | ask {s : Startup} : s.pc = .ask → Step .main s s.ask
  | take {s : Startup} : s.pc = .take → Step .main s s.take
  | timeout {s : Startup} : s.pc = .blocked → Step .main s s.timeout
  | prefer {s : Startup} : Step .network s s.prefer
  | lose {s : Startup} : Step .network s s.lose
  | raise {s : Startup} (code : Nat) : Step .network s (s.raise code)
  | dispatch {s : Startup} {e : NetEvent} : e ∈ s.pending → Step .network s (s.dispatch e)

/-- `main` and the network stack in any order. -/
def startups : System Startup StartLabel where
  init s := s = .boot
  step := Startup.Step

/-- `main` is in its wait loop. -/
def Startup.Waits (s : Startup) : Prop := s.pc = .take ∨ s.pc = .blocked

/-- `app_mqtt_init` is called only after an address became preferred, and `main` does not wait for an
event that has come and gone. -/
structure NoLostWakeup (s : Startup) : Prop where
  noEarlyExit : s.pc = .init → s.everPreferred = true
  notStuck : ¬ (s.Waits ∧ s.preferred = true ∧ NetEvent.ipv4AddrAdd ∉ s.pending ∧ s.sem = 0)

/-! ## The invariant -/

/-- An address is evidence of itself, and so are its event, the semaphore and the end of the wait; while
`main` waits, a preferred address has its event before it or the semaphore is up. -/
structure StartInv (s : Startup) : Prop where
  preferred : s.preferred = true → s.everPreferred = true
  pending : NetEvent.ipv4AddrAdd ∈ s.pending → s.everPreferred = true
  sem : 0 < s.sem → s.everPreferred = true
  init : s.pc = .init → s.everPreferred = true
  registered : s.pc ≠ .register → s.registered = true
  awake : s.Waits → s.preferred = true → NetEvent.ipv4AddrAdd ∈ s.pending ∨ 0 < s.sem

namespace StartInv

variable {s : Startup}

theorem boot : StartInv .boot where
  preferred := by simp [Startup.boot]
  pending h := absurd h List.not_mem_nil
  sem h := absurd h (Nat.lt_irrefl 0)
  init := by simp [Startup.boot]
  registered h := absurd rfl h
  awake := by simp [Startup.boot]

/-! ### Steps of `main` -/

theorem register (h : StartInv s) : StartInv s.register where
  preferred := h.preferred
  pending := h.pending
  sem := h.sem
  init := by simp [Startup.register]
  registered _ := rfl
  awake := by simp [Startup.register, Startup.Waits]

/-- The answer decides: `main` waits only if no address is preferred now. -/
theorem ask (h : StartInv s) (hpc : s.pc = .ask) : StartInv s.ask := by
  have hreg : s.registered = true := h.registered (by simp [hpc])
  by_cases hpref : s.preferred = true
  · have hask : s.ask = { s with pc := .init } := by simp only [Startup.ask, hpref, if_true]
    rw [hask]
    refine ⟨h.preferred, h.pending, h.sem, fun _ => h.preferred hpref, fun _ => hreg, ?_⟩
    simp [Startup.Waits]
  · have hask : s.ask = { s with pc := .take } := by
      simp only [Startup.ask, hpref, Bool.false_eq_true, if_false]
    rw [hask]
    refine ⟨h.preferred, h.pending, h.sem, ?_, fun _ => hreg, fun _ hyes => absurd hyes hpref⟩
    simp

theorem take (h : StartInv s) (hpc : s.pc = .take) : StartInv s.take := by
  have hreg : s.registered = true := h.registered (by simp [hpc])
  unfold Startup.take
  split_ifs with hup
  · refine ⟨h.preferred, h.pending, fun _ => h.sem hup, fun _ => h.sem hup, fun _ => hreg, ?_⟩
    simp [Startup.Waits]
  · exact ⟨h.preferred, h.pending, h.sem, by simp, fun _ => hreg, fun _ => h.awake (Or.inl hpc)⟩

theorem timeout (h : StartInv s) (hpc : s.pc = .blocked) : StartInv s.timeout where
  preferred := h.preferred
  pending := h.pending
  sem := h.sem
  init := by simp [Startup.timeout]
  registered _ := h.registered (by simp [hpc])
  awake _ := h.awake (Or.inr hpc)

/-! ### Steps of the network stack -/

theorem prefer (h : StartInv s) : StartInv s.prefer where
  preferred _ := rfl
  pending _ := rfl
  sem _ := rfl
  init _ := rfl
  registered := h.registered
  awake _ _ := Or.inl List.mem_cons_self

theorem lose (h : StartInv s) : StartInv s.lose where
  preferred := by simp [Startup.lose]
  pending := h.pending
  sem := h.sem
  init := h.init
  registered := h.registered
  awake := by simp [Startup.lose]

theorem raise (h : StartInv s) (code : Nat) : StartInv (s.raise code) where
  preferred := h.preferred
  pending hmem := h.pending (by simpa [Startup.raise] using hmem)
  sem := h.sem
  init := h.init
  registered := h.registered
  awake hwaits hyes := (h.awake hwaits hyes).imp_left (List.mem_cons_of_mem _)

/-- The handler runs on the event of an address: the semaphore goes up or `main` is released. -/
theorem give (h : StartInv s) (hever : s.everPreferred = true) (pending : List NetEvent) :
    StartInv { s with pending := pending }.kSemGive := by
  unfold Startup.kSemGive
  split_ifs with hblocked
  · refine ⟨fun _ => hever, fun _ => hever, fun _ => hever, fun _ => hever, ?_, ?_⟩
    · intro _
      exact h.registered (by simp [show s.pc = .blocked from hblocked])
    · simp [Startup.Waits]
  · refine ⟨fun _ => hever, fun _ => hever, fun _ => hever, fun _ => hever, h.registered, ?_⟩
    intro _ _
    apply Or.inr
    -- a second give is lost at the limit, but the semaphore is up
    show 0 < min 1 (s.sem + 1)
    omega

theorem dispatch (h : StartInv s) {e : NetEvent} (he : e ∈ s.pending) : StartInv (s.dispatch e) := by
  unfold Startup.dispatch
  dsimp only
  rcases e with _ | code
  · split_ifs with hreg
    · exact h.give (h.pending he) _
    · -- nobody is registered: `main` has not begun to wait
      refine ⟨h.preferred, fun _ => h.pending he, h.sem, h.init, h.registered, ?_⟩
      intro hwaits
      refine absurd (h.registered ?_) hreg
      intro hpc
      simp [Startup.Waits, hpc] at hwaits
  · have hkept : NetEvent.ipv4AddrAdd ∈ s.pending.erase (.other code) ↔
        NetEvent.ipv4AddrAdd ∈ s.pending := List.mem_erase_of_ne (by simp)
    have hinv : StartInv { s with pending := s.pending.erase (.other code) } := by
      refine ⟨h.preferred, fun hmem => h.pending (hkept.mp hmem), h.sem, h.init, h.registered, ?_⟩
      exact fun hwaits hyes => (h.awake hwaits hyes).imp_left hkept.mpr
    split_ifs
    · exact hinv
    · exact hinv

end StartInv

theorem startInv_of_reachable {s : Startup} (h : startups.Reachable s) : StartInv s := by
  refine h.invariant ?_ ?_
  · rintro s rfl
    exact .boot
  · rintro s t label - hinv hstep
    rcases hstep with hpc | hpc | hpc | hpc | _ | _ | code | he
    · exact hinv.register
    · exact hinv.ask hpc
    · exact hinv.take hpc
    · exact hinv.timeout hpc
    · exact hinv.prefer
    · exact hinv.lose
    · exact hinv.raise code
    · exact hinv.dispatch he

/-- **The start-up wait.** On every interleaving with the network stack, whatever addresses come and go
and whenever their events are dispatched: there is no early exit and no lost wake-up. -/
theorem startup_noLostWakeup {s : Startup} (h : startups.Reachable s) : NoLostWakeup s := by
  have hinv := startInv_of_reachable h
  refine ⟨hinv.init, ?_⟩
  rintro ⟨hwaits, hyes, hnone, hzero⟩
  rcases hinv.awake hwaits hyes with hmem | hup
  · exact hnone hmem
  · omega

/-- An address that appears while `main` is inside `k_sem_take`, and its event. -/
def lateAddress : Startup :=
  (Startup.boot.register.ask.take.prefer).dispatch .ipv4AddrAdd

theorem lateAddress_noLostWakeup : lateAddress.pc = .init ∧ NoLostWakeup lateAddress := by
  have hask : startups.Reachable Startup.boot.register.ask :=
    ((System.Reachable.init rfl).step (Startup.Step.register rfl)).step (Startup.Step.ask rfl)
  have hblocked : startups.Reachable Startup.boot.register.ask.take.prefer :=
    (hask.step (Startup.Step.take rfl)).step Startup.Step.prefer
  exact ⟨rfl, startup_noLostWakeup (hblocked.step (Startup.Step.dispatch List.mem_cons_self))⟩

end ZephyrSamples.Mqtt
