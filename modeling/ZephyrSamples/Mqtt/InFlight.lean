/-
# ZephyrSamples.Mqtt.InFlight -- identifiers of unacknowledged packets

Identifiers come from two sources that know nothing of each other: the counter of `app_mqtt_publish`
and the constant 5841 of `app_mqtt_subscribe`. Every packet has a number, the call that sent it or
5841, and its identifier is that number modulo 2^16 (`FlightInv`). A SUBSCRIBE never meets another
one, since a new transport starts with nothing in flight and `app_mqtt_run` subscribes once.

`distinctIds_iff`: no packet of a run met its own identifier in flight exactly if no PUBLISH whose
number is 5841 modulo 2^16 was in flight together with a SUBSCRIBE, and no two PUBLISHes whose numbers
agree modulo 2^16 were in flight together.
-/
import ZephyrSamples.Mqtt.Numbering

namespace ZephyrSamples.Mqtt

open ZephyrSamples.Lib

/-! ## Numbers and identifiers -/

/-- The packets sent, each with what was unacknowledged then, newest first. -/
def Client.sends (c : Client) : List (Packet × List Packet) :=
  c.log.filterMap fun
    | .sent p unacked => some (p, unacked)
    | _ => none

theorem mem_sends_iff {c : Client} {p : Packet} {unacked : List Packet} :
    (p, unacked) ∈ c.sends ↔ Act.sent p unacked ∈ c.log := by
  rw [Client.sends, List.mem_filterMap]
  constructor
  · rintro ⟨a, hmem, ha⟩
    cases a with
    | sent p' unacked' =>
        obtain ⟨rfl, rfl⟩ := Prod.mk.inj (Option.some.inj ha)
        exact hmem
    | _ => cases ha
  · intro hmem
    exact ⟨_, hmem, rfl⟩

/-- Whenever a packet was sent, no unacknowledged packet of the connection carried its identifier. -/
def DistinctIds (c : Client) : Prop := ∀ x ∈ c.sends, ∀ q ∈ x.2, q.id ≠ x.1.id

/-- The number behind an identifier: the call that sent the PUBLISH, or the constant. -/
def PacketKind.number : PacketKind → Nat
  | .subscribe => 5841
  | .publish call => call

def Packet.Numbered (p : Packet) : Prop := p.id = UInt16.ofNat p.kind.number

/-- Two packets that may be in flight together: their calls do not agree modulo 2^16, and a PUBLISH
next to a SUBSCRIBE is not a 5841st. -/
def PacketKind.Apart : PacketKind → PacketKind → Prop
  | .publish n, .publish m => n % 65536 ≠ m % 65536
  | .publish n, .subscribe => n % 65536 ≠ 5841
  | .subscribe, .publish n => n % 65536 ≠ 5841
  | .subscribe, .subscribe => True

instance : DecidableRel PacketKind.Apart
  | .publish n, .publish m => inferInstanceAs (Decidable (n % 65536 ≠ m % 65536))
  | .publish n, .subscribe => inferInstanceAs (Decidable (n % 65536 ≠ 5841))
  | .subscribe, .publish n => inferInstanceAs (Decidable (n % 65536 ≠ 5841))
  | .subscribe, .subscribe => inferInstanceAs (Decidable True)

/-- Packets were sent only next to packets they may be in flight with. -/
def SpacedCalls (c : Client) : Prop := ∀ x ∈ c.sends, ∀ q ∈ x.2, x.1.kind.Apart q.kind

instance (c : Client) : Decidable (SpacedCalls c) :=
  inferInstanceAs (Decidable (∀ x ∈ c.sends, ∀ q ∈ x.2, x.1.kind.Apart q.kind))

theorem ofNat_eq_ofNat_iff (n m : Nat) :
    UInt16.ofNat n = UInt16.ofNat m ↔ n % 65536 = m % 65536 := by
  rw [UInt16.ofNat_eq_iff_mod_eq_toNat, UInt16.toNat_ofNat']

/-- Equal identifiers are equal numbers modulo 2^16. -/
theorem Packet.Numbered.id_eq_iff {p q : Packet} (hp : p.Numbered) (hq : q.Numbered) :
    q.id = p.id ↔ q.kind.number % 65536 = p.kind.number % 65536 := by
  rw [hp, hq]
  exact ofNat_eq_ofNat_iff _ _

/-- Numbered packets, not both SUBSCRIBEs, have distinct identifiers exactly if they are apart. -/
theorem Packet.Numbered.apart_iff {p q : Packet} (hp : p.Numbered) (hq : q.Numbered)
    (hlone : p.kind = .subscribe → q.kind ≠ .subscribe) :
    q.id ≠ p.id ↔ p.kind.Apart q.kind := by
  rw [ne_eq, hp.id_eq_iff hq]
  cases hpk : p.kind with
  | subscribe =>
      cases hqk : q.kind with
      | subscribe => exact absurd hqk (hlone hpk)
      | publish m => exact Iff.rfl
  | publish n =>
      cases hqk : q.kind with
      | subscribe =>
          show ¬ (5841 = n % 65536) ↔ n % 65536 ≠ 5841
          omega
      | publish m =>
          show ¬ (m % 65536 = n % 65536) ↔ n % 65536 ≠ m % 65536
          omega

/-! ## The invariant of a client -/

/-- Every packet in flight or sent is numbered, and no SUBSCRIBE was sent next to another. -/
structure FlightInv (c : Client) : Prop where
  settled : c.Settled
  numbered : ∀ q ∈ c.inFlight, q.Numbered
  sent : ∀ p unacked, Act.sent p unacked ∈ c.log → p.Numbered ∧ (∀ q ∈ unacked, q.Numbered) ∧
    (p.kind = .subscribe → ∀ q ∈ unacked, q.kind ≠ .subscribe)

namespace FlightInv

variable {c c' : Client}

theorem boot : FlightInv Client.boot := by
  refine ⟨fun _ => rfl, ?_, ?_⟩
  · intro q hq
    cases hq
  · intro p unacked hmem
    cases hmem

theorem still (h : FlightInv c) (hs : Still c c') : FlightInv c' := by
  refine ⟨hs.settled h.settled, ?_, ?_⟩
  · intro q hq
    exact h.numbered q (hs.inFlight.subset hq)
  · intro p unacked hmem
    exact h.sent p unacked (hs.mem_log rfl hmem)

/-- A numbered packet goes out on an open transport; a SUBSCRIBE meets no other. -/
theorem transmit (h : FlightInv c) (hopen : c.transportOpen = true) {p : Packet}
    (hp : p.Numbered) (hlone : p.kind = .subscribe → ∀ q ∈ c.inFlight, q.kind ≠ .subscribe) :
    FlightInv (transmit c p) := by
  refine ⟨fun hclosed => ?_, ?_, ?_⟩
  · -- sending leaves the transport open
    rw [show (Mqtt.transmit c p).transportOpen = true from hopen] at hclosed
    cases hclosed
  · intro q hq
    rcases List.mem_cons.mp hq with rfl | hq
    · exact hp
    · exact h.numbered q hq
  · intro p' unacked hmem
    rcases List.mem_cons.mp hmem with heq | hold
    · obtain ⟨rfl, rfl⟩ := Act.sent.inj heq
      exact ⟨hp, h.numbered, hlone⟩
    · exact h.sent p' unacked hold

/-- Reading the sensor and counting the call touch no packet. -/
theorem call (h : FlightInv c) (qos : QoS) (e : PublishEnv) : FlightInv (c.atPublish qos e) := by
  refine ⟨?_, ?_, ?_⟩
  · intro hclosed
    rw [atPublish_transportOpen] at hclosed
    rw [atPublish_inFlight]
    exact h.settled hclosed
  · rw [atPublish_inFlight]
    exact h.numbered
  · intro p unacked hmem
    rw [atPublish_log] at hmem
    rcases List.mem_cons.mp hmem with heq | hold
    · cases heq
    · exact h.sent p unacked hold

theorem appMqttPublish (h : FlightInv c) {qos : QoS} (hnum : Mqtt.Numbered qos c) (e : PublishEnv) :
    FlightInv (appMqttPublish qos c e).1 := by
  rcases appMqttPublish_sends qos c e with hs | ⟨-, hopen, heq⟩
  · exact (h.call qos e).still hs
  · rw [heq]
    refine (h.call qos e).transmit ?_ hnum.next fun hk => by cases hk
    rw [atPublish_transportOpen]
    exact hopen

end FlightInv

/-! ## No SUBSCRIBE before the SUBSCRIBE -/

/-- `main` has not subscribed in this connection yet. -/
def MainPc.BeforeSubscribe : MainPc → Prop
  | .connectEntry | .connectWhile | .connectCall | .connectSleep | .connectPoll | .connectInput
  | .connectTest | .connectAbort | .reschedule | .subscribe => True
  | _ => False

/-- `app_mqtt_connect` is entered from `app_mqtt_run` only at its start. -/
theorem beforeSubscribe_of_successor {pc next : MainPc} (hmem : next ∈ pc.successors)
    (h : next.BeforeSubscribe) : pc.BeforeSubscribe ∧ pc ≠ .subscribe ∨ next = .connectEntry := by
  cases pc with
  | disconnect => exact Or.inr (List.mem_singleton.mp hmem)
  | subscribe | runWhile | processPoll | processInput | processLive =>
      simp only [MainPc.successors, List.mem_cons, List.not_mem_nil, or_false] at hmem
      rcases hmem with rfl | rfl | rfl <;> exact h.elim
  | _ => exact Or.inl ⟨trivial, by simp⟩

structure SubscribeInv (s : Session) : Prop where
  flight : FlightInv s.client
  lone : s.main.BeforeSubscribe → ∀ q ∈ s.client.inFlight, q.kind ≠ .subscribe

theorem SubscribeInv.main_step {s : Session} (h : SubscribeInv s) {qos : QoS} (e : Env)
    (hinv : SessionInv (mainStep qos e s)) : SubscribeInv (mainStep qos e s) := by
  have hflight : FlightInv (mainStep qos e s).client := by
    rcases mainStep_sends qos e s with hs | ⟨hpc, hopen, heq⟩
    · exact h.flight.still hs
    · rw [heq]
      refine (h.flight.still (.emit s.client rfl)).transmit hopen rfl fun _ => ?_
      exact h.lone (by rw [hpc]; trivial)
  refine ⟨hflight, fun hpc q hq => ?_⟩
  rcases beforeSubscribe_of_successor (mainStep_main_mem qos e s) hpc with ⟨hold, hnot⟩ | hentry
  · rcases mainStep_sends qos e s with hs | ⟨hsub, -, -⟩
    · exact h.lone hold q (hs.inFlight.subset hq)
    · exact absurd hsub hnot
  · -- back at the entry of app_mqtt_connect the transport is closed
    have hclosed : (mainStep qos e s).client.transportOpen = false := by
      have hat := hinv.point
      rw [hentry] at hat
      exact hat
    rw [hflight.settled hclosed] at hq
    cases hq

theorem SubscribeInv.worker_step {s s' : Session} (h : SubscribeInv s) {qos : QoS} {e : Env}
    (hnum : Numbered qos s.client) (hs : workerStep qos e s = some s') : SubscribeInv s' := by
  obtain ⟨hmain, hclient⟩ := workerStep_client hs
  rcases hclient with heq | heq
  · exact ⟨heq ▸ h.flight, by rw [hmain, heq]; exact h.lone⟩
  · refine ⟨heq ▸ h.flight.appMqttPublish hnum e.publish, fun hpc q hq => ?_⟩
    rw [hmain] at hpc
    have hfly := atPublish_inFlight qos s.client e.publish
    rw [heq] at hq
    rcases appMqttPublish_sends qos s.client e.publish with hs | ⟨-, -, hsent⟩
    · exact h.lone hpc q (hfly ▸ hs.inFlight.subset hq)
    · rw [hsent] at hq
      rcases List.mem_cons.mp hq with rfl | hq
      · simp
      · exact h.lone hpc q (hfly ▸ hq)

theorem subscribeInv {qos : QoS} {s : Session} (h : (sessions qos).Reachable s) :
    SubscribeInv s := by
  refine h.invariant ?_ ?_
  · rintro s rfl
    refine ⟨.boot, fun _ q hq => ?_⟩
    cases hq
  · intro s t thread hr hinv hstep
    cases thread with
    | main =>
        obtain ⟨e, rfl⟩ := hstep
        exact hinv.main_step e (sessionInv (mainStep_reachable hr e))
    | workQueue =>
        obtain ⟨e, he⟩ := hstep
        exact hinv.worker_step (numbered hr) he

/-! ## Distinct identifiers -/

theorem FlightInv.distinctIds {c : Client} (h : FlightInv c) : DistinctIds c ↔ SpacedCalls c := by
  refine forall₂_congr fun x hx => forall₂_congr fun q hq => ?_
  obtain ⟨hp, hnum, hlone⟩ := h.sent x.1 x.2 (mem_sends_iff.mp hx)
  exact hp.apart_iff (hnum q hq) fun hk => hlone hk q hq

/-- **Packet identifiers in flight.** In every reachable state, over any number of reconnects and
whatever the order of acknowledgements: no packet was sent while an unacknowledged one carried its
identifier, if and only if calls were spaced. -/
theorem distinctIds_iff {qos : QoS} {s : Session} (h : (sessions qos).Reachable s) :
    DistinctIds s.client ↔ SpacedCalls s.client :=
  (subscribeInv h).flight.distinctIds

/-- The SUBSCRIBE of the first session is in flight when its first PUBLISH goes out. -/
theorem firstPublish_distinct :
    (publishRound mqttQos .fine (firstSession mqttQos)).client.sends =
        [(⟨.publish 1, 1⟩, [⟨.subscribe, 5841⟩]), (⟨.subscribe, 5841⟩, [])] ∧
      DistinctIds (publishRound mqttQos .fine (firstSession mqttQos)).client := by
  refine ⟨by decide, (distinctIds_iff (publishRound_reachable (firstSession_reachable mqttQos) .fine
    ?_ ?_ ?_)).mpr ?_⟩
  · decide
  · decide
  · decide
  · decide

/-! ### A reconnect after 5840 calls -/

/-- The session is lost at a timed-out poll and set up again, as far as the loop of
`app_mqtt_run`. -/
def reconnect (qos : QoS) (s : Session) : Session :=
  (mainStep qos .fine)^[9] ((mainStep qos .silent)^[4] s)

theorem reconnect_reachable {qos : QoS} {s : Session} (h : (sessions qos).Reachable s) :
    (sessions qos).Reachable (reconnect qos s) :=
  mainSteps_reachable (mainSteps_reachable h .silent 4) .fine 9

/-- After a reconnect the calls are numbered on, and the SUBSCRIBE alone is in flight. -/
theorem reconnect_publishing (qos : QoS) {n : Nat} {s : Session} (h : Publishing n s) :
    Publishing n (reconnect qos s) ∧
      (reconnect qos s).client.inFlight = [⟨.subscribe, subscribeMessageId⟩] := by
  obtain ⟨⟨up, nfds, revents, msgId, buf, leds, isOpen, unread, inFlight, log⟩, pc, worker,
    pending⟩ := s
  obtain ⟨hpc, hidle, -, hup, hopen, hcalls⟩ := h
  dsimp only at hpc hidle hup hopen
  subst hpc hidle hup hopen
  exact ⟨⟨rfl, rfl, List.cons_ne_nil _ _, rfl, rfl, hcalls⟩, rfl⟩

/-- A successful QoS 1 publish with a legal identifier goes into flight. -/
theorem appMqttPublish_transmits {c : Client} {e : PublishEnv} (hopen : c.transportOpen = true)
    (hid : c.msgId ≠ 0) (hrc : e.publish.rc = 0) :
    (appMqttPublish .atLeastOnce c e).1 =
      transmit (c.atPublish .atLeastOnce e) ⟨.publish (c.publishCalls + 1), c.msgId⟩ := by
  have hid' : (outgoing .atLeastOnce c e).messageId ≠ 0 := hid
  rw [appMqttPublish_eq, ← atPublish_publishCalls .atLeastOnce c e]
  simp only [mqttPublish]
  rw [if_neg, if_neg, if_pos hrc]
  · rfl
  · exact fun hzero => hid' hzero.2
  · simp [getMqttPayload_transportOpen, hopen]

/-- The 5841st call, right after a reconnect, meets the SUBSCRIBE with its own identifier. -/
theorem reconnected_collides :
    ¬ ∀ s, (sessions mqttQos).Reachable s → DistinctIds s.client := by
  intro h
  obtain ⟨s, hr, hp⟩ := publishing_reachable 5840
  have hr' := reconnect_reachable hr
  obtain ⟨hp', hfly⟩ := reconnect_publishing mqttQos hp
  have hid : (reconnect mqttQos s).client.msgId = 5841 := by
    rw [(numbered hr').next, hp'.calls]
    rfl
  have hdistinct := h _ (publishRound_reachable hr' .fine hp'.idle hp'.pending hp'.connected)
  have hsent := appMqttPublish_transmits (e := Env.fine.publish) hp'.isOpen (by rw [hid]; decide) rfl
  have hmem : (⟨.publish 5841, 5841⟩, [⟨.subscribe, 5841⟩]) ∈
      (publishRound mqttQos .fine (reconnect mqttQos s)).client.sends := by
    rw [mem_sends_iff]
    show _ ∈ (appMqttPublish .atLeastOnce (reconnect mqttQos s).client Env.fine.publish).1.log
    rw [hsent, hid, hp'.calls]
    refine List.mem_cons.mpr (Or.inl ?_)
    rw [atPublish_inFlight, hfly]
    rfl
  exact hdistinct _ hmem _ List.mem_cons_self rfl

end ZephyrSamples.Mqtt
