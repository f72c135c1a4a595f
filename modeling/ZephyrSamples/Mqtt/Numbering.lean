/-
# ZephyrSamples.Mqtt.Numbering -- packet identifiers over whole runs

`msg_id` is a 16-bit static that starts at 1, moves by one in every call of `app_mqtt_publish` and is
never reset, so the n-th call since boot sends the identifier `n mod 65536`. A step of the two threads
either leaves identifiers alone (`Still`), or is the one SUBSCRIBE of `app_mqtt_run`, or is a call of
`app_mqtt_publish`; `mainStep_sends` and `appMqttPublish_sends` say so, and every fact about
identifiers is proved from them.

`legalIds_iff`: with QoS 1 or 2, all identifiers of a run are legal exactly as long as there were fewer
than 65536 calls.
-/
import ZephyrSamples.Mqtt.SessionInvariant

namespace ZephyrSamples.Mqtt

open ZephyrSamples.Lib

/-! ## Steps that send nothing -/

def Act.isSending : Act → Bool
  | .mqttPublish _ | .sent _ _ => true
  | _ => false

/-- Nothing is in flight on a closed transport. -/
def Client.Settled (c : Client) : Prop := c.transportOpen = false → c.inFlight = []

/-- Nothing was sent between `c` and `c'`: the counter stands, packets may have been acknowledged. -/
structure Still (c c' : Client) : Prop where
  log : Grows (fun a => a.isSending = false) c c'
  msgId : c'.msgId = c.msgId
  inFlight : c'.inFlight.Sublist c.inFlight
  settled : c.Settled → c'.Settled

namespace Still

variable {c c' c'' : Client}

theorem refl (c : Client) : Still c c := ⟨.refl c, rfl, .refl _, id⟩

theorem trans (h : Still c c') (h' : Still c' c'') : Still c c'' :=
  ⟨h.log.trans h'.log, h'.msgId.trans h.msgId, h'.inFlight.trans h.inFlight, h'.settled ∘ h.settled⟩

/-- A step of one entry in the history that leaves transport, counter and packets alone. -/
theorem of_cons {a : Act} (ha : a.isSending = false) (hlog : c'.log = a :: c.log)
    (hid : c'.msgId = c.msgId) (hfly : c'.inFlight = c.inFlight)
    (hopen : c'.transportOpen = c.transportOpen) : Still c c' := by
  refine ⟨.of_cons hlog ha, hid, hfly ▸ List.Sublist.refl _, ?_⟩
  intro hsettled hclosed
  rw [hfly]
  exact hsettled (hopen ▸ hclosed)

theorem emit (c : Client) {a : Act} (ha : a.isSending = false) : Still c (c.emit a) :=
  of_cons ha rfl rfl rfl rfl

/-- No call of `app_mqtt_publish` is hidden in it. -/
theorem growsQuietly (h : Still c c') : Grows (fun a => a.isMqttPublish = false) c c' := by
  refine h.log.mono ?_
  intro a ha
  cases a with
  | mqttPublish param => cases ha
  | _ => rfl

/-- What was sent before is all that is sent after. -/
theorem mem_log (h : Still c c') {a : Act} (ha : a.isSending = true) (hmem : a ∈ c'.log) :
    a ∈ c.log := by
  rcases h.log.mem hmem with hkind | hold
  · rw [ha] at hkind
    cases hkind
  · exact hold

end Still

theorem still_dropTransport (c : Client) : Still c (dropTransport c) := by
  refine ⟨(grows_dropTransport c).mono (by rintro a rfl; rfl), dropTransport_msgId c, ?_, ?_⟩
  · unfold dropTransport
    split_ifs
    · exact List.nil_sublist _
    · exact .refl _
  · intro hsettled _
    unfold dropTransport
    split_ifs with hopen
    · rfl
    · exact hsettled (by simpa using hopen)

theorem Move.still {c c' : Client} (h : Move c c') : Still c c' := by
  cases h with
  | drop _ => exact still_dropTransport c
  | @note a ha =>
      refine .emit c ?_
      cases a <;> first | rfl | exact ha.elim
  | read _ => exact ⟨.of_log_eq rfl, rfl, .refl _, id⟩
  | retire hsub =>
      refine ⟨.of_log_eq rfl, rfl, hsub, fun hsettled hclosed => ?_⟩
      rw [hsettled hclosed] at hsub
      exact List.sublist_nil.mp hsub
  | command _ => exact ⟨.of_log_eq rfl, rfl, .refl _, id⟩

theorem Moves.still {c c' : Client} (h : Moves c c') : Still c c' := by
  induction h with
  | refl => exact .refl c
  | tail _ hmove ih => exact ih.trans hmove.still

theorem still_connackEvent (c : Client) (result : Int) : Still c (connackEvent c result) := by
  simp only [connackEvent]
  split_ifs <;> exact .of_cons rfl rfl rfl rfl rfl

theorem still_mqttInput (c : Client) (o : InputOutcome) : Still c (mqttInput c o).1 := by
  refine (Still.emit c (a := .mqttInput) rfl).trans ?_
  rcases mqttInput_cases c o with h | ⟨-, result, h⟩
  · exact h.still
  · exact (still_connackEvent _ result).trans h.still

theorem still_mqttLive (c : Client) (o : LiveOutcome) : Still c (mqttLive c o).1 := by
  refine (Still.emit c (a := .mqttLive) rfl).trans ?_
  cases o with
  | notYet => exact .refl _
  | ping o => exact (moves_libCall _ o).still

theorem still_poll (c : Client) (timeout : Int) (o : PollOutcome) :
    Still c (pollMqttSocket c timeout o).1 := by
  rw [pollMqttSocket_eq]
  cases o with
  | failed err => exact ⟨.of_log_eq rfl, rfl, .refl _, id⟩
  | timeout => exact .of_cons rfl rfl rfl rfl rfl
  | ready r => exact ⟨.of_log_eq rfl, rfl, .refl _, id⟩

theorem still_mqttConnect (c : Client) (rc : Int) : Still c (mqttConnect c rc).1 :=
  ⟨.of_cons rfl rfl, rfl, List.nil_sublist _, fun _ _ => rfl⟩

/-! ## Steps that send -/

/-- The client at the `mqtt_publish` of `app_mqtt_publish`: the counter has moved, the call is
entered in the history. -/
def Client.atPublish (qos : QoS) (c : Client) (e : PublishEnv) : Client :=
  { (getMqttPayload c e).1 with msgId := c.msgId + 1 }.emit (.mqttPublish (outgoing qos c e))

section AtPublish

variable (qos : QoS) (c : Client) (e : PublishEnv)

@[simp] theorem atPublish_log :
    (c.atPublish qos e).log = .mqttPublish (outgoing qos c e) :: c.log := by
  simp only [Client.atPublish, emit_log, getMqttPayload_log]

@[simp] theorem atPublish_inFlight : (c.atPublish qos e).inFlight = c.inFlight := by
  obtain ⟨buf, hbuf⟩ := getMqttPayload_client c e
  simp only [Client.atPublish, hbuf]
  rfl

@[simp] theorem atPublish_transportOpen :
    (c.atPublish qos e).transportOpen = c.transportOpen := by
  simp only [Client.atPublish, emit_transportOpen, getMqttPayload_transportOpen]

@[simp] theorem atPublish_publishCalls :
    (c.atPublish qos e).publishCalls = c.publishCalls + 1 := by
  rw [Client.publishCalls, atPublish_log]
  exact List.countP_cons_of_pos rfl

/-- The call goes on in `mqtt_publish`. -/
theorem appMqttPublish_eq :
    appMqttPublish qos c e =
      mqttPublish { (getMqttPayload c e).1 with msgId := c.msgId + 1 } (outgoing qos c e)
        e.publish := by
  simp only [appMqttPublish, getMqttPayload_msgId]
  rfl

end AtPublish

/-- **A call of `app_mqtt_publish`.** Behind the call itself nothing is sent, or QoS 1 puts one
packet into flight, numbered by the call. -/
theorem appMqttPublish_sends (qos : QoS) (c : Client) (e : PublishEnv) :
    Still (c.atPublish qos e) (appMqttPublish qos c e).1 ∨
      (qos = .atLeastOnce ∧ c.transportOpen = true ∧ (appMqttPublish qos c e).1 =
        transmit (c.atPublish qos e) ⟨.publish (c.publishCalls + 1), c.msgId⟩) := by
  rw [appMqttPublish_eq, ← atPublish_publishCalls qos c e]
  simp only [mqttPublish]
  split_ifs with hclosed hzero hrc hqos hcloses
  · exact Or.inl (.refl _)
  · exact Or.inl (.refl _)
  · have hopen : c.transportOpen = true := by
      simpa [getMqttPayload_transportOpen] using hclosed
    exact Or.inr ⟨hqos, hopen, rfl⟩
  · exact Or.inl (.refl _)
  · exact Or.inl (still_dropTransport _)
  · exact Or.inl (.refl _)

theorem mqttSubscribe_sends (c : Client) (param : SubscribeParam) (o : CallOutcome) :
    Still c (mqttSubscribe c param o).1 ∨
      (c.transportOpen = true ∧ (mqttSubscribe c param o).1 =
        transmit (c.emit (.mqttSubscribe param)) ⟨.subscribe, param.messageId⟩) := by
  have hcall : Still c (c.emit (.mqttSubscribe param)) := .emit c rfl
  simp only [mqttSubscribe]
  split_ifs with hclosed
  · exact Or.inl hcall
  · exact Or.inr ⟨by simpa using hclosed, rfl⟩
  · exact Or.inl (hcall.trans (still_dropTransport _))
  · exact Or.inl hcall

/-- **A step of `main`** sends nothing, or it is the SUBSCRIBE of `app_mqtt_run`. -/
theorem mainStep_sends (qos : QoS) (e : Env) (s : Session) :
    Still s.client (mainStep qos e s).client ∨
      (s.main = .subscribe ∧ s.client.transportOpen = true ∧ (mainStep qos e s).client =
        transmit (s.client.emit (.mqttSubscribe ⟨mqttSubTopicCmd, qos, subscribeMessageId⟩))
          ⟨.subscribe, subscribeMessageId⟩) := by
  obtain ⟨c, pc, worker, pending⟩ := s
  cases pc with
  | connectEntry => exact Or.inl (.of_cons rfl rfl rfl rfl rfl)
  | connectWhile | connectTest | reschedule | runWhile => exact Or.inl (.refl c)
  | connectCall => exact Or.inl (still_mqttConnect c e.rc)
  | connectSleep => exact Or.inl (.emit c rfl)
  | connectPoll => exact Or.inl (still_poll c msecsNetPollTimeout e.poll)
  | connectInput | processInput => exact Or.inl (still_mqttInput c e.input)
  | connectAbort | disconnect =>
      exact Or.inl ((Still.emit c rfl).trans (still_dropTransport _))
  | subscribe =>
      rcases mqttSubscribe_sends c ⟨mqttSubTopicCmd, qos, subscribeMessageId⟩ e.call with
        h | ⟨hopen, h⟩
      · exact Or.inl h
      · exact Or.inr ⟨rfl, hopen, h⟩
  | processPoll => exact Or.inl (still_poll c e.timeLeft e.poll)
  | processLive => exact Or.inl (still_mqttLive c e.live)

/-! ## The counter -/

/-- The calls so far are numbered from 1 on, modulo 2^16, and `msg_id` holds the next number. -/
structure Numbered (qos : QoS) (c : Client) : Prop where
  next : c.msgId = UInt16.ofNat (c.publishCalls + 1)
  called : ∀ param, Act.mqttPublish param ∈ c.log → param.qos = qos ∧
    ∃ n, 1 ≤ n ∧ n ≤ c.publishCalls ∧ param.messageId = UInt16.ofNat n
  used : ∀ n, 1 ≤ n → n ≤ c.publishCalls →
    ∃ param, Act.mqttPublish param ∈ c.log ∧ param.messageId = UInt16.ofNat n

namespace Numbered

variable {qos : QoS} {c c' : Client}

theorem boot : Numbered qos Client.boot := by
  refine ⟨rfl, fun param hmem => absurd hmem List.not_mem_nil, ?_⟩
  intro n hpos hle
  have hzero : n ≤ 0 := hle
  omega

/-- Between two calls nothing changes. -/
theorem grows (h : Numbered qos c) (hlog : Grows (fun a => a.isMqttPublish = false) c c')
    (hid : c'.msgId = c.msgId) : Numbered qos c' := by
  have hcalls := hlog.publishCalls
  refine ⟨by rw [hid, hcalls, h.next], ?_, ?_⟩
  · intro param hmem
    rw [hcalls]
    rcases hlog.mem hmem with hkind | hold
    · cases hkind
    · exact h.called param hold
  · intro n hpos hle
    rw [hcalls] at hle
    obtain ⟨param, hmem, hparam⟩ := h.used n hpos hle
    exact ⟨param, hlog.mem_of_mem hmem, hparam⟩

/-- A call takes the next number. -/
theorem call (h : Numbered qos c) (e : PublishEnv) : Numbered qos (c.atPublish qos e) := by
  refine ⟨?_, ?_, ?_⟩
  · show c.msgId + 1 = _
    rw [atPublish_publishCalls, h.next, UInt16.ofNat_add (c.publishCalls + 1) 1]
    rfl
  · intro param hmem
    rw [atPublish_log] at hmem
    rw [atPublish_publishCalls]
    rcases List.mem_cons.mp hmem with hnew | hold
    · obtain rfl := Act.mqttPublish.inj hnew
      exact ⟨rfl, c.publishCalls + 1, by omega, le_refl _, h.next⟩
    · obtain ⟨hqos, n, hpos, hle, hid⟩ := h.called param hold
      exact ⟨hqos, n, hpos, by omega, hid⟩
  · intro n hpos hle
    rw [atPublish_publishCalls] at hle
    rw [atPublish_log]
    -- the last number is this call's, the others were used before
    by_cases hlast : n = c.publishCalls + 1
    · exact ⟨outgoing qos c e, List.mem_cons_self, hlast ▸ h.next⟩
    · obtain ⟨param, hmem, hparam⟩ := h.used n hpos (by omega)
      exact ⟨param, List.mem_cons_of_mem _ hmem, hparam⟩

/-- A packet put into flight is no call. -/
theorem transmit (h : Numbered qos c) (p : Packet) : Numbered qos (transmit c p) :=
  h.grows ((grows_transmit c p).mono (by rintro a rfl; rfl)) rfl

theorem still (h : Numbered qos c) (hs : Still c c') : Numbered qos c' :=
  h.grows hs.growsQuietly hs.msgId

theorem appMqttPublish (h : Numbered qos c) (e : PublishEnv) :
    Numbered qos (appMqttPublish qos c e).1 := by
  rcases appMqttPublish_sends qos c e with hs | ⟨-, -, heq⟩
  · exact (h.call e).still hs
  · rw [heq]
    exact (h.call e).transmit _

theorem mainStep {s : Session} (h : Numbered qos s.client) (e : Env) :
    Numbered qos (mainStep qos e s).client := by
  rcases mainStep_sends qos e s with hs | ⟨-, -, heq⟩
  · exact h.still hs
  · rw [heq]
    exact (h.still (.emit s.client rfl)).transmit _

theorem workerStep {s s' : Session} (h : Numbered qos s.client) {e : Env}
    (hs : workerStep qos e s = some s') : Numbered qos s'.client := by
  rcases (workerStep_client hs).2 with heq | heq
  · exact heq ▸ h
  · exact heq ▸ h.appMqttPublish e.publish

end Numbered

theorem numbered {qos : QoS} {s : Session} (h : (sessions qos).Reachable s) :
    Numbered qos s.client := by
  refine h.invariant (I := fun s => Numbered qos s.client) ?_ ?_
  · rintro s rfl
    exact .boot
  · intro s t thread _ hinv hstep
    cases thread with
    | main =>
        obtain ⟨e, rfl⟩ := hstep
        exact hinv.mainStep e
    | workQueue =>
        obtain ⟨e, he⟩ := hstep
        exact hinv.workerStep he

/-! ## Legal identifiers -/

/-- Every PUBLISH handed to the library above QoS 0 carries an identifier in 1..65535. -/
def LegalIds (c : Client) : Prop :=
  ∀ param, Act.mqttPublish param ∈ c.log → param.qos ≠ .atMostOnce →
    1 ≤ param.messageId.toNat ∧ param.messageId.toNat ≤ 65535

/-- The first number that is no identifier is 2^16. -/
theorem Numbered.legalIds {qos : QoS} {c : Client} (h : Numbered qos c) :
    LegalIds c ↔ qos = .atMostOnce ∨ c.publishCalls < 65536 := by
  constructor
  · intro hlegal
    -- past 65535 calls, number 65536 has been used, as identifier 0
    by_contra hno
    obtain ⟨hqos, hmany⟩ := not_or.mp hno
    obtain ⟨param, hmem, hid⟩ := h.used 65536 (by omega) (by omega)
    have hzero : param.messageId.toNat = 0 := by rw [hid]; rfl
    have hpos := (hlegal param hmem ((h.called param hmem).1 ▸ hqos)).1
    omega
  · intro hfew param hmem hqos
    obtain ⟨hsame, n, hpos, hle, hid⟩ := h.called param hmem
    rcases hfew with hzero | hfew
    · exact absurd (hsame.trans hzero) hqos
    · have hn : param.messageId.toNat = n := by
        rw [hid]
        exact UInt16.toNat_ofNat_of_lt' (by show n < 65536; omega)
      omega

/-- **Legal identifiers.** In every reachable state, however often the connection was lost and
whatever failed: all identifiers handed to `mqtt_publish` are legal if and only if QoS 0 is configured
or `app_mqtt_publish` was called fewer than 65536 times since boot. -/
theorem legalIds_iff {qos : QoS} {s : Session} (h : (sessions qos).Reachable s) :
    LegalIds s.client ↔ qos = .atMostOnce ∨ s.client.publishCalls < 65536 :=
  (numbered h).legalIds

theorem firstPublish_legal :
    (publishRound mqttQos .fine (firstSession mqttQos)).client.publishCalls = 1 ∧
      LegalIds (publishRound mqttQos .fine (firstSession mqttQos)).client := by
  have hcalls : (publishRound mqttQos .fine (firstSession mqttQos)).client.publishCalls = 1 := by
    decide
  refine ⟨hcalls, (legalIds_iff (publishRound_reachable (firstSession_reachable mqttQos) .fine ?_ ?_
    ?_)).mpr (Or.inr (by omega))⟩
  · decide
  · decide
  · decide

/-! ### A long session -/

/-- A session in the loop of `app_mqtt_run`, between two rounds of the work queue, after `n` calls. -/
structure Publishing (n : Nat) (s : Session) : Prop where
  main : s.main = .runWhile
  idle : s.worker = .idle
  pending : s.pending ≠ []
  connected : s.client.mqttConnected = true
  isOpen : s.client.transportOpen = true
  calls : s.client.publishCalls = n

/-- A PUBLISH that succeeds, or fails without giving the connection up, leaves the link alone. -/
theorem link_mqttPublish (c : Client) (param : PublishParam) {o : CallOutcome}
    (ho : o.rc = 0 ∨ o.closes = false) : (mqttPublish c param o).1.link = c.link := by
  have hcall : (c.emit (.mqttPublish param)).link = c.link := link_emit c rfl
  simp only [mqttPublish]
  split_ifs with hclosed hzero hrc hqos hcloses
  · exact hcall
  · exact hcall
  · exact hcall
  · exact hcall
  · rcases ho with hrc' | hcloses'
    · exact absurd hrc' hrc
    · rw [hcloses] at hcloses'
      cases hcloses'
  · exact hcall

theorem link_appMqttPublish (qos : QoS) (c : Client) {e : PublishEnv}
    (he : e.publish.rc = 0 ∨ e.publish.closes = false) :
    (appMqttPublish qos c e).1.link = c.link := by
  obtain ⟨buf, hbuf⟩ := getMqttPayload_client c e
  simp only [appMqttPublish]
  rw [link_mqttPublish _ _ he, hbuf]
  rfl

/-- A round is one more call. -/
theorem Publishing.round {qos : QoS} {n : Nat} {s : Session} (h : Publishing n s)
    (hr : (sessions qos).Reachable s) :
    ∃ s', (sessions qos).Reachable s' ∧ Publishing (n + 1) s' := by
  refine ⟨publishRound qos .fine s,
    publishRound_reachable hr .fine h.idle h.pending h.connected, ?_⟩
  have hlink := link_appMqttPublish qos s.client (e := Env.fine.publish) (Or.inl rfl)
  have hcalls : (appMqttPublish qos s.client Env.fine.publish).1.publishCalls =
      s.client.publishCalls + 1 := by
    have hgrows := grows_appMqttPublish qos s.client Env.fine.publish
    rw [(hgrows.mono ?_).publishCalls]
    · exact List.countP_cons_of_pos rfl
    · intro a ha
      cases a <;> first | rfl | exact ha.elim
  exact ⟨h.main, h.idle, List.cons_ne_nil _ _, (congrArg Link.connected hlink).trans h.connected,
    (congrArg Link.isOpen hlink).trans h.isOpen, by rw [← h.calls]; exact hcalls⟩

/-- Any number of calls is reached in the first session. -/
theorem publishing_reachable (n : Nat) :
    ∃ s, (sessions mqttQos).Reachable s ∧ Publishing n s := by
  refine (firstSession_reachable mqttQos).iterate ?_ (fun n t hr hp => hp.round hr) n
  exact ⟨by decide, by decide, by decide, by decide, by decide, by decide⟩

/-- The 65536th call hands identifier 0 to the library. -/
theorem longSession_illegal : ¬ ∀ s, (sessions mqttQos).Reachable s → LegalIds s.client := by
  intro h
  obtain ⟨s, hr, hp⟩ := publishing_reachable 65536
  rcases (numbered hr).legalIds.mp (h s hr) with hqos | hfew
  · cases hqos
  · rw [hp.calls] at hfew
    omega

end ZephyrSamples.Mqtt
