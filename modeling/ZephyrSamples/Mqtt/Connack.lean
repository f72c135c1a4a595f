/-
# ZephyrSamples.Mqtt.Connack -- one attempt, one poll, one read

The body of the loop in `app_mqtt_connect` polls once, calls `mqtt_input` once and aborts if the flag
is still down. A CONNACK is four bytes of a stream; how the stream is cut into pieces, and when they
arrive, is up to the network.

`connack_split_iff`: an attempt answered by an accepting CONNACK within the poll timeout succeeds
exactly if every piece that carries bytes has arrived when `mqtt_input` reads.
-/
import ZephyrSamples.Lib.Pieces
import ZephyrSamples.Mqtt.Process

namespace ZephyrSamples.Mqtt

/-! ## Deliveries -/

/-- The bytes of an accepting CONNACK: packet type, remaining length, session present, return code. -/
def connackBytes (sessionPresent : Bool) : List UInt8 :=
  [0x20, 0x02, if sessionPresent then 1 else 0, 0x00]

/-- A piece of the stream and the milliseconds from `mqtt_connect` to its arrival. It makes the socket
readable even if it carries none of the packet's bytes, as a record of the TLS layer may. -/
structure Piece where
  arrives : Nat
  bytes : List UInt8
  deriving DecidableEq, Repr

/-- An accepting CONNACK on its way, in pieces, all of them within the poll timeout. The first piece
ends the poll; `mqtt_input` reads at the time `reads` behind that. -/
structure ConnackDelivery where
  sessionPresent : Bool
  first : Piece
  rest : List Piece
  reads : Nat
  ordered : (first :: rest).Pairwise fun p q => p.arrives ≤ q.arrives
  within : ∀ p ∈ first :: rest, p.arrives ≤ msecsNetPollTimeout
  whole : (first :: rest).flatMap Piece.bytes = connackBytes sessionPresent
  reads_after : first.arrives ≤ reads

namespace ConnackDelivery

variable (d : ConnackDelivery)

def pieces : List Piece := d.first :: d.rest

/-- The poll ends by the first piece or by its timeout. -/
def poll : PollOutcome :=
  if d.first.arrives ≤ msecsNetPollTimeout then .ready ⟨true, false, false, false⟩ else .timeout

/-- What `mqtt_input` finds to read. -/
def readable : List UInt8 :=
  (d.pieces.filter fun p => p.arrives ≤ d.reads).flatMap Piece.bytes

end ConnackDelivery

/-- `mqtt_input` on the bytes of a CONNACK: the packet once its four bytes are there, nothing yet
before. -/
def decodeConnack : List UInt8 → InputOutcome
  | [_, _, _, code] => .packet (.connack code.toNat) ⟨⟨0, false⟩, .ready 0⟩
  | _ => .incomplete

/-- One pass of the loop in `app_mqtt_connect`, answered by the delivery. -/
def attempt (c : Client) (d : ConnackDelivery) : Client :=
  connectAttempt c ⟨0, d.poll, decodeConnack d.readable⟩

/-- The attempt ends connected and did not call `mqtt_abort`. -/
def Accepted (c : Client) (d : ConnackDelivery) : Prop :=
  (attempt c d).mqttConnected = true ∧ ¬ Called .mqttAbort c (attempt c d)

/-! ## Pieces and bytes -/

namespace ConnackDelivery

variable (d : ConnackDelivery)

/-- Everything is there exactly if every piece with bytes has arrived. -/
theorem readable_eq_iff : d.readable = connackBytes d.sessionPresent ↔
    ∀ p ∈ d.pieces, p.bytes ≠ [] → p.arrives ≤ d.reads := by
  rw [← d.whole]
  show (d.pieces.filter _).flatMap Piece.bytes = d.pieces.flatMap Piece.bytes ↔ _
  rw [Lib.Pieces.flatMap_filter_eq_iff]
  simp

/-- Anything less is short of four bytes. -/
theorem readable_length (h : d.readable ≠ connackBytes d.sessionPresent) :
    d.readable.length < 4 := by
  have hsub : d.readable.Sublist (connackBytes d.sessionPresent) := by
    rw [← d.whole]
    exact List.filter_sublist.flatMap Piece.bytes
  have hle : d.readable.length ≤ 4 := hsub.length_le
  rcases Nat.lt_or_ge d.readable.length 4 with hlt | hge
  · exact hlt
  · exact absurd (hsub.eq_of_length_le hge) h

theorem poll_ready : d.poll = .ready ⟨true, false, false, false⟩ :=
  if_pos (d.within d.first List.mem_cons_self)

end ConnackDelivery

theorem decodeConnack_whole (sessionPresent : Bool) :
    decodeConnack (connackBytes sessionPresent) =
      .packet (.connack 0) ⟨⟨0, false⟩, .ready 0⟩ := rfl

theorem decodeConnack_short {bytes : List UInt8} (h : bytes.length < 4) :
    decodeConnack bytes = .incomplete := by
  unfold decodeConnack
  split
  · simp at h
  · rfl

/-! ## The attempt -/

/-- A poll that reports input makes the attempt the outcome of its one `mqtt_input`. -/
theorem connectAttempt_ready (c : Client) (r : Revents) (o : InputOutcome) :
    connectAttempt c ⟨0, .ready r, o⟩ =
      let c' := (mqttInput (pollMqttSocket (mqttConnect c 0).1 msecsNetPollTimeout (.ready r)).1 o).1
      if !c'.mqttConnected then mqttAbort c' else c' := rfl

/-- A complete CONNACK raises the flag, and the attempt is over. -/
theorem accepted_of_packet (c : Client) (r : Revents) (n : Nested) :
    let c' := connectAttempt c ⟨0, .ready r, .packet (.connack 0) n⟩
    c'.mqttConnected = true ∧ ¬ Called .mqttAbort c c' := by
  refine ⟨rfl, ?_⟩
  show ¬ c.log.count _ < (Act.connackEvt 0 :: .mqttInput :: .mqttConnect :: c.log).count _
  simp

/-- An incomplete one leaves the flag down, and the attempt is aborted. -/
theorem not_connected_of_incomplete {c : Client} (hdown : c.mqttConnected = false) (r : Revents) :
    (connectAttempt c ⟨0, .ready r, .incomplete⟩).mqttConnected = false := by
  rw [connectAttempt_ready]
  have hflag : (mqttInput (pollMqttSocket (mqttConnect c 0).1 msecsNetPollTimeout (.ready r)).1
      .incomplete).1.mqttConnected = false := hdown
  simp only [hflag]
  rfl

/-- The attempt succeeds exactly if the one read finds the whole packet. -/
theorem accepted_iff_readable {c : Client} (hdown : c.mqttConnected = false) (d : ConnackDelivery) :
    Accepted c d ↔ d.readable = connackBytes d.sessionPresent := by
  constructor
  · rintro ⟨hup, -⟩
    -- a part of the packet is no packet: nothing raises the flag
    by_contra hpart
    rw [attempt, d.poll_ready, decodeConnack_short (d.readable_length hpart),
      not_connected_of_incomplete hdown] at hup
    cases hup
  · intro hall
    rw [Accepted, attempt, d.poll_ready, hall, decodeConnack_whole]
    exact accepted_of_packet c _ _

/-- A CONNACK in one piece is always accepted. -/
theorem accepted_of_onePiece {c : Client} (hdown : c.mqttConnected = false) {d : ConnackDelivery}
    (h : d.rest = []) : Accepted c d := by
  rw [accepted_iff_readable hdown, d.readable_eq_iff, ConnackDelivery.pieces, h]
  intro p hp _
  obtain rfl := List.mem_singleton.mp hp
  exact d.reads_after

/-- **The CONNACK in pieces.** Whatever the segmentation, and whenever the pieces arrive within the
poll timeout: the attempt ends connected and without `mqtt_abort`, as it does for one piece, if and
only if every piece that carries bytes has arrived when the one `mqtt_input` reads. -/
theorem connack_split_iff {c : Client} (hdown : c.mqttConnected = false) (d : ConnackDelivery) :
    Accepted c d ↔ ∀ p ∈ d.pieces, p.bytes ≠ [] → p.arrives ≤ d.reads := by
  rw [accepted_iff_readable hdown, d.readable_eq_iff]

/-- Two pieces, ten milliseconds apart. -/
def twoPieces (reads : Nat) (h : 10 ≤ reads) : ConnackDelivery where
  sessionPresent := false
  first := ⟨10, [0x20, 0x02]⟩
  rest := [⟨20, [0x00, 0x00]⟩]
  reads := reads
  ordered := by simp
  within := by decide
  whole := rfl
  reads_after := h

/-- A read that comes late enough finds both. -/
theorem twoPieces_accepted : Accepted Client.boot (twoPieces 20 (by decide)) :=
  (connack_split_iff rfl (twoPieces 20 (by decide))).mpr (by decide)

/-- A read right behind the poll finds the first alone. -/
theorem twoPieces_aborted : ¬ Accepted Client.boot (twoPieces 10 (by decide)) := by
  rw [accepted_iff_readable rfl]
  decide

end ZephyrSamples.Mqtt
