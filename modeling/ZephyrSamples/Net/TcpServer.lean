/-
# ZephyrSamples.Net.TcpServer -- the echo loop

`handle_client` receives a piece of the client's stream, terminates it for the log and sends it back
with one `send`. A stream socket may accept less than it is offered; the loop prints the number and
goes on receiving.

`echo_iff`: the bytes accepted by the kernel are the bytes received, at every point before an error, if
and only if every `send` so far accepted the whole piece. Indices and the closing of the socket are in
order whatever happens (`inBounds_of_reachable`, `closes_of_reachable`).
-/
import Mathlib.Data.List.TakeDrop
import ZephyrSamples.Lib.CString
import ZephyrSamples.Lib.Pieces
import ZephyrSamples.Lib.Transition

namespace ZephyrSamples.Net.TcpServer

open ZephyrSamples.Lib
open ZephyrSamples.Lib.CString

/-! ## `handle_client` -/

/-- `RECV_BUF_SIZE` -/
def recvBufSize : Nat := 1024

/-- Where the loop stands: before `recv`, before `send`, or behind `close`. -/
inductive Phase where
  | recv
  | send
  | closed
  deriving DecidableEq, Repr

/-- The locals of `handle_client`, and a history: the indices of `recv_buffer` written, the bytes
received and accepted, what each `send` was offered and how much it accepted, whether a call failed,
and how often the socket was closed. -/
structure Handler where
  phase : Phase
  recvBuffer : Memory
  received : Nat
  written : List Nat
  input : List UInt8
  output : List UInt8
  sends : List (List UInt8 × Nat)
  failed : Bool
  closes : Nat

namespace Handler

/-- The start of the loop, on a stack that holds anything. -/
def start (garbage : Memory) : Handler := ⟨.recv, garbage, 0, [], [], [], [], false, 0⟩

/-- `recv` stores a piece, and `recv_buffer[received] = '\0'` terminates it. -/
def recvPiece (s : Handler) (piece : List UInt8) : Handler :=
  { s with
    phase := .send
    recvBuffer := (s.recvBuffer.blit 0 piece).set piece.length 0
    received := piece.length
    written := s.written ++ List.range piece.length ++ [piece.length]
    input := s.input ++ piece }

/-- What `send` is offered. -/
def offered (s : Handler) : List UInt8 := s.recvBuffer.slice 0 s.received

/-- `send` accepts `k` bytes, and the loop goes on. -/
def sendPiece (s : Handler) (k : Nat) : Handler :=
  { s with
    phase := .recv
    output := s.output ++ s.offered.take k
    sends := s.sends ++ [(s.offered, k)] }

/-- `break` and `close(client_socket)`. -/
def leave (s : Handler) : Handler := { s with phase := .closed, closes := s.closes + 1 }

/-- The same after a call that failed. -/
def fail (s : Handler) : Handler := { s.leave with failed := true }

end Handler

inductive Outcome where
  | received (piece : List UInt8)
  | recvFailed
  | disconnected
  | sent (k : Nat)
  | sendFailed
  deriving DecidableEq, Repr

/-- One socket call and what the loop makes of it. -/
inductive Step : Outcome → Handler → Handler → Prop
  | received {s : Handler} {piece : List UInt8} : s.phase = .recv → piece ≠ [] →
      piece.length ≤ recvBufSize - 1 → Step (.received piece) s (s.recvPiece piece)
  | recvFailed {s : Handler} : s.phase = .recv → Step .recvFailed s s.fail
  | disconnected {s : Handler} : s.phase = .recv → Step .disconnected s s.leave
  | sent {s : Handler} {k : Nat} : s.phase = .send → 1 ≤ k → k ≤ s.received →
      Step (.sent k) s (s.sendPiece k)
  | sendFailed {s : Handler} : s.phase = .send → Step .sendFailed s s.fail

def handleClient : System Handler Outcome where
  init s := ∃ garbage, s = .start garbage
  step := Step

/-! ## What an echo owes -/

/-- A piece received and not yet offered to `send`. -/
def Handler.pending (s : Handler) : List UInt8 :=
  match s.phase with
  | .send => s.offered
  | .recv | .closed => []

/-- A faithful echo, before an error; indices inside the buffer; the socket closed once, at the end. -/
structure Faithful (s : Handler) : Prop where
  echoes : s.failed = false → s.output ++ s.pending = s.input
  inBounds : ∀ i ∈ s.written, i < recvBufSize
  closes : s.closes = if s.phase = .closed then 1 else 0

/-- No `send` so far fell short. -/
def WholeSends (s : Handler) : Prop :=
  s.failed = false → ∀ p ∈ s.sends, p.2 = p.1.length

/-! ## The invariant -/

theorem offered_recvPiece (s : Handler) (piece : List UInt8) :
    (s.recvPiece piece).offered = piece := by
  show ((s.recvBuffer.blit 0 piece).set piece.length 0).slice 0 piece.length = piece
  have hsame : ∀ k < piece.length,
      (s.recvBuffer.blit 0 piece).set piece.length 0 (0 + k) = s.recvBuffer.blit 0 piece (0 + k) :=
    fun k hk => set_of_ne _ _ (by omega)
  rw [slice_congr hsame, slice_blit]

/-- The pieces offered so far and the pending one are the input; of each the output has a beginning. -/
structure Accounted (s : Handler) : Prop where
  input : s.failed = false → s.input = s.sends.flatMap Prod.fst ++ s.pending
  output : s.output = s.sends.flatMap fun p => p.1.take p.2
  accepted : ∀ p ∈ s.sends, p.2 ≤ p.1.length

theorem Accounted.start (garbage : Memory) : Accounted (.start garbage) :=
  ⟨fun _ => rfl, rfl, fun _ h => absurd h List.not_mem_nil⟩

/-- One step keeps the account. -/
theorem Accounted.step {s t : Handler} {o : Outcome} (h : Accounted s) (hstep : Step o s t) :
    Accounted t := by
  have hrecv : s.phase = .recv → s.pending = [] := fun hphase => by
    unfold Handler.pending
    rw [hphase]
  have hfail : Accounted s.fail := ⟨fun hok => absurd hok.symm Bool.false_ne_true, h.output, h.accepted⟩
  rcases hstep with @⟨_, piece, hphase, -, -⟩ | hphase | hphase | @⟨_, k, hphase, -, hle⟩ | hphase
  · refine ⟨fun hok => ?_, h.output, h.accepted⟩
    show s.input ++ piece = s.sends.flatMap Prod.fst ++ (s.recvPiece piece).offered
    rw [offered_recvPiece, h.input hok, hrecv hphase, List.append_nil]
  · exact hfail
  · refine ⟨fun hok => ?_, h.output, h.accepted⟩
    show s.input = s.sends.flatMap Prod.fst ++ []
    rw [h.input hok, hrecv hphase]
  · have hpending : s.pending = s.offered := by
      unfold Handler.pending
      rw [hphase]
    refine ⟨fun hok => ?_, ?_, ?_⟩
    · show s.input = (s.sends ++ [(s.offered, k)]).flatMap Prod.fst ++ []
      rw [h.input hok, hpending, List.flatMap_append, List.append_nil]
      simp
    · show s.output ++ s.offered.take k = (s.sends ++ [(s.offered, k)]).flatMap _
      rw [h.output, List.flatMap_append]
      simp
    · refine List.forall_mem_append.mpr ⟨h.accepted, List.forall_mem_singleton.mpr ?_⟩
      show k ≤ (s.recvBuffer.slice 0 s.received).length
      rw [length_slice]
      exact hle
  · exact hfail

theorem accounted_of_reachable {s : Handler} (h : handleClient.Reachable s) : Accounted s := by
  refine h.invariant ?_ fun s t o _ hinv hstep => hinv.step hstep
  rintro s ⟨garbage, rfl⟩
  exact .start garbage

/-- `recv` gets one byte less than the buffer has, so the terminator has its place. -/
theorem inBounds_of_reachable {s : Handler} (h : handleClient.Reachable s) :
    ∀ i ∈ s.written, i < recvBufSize := by
  refine h.invariant (I := fun s => ∀ i ∈ s.written, i < recvBufSize) ?_ ?_
  · rintro s ⟨garbage, rfl⟩ i hi
    exact absurd hi List.not_mem_nil
  · rintro s t o - hinv hstep
    rcases hstep with @⟨_, piece, -, -, hle⟩ | _ | _ | _ | _
    · have hsize : piece.length < recvBufSize := by
        unfold recvBufSize at *
        omega
      have hnew : ∀ i ∈ List.range piece.length, i < recvBufSize := fun i hi =>
        Nat.lt_trans (List.mem_range.mp hi) hsize
      exact List.forall_mem_append.mpr
        ⟨List.forall_mem_append.mpr ⟨hinv, hnew⟩, List.forall_mem_singleton.mpr hsize⟩
    · exact hinv
    · exact hinv
    · exact hinv
    · exact hinv

/-- Both ways out of the loop lead to the one `close`. -/
theorem closes_of_reachable {s : Handler} (h : handleClient.Reachable s) :
    s.closes = if s.phase = .closed then 1 else 0 := by
  refine h.invariant (I := fun s => s.closes = if s.phase = .closed then 1 else 0) ?_ ?_
  · rintro s ⟨garbage, rfl⟩
    rfl
  · rintro s t o - hinv hstep
    rcases hstep with ⟨hphase, -, -⟩ | hphase | hphase | ⟨hphase, -, -⟩ | hphase
    all_goals
      rw [hphase] at hinv
      first
        | exact hinv
        | exact congrArg (· + 1) hinv

/-- What was offered to `send` is a beginning of what was received, never empty, also where a call failed: the
piece received last may not have been offered. -/
structure Served (t : Handler) : Prop where
  sends : t.sends.flatMap Prod.fst <+: t.input
  open_ : t.phase ≠ .closed → t.failed = false
  accepted : ∀ p ∈ t.sends, 1 ≤ p.2
  offered : t.phase = .send → 1 ≤ t.received

theorem served_of_reachable {t : Handler} (h : handleClient.Reachable t) : Served t := by
  refine h.invariant ?_ ?_
  · rintro t ⟨garbage, rfl⟩
    exact ⟨List.nil_prefix, fun _ => rfl, fun _ hp => absurd hp List.not_mem_nil, fun hp => by cases hp⟩
  · rintro t t' o hreach ⟨hsends, hopen, haccepted, hoffered⟩ hstep
    cases hstep with
    | received hphase hne hlen =>
        refine ⟨hsends.trans (List.prefix_append _ _), fun _ => hopen (by simp [hphase]), haccepted, fun _ => ?_⟩
        exact List.length_pos_iff.mpr hne
    | recvFailed | sendFailed | disconnected =>
        exact ⟨hsends, fun hclosed => absurd rfl hclosed, haccepted, fun hsend => by cases hsend⟩
    | @sent _ k hphase hone hle =>
        -- the loop has not failed, so what it offered is all it received
        have hok : t.failed = false := hopen (by simp [hphase])
        have hinput := (accounted_of_reachable hreach).input hok
        unfold Handler.pending at hinput
        rw [hphase] at hinput
        refine ⟨?_, fun _ => hok, ?_, fun hsend => by cases hsend⟩
        · show (t.sends ++ [(t.offered, k)]).flatMap Prod.fst <+: t.input
          rw [List.flatMap_append, hinput]
          simp
        · exact List.forall_mem_append.mpr ⟨haccepted, List.forall_mem_singleton.mpr hone⟩

/-! ## The echo -/

/-- **The echo.** In every state of every run, whatever `recv` delivers and `send` accepts: the server is
a faithful echo if and only if, before an error, every `send` so far accepted all it was offered. -/
theorem echo_iff {s : Handler} (h : handleClient.Reachable s) : Faithful s ↔ WholeSends s := by
  have hacc := accounted_of_reachable h
  have key (hok : s.failed = false) :
      s.output ++ s.pending = s.input ↔ ∀ p ∈ s.sends, p.2 = p.1.length := by
    rw [hacc.input hok, hacc.output, List.append_cancel_right_eq,
      Pieces.flatMap_eq_iff fun p _ => List.take_sublist p.2 p.1]
    refine forall₂_congr fun p hp => ?_
    have hle := hacc.accepted p hp
    rw [List.take_eq_self_iff]
    omega
  constructor
  · intro hf hok
    exact (key hok).mp (hf.echoes hok)
  · intro hw
    exact ⟨fun hok => (key hok).mpr (hw hok), inBounds_of_reachable h, closes_of_reachable h⟩

/-- The client sends `hi`, and `send` accepts `k` bytes of it. -/
def helloEcho (k : Nat) : Handler := ((Handler.start fun _ => 0).recvPiece [104, 105]).sendPiece k

theorem helloEcho_reachable {k : Nat} (h1 : 1 ≤ k) (h2 : k ≤ 2) :
    handleClient.Reachable (helloEcho k) :=
  .step (.step (.init ⟨_, rfl⟩) (.received rfl (by decide) (by decide))) (.sent rfl h1 h2)

theorem helloEcho_faithful : Faithful (helloEcho 2) :=
  (echo_iff (helloEcho_reachable (by decide) (by decide))).mpr fun _ => by decide

/-- A `send` that accepts one of the two bytes: the other is never sent. -/
theorem helloEcho_drops : handleClient.Reachable (helloEcho 1) ∧ ¬ Faithful (helloEcho 1) := by
  refine ⟨helloEcho_reachable (by decide) (by decide), fun hf => ?_⟩
  exact absurd (hf.echoes rfl) (by decide)

end ZephyrSamples.Net.TcpServer
