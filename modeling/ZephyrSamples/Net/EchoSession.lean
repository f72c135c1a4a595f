/-
# ZephyrSamples.Net.EchoSession -- the client of one sample and the server of another

`tcp_connect_and_send` connects, sends its message with one `send`, and prints what one `recv` returns.
`handle_client` serves it at the other end. Between them are the two byte streams of a connection, which
deliver what was accepted, in order, in pieces of any size.

As long as the server's `send` accepts whole pieces, what the client prints is a beginning of its message,
terminated inside the buffer (`echoSession_reply`). Where nothing fails, every run comes to its end, with both
sockets closed and a reply that is not empty (`echoSession_finishes`).
-/
import ZephyrSamples.Lib.Text
import ZephyrSamples.Net.TcpServer
import ZephyrSamples.Net.TlsSocket

namespace ZephyrSamples.Net.EchoSession

open ZephyrSamples.Lib
open ZephyrSamples.Lib.CString
open ZephyrSamples.Lib.Text
open ZephyrSamples.Net.TcpServer
open ZephyrSamples.Net.TlsSocket (FdAct)

/-! ## `tcp_connect_and_send` -/

/-- `SEND_DATA` -/
def sendData : List UInt8 := ascii "Hello from Zephyr!"

/-- `SERVER_ADDR` -/
def serverAddr : String := "192.168.1.1"

/-- `SERVER_PORT` -/
def serverPort : Nat := 4242

/-- Where the client stands: before each of its calls, or behind the last. -/
inductive ClientPc where
  | socket
  | inetPton
  | connect
  | send
  | recv
  | done
  deriving DecidableEq, Repr

/-- `tcp_socket` and the locals, and a history: the descriptors opened and closed, the indices of
`recv_buffer` written, what `send` accepted and what `recv` returned, and the texts printed. -/
structure Client where
  pc : ClientPc
  tcpSocket : Int
  recvBuffer : Memory
  acts : List FdAct
  written : List Nat
  accepted : List UInt8
  reply : Option (List UInt8)
  printed : List String

namespace Client

def start (garbage : Memory) : Client :=
  ⟨.socket, -1, garbage, [], [], [], none, ["Creating TCP socket...\n"]⟩

def printk (c : Client) (lines : List String) : Client := { c with printed := c.printed ++ lines }

/-- `close(tcp_socket)` and `return`. -/
def close (c : Client) : Client := { c with pc := .done, acts := c.acts ++ [.closed c.tcpSocket] }

/-- The same with `tcp_socket = -1` in between. -/
def closeAndForget (c : Client) : Client := { c.close with tcpSocket := -1 }

/-- `socket` returns `fd`. -/
def socket (c : Client) (fd errno : Int) : Client :=
  let c := { c with tcpSocket := fd }
  if fd < 0 then
    { c.printk ["Failed to create socket: " ++ toString (-errno) ++ "\n"] with pc := .done }
  else
    { c.printk ["Socket created successfully\n"] with pc := .inetPton, acts := c.acts ++ [.opened fd] }

def inetPton (c : Client) (ret : Int) : Client :=
  if ret ≤ 0 then (c.printk ["Invalid server address: " ++ serverAddr ++ "\n"]).close
  else
    { c.printk ["Server address: " ++ serverAddr ++ ":" ++ toString serverPort ++ "\n",
        "Connecting to server...\n"] with pc := .connect }

/-- What is said of an `errno`. -/
def explain (errCode : Int) : List String :=
  if errCode = 113 then
    ["  Host unreachable!\n", "  - Check if Docker is running\n", "  - Check Ethernet cable connection\n"]
  else if errCode = 111 then
    ["  Connection refused!\n", "  - TCP server not running on Docker\n"]
  else if errCode = 110 then
    ["  Connection timeout!\n", "  - Server not responding\n"]
  else ["  Unknown error (errno: " ++ toString errCode ++ ")\n"]

def connect (c : Client) (ret errno : Int) : Client :=
  if ret < 0 then
    (c.printk (("Connection failed: errno " ++ toString errno ++ "\n") :: explain errno)).closeAndForget
  else
    { c.printk ["Connected to server!\n", "Sending: '" ++ text sendData ++ "'\n"] with pc := .send }

def send (c : Client) (ret errno : Int) : Client :=
  if ret < 0 then (c.printk ["Send failed: " ++ toString (-errno) ++ "\n"]).closeAndForget
  else
    { c.printk ["Data sent (" ++ toString ret ++ " bytes)\n", "Waiting for response...\n"] with
      pc := .recv
      accepted := sendData.take ret.toNat }

/-- `recv` fails. -/
def recvFails (c : Client) (errno : Int) : Client :=
  (c.printk ["Receive failed: " ++ toString (-errno) ++ "\n"]).closeAndForget

/-- `recv` stores a piece, which is terminated and printed. -/
def recv (c : Client) (piece : List UInt8) : Client :=
  let c := { c with
    recvBuffer := (c.recvBuffer.blit 0 piece).set piece.length 0
    written := c.written ++ List.range piece.length ++ [piece.length]
    reply := some piece }
  let line := "Received (" ++ toString piece.length ++ " bytes): '" ++ text (piece.takeWhile (· != 0)) ++ "'\n"
  (c.printk [line, "Connection closed\n"]).closeAndForget

end Client

/-! ## The session -/

/-- Both sides and the bytes between them. The server has nothing to do before a connection is made. -/
structure Session where
  client : Client
  connected : Bool
  toServer : List UInt8
  server : Handler
  toClient : List UInt8

/-- One call of either side, with what it returns. -/
inductive Call where
  | socket (fd errno : Int)
  | inetPton (ret : Int)
  | connect (ret errno : Int)
  | send (ret errno : Int)
  | recvFails (errno : Int)
  | recv (piece : List UInt8)
  | server (o : Outcome)
  deriving DecidableEq, Repr

/-- What may happen next. -/
inductive Step : Call → Session → Session → Prop
  | socket {s : Session} {fd errno : Int} : s.client.pc = .socket →
      Step (.socket fd errno) s { s with client := s.client.socket fd errno }
  | inetPton {s : Session} {ret : Int} : s.client.pc = .inetPton →
      Step (.inetPton ret) s { s with client := s.client.inetPton ret }
  | connect {s : Session} {ret errno : Int} : s.client.pc = .connect →
      Step (.connect ret errno) s
        { s with client := s.client.connect ret errno, connected := !decide (ret < 0) }
  | sendFails {s : Session} {ret errno : Int} : s.client.pc = .send → ret < 0 →
      Step (.send ret errno) s { s with client := s.client.send ret errno }
  | send {s : Session} {ret errno : Int} : s.client.pc = .send → 1 ≤ ret → ret ≤ sendData.length →
      Step (.send ret errno) s
        { s with client := s.client.send ret errno, toServer := s.toServer ++ sendData.take ret.toNat }
  | recvFails {s : Session} {errno : Int} : s.client.pc = .recv →
      Step (.recvFails errno) s { s with client := s.client.recvFails errno }
  | recv {s : Session} {piece rest : List UInt8} : s.client.pc = .recv → s.toClient = piece ++ rest →
      piece.length ≤ recvBufSize - 1 → (piece = [] → rest = [] ∧ s.server.phase = .closed) →
      Step (.recv piece) s { s with client := s.client.recv piece, toClient := rest }
  | received {s : Session} {piece rest : List UInt8} {t : Handler} : s.connected = true →
      s.toServer = piece ++ rest → TcpServer.Step (.received piece) s.server t →
      Step (.server (.received piece)) s { s with server := t, toServer := rest }
  | disconnected {s : Session} {t : Handler} : s.connected = true → s.toServer = [] →
      s.client.pc = .done → TcpServer.Step .disconnected s.server t →
      Step (.server .disconnected) s { s with server := t }
  | sent {s : Session} {k : Nat} {t : Handler} : s.connected = true →
      TcpServer.Step (.sent k) s.server t →
      Step (.server (.sent k)) s { s with server := t, toClient := s.toClient ++ s.server.offered.take k }
  | recvFailed {s : Session} {t : Handler} : s.connected = true →
      TcpServer.Step .recvFailed s.server t → Step (.server .recvFailed) s { s with server := t }
  | sendFailed {s : Session} {t : Handler} : s.connected = true →
      TcpServer.Step .sendFailed s.server t → Step (.server .sendFailed) s { s with server := t }

def echoSession : System Session Call where
  init s := ∃ garbage garbage', s = ⟨.start garbage, false, [], .start garbage', []⟩
  step := Step

/-! ## The streams -/

/-- A session's server is one of `handle_client`. -/
theorem server_reachable {s : Session} (h : echoSession.Reachable s) : handleClient.Reachable s.server := by
  refine h.project (f := Session.server) ?_ ?_
  · rintro s ⟨garbage, garbage', rfl⟩
    exact ⟨garbage', rfl⟩
  · intro s t l hstep
    -- a step of the session is one of the server or none
    cases hstep with
    | received _ _ hserver => exact Or.inr ⟨_, hserver⟩
    | disconnected _ _ _ hserver => exact Or.inr ⟨_, hserver⟩
    | sent _ hserver => exact Or.inr ⟨_, hserver⟩
    | recvFailed _ hserver => exact Or.inr ⟨_, hserver⟩
    | sendFailed _ hserver => exact Or.inr ⟨_, hserver⟩
    | socket | inetPton | connect | sendFails | send | recvFails | recv => exact Or.inl rfl

/-- What each call leaves of the bytes sent and received, and where it leads. -/
theorem Client.socket_spec (c : Client) (fd errno : Int) :
    (c.socket fd errno).accepted = c.accepted ∧ (c.socket fd errno).reply = c.reply ∧
      (c.socket fd errno).pc = if fd < 0 then .done else .inetPton := by
  unfold Client.socket
  dsimp only
  split_ifs <;> exact ⟨rfl, rfl, rfl⟩

theorem Client.inetPton_spec (c : Client) (ret : Int) :
    (c.inetPton ret).accepted = c.accepted ∧ (c.inetPton ret).reply = c.reply ∧
      (c.inetPton ret).pc = if ret ≤ 0 then .done else .connect := by
  unfold Client.inetPton
  split_ifs <;> exact ⟨rfl, rfl, rfl⟩

theorem Client.connect_spec (c : Client) (ret errno : Int) :
    (c.connect ret errno).accepted = c.accepted ∧ (c.connect ret errno).reply = c.reply ∧
      (c.connect ret errno).pc = if ret < 0 then .done else .send := by
  unfold Client.connect
  split_ifs <;> exact ⟨rfl, rfl, rfl⟩

theorem Client.send_spec (c : Client) (ret errno : Int) :
    (c.send ret errno).accepted = (if ret < 0 then c.accepted else sendData.take ret.toNat) ∧
      (c.send ret errno).reply = c.reply ∧
      (c.send ret errno).pc = if ret < 0 then .done else .recv := by
  unfold Client.send
  split_ifs <;> exact ⟨rfl, rfl, rfl⟩

/-- Nothing accepted is lost, doubled or out of order on its way. -/
structure Streams (s : Session) : Prop where
  up : s.server.input ++ s.toServer = s.client.accepted
  down : s.client.reply.getD [] ++ s.toClient = s.server.output
  accepted : s.client.accepted <+: sendData
  unsent : s.client.pc ≠ .recv → s.client.pc ≠ .done → s.client.accepted = []
  unreplied : s.client.pc ≠ .done → s.client.reply = none

/-- A call of the client that sends and receives nothing. -/
theorem Streams.of_client {s : Session} (h : Streams s) {c : Client} {b : Bool}
    (haccepted : c.accepted = s.client.accepted) (hreply : c.reply = s.client.reply)
    (hopen : s.client.pc ≠ .done) (hsent : s.client.pc = .recv → c.pc = .done) :
    Streams { s with client := c, connected := b } where
  up := by
    show s.server.input ++ s.toServer = c.accepted
    rw [haccepted, h.up]
  down := by
    show c.reply.getD [] ++ s.toClient = s.server.output
    rw [hreply, h.down]
  accepted := by
    show c.accepted <+: sendData
    rw [haccepted]
    exact h.accepted
  unsent := by
    intro _ hdone
    show c.accepted = []
    rw [haccepted]
    exact h.unsent (fun hrecv => hdone (hsent hrecv)) hopen
  unreplied := by
    intro _
    show c.reply = none
    rw [hreply]
    exact h.unreplied hopen

/-- A step of the server that fails or finds the connection closed. -/
theorem Streams.of_server {s : Session} (h : Streams s) {t : Handler} (hin : t.input = s.server.input)
    (hout : t.output = s.server.output) : Streams { s with server := t } where
  up := by
    show t.input ++ s.toServer = s.client.accepted
    rw [hin, h.up]
  down := by
    show s.client.reply.getD [] ++ s.toClient = t.output
    rw [hout, h.down]
  accepted := h.accepted
  unsent := h.unsent
  unreplied := h.unreplied

/-- **One call.** `send` puts into one stream, the server takes out of it and puts into the other, `recv` takes out
of that. -/
theorem Streams.step {s t : Session} {l : Call} (h : Streams s) (hstep : Step l s t) : Streams t := by
  cases hstep with
  | @socket _ fd errno hpc =>
      obtain ⟨haccepted, hreply, -⟩ := s.client.socket_spec fd errno
      refine h.of_client (b := s.connected) haccepted hreply (by simp [hpc]) (by simp [hpc])
  | @inetPton _ ret hpc =>
      obtain ⟨haccepted, hreply, -⟩ := s.client.inetPton_spec ret
      refine h.of_client (b := s.connected) haccepted hreply (by simp [hpc]) (by simp [hpc])
  | @connect _ ret errno hpc =>
      obtain ⟨haccepted, hreply, -⟩ := s.client.connect_spec ret errno
      refine h.of_client haccepted hreply (by simp [hpc]) (by simp [hpc])
  | @sendFails _ ret errno hpc hret =>
      obtain ⟨haccepted, hreply, hnext⟩ := s.client.send_spec ret errno
      rw [if_pos hret] at haccepted hnext
      exact h.of_client (b := s.connected) haccepted hreply (by simp [hpc]) (by simp [hpc])
  | @send _ ret errno hpc hone hle =>
      obtain ⟨haccepted, hreply, hnext⟩ := s.client.send_spec ret errno
      have hnonneg : ¬ ret < 0 := by omega
      rw [if_neg hnonneg] at haccepted hnext
      -- before the one send nothing is on its way
      have hbefore := h.up
      rw [h.unsent (by simp [hpc]) (by simp [hpc])] at hbefore
      obtain ⟨hin, hto⟩ := List.append_eq_nil_iff.mp hbefore
      refine ⟨?_, ?_, ?_, ?_, ?_⟩
      · show s.server.input ++ (s.toServer ++ sendData.take ret.toNat) = (s.client.send ret errno).accepted
        rw [haccepted, hin, hto]
        rfl
      · show (s.client.send ret errno).reply.getD [] ++ s.toClient = s.server.output
        rw [hreply, h.down]
      · show (s.client.send ret errno).accepted <+: sendData
        rw [haccepted]
        exact List.take_prefix _ _
      · intro hrecv
        exact absurd hnext hrecv
      · intro _
        show (s.client.send ret errno).reply = none
        rw [hreply]
        exact h.unreplied (by simp [hpc])
  | @recvFails _ errno hpc =>
      exact h.of_client (c := s.client.recvFails errno) (b := s.connected) rfl rfl (by simp [hpc])
        fun _ => rfl
  | @recv _ piece rest hpc hsplit hle hend =>
      have hnone : s.client.reply = none := h.unreplied (by simp [hpc])
      refine ⟨h.up, ?_, h.accepted, ?_, ?_⟩
      · have hdown := h.down
        rw [hnone, hsplit] at hdown
        exact hdown
      · intro _ hdone
        exact absurd rfl hdone
      · intro hdone
        exact absurd rfl hdone
  | @received _ piece rest t hconn hsplit hserver =>
      cases hserver with
      | received hphase hne hlen =>
          refine ⟨?_, h.down, h.accepted, h.unsent, h.unreplied⟩
          show s.server.input ++ piece ++ rest = s.client.accepted
          rw [List.append_assoc, ← hsplit, h.up]
  | @disconnected _ t hconn hempty hpc hserver =>
      cases hserver with
      | disconnected hphase => exact h.of_server rfl rfl
  | @sent _ k t hconn hserver =>
      cases hserver with
      | sent hphase hone hle =>
          refine ⟨h.up, ?_, h.accepted, h.unsent, h.unreplied⟩
          show s.client.reply.getD [] ++ (s.toClient ++ s.server.offered.take k) =
            s.server.output ++ s.server.offered.take k
          rw [← List.append_assoc, h.down]
  | @recvFailed _ t hconn hserver =>
      cases hserver with
      | recvFailed hphase => exact h.of_server rfl rfl
  | @sendFailed _ t hconn hserver =>
      cases hserver with
      | sendFailed hphase => exact h.of_server rfl rfl

theorem streams_of_reachable {s : Session} (h : echoSession.Reachable s) : Streams s := by
  refine h.invariant ?_ fun s t l _ hinv hstep => hinv.step hstep
  rintro s ⟨garbage, garbage', rfl⟩
  exact ⟨rfl, rfl, List.nil_prefix, fun _ _ => rfl, fun _ => rfl⟩

/-! ## The reply -/

/-- No `send` of the server fell short. -/
def Whole (t : Handler) : Prop := ∀ p ∈ t.sends, p.2 = p.1.length

instance : DecidablePred Whole := fun _ => inferInstanceAs (Decidable (∀ _ ∈ _, _))

/-- What a server sends back without falling short is a beginning of what it received. -/
theorem output_prefix_of_whole {t : Handler} (h : handleClient.Reachable t) (hw : Whole t) :
    t.output <+: t.input := by
  have hwhole : t.sends.flatMap (fun p => p.1.take p.2) = t.sends.flatMap Prod.fst := by
    refine List.flatMap_congr fun p hp => ?_
    rw [hw p hp, List.take_length]
  rw [(accounted_of_reachable h).output, hwhole]
  exact (served_of_reachable h).sends

/-- The client's buffer: what was received lies in it, terminated, and no index is outside. -/
structure Stored (c : Client) : Prop where
  reply : ∀ r, c.reply = some r → IsString c.recvBuffer r
  written : ∀ i ∈ c.written, i < recvBufSize

/-- The piece received is shorter than the buffer, so its terminator has a place there. -/
theorem stored_of_reachable {s : Session} (h : echoSession.Reachable s) : Stored s.client := by
  refine h.invariant (I := fun s => Stored s.client) ?_ ?_
  · rintro s ⟨garbage, garbage', rfl⟩
    exact ⟨fun r hr => (by cases hr), fun i hi => absurd hi List.not_mem_nil⟩
  · rintro s t l - hinv hstep
    -- only `recv` writes to the buffer
    have hsame : ∀ c : Client, c.reply = s.client.reply → c.recvBuffer = s.client.recvBuffer →
        c.written = s.client.written → Stored c := by
      intro c hreply hbuffer hwritten
      refine ⟨?_, ?_⟩
      · rw [hreply, hbuffer]
        exact hinv.reply
      · rw [hwritten]
        exact hinv.written
    cases hstep with
    | socket => apply hsame <;> unfold Client.socket <;> dsimp only <;> split_ifs <;> rfl
    | inetPton => apply hsame <;> unfold Client.inetPton <;> split_ifs <;> rfl
    | connect => apply hsame <;> unfold Client.connect <;> split_ifs <;> rfl
    | sendFails => apply hsame <;> unfold Client.send <;> split_ifs <;> rfl
    | send => apply hsame <;> unfold Client.send <;> split_ifs <;> rfl
    | recvFails => exact hsame _ rfl rfl rfl
    | @recv _ piece rest hpc hsplit hle hend =>
        have hsize : piece.length < recvBufSize := by
          unfold recvBufSize at *
          omega
        refine ⟨?_, ?_⟩
        · rintro r hr
          obtain rfl := Option.some.inj hr
          exact isString_blit_set _ _
        · have hpiece : ∀ i ∈ List.range piece.length, i < recvBufSize := fun i hi =>
            Nat.lt_trans (List.mem_range.mp hi) hsize
          exact List.forall_mem_append.mpr
            ⟨List.forall_mem_append.mpr ⟨hinv.written, hpiece⟩, List.forall_mem_singleton.mpr hsize⟩
    | received | disconnected | sent | recvFailed | sendFailed => exact hinv

/-- **The reply.** However the streams are cut into pieces: as long as the server's `send` accepted whole
pieces, the text the client prints is a beginning of its message, and it lies terminated in the buffer. -/
theorem echoSession_reply {s : Session} (h : echoSession.Reachable s) (hw : Whole s.server)
    {r : List UInt8} (hr : s.client.reply = some r) :
    r <+: sendData ∧ Reads s.client.recvBuffer r ∧ ∀ i ∈ s.client.written, i < recvBufSize := by
  have hstreams := streams_of_reachable h
  have hreply : r <+: s.server.output := by
    rw [← hstreams.down, hr]
    exact List.prefix_append _ _
  have hinput : s.server.input <+: s.client.accepted := by
    rw [← hstreams.up]
    exact List.prefix_append _ _
  have hbeginning : r <+: sendData :=
    ((hreply.trans (output_prefix_of_whole (server_reachable h) hw)).trans hinput).trans hstreams.accepted
  have hnul : (0 : UInt8) ∉ sendData := by decide
  refine ⟨hbeginning, ⟨(stored_of_reachable h).reply r hr, ?_⟩, (stored_of_reachable h).written⟩
  exact fun hzero => hnul (hbeginning.subset hzero)

/-- `send` accepts ten bytes on a stack full of `0xff`; the server gets them in two pieces and sends both back;
the client's one `recv` returns eight. -/
def inPieces : Session where
  client := (((((Client.start fun _ => 255).socket 3 0).inetPton 1).connect 0 0).send 10 0).recv (ascii "Hello fr")
  connected := true
  toServer := []
  server := ((((Handler.start fun _ => 255).recvPiece (ascii "Hello")).sendPiece 5).recvPiece
    (ascii " from")).sendPiece 5
  toClient := ascii "om"

theorem inPieces_reachable : echoSession.Reachable inPieces := by
  have hstart : echoSession.Reachable ⟨.start fun _ => 255, false, [], .start fun _ => 255, []⟩ :=
    .init ⟨_, _, rfl⟩
  have next : ∀ (l : Call) {s t : Session}, echoSession.Reachable s → Step l s t → echoSession.Reachable t :=
    fun _ _ _ hs hstep => hs.step hstep
  have hsocket := next (.socket 3 0) hstart (.socket rfl)
  have hpton := next (.inetPton 1) hsocket (.inetPton rfl)
  have hconnect := next (.connect 0 0) hpton (.connect rfl)
  have hsend := next (.send 10 0) hconnect (.send rfl (by decide) (by decide))
  -- the server's two rounds
  have hhello := next (.server (.received (ascii "Hello"))) hsend
    (@Step.received _ _ (ascii " from") _ rfl (by decide) (.received rfl (by decide) (by decide)))
  have hback := next (.server (.sent 5)) hhello (.sent rfl (.sent rfl (by decide) (by decide)))
  have hfrom := next (.server (.received (ascii " from"))) hback
    (@Step.received _ _ [] _ rfl (by decide) (.received rfl (by decide) (by decide)))
  have hbacks := next (.server (.sent 5)) hfrom (.sent rfl (.sent rfl (by decide) (by decide)))
  exact next (.recv (ascii "Hello fr")) hbacks
    (@Step.recv _ _ (ascii "om") rfl (by decide) (by decide) fun hnil => absurd hnil (by decide))

theorem echoSession_reply_inPieces : ascii "Hello fr" <+: sendData ∧
    Reads inPieces.client.recvBuffer (ascii "Hello fr") ∧
    ∀ i ∈ inPieces.client.written, i < recvBufSize :=
  echoSession_reply inPieces_reachable (by decide) rfl

/-! ## Descriptors -/

/-- The client's descriptor: none before `socket`, open until the end, closed once there. -/
def Owns (c : Client) : Prop :=
  match c.pc with
  | .socket => c.acts = []
  | .inetPton | .connect | .send | .recv => 0 ≤ c.tcpSocket ∧ c.acts = [.opened c.tcpSocket]
  | .done => c.acts = [] ∨ ∃ fd, 0 ≤ fd ∧ c.acts = [.opened fd, .closed fd]

/-- The one `close` of every way out. -/
theorem Owns.close {c : Client} (h : 0 ≤ c.tcpSocket ∧ c.acts = [.opened c.tcpSocket]) :
    c.acts ++ [.closed c.tcpSocket] = [] ∨
      ∃ fd, 0 ≤ fd ∧ c.acts ++ [.closed c.tcpSocket] = [.opened fd, .closed fd] := by
  refine Or.inr ⟨c.tcpSocket, h.1, ?_⟩
  rw [h.2]
  rfl

/-- The client closes what it opened, wherever it gives up. -/
theorem owns_of_reachable {s : Session} (h : echoSession.Reachable s) : Owns s.client := by
  refine h.invariant (I := fun s => Owns s.client) ?_ ?_
  · rintro s ⟨garbage, garbage', rfl⟩
    rfl
  · rintro s t l - hinv hstep
    unfold Owns at hinv
    cases hstep with
    | @socket _ fd errno hpc =>
        rw [hpc] at hinv
        show Owns (s.client.socket fd errno)
        unfold Client.socket
        dsimp only
        split_ifs with hfd
        · exact Or.inl hinv
        · refine ⟨Int.not_lt.mp hfd, ?_⟩
          show s.client.acts ++ [.opened fd] = [.opened fd]
          rw [hinv]
          rfl
    | @inetPton _ ret hpc =>
        rw [hpc] at hinv
        show Owns (s.client.inetPton ret)
        unfold Client.inetPton
        split_ifs
        · exact Owns.close hinv
        · exact hinv
    | @connect _ ret errno hpc =>
        rw [hpc] at hinv
        show Owns (s.client.connect ret errno)
        unfold Client.connect
        split_ifs
        · exact Owns.close hinv
        · exact hinv
    | @sendFails _ ret errno hpc hret =>
        rw [hpc] at hinv
        show Owns (s.client.send ret errno)
        unfold Client.send
        rw [if_pos hret]
        exact Owns.close hinv
    | @send _ ret errno hpc hone hle =>
        rw [hpc] at hinv
        show Owns (s.client.send ret errno)
        unfold Client.send
        rw [if_neg (by omega)]
        exact hinv
    | recvFails hpc =>
        rw [hpc] at hinv
        exact Owns.close hinv
    | recv hpc =>
        rw [hpc] at hinv
        exact Owns.close hinv
    | received | disconnected | sent | recvFailed | sendFailed => exact hinv

/-! ## Runs without failures -/

/-- A call that does not fail, though it may accept or deliver less than it could. -/
def Faultless : Call → Prop
  | .socket fd _ => 0 ≤ fd
  | .inetPton ret => 0 < ret
  | .connect ret _ => 0 ≤ ret
  | .send ret _ => 0 ≤ ret
  | .recv _ => True
  | .recvFails _ => False
  | .server .recvFailed | .server .sendFailed => False
  | .server _ => True

def faultless : System Session Call := echoSession.restrict fun l _ => Faultless l

/-- Both sides are done, and the client has its reply. -/
structure Finished (s : Session) : Prop where
  client : s.client.pc = .done
  server : s.server.phase = .closed
  reply : ∃ r, s.client.reply = some r ∧ r ≠ []
  closed : ∃ fd, s.client.acts = [.opened fd, .closed fd]
  closes : s.server.closes = 1

/-- How the two sides keep step. -/
structure InStep (s : Session) : Prop where
  connected : s.connected = true ↔ s.client.pc = .send ∨ s.client.pc = .recv ∨ s.client.pc = .done
  sent : s.client.pc = .recv ∨ s.client.pc = .done → s.client.accepted ≠ []
  open_ : s.server.phase = .closed → s.client.pc = .done
  ok : s.server.failed = false
  replied : s.client.pc = .done → ∃ r, s.client.reply = some r ∧ r ≠ []
  owned : s.client.pc = .done → s.client.acts ≠ []

/-- A call that leads the client to one of the places before its `recv`. -/
theorem InStep.of_client {s : Session} (h : InStep s) {c : Client} {b : Bool}
    (hpc : s.client.pc ≠ .done) (hnext : c.pc ≠ .recv ∧ c.pc ≠ .done)
    (hconnected : b = true ↔ c.pc = .send) :
    InStep { s with client := c, connected := b } where
  connected := by
    simp only [hconnected, hnext.1, hnext.2, or_false]
  sent := by
    rintro (hrecv | hdone)
    · exact absurd hrecv hnext.1
    · exact absurd hdone hnext.2
  open_ hclosed := absurd (h.open_ hclosed) hpc
  ok := h.ok
  replied hdone := absurd hdone hnext.2
  owned hdone := absurd hdone hnext.2

/-- A step of the server that goes on. -/
theorem InStep.of_server {s : Session} (h : InStep s) {t : Handler} {toServer toClient : List UInt8}
    (hphase : t.phase = .closed → s.client.pc = .done) (hok : t.failed = s.server.failed) :
    InStep { s with server := t, toServer := toServer, toClient := toClient } where
  connected := h.connected
  sent := h.sent
  open_ := hphase
  ok := hok.trans h.ok
  replied := h.replied
  owned := h.owned

/-- Where no call fails the client gives up nowhere, so the server does not find the connection closed before the
reply is there. -/
theorem InStep.step {s t : Session} {l : Call} (h : InStep s) (hl : Faultless l) (hstep : Step l s t) :
    InStep t := by
  cases hstep with
  | @socket _ fd errno hpc =>
      have hfd : ¬ fd < 0 := Int.not_lt.mpr hl
      have hnext := (s.client.socket_spec fd errno).2.2
      rw [if_neg hfd] at hnext
      refine h.of_client (b := s.connected) (by simp [hpc]) (by simp [hnext]) ?_
      rw [h.connected]
      simp [hpc, hnext]
  | @inetPton _ ret hpc =>
      have hret : ¬ ret ≤ 0 := Int.not_le.mpr hl
      have hnext := (s.client.inetPton_spec ret).2.2
      rw [if_neg hret] at hnext
      refine h.of_client (b := s.connected) (by simp [hpc]) (by simp [hnext]) ?_
      rw [h.connected]
      simp [hpc, hnext]
  | @connect _ ret errno hpc =>
      have hret : ¬ ret < 0 := Int.not_lt.mpr hl
      have hnext := (s.client.connect_spec ret errno).2.2
      rw [if_neg hret] at hnext
      exact h.of_client (by simp [hpc]) (by simp [hnext]) (by simp [hret, hnext])
  | @sendFails _ ret errno hpc hret => exact absurd hl (Int.not_le.mpr hret)
  | @send _ ret errno hpc hone hle =>
      have hret : ¬ ret < 0 := by omega
      obtain ⟨haccepted, -, hnext⟩ := s.client.send_spec ret errno
      rw [if_neg hret] at haccepted hnext
      refine ⟨?_, fun _ => ?_, fun hclosed => ?_, h.ok, fun hdone => ?_, fun hdone => ?_⟩
      · show s.connected = true ↔ _
        rw [h.connected]
        simp [hpc, hnext]
      · show (s.client.send ret errno).accepted ≠ []
        rw [haccepted]
        intro hempty
        have hlen := congrArg List.length hempty
        rw [List.length_take, List.length_nil] at hlen
        omega
      · exact absurd (h.open_ hclosed) (by simp [hpc])
      · exact absurd (hnext.symm.trans hdone) (by simp)
      · exact absurd (hnext.symm.trans hdone) (by simp)
  | recvFails => exact absurd hl id
  | @recv _ piece rest hpc hsplit hle hend =>
      refine ⟨?_, fun _ => h.sent (Or.inl hpc), fun _ => rfl, h.ok, fun _ => ⟨piece, rfl, ?_⟩, fun _ => ?_⟩
      · show s.connected = true ↔ _
        rw [h.connected]
        simp [hpc, Client.recv, Client.closeAndForget, Client.close]
      · intro hempty
        -- the server closes only behind the client
        have hdone := h.open_ (hend hempty).2
        exact absurd (hpc.symm.trans hdone) (by simp)
      · -- what was opened and what was closed
        exact List.append_ne_nil_of_right_ne_nil _ (List.cons_ne_nil _ _)
  | received hconn hsplit hserver =>
      cases hserver with
      | received hphase hne hlen => exact h.of_server (fun hclosed => by cases hclosed) rfl
  | disconnected hconn hempty hpc hserver =>
      cases hserver with
      | disconnected hphase => exact h.of_server (fun _ => hpc) rfl
  | sent hconn hserver =>
      cases hserver with
      | sent hphase hone hle => exact h.of_server (fun hclosed => by cases hclosed) rfl
  | recvFailed => exact absurd hl id
  | sendFailed => exact absurd hl id

theorem inStep_of_reachable {s : Session} (h : faultless.Reachable s) : InStep s := by
  refine h.invariant ?_ ?_
  · rintro s ⟨garbage, garbage', rfl⟩
    have hpc : ClientPc.socket ≠ .done := by decide
    refine ⟨?_, ?_, ?_, rfl, fun hdone => absurd hdone hpc, fun hdone => absurd hdone hpc⟩
    · simp [Client.start]
    · simp [Client.start]
    · simp [Handler.start]
  · rintro s t l - hinv ⟨hl, hstep⟩
    exact hinv.step hl hstep

/-! ## Every run comes to its end -/

def ClientPc.remaining : ClientPc → Nat
  | .socket => 44
  | .inetPton => 43
  | .connect => 42
  -- a `send` leaves the `recv` and two steps of the server for each byte at most
  | .send => 41
  | .recv => 1
  | .done => 0

def phaseRemaining : Phase → Nat
  | .recv => 1
  | .send => 2
  | .closed => 0

/-- What is left to do. -/
def remaining (s : Session) : Nat :=
  s.client.pc.remaining + 2 * s.toServer.length + phaseRemaining s.server.phase

/-- **Every call brings the end closer**: a byte read counts for two, and its `send` gives
one of them back at most. -/
theorem remaining_lt {s t : Session} {l : Call} (hl : Faultless l) (hstep : Step l s t) :
    remaining t < remaining s := by
  unfold remaining
  cases hstep with
  | @socket _ fd errno hpc =>
      rw [hpc, (s.client.socket_spec fd errno).2.2, if_neg (Int.not_lt.mpr hl)]
      simp only [ClientPc.remaining]
      omega
  | @inetPton _ ret hpc =>
      rw [hpc, (s.client.inetPton_spec ret).2.2, if_neg (Int.not_le.mpr hl)]
      simp only [ClientPc.remaining]
      omega
  | @connect _ ret errno hpc =>
      rw [hpc, (s.client.connect_spec ret errno).2.2, if_neg (Int.not_lt.mpr hl)]
      simp only [ClientPc.remaining]
      omega
  | @sendFails _ ret errno hpc hret => exact absurd hl (Int.not_le.mpr hret)
  | @send _ ret errno hpc hone hle =>
      rw [hpc, (s.client.send_spec ret errno).2.2, if_neg (by omega), List.length_append, List.length_take]
      have hsize : sendData.length = 18 := by decide
      simp only [ClientPc.remaining]
      omega
  | recvFails => exact absurd hl id
  | @recv _ piece rest hpc hsplit hle hend =>
      have hnext : (s.client.recv piece).pc = .done := rfl
      rw [hpc, hnext]
      simp only [ClientPc.remaining]
      omega
  | @received _ piece rest _ hconn hsplit hserver =>
      cases hserver with
      | received hphase hne hlen =>
          have hpiece := List.length_pos_iff.mpr hne
          rw [hphase, hsplit, List.length_append]
          simp only [Handler.recvPiece, phaseRemaining]
          omega
  | disconnected hconn hempty hpc hserver =>
      cases hserver with
      | disconnected hphase =>
          rw [hphase]
          simp only [Handler.leave, phaseRemaining]
          omega
  | sent hconn hserver =>
      cases hserver with
      | sent hphase hone hle =>
          rw [hphase]
          simp only [Handler.sendPiece, phaseRemaining]
          omega
  | recvFailed => exact absurd hl id
  | sendFailed => exact absurd hl id

/-- Before it has answered anything the server has something to read or to send. -/
theorem output_nonempty {t : Handler} (h : handleClient.Reachable t) (hphase : t.phase = .recv)
    (hinput : t.input ≠ []) : t.output ≠ [] := by
  intro houtput
  have hserved := served_of_reachable h
  have hacc := accounted_of_reachable h
  have hsum := hacc.input (hserved.open_ (by simp [hphase]))
  unfold Handler.pending at hsum
  rw [hphase, List.append_nil] at hsum
  rcases hsends : t.sends with _ | ⟨p, sends⟩
  · rw [hsends] at hsum
    exact hinput hsum
  · have hmem : p ∈ t.sends := by
      rw [hsends]
      exact List.mem_cons_self
    have hone := hserved.accepted p hmem
    have hle := hacc.accepted p hmem
    have hlen := congrArg List.length (hacc.output.symm.trans houtput)
    rw [hsends, List.flatMap_cons, List.length_append, List.length_take, List.length_nil] at hlen
    omega

/-- A single byte may be received. -/
theorem one_fits (b : UInt8) : [b].length ≤ recvBufSize - 1 := by
  show 1 ≤ recvBufSize - 1
  decide

/-- The server can go on unless it waits for the client. -/
theorem server_moves {s : Session} (h : faultless.Reachable s) (hconn : s.connected = true)
    (hopen : s.server.phase ≠ .closed)
    (hwait : s.server.phase = .recv → s.toServer = [] → s.client.pc = .done) :
    ∃ l t, faultless.step l s t := by
  have hserved := served_of_reachable (server_reachable h.of_restrict)
  rcases hphase : s.server.phase with _ | _ | _
  · rcases hto : s.toServer with _ | ⟨b, rest⟩
    · exact ⟨.server .disconnected, _, trivial,
        .disconnected hconn hto (hwait hphase hto) (.disconnected hphase)⟩
    · exact ⟨.server (.received [b]), _, trivial,
        .received hconn hto (.received hphase (List.cons_ne_nil _ _) (one_fits b))⟩
  · exact ⟨.server (.sent 1), _, trivial, .sent hconn (.sent hphase (Nat.le_refl 1) (hserved.offered hphase))⟩
  · exact absurd hphase hopen

/-- Nobody waits for ever. -/
theorem finished_or_moves {s : Session} (h : faultless.Reachable s) :
    Finished s ∨ ∃ l t, faultless.step l s t := by
  have hstep := inStep_of_reachable h
  have hstreams := streams_of_reachable h.of_restrict
  rcases hpc : s.client.pc with _ | _ | _ | _ | _ | _
  · exact Or.inr ⟨.socket 0 0, _, Int.le_refl 0, .socket hpc⟩
  · exact Or.inr ⟨.inetPton 1, _, Int.zero_lt_one, .inetPton hpc⟩
  · exact Or.inr ⟨.connect 0 0, _, Int.le_refl 0, .connect hpc⟩
  · exact Or.inr ⟨.send 1 0, _, Int.zero_le_ofNat 1, .send hpc (Int.le_refl 1) (by decide)⟩
  · right
    have hconn : s.connected = true := hstep.connected.mpr (Or.inr (Or.inl hpc))
    have hopen : s.server.phase ≠ .closed := fun hclosed => by
      have hdone := hstep.open_ hclosed
      rw [hpc] at hdone
      cases hdone
    rcases hto : s.toClient with _ | ⟨b, rest⟩
    · -- nothing to receive: then nothing has been answered, and the server is not done with the message
      refine server_moves h hconn hopen fun hphase hempty => ?_
      have hnone : s.client.reply = none := hstreams.unreplied (by simp [hpc])
      have hdown := hstreams.down
      have hup := hstreams.up
      rw [hnone, hto] at hdown
      rw [hempty, List.append_nil] at hup
      have hinput : s.server.input ≠ [] := hup ▸ hstep.sent (Or.inl hpc)
      exact absurd hdown.symm (output_nonempty (server_reachable h.of_restrict) hphase hinput)
    · exact ⟨.recv [b], _, trivial, .recv hpc hto (one_fits b) fun hnil => by cases hnil⟩
  · -- the client is done: the server reads what is left, and then finds the end of the stream
    have hconn : s.connected = true := hstep.connected.mpr (Or.inr (Or.inr hpc))
    by_cases hclosed : s.server.phase = .closed
    · left
      refine ⟨hpc, hclosed, hstep.replied hpc, ?_, ?_⟩
      · have howns := owns_of_reachable h.of_restrict
        unfold Owns at howns
        rw [hpc] at howns
        rcases howns with hnil | ⟨fd, -, hacts⟩
        · exact absurd hnil (hstep.owned hpc)
        · exact ⟨fd, hacts⟩
      · rw [closes_of_reachable (server_reachable h.of_restrict), if_pos hclosed]
    · exact Or.inr (server_moves h hconn hclosed fun _ _ => hpc)

/-- **The session comes to its end.** Where no call fails, whatever part of its argument each `send` accepts
and each `recv` delivers, both sides end with their sockets closed once, and the client has a reply that is
not empty. -/
theorem echoSession_finishes {s : Session} (h : faultless.Reachable s) :
    faultless.Inevitable Finished s := by
  refine System.Inevitable.of_rank (n := remaining s)
    (fun n s => faultless.Reachable s ∧ remaining s = n) ?_ ⟨h, rfl⟩
  rintro n s ⟨hs, rfl⟩
  rcases finished_or_moves hs with hfinished | hmoves
  · exact Or.inl hfinished
  · refine Or.inr ⟨hmoves, fun l t hstep => ?_⟩
    exact ⟨remaining t, remaining_lt hstep.1 hstep.2, hs.step hstep, rfl⟩

/-- A session before its first call. -/
def before : Session := ⟨.start fun _ => 0, false, [], .start fun _ => 0, []⟩

theorem before_finishes : faultless.Inevitable Finished before :=
  echoSession_finishes (.init ⟨_, _, rfl⟩)

end ZephyrSamples.Net.EchoSession
