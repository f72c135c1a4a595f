/-
# ZephyrSamples.Net.Udp -- a sender of datagrams, a receiver, and a network that loses them

`udp_send_packets` numbers its packets with a counter that outlives the call, formats each into a buffer of 256
bytes and sends what `strlen` finds there. `udp_receive` takes a datagram of up to 255 bytes, terminates it and
prints it. The network between them may lose a datagram, deliver it more than once, and out of order.

The formatted packet fits both buffers whatever its number, so what the receiver prints is the text of a packet
that was sent, uncut, and the number in it is that packet's (`udp_delivers`). A number is used once, also when
its `send` failed; the next call goes on with the next one (`Numbered`).
-/
import ZephyrSamples.Lib.Text
import ZephyrSamples.Lib.Transition
import ZephyrSamples.Net.TlsSocket

namespace ZephyrSamples.Net.Udp

open ZephyrSamples.Lib
open ZephyrSamples.Lib.CString
open ZephyrSamples.Lib.Text
open ZephyrSamples.Net.TlsSocket (FdAct)

/-! ## Packets -/

/-- `SEND_DATA` -/
def sendData : List UInt8 := ascii "Hello from Zephyr UDP!"

/-- `"%s [packet #%u]"` -/
def packet (n : UInt32) : List UInt8 := sendData ++ ascii " [packet #" ++ decimal n.toNat ++ ascii "]"

/-- `sizeof(buffer)`, and of `recv_buf` as well. -/
def bufferSize : Nat := 256

theorem zero_not_mem_packet (n : UInt32) : 0 ∉ packet n := by
  have hdata : (0 : UInt8) ∉ sendData := by decide
  have hmark : (0 : UInt8) ∉ ascii " [packet #" := by decide
  have hend : (0 : UInt8) ∉ ascii "]" := by decide
  unfold packet
  simp only [List.mem_append, not_or]
  exact ⟨⟨⟨hdata, hmark⟩, zero_not_mem_decimal _⟩, hend⟩

theorem length_packet_le (n : UInt32) : (packet n).length ≤ 43 := by
  have hdata : sendData.length = 22 := by decide
  have hmark : (ascii " [packet #").length = 10 := by decide
  have hend : (ascii "]").length = 1 := by decide
  have hnumber : (decimal n.toNat).length ≤ 10 := by
    refine length_decimal_le (by decide) ?_
    have hlt := n.toNat_lt_size
    have hsize : UInt32.size = 4294967296 := rfl
    omega
  unfold packet
  rw [List.length_append, List.length_append, List.length_append, hdata, hmark, hend]
  omega

theorem packet_ne_nil (n : UInt32) : packet n ≠ [] := by
  intro h
  have hlen := congrArg List.length h
  have hend : (ascii "]").length = 1 := by decide
  unfold packet at hlen
  rw [List.length_append, hend, List.length_nil] at hlen
  omega

/-- **A packet tells its number.** -/
theorem packet_injective {m n : UInt32} (h : packet m = packet n) : m = n := by
  unfold packet at h
  have hnumber := List.append_cancel_left (List.append_cancel_right h)
  exact UInt32.toNat_inj.mp (decimal_injective hnumber)

/-! ## `udp_send_packets` -/

inductive SenderPc where
  | socket
  | inetPton
  | connect
  /-- in the loop, with `i` packets behind it -/
  | send (i : Nat)
  /-- outside the function -/
  | outside
  deriving DecidableEq, Repr

/-- `udp_socket`, `packet_count` and the locals, and a history: the descriptors opened and closed, the numbers
of the packets sent, and how many were tried. -/
structure Sender where
  pc : SenderPc
  udpSocket : Int
  packetCount : UInt32
  buffer : List UInt8
  acts : List FdAct
  sent : List UInt32
  tried : Nat
  printed : List String

namespace Sender

def start (garbage : List UInt8) : Sender := ⟨.outside, -1, 0, garbage, [], [], 0, []⟩

def printk (s : Sender) (lines : List String) : Sender := { s with printed := s.printed ++ lines }

/-- `close(udp_socket)` and the end of the call. -/
def close (s : Sender) : Sender := { s with pc := .outside, acts := s.acts ++ [.closed s.udpSocket] }

/-- The same with `udp_socket = -1` in between. -/
def closeAndForget (s : Sender) : Sender := { s.close with udpSocket := -1 }

/-- The call, with a `buffer` that holds anything. -/
def call (s : Sender) (garbage : List UInt8) : Sender :=
  { s.printk ["Creating UDP socket...\n"] with pc := .socket, buffer := garbage }

def socket (s : Sender) (fd errno : Int) (strerror : String) : Sender :=
  let s := { s with udpSocket := fd }
  if fd < 0 then
    { s.printk ["Failed to create socket: errno " ++ toString errno ++ ", " ++ strerror ++ "\n"] with
      pc := .outside }
  else
    { s.printk ["Socket created successfully\n"] with pc := .inetPton, acts := s.acts ++ [.opened fd] }

/-- `SERVER_ADDR` and `SERVER_PORT` -/
def serverAddr : String := "192.168.1.1"

def serverPort : Nat := 4242

def inetPton (s : Sender) (ret : Int) : Sender :=
  if ret ≤ 0 then
    (s.printk ["Invalid server address: " ++ serverAddr ++ " (inet_pton returned " ++ toString ret ++
      ")\n"]).close
  else
    { s.printk ["Server address: " ++ serverAddr ++ ":" ++ toString serverPort ++ "\n",
        "Connecting UDP socket...\n"] with pc := .connect }

def connect (s : Sender) (ret errno : Int) (strerror : String) : Sender :=
  if ret < 0 then
    (s.printk ["Connect failed: errno " ++ toString errno ++ ", " ++ strerror ++ "\n"]).closeAndForget
  else
    { s.printk ["UDP socket connected!\n", "Starting UDP send loop (every 2000ms)...\n"] with pc := .send 0 }

/-- `snprintf` and `packet_count++` -/
def format (s : Sender) : Sender :=
  { s with
    buffer := overwrite ((snprintf bufferSize (packet s.packetCount)).1 ++ [0]) s.buffer
    packetCount := s.packetCount + 1
    tried := s.tried + 1 }

/-- What `send` is offered. -/
def datagram (s : Sender) : List UInt8 := s.buffer.take (strlen s.buffer)

/-- One turn of the loop, with `i` packets behind it. -/
def send (s : Sender) (i : Nat) (ret errno : Int) : Sender :=
  let s := s.format
  if ret < 0 then
    ((s.printk ["Send failed: errno " ++ toString errno ++ "\n"]).closeAndForget).printk
      ["UDP socket closed\n"]
  else
    let number := s.packetCount - 1
    let s := { s.printk ["UDP packet #" ++ toString number.toNat ++ " sent (" ++ toString ret ++
      " bytes)\n"] with sent := s.sent ++ [number] }
    if i + 1 < 10 then { s with pc := .send (i + 1) }
    else s.closeAndForget.printk ["UDP socket closed\n"]

end Sender

/-! ## `udp_receive` -/

inductive ReceiverPc where
  | socket
  | bind
  | recvfrom
  | outside
  deriving DecidableEq, Repr

/-- `sock` and `recv_buf`, and a history: the descriptors opened and closed, the indices of `recv_buf` written,
and the texts printed as data. -/
structure Receiver where
  pc : ReceiverPc
  sock : Int
  recvBuf : Memory
  acts : List FdAct
  written : List Nat
  data : List (List UInt8)
  printed : List String

namespace Receiver

def start (recvBuf : Memory) : Receiver := ⟨.socket, -1, recvBuf, [], [], [], ["Creating UDP socket...\n"]⟩

def printk (r : Receiver) (lines : List String) : Receiver := { r with printed := r.printed ++ lines }

/-- `close(sock)`, which leaves the variable as it is. -/
def close (r : Receiver) : Receiver := { r with pc := .outside, acts := r.acts ++ [.closed r.sock] }

def socket (r : Receiver) (fd errno : Int) (strerror : String) : Receiver :=
  let r := { r with sock := fd }
  if fd < 0 then
    { r.printk ["Failed to create socket: errno " ++ toString errno ++ ", " ++ strerror ++ "\n"] with
      pc := .outside }
  else
    { r.printk ["Socket created successfully\n"] with pc := .bind, acts := r.acts ++ [.opened fd] }

def bind (r : Receiver) (ret errno : Int) (strerror : String) : Receiver :=
  if ret < 0 then
    (r.printk ["Failed to bind socket: errno " ++ toString errno ++ ", " ++ strerror ++ "\n"]).close
  else
    { r.printk ["Socket bound to 0.0.0.0:4242\n", "Listening for UDP packets...\n"] with pc := .recvfrom }

def recvfromFails (r : Receiver) (errno : Int) : Receiver :=
  (r.printk ["Socket error: " ++ toString errno ++ "\n"]).close

/-- The C string that starts a memory, if it ends within `n` bytes. -/
def cString (m : Memory) (n : Nat) : List UInt8 := (m.slice 0 n).takeWhile (· != 0)

/-- `recvfrom` stores what fits of a datagram from `ip` and `port`. -/
def recvfrom (r : Receiver) (datagram : List UInt8) (ip : String) (port : Nat) : Receiver :=
  let stored := datagram.take (bufferSize - 1)
  let r := { r with
    recvBuf := r.recvBuf.blit 0 stored
    written := r.written ++ List.range stored.length }
  if stored = [] then r.printk ["Empty datagram\n"]
  else
    let r := { r with
      recvBuf := r.recvBuf.set stored.length 0
      written := r.written ++ [stored.length] }
    let data := cString r.recvBuf bufferSize
    { r.printk ["Received " ++ toString stored.length ++ " bytes from " ++ ip ++ ":" ++ toString port ++ "\n",
        "  Data: " ++ text data ++ "\n"] with data := r.data ++ [data] }

end Receiver

/-! ## The network -/

/-- The two programs; the network holds the datagrams it has not forgotten. -/
structure State where
  sender : Sender
  receiver : Receiver
  network : List (List UInt8)

inductive Event where
  | call
  | socket (fd errno : Int)
  | inetPton (ret : Int)
  | connect (ret errno : Int)
  | send (ret errno : Int)
  | receiverSocket (fd errno : Int)
  | bind (ret errno : Int)
  | recvfromFails (errno : Int)
  | recvfrom (datagram : List UInt8)
  | forget
  deriving DecidableEq, Repr

/-- What may happen next. A datagram that is delivered stays in the network, for it may come again. -/
inductive Step : Event → State → State → Prop
  | call {s : State} {garbage : List UInt8} : s.sender.pc = .outside →
      Step .call s { s with sender := s.sender.call garbage }
  | socket {s : State} {fd errno : Int} {strerror : String} : s.sender.pc = .socket →
      Step (.socket fd errno) s { s with sender := s.sender.socket fd errno strerror }
  | inetPton {s : State} {ret : Int} : s.sender.pc = .inetPton →
      Step (.inetPton ret) s { s with sender := s.sender.inetPton ret }
  | connect {s : State} {ret errno : Int} {strerror : String} : s.sender.pc = .connect →
      Step (.connect ret errno) s { s with sender := s.sender.connect ret errno strerror }
  | sendFails {s : State} {i : Nat} {ret errno : Int} : s.sender.pc = .send i → ret < 0 →
      Step (.send ret errno) s { s with sender := s.sender.send i ret errno }
  | send {s : State} {i : Nat} {ret errno : Int} : s.sender.pc = .send i →
      ret = s.sender.format.datagram.length →
      Step (.send ret errno) s
        { s with
          sender := s.sender.send i ret errno
          network := s.network ++ [s.sender.format.datagram] }
  | receiverSocket {s : State} {fd errno : Int} {strerror : String} : s.receiver.pc = .socket →
      Step (.receiverSocket fd errno) s { s with receiver := s.receiver.socket fd errno strerror }
  | bind {s : State} {ret errno : Int} {strerror : String} : s.receiver.pc = .bind →
      Step (.bind ret errno) s { s with receiver := s.receiver.bind ret errno strerror }
  | recvfromFails {s : State} {errno : Int} : s.receiver.pc = .recvfrom →
      Step (.recvfromFails errno) s { s with receiver := s.receiver.recvfromFails errno }
  | recvfrom {s : State} {datagram : List UInt8} {ip : String} {port : Nat} : s.receiver.pc = .recvfrom →
      datagram ∈ s.network →
      Step (.recvfrom datagram) s { s with receiver := s.receiver.recvfrom datagram ip port }
  | forget {s : State} {kept : List (List UInt8)} : kept.Sublist s.network →
      Step .forget s { s with network := kept }

def udp : System State Event where
  init s := ∃ garbage recvBuf, s = ⟨.start garbage, .start recvBuf, []⟩
  step := Step

/-! ## One packet -/

/-- The buffer takes the packet whole, and `strlen` finds its end. -/
theorem datagram_format (s : Sender) : s.format.datagram = packet s.packetCount := by
  have hfits : (packet s.packetCount).length < bufferSize :=
    Nat.lt_of_le_of_lt (length_packet_le _) (by simp [bufferSize])
  unfold Sender.datagram Sender.format
  rw [snprintf_of_lt hfits]
  exact take_strlen_overwrite (zero_not_mem_packet _) _

/-- A string in memory is found by its end. -/
theorem cString_eq {m : Memory} {str : List UInt8} {n : Nat} (h : IsString m str) (hnul : 0 ∉ str)
    (hn : str.length < n) : Receiver.cString m n = str := by
  rw [isString_iff] at h
  obtain ⟨hbytes, hend⟩ := h
  have hslice : m.slice 0 str.length = str := by
    refine List.ext_getElem (length_slice _ _ _) fun i hi hi' => ?_
    simpa [Memory.slice] using hbytes i hi'
  obtain ⟨k, rfl⟩ := Nat.exists_eq_add_of_lt hn
  unfold Receiver.cString
  rw [Nat.add_assoc, slice_add, slice_succ, hslice, Nat.zero_add, hend]
  rw [List.takeWhile_append_of_pos fun b hb => ?_]
  · simp
  · simp only [bne_iff_ne, ne_eq]
    rintro rfl
    exact hnul hb

/-- A packet is received and printed whole. -/
theorem recvfrom_packet (r : Receiver) (n : UInt32) (ip : String) (port : Nat) :
    (r.recvfrom (packet n) ip port).data = r.data ++ [packet n] := by
  have hlen := length_packet_le n
  have hstored : (packet n).take (bufferSize - 1) = packet n :=
    List.take_of_length_le (Nat.le_trans hlen (by simp [bufferSize]))
  unfold Receiver.recvfrom
  dsimp only
  rw [hstored, if_neg (packet_ne_nil n)]
  show r.data ++ [Receiver.cString _ _] = _
  have hfits : (packet n).length < bufferSize := Nat.lt_of_le_of_lt hlen (by simp [bufferSize])
  rw [cString_eq (isString_blit_set r.recvBuf (packet n)) (zero_not_mem_packet n) hfits]

/-- Whatever comes, the terminator has its place. -/
theorem written_recvfrom (r : Receiver) (datagram : List UInt8) (ip : String) (port : Nat)
    (h : ∀ i ∈ r.written, i < bufferSize) :
    ∀ i ∈ (r.recvfrom datagram ip port).written, i < bufferSize := by
  have hstored : (datagram.take (bufferSize - 1)).length < bufferSize := by
    rw [List.length_take]
    unfold bufferSize
    omega
  have hrange : ∀ i ∈ List.range (datagram.take (bufferSize - 1)).length, i < bufferSize := fun i hi =>
    Nat.lt_trans (List.mem_range.mp hi) hstored
  unfold Receiver.recvfrom
  dsimp only
  split_ifs
  · exact List.forall_mem_append.mpr ⟨h, hrange⟩
  · exact List.forall_mem_append.mpr
      ⟨List.forall_mem_append.mpr ⟨h, hrange⟩, List.forall_mem_singleton.mpr hstored⟩

/-! ## Delivery -/

/-- The numbers of some tries. -/
def numbersOf (tries : Nat) : List UInt32 := (List.range tries).map UInt32.ofNat

theorem numbersOf_succ (tries : Nat) : numbersOf (tries + 1) = numbersOf tries ++ [UInt32.ofNat tries] := by
  unfold numbersOf
  rw [List.range_succ, List.map_append, List.map_singleton]

/-- The counter counts the tries, and a number is that of one try. -/
structure Numbered (s : Sender) : Prop where
  counter : s.packetCount = UInt32.ofNat s.tried
  sent : s.sent.Sublist (numbersOf s.tried)

theorem Numbered.send {s : Sender} (h : Numbered s) (i : Nat) (ret errno : Int) :
    Numbered (s.send i ret errno) := by
  obtain ⟨hcounter, hsent⟩ := h
  have hnext : s.packetCount + 1 = UInt32.ofNat (s.tried + 1) := by
    rw [hcounter, UInt32.ofNat_add]
    rfl
  have hskipped : s.sent.Sublist (numbersOf (s.tried + 1)) := by
    rw [numbersOf_succ]
    exact hsent.trans (List.sublist_append_left _ _)
  have hused : (s.sent ++ [s.packetCount + 1 - 1]).Sublist (numbersOf (s.tried + 1)) := by
    rw [numbersOf_succ, UInt32.add_sub_cancel, hcounter]
    exact hsent.append (List.Sublist.refl _)
  unfold Sender.send
  dsimp only
  split_ifs
  · exact ⟨hnext, hskipped⟩
  · exact ⟨hnext, hused⟩
  · exact ⟨hnext, hused⟩

/-- The numbers sent by one turn of the loop. -/
theorem sent_send (s : Sender) (i : Nat) (ret errno : Int) :
    (s.send i ret errno).sent = s.sent ++ if ret < 0 then [] else [s.packetCount] := by
  unfold Sender.send
  dsimp only
  split_ifs
  · exact (List.append_nil _).symm
  · show s.sent ++ [s.packetCount + 1 - 1] = _
    rw [UInt32.add_sub_cancel]
  · show s.sent ++ [s.packetCount + 1 - 1] = _
    rw [UInt32.add_sub_cancel]

/-- What is in the network and what has been printed was sent. -/
structure Delivered (s : State) : Prop where
  numbered : Numbered s.sender
  network : ∀ d ∈ s.network, ∃ n ∈ s.sender.sent, d = packet n
  data : ∃ numbers : List UInt32, s.receiver.data = numbers.map packet ∧ ∀ n ∈ numbers, n ∈ s.sender.sent
  written : ∀ i ∈ s.receiver.written, i < bufferSize

/-- A step of the sender that sends nothing. -/
theorem Delivered.of_sender {s : State} (h : Delivered s) {t : Sender}
    (hcount : t.packetCount = s.sender.packetCount ∧ t.tried = s.sender.tried) (hsent : t.sent = s.sender.sent) :
    Delivered { s with sender := t } := by
  refine ⟨⟨?_, ?_⟩, ?_, ?_, h.written⟩
  · show t.packetCount = UInt32.ofNat t.tried
    rw [hcount.1, hcount.2, h.numbered.counter]
  · show t.sent.Sublist (numbersOf t.tried)
    rw [hsent, hcount.2]
    exact h.numbered.sent
  · show ∀ d ∈ s.network, ∃ n ∈ t.sent, d = packet n
    rw [hsent]
    exact h.network
  · show ∃ numbers : List UInt32, s.receiver.data = numbers.map packet ∧ ∀ n ∈ numbers, n ∈ t.sent
    rw [hsent]
    exact h.data

/-- One of the receiver that receives nothing. -/
theorem Delivered.of_receiver {s : State} (h : Delivered s) {t : Receiver} (hdata : t.data = s.receiver.data)
    (hwritten : t.written = s.receiver.written) : Delivered { s with receiver := t } := by
  refine ⟨h.numbered, h.network, ?_, ?_⟩
  · show ∃ numbers : List UInt32, t.data = numbers.map packet ∧ ∀ n ∈ numbers, n ∈ s.sender.sent
    rw [hdata]
    exact h.data
  · show ∀ i ∈ t.written, i < bufferSize
    rw [hwritten]
    exact h.written

/-- A turn of the sender's loop. -/
theorem Delivered.send {s : State} (h : Delivered s) (i : Nat) (ret errno : Int) {network : List (List UInt8)}
    (hnetwork : ∀ d ∈ network, d ∈ s.network ∨ (¬ ret < 0 ∧ d = packet s.sender.packetCount)) :
    Delivered { s with sender := s.sender.send i ret errno, network := network } := by
  have hsent := sent_send s.sender i ret errno
  have hkept : ∀ n ∈ s.sender.sent, n ∈ (s.sender.send i ret errno).sent := fun n hn => by
    rw [hsent]
    exact List.mem_append_left _ hn
  refine ⟨h.numbered.send i ret errno, ?_, ?_, h.written⟩
  · intro d hd
    rcases hnetwork d hd with hold | ⟨hok, rfl⟩
    · obtain ⟨n, hn, rfl⟩ := h.network d hold
      exact ⟨n, hkept n hn, rfl⟩
    · refine ⟨s.sender.packetCount, ?_, rfl⟩
      show s.sender.packetCount ∈ (s.sender.send i ret errno).sent
      rw [hsent, if_neg hok]
      exact List.mem_append_right _ (List.mem_singleton_self _)
  · obtain ⟨numbers, hdata, hnumbers⟩ := h.data
    exact ⟨numbers, hdata, fun n hn => hkept n (hnumbers n hn)⟩

theorem Delivered.step {s t : State} {e : Event} (h : Delivered s) (hstep : Step e s t) : Delivered t := by
  cases hstep with
  | call => exact h.of_sender ⟨rfl, rfl⟩ rfl
  | socket =>
      refine h.of_sender ?_ ?_ <;> unfold Sender.socket <;> dsimp only <;> split_ifs
      all_goals first
        | exact ⟨rfl, rfl⟩
        | rfl
  | inetPton =>
      refine h.of_sender ?_ ?_ <;> unfold Sender.inetPton <;> split_ifs
      all_goals first
        | exact ⟨rfl, rfl⟩
        | rfl
  | connect =>
      refine h.of_sender ?_ ?_ <;> unfold Sender.connect <;> split_ifs
      all_goals first
        | exact ⟨rfl, rfl⟩
        | rfl
  | sendFails => exact h.send _ _ _ fun d hd => Or.inl hd
  | @send _ i ret errno hpc hret =>
      refine h.send _ _ _ fun d hd => ?_
      rcases List.mem_append.mp hd with hold | hnew
      · exact Or.inl hold
      · right
        rw [List.mem_singleton, datagram_format] at hnew
        exact ⟨by omega, hnew⟩
  | receiverSocket =>
      refine h.of_receiver ?_ ?_ <;> unfold Receiver.socket <;> dsimp only <;> split_ifs <;> rfl
  | bind => refine h.of_receiver ?_ ?_ <;> unfold Receiver.bind <;> split_ifs <;> rfl
  | recvfromFails => exact h.of_receiver rfl rfl
  | @recvfrom _ datagram ip port hpc hmem =>
      obtain ⟨n, hn, rfl⟩ := h.network datagram hmem
      obtain ⟨numbers, hdata, hnumbers⟩ := h.data
      refine ⟨h.numbered, h.network, ⟨numbers ++ [n], ?_, ?_⟩, written_recvfrom _ _ _ _ h.written⟩
      · show (s.receiver.recvfrom (packet n) ip port).data = _
        rw [recvfrom_packet, hdata, List.map_append, List.map_singleton]
      · exact List.forall_mem_append.mpr ⟨hnumbers, List.forall_mem_singleton.mpr hn⟩
  | forget hkept => exact ⟨h.numbered, fun d hd => h.network d (hkept.subset hd), h.data, h.written⟩

theorem delivered_of_reachable {s : State} (h : udp.Reachable s) : Delivered s := by
  refine h.invariant ?_ fun s t e _ hinv hstep => hinv.step hstep
  rintro s ⟨garbage, recvBuf, rfl⟩
  refine ⟨⟨rfl, List.Sublist.refl _⟩, ?_, ⟨[], rfl, ?_⟩, ?_⟩
  · exact fun d hd => absurd hd List.not_mem_nil
  · exact fun n hn => absurd hn List.not_mem_nil
  · exact fun i hi => absurd hi List.not_mem_nil

/-- **Delivery.** However the network loses, repeats and reorders: the texts the receiver prints are those of
packets that were sent, and they say of which; the numbers sent are those of the tries, in order, with those
left out that failed; and the receiver writes inside its buffer. -/
theorem udp_delivers {s : State} (h : udp.Reachable s) :
    (∃! numbers : List UInt32, s.receiver.data = numbers.map packet) ∧
      (∀ n, packet n ∈ s.receiver.data → n ∈ s.sender.sent) ∧
      s.sender.sent.Sublist (numbersOf s.sender.tried) ∧ ∀ i ∈ s.receiver.written, i < bufferSize := by
  obtain ⟨hnumbered, -, ⟨numbers, hdata, hnumbers⟩, hwritten⟩ := delivered_of_reachable h
  refine ⟨⟨numbers, hdata, fun other hother => ?_⟩, fun n hn => ?_, hnumbered.sent, hwritten⟩
  · rw [hdata] at hother
    exact (List.map_injective_iff.mpr (fun _ _ heq => packet_injective heq) hother).symm
  · rw [hdata] at hn
    obtain ⟨m, hm, heq⟩ := List.mem_map.mp hn
    rw [← packet_injective heq]
    exact hnumbers m hm

/-- The first packet is sent and received. -/
theorem firstPacket_reachable : ∃ s : State, udp.Reachable s ∧ s.sender.sent = [0] ∧ s.receiver.data = [packet 0] := by
  have next : ∀ (e : Event) {s t : State}, udp.Reachable s → Step e s t → udp.Reachable t :=
    fun _ _ _ hs hstep => hs.step hstep
  have hstart : udp.Reachable ⟨.start [], .start fun _ => 0, []⟩ := .init ⟨_, _, rfl⟩
  have hcall := next .call hstart (@Step.call _ [] rfl)
  have hsocket := next (.socket 3 0) hcall (@Step.socket _ _ _ "" rfl)
  have hpton := next (.inetPton 1) hsocket (.inetPton rfl)
  have hconnect := next (.connect 0 0) hpton (@Step.connect _ _ _ "" rfl)
  have hsend := next (.send 34 0) hconnect (.send rfl rfl)
  have hopened := next (.receiverSocket 4 0) hsend (@Step.receiverSocket _ _ _ "" rfl)
  have hbound := next (.bind 0 0) hopened (@Step.bind _ _ _ "" rfl)
  have hreceived := next (.recvfrom (packet 0)) hbound
    (@Step.recvfrom _ _ "192.168.1.100" 51810 rfl (List.mem_singleton.mpr rfl))
  exact ⟨_, hreceived, rfl, recvfrom_packet _ 0 _ _⟩

theorem udp_delivers_first : ∃ s : State, s.receiver.data = [packet 0] ∧
    ∀ n, packet n ∈ s.receiver.data → n ∈ s.sender.sent := by
  obtain ⟨s, hs, -, hdata⟩ := firstPacket_reachable
  exact ⟨s, hdata, (udp_delivers hs).2.1⟩

/-! ## Descriptors -/

/-- Descriptors opened and closed one after the other. -/
inductive Paired : List FdAct → Prop
  | nil : Paired []
  | pair {acts : List FdAct} (fd : Int) : Paired acts → 0 ≤ fd → Paired (acts ++ [.opened fd] ++ [.closed fd])

/-- Paired but for the last, which is open. -/
def Owning (fd : Int) (acts : List FdAct) : Prop := ∃ before, Paired before ∧ 0 ≤ fd ∧ acts = before ++ [.opened fd]

theorem Owning.close {fd : Int} {acts : List FdAct} (h : Owning fd acts) : Paired (acts ++ [.closed fd]) := by
  obtain ⟨before, hbefore, hfd, rfl⟩ := h
  exact hbefore.pair fd hfd

/-- The sender's descriptor in the course of its calls. -/
def Sender.Owns (s : Sender) : Prop :=
  match s.pc with
  | .outside | .socket => Paired s.acts
  | .inetPton | .connect | .send _ => Owning s.udpSocket s.acts

/-- The receiver's in the course of its call. -/
def Receiver.Owns (r : Receiver) : Prop :=
  match r.pc with
  | .outside | .socket => Paired r.acts
  | .bind | .recvfrom => Owning r.sock r.acts

theorem Sender.Owns.send {s : Sender} (h : Owning s.udpSocket s.acts) (i : Nat) (ret errno : Int) :
    (s.send i ret errno).Owns := by
  unfold Sender.send
  dsimp only
  split_ifs
  · exact h.close
  · exact h
  · exact h.close

/-- **Every descriptor is closed once.** In any number of calls, whatever fails, what the sender opens it closes
before it returns, and nothing else; and so does the receiver. -/
theorem udp_descriptors {s : State} (h : udp.Reachable s) : s.sender.Owns ∧ s.receiver.Owns := by
  refine h.invariant (I := fun s => s.sender.Owns ∧ s.receiver.Owns) ?_ ?_
  · rintro s ⟨garbage, recvBuf, rfl⟩
    exact ⟨Paired.nil, Paired.nil⟩
  · rintro s t e - ⟨hsender, hreceiver⟩ hstep
    cases hstep with
    | call hpc =>
        unfold Sender.Owns at hsender
        rw [hpc] at hsender
        exact ⟨hsender, hreceiver⟩
    | @socket _ fd errno strerror hpc =>
        unfold Sender.Owns at hsender
        rw [hpc] at hsender
        refine ⟨?_, hreceiver⟩
        show (s.sender.socket fd errno strerror).Owns
        unfold Sender.socket
        dsimp only
        split_ifs with hfd
        · exact hsender
        · exact ⟨s.sender.acts, hsender, Int.not_lt.mp hfd, rfl⟩
    | @inetPton _ ret hpc =>
        unfold Sender.Owns at hsender
        rw [hpc] at hsender
        refine ⟨?_, hreceiver⟩
        show (s.sender.inetPton ret).Owns
        unfold Sender.inetPton
        split_ifs
        · exact hsender.close
        · exact hsender
    | @connect _ ret errno strerror hpc =>
        unfold Sender.Owns at hsender
        rw [hpc] at hsender
        refine ⟨?_, hreceiver⟩
        show (s.sender.connect ret errno strerror).Owns
        unfold Sender.connect
        split_ifs
        · exact hsender.close
        · exact hsender
    | @sendFails _ i ret errno hpc hret =>
        unfold Sender.Owns at hsender
        rw [hpc] at hsender
        exact ⟨Sender.Owns.send hsender i ret errno, hreceiver⟩
    | @send _ i ret errno hpc hret =>
        unfold Sender.Owns at hsender
        rw [hpc] at hsender
        exact ⟨Sender.Owns.send hsender i ret errno, hreceiver⟩
    | @receiverSocket _ fd errno strerror hpc =>
        unfold Receiver.Owns at hreceiver
        rw [hpc] at hreceiver
        refine ⟨hsender, ?_⟩
        show (s.receiver.socket fd errno strerror).Owns
        unfold Receiver.socket
        dsimp only
        split_ifs with hfd
        · exact hreceiver
        · exact ⟨s.receiver.acts, hreceiver, Int.not_lt.mp hfd, rfl⟩
    | @bind _ ret errno strerror hpc =>
        unfold Receiver.Owns at hreceiver
        rw [hpc] at hreceiver
        refine ⟨hsender, ?_⟩
        show (s.receiver.bind ret errno strerror).Owns
        unfold Receiver.bind
        split_ifs
        · exact hreceiver.close
        · exact hreceiver
    | recvfromFails hpc =>
        unfold Receiver.Owns at hreceiver
        rw [hpc] at hreceiver
        exact ⟨hsender, hreceiver.close⟩
    | @recvfrom _ datagram ip port hpc hmem =>
        refine ⟨hsender, ?_⟩
        show (s.receiver.recvfrom datagram ip port).Owns
        unfold Receiver.recvfrom
        dsimp only
        split_ifs <;> exact hreceiver
    | forget => exact ⟨hsender, hreceiver⟩

theorem udp_descriptors_first : ∃ s : State, s.sender.sent = [0] ∧ s.sender.Owns ∧ s.receiver.Owns := by
  obtain ⟨s, hs, hsent, -⟩ := firstPacket_reachable
  exact ⟨s, hsent, udp_descriptors hs⟩

end ZephyrSamples.Net.Udp
