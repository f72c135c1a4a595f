/-
# ZephyrSamples.Net.TlsSocket -- a descriptor in the hands of two functions

`setup_tls_socket` opens a socket into `*sock` and sets its options, `connect_tls_socket` connects it. Each
closes the socket when a call of its own fails, but only the second sets `*sock` to -1: after an option that
was refused, `*sock` is the number of a socket already closed, which the next `socket` may hand out again.

`cleanCalls_iff` says which calls leave the variable in order; no call leaks a descriptor (`table_kept`).
-/
import Mathlib.Logic.Function.Basic
import Mathlib.Tactic.SplitIfs
import ZephyrSamples.Lib.Runs

namespace ZephyrSamples.Net.TlsSocket

open ZephyrSamples.Lib

/-! ## Sockets -/

/-- `AF_INET` -/
def afInet : UInt16 := 1

/-- `htons`, on a little-endian machine. -/
def htons (x : UInt16) : UInt16 := (x <<< 8) ||| (x >>> 8)

/-- `struct sockaddr_in` -/
structure SockaddrIn where
  sinFamily : UInt16
  sinPort : UInt16
  sinAddr : UInt32
  deriving DecidableEq, Repr

inductive FdAct where
  | opened (fd : Int)
  | closed (fd : Int)
  deriving DecidableEq, Repr

/-- Which descriptors are open and what they are connected to, and a history: those opened and closed. -/
structure Fds where
  isOpen : Int → Bool
  peer : Int → Option SockaddrIn
  acts : List FdAct

namespace Fds

/-- `socket` hands out `fd`. -/
def openFd (fds : Fds) (fd : Int) : Fds where
  isOpen := Function.update fds.isOpen fd true
  peer := Function.update fds.peer fd none
  acts := fds.acts ++ [.opened fd]

/-- `close(fd)` -/
def close (fds : Fds) (fd : Int) : Fds where
  isOpen := Function.update fds.isOpen fd false
  peer := Function.update fds.peer fd none
  acts := fds.acts ++ [.closed fd]

/-- `connect(fd, addr, ...)`, when it succeeds. -/
def connect (fds : Fds) (fd : Int) (addr : SockaddrIn) : Fds :=
  { fds with peer := Function.update fds.peer fd (some addr) }

/-- A descriptor that was free and is closed again. -/
theorem isOpen_close_openFd (fds : Fds) {fd : Int} (h : fds.isOpen fd = false) :
    ((fds.openFd fd).close fd).isOpen = fds.isOpen := by
  show Function.update (Function.update fds.isOpen fd true) fd false = fds.isOpen
  rw [Function.update_idem, ← h, Function.update_eq_self]

end Fds

/-- The descriptors, the variables `sock` and `server_addr` of `main`, and the texts printed. -/
structure World where
  fds : Fds
  sock : Int
  addr : SockaddrIn
  output : List String

/-- `int sock = -1`, while other descriptors may be open. -/
def World.start (isOpen : Int → Bool) (garbage : SockaddrIn) : World :=
  ⟨⟨isOpen, fun _ => none, []⟩, -1, garbage, []⟩

def World.printk (w : World) (text : String) : World := { w with output := w.output ++ [text] }

/-! ## The two functions -/

/-- What is returned by the calls that are made: by `inet_pton`, with the address it stores, by `socket`, by
`setsockopt` for the security tag and for the host name, and by `connect`; and `errno` where one fails. -/
structure Outcomes where
  inetPton : Int
  sinAddr : UInt32
  socket : Int
  secTag : Int
  hostname : Int
  connect : Int
  errno : Int
  deriving DecidableEq, Repr

def setupTlsSocket (server : String) (port : Int) (o : Outcomes) (w : World) : World × Int :=
  let w := { w with addr := ⟨afInet, htons (UInt16.ofInt port), 0⟩ }
  if o.inetPton ≤ 0 then
    (w.printk ("[ERR] Invalid IP address: " ++ server ++ "\n"), -1)
  else
    let w := { w with addr := { w.addr with sinAddr := o.sinAddr } }
    -- *sock = socket(AF_INET, SOCK_STREAM, IPPROTO_TLS_1_2)
    let w := { w with sock := o.socket }
    if w.sock < 0 then
      (w.printk ("[ERR] Failed to create TLS socket (" ++ toString o.errno ++ ")\n"), -1)
    else
      let w := { w with fds := w.fds.openFd w.sock }
      if o.secTag < 0 then
        let w := w.printk ("[ERR] Failed to set TLS security tag (" ++ toString o.errno ++ ")\n")
        ({ w with fds := w.fds.close w.sock }, -1)
      else if o.hostname < 0 then
        let w := w.printk ("[ERR] Failed to set TLS hostname (" ++ toString o.errno ++ ")\n")
        ({ w with fds := w.fds.close w.sock }, -1)
      else
        (w, o.hostname)

def connectTlsSocket (server : String) (port : Int) (o : Outcomes) (w : World) : World × Int :=
  let (w, ret) := setupTlsSocket server port o w
  if ret < 0 ∨ w.sock < 0 then (w, -1)
  else if o.connect < 0 then
    let w := w.printk ("[ERR] Failed to connect (" ++ toString o.errno ++ ")\n")
    ({ w with fds := w.fds.close w.sock, sock := -1 }, -1)
  else
    ({ w with fds := w.fds.connect w.sock w.addr }, 0)

/-! ## Calls -/

/-- A call of `connect_tls_socket`. -/
structure Call where
  server : String
  port : Int
  outcomes : Outcomes
  deriving DecidableEq, Repr

namespace Call

def run (c : Call) (w : World) : World × Int := connectTlsSocket c.server c.port c.outcomes w

/-- The descriptors it opens and closes. -/
def acts (c : Call) (w : World) : List FdAct := (c.run w).1.fds.acts.drop w.fds.acts.length

/-- The call, and `close(sock)` by its caller if it succeeds. -/
def next (w : World) (c : Call) : World :=
  let (w, ret) := c.run w
  if ret < 0 then w else { w with fds := w.fds.close w.sock }

end Call

/-- What a call owes: 0 for a socket that is open and connected; -1 with every descriptor it opened closed
once, and none of them left in `*sock`. -/
structure Clean (w : World) (c : Call) : Prop where
  connected : (c.run w).2 = 0 → (c.run w).1.fds.isOpen (c.run w).1.sock = true ∧
    ((c.run w).1.fds.peer (c.run w).1.sock).isSome = true
  closed : (c.run w).2 = -1 → ∀ fd, .opened fd ∈ c.acts w → (c.acts w).count (.closed fd) = 1
  sock : (c.run w).2 = -1 → (c.run w).1.sock < 0 ∨ (c.run w).1.sock = w.sock
  fresh : (c.run w).2 = -1 → ∀ fd, .opened fd ∈ c.acts w → .closed fd ∈ c.acts w →
    (c.run w).1.sock ≠ fd

/-- A socket was opened and one of its options refused. -/
def Call.OptionRefused (c : Call) : Prop :=
  0 < c.outcomes.inetPton ∧ 0 ≤ c.outcomes.socket ∧ (c.outcomes.secTag < 0 ∨ c.outcomes.hostname < 0)

/-! ## What a call can do -/

/-- How far a call gets. -/
inductive Ending where
  | invalidAddress
  | noSocket
  | optionRefused
  | connectRefused
  | connected
  deriving DecidableEq, Repr

namespace Call

def ending (c : Call) : Ending :=
  if c.outcomes.inetPton ≤ 0 then .invalidAddress
  else if c.outcomes.socket < 0 then .noSocket
  else if c.outcomes.secTag < 0 ∨ c.outcomes.hostname < 0 then .optionRefused
  else if c.outcomes.connect < 0 then .connectRefused
  else .connected

theorem optionRefused_iff (c : Call) : c.OptionRefused ↔ c.ending = .optionRefused := by
  unfold OptionRefused ending
  split_ifs <;> simp <;> omega

/-- The descriptors afterwards. -/
def leaves (c : Call) (fds : Fds) : Fds :=
  match c.ending with
  | .invalidAddress | .noSocket => fds
  | .optionRefused | .connectRefused => (fds.openFd c.outcomes.socket).close c.outcomes.socket
  | .connected => (fds.openFd c.outcomes.socket).connect c.outcomes.socket
      ⟨afInet, htons (UInt16.ofInt c.port), c.outcomes.sinAddr⟩

/-- `*sock` afterwards. -/
def leavesSock (c : Call) (sock : Int) : Int :=
  match c.ending with
  | .invalidAddress => sock
  | .connectRefused => -1
  | .noSocket | .optionRefused | .connected => c.outcomes.socket

/-- **One call.** -/
theorem run_spec (c : Call) (w : World) :
    (c.run w).2 = (if c.ending = .connected then 0 else -1) ∧
      (c.run w).1.fds = c.leaves w.fds ∧ (c.run w).1.sock = c.leavesSock w.sock := by
  unfold run connectTlsSocket setupTlsSocket leaves leavesSock ending
  dsimp only
  by_cases haddr : c.outcomes.inetPton ≤ 0
  · simp [haddr, World.printk]
  by_cases hsock : c.outcomes.socket < 0
  · simp [haddr, hsock, World.printk]
  by_cases htag : c.outcomes.secTag < 0
  · simp [haddr, hsock, htag, World.printk]
  by_cases hname : c.outcomes.hostname < 0
  · simp [haddr, hsock, htag, hname, World.printk]
  by_cases hconn : c.outcomes.connect < 0
  · simp [haddr, hsock, htag, hname, hconn, World.printk]
  · simp [haddr, hsock, htag, hname, hconn]

theorem acts_eq (c : Call) (w : World) :
    c.acts w = match c.ending with
      | .invalidAddress | .noSocket => []
      | .optionRefused | .connectRefused => [.opened c.outcomes.socket, .closed c.outcomes.socket]
      | .connected => [.opened c.outcomes.socket] := by
  unfold acts
  rw [(c.run_spec w).2.1, leaves]
  cases c.ending with
  | invalidAddress | noSocket => exact List.drop_length
  | optionRefused | connectRefused => simp [Fds.openFd, Fds.close]
  | connected => simp [Fds.openFd, Fds.connect]

theorem socket_neg {c : Call} (h : c.ending = .noSocket) : c.outcomes.socket < 0 := by
  unfold ending at h
  split_ifs at h
  assumption

/-- A call that gets further has a descriptor. -/
theorem socket_nonneg {c : Call} (haddr : c.ending ≠ .invalidAddress) (hsock : c.ending ≠ .noSocket) :
    0 ≤ c.outcomes.socket := by
  unfold ending at haddr hsock
  by_contra hneg
  rw [Int.not_le] at hneg
  rw [if_pos hneg] at haddr hsock
  split_ifs at haddr hsock
  · exact haddr rfl
  · exact hsock rfl

end Call

/-! ## Clean calls -/

theorem Clean.not_optionRefused {w : World} {c : Call} (h : Clean w c) : ¬ c.OptionRefused := by
  intro hrefused
  rw [c.optionRefused_iff] at hrefused
  obtain ⟨hret, -, hsock⟩ := c.run_spec w
  rw [hrefused, if_neg (by simp)] at hret
  have hacts := c.acts_eq w
  rw [hrefused] at hacts
  have hne := h.fresh hret c.outcomes.socket (by simp [hacts]) (by simp [hacts])
  rw [Call.leavesSock, hrefused] at hsock
  exact hne hsock

/-- A call that opened nothing. -/
theorem Clean.of_acts_nil {w : World} {c : Call} (hret : (c.run w).2 = -1) (hacts : c.acts w = [])
    (hsock : (c.run w).1.sock < 0 ∨ (c.run w).1.sock = w.sock) : Clean w c where
  connected := by simp [hret]
  closed := by simp [hacts]
  sock := fun _ => hsock
  fresh := by simp [hacts]

theorem Clean.of_not_optionRefused (w : World) {c : Call} (h : ¬ c.OptionRefused) : Clean w c := by
  rw [c.optionRefused_iff] at h
  obtain ⟨hret, hfds, hsock⟩ := c.run_spec w
  have hacts := c.acts_eq w
  unfold Call.leaves at hfds
  unfold Call.leavesSock at hsock
  cases hending : c.ending with
  | invalidAddress =>
      simp only [hending] at hret hsock hacts
      exact .of_acts_nil hret hacts (Or.inr hsock)
  | noSocket =>
      simp only [hending] at hret hsock hacts
      exact .of_acts_nil hret hacts (Or.inl (hsock ▸ Call.socket_neg hending))
  | optionRefused => exact absurd hending h
  | connectRefused =>
      simp only [hending] at hret hsock hacts
      refine ⟨by simp [hret], ?_, fun _ => Or.inl (by simp [hsock]), ?_⟩
      · intro _ fd hfd
        have hsame : fd = c.outcomes.socket := by simpa [hacts] using hfd
        simp [hacts, hsame]
      · intro _ fd hfd _
        have hsame : fd = c.outcomes.socket := by simpa [hacts] using hfd
        have hpos := Call.socket_nonneg (c := c) (by simp [hending]) (by simp [hending])
        omega
  | connected =>
      simp only [hending, if_true] at hret hfds hsock
      refine ⟨fun _ => ?_, by simp [hret], by simp [hret], by simp [hret]⟩
      rw [hfds, hsock]
      simp [Fds.openFd, Fds.connect]

theorem clean_iff (w : World) (c : Call) : Clean w c ↔ ¬ c.OptionRefused :=
  ⟨Clean.not_optionRefused, Clean.of_not_optionRefused w⟩

/-- **The calls that share `sock`.** Whatever the calls return, and whichever descriptors are handed out
again: each call of a sequence is clean if and only if none is refused an option after its socket was
opened. -/
theorem cleanCalls_iff (isOpen : Int → Bool) (garbage : SockaddrIn) (calls : List Call) :
    Steps Call.next Clean (.start isOpen garbage) calls ↔ ∀ c ∈ calls, ¬ c.OptionRefused :=
  steps_iff_forall Call.next clean_iff _ calls

/-- Descriptor 3 is opened, the host name refused. -/
def hostnameRefused : Call := ⟨"192.168.1.1", 4443, ⟨1, 0xc0a80101, 3, 0, -1, 0, 22⟩⟩

theorem hostnameRefused_stale :
    ¬ Steps Call.next Clean (.start (fun _ => false) ⟨0, 0, 0⟩) [hostnameRefused] := by
  rintro ⟨hclean, -⟩
  exact hclean.fresh rfl 3 (by decide) (by decide) rfl

/-! ## Leaks -/

/-- A descriptor is handed out only while it is not open. -/
def HandsOutFree (w : World) (c : Call) : Prop :=
  0 ≤ c.outcomes.socket → w.fds.isOpen c.outcomes.socket = false

theorem next_isOpen {w : World} {c : Call} (hfree : HandsOutFree w c) :
    (Call.next w c).fds.isOpen = w.fds.isOpen := by
  obtain ⟨hret, hfds, hsock⟩ := c.run_spec w
  have hnext : (Call.next w c).fds =
      if (c.run w).2 < 0 then (c.run w).1.fds else (c.run w).1.fds.close (c.run w).1.sock := by
    unfold Call.next
    dsimp only
    split_ifs <;> rfl
  have hclosed := fun hpos => w.fds.isOpen_close_openFd (hfree hpos)
  rw [hnext, hret, hfds, hsock, Call.leaves, Call.leavesSock]
  cases hending : c.ending with
  | invalidAddress | noSocket => rfl
  | optionRefused | connectRefused | connected =>
      exact hclosed (Call.socket_nonneg (by simp [hending]) (by simp [hending]))

/-- **No leaks.** Between two calls the descriptors that are open are those that were open at the start,
whatever fails. -/
theorem table_kept (isOpen : Int → Bool) (garbage : SockaddrIn) {calls : List Call}
    (hfree : Steps Call.next HandsOutFree (.start isOpen garbage) calls) :
    Along Call.next (fun w => w.fds.isOpen = isOpen) (.start isOpen garbage) calls := by
  refine along_of_steps Call.next (I := fun w => w.fds.isOpen = isOpen) (fun _ h => h) ?_ rfl hfree
  intro w c hw hc
  exact (next_isOpen hc).trans hw

end ZephyrSamples.Net.TlsSocket
