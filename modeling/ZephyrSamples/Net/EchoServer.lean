/-
# ZephyrSamples.Net.EchoServer -- one client after the other

`start_tcp_server` opens, binds and listens, and then accepts clients for ever, each served by `handle_client`
before the next is accepted. The stack that `handle_client` finds may hold what a client before left on it.

In every run each session is one of `handle_client` by itself, so what a client is sent is made of its own
pieces, and every descriptor that is opened is closed again exactly once, the client's at the end of its session
and the server's only where the server could not be set up (`server_books`).
-/
import Mathlib.Data.List.Nodup
import ZephyrSamples.Net.TcpServer
import ZephyrSamples.Net.TlsSocket

namespace ZephyrSamples.Net.EchoServer

open ZephyrSamples.Lib
open ZephyrSamples.Net.TcpServer (Handler Outcome handleClient)
open ZephyrSamples.Net.TlsSocket (Fds FdAct)

/-- Where `start_tcp_server` stands: before each of its calls, in `handle_client`, or behind its end. -/
inductive ServerPc where
  | socket
  | setsockopt
  | bind
  | listen
  | accept
  | serve
  | returned
  deriving DecidableEq, Repr

/-- `server_socket`, `client_socket` and the locals of `handle_client`, the descriptors, and a history of the
sessions that have ended. -/
structure Server where
  pc : ServerPc
  serverSocket : Int
  clientSocket : Int
  handler : Handler
  fds : Fds
  sessions : List (Int × Handler)

/-- What a call returns. -/
inductive Label where
  | socket (fd : Int)
  | setsockopt (ret : Int)
  | bind (ret : Int)
  | listen (ret : Int)
  | accept (fd : Int)
  | session (o : Outcome)
  deriving DecidableEq, Repr

section

variable (before : Int → Bool)

/-- `server_socket` is -1, and other descriptors may be open. -/
def start (client : Int) (handler : Handler) : Server :=
  ⟨.socket, -1, client, handler, ⟨before, fun _ => none, []⟩, []⟩

/-- `close(server_socket)` and `return`. -/
def Server.giveUp (s : Server) : Server := { s with pc := .returned, fds := s.fds.close s.serverSocket }

/-- A descriptor handed out is one that is not open. -/
inductive Step : Label → Server → Server → Prop
  | opened {s : Server} {fd : Int} : s.pc = .socket → 0 ≤ fd → s.fds.isOpen fd = false →
      Step (.socket fd) s { s with pc := .setsockopt, serverSocket := fd, fds := s.fds.openFd fd }
  | notOpened {s : Server} {fd : Int} : s.pc = .socket → fd < 0 →
      Step (.socket fd) s { s with pc := .returned, serverSocket := fd }
  | setsockopt {s : Server} {ret : Int} : s.pc = .setsockopt → Step (.setsockopt ret) s { s with pc := .bind }
  | bound {s : Server} {ret : Int} : s.pc = .bind → 0 ≤ ret → Step (.bind ret) s { s with pc := .listen }
  | notBound {s : Server} {ret : Int} : s.pc = .bind → ret < 0 → Step (.bind ret) s s.giveUp
  | listens {s : Server} {ret : Int} : s.pc = .listen → 0 ≤ ret → Step (.listen ret) s { s with pc := .accept }
  | listensNot {s : Server} {ret : Int} : s.pc = .listen → ret < 0 → Step (.listen ret) s s.giveUp
  | accepted {s : Server} {fd : Int} {garbage : CString.Memory} : s.pc = .accept → 0 ≤ fd →
      s.fds.isOpen fd = false →
      Step (.accept fd) s
        { s with pc := .serve, clientSocket := fd, handler := .start garbage, fds := s.fds.openFd fd }
  | notAccepted {s : Server} {fd : Int} : s.pc = .accept → fd < 0 →
      Step (.accept fd) s { s with clientSocket := fd }
  | goesOn {s : Server} {o : Outcome} {h : Handler} : s.pc = .serve → TcpServer.Step o s.handler h →
      h.phase ≠ .closed → Step (.session o) s { s with handler := h }
  | ends {s : Server} {o : Outcome} {h : Handler} : s.pc = .serve → TcpServer.Step o s.handler h →
      h.phase = .closed →
      Step (.session o) s
        { s with
          pc := .accept
          handler := h
          fds := s.fds.close s.clientSocket
          sessions := s.sessions ++ [(s.clientSocket, h)] }

def server : System Server Label where
  init s := ∃ client handler, s = start before client handler
  step := Step

end

/-! ## The books -/

namespace Server

/-- The descriptors of the sessions that have ended. -/
def ended (s : Server) : List FdAct := s.sessions.flatMap fun p => [.opened p.1, .closed p.1]

/-- All that has been opened and closed. -/
def acts (s : Server) : List FdAct :=
  match s.pc with
  | .socket => []
  | .setsockopt | .bind | .listen | .accept => .opened s.serverSocket :: s.ended
  | .serve => .opened s.serverSocket :: (s.ended ++ [.opened s.clientSocket])
  | .returned => if s.serverSocket < 0 then [] else [.opened s.serverSocket, .closed s.serverSocket]

/-- What is open besides what was open before. -/
def owned (s : Server) : List Int :=
  match s.pc with
  | .socket | .returned => []
  | .setsockopt | .bind | .listen | .accept => [s.serverSocket]
  | .serve => [s.serverSocket, s.clientSocket]

end Server

/-- A session by itself, which has ended. -/
structure Ended (h : Handler) : Prop where
  reachable : handleClient.Reachable h
  closed : h.phase = .closed

structure Books (before : Int → Bool) (s : Server) : Prop where
  acts : s.fds.acts = s.acts
  isOpen : ∀ fd, s.fds.isOpen fd = true ↔ before fd = true ∨ fd ∈ s.owned
  owned : ∀ fd ∈ s.owned, before fd = false
  distinct : s.owned.Nodup
  serving : s.pc = .serve → handleClient.Reachable s.handler ∧ s.handler.phase ≠ .closed
  ended : ∀ p ∈ s.sessions, Ended p.2
  fresh : s.pc ≠ .accept → s.pc ≠ .serve → s.sessions = []
  descriptor : s.pc ≠ .socket → s.pc ≠ .returned → 0 ≤ s.serverSocket

section

variable {before : Int → Bool} {s t : Server}

/-- At the start nothing is open but what was open before. -/
theorem Books.start (client : Int) (handler : Handler) : Books before (start before client handler) where
  acts := rfl
  isOpen _ := ⟨Or.inl, fun h => h.elim id (nomatch ·)⟩
  owned _ h := nomatch h
  distinct := List.nodup_nil
  serving := nofun
  ended _ h := nomatch h
  fresh _ _ := rfl
  descriptor h := absurd rfl h

/-- What is open after one more was opened. -/
theorem isOpen_openFd {fds : Fds} {l : List Int} (h : ∀ fd, fds.isOpen fd = true ↔ before fd = true ∨ fd ∈ l)
    (new fd : Int) : (fds.openFd new).isOpen fd = true ↔ before fd = true ∨ fd ∈ l ++ [new] := by
  show Function.update fds.isOpen new true fd = true ↔ _
  rw [Function.update_apply, List.mem_append, List.mem_singleton]
  split
  · next heq => simp [heq]
  · next hne => simp [hne, h fd]

/-- And after it was closed again. -/
theorem isOpen_close {fds : Fds} {l : List Int} {old : Int}
    (h : ∀ fd, fds.isOpen fd = true ↔ before fd = true ∨ fd ∈ l ++ [old]) (hold : before old = false)
    (hnew : old ∉ l) (fd : Int) : (fds.close old).isOpen fd = true ↔ before fd = true ∨ fd ∈ l := by
  show Function.update fds.isOpen old false fd = true ↔ _
  rw [Function.update_apply]
  split
  · next heq =>
      subst heq
      simp [hold, hnew]
  · next hne =>
      rw [h fd, List.mem_append, List.mem_singleton]
      simp [hne]

/-- A descriptor handed out is neither one that was open before nor one of the server's. -/
theorem free_of_isOpen_false {fds : Fds} {l : List Int} {fd : Int}
    (h : ∀ fd, fds.isOpen fd = true ↔ before fd = true ∨ fd ∈ l) (hfree : fds.isOpen fd = false) :
    before fd = false ∧ fd ∉ l := by
  have hnot := not_or.mp (mt (h fd).mpr (Bool.eq_false_iff.mp hfree))
  exact ⟨Bool.eq_false_iff.mpr hnot.1, hnot.2⟩

/-- What is known while the server is being set up. -/
theorem Books.settingUp (h : Books before s) (hpc : s.pc = .setsockopt ∨ s.pc = .bind ∨ s.pc = .listen) :
    s.acts = .opened s.serverSocket :: s.ended ∧ s.owned = [s.serverSocket] ∧ s.sessions = [] ∧
      0 ≤ s.serverSocket := by
  unfold Server.acts Server.owned
  rcases hpc with hpc | hpc | hpc
  all_goals
    refine ⟨?_, ?_, h.fresh ?_ ?_, h.descriptor ?_ ?_⟩ <;> rw [hpc] <;> nofun

/-- The next call. -/
theorem Books.move {pc : ServerPc} (h : Books before s) (hpc : s.pc = .setsockopt ∨ s.pc = .bind ∨ s.pc = .listen)
    (hnext : pc = .bind ∨ pc = .listen ∨ pc = .accept) : Books before { s with pc := pc } := by
  obtain ⟨hacts, howned, hsessions, hfd⟩ := h.settingUp hpc
  have hsame : ({ s with pc := pc } : Server).acts = s.acts ∧ ({ s with pc := pc } : Server).owned = s.owned := by
    rw [hacts, howned]
    rcases hnext with rfl | rfl | rfl <;> exact ⟨rfl, rfl⟩
  obtain ⟨hacts', howned'⟩ := hsame
  refine ⟨h.acts.trans hacts'.symm, ?_, ?_, ?_, ?_, h.ended, fun _ _ => hsessions, fun _ _ => hfd⟩
  · rw [howned']
    exact h.isOpen
  · rw [howned']
    exact h.owned
  · rw [howned']
    exact h.distinct
  · rintro rfl
    rcases hnext with hserve | hserve | hserve <;> cases hserve

/-- Where the server could not be set up. -/
theorem Books.giveUp (h : Books before s) (hpc : s.pc = .setsockopt ∨ s.pc = .bind ∨ s.pc = .listen) :
    Books before s.giveUp := by
  obtain ⟨hacts, howned, hsessions, hfd⟩ := h.settingUp hpc
  have hopen := h.isOpen
  rw [howned] at hopen
  refine ⟨?_, isOpen_close (l := []) hopen ?_ List.not_mem_nil, nofun, List.nodup_nil, nofun, h.ended,
    fun _ _ => hsessions, fun _ hreturned => absurd rfl hreturned⟩
  · show s.fds.acts ++ [FdAct.closed s.serverSocket] =
      if s.serverSocket < 0 then [] else [FdAct.opened s.serverSocket, FdAct.closed s.serverSocket]
    rw [if_neg (by omega), h.acts, hacts]
    unfold Server.ended
    rw [hsessions]
    rfl
  · apply h.owned
    rw [howned]
    exact List.mem_singleton_self _

/-- **One call.** The server's own socket is the first descriptor and stays open; a client's comes on top and goes
with its session. -/
theorem Books.next {l : Label} (h : Books before s) (hstep : Step l s t) : Books before t := by
  cases hstep with
  | @opened _ fd hpc hfd hfree =>
      have hopen := h.isOpen
      have hsessions := h.fresh (by rw [hpc]; nofun) (by rw [hpc]; nofun)
      have hacts := h.acts
      unfold Server.owned at hopen
      unfold Server.acts at hacts
      rw [hpc] at hopen hacts
      have hbefore := (free_of_isOpen_false hopen hfree).1
      refine ⟨?_, isOpen_openFd hopen fd, ?_, List.nodup_singleton fd, nofun, h.ended, fun _ _ => hsessions,
        fun _ _ => hfd⟩
      · show s.fds.acts ++ [FdAct.opened fd] = FdAct.opened fd :: s.ended
        rw [hacts]
        unfold Server.ended
        rw [hsessions]
        rfl
      · intro fd' hmem
        rw [List.mem_singleton.mp hmem]
        exact hbefore
  | @notOpened _ fd hpc hfd =>
      have hopen := h.isOpen
      have hsessions := h.fresh (by rw [hpc]; nofun) (by rw [hpc]; nofun)
      have hacts := h.acts
      unfold Server.owned at hopen
      unfold Server.acts at hacts
      rw [hpc] at hopen hacts
      refine ⟨?_, hopen, nofun, List.nodup_nil, nofun, h.ended, fun _ _ => hsessions,
        fun _ hreturned => absurd rfl hreturned⟩
      show s.fds.acts = if fd < 0 then [] else _
      rw [if_pos hfd, hacts]
  | setsockopt hpc => exact h.move (Or.inl hpc) (Or.inl rfl)
  | bound hpc => exact h.move (Or.inr (Or.inl hpc)) (Or.inr (Or.inl rfl))
  | notBound hpc => exact h.giveUp (Or.inr (Or.inl hpc))
  | listens hpc => exact h.move (Or.inr (Or.inr hpc)) (Or.inr (Or.inr rfl))
  | listensNot hpc => exact h.giveUp (Or.inr (Or.inr hpc))
  | @accepted _ fd garbage hpc hfd hfree =>
      -- a new descriptor on top, and a handler at its start on a stack that holds anything
      obtain ⟨hacts, hopen, howned, hdistinct, -, hended, -, hdescriptor⟩ := h
      unfold Server.acts at hacts
      unfold Server.owned at hopen howned hdistinct
      rw [hpc] at hacts hopen howned hdistinct
      obtain ⟨hbefore, hnew⟩ := free_of_isOpen_false hopen hfree
      refine ⟨?_, isOpen_openFd hopen fd, ?_, ?_, ?_, hended, ?_, ?_⟩
      · show s.fds.acts ++ [FdAct.opened fd] = _
        rw [hacts]
        rfl
      · intro fd' hmem
        rcases List.mem_append.mp (show fd' ∈ [s.serverSocket] ++ [fd] from hmem) with hmem | hmem
        · exact howned fd' hmem
        · rw [List.mem_singleton.mp hmem]
          exact hbefore
      · show ([s.serverSocket] ++ [fd]).Nodup
        rw [List.nodup_append]
        refine ⟨hdistinct, List.nodup_singleton fd, ?_⟩
        rintro a ha b hb rfl
        exact hnew (List.mem_singleton.mp hb ▸ ha)
      · intro _
        exact ⟨.init ⟨garbage, rfl⟩, nofun⟩
      · intro _ hserve
        exact absurd rfl hserve
      · intro _ _
        exact hdescriptor (by rw [hpc]; nofun) (by rw [hpc]; nofun)
  | notAccepted hpc hfd =>
      -- client_socket is not looked at outside a session
      obtain ⟨hacts, hopen, howned, hdistinct, hserving, hended, hfresh, hdescriptor⟩ := h
      unfold Server.acts at hacts
      unfold Server.owned at hopen howned hdistinct
      rw [hpc] at hacts hopen howned hdistinct
      refine ⟨?_, ?_, ?_, ?_, ?_, hended, hfresh, hdescriptor⟩
      · unfold Server.acts
        simp only [hpc]
        exact hacts
      · unfold Server.owned
        simp only [hpc]
        exact hopen
      · unfold Server.owned
        simp only [hpc]
        exact howned
      · unfold Server.owned
        simp only [hpc]
        exact hdistinct
      · intro hserve
        rw [hpc] at hserve
        cases hserve
  | goesOn hpc hmove hphase =>
      obtain ⟨hreach, -⟩ := h.serving hpc
      exact ⟨h.acts, h.isOpen, h.owned, h.distinct, fun _ => ⟨hreach.step hmove, hphase⟩, h.ended, h.fresh,
        h.descriptor⟩
  | @ends _ o h' hpc hmove hphase =>
      obtain ⟨hreach, -⟩ := h.serving hpc
      obtain ⟨hacts, hopen, howned, hdistinct, -, hended, -, hdescriptor⟩ := h
      unfold Server.acts at hacts
      unfold Server.owned at hopen howned hdistinct
      rw [hpc] at hacts hopen howned hdistinct
      have hserver : s.serverSocket ≠ s.clientSocket := by
        intro heq
        simp [heq] at hdistinct
      refine ⟨?_, ?_, ?_, List.nodup_singleton _, nofun, ?_, fun hne => absurd rfl hne, ?_⟩
      · -- opened and closed: the pair of the session that has ended
        show s.fds.acts ++ [FdAct.closed s.clientSocket] = FdAct.opened s.serverSocket ::
          (s.sessions ++ [(s.clientSocket, h')]).flatMap fun p => [FdAct.opened p.1, FdAct.closed p.1]
        rw [hacts, List.flatMap_append, List.flatMap_singleton, List.cons_append, List.append_assoc]
        rfl
      · apply isOpen_close (l := [s.serverSocket]) hopen
        · exact howned _ (List.mem_cons_of_mem _ (List.mem_singleton_self _))
        · rw [List.mem_singleton]
          exact hserver.symm
      · intro fd hfd
        exact howned fd (List.mem_cons.mpr (Or.inl (List.mem_singleton.mp hfd)))
      · intro p hp
        rcases List.mem_append.mp hp with hp | hp
        · exact hended p hp
        · rw [List.mem_singleton.mp hp]
          exact ⟨hreach.step hmove, hphase⟩
      · intro _ _
        exact hdescriptor (by rw [hpc]; nofun) (by rw [hpc]; nofun)

/-- Whatever the calls return, the books are kept. -/
theorem books_of_reachable (h : (server before).Reachable s) : Books before s := by
  apply h.invariant
  · rintro s ⟨client, handler, rfl⟩
    exact Books.start client handler
  · intro s t l _ hbooks hstep
    exact hbooks.next hstep

/-- **The books of the server.** In every run: what was opened and closed is the server's socket and, for each
session in order, its own, closed again before the next is accepted; besides what was open before at most the
server's socket and one client's are open, and neither was open before. Each session that has ended has closed its
socket once, received its pieces into its buffer and sent beginnings of its own pieces and nothing else, also where
a call failed; without a failure these are all its pieces, and all it received where every `send` accepted all.
Where the server gives up there was no session. -/
theorem server_books (h : (server before).Reachable s) :
    s.fds.acts = s.acts ∧ (∀ fd, s.fds.isOpen fd = true ↔ before fd = true ∨ fd ∈ s.owned) ∧
      (∀ fd ∈ s.owned, before fd = false) ∧ s.owned.length ≤ 2 ∧
      (∀ p ∈ s.sessions, p.2.closes = 1 ∧ (∀ i ∈ p.2.written, i < TcpServer.recvBufSize) ∧
        p.2.output = (p.2.sends.flatMap fun send => send.1.take send.2) ∧
        p.2.sends.flatMap Prod.fst <+: p.2.input ∧
        (p.2.failed = false → p.2.input = p.2.sends.flatMap Prod.fst) ∧
        (p.2.failed = false → TcpServer.WholeSends p.2 → p.2.output = p.2.input)) ∧
      (s.pc = .returned → s.sessions = []) := by
  have hbooks := books_of_reachable h
  refine ⟨hbooks.acts, hbooks.isOpen, hbooks.owned, ?_, ?_, ?_⟩
  · unfold Server.owned
    rcases s.pc with _ | _ | _ | _ | _ | _ | _ <;> simp
  · intro p hp
    obtain ⟨hreach, hclosed⟩ := hbooks.ended p hp
    have hacc := TcpServer.accounted_of_reachable hreach
    have hinput : p.2.failed = false → p.2.input = p.2.sends.flatMap Prod.fst := by
      intro hok
      have hpieces := hacc.input hok
      unfold Handler.pending at hpieces
      rw [hclosed] at hpieces
      rw [hpieces]
      exact List.append_nil _
    refine ⟨?_, TcpServer.inBounds_of_reachable hreach, hacc.output,
      (TcpServer.served_of_reachable hreach).sends, hinput, ?_⟩
    · rw [TcpServer.closes_of_reachable hreach, hclosed]
      rfl
    · intro hok hwhole
      rw [hacc.output, hinput hok]
      apply congrArg List.flatten
      apply List.map_congr_left
      intro send hsend
      rw [hwhole hok send hsend, List.take_length]
  · intro hreturned
    exact hbooks.fresh (by rw [hreturned]; nofun) (by rw [hreturned]; nofun)

end

/-- A client that sends a byte, gets it back and leaves, and a second one with the same descriptor, on the stack
that the first one left: of its two bytes one is accepted, and the `send` of its third byte fails. -/
theorem server_books_twice : ∃ s : Server,
    s.fds.acts = [.opened 3, .opened 4, .closed 4, .opened 4, .closed 4] ∧
      (∀ fd, s.fds.isOpen fd = true ↔ fd = 3) ∧ s.sessions.map (·.2.output) = [[104], [97]] ∧
      ∀ p ∈ s.sessions, p.2.closes = 1 ∧ p.2.sends.flatMap Prod.fst <+: p.2.input := by
  have next {s t : Server} (l : Label) (h : (server fun _ => false).Reachable s) (hstep : Step l s t) :
      (server fun _ => false).Reachable t := h.step hstep
  have hopened := next (.socket 3) (.init ⟨-1, .start fun _ => 0, rfl⟩) (.opened rfl (by omega) rfl)
  have hbound := next (.bind 0) (next (.setsockopt 0) hopened (.setsockopt rfl)) (.bound rfl (by omega))
  have hlistens := next (.listen 0) hbound (.listens rfl (by omega))
  -- the first client
  have hfirst := next (.accept 4) hlistens (@Step.accepted _ 4 (fun _ => 0) rfl (by omega) rfl)
  have hreceived := next (.session (.received [104])) hfirst
    (.goesOn rfl (.received rfl (List.cons_ne_nil _ _) (Nat.le_of_ble_eq_true rfl)) nofun)
  have hsent := next (.session (.sent 1)) hreceived
    (.goesOn rfl (.sent rfl (Nat.le_refl 1) (Nat.le_refl 1)) nofun)
  have hleft := next (.session .disconnected) hsent (.ends rfl (.disconnected rfl) rfl)
  -- the second one
  have hsecond := next (.accept 4) hleft (@Step.accepted _ 4 (fun _ => 104) rfl (by omega) rfl)
  have hreceived := next (.session (.received [97, 98])) hsecond
    (.goesOn rfl (.received rfl (List.cons_ne_nil _ _) (Nat.le_of_ble_eq_true rfl)) nofun)
  have hshort := next (.session (.sent 1)) hreceived
    (.goesOn rfl (.sent rfl (Nat.le_refl 1) (Nat.le_succ 1)) nofun)
  have hlast := next (.session (.received [99])) hshort
    (.goesOn rfl (.received rfl (List.cons_ne_nil _ _) (Nat.le_of_ble_eq_true rfl)) nofun)
  have hfailed := next (.session .sendFailed) hlast (.ends rfl (.sendFailed rfl) rfl)
  obtain ⟨hacts, hopen, -, -, hsessions, -⟩ := server_books hfailed
  refine ⟨_, hacts, fun fd => ?_, rfl, fun p hp => ?_⟩
  · rw [hopen fd]
    simp [Server.owned]
  · obtain ⟨hcloses, -, -, hbegins, -, -⟩ := hsessions p hp
    exact ⟨hcloses, hbegins⟩

end ZephyrSamples.Net.EchoServer
