/-
# ZephyrSamples.Net.HttpServer -- answers that point into memory

The HTTPS server calls a handler for every piece of a request, and the handler answers with a pointer:
`device_info_handler` to its `static` buffer, which all clients share, `echo_handler` to the data of the request
itself. The server sends the answer, read from memory, before it makes the next callback.

So whatever the clients ask, and in whatever order, each is sent what its callback is to be answered, and the
buffer that they share does no harm (`answered_at_once`).
-/
import Mathlib.Logic.Function.Basic
import ZephyrSamples.Lib.Text

namespace ZephyrSamples.Net.HttpServer

open ZephyrSamples.Lib
open ZephyrSamples.Lib.CString (Memory ascii)

/-! ## The handlers -/

/-- `enum http_data_status` -/
inductive HttpDataStatus where
  | aborted
  | more
  | final
  deriving DecidableEq, Repr

def HttpDataStatus.code : HttpDataStatus → Int
  | .aborted => -1
  | .more => 0
  | .final => 1

/-- The methods of the two resources. The server turns all others down itself. -/
inductive HttpMethod where
  | get
  | post
  deriving DecidableEq, Repr

def httpMethodStr : HttpMethod → String
  | .get => "GET"
  | .post => "POST"

/-- What `response_ctx->body` points to: nothing, `info_buf`, or what was received from a client. -/
inductive Body where
  | null
  | infoBuf
  | data (client : Nat)
  deriving DecidableEq, Repr

/-- `struct http_response_ctx`, as far as the handlers write it. -/
structure HttpResponseCtx where
  body : Body
  bodyLen : Nat
  finalChunk : Bool
  deriving DecidableEq, Repr

def infoBufSize : Nat := 256

def eNomem : Int := 12

def infoHead : List UInt8 :=
  ascii "\x7b\"board\":\"STM32H573I-DK\",\"arch\":\"ARM Cortex-M33\",\"uptime\":"

def infoTail : List UInt8 := ascii ",\"status\":\"Running\"\x7d"

/-- The device information that `snprintf` formats, with what `k_uptime_get` returns. -/
def infoText (uptime : Int64) : List UInt8 := infoHead ++ Text.signed uptime.toInt ++ infoTail

/-- What a callback leaves in `info_buf`, what it answers, prints and returns. -/
structure Handled where
  infoBuf : Memory
  response : HttpResponseCtx
  printed : List String
  ret : Int

def deviceInfoHandler (status : HttpDataStatus) (uptime : Int64) (infoBuf : Memory)
    (response : HttpResponseCtx) : Handled :=
  let printed := ["[HTTPS] Device info handler called, status: " ++ toString status.code ++ "\n"]
  if status = .final then
    let (stored, len) := Text.snprintf infoBufSize (infoText uptime)
    let infoBuf := (infoBuf.blit 0 stored).set stored.length 0
    if (len : Int) < 0 ∨ (infoBufSize : Int) ≤ len then
      ⟨infoBuf, response, printed ++ ["[ERR] Failed to format device info\n"], - eNomem⟩
    else
      ⟨infoBuf, ⟨.infoBuf, len, true⟩, printed, 0⟩
  else
    ⟨infoBuf, response, printed, 0⟩

def echoHandler (client : Nat) (method : HttpMethod) (status : HttpDataStatus) (dataLen : Nat)
    (infoBuf : Memory) (response : HttpResponseCtx) : Handled :=
  if status = .aborted then
    ⟨infoBuf, response, ["[HTTPS] Echo transaction aborted\n"], 0⟩
  else
    let printed := if 0 < dataLen
      then ["[HTTPS] " ++ httpMethodStr method ++ " received " ++ toString dataLen ++ " bytes\n"] else []
    ⟨infoBuf, ⟨.data client, dataLen, status = .final⟩, printed, 0⟩

/-! ## The server -/

/-- `/device-info`, at a time, or `/echo`, by a method. -/
inductive Resource where
  | deviceInfo (uptime : Int64)
  | echo (method : HttpMethod)
  deriving DecidableEq

/-- A piece of a request, with the data that was received. -/
structure Callback where
  client : Nat
  resource : Resource
  status : HttpDataStatus
  data : List UInt8
  deriving DecidableEq

def Callback.run (c : Callback) (infoBuf : Memory) : Handled :=
  let response : HttpResponseCtx := ⟨.null, 0, false⟩
  match c.resource with
  | .deviceInfo uptime => deviceInfoHandler c.status uptime infoBuf response
  | .echo method => echoHandler c.client method c.status c.data.length infoBuf response

/-- Whether there is an answer at all. -/
def HttpResponseCtx.provided (r : HttpResponseCtx) : Bool := r.finalChunk || decide (0 < r.bodyLen)

/-- A body that was sent, and whether it was marked as the last. -/
abbrev Answer := List UInt8 × Bool

/-- `info_buf`, what was received last from each client, and a history of the answers sent, the texts printed and
what the handlers returned. -/
structure Server where
  infoBuf : Memory
  received : Nat → Memory
  sent : List (Nat × Answer)
  printed : List String
  rets : List Int

namespace Server

def start (infoBuf : Memory) (received : Nat → Memory) : Server := ⟨infoBuf, received, [], [], []⟩

/-- The bytes that an answer points to. -/
def read (s : Server) (r : HttpResponseCtx) : Answer :=
  match r.body with
  | .null => ([], r.finalChunk)
  | .infoBuf => (s.infoBuf.slice 0 r.bodyLen, r.finalChunk)
  | .data client => ((s.received client).slice 0 r.bodyLen, r.finalChunk)

/-- The data is received, the handler called. -/
def callback (s : Server) (c : Callback) : Server :=
  { s with
    infoBuf := (c.run s.infoBuf).infoBuf
    received := Function.update s.received c.client ((s.received c.client).blit 0 c.data)
    printed := s.printed ++ (c.run s.infoBuf).printed
    rets := s.rets ++ [(c.run s.infoBuf).ret] }

def send (s : Server) (client : Nat) (r : HttpResponseCtx) : Server :=
  if r.provided then { s with sent := s.sent ++ [(client, s.read r)] } else s

/-- A callback, and its answer at once. -/
def step (s : Server) (c : Callback) : Server := (s.callback c).send c.client (c.run s.infoBuf).response

end Server

/-! ## What the clients are to be answered -/

/-- What a callback is to be answered. -/
def Callback.answer (c : Callback) : Option Answer :=
  match c.resource, c.status with
  | .deviceInfo uptime, .final => some (infoText uptime, true)
  | .deviceInfo _, _ => none
  | .echo _, .aborted => none
  | .echo _, .more => if c.data = [] then none else some (c.data, false)
  | .echo _, .final => some (c.data, true)

/-- What the clients are to be answered. -/
def answers (callbacks : List Callback) : List (Nat × Answer) :=
  callbacks.filterMap fun c => c.answer.map fun a => (c.client, a)

/-! ## The text of the device information -/

/-- Every uptime fits: a sign and nineteen digits at most. -/
theorem length_infoText_lt (uptime : Int64) : (infoText uptime).length < infoBufSize := by
  have hlow := uptime.le_toInt
  have hhigh := uptime.toInt_lt
  have habs : uptime.toInt.natAbs < 10 ^ 19 := by omega
  have hsigned := Text.length_signed_le (by omega) habs
  have hhead : infoHead.length = 58 := by decide
  have htail : infoTail.length = 20 := by decide
  unfold infoText infoBufSize
  rw [List.length_append, List.length_append, hhead, htail]
  split at hsigned <;> omega

/-- The last piece of a request is answered from `info_buf`, which holds the whole text. -/
theorem deviceInfoHandler_final (uptime : Int64) (infoBuf : Memory) (response : HttpResponseCtx) :
    (deviceInfoHandler .final uptime infoBuf response).ret = 0 ∧
      (deviceInfoHandler .final uptime infoBuf response).response =
        ⟨.infoBuf, (infoText uptime).length, true⟩ ∧
      (deviceInfoHandler .final uptime infoBuf response).infoBuf.slice 0 (infoText uptime).length =
        infoText uptime := by
  have hlen := length_infoText_lt uptime
  unfold deviceInfoHandler
  rw [if_pos rfl, Text.snprintf_of_lt hlen]
  dsimp only
  rw [if_neg (by omega)]
  refine ⟨rfl, rfl, ?_⟩
  -- the NUL lies behind the text
  rw [← CString.slice_blit infoBuf 0 (infoText uptime), CString.length_slice]
  apply CString.slice_congr
  intro k hk
  rw [CString.slice_blit]
  exact CString.set_of_ne _ _ (by omega)

/-- What a callback answers, and where it is. -/
inductive Answered (c : Callback) (infoBuf : Memory) : Prop where
  | nothing : (c.run infoBuf).response.provided = false → c.answer = none → Answered c infoBuf
  | info (uptime : Int64) : (c.run infoBuf).response = ⟨.infoBuf, (infoText uptime).length, true⟩ →
      c.answer = some (infoText uptime, true) →
      (c.run infoBuf).infoBuf.slice 0 (infoText uptime).length = infoText uptime → Answered c infoBuf
  | data (final : Bool) : (c.run infoBuf).response = ⟨.data c.client, c.data.length, final⟩ →
      (c.run infoBuf).response.provided = true → c.answer = some (c.data, final) → Answered c infoBuf

/-- **One callback.** It does not fail, and its answer is the one that is due. -/
theorem Callback.run_spec (c : Callback) (infoBuf : Memory) :
    (c.run infoBuf).ret = 0 ∧ Answered c infoBuf := by
  obtain ⟨client, resource, status, data⟩ := c
  cases resource with
  | deviceInfo uptime =>
      by_cases hfinal : status = .final
      · subst hfinal
        obtain ⟨hret, hresponse, hstored⟩ := deviceInfoHandler_final uptime infoBuf ⟨.null, 0, false⟩
        exact ⟨hret, .info uptime hresponse rfl hstored⟩
      · -- the handler waits for the rest of the request, or the request has failed
        have hrun : Callback.run ⟨client, .deviceInfo uptime, status, data⟩ infoBuf =
            ⟨infoBuf, ⟨.null, 0, false⟩,
              ["[HTTPS] Device info handler called, status: " ++ toString status.code ++ "\n"], 0⟩ := if_neg hfinal
        rw [hrun]
        refine ⟨rfl, .nothing ?_ ?_⟩
        · rw [hrun]
          rfl
        · cases status with
          | aborted | more => rfl
          | final => exact absurd rfl hfinal
  | echo method =>
      cases status with
      | aborted => exact ⟨rfl, .nothing rfl rfl⟩
      | final => exact ⟨rfl, .data true rfl rfl rfl⟩
      | more =>
          refine ⟨rfl, ?_⟩
          -- without data and not the last one a piece has no answer
          cases data with
          | nil => exact .nothing rfl rfl
          | cons b data => exact .data false rfl rfl rfl

/-! ## Any callbacks of any clients -/

/-- **One callback and its answer.** What is read from memory is what is due, and the handler does not fail. -/
theorem Server.step_spec (s : Server) (c : Callback) :
    (s.step c).sent = s.sent ++ answers [c] ∧ (s.step c).rets = s.rets ++ [0] := by
  obtain ⟨hret, hanswered⟩ := c.run_spec s.infoBuf
  have hrets : (s.step c).rets = s.rets ++ [0] := by
    have hcalled : (s.callback c).rets = s.rets ++ [0] := congrArg (fun ret => s.rets ++ [ret]) hret
    unfold Server.step Server.send
    split_ifs
    · exact hcalled
    · exact hcalled
  refine ⟨?_, hrets⟩
  unfold Server.step Server.send answers
  cases hanswered with
  | nothing hnot hanswer =>
      rw [hnot, if_neg Bool.false_ne_true]
      simp [hanswer, Server.callback]
  | info uptime hresponse hanswer hstored =>
      -- the text lies in the buffer that all share, and nobody else has been called since
      have hread : (s.callback c).read ⟨.infoBuf, (infoText uptime).length, true⟩ = (infoText uptime, true) :=
        congrArg (fun body => (body, true)) hstored
      have hprovided : (⟨.infoBuf, (infoText uptime).length, true⟩ : HttpResponseCtx).provided = true := rfl
      rw [hresponse, hprovided, if_pos rfl, hread]
      simp [hanswer, Server.callback]
  | data final hresponse hprovided hanswer =>
      have hread : (s.callback c).read ⟨.data c.client, c.data.length, final⟩ = (c.data, final) := by
        show ((Function.update s.received c.client ((s.received c.client).blit 0 c.data) c.client).slice 0
          c.data.length, final) = _
        rw [Function.update_self, CString.slice_blit]
      rw [hprovided, if_pos rfl, hresponse, hread]
      simp [hanswer, Server.callback]

/-- The answers of the first callback come first. -/
theorem answers_cons (c : Callback) (callbacks : List Callback) :
    answers (c :: callbacks) = answers [c] ++ answers callbacks := List.filterMap_append (l := [c])

/-- Any number of callbacks: what is sent is what was sent before and what is due. -/
theorem Server.foldl_spec (callbacks : List Callback) (s : Server) :
    (callbacks.foldl Server.step s).sent = s.sent ++ answers callbacks ∧
      (callbacks.foldl Server.step s).rets = s.rets ++ List.replicate callbacks.length 0 := by
  induction callbacks generalizing s with
  | nil => exact ⟨(List.append_nil _).symm, (List.append_nil _).symm⟩
  | cons c callbacks ih =>
      obtain ⟨hsent, hrets⟩ := s.step_spec c
      obtain ⟨hsent', hrets'⟩ := ih (s.step c)
      rw [List.foldl_cons, hsent', hrets', hsent, hrets, answers_cons c callbacks, List.append_assoc]
      exact ⟨rfl, List.append_assoc _ _ _⟩

/-- An echoed transaction that is not aborted gets its data. -/
theorem answer_echo {c : Callback} {method : HttpMethod} (hresource : c.resource = .echo method)
    (hstatus : c.status ≠ .aborted) : c.answer.elim [] Prod.fst = c.data := by
  unfold Callback.answer
  rw [hresource]
  cases hcase : c.status with
  | aborted => exact absurd hcase hstatus
  | final => rfl
  | more =>
      by_cases hdata : c.data = []
      · simp only [hdata, if_true]
        rfl
      · simp only [hdata, if_false]
        rfl

/-- A client that only echoes: its answers are its data, whatever the others ask in between. -/
theorem answers_echo {client : Nat} {callbacks : List Callback}
    (h : ∀ c ∈ callbacks, c.client = client → (∃ method, c.resource = .echo method) ∧ c.status ≠ .aborted) :
    ((answers callbacks).filter fun sent => sent.1 = client).flatMap (fun sent => sent.2.1) =
      (callbacks.filter fun c => c.client = client).flatMap Callback.data := by
  induction callbacks with
  | nil => rfl
  | cons c callbacks ih =>
      have htail := ih fun c' hc' => h c' (List.mem_cons_of_mem c hc')
      rw [answers_cons, List.filter_append, List.flatMap_append, htail, List.filter_cons]
      by_cases hclient : c.client = client
      · obtain ⟨⟨method, hresource⟩, hstatus⟩ := h c List.mem_cons_self hclient
        have hanswer := answer_echo hresource hstatus
        rw [if_pos (by simpa using hclient), List.flatMap_cons, ← hanswer]
        congr 1
        unfold answers
        cases hcase : c.answer with
        | none => simp [hcase]
        | some a => simp [hcase, hclient]
      · -- another client's answer does not count
        rw [if_neg (by simpa using hclient)]
        have hnone : (answers [c]).filter (fun sent => sent.1 = client) = [] := by
          unfold answers
          cases hcase : c.answer with
          | none => simp [hcase]
          | some a => simp [hcase, hclient]
        rw [hnone]
        rfl

/-- **A server that answers at once.** For any clients, in any order: what is sent, read from memory, is the answer
of each callback in turn, no handler fails, and a client that only echoes gets its own data back, in pieces
as they came, and nothing of anyone else. -/
theorem answered_at_once (infoBuf : Memory) (received : Nat → Memory) (callbacks : List Callback) :
    (callbacks.foldl Server.step (.start infoBuf received)).sent = answers callbacks ∧
      (∀ ret ∈ (callbacks.foldl Server.step (.start infoBuf received)).rets, ret = 0) ∧
      ∀ client, (∀ c ∈ callbacks, c.client = client → (∃ method, c.resource = .echo method) ∧ c.status ≠ .aborted) →
        ((callbacks.foldl Server.step (.start infoBuf received)).sent.filter
            fun sent => sent.1 = client).flatMap (fun sent => sent.2.1) =
          (callbacks.filter fun c => c.client = client).flatMap Callback.data := by
  obtain ⟨hsent, hrets⟩ := Server.foldl_spec callbacks (.start infoBuf received)
  have hsent' : (callbacks.foldl Server.step (.start infoBuf received)).sent = answers callbacks := hsent
  refine ⟨hsent', fun ret hret => ?_, fun client hecho => ?_⟩
  · rw [hrets] at hret
    exact List.eq_of_mem_replicate hret
  · rw [hsent']
    exact answers_echo hecho

-- Two clients ask one after the other: each is told the time of its own question.
example : ([⟨0, .deviceInfo 5, .final, []⟩, ⟨1, .deviceInfo 6, .final, []⟩].foldl Server.step
    (.start (fun _ => 0) fun _ _ => 0)).sent = [(0, infoText 5, true), (1, infoText 6, true)] := by
  decide +kernel

end ZephyrSamples.Net.HttpServer
