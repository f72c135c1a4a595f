/-
# ZephyrSamples.Net.HttpClient -- two requests, one descriptor variable

`main` connects, asks with GET, closes, connects again and asks with POST. `connect_socket` opens into `*sock`
and connects; unlike its sibling for TLS it has no failure of its own between the two, so no descriptor is closed
behind the back of `sock`. `response_cb` prints what the response brings, the body in fragments and as a string.

Whatever the calls return: all descriptors are closed, each once, and every request goes out on one that is
connected to the server (`client_books`). The body can be read back from what is printed exactly where it
has no NUL in it (`printedBody_eq_iff`).
-/
import ZephyrSamples.Lib.Pieces
import ZephyrSamples.Lib.Text
import ZephyrSamples.Net.TlsSocket

namespace ZephyrSamples.Net.HttpClient

open ZephyrSamples.Lib
open ZephyrSamples.Lib.CString (Memory ascii)
open ZephyrSamples.Lib.Text (decimal signed)
open ZephyrSamples.Net.TlsSocket (Fds FdAct SockaddrIn afInet htons)

/-! ## Responses -/

def recvBufSize : Nat := 512

/-- `enum http_final_call` -/
inductive HttpFinalCall where
  | more
  | final
  deriving DecidableEq, Repr

/-- `struct http_response`, as far as `response_cb` reads it. A fragment lies in `recv_buf`. -/
structure HttpResponse where
  dataLen : Nat
  httpStatus : List UInt8
  bodyFragStart : Option Memory
  bodyFragLen : Nat
  inBuffer : bodyFragLen ≤ recvBufSize

/-- The fragment of the body. -/
def HttpResponse.fragment (rsp : HttpResponse) : List UInt8 :=
  match rsp.bodyFragStart with
  | none => []
  | some start => start.slice 0 rsp.bodyFragLen

def bodyFragment : List UInt8 := ascii "[HTTP] Body fragment: "

/-- The texts of a call, each with the line break that the format ends in. -/
def responseCb (rsp : HttpResponse) (finalData : HttpFinalCall) : List (List UInt8) :=
  let received := match finalData with
    | .more => ascii "[HTTP] Partial data received (" ++ decimal rsp.dataLen ++ ascii " bytes)\n"
    | .final => ascii "[HTTP] All data received (" ++ decimal rsp.dataLen ++ ascii " bytes)\n"
  let status := ascii "[HTTP] Status: " ++ rsp.httpStatus ++ ascii "\n"
  match rsp.bodyFragStart with
  | none => [received, status]
  | some start =>
      if 0 < rsp.bodyFragLen then
        -- "%.*s" stops at a NUL
        [received, status, bodyFragment ++ (start.slice 0 rsp.bodyFragLen).takeWhile (· != 0) ++ ascii "\n"]
      else [received, status]

/-! ## Connections -/

/-- What the calls of `connect_socket` return: `inet_pton`, with the address it stores, `socket` and `connect`;
and `errno` where one fails. -/
structure Outcomes where
  inetPton : Int
  sinAddr : UInt32
  socket : Int
  connect : Int
  errno : Int
  deriving DecidableEq, Repr

inductive HttpMethod where
  | get
  | post
  deriving DecidableEq, Repr

/-- `struct http_request`, as far as `main` sets it. -/
structure HttpRequest where
  method : HttpMethod
  url : List UInt8
  host : List UInt8
  protocol : List UInt8
  contentTypeValue : Option (List UInt8)
  payload : Option (List UInt8)
  payloadLen : Nat
  deriving DecidableEq, Repr

/-- A request as it was handed over: on which descriptor, and whether that was open and connected to whom. -/
structure Sent where
  sock : Int
  isOpen : Bool
  peer : Option SockaddrIn
  request : HttpRequest
  deriving DecidableEq, Repr

/-- The descriptors, `sock` and `server_addr` of `main`, the texts printed, and a history of the requests. -/
structure World where
  fds : Fds
  sock : Int
  serverAddr : SockaddrIn
  output : List (List UInt8)
  sent : List Sent

namespace World

def start (before : Int → Bool) (garbage : SockaddrIn) : World := ⟨⟨before, fun _ => none, []⟩, -1, garbage, [], []⟩

def printk (w : World) (texts : List (List UInt8)) : World := { w with output := w.output ++ texts }

def close (w : World) : World := { w with fds := w.fds.close w.sock }

end World

def setupSocket (server : List UInt8) (port : Int) (o : Outcomes) (w : World) : World × Int :=
  let w := { w with serverAddr := ⟨afInet, htons (UInt16.ofInt port), 0⟩ }
  if o.inetPton ≤ 0 then
    (w.printk [ascii "[ERR] Invalid IP address: " ++ server ++ ascii "\n"], -1)
  else
    let w := { w with serverAddr := { w.serverAddr with sinAddr := o.sinAddr } }
    -- *sock = socket(AF_INET, SOCK_STREAM, IPPROTO_TCP)
    let w := { w with sock := o.socket }
    if w.sock < 0 then
      (w.printk [ascii "[ERR] Failed to create socket (" ++ signed o.errno ++ ascii ")\n"], -1)
    else
      ({ w with fds := w.fds.openFd w.sock }, 0)

def connectSocket (server : List UInt8) (port : Int) (o : Outcomes) (w : World) : World × Int :=
  let (w, ret) := setupSocket server port o w
  if ret < 0 ∨ w.sock < 0 then (w, -1)
  else if o.connect < 0 then
    let w := w.printk [ascii "[ERR] Failed to connect (" ++ signed o.errno ++ ascii ")\n"]
    ({ w.close with sock := -1 }, -1)
  else
    ({ w with fds := w.fds.connect w.sock w.serverAddr }, 0)

/-! ## `main` -/

/-- `SERVER_IP` and `SERVER_PORT` -/
def serverIp : List UInt8 := ascii "192.168.1.1"

def serverPort : Int := 8000

def getRequest : HttpRequest := ⟨.get, ascii "/", serverIp, ascii "HTTP/1.1", none, none, 0⟩

def postPayload : List UInt8 := ascii "\x7b\"message\":\"Hello from Zephyr\",\"board\":\"STM32H573I-DK\"\x7d"

def postRequest : HttpRequest :=
  ⟨.post, ascii "/", serverIp, ascii "HTTP/1.1", some (ascii "application/json"), some postPayload,
    postPayload.length⟩

/-- What `http_client_req` does: the calls of `response_cb`, and what it returns. -/
structure Exchange where
  responses : List (HttpResponse × HttpFinalCall)
  ret : Int

def httpClientReq (req : HttpRequest) (e : Exchange) (w : World) : World × Int :=
  let handed : Sent := ⟨w.sock, w.fds.isOpen w.sock, w.fds.peer w.sock, req⟩
  let w := { w with sent := w.sent ++ [handed] }
  (w.printk (e.responses.flatMap fun r => responseCb r.1 r.2), e.ret)

/-- What `main` does twice with `req`: send it, report an error and close. -/
def request (name : List UInt8) (req : HttpRequest) (e : Exchange) (w : World) : World :=
  let w := w.printk [ascii "[HTTP] Sending " ++ name ++ ascii " request...\n"]
  let (w, ret) := httpClientReq req e w
  let w := if ret < 0 then w.printk [ascii "[ERR] HTTP client error " ++ signed ret ++ ascii "\n"] else w
  w.close

def greeting : List (List UInt8) :=
  [ascii "\n--- Zephyr HTTP Client Example ---\n",
    ascii "Connecting to " ++ serverIp ++ ascii ":" ++ signed serverPort ++ ascii "\n"]

/-- With `wait_for_network` behind it. -/
def main (get post : Outcomes) (getExchange postExchange : Exchange) (w : World) : World :=
  let (w, ret) := connectSocket serverIp serverPort get (w.printk greeting)
  if ret < 0 then w
  else
    let w := request (ascii "GET") getRequest getExchange w
    let (w, ret) := connectSocket serverIp serverPort post w
    if ret < 0 then w
    else
      let w := request (ascii "POST") postRequest postExchange w
      w.printk [ascii "[HTTP] Done.\n"]

/-! ## Descriptors -/

namespace Outcomes

/-- A socket is opened. -/
def Opens (o : Outcomes) : Prop := 0 < o.inetPton ∧ 0 ≤ o.socket

def Connects (o : Outcomes) : Prop := o.Opens ∧ 0 ≤ o.connect

instance (o : Outcomes) : Decidable o.Opens := inferInstanceAs (Decidable (_ ∧ _))

instance (o : Outcomes) : Decidable o.Connects := inferInstanceAs (Decidable (_ ∧ _))

/-- What is opened is closed. -/
def acts (o : Outcomes) : List FdAct := if o.Opens then [.opened o.socket, .closed o.socket] else []

def server (o : Outcomes) : SockaddrIn := ⟨afInet, htons (UInt16.ofInt serverPort), o.sinAddr⟩

/-- A request that goes out on an open descriptor to the server, if there is a connection. -/
def asks (o : Outcomes) (req : HttpRequest) : List Sent :=
  if o.Connects then [⟨o.socket, true, some o.server, req⟩] else []

end Outcomes

/-- How `connect_socket` ends. -/
inductive Connecting (o : Outcomes) (w : World) : Prop where
  | noSocket : ¬ o.Opens → (connectSocket serverIp serverPort o w).2 = -1 →
      (connectSocket serverIp serverPort o w).1.fds = w.fds → Connecting o w
  | refused : o.Opens → ¬ o.Connects → (connectSocket serverIp serverPort o w).2 = -1 →
      (connectSocket serverIp serverPort o w).1.fds = (w.fds.openFd o.socket).close o.socket → Connecting o w
  | connected : o.Connects → (connectSocket serverIp serverPort o w).2 = 0 →
      (connectSocket serverIp serverPort o w).1.fds = (w.fds.openFd o.socket).connect o.socket o.server →
      (connectSocket serverIp serverPort o w).1.sock = o.socket → Connecting o w

/-- **One call of `connect_socket`.** -/
theorem connectSocket_spec (o : Outcomes) (w : World) :
    Connecting o w ∧ (connectSocket serverIp serverPort o w).1.sent = w.sent := by
  by_cases haddr : o.inetPton ≤ 0
  · have hnot : ¬ o.Opens := fun h => absurd h.1 (by omega)
    refine ⟨.noSocket hnot ?_ ?_, ?_⟩ <;> simp [connectSocket, setupSocket, haddr, World.printk]
  by_cases hsocket : o.socket < 0
  · have hnot : ¬ o.Opens := fun h => absurd h.2 (by omega)
    refine ⟨.noSocket hnot ?_ ?_, ?_⟩ <;> simp [connectSocket, setupSocket, haddr, hsocket, World.printk]
  have hopens : o.Opens := ⟨by omega, by omega⟩
  by_cases hconnect : o.connect < 0
  · have hnot : ¬ o.Connects := fun h => absurd h.2 (by omega)
    refine ⟨.refused hopens hnot ?_ ?_, ?_⟩ <;>
      simp [connectSocket, setupSocket, haddr, hsocket, hconnect, World.printk, World.close]
  · refine ⟨.connected ⟨hopens, by omega⟩ ?_ ?_ ?_, ?_⟩ <;>
      simp [connectSocket, setupSocket, haddr, hsocket, hconnect, Outcomes.server]

theorem request_fds (name : List UInt8) (req : HttpRequest) (e : Exchange) (w : World) :
    (request name req e w).fds = w.fds.close w.sock ∧
      (request name req e w).sent = w.sent ++ [⟨w.sock, w.fds.isOpen w.sock, w.fds.peer w.sock, req⟩] := by
  unfold request httpClientReq
  dsimp only
  split <;> exact ⟨rfl, rfl⟩

/-- A connection and the request on it, as `main` makes them. -/
def ask (name : List UInt8) (req : HttpRequest) (o : Outcomes) (e : Exchange) (w : World) : World :=
  if (connectSocket serverIp serverPort o w).2 < 0 then (connectSocket serverIp serverPort o w).1
  else request name req e (connectSocket serverIp serverPort o w).1

theorem connectSocket_neg_iff (o : Outcomes) (w : World) :
    (connectSocket serverIp serverPort o w).2 < 0 ↔ ¬ o.Connects := by
  cases (connectSocket_spec o w).1 with
  | noSocket hnot hret _ => simp [hret, show ¬ o.Connects from fun h => hnot h.1]
  | refused _ hnot hret _ => simp [hret, hnot]
  | connected hyes hret _ _ => simp [hret, hyes]

/-- `main` asks twice. -/
theorem main_eq (get post : Outcomes) (getExchange postExchange : Exchange) (w : World) :
    main get post getExchange postExchange w =
      if get.Connects then
        (ask (ascii "POST") postRequest post postExchange
          (ask (ascii "GET") getRequest get getExchange (w.printk greeting))).printk
          (if post.Connects then [ascii "[HTTP] Done.\n"] else [])
      else ask (ascii "GET") getRequest get getExchange (w.printk greeting) := by
  have hget := connectSocket_neg_iff get (w.printk greeting)
  unfold main ask
  generalize connectSocket serverIp serverPort get (w.printk greeting) = r at *
  obtain ⟨w, ret⟩ := r
  dsimp only at hget ⊢
  by_cases hconnects : get.Connects
  · rw [if_pos hconnects, if_neg (fun h => hget.mp h hconnects), if_neg (fun h => hget.mp h hconnects)]
    have hpost := connectSocket_neg_iff post (request (ascii "GET") getRequest getExchange w)
    generalize connectSocket serverIp serverPort post (request (ascii "GET") getRequest getExchange w) = r at *
    obtain ⟨w, ret⟩ := r
    dsimp only at hpost ⊢
    by_cases hconnects' : post.Connects
    · rw [if_neg (fun h => hpost.mp h hconnects'), if_neg (fun h => hpost.mp h hconnects'), if_pos hconnects']
    · rw [if_pos (hpost.mpr hconnects'), if_pos (hpost.mpr hconnects'), if_neg hconnects']
      unfold World.printk
      rw [List.append_nil]
  · rw [if_neg hconnects, if_pos (hget.mpr hconnects), if_pos (hget.mpr hconnects)]

/-- **One connection.** -/
theorem ask_spec (name : List UInt8) (req : HttpRequest) {o : Outcomes} (e : Exchange) {w : World}
    (hfree : 0 ≤ o.socket → w.fds.isOpen o.socket = false) :
    (ask name req o e w).fds.isOpen = w.fds.isOpen ∧ (ask name req o e w).fds.acts = w.fds.acts ++ o.acts ∧
      (ask name req o e w).sent = w.sent ++ o.asks req := by
  obtain ⟨hconnecting, hsent⟩ := connectSocket_spec o w
  have hneg := connectSocket_neg_iff o w
  unfold ask Outcomes.acts Outcomes.asks
  cases hconnecting with
  | noSocket hnot hret hfds =>
      have hconnects : ¬ o.Connects := fun h => hnot h.1
      rw [if_pos (hneg.mpr hconnects), if_neg hnot, if_neg hconnects, hfds, hsent, List.append_nil, List.append_nil]
      exact ⟨rfl, rfl, rfl⟩
  | refused hopens hconnects hret hfds =>
      rw [if_pos (hneg.mpr hconnects), if_pos hopens, if_neg hconnects, hfds, hsent, List.append_nil]
      exact ⟨w.fds.isOpen_close_openFd (hfree hopens.2), List.append_assoc .., rfl⟩
  | connected hconnects hret hfds hsock =>
      obtain ⟨hclosed, hasked⟩ := request_fds name req e (connectSocket serverIp serverPort o w).1
      rw [if_neg (fun h => hneg.mp h hconnects), if_pos hconnects.1, if_pos hconnects, hclosed, hasked, hsent, hfds,
        hsock]
      refine ⟨w.fds.isOpen_close_openFd (hfree hconnects.1.2), List.append_assoc .., ?_⟩
      have hopen : ((w.fds.openFd o.socket).connect o.socket o.server).isOpen o.socket = true :=
        Function.update_self ..
      have hpeer : ((w.fds.openFd o.socket).connect o.socket o.server).peer o.socket = some o.server :=
        Function.update_self ..
      rw [hopen, hpeer]

/-- **The books of the client.** Whatever the calls return and the server answers: the descriptors that are open
afterwards are those that were open before; each one opened is closed once, before the next is opened and never
again; and each request goes out on a descriptor that is open and connected to the server, POST only after GET. -/
theorem client_books (before : Int → Bool) (garbage : SockaddrIn) (get post : Outcomes)
    (getExchange postExchange : Exchange) (hget : 0 ≤ get.socket → before get.socket = false)
    (hpost : 0 ≤ post.socket → before post.socket = false) :
    (main get post getExchange postExchange (.start before garbage)).fds.isOpen = before ∧
      (main get post getExchange postExchange (.start before garbage)).fds.acts =
        get.acts ++ (if get.Connects then post.acts else []) ∧
      (main get post getExchange postExchange (.start before garbage)).sent =
        get.asks getRequest ++ (if get.Connects then post.asks postRequest else []) := by
  obtain ⟨hopen, hacts, hsent⟩ := ask_spec (ascii "GET") getRequest getExchange
    (w := (World.start before garbage).printk greeting) hget
  rw [main_eq]
  by_cases hconnects : get.Connects
  · rw [if_pos hconnects, if_pos hconnects, if_pos hconnects]
    generalize ask (ascii "GET") getRequest get getExchange ((World.start before garbage).printk greeting) = w at *
    obtain ⟨hopen', hacts', hsent'⟩ := ask_spec (ascii "POST") postRequest postExchange (o := post) (w := w)
      (fun hpos => (congrFun hopen _).trans (hpost hpos))
    refine ⟨hopen'.trans hopen, ?_, ?_⟩
    · exact hacts'.trans (congrArg (· ++ post.acts) hacts)
    · exact hsent'.trans (congrArg (· ++ post.asks postRequest) hsent)
  · rw [if_neg hconnects, if_neg hconnects, if_neg hconnects, List.append_nil, List.append_nil]
    exact ⟨hopen, hacts, hsent⟩

/-- The descriptor of GET is handed out again for POST, and its connection is refused. -/
theorem client_books_refused :
    (main ⟨1, 0xc0a80101, 3, 0, 0⟩ ⟨1, 0xc0a80101, 3, -1, 111⟩ ⟨[], 1⟩ ⟨[], 1⟩
        (.start (fun _ => false) ⟨0, 0, 0⟩)).fds.acts = [.opened 3, .closed 3, .opened 3, .closed 3] ∧
      (main ⟨1, 0xc0a80101, 3, 0, 0⟩ ⟨1, 0xc0a80101, 3, -1, 111⟩ ⟨[], 1⟩ ⟨[], 1⟩
        (.start (fun _ => false) ⟨0, 0, 0⟩)).sent =
          [⟨3, true, some ⟨afInet, htons 8000, 0xc0a80101⟩, getRequest⟩] := by
  obtain ⟨-, hacts, hsent⟩ := client_books (fun _ => false) ⟨0, 0, 0⟩ ⟨1, 0xc0a80101, 3, 0, 0⟩
    ⟨1, 0xc0a80101, 3, -1, 111⟩ ⟨[], 1⟩ ⟨[], 1⟩ (fun _ => rfl) (fun _ => rfl)
  rw [hacts, hsent]
  exact ⟨by decide, by decide⟩

/-! ## The body as it is printed -/

/-- What a text tells of the body: what stands between `[HTTP] Body fragment: ` and the line break. -/
def bodyOf (text : List UInt8) : List UInt8 :=
  if bodyFragment.isPrefixOf text then (text.drop bodyFragment.length).dropLast else []

def printedBody (output : List (List UInt8)) : List UInt8 := output.flatMap bodyOf

theorem bodyOf_bodyFragment (bs : List UInt8) : bodyOf (bodyFragment ++ bs ++ ascii "\n") = bs := by
  have hbegins : bodyFragment.isPrefixOf (bodyFragment ++ bs ++ ascii "\n") = true := by
    rw [List.isPrefixOf_iff_prefix, List.append_assoc]
    exact List.prefix_append _ _
  unfold bodyOf
  rw [if_pos hbegins, List.append_assoc, List.drop_left]
  exact List.dropLast_concat

/-- The eighth character tells. -/
theorem bodyOf_append {head : List UInt8} (h : head[7]?.any (· != 66) = true) (rest : List UInt8) :
    bodyOf (head ++ rest) = [] := by
  unfold bodyOf
  rw [if_neg]
  rw [List.isPrefixOf_iff_prefix]
  rintro ⟨after, heq⟩
  obtain ⟨b, hb, hne⟩ := (Option.any_eq_true _ _).mp h
  have hread : (bodyFragment ++ after)[7]? = some b := by
    rw [heq, List.getElem?_append_left (List.getElem?_eq_some_iff.mp hb).1, hb]
  have hsame : (66 : UInt8) = b := Option.some.inj hread
  simp [hsame] at hne

theorem printedBody_append (before after : List (List UInt8)) :
    printedBody (before ++ after) = printedBody before ++ printedBody after := List.flatMap_append

theorem printedBody_of_forall {texts : List (List UInt8)} (h : ∀ text ∈ texts, bodyOf text = []) :
    printedBody texts = [] := List.flatMap_eq_nil_iff.mpr h

/-- **One call of `response_cb`.** -/
theorem printedBody_responseCb (rsp : HttpResponse) (finalData : HttpFinalCall) :
    printedBody (responseCb rsp finalData) = rsp.fragment.takeWhile (· != 0) := by
  have hlines (fragment : List (List UInt8)) :
      printedBody ((match finalData with
        | .more => ascii "[HTTP] Partial data received (" ++ decimal rsp.dataLen ++ ascii " bytes)\n"
        | .final => ascii "[HTTP] All data received (" ++ decimal rsp.dataLen ++ ascii " bytes)\n") ::
        (ascii "[HTTP] Status: " ++ rsp.httpStatus ++ ascii "\n") :: fragment) = printedBody fragment := by
    unfold printedBody
    rw [List.flatMap_cons, List.flatMap_cons, List.append_assoc (ascii "[HTTP] Status: "), bodyOf_append (by decide)]
    cases finalData with
    | more => rw [List.append_assoc (ascii "[HTTP] Partial data received ("), bodyOf_append (by decide), List.nil_append, List.nil_append]
    | final => rw [List.append_assoc (ascii "[HTTP] All data received ("), bodyOf_append (by decide), List.nil_append, List.nil_append]
  unfold responseCb HttpResponse.fragment
  cases rsp.bodyFragStart with
  | none => exact hlines []
  | some start =>
      dsimp only
      by_cases hlen : 0 < rsp.bodyFragLen
      · rw [if_pos hlen, hlines]
        unfold printedBody
        rw [List.flatMap_singleton, bodyOf_bodyFragment]
      · have hzero : rsp.bodyFragLen = 0 := by omega
        rw [if_neg hlen, hlines, hzero]
        rfl

/-- The calls of `response_cb` for one request. -/
theorem printedBody_flatMap (responses : List (HttpResponse × HttpFinalCall)) :
    printedBody (responses.flatMap fun r => responseCb r.1 r.2) =
      responses.flatMap fun r => r.1.fragment.takeWhile (· != 0) := by
  unfold printedBody
  rw [List.flatMap_assoc]
  congr 1
  funext r
  exact printedBody_responseCb r.1 r.2

/-- Connecting prints nothing of a body. -/
theorem printedBody_connectSocket (o : Outcomes) (w : World) :
    printedBody (connectSocket serverIp serverPort o w).1.output = printedBody w.output := by
  have hprint {text : List UInt8} (h : bodyOf text = []) :
      printedBody (w.output ++ [text]) = printedBody w.output := by
    rw [printedBody_append, @printedBody_of_forall [text] (by simpa using h), List.append_nil]
  by_cases haddr : o.inetPton ≤ 0
  · simp only [connectSocket, setupSocket, haddr, World.printk, if_true, List.append_assoc]
    exact hprint (bodyOf_append (by decide) _)
  by_cases hsocket : o.socket < 0
  · simp only [connectSocket, setupSocket, haddr, hsocket, World.printk, if_true, if_false, List.append_assoc]
    exact hprint (bodyOf_append (by decide) _)
  by_cases hconnect : o.connect < 0
  · simp only [connectSocket, setupSocket, haddr, hsocket, hconnect, World.printk, World.close, if_true, if_false,
      List.append_assoc]
    exact hprint (bodyOf_append (by decide) _)
  · simp only [connectSocket, setupSocket, haddr, hsocket, hconnect, if_false]
    rfl

theorem printedBody_request (name : List UInt8) (req : HttpRequest) (e : Exchange) (w : World) :
    printedBody (request name req e w).output =
      printedBody w.output ++ e.responses.flatMap fun r => r.1.fragment.takeWhile (· != 0) := by
  have hsending : printedBody [ascii "[HTTP] Sending " ++ name ++ ascii " request...\n"] = [] := by
    rw [List.append_assoc]
    exact printedBody_of_forall (by simpa using bodyOf_append (by decide) _)
  have herror : printedBody [ascii "[ERR] HTTP client error " ++ signed e.ret ++ ascii "\n"] = [] := by
    rw [List.append_assoc]
    exact printedBody_of_forall (by simpa using bodyOf_append (by decide) _)
  have houtput : (request name req e w).output =
      w.output ++ [ascii "[HTTP] Sending " ++ name ++ ascii " request...\n"] ++
        (e.responses.flatMap fun r => responseCb r.1 r.2) ++
        (if e.ret < 0 then [ascii "[ERR] HTTP client error " ++ signed e.ret ++ ascii "\n"] else []) := by
    unfold request httpClientReq
    dsimp only
    split_ifs
    · rfl
    · exact (List.append_nil _).symm
  rw [houtput, printedBody_append, printedBody_append, printedBody_append, hsending, List.append_nil,
    printedBody_flatMap]
  split_ifs
  · rw [herror, List.append_nil]
  · exact List.append_nil _

theorem printedBody_ask (name : List UInt8) (req : HttpRequest) (o : Outcomes) (e : Exchange) (w : World) :
    printedBody (ask name req o e w).output = printedBody w.output ++
      (if o.Connects then e.responses else []).flatMap fun r => r.1.fragment.takeWhile (· != 0) := by
  have hneg := connectSocket_neg_iff o w
  unfold ask
  by_cases hconnects : o.Connects
  · rw [if_neg (fun h => hneg.mp h hconnects), if_pos hconnects, printedBody_request, printedBody_connectSocket]
  · rw [if_pos (hneg.mpr hconnects), if_neg hconnects, printedBody_connectSocket]
    exact (List.append_nil _).symm

/-- All calls of `response_cb`. -/
def responses (get post : Outcomes) (getExchange postExchange : Exchange) : List (HttpResponse × HttpFinalCall) :=
  if get.Connects then getExchange.responses ++ (if post.Connects then postExchange.responses else []) else []

theorem printedBody_main (before : Int → Bool) (garbage : SockaddrIn) (get post : Outcomes)
    (getExchange postExchange : Exchange) :
    printedBody (main get post getExchange postExchange (.start before garbage)).output =
      (responses get post getExchange postExchange).flatMap fun r => r.1.fragment.takeWhile (· != 0) := by
  have hgreeting : printedBody ((World.start before garbage).printk greeting).output = [] := by
    apply printedBody_of_forall
    intro text htext
    rcases List.mem_cons.mp (show text ∈ greeting from htext) with rfl | htext
    · decide
    · rw [List.mem_singleton.mp htext, List.append_assoc, List.append_assoc]
      exact bodyOf_append (by decide) _
  have hdone : printedBody (if post.Connects then [ascii "[HTTP] Done.\n"] else []) = [] := by
    apply printedBody_of_forall
    intro text htext
    split at htext
    · rw [List.mem_singleton.mp htext]
      decide
    · cases htext
  rw [main_eq]
  unfold responses
  by_cases hconnects : get.Connects
  · rw [if_pos hconnects, if_pos hconnects]
    show printedBody ((ask _ _ _ _ _).output ++ _) = _
    rw [printedBody_append, hdone, printedBody_ask, printedBody_ask, hgreeting, if_pos hconnects,
      List.flatMap_append, List.append_nil]
    rfl
  · rw [if_neg hconnects, if_neg hconnects, printedBody_ask, hgreeting, if_neg hconnects]
    rfl

/-- **The body can be read back.** Whatever the calls return, and into whatever fragments the bodies come: what
the texts tell of them, put together, is the bodies that were received, if and only if there is no NUL in them. -/
theorem printedBody_eq_iff (before : Int → Bool) (garbage : SockaddrIn) (get post : Outcomes)
    (getExchange postExchange : Exchange) :
    printedBody (main get post getExchange postExchange (.start before garbage)).output =
        ((responses get post getExchange postExchange).flatMap fun r => r.1.fragment) ↔
      0 ∉ (responses get post getExchange postExchange).flatMap fun r => r.1.fragment := by
  rw [printedBody_main, Pieces.flatMap_eq_iff fun r _ => List.takeWhile_sublist _, List.mem_flatMap]
  simp only [not_exists, not_and]
  refine forall₂_congr fun r _ => ?_
  rw [List.takeWhile_eq_self_iff]
  constructor
  · intro hall hnul
    exact absurd (hall 0 hnul) (by decide)
  · intro hnul b hb
    rw [bne_iff_ne]
    rintro rfl
    exact hnul hb

end ZephyrSamples.Net.HttpClient
