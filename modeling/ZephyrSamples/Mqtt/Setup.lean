/-
# ZephyrSamples.Mqtt.Setup -- `app_mqtt_init` and the name of the client

`app_mqtt_init` resolves the name of the broker, makes up a client identifier from the name of the board and a
random byte, and fills in the client object, with TLS as the sample is configured. What `getaddrinfo`,
`sys_rand32_get` and `tls_credential_add` return is up to the environment.

It succeeds exactly when each of them does, frees the result exactly when there is one, and what it stores as the
size of the identifier is its length (`appMqttInit_spec`). The identifier never overruns its buffer; that two
clients of one board have different identifiers unless their random bytes are equal is true of board names up to
46 characters and of no longer ones (`clientIds_distinct_iff`).
-/
import ZephyrSamples.Lib.Text
import ZephyrSamples.Mqtt.Config

namespace ZephyrSamples.Mqtt.Setup

open ZephyrSamples.Lib
open ZephyrSamples.Lib.CString
open ZephyrSamples.Lib.Text

/-! ## The identifier -/

/-- `sizeof(client_id)` -/
def clientIdSize : Nat := 50

/-- `%x` -/
def hex (n : Nat) : List UInt8 := (Nat.toDigits 16 n).map Text.charCode

/-- `CONFIG_BOARD "_%x"` with `(uint8_t)sys_rand32_get()`. -/
def clientIdText (board : List UInt8) (rand : UInt32) : List UInt8 := board ++ 95 :: hex rand.toUInt8.toNat

/-- What the buffer holds of it. -/
def clientId (board : List UInt8) (rand : UInt32) : List UInt8 :=
  (snprintf clientIdSize (clientIdText board rand)).1

/-- `init_mqtt_client_id` -/
def initMqttClientId (buf : Memory) (board : List UInt8) (rand : UInt32) : Memory :=
  buf.blit 0 (clientId board rand ++ [0])

/-! ## `app_mqtt_init` -/

/-- `MQTT_BROKER_HOSTNAME` -/
def mqttBrokerHostname : String := "test.mosquitto.org"

/-- `APP_CA_CERT_TAG` -/
def appCaCertTag : Nat := 1

def EIO : Int := 5
def ENOENT : Int := 2

/-- The address of the first result of `getaddrinfo`. -/
structure AddrInfo where
  sinAddr : UInt32
  sinPort : UInt16
  deriving DecidableEq, Repr

/-- What the environment returns; `rand` is the next random number. -/
structure Outcome where
  getaddrinfo : Int
  gaiStrerror : String
  result : Option AddrInfo
  rand : UInt32
  tlsCredentialAdd : Int

inductive InitAct where
  | getaddrinfo
  | freeaddrinfo
  | mqttClientInit
  | tlsCredentialAdd (tag : Nat)
  deriving DecidableEq, Repr

/-- `struct mqtt_sec_config`; `peerVerify` is `TLS_PEER_VERIFY_REQUIRED`. -/
structure TlsConfig where
  peerVerify : Bool
  secTagList : List Nat
  hostname : Option String
  deriving DecidableEq, Repr

/-- What is stored in the client object. -/
structure ClientConfig where
  broker : AddrInfo
  clientIdSize : Nat
  password : Option String
  userName : Option String
  rxBufSize : Nat
  txBufSize : Nat
  secure : Bool
  tls : Option TlsConfig
  deriving DecidableEq, Repr

/-- The statics and the client object, and a history. -/
structure Statics where
  broker : Option AddrInfo
  clientId : Memory
  client : Option ClientConfig
  acts : List InitAct
  printed : List String

/-- `inet_ntop` of an address in network order. -/
def inetNtop (addr : UInt32) : String :=
  let byte (k : UInt32) := toString ((addr >>> (8 * k)) % 256)
  byte 0 ++ "." ++ byte 1 ++ "." ++ byte 2 ++ "." ++ byte 3

/-- `app_mqtt_init`: what it returns, and what it leaves. -/
def appMqttInit (board : List UInt8) (s : Statics) (env : Outcome) : Int × Statics :=
  let s := { s with acts := s.acts ++ [InitAct.getaddrinfo] }
  if env.getaddrinfo ≠ 0 then
    (- EIO, { s with printed := s.printed ++ ["Failed to resolve broker hostname [" ++ env.gaiStrerror ++ "]\n"] })
  else
    match env.result with
    | none => (-ENOENT, { s with printed := s.printed ++ ["Broker address not found\n"] })
    | some info =>
        let buf := initMqttClientId s.clientId board env.rand
        let client : ClientConfig :=
          { broker := info
            clientIdSize := strlen (buf.slice 0 clientIdSize)
            password := none
            userName := none
            rxBufSize := mqttPayloadSize
            txBufSize := mqttPayloadSize
            secure := true
            tls := none }
        let s := { s with
          broker := some info
          clientId := buf
          client := some client
          acts := s.acts ++ [InitAct.freeaddrinfo, .mqttClientInit, .tlsCredentialAdd appCaCertTag]
          printed := s.printed ++ ["Connecting to MQTT broker @ " ++ inetNtop info.sinAddr ++ "\n"] }
        if env.tlsCredentialAdd ≠ 0 then
          let why :=
            if env.tlsCredentialAdd < 0 then
              ["Failed to register public certificate: " ++ toString env.tlsCredentialAdd ++ "\n"]
            else []
          (env.tlsCredentialAdd, { s with printed := s.printed ++ why ++ ["TLS init error\n"] })
        else
          let tls : TlsConfig := ⟨true, [appCaCertTag], some mqttBrokerHostname⟩
          (0, { s with client := some { client with tls := some tls } })

/-! ## What the identifier is -/

section Hex

theorem hex_of_lt {n : Nat} (h : n < 16) : hex n = [Text.charCode n.digitChar] := by
  unfold hex
  rw [Nat.toDigits_of_lt_base h]
  rfl

theorem hex_of_ge {n : Nat} (h16 : 16 ≤ n) (h : n < 256) :
    hex n = [Text.charCode (n / 16).digitChar, Text.charCode (n % 16).digitChar] := by
  unfold hex
  rw [Nat.toDigits_of_base_le (by omega) h16, Nat.toDigits_of_lt_base (by omega)]
  rfl

theorem digit_ne_zero {d : Nat} (h : d < 16) : Text.charCode d.digitChar ≠ 0 := by
  revert d
  decide

theorem digit_inj {a b : Nat} (ha : a < 16) (hb : b < 16)
    (h : Text.charCode a.digitChar = Text.charCode b.digitChar) : a = b := by
  revert h
  revert b
  revert a
  decide

/-- One digit or two. -/
theorem hex_cases (n : UInt8) :
    (n.toNat < 16 ∧ hex n.toNat = [Text.charCode n.toNat.digitChar]) ∨
      (16 ≤ n.toNat ∧ hex n.toNat = [Text.charCode (n.toNat / 16).digitChar, Text.charCode (n.toNat % 16).digitChar]) := by
  rcases Nat.lt_or_ge n.toNat 16 with h | h
  · exact Or.inl ⟨h, hex_of_lt h⟩
  · exact Or.inr ⟨h, hex_of_ge h n.toNat_lt⟩

theorem length_hex_le (n : UInt8) : (hex n.toNat).length ≤ 2 := by
  rcases hex_cases n with ⟨-, h⟩ | ⟨-, h⟩ <;> rw [h] <;> simp

theorem zero_not_mem_hex (n : UInt8) : 0 ∉ hex n.toNat := by
  have hlt := n.toNat_lt
  rcases hex_cases n with ⟨hdigit, h⟩ | ⟨-, h⟩
  · rw [h, List.mem_singleton]
    exact (digit_ne_zero hdigit).symm
  · rw [h, List.mem_cons, List.mem_singleton]
    rintro (hmem | hmem)
    · exact digit_ne_zero (by omega) hmem.symm
    · exact digit_ne_zero (by omega) hmem.symm

theorem hex_inj {m n : UInt8} (h : hex m.toNat = hex n.toNat) : m = n := by
  have hm := m.toNat_lt
  have hn := n.toNat_lt
  apply UInt8.toNat_inj.mp
  rcases hex_cases m with ⟨hm16, hm'⟩ | ⟨hm16, hm'⟩ <;> rcases hex_cases n with ⟨hn16, hn'⟩ | ⟨hn16, hn'⟩ <;>
    rw [hm', hn'] at h
  · exact digit_inj hm16 hn16 (List.cons.inj h).1
  · exact nomatch (List.cons.inj h).2
  · exact nomatch (List.cons.inj h).2
  · obtain ⟨hhigh, hrest⟩ := List.cons.inj h
    have hq := digit_inj (by omega) (by omega) hhigh
    have hr := digit_inj (by omega) (by omega) (List.cons.inj hrest).1
    omega

end Hex

theorem zero_not_mem_clientId {board : List UInt8} (hboard : 0 ∉ board) (rand : UInt32) : 0 ∉ clientId board rand := by
  intro hmem
  have htext : 0 ∈ clientIdText board rand := List.mem_of_mem_take hmem
  rcases List.mem_append.mp htext with hmem | hmem
  · exact hboard hmem
  · rcases List.mem_cons.mp hmem with hzero | hmem
    · cases hzero
    · exact zero_not_mem_hex _ hmem

theorem length_clientId_lt (board : List UInt8) (rand : UInt32) : (clientId board rand).length < clientIdSize :=
  Nat.lt_of_le_of_lt (List.length_take_le _ _) (Nat.lt_succ_self 49)

/-- The buffer holds the identifier, and what lies behind it is left alone. -/
theorem reads_initMqttClientId {board : List UInt8} (hboard : 0 ∉ board) (buf : Memory) (rand : UInt32) :
    Reads (initMqttClientId buf board rand) (clientId board rand) ∧
      ∀ i, clientIdSize ≤ i → initMqttClientId buf board rand i = buf i := by
  have hlt := length_clientId_lt board rand
  refine ⟨⟨?_, zero_not_mem_clientId hboard rand⟩, ?_⟩
  · rw [CString.isString_iff]
    constructor
    · intro i hi
      have hread := blit_add buf 0 (clientId board rand ++ [0]) i (by rw [List.length_append]; omega)
      rw [Nat.zero_add] at hread
      rw [initMqttClientId, hread, List.getElem_append_left hi]
    · have hread := blit_add buf 0 (clientId board rand ++ [0]) (clientId board rand).length
        (by rw [List.length_append, List.length_singleton]; omega)
      rw [Nat.zero_add] at hread
      rw [initMqttClientId, hread]
      simp
  · intro i hi
    apply blit_of_ge
    rw [List.length_append, List.length_singleton]
    omega

/-- **When identifiers differ.** The identifiers of one board say their random bytes, for each two of them, exactly
when the name of the board has at most 46 characters. -/
theorem clientIds_distinct_iff (board : List UInt8) :
    (∀ rand rand', clientId board rand = clientId board rand' → rand.toUInt8 = rand'.toUInt8) ↔
      board.length ≤ 46 := by
  constructor
  · intro hdistinct
    by_contra hlong
    have heq : clientId board 1 = clientId board 16 := by
      show (board ++ 95 :: [49]).take 49 = (board ++ 95 :: [49, 48]).take 49
      have hlen : 49 - board.length ≤ 2 := by omega
      rw [List.take_append, List.take_append]
      apply congrArg (board.take 49 ++ ·)
      generalize 49 - board.length = n at hlen
      rcases n with _ | _ | _ | n
      · rfl
      · rfl
      · rfl
      · omega
    have hbytes := hdistinct 1 16 heq
    cases hbytes
  · intro hshort rand rand' heq
    have hwhole : ∀ r, clientId board r = clientIdText board r := by
      intro r
      have hlen := length_hex_le r.toUInt8
      apply List.take_of_length_le
      unfold clientIdText
      rw [List.length_append, List.length_cons]
      show board.length + ((hex r.toUInt8.toNat).length + 1) ≤ 50 - 1
      omega
    rw [hwhole, hwhole] at heq
    exact hex_inj (List.cons.inj (List.append_cancel_left heq)).2

/-! ## What the function leaves -/

theorem strlen_slice {m : Memory} {str : List UInt8} (h : Reads m str) {n : Nat} (hn : str.length < n) :
    strlen (m.slice 0 n) = str.length := by
  obtain ⟨hstr, hnul⟩ := h
  obtain ⟨hread, hend⟩ := (CString.isString_iff m str).mp hstr
  have hslice : m.slice 0 n = str ++ m.slice str.length (n - str.length) := by
    have hsplit := slice_add m 0 str.length (n - str.length)
    rw [Nat.zero_add, Nat.add_sub_cancel' (Nat.le_of_lt hn)] at hsplit
    rw [hsplit]
    apply congrArg (· ++ m.slice str.length (n - str.length))
    apply List.ext_getElem
    · exact length_slice m 0 str.length
    · intro i hi hi'
      rw [← hread i hi']
      simp [Memory.slice]
  have hzero : m.slice str.length (n - str.length) = 0 :: m.slice (str.length + 1) (n - str.length - 1) := by
    rw [← hend, ← slice_succ]
    congr 1
    omega
  have htake : str.takeWhile (· != 0) = str := by
    rw [List.takeWhile_eq_self_iff]
    intro b hb
    rw [bne_iff_ne]
    rintro rfl
    exact hnul hb
  unfold strlen
  rw [hslice, hzero, List.takeWhile_append, htake, if_pos rfl, List.takeWhile_cons_of_neg (by simp), List.append_nil]

/-- The cases of the function. -/
theorem appMqttInit_cases (board : List UInt8) (s : Statics) (env : Outcome) :
    ((env.getaddrinfo ≠ 0 ∨ env.result = none) ∧ (appMqttInit board s env).1 ≠ 0 ∧
        (appMqttInit board s env).2.acts = s.acts ++ [.getaddrinfo] ∧
        (appMqttInit board s env).2.client = s.client ∧ (appMqttInit board s env).2.clientId = s.clientId) ∨
      ∃ info, env.getaddrinfo = 0 ∧ env.result = some info ∧
        (appMqttInit board s env).1 = env.tlsCredentialAdd ∧
        (appMqttInit board s env).2.acts =
          s.acts ++ [.getaddrinfo, .freeaddrinfo, .mqttClientInit, .tlsCredentialAdd appCaCertTag] ∧
        (appMqttInit board s env).2.clientId = initMqttClientId s.clientId board env.rand ∧
        ∃ client, (appMqttInit board s env).2.client = some client ∧ client.broker = info ∧
          client.clientIdSize = strlen ((initMqttClientId s.clientId board env.rand).slice 0 clientIdSize) ∧
          client.tls = if env.tlsCredentialAdd = 0 then some ⟨true, [appCaCertTag], some mqttBrokerHostname⟩ else none := by
  by_cases hrc : env.getaddrinfo = 0
  · rcases hresult : env.result with _ | info
    · refine Or.inl ⟨Or.inr rfl, ?_⟩
      simp only [appMqttInit, hrc, ne_eq, not_true_eq_false, if_false, hresult]
      exact ⟨nofun, trivial, trivial, trivial⟩
    · refine Or.inr ⟨info, hrc, rfl, ?_⟩
      by_cases htls : env.tlsCredentialAdd = 0
      · simp only [appMqttInit, hrc, ne_eq, not_true_eq_false, if_false, hresult, htls, if_true]
        exact ⟨trivial, List.append_assoc _ _ _, trivial, _, rfl, rfl, rfl, rfl⟩
      · simp only [appMqttInit, hrc, ne_eq, not_true_eq_false, if_false, hresult, htls, not_false_eq_true, if_true]
        exact ⟨trivial, List.append_assoc _ _ _, trivial, _, rfl, rfl, rfl, rfl⟩
  · refine Or.inl ⟨Or.inl hrc, ?_⟩
    simp only [appMqttInit, hrc, ne_eq, not_false_eq_true, if_true]
    exact ⟨nofun, trivial, trivial, trivial⟩

/-- **What `app_mqtt_init` does**, whatever the calls return. It returns 0 exactly when each of them succeeds. The
result of the name resolution is freed once where there is one and else not at all. Where it returns 0 the client
has its broker, an identifier that ends within its buffer and is as long as its size says, and the settings for
TLS; where it does not, no client has such settings through this call. -/
theorem appMqttInit_spec {board : List UInt8} (hboard : 0 ∉ board) (s : Statics) (env : Outcome)
    (hclient : s.client = none) :
    let r := appMqttInit board s env
    (r.1 = 0 ↔ env.getaddrinfo = 0 ∧ env.result ≠ none ∧ env.tlsCredentialAdd = 0) ∧
      r.2.acts.count .freeaddrinfo =
        s.acts.count .freeaddrinfo + (if env.getaddrinfo = 0 ∧ env.result ≠ none then 1 else 0) ∧
      (r.1 = 0 → ∃ client, r.2.client = some client ∧ env.result = some client.broker ∧
        Reads r.2.clientId (clientId board env.rand) ∧
        client.clientIdSize = (clientId board env.rand).length ∧ client.clientIdSize < clientIdSize ∧
        client.tls = some ⟨true, [appCaCertTag], some mqttBrokerHostname⟩) ∧
      (r.1 ≠ 0 → ∀ client, r.2.client = some client → client.tls = none) := by
  intro r
  rcases appMqttInit_cases board s env with ⟨hfail, hrc, hacts, hsame, -⟩ |
      ⟨info, hrc, hresult, hret, hacts, hbuf, client, hnew, hbroker, hsize, htls⟩
  · have hnot : ¬ (env.getaddrinfo = 0 ∧ env.result ≠ none) := by
      rintro ⟨hzero, hsome⟩
      exact hfail.elim (fun h => h hzero) hsome
    refine ⟨⟨fun h => absurd h hrc, fun h => absurd ⟨h.1, h.2.1⟩ hnot⟩, ?_, fun h => absurd h hrc, ?_⟩
    · show (appMqttInit board s env).2.acts.count _ = _
      rw [hacts, if_neg hnot, List.count_append]
      rfl
    · intro _ client hsome
      have heq : (appMqttInit board s env).2.client = some client := hsome
      rw [hsame, hclient] at heq
      cases heq
  · have hsome : env.result ≠ none := by
      rw [hresult]
      nofun
    have hreads := (reads_initMqttClientId hboard s.clientId env.rand).1
    have hlt := length_clientId_lt board env.rand
    have hlen : client.clientIdSize = (clientId board env.rand).length := by
      rw [hsize]
      exact strlen_slice hreads hlt
    refine ⟨?_, ?_, ?_, ?_⟩
    · show (appMqttInit board s env).1 = 0 ↔ _
      rw [hret]
      exact ⟨fun h => ⟨hrc, hsome, h⟩, fun h => h.2.2⟩
    · show (appMqttInit board s env).2.acts.count _ = _
      rw [hacts, if_pos ⟨hrc, hsome⟩, List.count_append]
      rfl
    · intro hzero
      have htlsRc : env.tlsCredentialAdd = 0 := hret.symm.trans hzero
      refine ⟨client, hnew, ?_, ?_, hlen, ?_, ?_⟩
      · rw [hresult, hbroker]
      · show Reads (appMqttInit board s env).2.clientId _
        rw [hbuf]
        exact hreads
      · rw [hlen]
        exact hlt
      · rw [htls, if_pos htlsRc]
    · intro hne client' hsome'
      have heq : some client = some client' := hnew.symm.trans hsome'
      rw [← Option.some.inj heq, htls]
      apply if_neg
      intro hzero
      exact hne (hret.trans hzero)

/-- The address of the broker is found, and its certificate registered. -/
def found : Outcome := ⟨0, "", some ⟨0x0100007F, 8883⟩, 7, 0⟩

def boot : Statics := ⟨none, fun _ => 0, none, [], []⟩

theorem appMqttInit_spec_found :
    ((appMqttInit (ascii "nucleo") boot found).1 = 0 ↔ True) ∧
      ∃ client, (appMqttInit (ascii "nucleo") boot found).2.client = some client ∧ client.clientIdSize = 8 := by
  have hboard : (0 : UInt8) ∉ ascii "nucleo" := by decide
  obtain ⟨hiff, -, hok, -⟩ := appMqttInit_spec hboard boot found rfl
  have hzero := hiff.mpr ⟨rfl, nofun, rfl⟩
  obtain ⟨client, hclient, -, -, hsize, -⟩ := hok hzero
  exact ⟨⟨fun _ => trivial, fun _ => hzero⟩, client, hclient, hsize⟩

end ZephyrSamples.Mqtt.Setup
