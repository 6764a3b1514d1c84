import Mtransaction.Server.Auth
import Mtransaction.Server.BalancerRuns

/-!
# The JSON-RPC server

`server/rpc_server.rs`: the meta extractor, which reads the `Authorization` header before the method
is called, and the methods.  `unwrap` on what a library reports as malformed is a panic.
-/

namespace Mtransaction

/-! ## Requests and answers -/

/-- A header value as `http` accepts it: visible bytes, tabs, and everything from 128 on. -/
structure HeaderValue where
  bytes : List UInt8
  valid : ∀ b ∈ bytes, 32 ≤ b ∧ b ≠ 127 ∨ b = 9

structure SendPriorityTransactionConfig where
  skipPreflight : Option Bool
  deriving DecidableEq, Repr

/-- Of a decoded transaction only the signatures are read. -/
structure VersionedTransaction where
  signatures : List Signature
  deriving DecidableEq, Repr

inductive ErrorCode
  | invalidParams
  | internalError
  | serverError (code : Int)
  deriving DecidableEq, Repr

structure RpcError where
  code : ErrorCode
  message : String
  deriving DecidableEq, Repr

def packetDataSize : ℕ := 1232

/-- What the handlers use of other crates.  Each reports malformed input. -/
structure Crates where
  /-- `HeaderValue::to_str` -/
  toStr : HeaderValue → Except String String
  verifyWithKey : PublicKey → String → Except String JWT
  /-- `base64::decode` -/
  base64Decode : String → Except String (List UInt8)
  /-- `bincode` with a limit, fixed-width integers and trailing bytes allowed -/
  deserialize : ℕ → List UInt8 → Except String VersionedTransaction
  /-- `Signature::to_string`, its base58 text -/
  signatureToString : Signature → String

/-- The server's options.  `partners` is empty when there are no test partners. -/
structure RpcConfig where
  publicKey : Option PublicKey
  partners : List String

structure RpcState where
  auth : Except String Auth
  reqId : ℕ
  mode : Mode

structure RequestEnv where
  ctime : UInt64
  createdAt : ℕ
  rtime : UInt64
  publish : PublishEnv

/-- These draws, on channels that accept everything. -/
def RequestEnv.drawing (o : HashOrder (String × TxConsumer)) (rng : Rng) : RequestEnv :=
  ⟨0, 0, 0, o, rng, .stored, fun _ _ => true, true⟩

/-- The answer of a handler, with the effects of `publish` if it got that far. -/
structure Handled where
  result : Except RpcError String
  balancer : Balancer
  delivered : List (ConnId × ResponseMessageEnvelope)
  watched : List SignatureRecord

def Handled.early (b : Balancer) (result : Except RpcError String) : Handled := ⟨result, b, [], []⟩

/-- The answer to what `publish` returned. -/
def Handled.ofPublished (signature : String) (published : Published) : Handled where
  result :=
    match published.result with
    | .ok () => .ok signature
    | .error _ => .error ⟨.internalError, "Failed to forward the transaction"⟩
  balancer := published.balancer
  delivered := published.delivered
  watched := published.watched

/-! ## The handlers -/

/-- `coin` is `rng.gen::<bool>()`. -/
def selectMode (auth : Option Auth) (partners : List String) (coin : Bool) : Mode :=
  match auth with
  -- half of the traffic of test partners is not forwarded
  | some auth => if auth.toString ∈ partners ∧ coin then .blackhole else .forward
  | none => .forward

def checkConfig : Option SendPriorityTransactionConfig → Except RpcError Unit
  | some ⟨some true⟩ => .ok ()
  | some ⟨some false⟩ => .error ⟨.invalidParams, "skipPreflight must be true"⟩
  | some ⟨none⟩ => .error ⟨.invalidParams, "skipPreflight is mandatory"⟩
  | none => .error ⟨.invalidParams, "config options are mandatory"⟩

def getHealth (gauges : Gauges) : Except RpcError Unit :=
  if gauges.totalConnectedTxConsumers = 0 then
    .error ⟨.serverError 503, "No connected tx consumers"⟩
  else .ok ()

section Handlers

variable (crates : Crates)

def authHeader (authorization : Option HeaderValue) : Except Panic (Option String) :=
  match authorization with
  | none => .ok none
  | some headerValue =>
    match crates.toStr headerValue with
    | .ok header => .ok (some header)
    -- `to_str().unwrap()`
    | .error _ => .error .headerNotText

def metaExtractor (config : RpcConfig) (reqId : ℕ) (coin : Bool)
    (authorization : Option HeaderValue) : Except Panic RpcState :=
  match authHeader crates authorization with
  | .error panic => .error panic
  | .ok header =>
    match config.publicKey with
    | some publicKey =>
      let auth := authenticate crates.verifyWithKey publicKey header
      .ok ⟨auth, reqId, selectMode auth.toOption config.partners coin⟩
    -- without a key the header is taken at its word
    | none => .ok ⟨.ok (.allow (header.getD "unknown")), reqId, .forward⟩

/-- From the request's data to the first signature of its transaction. -/
def decodeSignature (data : String) : Except Panic (Except RpcError Signature) :=
  match crates.base64Decode data with
  -- `base64::decode(&data).unwrap()`
  | .error _ => .error .notBase64
  | .ok wireTransaction =>
    match crates.deserialize packetDataSize wireTransaction with
    | .error err => .ok (.error ⟨.invalidParams, err⟩)
    | .ok decoded =>
      match decoded.signatures[0]? with
      | some signature => .ok (.ok signature)
      | none => .ok (.error ⟨.internalError, "Failed to get the transaction's signature"⟩)

/-- The record a forwarded request starts with. -/
def newSession (env : RequestEnv) (state : RpcState) (auth : Auth) (signature : Signature) :
    SignatureRecord where
  createdAt := env.createdAt
  reqId := state.reqId
  ctime := env.ctime
  rtime := env.rtime
  signature := signature
  partnerName := auth.toString
  mode := state.mode
  consumers := []
  tpuIps := ∅

def sendPriorityTransaction (b : Balancer) (env : RequestEnv) (state : RpcState) (data : String)
    (config : Option SendPriorityTransactionConfig) : Except Panic Handled :=
  match state.auth with
  | .error _ => .ok (.early b (.error ⟨.serverError 403, "Failed to authenticate"⟩))
  | .ok auth =>
    match checkConfig config with
    | .error err => .ok (.early b (.error err))
    | .ok () =>
      match decodeSignature crates data with
      | .error panic => .error panic
      | .ok (.error err) => .ok (.early b (.error err))
      | .ok (.ok signature) =>
        -- accepted and dropped
        if state.mode = .blackhole then .ok (.early b (.ok (crates.signatureToString signature)))
        else
          match b.publish env.publish (newSession env state auth signature)
              (crates.signatureToString signature) data with
          | .error panic => .error panic
          | .ok published =>
            .ok (.ofPublished (crates.signatureToString signature) published)

def sendTransaction (b : Balancer) (env : RequestEnv) (state : RpcState) (data : String)
    (config : Option SendPriorityTransactionConfig) : Except Panic Handled :=
  sendPriorityTransaction crates b env state data config

inductive Method
  | sendPriorityTransaction
  | sendTransaction
  deriving DecidableEq, Repr

def Method.call : Method → Balancer → RequestEnv → RpcState → String →
    Option SendPriorityTransactionConfig → Except Panic Handled
  | .sendPriorityTransaction => Mtransaction.sendPriorityTransaction crates
  | .sendTransaction => Mtransaction.sendTransaction crates

/-- One request: the meta extractor, then the method. -/
def handleRequest (rpcConfig : RpcConfig) (b : Balancer) (env : RequestEnv) (reqId : ℕ)
    (coin : Bool) (authorization : Option HeaderValue) (method : Method) (data : String)
    (config : Option SendPriorityTransactionConfig) : Except Panic Handled :=
  match metaExtractor crates rpcConfig reqId coin authorization with
  | .error panic => .error panic
  | .ok state => method.call crates b env state data config

end Handlers

/-! ## Which requests end the process -/

section Returns

variable {crates : Crates} {b : Balancer} {env : RequestEnv} {state : RpcState} {data : String}
  {config : Option SendPriorityTransactionConfig}

theorem Method.call_eq (method : Method) (crates : Crates) :
    method.call crates = Mtransaction.sendPriorityTransaction crates := by
  cases method <;> rfl

theorem checkConfig_eq_ok_iff : checkConfig config = .ok () ↔ config = some ⟨some true⟩ := by
  rcases config with _ | ⟨_ | _ | _⟩ <;> simp [checkConfig]

/-- The data decodes to a transaction whose first signature is this one. -/
def Decodes (crates : Crates) (data : String) (signature : Signature) : Prop :=
  ∃ wire decoded, crates.base64Decode data = .ok wire ∧
    crates.deserialize packetDataSize wire = .ok decoded ∧ decoded.signatures[0]? = some signature

theorem decodeSignature_eq_ok_iff {signature : Signature} :
    decodeSignature crates data = .ok (.ok signature) ↔ Decodes crates data signature := by
  unfold decodeSignature Decodes
  cases hwire : crates.base64Decode data with
  | error err => simp
  | ok wire =>
    cases hdecoded : crates.deserialize packetDataSize wire with
    | error err => simp [hdecoded]
    | ok decoded => cases hsig : decoded.signatures[0]? <;> simp [hdecoded, hsig]

-- every failure after base64 is an answer
theorem decodeSignature_returns_iff :
    (∃ decoded, decodeSignature crates data = .ok decoded) ↔
      ∃ wire, crates.base64Decode data = .ok wire := by
  unfold decodeSignature
  cases hwire : crates.base64Decode data with
  | error err => simp
  | ok wire =>
    cases hdecoded : crates.deserialize packetDataSize wire with
    | error err => simp [hdecoded]
    | ok decoded => cases hsig : decoded.signatures[0]? <;> simp [hdecoded, hsig]

/-- A handler panics on data that is not base64, and when `pick_consumers` does. -/
theorem sendPriorityTransaction_returns_iff :
    (∃ handled, sendPriorityTransaction crates b env state data config = .ok handled) ↔
      ((∃ auth, state.auth = .ok auth) → config = some ⟨some true⟩ →
        (∃ wire, crates.base64Decode data = .ok wire) ∧
          ((∃ signature, Decodes crates data signature) → state.mode = .forward →
            ∃ picks, b.pickConsumers env.publish.order env.publish.rng = .ok picks)) := by
  rw [← checkConfig_eq_ok_iff, ← decodeSignature_returns_iff]
  simp only [← decodeSignature_eq_ok_iff]
  unfold sendPriorityTransaction
  cases hauth : state.auth with
  | error err => simp
  | ok auth =>
    cases hconfig : checkConfig config with
    | error err => simp
    | ok =>
      rcases hdecode : decodeSignature crates data with panic | err | signature
      · simp
      · simp
      · cases hmode : state.mode with
        | blackhole => simp
        | forward =>
          simp only [reduceCtorEq, if_false, Except.ok.injEq, exists_eq', true_and, forall_const]
          rw [← b.publish_returns_iff env.publish (newSession env state auth signature)
            (crates.signatureToString signature) data]
          cases hpublish : b.publish env.publish (newSession env state auth signature)
            (crates.signatureToString signature) data <;> simp

/-- The request may be served: no key is configured, or the header authenticates. -/
def Authorized (crates : Crates) (rpcConfig : RpcConfig) (header : Option String) : Prop :=
  ∀ publicKey ∈ rpcConfig.publicKey,
    ∃ auth, authenticate crates.verifyWithKey publicKey header = .ok auth

theorem metaExtractor_eq_ok (rpcConfig : RpcConfig) (reqId : ℕ) (coin : Bool)
    {authorization : Option HeaderValue} {header : Option String}
    (h : authHeader crates authorization = .ok header) :
    ∃ state, metaExtractor crates rpcConfig reqId coin authorization = .ok state ∧
      ((∃ auth, state.auth = .ok auth) ↔ Authorized crates rpcConfig header) ∧
      (coin = false → state.mode = .forward) := by
  unfold metaExtractor Authorized
  rw [h]
  cases hkey : rpcConfig.publicKey with
  | none => exact ⟨_, rfl, by simp, fun _ => rfl⟩
  | some publicKey =>
    -- only the coin can blackhole
    refine ⟨_, rfl, by simp, ?_⟩
    rintro rfl
    cases (authenticate crates.verifyWithKey publicKey header).toOption <;> simp [selectMode]

/-- A request is answered, whatever the draws, exactly when its header is text and, once it is
authorized and skips preflight, its data is base64 and, if it carries a signature, there are enough
TPUs for the picks. -/
theorem handleRequest_total_iff (crates : Crates) (rpcConfig : RpcConfig) (b : Balancer) (reqId : ℕ)
    (authorization : Option HeaderValue) (method : Method) (data : String)
    (config : Option SendPriorityTransactionConfig) :
    (∀ coin env, ∃ handled,
      handleRequest crates rpcConfig b env reqId coin authorization method data config =
        .ok handled) ↔
      ∃ header, authHeader crates authorization = .ok header ∧
        (Authorized crates rpcConfig header → config = some ⟨some true⟩ →
          (∃ wire, crates.base64Decode data = .ok wire) ∧
            ((∃ signature, Decodes crates data signature) → b.EnoughTpus)) := by
  simp only [handleRequest, method.call_eq, ← b.pickConsumers_returns_iff]
  cases hheader : authHeader crates authorization with
  | error panic =>
    simp only [metaExtractor, hheader, reduceCtorEq, false_and, exists_false, iff_false]
    exact fun h => h false (.drawing .stored (.const 0))
  | ok header =>
    simp only [Except.ok.injEq, exists_eq_left']
    constructor
    · intro hall hauth hconfig
      -- with the coin that never blackholes, every draw of `pick_consumers` is reached
      obtain ⟨state, hstate, hauthorized, hmode⟩ :=
        metaExtractor_eq_ok rpcConfig reqId false hheader
      have hreturns (env : RequestEnv) := hall false env
      simp only [hstate, sendPriorityTransaction_returns_iff] at hreturns
      have hcase (env : RequestEnv) := hreturns env (hauthorized.mpr hauth) hconfig
      refine ⟨(hcase (.drawing .stored (.const 0))).1, ?_⟩
      intro hsigned o rng
      exact (hcase (.drawing o rng)).2 hsigned (hmode rfl)
    · intro hcond coin env
      obtain ⟨state, hstate, hauthorized, -⟩ :=
        metaExtractor_eq_ok rpcConfig reqId coin hheader
      simp only [hstate, sendPriorityTransaction_returns_iff]
      intro hauth hconfig
      obtain ⟨hwire, hpick⟩ := hcond (hauthorized.mp hauth) hconfig
      exact ⟨hwire, fun hsigned _ => hpick hsigned _ _⟩

end Returns

/-! ### A request on known libraries -/

/-- One signature of zeros, then an empty legacy message: 102 bytes. -/
@[irreducible] def zeroWire : List UInt8 := 1 :: List.replicate 101 0

@[irreducible] def zeroData : String := String.ofList ('A' :: 'Q' :: List.replicate 134 'A')

def zeroSignature : Signature := ⟨.replicate 64 0⟩

/-- The libraries on the few inputs used below. -/
def sampleCrates : Crates where
  toStr value :=
    if value.bytes.all fun b => (32 ≤ b && b < 127) || b == 9 then
      .ok (String.ofList (value.bytes.map fun b => Char.ofNat b.toNat))
    else .error "failed to convert header to a str"
  verifyWithKey _ _ := .error "signature verification failed"
  base64Decode data := if data = zeroData then .ok zeroWire else .error "Invalid byte 33, offset 0."
  deserialize _ wire :=
    if wire = zeroWire then .ok ⟨[zeroSignature]⟩ else .error "io error: unexpected end of file"
  signatureToString signature :=
    if signature = zeroSignature then String.ofList (List.replicate 64 '1') else ""

/-- One byte of a header, or one character of the data, ends the process. -/
theorem handleRequest_panics :
    handleRequest sampleCrates ⟨none, []⟩ .new (.drawing .stored (.const 0)) 0 false
        (some ⟨[255], by simp⟩) .sendTransaction zeroData none = .error .headerNotText ∧
      handleRequest sampleCrates ⟨none, []⟩ .new (.drawing .stored (.const 0)) 0 false none
        .sendPriorityTransaction "!" (some ⟨some true⟩) = .error .notBase64 := by
  have hdata : ("!" : String) ≠ zeroData := by
    intro h
    have hchars : ['!'] = zeroData.toList := congrArg String.toList h
    have hhead : zeroData.toList.head? = some 'A' := by
      unfold zeroData
      rw [String.toList_ofList]
      exact List.head?_cons
    simp [← hchars] at hhead
  have hdecode : sampleCrates.base64Decode "!" = .error "Invalid byte 33, offset 0." := by
    simp only [sampleCrates, hdata, if_false]
  constructor
  · rfl
  · simp only [handleRequest, metaExtractor, authHeader, Method.call, sendPriorityTransaction,
      checkConfig, decodeSignature, hdecode]

/-! ## What an answer promises -/

section Forwarded

variable {crates : Crates} {b : Balancer} {env : RequestEnv} {state : RpcState} {data : String}
  {config : Option SendPriorityTransactionConfig} {handled : Handled} {signature : Signature}

/-- The checks before `publish` pass and find this signature. -/
def Admitted (crates : Crates) (state : RpcState) (data : String)
    (config : Option SendPriorityTransactionConfig) (signature : Signature) : Prop :=
  (∃ auth, state.auth = .ok auth) ∧ config = some ⟨some true⟩ ∧ Decodes crates data signature

/-- The ways a handler can answer. -/
theorem sendPriorityTransaction_cases
    (h : sendPriorityTransaction crates b env state data config = .ok handled) :
    (∃ err, handled = .early b (.error err)) ∨
    (∃ signature, Admitted crates state data config signature ∧ state.mode = .blackhole ∧
      handled = .early b (.ok (crates.signatureToString signature))) ∨
    ∃ auth signature published, Admitted crates state data config signature ∧
      state.mode = .forward ∧
      b.publish env.publish (newSession env state auth signature)
        (crates.signatureToString signature) data = .ok published ∧
      handled = .ofPublished (crates.signatureToString signature) published := by
  unfold sendPriorityTransaction at h
  cases hauth : state.auth with
  | error err =>
    rw [hauth] at h
    exact .inl ⟨_, (Except.ok.inj h).symm⟩
  | ok auth =>
    rw [hauth] at h
    cases hconfig : checkConfig config with
    | error err =>
      rw [hconfig] at h
      exact .inl ⟨_, (Except.ok.inj h).symm⟩
    | ok =>
      rw [hconfig] at h
      rcases hdecode : decodeSignature crates data with panic | err | signature
      · simp [hdecode] at h
      · rw [hdecode] at h
        exact .inl ⟨_, (Except.ok.inj h).symm⟩
      · have hadmitted : Admitted crates state data config signature :=
          ⟨⟨auth, hauth⟩, checkConfig_eq_ok_iff.mp hconfig, decodeSignature_eq_ok_iff.mp hdecode⟩
        simp only [hdecode] at h
        split at h
        next hmode => exact .inr (.inl ⟨signature, hadmitted, hmode, (Except.ok.inj h).symm⟩)
        next hmode =>
          have hforward : state.mode = .forward := by
            cases hm : state.mode with
            | blackhole => exact absurd hm hmode
            | forward => rfl
          split at h
          · simp at h
          next published hpublish =>
            exact .inr (.inr ⟨auth, signature, published, hadmitted, hforward, hpublish,
              (Except.ok.inj h).symm⟩)

/-- If the answer is a signature, some channel has accepted the transaction under it, and the
watcher has one record of it that names a consumer. -/
def Forwarded (crates : Crates) (data : String) (answer : Except Panic Handled) : Prop :=
  ∀ handled signature, answer = .ok handled → handled.result = .ok signature →
    (∃ conn tpus, (conn, buildTxMessageEnvelope signature data tpus) ∈ handled.delivered) ∧
      ∃ record, handled.watched = [record] ∧
        crates.signatureToString record.signature = signature ∧ record.consumers ≠ []

theorem forwarded_of_accepted (hmode : state.mode = .forward) (hwatcher : env.publish.watcherAlive)
    (h : ∀ picks, b.pickConsumers env.publish.order env.publish.rng = .ok picks → picks ≠ [] →
      acceptedPicks env.publish 0 picks ≠ []) :
    Forwarded crates data (sendPriorityTransaction crates b env state data config) := by
  intro handled text hanswer hresult
  rcases sendPriorityTransaction_cases hanswer with ⟨err, rfl⟩ | ⟨_, -, hblack, -⟩ |
    ⟨auth, signature, published, -, -, hpublish, rfl⟩
  · simp [Handled.early] at hresult
  · simp [hmode] at hblack
  · rcases Balancer.publish_cases hpublish with ⟨-, rfl⟩ | ⟨picks, st, hpick, hne, hst, rfl⟩
    · simp [Handled.ofPublished] at hresult
    · obtain rfl : crates.signatureToString signature = text := by
        simpa [Handled.ofPublished] using hresult
      -- the picks that were accepted are what was delivered and what is recorded
      have hsome := h picks hpick hne
      obtain ⟨pick, hmem⟩ := List.exists_mem_of_ne_nil _ hsome
      simp only [Handled.ofPublished, hwatcher, if_true]
      refine ⟨⟨pick.1.tx, pickTpus env.publish.tpuOrder pick.2, ?_⟩, st.session, rfl, ?_, ?_⟩
      · rw [hst, publishLoop_delivered, List.nil_append]
        exact List.mem_map_of_mem hmem
      · rw [hst, publishLoop_signature]
        rfl
      · rw [hst, publishLoop_consumers]
        simpa [newSession] using hsome

theorem sendPriorityTransaction_eq_ok {auth : Auth} {published : Published}
    (hauth : state.auth = .ok auth) (hconfig : config = some ⟨some true⟩)
    (hdecodes : Decodes crates data signature) (hmode : state.mode = .forward)
    (hpublish : b.publish env.publish (newSession env state auth signature)
      (crates.signatureToString signature) data = .ok published) :
    sendPriorityTransaction crates b env state data config =
      .ok (.ofPublished (crates.signatureToString signature) published) := by
  simp only [sendPriorityTransaction, hauth, checkConfig_eq_ok_iff.mpr hconfig,
    decodeSignature_eq_ok_iff.mpr hdecodes, hmode, reduceCtorEq, if_false, hpublish]

theorem accepted_of_forwarded (hadmitted : Admitted crates state data config signature)
    (hmode : state.mode = .forward)
    (h : Forwarded crates data (sendPriorityTransaction crates b env state data config))
    {picks : List Pick} (hpick : b.pickConsumers env.publish.order env.publish.rng = .ok picks)
    (hne : picks ≠ []) : acceptedPicks env.publish 0 picks ≠ [] := by
  obtain ⟨⟨auth, hauth⟩, hconfig, hdecodes⟩ := hadmitted
  obtain ⟨published, hpublish⟩ := (b.publish_returns_iff env.publish
    (newSession env state auth signature) (crates.signatureToString signature) data).mpr ⟨_, hpick⟩
  have hanswer := sendPriorityTransaction_eq_ok hauth hconfig hdecodes hmode hpublish
  rcases Balancer.publish_cases hpublish with ⟨hnil, -⟩ | ⟨picks', st, hpick', -, hst, rfl⟩
  · exact absurd (Except.ok.inj (hpick.symm.trans hnil)) hne
  · obtain rfl : picks = picks' := Except.ok.inj (hpick.symm.trans hpick')
    obtain ⟨⟨conn, tpus, hmem⟩, -⟩ := h _ _ hanswer rfl
    intro hnone
    simp [Handled.ofPublished, hst, publishLoop_delivered, hnone] at hmem

/-- Of the channels that stay open while the call lasts, one belongs to a connected leader, or all
connected consumers have one. -/
def OpenEnough (b : Balancer) (stays : ConnId → Bool) : Prop :=
  (∃ identity c, b.LeadsAs identity c ∧ stays c.tx) ∨ ∀ c ∈ b.txConsumers.values, stays c.tx

/-- Then not all picks can be consumers whose channels close. -/
theorem OpenEnough.not_canPickOnly {stays : ConnId → Bool} (h : OpenEnough b stays) :
    ¬ b.CanPickOnly fun c => stays c.tx = false := by
  rintro ⟨hleaders, o, n, -, hpos, -, hdrawable, -⟩
  rcases h with ⟨identity, c, hleads, hopen⟩ | hopen
  · simp [hleaders identity c hleads] at hopen
  · by_cases hn : 0 < n
    · obtain ⟨c, hc, hclosed⟩ := hdrawable hn
      simp [hopen c hc.mem_values] at hclosed
    -- with no samples the picks are the leaders
    · rw [← b.length_leaderPicks o] at hpos
      obtain ⟨pick, hpick⟩ := List.exists_mem_of_length_pos (show 0 < (b.leaderPicks o).length by omega)
      obtain ⟨identity, hleads⟩ :=
        Balancer.mem_map_fst_leaderPicks.mp (List.mem_map_of_mem (f := Prod.fst) hpick)
      have hclosed := hleaders identity pick.1 hleads
      simp [hopen _ (AList.mem_values.mpr ⟨identity, hleads.1⟩)] at hclosed

/-- In a state with enough TPUs, where no weight wraps, one closed channel of no leader is enough:
its consumer may come first and be sampled every time. -/
theorem openEnough_of_not_canPickOnly {stays : ConnId → Bool} (htpus : b.EnoughTpus)
    (hweight : ∀ c ∈ b.txConsumers.values, c.stake + 1 ≠ 0)
    (h : ¬ b.CanPickOnly fun c => stays c.tx = false) : OpenEnough b stays := by
  by_contra hnot
  simp only [OpenEnough, not_or, not_exists, not_and, not_forall, Bool.not_eq_true] at hnot
  obtain ⟨hleaders, c, hval, hclosed⟩ := hnot
  obtain ⟨i, hi⟩ := AList.mem_values.mp hval
  refine h ⟨hleaders, .first (i, c), nConsumers - b.connectedLeaders, Nat.le_refl _, ?_, ?_,
    fun _ => ⟨c, .of_sample (Balancer.sample_first hi (hweight c hval) 0), hclosed⟩,
    fun hlt => absurd hlt (Nat.lt_irrefl _)⟩
  · simp only [nConsumers]
    omega
  · rcases htpus with hnone | ⟨hle, hthree | hwrap⟩
    · exact .inl hnone
    · exact .inr (by omega)
    · exact absurd (hwrap c hval) (hweight c hval)

/-- Whatever the draws and whichever sends fail on the channels that may close, an Ok answer means
that the transaction has left the server, exactly if it is not admitted or if not all picks can be
consumers whose channels close.  So it is if enough channels stay open; and where `pick_consumers`
cannot panic and no weight wraps, only then. -/
theorem forwarded_iff_not_canPickOnly (hmode : state.mode = .forward) (stays : ConnId → Bool) :
    ((∀ env, env.publish.watcherAlive → (∀ k conn, stays conn → env.publish.accepts k conn) →
        Forwarded crates data (sendPriorityTransaction crates b env state data config)) ↔
      (∀ signature, ¬ Admitted crates state data config signature) ∨
        ¬ b.CanPickOnly fun c => stays c.tx = false) ∧
    (OpenEnough b stays → ¬ b.CanPickOnly fun c => stays c.tx = false) ∧
    (b.EnoughTpus → (∀ c ∈ b.txConsumers.values, c.stake + 1 ≠ 0) →
      (¬ b.CanPickOnly fun c => stays c.tx = false) → OpenEnough b stays) := by
  refine ⟨⟨fun hall => ?_, ?_⟩, OpenEnough.not_canPickOnly, openEnough_of_not_canPickOnly⟩
  · by_contra hnot
    simp only [not_or, not_forall, not_not] at hnot
    obtain ⟨⟨signature, hadmitted⟩, honly⟩ := hnot
    obtain ⟨o, rng, picks, hpick, hne, hpicks⟩ := Balancer.exists_picks_iff.mpr honly
    -- the closed channels reject every send
    let env : RequestEnv := ⟨0, 0, 0, o, rng, .stored, fun _ conn => stays conn, true⟩
    have hsome := accepted_of_forwarded hadmitted hmode (hall env rfl fun _ _ h => h) hpick hne
    refine hsome ((acceptedPicks_eq_nil_iff env.publish 0 picks).mpr fun n pick hn => ?_)
    exact hpicks pick (List.mem_of_getElem? hn)
  · rintro (hnone | hopen) env hwatcher hstays
    · intro handled text hanswer hresult
      rcases sendPriorityTransaction_cases hanswer with ⟨err, rfl⟩ | ⟨s, hadmitted, -⟩ |
        ⟨_, s, _, hadmitted, -⟩
      · simp [Handled.early] at hresult
      · exact absurd hadmitted (hnone s)
      · exact absurd hadmitted (hnone s)
    · refine forwarded_of_accepted hmode hwatcher fun picks hpick hne hnil => hopen ?_
      rw [acceptedPicks_eq_nil_iff] at hnil
      -- a send on a channel that stays open is accepted whenever it is made
      refine Balancer.exists_picks_iff.mp ⟨_, _, picks, hpick, hne, fun pick hmem => ?_⟩
      obtain ⟨n, hn⟩ := List.mem_iff_getElem?.mp hmem
      by_contra hopen
      have hrejected := hnil n pick hn
      rw [hstays _ _ (eq_true_of_ne_false hopen)] at hrejected
      exact absurd hrejected (by decide)

end Forwarded

/-- An admitted request of a caller that names itself. -/
def zeroState : RpcState := ⟨.ok (.allow "unknown"), 0, .forward⟩

theorem decodes_zeroData : Decodes sampleCrates zeroData zeroSignature := by
  refine ⟨zeroWire, ⟨[zeroSignature]⟩, ?_, ?_, rfl⟩ <;> simp only [sampleCrates, if_true]

/-- Two clients, the first with a stake whose weight wraps to nothing. -/
def weightlessBalancer : Balancer :=
  ((Balancer.new.updateStakeWeights (AList.singleton "A" 18446744073709551615)).subscribe
    "A" "token1" 0).subscribe "B" "token2" 1

/-- The first client is gone, but no draw selects it: what is answered has been sent to the other. -/
theorem forwarded_past_weightless_client :
    Forwarded sampleCrates zeroData (sendPriorityTransaction sampleCrates weightlessBalancer
      ⟨0, 0, 0, .stored, .const 0, .stored, fun _ conn => conn == 1, true⟩ zeroState zeroData
      (some ⟨some true⟩)) := by
  refine (forwarded_iff_not_canPickOnly rfl fun conn => conn == 1).1.mpr (.inr ?_) _ rfl
    fun _ _ h => h
  have hleaders : weightlessBalancer.connectedLeaders = 0 := rfl
  have hopen : ∀ c ∈ weightlessBalancer.txConsumers.values, c.stake + 1 ≠ 0 → (c.tx == 1) = true := by
    decide
  rintro ⟨-, o, n, -, hpos, -, hdrawable, -⟩
  rw [hleaders, Nat.zero_add] at hpos
  obtain ⟨c, hc, hclosed⟩ := hdrawable hpos
  rw [hopen c hc.mem_values hc.stake_ne] at hclosed
  exact absurd hclosed (by decide)

def goneEnv : RequestEnv := ⟨0, 0, 0, .stored, .const 0, .stored, fun _ _ => false, true⟩

/-- The only client is gone: the signature is answered and recorded, and nothing has been sent. -/
theorem answered_without_sending :
    Runs.Reachable (Runs.StepsTo Balancer.step) .new (Balancer.new.subscribe "A" "token" 0) ∧
      (∃ handled, sendPriorityTransaction sampleCrates (Balancer.new.subscribe "A" "token" 0)
          goneEnv zeroState zeroData (some ⟨some true⟩) = .ok handled ∧
        handled.result = .ok (sampleCrates.signatureToString zeroSignature) ∧
        handled.delivered = [] ∧ handled.watched.map SignatureRecord.consumers = [[]]) ∧
      ¬ Forwarded sampleCrates zeroData (sendPriorityTransaction sampleCrates
          (Balancer.new.subscribe "A" "token" 0) goneEnv zeroState zeroData
          (some ⟨some true⟩)) := by
  have hanswer : sendPriorityTransaction sampleCrates (Balancer.new.subscribe "A" "token" 0)
      goneEnv zeroState zeroData (some ⟨some true⟩) = .ok _ :=
    sendPriorityTransaction_eq_ok rfl rfl decodes_zeroData rfl rfl
  refine ⟨Runs.reachable_of_exec [.subscribe "A" "token" 0] rfl, ⟨_, hanswer, rfl, rfl, rfl⟩,
    fun h => ?_⟩
  obtain ⟨⟨conn, tpus, hmem⟩, -⟩ := h _ _ hanswer rfl
  exact absurd hmem List.not_mem_nil

end Mtransaction
