import Mtransaction.Server.Outcomes

/-!
# From HTTP requests to outcome counters

`spawn_rpc_server` numbers the requests, and the methods count those they accept in
`SERVER_RPC_TX_ACCEPTED`.  What is accepted is then refused, blackholed or published, which takes as
long as the clients' channels are full, and a record of what is published travels to the checkers,
which advance the `CHAIN_TX_*` counters under the same labels.  Many requests are served at once.
-/

namespace Mtransaction

open Runs

/-- A call of one of the two methods. -/
structure MethodCall where
  data : String
  config : Option SendPriorityTransactionConfig

/-- A request: the meta extractor runs once for it, and a batch calls the methods many times with
what was extracted. -/
structure HttpRequest where
  coin : Bool
  authorization : Option HeaderValue
  calls : List MethodCall

/-- What a method makes of a call before it waits for the balancer. -/
inductive Prepared
  | answered (result : Except RpcError String)
  | publishes (auth : Auth) (signature : Signature)

section Prepare

variable (crates : Crates) (state : RpcState)

/-- `send_priority_transaction` up to the future it returns. -/
def prepare (data : String) (config : Option SendPriorityTransactionConfig) :
    Except Panic Prepared :=
  match state.auth with
  | .error _ => .ok (.answered (.error ⟨.serverError 403, "Failed to authenticate"⟩))
  | .ok auth =>
    match checkConfig config with
    | .error err => .ok (.answered (.error err))
    | .ok () =>
      match decodeSignature crates data with
      | .error panic => .error panic
      | .ok (.error err) => .ok (.answered (.error err))
      | .ok (.ok signature) =>
        if state.mode = .blackhole then .ok (.answered (.ok (crates.signatureToString signature)))
        else .ok (.publishes auth signature)

/-- The labels under which the call is counted as accepted. -/
def acceptedAs (config : Option SendPriorityTransactionConfig) : Option (String × String) :=
  match state.auth with
  | .error _ => none
  | .ok auth =>
    match checkConfig config with
    | .error _ => none
    | .ok () => some (auth.toString, state.mode.toString)

/-- The two parts of the method, one after the other. -/
theorem sendPriorityTransaction_eq_prepare (b : Balancer) (env : RequestEnv) (data : String)
    (config : Option SendPriorityTransactionConfig) :
    sendPriorityTransaction crates b env state data config =
      match prepare crates state data config with
      | .error panic => .error panic
      | .ok (.answered result) => .ok (.early b result)
      | .ok (.publishes auth signature) =>
        (b.publish env.publish (newSession env state auth signature)
          (crates.signatureToString signature) data).map
            (.ofPublished (crates.signatureToString signature)) := by
  unfold sendPriorityTransaction prepare
  cases state.auth with
  | error err => rfl
  | ok auth =>
    cases hconfig : checkConfig config with
    | error err => rfl
    | ok =>
      rcases hdecode : decodeSignature crates data with panic | err | signature
      · rfl
      · rfl
      · by_cases hmode : state.mode = .blackhole
        · simp only [hmode, if_true]
        · simp only [hmode, if_false]
          cases b.publish env.publish (newSession env state auth signature)
            (crates.signatureToString signature) data <;> rfl

end Prepare

/-- A call that waits for the balancer's read lock, or holds it. -/
structure WaitingRequest where
  state : RpcState
  auth : Auth
  signature : Signature
  data : String
  ctime : UInt64
  createdAt : ℕ
  rtime : UInt64

def WaitingRequest.env (w : WaitingRequest) (publish : PublishEnv) : RequestEnv :=
  ⟨w.ctime, w.createdAt, w.rtime, publish⟩

def WaitingRequest.label (w : WaitingRequest) : String × String :=
  (w.auth.toString, w.state.mode.toString)

/-- The RPC server and what follows it: `called` are the calls between the meta extractor and the
method, `publishing` those inside `publish`, which may wait there for channels with room.  `refused`
and `blackholed` are the labels of accepted calls that were answered with an error or without being
published. -/
structure RpcService where
  reqIdGen : UInt64
  called : List (RpcState × MethodCall)
  waiting : List WaitingRequest
  publishing : List WaitingRequest
  rpcTxAccepted : CounterVec (String × String)
  rpcTxBytesIn : ℕ
  outcomes : Outcomes
  refused : List (String × String)
  blackholed : List (String × String)

inductive ServiceEvent
  /-- the meta extractor -/
  | arrive (request : HttpRequest)
  /-- the method runs for call `n` of `called` -/
  | call (n : ℕ) (ctime : UInt64) (createdAt : ℕ) (rtime : UInt64)
  /-- call `n` of `waiting` gets the read lock -/
  | lock (n : ℕ)
  /-- call `n` of `publishing` has made its sends and returns -/
  | publish (n : ℕ) (env : PublishEnv)
  | outcome (event : OutcomeEvent)

/-- The request that comes in with the step. -/
def arrival (x : RpcService × ServiceEvent) : Option HttpRequest :=
  match x.2 with
  | .arrive request => some request
  | _ => none

namespace RpcService

def new : RpcService := ⟨0, [], [], [], ∅, 0, .new, [], []⟩

def accept (s : RpcService) (label : String × String) (data : String) : RpcService :=
  { s with
    rpcTxAccepted := s.rpcTxAccepted.inc label
    -- `data.len()`
    rpcTxBytesIn := s.rpcTxBytesIn + data.utf8ByteSize }

/-- The method, with the instants it reads. -/
def call (s : RpcService) (n : ℕ) (state : RpcState) (method : MethodCall) (prepared : Prepared)
    (ctime : UInt64) (createdAt : ℕ) (rtime : UInt64) : RpcService :=
  let s := { s with called := s.called.eraseIdx n }
  match acceptedAs state method.config with
  | none => s
  | some label =>
    let s := s.accept label method.data
    match prepared with
    | .answered (.ok _) => { s with blackholed := s.blackholed ++ [label] }
    | .answered (.error _) => { s with refused := s.refused ++ [label] }
    | .publishes auth signature =>
      { s with waiting :=
          s.waiting ++ [⟨state, auth, signature, method.data, ctime, createdAt, rtime⟩] }

section Step

variable (crates : Crates) (rpcConfig : RpcConfig) (clock : ℕ → ℕ)

/-- The steps of all tasks; a panic ends the run. -/
inductive Step : RpcService → ServiceEvent → RpcService → Prop
  | arrive {s : RpcService} {request : HttpRequest} {state : RpcState}
      (extracted : metaExtractor crates rpcConfig s.reqIdGen.toNat request.coin
        request.authorization = .ok state) :
      Step s (.arrive request)
        { s with
          reqIdGen := s.reqIdGen + 1
          called := s.called ++ request.calls.map fun method => (state, method) }
  | call {s : RpcService} {n : ℕ} {ctime : UInt64} {createdAt : ℕ} {rtime : UInt64}
      {state : RpcState} {method : MethodCall} {prepared : Prepared}
      (hcalled : s.called[n]? = some (state, method))
      (hprepare : prepare crates state method.data method.config = .ok prepared) :
      Step s (.call n ctime createdAt rtime)
        (s.call n state method prepared ctime createdAt rtime)
  -- many calls may hold it
  | lock {s : RpcService} {n : ℕ} {w : WaitingRequest} (hwaiting : s.waiting[n]? = some w) :
      Step s (.lock n)
        { s with waiting := s.waiting.eraseIdx n, publishing := s.publishing ++ [w] }
  -- the consumers and leaders are those of the time the lock was taken
  | publish {s : RpcService} {n : ℕ} {env : PublishEnv} {w : WaitingRequest} {p : Published}
      {outcomes : Outcomes} (hlocked : s.publishing[n]? = some w)
      (ok : s.outcomes.balancer.publish env (newSession (w.env env) w.state w.auth w.signature)
        (crates.signatureToString w.signature) w.data = .ok p)
      (hstep : s.outcomes.Step clock (.publish (w.env env) w.state w.auth w.signature
        (crates.signatureToString w.signature) w.data) outcomes) :
      Step s (.publish n env)
        { s with
          outcomes
          publishing := s.publishing.eraseIdx n
          refused := match p.result with
            | .ok () => s.refused
            | .error _ => s.refused ++ [w.label] }
  -- the operations on the balancer need the write lock
  | outcome {s : RpcService} {event : OutcomeEvent} {outcomes : Outcomes}
      (other : ∀ env state auth signature text data,
        event ≠ .publish env state auth signature text data)
      (unlocked : ∀ op, event = .op op → s.publishing = [])
      (hstep : s.outcomes.Step clock event outcomes) :
      Step s (.outcome event) { s with outcomes }

end Step

end RpcService

/-! ## Records between `publish` and the counters -/

/-- The outcomes that are still to be counted for the records of a bundle. -/
def CheckerTask.uncounted (task : CheckerTask) (label : String × String) : ℕ :=
  match task.answered with
  | none => (task.bundle.map SignatureRecord.label).count label
  | some _ => task.remaining.countP (ChainInc.isOutcome label)

namespace Checkers

variable {start : ChainMetrics} {s : Checkers}

-- an answered task makes one outcome of each record
theorem countP_isOutcome {task : CheckerTask} {tpuOrder : HashOrder String}
    {response : StatusResponse} (htask : task.answered = some (tpuOrder, response))
    (hanswers : Answers task.bundle response) (label : String × String) :
    task.increments.countP (ChainInc.isOutcome label) =
      (task.bundle.map SignatureRecord.label).count label := by
  rw [List.map_eq_flatMap, List.count]
  refine CheckerTask.countP_increments htask hanswers (fun record status => ?_)
    fun _ _ record _ => ?_
  · rcases status with _ | status
    · simp [countP_checkStatus_unknown, ChainInc.isOutcome, SignatureRecord.label, List.countP_cons,
        Prod.ext_iff]
    · simp [countP_checkStatus_known, ChainInc.isOutcome, SignatureRecord.label, List.countP_cons,
        Prod.ext_iff]
  · simp [ChainInc.isOutcome, SignatureRecord.label, List.countP_cons, Prod.ext_iff]

theorem Tallied.uncounted_task (h : Tallied start s) {task : CheckerTask} (hmem : task ∈ s.tasks)
    (label : String × String) :
    task.increments.countP (ChainInc.isOutcome label) + task.uncounted label =
      (task.bundle.map SignatureRecord.label).count label +
        task.remaining.countP (ChainInc.isOutcome label) := by
  unfold CheckerTask.uncounted
  cases htask : task.answered with
  | none =>
    simp only [CheckerTask.increments, htask, h.waiting task hmem htask, List.countP_nil]
    omega
  | some answer =>
    rw [countP_isOutcome htask (h.answers task hmem _ _ htask)]

/-- At any time, whatever has been answered and counted so far. -/
theorem Tallied.outcomes (h : Tallied start s) (label : String × String) :
    s.metrics.finalized.value label + s.metrics.timeout.value label +
        (s.tasks.map fun task => task.uncounted label).sum =
      start.finalized.value label + start.timeout.value label +
        (s.records.map SignatureRecord.label).count label := by
  obtain ⟨performed, hmetrics, hperm⟩ := h.tally
  have hcounted : s.metrics.finalized.value label + s.metrics.timeout.value label =
      start.finalized.value label + start.timeout.value label +
        performed.countP (ChainInc.isOutcome label) := by
    rw [hmetrics]
    refine Interleaving.foldl_countP
      (f := fun m : ChainMetrics => m.finalized.value label + m.timeout.value label) ?_ _ _
    intro m i
    cases i <;>
      simp [ChainMetrics.inc, ChainInc.isOutcome, CounterVec.value_inc, Prod.ext_iff] <;> omega
  have hmade := hperm.countP_eq (ChainInc.isOutcome label)
  rw [List.countP_append] at hmade
  -- task by task
  have hsum (tasks : List CheckerTask) (hsub : ∀ task ∈ tasks, task ∈ s.tasks) :
      (tasks.flatMap CheckerTask.increments).countP (ChainInc.isOutcome label) +
          (tasks.map fun task => task.uncounted label).sum =
        ((tasks.flatMap CheckerTask.bundle).map SignatureRecord.label).count label +
          (tasks.flatMap CheckerTask.remaining).countP (ChainInc.isOutcome label) := by
    induction tasks with
    | nil => rfl
    | cons task tasks ih =>
      have hfirst := h.uncounted_task (hsub task List.mem_cons_self) label
      have hrest := ih fun task' hmem => hsub task' (List.mem_cons_of_mem _ hmem)
      simp only [List.flatMap_cons, List.countP_append, List.map_cons, List.sum_cons,
        List.map_append, List.count_append]
      omega
  have htasks := hsum s.tasks fun _ hmem => hmem
  simp only [records]
  omega

end Checkers

namespace Outcomes

variable {clock : ℕ → ℕ} {s s' : Outcomes} {event : OutcomeEvent}

/-- The records that have been handed over. -/
def underway (s : Outcomes) : List SignatureRecord :=
  s.checkers.records ++ (s.watcher.signatureQueue ++ s.inbox)

/-- Records that are not counted yet, by label. -/
def uncounted (s : Outcomes) (label : String × String) : ℕ :=
  ((s.watcher.signatureQueue ++ s.inbox).map SignatureRecord.label).count label +
    (s.checkers.tasks.map fun task => task.uncounted label).sum

theorem tallied_step (h : s.checkers.Tallied .new) (hs : Step clock s event s') :
    s'.checkers.Tallied .new := by
  cases hs with
  | op | publish | arrive => exact h
  | tick => exact h.spawnAll _
  | check own hstep => exact h.step hstep

/-- Only `publish` makes records. -/
theorem content_step (hs : Step clock s event s')
    (other : ∀ env state auth signature text data,
      event ≠ .publish env state auth signature text data) :
    s'.underway.map SignatureRecord.content = s.underway.map SignatureRecord.content := by
  cases hs with
  | publish => exact absurd rfl (other _ _ _ _ _ _)
  | op => rfl
  | @arrive record rest next =>
    have hstamp : (s.watcher.stamp clock record).content = record.content := rfl
    simp only [underway, SignatureWatcher.arrive, next, List.map_append, List.map_cons, hstamp,
      List.append_assoc, List.cons_append, List.nil_append]
  | tick ticked =>
    obtain ⟨fuel, hfuel⟩ := ticked
    obtain ⟨⟨bundles, hspawned, hsplit, -⟩, -, -⟩ := SignatureWatcher.drains_of_drainLoop hfuel
    simp only [underway, Checkers.records_spawnAll, hspawned, List.drop_left, ← hsplit,
      List.append_assoc]
  | check own hstep => simp only [underway, Checkers.records_step own hstep]

/-- What depends on the content only is the same for both. -/
theorem map_underway {γ : Type} {g : SignatureRecord → γ}
    (hg : ∀ record, g record.content = g record)
    (h : s'.underway.map SignatureRecord.content = s.underway.map SignatureRecord.content) :
    s'.underway.map g = s.underway.map g := by
  have := congrArg (List.map g) h
  simpa only [List.map_map, Function.comp_def, hg] using this

end Outcomes

/-! ## The two parts of a request -/

theorem publishLoop_session (env : PublishEnv) (signature data : String) (k : ℕ) (picks : List Pick)
    (st : PublishState) : ∃ consumers tpuIps,
      (publishLoop env signature data k picks st).session =
        { st.session with consumers, tpuIps } := by
  induction picks generalizing k st with
  | nil => exact ⟨_, _, rfl⟩
  | cons pick rest ih =>
    rw [publishLoop]
    obtain ⟨consumers, tpuIps, heq⟩ := ih (k + 1)
      (publishSend env.tpuOrder signature data (env.accepts k pick.1.tx) st pick)
    refine ⟨consumers, tpuIps, heq.trans ?_⟩
    cases env.accepts k pick.1.tx <;> rfl

/-- `publish` hands over the record it was given, with recipients, or refuses. -/
theorem watched_publish {b : Balancer} {env : PublishEnv} {session : SignatureRecord}
    {signature data : String} {p : Published} (h : b.publish env session signature data = .ok p)
    (alive : env.watcherAlive) :
    (∃ err, p.result = .error err ∧ p.watched = []) ∨
      p.result = .ok () ∧ ∃ consumers tpuIps, p.watched = [{ session with consumers, tpuIps }] := by
  rcases Balancer.publish_cases h with ⟨-, rfl⟩ | ⟨picks, st, -, -, hst, rfl⟩
  · exact .inl ⟨_, rfl, rfl⟩
  · obtain ⟨consumers, tpuIps, heq⟩ :=
      publishLoop_session env signature data 0 picks ⟨b, session, []⟩
    refine .inr ⟨rfl, consumers, tpuIps, ?_⟩
    rw [alive, if_pos rfl, hst, heq]

/-- What becomes of a request before it waits, and whether it is counted. -/
theorem prepare_cases {crates : Crates} {state : RpcState} {data : String}
    {config : Option SendPriorityTransactionConfig} {prepared : Prepared}
    (h : prepare crates state data config = .ok prepared) :
    acceptedAs state config = none ∨
      ∃ auth, state.auth = .ok auth ∧ checkConfig config = .ok () ∧
        acceptedAs state config = some (auth.toString, state.mode.toString) ∧
        ((∃ err, prepared = .answered (.error err)) ∨
          ∃ signature, Decodes crates data signature ∧
            ((state.mode = .blackhole ∧
                prepared = .answered (.ok (crates.signatureToString signature))) ∨
              state.mode = .forward ∧ prepared = .publishes auth signature)) := by
  unfold prepare at h
  unfold acceptedAs
  cases hauth : state.auth with
  | error err => exact .inl rfl
  | ok auth =>
    cases hconfig : checkConfig config with
    | error err => exact .inl rfl
    | ok =>
      refine .inr ⟨auth, rfl, rfl, rfl, ?_⟩
      simp only [hauth, hconfig] at h
      rcases hdecode : decodeSignature crates data with panic | err | signature
      · simp [hdecode] at h
      · simp only [hdecode, Except.ok.injEq] at h
        exact .inl ⟨err, h.symm⟩
      · refine .inr ⟨signature, decodeSignature_eq_ok_iff.mp hdecode, ?_⟩
        cases hmode : state.mode with
        | blackhole =>
          simp only [hdecode, hmode, if_true, Except.ok.injEq] at h
          exact .inl ⟨rfl, h.symm⟩
        | forward =>
          simp only [hdecode, hmode, reduceCtorEq, if_false, Except.ok.injEq] at h
          exact .inr ⟨rfl, h.symm⟩

/-- The request's header is a bearer token that verifies under the configured key, with claims that
name this partner. -/
def VerifiedAs (crates : Crates) (rpcConfig : RpcConfig) (request : HttpRequest)
    (partner : String) : Prop :=
  ∃ publicKey header claims, rpcConfig.publicKey = some publicKey ∧
    authHeader crates request.authorization = .ok header ∧
    BearerToken crates.verifyWithKey publicKey header claims ∧ claims.toString = partner

/-- Only requests with a verified token of a test partner are blackholed. -/
theorem blackhole_of_metaExtractor {crates : Crates} {rpcConfig : RpcConfig} {reqId : ℕ}
    {request : HttpRequest} {state : RpcState}
    (h : metaExtractor crates rpcConfig reqId request.coin request.authorization = .ok state)
    (hmode : state.mode = .blackhole) {auth : Auth} (hauth : state.auth = .ok auth) :
    auth.toString ∈ rpcConfig.partners ∧ VerifiedAs crates rpcConfig request auth.toString := by
  unfold metaExtractor at h
  split at h
  · simp at h
  next header hheader =>
    cases hkey : rpcConfig.publicKey with
    | none =>
      simp only [hkey, Except.ok.injEq] at h
      subst h
      simp at hmode
    | some publicKey =>
      simp only [hkey, Except.ok.injEq] at h
      subst h
      simp only at hauth hmode
      obtain ⟨claims, rfl, hbearer⟩ := bearerToken_of_authenticate hauth
      rw [hauth] at hmode
      refine ⟨?_, publicKey, header, claims, hkey, hheader, hbearer, rfl⟩
      by_contra hnot
      simp [selectMode, Except.toOption, hnot] at hmode

namespace RpcService

variable {crates : Crates} {rpcConfig : RpcConfig} {clock : ℕ → ℕ} {s s' : RpcService}
  {event : ServiceEvent} {requests : List HttpRequest} {tr : List (RpcService × ServiceEvent)}

/-- Whatever was accepted is accounted for: it was refused, it was blackholed, it waits for the
balancer or is being published, its record is on its way, or it has been counted as finalized or
timed out.  Blackholed calls are those of a request with a verified token of a test partner, and
nothing of them is ever counted on the chain. -/
structure Balanced (crates : Crates) (rpcConfig : RpcConfig) (requests : List HttpRequest)
    (s : RpcService) : Prop where
  ledger : ∀ label, s.rpcTxAccepted.value label =
    s.refused.count label + s.blackholed.count label +
      (s.waiting.map WaitingRequest.label).count label +
      (s.publishing.map WaitingRequest.label).count label + s.outcomes.uncounted label +
      s.outcomes.checkers.metrics.finalized.value label +
      s.outcomes.checkers.metrics.timeout.value label
  tested : ∀ label ∈ s.blackholed, label.2 = Mode.blackhole.toString ∧
    label.1 ∈ rpcConfig.partners ∧
    ∃ request ∈ requests, VerifiedAs crates rpcConfig request label.1
  unseen : ∀ partner,
    s.outcomes.checkers.metrics.finalized.value (partner, Mode.blackhole.toString) = 0 ∧
      s.outcomes.checkers.metrics.timeout.value (partner, Mode.blackhole.toString) = 0

/-- What every step keeps. -/
structure Kept (crates : Crates) (rpcConfig : RpcConfig) (requests : List HttpRequest)
    (s : RpcService) : Prop where
  tallied : s.outcomes.checkers.Tallied .new
  conserved : ∀ label, s.rpcTxAccepted.value label =
    s.refused.count label + s.blackholed.count label +
      (s.waiting.map WaitingRequest.label).count label +
      (s.publishing.map WaitingRequest.label).count label +
      (s.outcomes.underway.map SignatureRecord.label).count label
  called : ∀ x ∈ s.called, ∃ request ∈ requests, ∃ reqId,
    metaExtractor crates rpcConfig reqId request.coin request.authorization = .ok x.1
  waiting : ∀ w ∈ s.waiting, w.state.mode = .forward
  publishing : ∀ w ∈ s.publishing, w.state.mode = .forward
  forwarded : ∀ mode ∈ s.outcomes.underway.map SignatureRecord.mode, mode = .forward
  tested : ∀ label ∈ s.blackholed, label.2 = Mode.blackhole.toString ∧
    label.1 ∈ rpcConfig.partners ∧
    ∃ request ∈ requests, VerifiedAs crates rpcConfig request label.1

theorem kept_new : Kept crates rpcConfig [] new := by
  refine ⟨Checkers.tallied_start .new, fun label => rfl, ?_, ?_, ?_, ?_, ?_⟩ <;>
    simp [new, Outcomes.new, Outcomes.underway, Checkers.records, SignatureWatcher.new]

theorem Kept.arrive (h : Kept crates rpcConfig requests s) {request : HttpRequest}
    {state : RpcState} {reqId : ℕ} (extracted : metaExtractor crates rpcConfig reqId request.coin
      request.authorization = .ok state) :
    Kept crates rpcConfig (requests ++ [request])
      { s with
        reqIdGen := s.reqIdGen + 1
        called := s.called ++ request.calls.map fun method => (state, method) } := by
  refine ⟨h.tallied, h.conserved, List.forall_mem_append.mpr ⟨fun x hx => ?_, fun x hx => ?_⟩,
    h.waiting, h.publishing, h.forwarded, fun label hlabel => ?_⟩
  · obtain ⟨earlier, hmem, hmeta⟩ := h.called x hx
    exact ⟨earlier, List.mem_append_left _ hmem, hmeta⟩
  · obtain ⟨method, -, rfl⟩ := List.mem_map.mp hx
    exact ⟨request, by simp, reqId, extracted⟩
  · obtain ⟨hmode, hpartner, earlier, hmem, hverified⟩ := h.tested label hlabel
    exact ⟨hmode, hpartner, earlier, List.mem_append_left _ hmem, hverified⟩

theorem Kept.call (h : Kept crates rpcConfig requests s) {n : ℕ} {state : RpcState}
    {method : MethodCall} {prepared : Prepared} {ctime : UInt64} {createdAt : ℕ} {rtime : UInt64}
    (hcalled : s.called[n]? = some (state, method))
    (hprepare : prepare crates state method.data method.config = .ok prepared) :
    Kept crates rpcConfig requests (s.call n state method prepared ctime createdAt rtime) := by
  have herased : ∀ x ∈ s.called.eraseIdx n, ∃ request ∈ requests, ∃ reqId,
      metaExtractor crates rpcConfig reqId request.coin request.authorization = .ok x.1 :=
    fun x hx => h.called x (List.mem_of_mem_eraseIdx hx)
  unfold RpcService.call
  rcases prepare_cases hprepare with hnone |
    ⟨auth, hauth, -, hlabel, ⟨err, rfl⟩ | ⟨signature, -, ⟨hmode, rfl⟩ | ⟨hmode, rfl⟩⟩⟩
  · rw [hnone]
    exact ⟨h.tallied, h.conserved, herased, h.waiting, h.publishing, h.forwarded, h.tested⟩
  · rw [hlabel]
    refine ⟨h.tallied, fun label => ?_, herased, h.waiting, h.publishing, h.forwarded, h.tested⟩
    simp only [accept, CounterVec.value_inc, h.conserved label, List.count_append,
      List.count_singleton, beq_iff_eq]
    omega
  · rw [hlabel]
    refine ⟨h.tallied, fun label => ?_, herased, h.waiting, h.publishing, h.forwarded,
      List.forall_mem_append.mpr ⟨h.tested, List.forall_mem_singleton.mpr ?_⟩⟩
    · simp only [accept, CounterVec.value_inc, h.conserved label, List.count_append,
        List.count_singleton, beq_iff_eq]
      omega
    · obtain ⟨request, hmem, reqId, hmeta⟩ := h.called _ (List.mem_of_getElem? hcalled)
      obtain ⟨hpartner, hverified⟩ := blackhole_of_metaExtractor hmeta hmode hauth
      exact ⟨by rw [hmode], hpartner, request, hmem, hverified⟩
  · rw [hlabel]
    refine ⟨h.tallied, fun label => ?_, herased,
      List.forall_mem_append.mpr ⟨h.waiting, List.forall_mem_singleton.mpr hmode⟩, h.publishing,
      h.forwarded, h.tested⟩
    simp only [accept, CounterVec.value_inc, h.conserved label, List.map_append, List.map_singleton,
      List.count_append, List.count_singleton, beq_iff_eq, WaitingRequest.label]
    omega

-- the call changes places
theorem Kept.lock (h : Kept crates rpcConfig requests s) {n : ℕ} {w : WaitingRequest}
    (hwaiting : s.waiting[n]? = some w) :
    Kept crates rpcConfig requests
      { s with waiting := s.waiting.eraseIdx n, publishing := s.publishing ++ [w] } := by
  refine ⟨h.tallied, fun label => ?_, h.called,
    fun w' hw' => h.waiting w' (List.mem_of_mem_eraseIdx hw'),
    List.forall_mem_append.mpr ⟨h.publishing, List.forall_mem_singleton.mpr
      (h.waiting w (List.mem_of_getElem? hwaiting))⟩, h.forwarded, h.tested⟩
  have hlabel := Interleaving.count_map_eraseIdx_add WaitingRequest.label hwaiting label
  have hconserved := h.conserved label
  simp only [List.map_append, List.map_singleton, List.count_append, List.count_singleton,
    beq_iff_eq]
  omega

theorem Kept.publish (h : Kept crates rpcConfig requests s) {n : ℕ} {env : PublishEnv}
    {w : WaitingRequest} {p : Published} {outcomes : Outcomes}
    (hlocked : s.publishing[n]? = some w)
    (ok : s.outcomes.balancer.publish env (newSession (w.env env) w.state w.auth w.signature)
      (crates.signatureToString w.signature) w.data = .ok p)
    (hstep : s.outcomes.Step clock (.publish (w.env env) w.state w.auth w.signature
      (crates.signatureToString w.signature) w.data) outcomes) :
    Kept crates rpcConfig requests
      { s with
        outcomes
        publishing := s.publishing.eraseIdx n
        refused := match p.result with
          | .ok () => s.refused
          | .error _ => s.refused ++ [w.label] } := by
  have htallied := Outcomes.tallied_step h.tallied hstep
  have hmode := h.publishing w (List.mem_of_getElem? hlocked)
  have hpublishing : ∀ w' ∈ s.publishing.eraseIdx n, w'.state.mode = .forward :=
    fun w' hw' => h.publishing w' (List.mem_of_mem_eraseIdx hw')
  cases hstep with
  | @publish _ _ _ _ _ _ p' ok' alive =>
    obtain rfl : p = p' := Except.ok.inj (ok.symm.trans ok')
    have hunderway : Outcomes.underway { s.outcomes with
        balancer := p.balancer
        inbox := s.outcomes.inbox ++ p.watched
        published := s.outcomes.published ++
          p.watched.map fun record => ⟨record, recipients s.outcomes.balancer p.delivered⟩ } =
        s.outcomes.underway ++ p.watched := by
      simp only [Outcomes.underway, List.append_assoc]
    have herased (label : String × String) :=
      Interleaving.count_map_eraseIdx_add WaitingRequest.label hlocked label
    refine ⟨htallied, fun label => ?_, h.called, h.waiting, hpublishing, ?_, h.tested⟩
    · have hconserved := h.conserved label
      have hlabel := herased label
      rw [hunderway, List.map_append, List.count_append]
      rcases watched_publish ok alive with
        ⟨err, hresult, hwatched⟩ | ⟨hresult, consumers, tpuIps, hwatched⟩
      · simp only [hresult, hwatched, List.count_append, List.count_singleton, beq_iff_eq,
          List.map_nil, List.count_nil]
        omega
      · simp only [hresult, hwatched, List.map_singleton, List.count_singleton, beq_iff_eq]
        have hsame : SignatureRecord.label { newSession (w.env env) w.state w.auth w.signature with
            consumers, tpuIps } = w.label := rfl
        rw [hsame]
        omega
    · rw [hunderway, List.map_append]
      refine List.forall_mem_append.mpr ⟨h.forwarded, ?_⟩
      rcases watched_publish ok alive with ⟨-, -, hwatched⟩ | ⟨-, consumers, tpuIps, hwatched⟩
      · simp [hwatched]
      · simp [hwatched, newSession, hmode]

theorem Kept.step (h : Kept crates rpcConfig requests s)
    (hs : Step crates rpcConfig clock s event s') :
    Kept crates rpcConfig (requests ++ (arrival (s, event)).toList) s' := by
  cases hs with
  | arrive extracted => exact h.arrive extracted
  | call hcalled hprepare =>
    rw [arrival, Option.toList_none, List.append_nil]
    exact h.call hcalled hprepare
  | lock hwaiting =>
    rw [arrival, Option.toList_none, List.append_nil]
    exact h.lock hwaiting
  | publish hlocked ok hstep =>
    rw [arrival, Option.toList_none, List.append_nil]
    exact h.publish hlocked ok hstep
  | outcome other unlocked hstep =>
    rw [arrival, Option.toList_none, List.append_nil]
    have hcontent := Outcomes.content_step hstep other
    refine ⟨Outcomes.tallied_step h.tallied hstep, fun label => ?_, h.called, h.waiting,
      h.publishing, ?_, h.tested⟩
    · rw [Outcomes.map_underway (g := SignatureRecord.label) (fun _ => rfl) hcontent]
      exact h.conserved label
    · rw [Outcomes.map_underway (g := SignatureRecord.mode) (fun _ => rfl) hcontent]
      exact h.forwarded

theorem kept_of_run (h : Run (Step crates rpcConfig clock) new tr s) :
    Kept crates rpcConfig (tr.filterMap arrival) s := by
  induction h with
  | nil => exact kept_new
  | snoc _ hs ih =>
    rw [filterMap_concat]
    exact ih.step hs

theorem Kept.balanced (h : Kept crates rpcConfig requests s) :
    Balanced crates rpcConfig requests s := by
  have houtcomes (label : String × String) :
      s.outcomes.checkers.metrics.finalized.value label +
          s.outcomes.checkers.metrics.timeout.value label + s.outcomes.uncounted label =
        (s.outcomes.underway.map SignatureRecord.label).count label := by
    have hrecords := h.tallied.outcomes label
    have hzero : ChainMetrics.new.finalized.value label +
        ChainMetrics.new.timeout.value label = 0 := rfl
    simp only [Outcomes.uncounted, Outcomes.underway, List.map_append, List.count_append]
    omega
  refine ⟨fun label => ?_, h.tested, fun partner => ?_⟩
  · have hconserved := h.conserved label
    have hlabel := houtcomes label
    omega
  · -- no record is labelled so
    have hnone : (s.outcomes.underway.map SignatureRecord.label).count
        (partner, Mode.blackhole.toString) = 0 := by
      rw [List.count_eq_zero]
      intro hmem
      obtain ⟨record, hrecord, hlabel⟩ := List.mem_map.mp hmem
      have hmode := h.forwarded _ (List.mem_map_of_mem hrecord)
      have htext := congrArg Prod.snd hlabel
      simp only [SignatureRecord.label, hmode] at htext
      exact absurd htext (by decide)
    have hlabel := houtcomes (partner, Mode.blackhole.toString)
    omega

/-! ## A batch of two calls -/

/-- Both calls carry the same transaction. -/
def twoCalls : HttpRequest :=
  ⟨false, none, [⟨zeroData, some ⟨some true⟩⟩, ⟨zeroData, some ⟨some true⟩⟩]⟩

/-- A call of the batch before it is published. -/
def zeroWaiting : WaitingRequest :=
  ⟨zeroState, .allow "unknown", zeroSignature, zeroData, 0, 0, 0⟩

theorem prepare_zeroState : prepare sampleCrates zeroState zeroData (some ⟨some true⟩) =
    .ok (.publishes (.allow "unknown") zeroSignature) := by
  have hdecode : decodeSignature sampleCrates zeroData = .ok (.ok zeroSignature) :=
    decodeSignature_eq_ok_iff.mpr decodes_zeroData
  simp [prepare, zeroState, checkConfig, hdecode]

/-- The first call finds no client; the second one does, and is being published. -/
theorem run_twoCalls : ∃ tr s s', Run (Step sampleCrates ⟨none, []⟩ id) new tr s ∧
    tr.map Prod.snd = [.arrive twoCalls, .call 0 0 0 0, .call 0 0 0 0, .lock 0,
      .publish 0 Outcomes.brieflyOpen.publish, .outcome (.op (.subscribe "A" "token" 0)),
      .lock 0] ∧
    s.rpcTxAccepted.value ("unknown", "FORWARD") = 2 ∧ s.refused = [("unknown", "FORWARD")] ∧
    s.publishing = [zeroWaiting] ∧
    Step sampleCrates ⟨none, []⟩ id s (.publish 0 Outcomes.brieflyOpen.publish) s' ∧
    s'.outcomes.underway = [Outcomes.takenRecord] := by
  have hcalled := (((Run.nil new).snoc (@Step.arrive sampleCrates ⟨none, []⟩ id _ twoCalls zeroState
    rfl)).snoc (@Step.call _ _ _ _ 0 0 0 0 _ _ _ rfl prepare_zeroState)).snoc
    (@Step.call _ _ _ _ 0 0 0 0 _ _ _ rfl prepare_zeroState)
  have hrefused := (hcalled.snoc (@Step.lock _ _ _ _ 0 zeroWaiting rfl)).snoc
    (@Step.publish _ _ _ _ 0 Outcomes.brieflyOpen.publish zeroWaiting _ _ rfl rfl (.publish rfl rfl))
  have hsubscribed := hrefused.snoc (@Step.outcome _ _ _ _ _ _ (by simp) (fun _ _ => rfl)
    (@Outcomes.Step.op _ _ (.subscribe "A" "token" 0) Outcomes.onlyClient
      (by rintro _ _ _ ⟨⟩; rfl) (by simp) rfl))
  have hlocked := hsubscribed.snoc (@Step.lock _ _ _ _ 0 zeroWaiting rfl)
  exact ⟨_, _, _, hlocked, rfl, rfl, rfl, rfl,
    @Step.publish _ _ _ _ 0 Outcomes.brieflyOpen.publish zeroWaiting _ _ rfl rfl
      (.publish rfl rfl), rfl⟩

/-! ## Every run -/

/-- In every state, however the requests, the watcher and the checkers interleave. -/
theorem balanced_of_requests (h : Run (Step crates rpcConfig clock) new tr s) :
    Balanced crates rpcConfig (tr.filterMap arrival) s :=
  (kept_of_run h).balanced

theorem balanced_twoCalls : ∃ tr s, Run (Step sampleCrates ⟨none, []⟩ id) new tr s ∧
    s.rpcTxAccepted.value ("unknown", "FORWARD") = 2 ∧ s.refused = [("unknown", "FORWARD")] ∧
    s.publishing = [zeroWaiting] ∧
    Balanced sampleCrates ⟨none, []⟩ (tr.filterMap arrival) s := by
  obtain ⟨tr, s, -, hrun, -, haccepted, hrefused, hpublishing, -⟩ := run_twoCalls
  exact ⟨tr, s, hrun, haccepted, hrefused, hpublishing, balanced_of_requests hrun⟩

end RpcService

end Mtransaction
