import Mtransaction.Lib.Provenance
import Mtransaction.Server.Ledger

/-!
# Which request a record belongs to

The meta extractor numbers the requests, and the number travels with the session to the watcher and
the checkers, whose log lines are joined by it.  A batch gives all its calls the same number.
-/

namespace Mtransaction

open Runs Provenance

/-- A call of the request that came in as number `index`. -/
structure Origin where
  index : ℕ
  request : HttpRequest
  method : MethodCall

/-- `req_id_gen` is a `usize`. -/
def Origin.reqId (o : Origin) : ℕ := o.index % 2 ^ 64

def origins (requests : List HttpRequest) : List Origin :=
  requests.zipIdx.flatMap fun x => x.1.calls.map fun method => ⟨x.2, x.1, method⟩

/-- The record is that of the call: it has the request's number, the transaction's first signature,
and the name the request was authenticated under. -/
structure MadeFor (crates : Crates) (rpcConfig : RpcConfig) (record : SignatureRecord)
    (o : Origin) : Prop where
  reqId : record.reqId = o.reqId
  preflight : checkConfig o.method.config = .ok ()
  signature : Decodes crates o.method.data record.signature
  mode : record.mode = .forward
  partner : ∃ state auth, metaExtractor crates rpcConfig o.reqId o.request.coin
    o.request.authorization = .ok state ∧ state.mode = .forward ∧ state.auth = .ok auth ∧
      record.partnerName = auth.toString

/-- The records are those of different calls; as long as the numbers do not wrap around, there are
at most as many with the number of a request as the request has calls. -/
structure Traceable (crates : Crates) (rpcConfig : RpcConfig) (requests : List HttpRequest)
    (records : List SignatureRecord) : Prop where
  origin : Traces (MadeFor crates rpcConfig) records (origins requests)
  unique : requests.length ≤ 2 ^ 64 → ∀ k request, requests[k]? = some request →
    records.countP (fun record => record.reqId = k) ≤ request.calls.length

theorem reqId_of_metaExtractor {crates : Crates} {rpcConfig : RpcConfig} {reqId : ℕ} {coin : Bool}
    {authorization : Option HeaderValue} {state : RpcState}
    (h : metaExtractor crates rpcConfig reqId coin authorization = .ok state) :
    state.reqId = reqId := by
  unfold metaExtractor at h
  split at h
  · simp at h
  · cases hkey : rpcConfig.publicKey <;> simp only [hkey, Except.ok.injEq] at h <;> subst h <;> rfl

theorem origins_concat (requests : List HttpRequest) (request : HttpRequest) :
    origins (requests ++ [request]) = origins requests ++
      request.calls.map fun method => ⟨requests.length, request, method⟩ := by
  simp [origins, List.zipIdx_append]

theorem index_lt_of_mem {requests : List HttpRequest} {o : Origin} (h : o ∈ origins requests) :
    o.index < requests.length := by
  obtain ⟨⟨request, index⟩, hmem, ho⟩ := List.mem_flatMap.mp h
  obtain ⟨method, -, rfl⟩ := List.mem_map.mp ho
  exact (List.mem_zipIdx' hmem).1

theorem countP_origins {requests : List HttpRequest} {k : ℕ} {request : HttpRequest}
    (h : requests[k]? = some request) :
    (origins requests).countP (fun o => o.index = k) = request.calls.length := by
  induction requests using List.reverseRecOn with
  | nil => simp at h
  | append_singleton requests last ih =>
    rw [origins_concat, List.countP_append, List.countP_map]
    by_cases hk : k < requests.length
    · rw [List.getElem?_append_left hk] at h
      simp [ih h, Function.comp_def, hk.ne']
    · -- the last request
      obtain rfl : k = requests.length := by
        have := (List.getElem?_eq_some_iff.mp h).1
        rw [List.length_append, List.length_singleton] at this
        omega
      obtain rfl : last = request := by simpa using h
      have hnone : (origins requests).countP (fun o => o.index = requests.length) = 0 := by
        rw [List.countP_eq_zero]
        intro o ho
        simpa using (index_lt_of_mem ho).ne
      simp [hnone, Function.comp_def]

/-! ## A call on its way -/

/-- The places a call passes through. -/
inductive Stage
  | called (state : RpcState) (method : MethodCall)
  | waiting (w : WaitingRequest)
  | publishing (w : WaitingRequest)
  | underway (record : SignatureRecord)

section

variable (crates : Crates) (rpcConfig : RpcConfig)

def WaitingRequest.From (w : WaitingRequest) (o : Origin) : Prop :=
  checkConfig o.method.config = .ok () ∧ w.data = o.method.data ∧
    Decodes crates o.method.data w.signature ∧ w.state.mode = .forward ∧
    w.state.auth = .ok w.auth ∧
    metaExtractor crates rpcConfig o.reqId o.request.coin o.request.authorization = .ok w.state

def Stage.From : Stage → Origin → Prop
  | .called state method, o => method = o.method ∧
      metaExtractor crates rpcConfig o.reqId o.request.coin o.request.authorization = .ok state
  | .waiting w, o => w.From crates rpcConfig o
  | .publishing w, o => w.From crates rpcConfig o
  | .underway record, o => MadeFor crates rpcConfig record o

end

namespace RpcService

variable {crates : Crates} {rpcConfig : RpcConfig} {clock : ℕ → ℕ} {s s' : RpcService}
  {event : ServiceEvent} {requests : List HttpRequest} {tr : List (RpcService × ServiceEvent)}

-- records without their stamps, which the watcher overwrites
def stages (s : RpcService) : List Stage :=
  s.called.map (fun x => .called x.1 x.2) ++ (s.waiting.map .waiting ++
    (s.publishing.map .publishing ++
      (s.outcomes.underway.map SignatureRecord.content).map .underway))

theorem stages_called {n : ℕ} {state : RpcState} {method : MethodCall}
    (h : s.called[n]? = some (state, method)) :
    (Stage.called state method :: { s with called := s.called.eraseIdx n }.stages).Perm
      s.stages := by
  obtain ⟨hlt, heq⟩ := List.getElem?_eq_some_iff.mp h
  have hperm := (List.getElem_cons_eraseIdx_perm hlt).map fun x => Stage.called x.1 x.2
  rw [heq] at hperm
  exact hperm.append_right _

theorem stages_waiting {n : ℕ} {w : WaitingRequest} (h : s.waiting[n]? = some w) :
    (Stage.waiting w :: { s with waiting := s.waiting.eraseIdx n }.stages).Perm s.stages := by
  obtain ⟨hlt, rfl⟩ := List.getElem?_eq_some_iff.mp h
  have hperm := (List.getElem_cons_eraseIdx_perm hlt).map Stage.waiting
  exact List.perm_middle.symm.trans ((hperm.append_right _).append_left _)

theorem stages_publishing {n : ℕ} {w : WaitingRequest} (h : s.publishing[n]? = some w) :
    (Stage.publishing w :: { s with publishing := s.publishing.eraseIdx n }.stages).Perm
      s.stages := by
  obtain ⟨hlt, rfl⟩ := List.getElem?_eq_some_iff.mp h
  have hperm := (List.getElem_cons_eraseIdx_perm hlt).map Stage.publishing
  -- past the calls and the waiting
  refine List.perm_middle.symm.trans (.append_left _ ?_)
  exact List.perm_middle.symm.trans ((hperm.append_right _).append_left _)

theorem stages_wait {w : WaitingRequest} :
    { s with waiting := s.waiting ++ [w] }.stages.Perm (Stage.waiting w :: s.stages) := by
  simp only [stages, List.map_append, List.map_singleton, List.append_assoc, List.singleton_append]
  exact (List.perm_middle.append_left _).trans List.perm_middle

theorem stages_lock {w : WaitingRequest} :
    { s with publishing := s.publishing ++ [w] }.stages.Perm (Stage.publishing w :: s.stages) := by
  simp only [stages, List.map_append, List.map_singleton, List.append_assoc, List.singleton_append]
  refine ((List.perm_middle.append_left _).append_left _).trans ?_
  exact (List.perm_middle.append_left _).trans List.perm_middle

/-- The calls on their way come from different calls of the requests so far. -/
structure Traced (crates : Crates) (rpcConfig : RpcConfig) (requests : List HttpRequest)
    (s : RpcService) : Prop where
  reqIdGen : s.reqIdGen.toNat = requests.length % 2 ^ 64
  stages : Traces (Stage.From crates rpcConfig) s.stages (origins requests)

theorem traced_new : Traced crates rpcConfig [] new :=
  ⟨rfl, traces_nil _⟩

theorem Traced.arrive (h : Traced crates rpcConfig requests s) {request : HttpRequest}
    {state : RpcState} (extracted : metaExtractor crates rpcConfig s.reqIdGen.toNat request.coin
      request.authorization = .ok state) :
    Traced crates rpcConfig (requests ++ [request])
      { s with
        reqIdGen := s.reqIdGen + 1
        called := s.called ++ request.calls.map fun method => (state, method) } := by
  rw [h.reqIdGen] at extracted
  refine ⟨?_, ?_⟩
  · rw [List.length_append, List.length_singleton]
    have := h.reqIdGen
    simp only [UInt64.toNat_add, UInt64.toNat_one]
    omega
  · rw [origins_concat]
    have hnew : List.Forall₂ (Stage.From crates rpcConfig)
        (request.calls.map fun method => .called state method)
        (request.calls.map fun method => ⟨requests.length, request, method⟩) := by
      rw [List.forall₂_map_left_iff, List.forall₂_map_right_iff, List.forall₂_same]
      exact fun method _ => ⟨rfl, extracted⟩
    refine (h.stages.grow hnew).perm ?_
    simp only [RpcService.stages, List.map_append, List.map_map, Function.comp_def,
      List.append_assoc]
    exact List.perm_append_comm_assoc _ _ _

theorem Traced.call (h : Traced crates rpcConfig requests s) {n : ℕ} {state : RpcState}
    {method : MethodCall} {prepared : Prepared} {ctime : UInt64} {createdAt : ℕ} {rtime : UInt64}
    (hcalled : s.called[n]? = some (state, method))
    (hprepare : prepare crates state method.data method.config = .ok prepared) :
    Traced crates rpcConfig requests (s.call n state method prepared ctime createdAt rtime) := by
  have htraces := h.stages.perm (stages_called hcalled)
  unfold RpcService.call
  rcases prepare_cases hprepare with hnone |
    ⟨auth, hauth, hconfig, hlabel, ⟨err, rfl⟩ | ⟨signature, hdecodes, ⟨hmode, rfl⟩ | ⟨hmode, rfl⟩⟩⟩
  · rw [hnone]
    exact ⟨h.reqIdGen, htraces.tail⟩
  · rw [hlabel]
    exact ⟨h.reqIdGen, htraces.tail⟩
  · rw [hlabel]
    exact ⟨h.reqIdGen, htraces.tail⟩
  · rw [hlabel]
    refine ⟨h.reqIdGen, (htraces.change ?_).perm stages_wait⟩
    rintro o ⟨rfl, hmeta⟩
    exact ⟨hconfig, rfl, hdecodes, hmode, hauth, hmeta⟩

theorem Traced.lock (h : Traced crates rpcConfig requests s) {n : ℕ} {w : WaitingRequest}
    (hwaiting : s.waiting[n]? = some w) :
    Traced crates rpcConfig requests
      { s with waiting := s.waiting.eraseIdx n, publishing := s.publishing ++ [w] } := by
  have htraces := h.stages.perm (stages_waiting hwaiting)
  have hlocked : Traces (Stage.From crates rpcConfig)
      (.publishing w :: { s with waiting := s.waiting.eraseIdx n }.stages) (origins requests) :=
    htraces.change fun _ hfrom => hfrom
  exact ⟨h.reqIdGen, hlocked.perm
    (stages_lock (s := { s with waiting := s.waiting.eraseIdx n }))⟩

theorem Traced.publish (h : Traced crates rpcConfig requests s) {n : ℕ} {env : PublishEnv}
    {w : WaitingRequest} {p : Published} {outcomes : Outcomes} {refused : List (String × String)}
    (hlocked : s.publishing[n]? = some w)
    (ok : s.outcomes.balancer.publish env (newSession (w.env env) w.state w.auth w.signature)
      (crates.signatureToString w.signature) w.data = .ok p)
    (hstep : s.outcomes.Step clock (.publish (w.env env) w.state w.auth w.signature
      (crates.signatureToString w.signature) w.data) outcomes) :
    Traces (Stage.From crates rpcConfig)
      { s with outcomes, publishing := s.publishing.eraseIdx n, refused }.stages
      (origins requests) := by
  have htraces := h.stages.perm (stages_publishing hlocked)
  cases hstep with
  | @publish _ _ _ _ _ _ p' ok' alive =>
    obtain rfl : p = p' := Except.ok.inj (ok.symm.trans ok')
    have hstages : ({ s with
        outcomes := { s.outcomes with
          balancer := p.balancer
          inbox := s.outcomes.inbox ++ p.watched
          published := s.outcomes.published ++
            p.watched.map fun record => ⟨record, recipients s.outcomes.balancer p.delivered⟩ }
        publishing := s.publishing.eraseIdx n
        refused } : RpcService).stages = { s with publishing := s.publishing.eraseIdx n }.stages ++
          (p.watched.map SignatureRecord.content).map .underway := by
      simp only [RpcService.stages, Outcomes.underway, List.map_append, List.append_assoc]
    rw [hstages]
    rcases watched_publish ok alive with ⟨err, -, hwatched⟩ | ⟨-, consumers, tpuIps, hwatched⟩
    · rw [hwatched, List.map_nil, List.map_nil, List.append_nil]
      exact htraces.tail
    · rw [hwatched, List.map_singleton, List.map_singleton]
      refine (htraces.change ?_).perm List.perm_append_comm
      rintro o ⟨hconfig, -, hdecodes, hmode, hauth, hmeta⟩
      exact ⟨reqId_of_metaExtractor hmeta, hconfig, hdecodes, hmode,
        _, _, hmeta, hmode, hauth, rfl⟩

theorem Traced.step (h : Traced crates rpcConfig requests s)
    (hs : Step crates rpcConfig clock s event s') :
    Traced crates rpcConfig (requests ++ (arrival (s, event)).toList) s' := by
  cases hs with
  | arrive extracted => exact h.arrive extracted
  | call hcalled hprepare =>
    rw [arrival, Option.toList_none, List.append_nil]
    exact h.call hcalled hprepare
  | lock hwaiting =>
    rw [arrival, Option.toList_none, List.append_nil]
    exact h.lock hwaiting
  | publish hlocked ok hstep =>
    rw [arrival, Option.toList_none, List.append_nil]
    exact ⟨h.reqIdGen, h.publish hlocked ok hstep⟩
  | outcome other unlocked hstep =>
    rw [arrival, Option.toList_none, List.append_nil]
    refine ⟨h.reqIdGen, ?_⟩
    rw [RpcService.stages, Outcomes.content_step hstep other]
    exact h.stages

theorem traced_of_run (h : Run (Step crates rpcConfig clock) new tr s) :
    Traced crates rpcConfig (tr.filterMap arrival) s := by
  induction h with
  | nil => exact traced_new
  | snoc _ hs ih =>
    rw [filterMap_concat]
    exact ih.step hs

theorem Traced.underway (h : Traced crates rpcConfig requests s) :
    Traces (MadeFor crates rpcConfig) s.outcomes.underway (origins requests) := by
  obtain ⟨zs, hrel, hsub⟩ := h.stages.of_append.of_append.of_append
  rw [List.map_map, List.forall₂_map_left_iff] at hrel
  refine ⟨zs, hrel.imp fun record o hmade => ?_, hsub⟩
  exact ⟨hmade.reqId, hmade.preflight, hmade.signature, hmade.mode, hmade.partner⟩

/-- In every state, however the requests, the watcher and the checkers interleave. -/
theorem traceable_of_run (h : Run (Step crates rpcConfig clock) new tr s) :
    Traceable crates rpcConfig (tr.filterMap arrival) s.outcomes.underway := by
  have htraces := (traced_of_run h).underway
  refine ⟨htraces, fun hlength k request hrequest => ?_⟩
  have hindex : (origins (tr.filterMap arrival)).countP (fun o => o.reqId = k) =
      (origins (tr.filterMap arrival)).countP fun o => o.index = k := by
    refine List.countP_congr fun o ho => ?_
    rw [Origin.reqId, Nat.mod_eq_of_lt (Nat.lt_of_lt_of_le (index_lt_of_mem ho) hlength)]
  rw [← countP_origins hrequest, ← hindex]
  refine htraces.countP_le fun record o hmade hk => ?_
  rwa [hmade.reqId] at hk

theorem traceable_twoCalls : ∃ tr s, Run (Step sampleCrates ⟨none, []⟩ id) new tr s ∧
    tr.filterMap arrival = [twoCalls] ∧ s.outcomes.underway = [Outcomes.takenRecord] ∧
    Traceable sampleCrates ⟨none, []⟩ (tr.filterMap arrival) s.outcomes.underway := by
  obtain ⟨tr, s, s', hrun, hevents, -, -, -, hpublish, hunderway⟩ := run_twoCalls
  have hrun' := hrun.snoc hpublish
  refine ⟨_, s', hrun', ?_, hunderway, traceable_of_run hrun'⟩
  have harrival : arrival = (fun event => arrival (new, event)) ∘ Prod.snd := rfl
  rw [harrival, ← List.filterMap_map, List.map_append, hevents]
  rfl

end RpcService

end Mtransaction
