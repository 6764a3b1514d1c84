import Mtransaction.Deployment
import Mtransaction.Server.Attribution

/-!
# Where the transactions of a client come from

Every transaction that reaches a client was asked for by an HTTP request that passed all checks, and
was sent to the identity in the client's own certificate.
-/

namespace Mtransaction

open Runs

/-- The request passes every check before `publish`, and this is the first signature of its data. -/
structure RpcCall.Vouched (crates : Crates) (rpcConfig : RpcConfig) (call : RpcCall)
    (signature : Signature) : Prop where
  /-- with a key configured, the header is `Bearer` and a token that verifies under it -/
  authorized : ∃ header, authHeader crates call.authorization = .ok header ∧
    ∀ publicKey ∈ rpcConfig.publicKey, ∃ claims,
      BearerToken crates.verifyWithKey publicKey header claims
  config : call.config = some ⟨some true⟩
  decodes : Decodes crates call.data signature

theorem RpcCall.Reaches.vouched {crates : Crates} {rpcConfig : RpcConfig} {call : RpcCall}
    {request : PublishRequest} (h : call.Reaches crates rpcConfig request) :
    ∃ signature, call.Vouched crates rpcConfig signature ∧ request.data = call.data ∧
      request.signature = crates.signatureToString signature := by
  obtain ⟨state, auth, signature, hmeta, hauth, ⟨⟨-, hconfig, hdecodes⟩, -⟩, rfl⟩ := h
  refine ⟨signature, ⟨?_, hconfig, hdecodes⟩, rfl, rfl⟩
  unfold metaExtractor at hmeta
  split at hmeta
  · simp at hmeta
  next header hheader =>
    refine ⟨header, hheader, fun publicKey hkey => ?_⟩
    rw [Option.mem_def] at hkey
    rw [hkey] at hmeta
    obtain rfl := Except.ok.inj hmeta
    obtain ⟨claims, -, hbearer⟩ := bearerToken_of_authenticate hauth
    exact ⟨claims, hbearer⟩

namespace Deployment

variable {SocketAddr : Type} {crates : Crates} {rpcConfig : RpcConfig}
  {forward : ForwardCrates SocketAddr} {s s' : Deployment} {event : DeploymentEvent}
  {tr : List (Deployment × DeploymentEvent)} {ltr : List (LockedServer × LockEvent)}

/-- The transaction was asked for by a request of the run that passed all checks, was sent to a
consumer of this identity, and is to be forwarded to leaders that had been announced. -/
structure Genuine (crates : Crates) (rpcConfig : RpcConfig)
    (tr : List (Deployment × DeploymentEvent)) (identity : String) (transaction : Transaction) :
    Prop where
  asked : ∃ t call signature, (t, .rpc call) ∈ tr ∧ call.Vouched crates rpcConfig signature ∧
    transaction.data = call.data ∧ transaction.signature = crates.signatureToString signature
  sent : ∃ t n call pick rest, (t, .server (.send n)) ∈ tr ∧ t.server.publishing[n]? = some call ∧
    call.remaining = pick :: rest ∧ pick.1.identity = identity ∧
    transaction = ⟨call.data, call.signature, pickTpus call.tpuOrder pick.2⟩
  announced : ∀ tpu ∈ transaction.tpu, ∃ t leaderTpus leaders o leader,
    (t, .server (.request (.write (.setLeaders leaderTpus leaders o)))) ∈ tr ∧
    (leader ∈ leaderTpus ∨ leader ∈ leaders.values) ∧ leader.tpu = tpu

/-- Whatever the connections of a process have received is genuine, and meant for the identity that
its own certificate names. -/
def Authentic (crates : Crates) (rpcConfig : RpcConfig) (tr : List (Deployment × DeploymentEvent))
    (s : Deployment) : Prop :=
  ∀ k process, s.processes[k]? = some process → ∀ transaction ∈ received tr s k,
    ∃ identity, getIdentityFromReq process.peerCerts = some identity ∧
      Genuine crates rpcConfig tr identity transaction

/-! ## The server's own run -/

/-- Where a step of the server comes from. -/
def Origin (crates : Crates) (rpcConfig : RpcConfig) (tr : List (Deployment × DeploymentEvent))
    (server : LockedServer) : LockEvent → Prop
  | .request (.read request) =>
    ∃ t call, (t, .rpc call) ∈ tr ∧ call.Reaches crates rpcConfig request
  | .request (.write (.subscribe _ _)) | .grant | .recv _ => True
  | event => ∃ t, (t, .server event) ∈ tr ∧ t.server = server

/-- What the server does in a run of the deployment. -/
structure Projected (crates : Crates) (rpcConfig : RpcConfig)
    (tr : List (Deployment × DeploymentEvent)) (s : Deployment)
    (ltr : List (LockedServer × LockEvent)) : Prop where
  run : Run LockedServer.Step .new ltr s.server
  origins : ∀ x ∈ ltr, Origin crates rpcConfig tr x.1 x.2
  messages : ∀ c, ltr.filterMap (LockedServer.enqueuesOn c) = enqueued tr c
  owners : s.streams.map (fun stream => stream.identity) = LockedServer.owners ltr

theorem Origin.later {server : LockedServer} {lockEvent : LockEvent}
    (h : Origin crates rpcConfig tr server lockEvent) (x : Deployment × DeploymentEvent) :
    Origin crates rpcConfig (tr ++ [x]) server lockEvent := by
  unfold Origin at h ⊢
  split at h
  · obtain ⟨t, call, hmem, hreaches⟩ := h
    exact ⟨t, call, List.mem_append_left _ hmem, hreaches⟩
  · trivial
  · trivial
  · trivial
  · obtain ⟨t, hmem, hserver⟩ := h
    exact ⟨t, List.mem_append_left _ hmem, hserver⟩

/-- A step the server has no part in. -/
theorem Projected.stutter (h : Projected crates rpcConfig tr s ltr)
    (hother : ∀ lockEvent, event ≠ .server lockEvent) (hserver : s'.server = s.server)
    (hstreams : s'.streams.map (fun stream => stream.identity) =
      s.streams.map fun stream => stream.identity) :
    Projected crates rpcConfig (tr ++ [(s, event)]) s' ltr where
  run := hserver ▸ h.run
  origins x hx := (h.origins x hx).later _
  messages c := by rw [enqueued_other hother, h.messages]
  owners := hstreams.trans h.owners

theorem Projected.advance (h : Projected crates rpcConfig tr s ltr) {lockEvent : LockEvent}
    (hstep : s.server.Step lockEvent s'.server)
    (horigin : Origin crates rpcConfig (tr ++ [(s, event)]) s.server lockEvent)
    (henqueued : ∀ c, enqueued (tr ++ [(s, event)]) c =
      enqueued tr c ++ (LockedServer.enqueuesOn c (s.server, lockEvent)).toList)
    (hstreams : s'.streams.map (fun stream => stream.identity) =
      s.streams.map (fun stream => stream.identity) ++
        (LockedServer.subscribes (s.server, lockEvent)).toList) :
    Projected crates rpcConfig (tr ++ [(s, event)]) s' (ltr ++ [(s.server, lockEvent)]) where
  run := h.run.snoc hstep
  origins := List.forall_mem_append.mpr
    ⟨fun x hx => (h.origins x hx).later _, List.forall_mem_singleton.mpr horigin⟩
  messages c := by rw [filterMap_concat, henqueued, h.messages]
  owners := by rw [hstreams, h.owners, LockedServer.owners, LockedServer.owners, filterMap_concat]

-- steps of the server alone do not subscribe anyone
theorem subscribes_of_own {lockEvent : LockEvent} (own : s.server.Own lockEvent) :
    LockedServer.subscribes (s.server, lockEvent) = none := by
  cases lockEvent with
  | grant =>
    simp only [LockedServer.subscribes]
    split
    next identity token rest hwaiting => exact absurd hwaiting (own identity token rest)
    next => rfl
  | _ => rfl

theorem origin_of_own {lockEvent : LockEvent} (own : s.server.Own lockEvent) :
    Origin crates rpcConfig (tr ++ [(s, .server lockEvent)]) s.server lockEvent := by
  unfold Origin
  split
  · exact False.elim own
  · trivial
  · trivial
  · trivial
  · exact ⟨s, List.mem_append_right _ (List.mem_singleton_self _), rfl⟩

theorem Projected.step (h : Projected crates rpcConfig tr s ltr)
    (hs : Step crates rpcConfig forward s event s') :
    ∃ ltr', Projected crates rpcConfig (tr ++ [(s, event)]) s' ltr' := by
  have hsilent {lockEvent : LockEvent} (hother : ∀ lockEvent, event ≠ .server lockEvent)
      (hnone : LockedServer.enqueues (s.server, lockEvent) = none) (c : ConnId) :
      enqueued (tr ++ [(s, event)]) c =
        enqueued tr c ++ (LockedServer.enqueuesOn c (s.server, lockEvent)).toList := by
    rw [enqueued_other hother, LockedServer.enqueuesOn_of_none hnone, List.append_nil]
  cases hs with
  | rpc reaches hstep =>
    refine ⟨_, h.advance hstep ?_ (hsilent (by simp) rfl) (List.append_nil _).symm⟩
    exact ⟨s, _, List.mem_append_right _ (List.mem_singleton_self _), reaches⟩
  | call _ _ _ _ _ _ hstep =>
    exact ⟨_, h.advance hstep trivial (hsilent (by simp) rfl) (List.append_nil _).symm⟩
  | subscribe next hcall hstep =>
    refine ⟨_, h.advance hstep trivial (hsilent (by simp) rfl) ?_⟩
    simp [LockedServer.subscribes, next]
  | server own hstep =>
    refine ⟨_, h.advance hstep (origin_of_own own) (fun c => filterMap_concat _ _ _) ?_⟩
    rw [subscribes_of_own own]
    exact (List.append_nil _).symm
  | pump hstream next hstep =>
    refine ⟨_, h.advance hstep trivial (hsilent (by simp) rfl) ?_⟩
    show _ = _ ++ []
    rw [List.append_nil]
    exact Interleaving.map_set_same _ hstream rfl
  | deliver hstream =>
    exact ⟨_, h.stutter (by simp) rfl (Interleaving.map_set_same _ hstream rfl)⟩
  | start | refuse | answer | client => exact ⟨_, h.stutter (by simp) rfl rfl⟩

theorem projected_of_run (h : Run (Step crates rpcConfig forward) new tr s) :
    ∃ ltr, Projected crates rpcConfig tr s ltr := by
  induction h with
  | nil => exact ⟨[], .nil _, by simp, fun _ => rfl, rfl⟩
  | snoc _ hs ih =>
    obtain ⟨ltr, hltr⟩ := ih
    exact hltr.step hs

/-! ## Whose stream it is -/

/-- Calls and streams have the identity in the certificate of their process. -/
def Identified (s : Deployment) : Prop :=
  ∀ call ∈ s.calls ++ s.streams.map Stream.toTxStreamCall, ∃ process,
    s.processes[call.process]? = some process ∧
      getIdentityFromReq process.peerCerts = some call.identity

/-- Processes come, and those there are keep their certificates. -/
theorem Identified.same (h : s.Identified)
    (hprocesses : ∀ (k : ℕ) (process : Process), s.processes[k]? = some process →
      ∃ process', s'.processes[k]? = some process' ∧ process'.peerCerts = process.peerCerts)
    (hcalls : s'.calls = s.calls)
    (hstreams : s'.streams.map Stream.toTxStreamCall = s.streams.map Stream.toTxStreamCall) :
    s'.Identified := by
  intro call hcall
  rw [hcalls, hstreams] at hcall
  obtain ⟨process, hprocess, hidentity⟩ := h call hcall
  obtain ⟨process', hprocess', hcerts⟩ := hprocesses _ process hprocess
  exact ⟨process', hprocess', hcerts ▸ hidentity⟩

theorem peerCerts_setClient {k : ℕ} {process : Process} (hprocess : s.processes[k]? = some process)
    (client : Client) (k' : ℕ) (process' : Process) (hprocess' : s.processes[k']? = some process') :
    ∃ process'', (s.setClient k process client).processes[k']? = some process'' ∧
      process''.peerCerts = process'.peerCerts := by
  rw [setClient]
  by_cases hk : k = k'
  · subst hk
    obtain rfl := Option.some.inj (hprocess.symm.trans hprocess')
    exact ⟨_, List.getElem?_set_self (List.getElem?_eq_some_iff.mp hprocess).1, rfl⟩
  · exact ⟨process', by rw [List.getElem?_set_ne hk, hprocess'], rfl⟩

theorem Identified.step (h : s.Identified) (hs : Step crates rpcConfig forward s event s') :
    s'.Identified := by
  have hkept (k : ℕ) (process : Process) (hprocess : s.processes[k]? = some process) :
      ∃ process', s.processes[k]? = some process' ∧ process'.peerCerts = process.peerCerts :=
    ⟨process, hprocess, rfl⟩
  cases hs with
  | start =>
    refine h.same (fun k process hprocess => ⟨process, ?_, rfl⟩) rfl rfl
    rw [List.getElem?_append_left (List.getElem?_eq_some_iff.mp hprocess).1, hprocess]
  | rpc | server => exact h.same hkept rfl rfl
  | call hprocess running hconn calling identified once hstep =>
    intro call hcall
    simp only [List.mem_append, List.mem_singleton] at hcall
    rcases hcall with (hold | rfl) | hold
    · exact h call (List.mem_append_left _ hold)
    · exact ⟨_, hprocess, identified⟩
    · exact h call (List.mem_append_right _ hold)
  | @subscribe call calls rest server next hcall hstep =>
    -- the call becomes a stream
    intro call' hmem
    refine h call' ?_
    simp only [List.map_append, List.map_singleton, List.mem_append, List.mem_singleton] at hmem
    rw [hcall]
    rcases hmem with hold | hold | rfl
    · exact List.mem_append_left _ (List.mem_cons_of_mem _ hold)
    · exact List.mem_append_right _ hold
    · exact List.mem_append_left _ List.mem_cons_self
  | pump hstream => exact h.same hkept rfl (Interleaving.map_set_same _ hstream rfl)
  | deliver hstream next hprocess =>
    exact h.same (peerCerts_setClient hprocess _) rfl (Interleaving.map_set_same _ hstream rfl)
  | refuse hprocess => exact h.same (peerCerts_setClient hprocess _) rfl rfl
  | answer hstream hprocess => exact h.same (peerCerts_setClient hprocess _) rfl rfl
  | client hprocess => exact h.same (peerCerts_setClient hprocess _) rfl rfl

theorem identified_of_run (h : Run (Step crates rpcConfig forward) new tr s) : s.Identified :=
  h.invariant (by simp [Identified, new]) fun _ _ _ _ ht hs => ht.step hs

/-! ## From the request to the client -/

/-- What the server's own run puts on a channel is genuine. -/
theorem Projected.genuine (h : Projected crates rpcConfig tr s ltr) {conn : ConnId}
    {transaction : Transaction} (ha : LockedServer.Attributable ltr conn transaction)
    {stream : Stream} (hstream : s.streams[conn]? = some stream) :
    Genuine crates rpcConfig tr stream.identity transaction := by
  obtain ⟨t, n, call, pick, rest, request, hmem, hcall, hnext, rfl, howner, ⟨t', hrequest⟩, hdata,
    hsignature, hleaders⟩ := ha
  refine ⟨?_, ?_, fun tpu htpu => ?_⟩
  · obtain ⟨d, rpcCall, hrpc, hreaches⟩ := h.origins _ hrequest
    obtain ⟨signature, hvouched, hdata', hsignature'⟩ := hreaches.vouched
    exact ⟨d, rpcCall, signature, hrpc, hvouched, hdata.trans hdata', hsignature.trans hsignature'⟩
  · obtain ⟨d, hsend, rfl⟩ := h.origins _ hmem
    rw [← h.owners, List.getElem?_map, hstream] at howner
    exact ⟨d, n, call, pick, rest, hsend, hcall, hnext, (Option.some.inj howner).symm, rfl⟩
  · have hinfo : tpu ∈ pick.2.map LeaderInfo.tpu := by simpa [pickTpus] using htpu
    obtain ⟨leader, hleader, rfl⟩ := List.mem_map.mp hinfo
    obtain ⟨t'', leaderTpus, leaders, o, hset, hlisted⟩ := hleaders leader hleader
    obtain ⟨d, hserver, -⟩ := h.origins _ hset
    exact ⟨d, leaderTpus, leaders, o, leader, hserver, hlisted, rfl⟩

/-- In every run, whoever connects under whatever certificate and whoever sends requests. -/
theorem authentic_of_run (h : Run (Step crates rpcConfig forward) new tr s) :
    Authentic crates rpcConfig tr s := by
  obtain ⟨ltr, hltr⟩ := projected_of_run h
  intro k process hprocess transaction hmem
  have hbrought := ((merged_of_run h).once k).mem_iff.mp hmem
  obtain ⟨stream, hstream, hread⟩ := List.mem_flatMap.mp hbrought
  obtain ⟨hstream, hk⟩ := List.mem_filter.mp hstream
  obtain ⟨c, hc⟩ := List.mem_iff_getElem?.mp hstream
  obtain ⟨message, hmessage, htransaction⟩ := List.mem_filterMap.mp hread
  -- what was read was put on the channel
  have henqueued : message ∈ ltr.filterMap (LockedServer.enqueuesOn c) := by
    rw [hltr.messages, ← (linked_of_run h).order c stream hc]
    simp [hmessage]
  obtain ⟨x, hx, hon⟩ := List.mem_filterMap.mp henqueued
  obtain ⟨e, he, rfl⟩ := Option.map_eq_some_iff.mp hon
  obtain ⟨hputs, hconn⟩ := Option.filter_eq_some_iff.mp he
  have hattributable := (LockedServer.attributed_of_run hltr.run).messages e.1 e.2
    (List.mem_filterMap.mpr ⟨x, hx, hputs⟩) transaction htransaction
  rw [of_decide_eq_true hconn] at hattributable
  have hidentity := identified_of_run h stream.toTxStreamCall
    (List.mem_append_right _ (List.mem_map_of_mem hstream))
  rw [show stream.process = k by simpa using hk, hprocess] at hidentity
  obtain ⟨process', hsame, hidentity⟩ := hidentity
  obtain rfl := Option.some.inj hsame
  exact ⟨stream.identity, hidentity, hltr.genuine hattributable hc⟩

/-- The token of `keyedCall` and the certificate of client "A" stand behind the one transaction. -/
theorem authentic_keyedCall : ∃ tr s, Run (Step keyedCrates keyedConfig Client.sampleForwardCrates)
    new tr s ∧ keyedTransaction ∈ received tr s 0 ∧
      Authentic keyedCrates keyedConfig tr s := by
  obtain ⟨tr, s, hrun, hdispatched, -⟩ := run_keyedCall
  refine ⟨tr, s, hrun, ?_, authentic_of_run hrun⟩
  rw [received, hdispatched]
  exact List.mem_cons_self

end Deployment

end Mtransaction
