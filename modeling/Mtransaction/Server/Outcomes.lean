import Mtransaction.Server.RpcServer
import Mtransaction.Server.SignatureChecker
import Mtransaction.Server.SignatureWatcher

/-!
# From `publish` to the outcome counters

A record is made by a call of `publish`, travels to the watcher over `watcher_inbox`, waits in its
queue, and is counted by a checker.  The counters by consumer and by TPU address are advanced from
what `publish` wrote into the record.
-/

namespace Mtransaction

open Runs

/-- What a call of `publish` did: the record it handed over, and the consumers whose channels took
the envelope, one entry per envelope. -/
structure Publication where
  record : SignatureRecord
  recipients : List String

/-- The server between requests and counters.  Every `subscribe` makes channel number `nextConn`. -/
structure Outcomes where
  balancer : Balancer
  nextConn : ConnId
  inbox : List SignatureRecord
  watcher : SignatureWatcher
  checkers : Checkers
  published : List Publication

inductive OutcomeEvent
  | op (op : BalancerOp)
  | publish (env : RequestEnv) (state : RpcState) (auth : Auth) (signature : Signature)
      (text data : String)
  | arrive
  | tick
  | check (event : CheckerEvent)

def recipients (b : Balancer) (delivered : List (ConnId × ResponseMessageEnvelope)) : List String :=
  delivered.flatMap fun x =>
    (b.txConsumers.toPairs.filter fun e => e.2.tx = x.1).map Prod.fst

/-- `tokio::spawn(signature_checker(..))` for each bundle. -/
def Checkers.spawnAll (s : Checkers) (bundles : List Bundle) : Checkers :=
  bundles.foldl (fun s bundle => s.spawn bundle.records) s

namespace Outcomes

def new : Outcomes := ⟨.new, 0, [], .new, ⟨.new, []⟩, []⟩

/-- The steps of all tasks.  What the clock shows at the watcher's readings is `clock`. -/
inductive Step (clock : ℕ → ℕ) : Outcomes → OutcomeEvent → Outcomes → Prop
  | op {s : Outcomes} {op : BalancerOp} {balancer : Balancer}
      (fresh : ∀ identity token conn, op = .subscribe identity token conn → conn = s.nextConn)
      (other : ∀ env session signature data, op ≠ .publish env session signature data)
      (ok : s.balancer.step op = .ok balancer) :
      Step clock s (.op op) { s with balancer, nextConn := s.nextConn + 1 }
  | publish {s : Outcomes} {env : RequestEnv} {state : RpcState} {auth : Auth}
      {signature : Signature} {text data : String} {p : Published}
      (ok : s.balancer.publish env.publish (newSession env state auth signature) text data = .ok p)
      (alive : env.publish.watcherAlive) :
      Step clock s (.publish env state auth signature text data)
        { s with
          balancer := p.balancer
          inbox := s.inbox ++ p.watched
          published := s.published ++
            p.watched.map fun record => ⟨record, recipients s.balancer p.delivered⟩ }
  | arrive {s : Outcomes} {record : SignatureRecord} {rest : List SignatureRecord}
      (next : s.inbox = record :: rest) :
      Step clock s .arrive { s with inbox := rest, watcher := s.watcher.arrive clock record }
  | tick {s : Outcomes} {watcher : SignatureWatcher}
      (ticked : SignatureWatcher.Step clock s.watcher .tick watcher) :
      Step clock s .tick
        { s with
          watcher
          checkers := s.checkers.spawnAll (watcher.spawned.drop s.watcher.spawned.length) }
  | check {s : Outcomes} {event : CheckerEvent} {checkers : Checkers}
      (own : ∀ bundle, event ≠ .spawn bundle) (hstep : s.checkers.Step event checkers) :
      Step clock s (.check event) { s with checkers }

/-- Every record has arrived, has been bundled and has been counted. -/
def AllChecked (s : Outcomes) : Prop :=
  s.inbox = [] ∧ s.watcher.signatureQueue = [] ∧ s.checkers.Settled

/-- The counters by partner, by consumer and by address add up to the transactions published, those
delivered to the consumer, and those sent to the address. -/
structure Accounted (s : Outcomes) : Prop where
  byPartner : ∀ label, s.checkers.metrics.finalized.value label +
    s.checkers.metrics.timeout.value label =
      (s.published.map fun x => x.record.label).count label
  byConsumer : ∀ c, s.checkers.metrics.finalizedByConsumer.value c +
    s.checkers.metrics.timeoutByConsumer.value c = s.published.countP fun x => c ∈ x.recipients
  byTpuIp : ∀ ip, s.checkers.metrics.finalizedByTpuIp.value ip +
    s.checkers.metrics.timeoutByTpuIp.value ip = s.published.countP fun x => ip ∈ x.record.tpuIps

/-- The step does not spoil the counters: no consumer is picked twice and takes the envelope both
times, and no request for statuses fails for a record that was delivered. -/
def Countable (s : Outcomes) : OutcomeEvent → Prop
  | .publish env _ _ _ _ _ => ∀ picks,
      s.balancer.pickConsumers env.publish.order env.publish.rng = .ok picks →
        ((acceptedPicks env.publish 0 picks).map fun pick => pick.1.identity).Nodup
  | .check (.respond n _ (.error _)) => ∀ task, s.checkers.tasks[n]? = some task →
      ∀ record ∈ task.bundle, record.consumers = [] ∧ record.tpuIps = ∅
  | _ => True

end Outcomes

/-! ## Channels tell consumers apart -/

namespace Balancer

variable {b b' : Balancer} {op : BalancerOp} {i : String} {c' : TxConsumer}

theorem step_tx (h : b.step op = .ok b') (hc : b'.txConsumers.lookup i = some c') :
    (∃ c, b.txConsumers.lookup i = some c ∧ c'.tx = c.tx) ∨
      ∃ token conn, op = .subscribe i token conn ∧ c'.tx = conn := by
  rcases step_entry h hc with
    ⟨token, conn, rfl, rfl⟩ | ⟨w, c, -, hold, rfl⟩ | ⟨c, flag, hold, rfl⟩
  · exact .inr ⟨token, conn, rfl, rfl⟩
  · exact .inl ⟨c, hold, rfl⟩
  · exact .inl ⟨c, hold, rfl⟩

structure Channels (b : Balancer) (n : ConnId) : Prop where
  lt : ∀ i c, b.txConsumers.lookup i = some c → c.tx < n
  distinct : ∀ i j c d, b.txConsumers.lookup i = some c → b.txConsumers.lookup j = some d →
    c.tx = d.tx → i = j

theorem Channels.step {n : ConnId} (h : b.Channels n) (hs : b.step op = .ok b')
    (hfresh : ∀ identity token conn, op = .subscribe identity token conn → conn = n) :
    b'.Channels (n + 1) := by
  constructor
  · intro i c' hc'
    rcases step_tx hs hc' with ⟨c, hc, htx⟩ | ⟨token, conn, hop, htx⟩
    · rw [htx]
      exact Nat.lt_succ_of_lt (h.lt i c hc)
    · rw [htx, hfresh i token conn hop]
      exact Nat.lt_succ_self n
  · intro i j c' d' hc' hd' heq
    -- an old channel is below `n`, a new one is `n`
    rcases step_tx hs hc' with ⟨c, hc, hctx⟩ | ⟨token, conn, hop, hctx⟩ <;>
      rcases step_tx hs hd' with ⟨d, hd, hdtx⟩ | ⟨token', conn', hop', hdtx⟩
    · exact h.distinct i j c d hc hd (by rw [← hctx, ← hdtx, heq])
    · have hlt := h.lt i c hc
      rw [← hctx, heq, hdtx, hfresh j token' conn' hop'] at hlt
      exact absurd hlt (Nat.lt_irrefl n)
    · have hlt := h.lt j d hd
      rw [← hdtx, ← heq, hctx, hfresh i token conn hop] at hlt
      exact absurd hlt (Nat.lt_irrefl n)
    · rw [hop] at hop'
      exact (BalancerOp.subscribe.inj hop').1

-- flags touch no channel
theorem Channels.publish {n : ConnId} {env : PublishEnv} {session : SignatureRecord}
    {signature data : String} {p : Published} (h : b.Channels n)
    (hp : b.publish env session signature data = .ok p) : p.balancer.Channels n := by
  obtain ⟨identities, heq⟩ := publish_flags hp
  have hold {i : String} {c' : TxConsumer} (hc' : p.balancer.txConsumers.lookup i = some c') :
      ∃ c, b.txConsumers.lookup i = some c ∧ c'.tx = c.tx := by
    rw [heq, lookup_foldl_flagUnsubscribe] at hc'
    obtain ⟨c, hc, rfl⟩ := Option.map_eq_some_iff.mp hc'
    exact ⟨c, hc, rfl⟩
  constructor
  · intro i c' hc'
    obtain ⟨c, hc, htx⟩ := hold hc'
    rw [htx]
    exact h.lt i c hc
  · intro i j c' d' hc' hd' htx
    obtain ⟨c, hc, hctx⟩ := hold hc'
    obtain ⟨d, hd, hdtx⟩ := hold hd'
    exact h.distinct i j c d hc hd (by rw [← hctx, ← hdtx, htx])

end Balancer

/-! ## What a publication records -/

-- a connected consumer's channel belongs to it alone
theorem Balancer.Channels.owner {b : Balancer} {n : ConnId} (h : b.Channels n) {c : TxConsumer}
    (hc : c ∈ b.txConsumers.values) :
    (b.txConsumers.toPairs.filter fun e => e.2.tx = c.tx).map Prod.fst = [c.identity] := by
  obtain ⟨i, hi⟩ := AList.mem_values.mp hc
  obtain rfl := b.keyed i c hi
  apply List.perm_singleton.mp
  rw [List.perm_ext_iff_of_nodup
    (b.txConsumers.nodup_fst_toPairs.sublist (List.filter_sublist.map _)) (List.nodup_singleton _)]
  intro j
  simp only [List.mem_map, List.mem_filter, List.mem_singleton, Prod.exists, AList.mem_toPairs,
    decide_eq_true_eq]
  constructor
  · rintro ⟨j', d, ⟨hd, htx⟩, rfl⟩
    exact h.distinct _ _ d c hd hi htx
  · rintro rfl
    exact ⟨_, c, ⟨hi, rfl⟩, rfl⟩

/-- The record names exactly the consumers that took the envelope, as often as they did. -/
theorem recipients_publish {b : Balancer} {n : ConnId} {env : RequestEnv} {state : RpcState}
    {auth : Auth} {signature : Signature} {text data : String} {p : Published}
    (h : b.Channels n)
    (hp : b.publish env.publish (newSession env state auth signature) text data = .ok p)
    {record : SignatureRecord} (hrecord : record ∈ p.watched) :
    ∃ picks, b.pickConsumers env.publish.order env.publish.rng = .ok picks ∧
      record.consumers = (acceptedPicks env.publish 0 picks).map (fun pick => pick.1.identity) ∧
      recipients b p.delivered = record.consumers := by
  rcases Balancer.publish_cases hp with ⟨-, rfl⟩ | ⟨picks, st, hpick, -, hst, rfl⟩
  · simp at hrecord
  · have hsession : record = st.session := by
      simp only at hrecord
      split at hrecord
      · simpa using hrecord
      · simp at hrecord
    have hconsumers : record.consumers =
        (acceptedPicks env.publish 0 picks).map fun pick => pick.1.identity := by
      rw [hsession, hst, publishLoop_consumers]
      rfl
    refine ⟨picks, hpick, hconsumers, ?_⟩
    rw [hconsumers, hst, publishLoop_delivered, List.nil_append, recipients, List.flatMap_map,
      List.map_eq_flatMap]
    refine List.flatMap_congr fun pick hmem => ?_
    exact h.owner (Balancer.mem_values_of_pick hpick (mem_of_mem_acceptedPicks hmem))

/-! ## Counters by consumer and by address -/

/-- Records whose statuses could not be had were not delivered to anybody. -/
def Checkers.FailsUndelivered (s : Checkers) : Prop :=
  ∀ task ∈ s.tasks, ∀ tpuOrder err, task.answered = some (tpuOrder, .error err) →
    ∀ record ∈ task.bundle, record.consumers = [] ∧ record.tpuIps = ∅

namespace Checkers

variable {start : ChainMetrics} {s : Checkers}

theorem byConsumer_of_tallied (h : Tallied start s) (hsettled : s.Settled)
    (hfails : s.FailsUndelivered) (c : String) :
    s.metrics.finalizedByConsumer.value c + s.metrics.timeoutByConsumer.value c =
      start.finalizedByConsumer.value c + start.timeoutByConsumer.value c +
        (s.records.flatMap SignatureRecord.consumers).countP (· = c) := by
  have hmeasure := h.measure hsettled
    (p := fun i => i = .finalizedByConsumer c ∨ i = .timeoutByConsumer c)
    (f := fun m => m.finalizedByConsumer.value c + m.timeoutByConsumer.value c) (by
      intro m i
      cases i <;> simp [ChainMetrics.inc, CounterVec.value_inc] <;> omega)
  rw [hmeasure]
  congr 1
  refine countP_records h hsettled (fun tpuOrder record status => ?_) ?_
  · rcases status with _ | status
    · simp [countP_checkStatus_unknown]
    · simp [countP_checkStatus_known]
  · intro task hmem tpuOrder err htask record hrecord
    simp [(hfails task hmem tpuOrder err htask record hrecord).1]

-- a set is iterated over once, in whatever order
theorem countP_iterTpuIps (tpuOrder : HashOrder String) (record : SignatureRecord) (ip : String) :
    (record.iterTpuIps tpuOrder).countP (· = ip) = [record].countP fun r => ip ∈ r.tpuIps := by
  have hnodup : (record.iterTpuIps tpuOrder).Nodup :=
    (tpuOrder.perm _).nodup_iff.mpr (Finset.sort_nodup _ _)
  have hmem : ip ∈ record.iterTpuIps tpuOrder ↔ ip ∈ record.tpuIps := by
    rw [SignatureRecord.iterTpuIps, HashOrder.mem_arrange, Finset.mem_sort]
  rw [Interleaving.countP_of_nodup hnodup, List.countP_singleton]
  simp only [hmem, decide_eq_true_eq]

theorem byTpuIp_of_tallied (h : Tallied start s) (hsettled : s.Settled)
    (hfails : s.FailsUndelivered) (ip : String) :
    s.metrics.finalizedByTpuIp.value ip + s.metrics.timeoutByTpuIp.value ip =
      start.finalizedByTpuIp.value ip + start.timeoutByTpuIp.value ip +
        (s.records.flatMap fun record => [record]).countP fun record => ip ∈ record.tpuIps := by
  have hmeasure := h.measure hsettled
    (p := fun i => i = .finalizedByTpuIp ip ∨ i = .timeoutByTpuIp ip)
    (f := fun m => m.finalizedByTpuIp.value ip + m.timeoutByTpuIp.value ip) (by
      intro m i
      cases i <;> simp [ChainMetrics.inc, CounterVec.value_inc] <;> omega)
  rw [hmeasure]
  congr 1
  refine countP_records h hsettled (fun tpuOrder record status => ?_) ?_
  · rw [← countP_iterTpuIps tpuOrder record ip]
    rcases status with _ | status
    · simp [countP_checkStatus_unknown]
    · simp [countP_checkStatus_known]
  · intro task hmem tpuOrder err htask record hrecord
    simp [(hfails task hmem tpuOrder err htask record hrecord).2]

/-! ## Bundles do not change while they are checked -/

theorem records_step {event : CheckerEvent} {s' : Checkers} (own : ∀ bundle, event ≠ .spawn bundle)
    (hs : s.Step event s') : s'.records = s.records := by
  have hset {n : ℕ} {task task' : CheckerTask} (htask : s.tasks[n]? = some task)
      (hbundle : task'.bundle = task.bundle) :
      (s.tasks.set n task').flatMap CheckerTask.bundle = s.tasks.flatMap CheckerTask.bundle := by
    obtain ⟨hn, rfl⟩ := List.getElem?_eq_some_iff.mp htask
    have hlen : n < (s.tasks.map CheckerTask.bundle).length := by rwa [List.length_map]
    rw [List.flatMap_def, List.flatMap_def, List.map_set, hbundle,
      ← List.getElem_map CheckerTask.bundle (h := hlen), List.set_getElem_self]
  cases hs with
  | spawn => exact absurd rfl (own _)
  | respond htask waiting answers => exact hset htask rfl
  | count htask next => exact hset htask rfl

theorem records_spawnAll (s : Checkers) (bundles : List Bundle) :
    (s.spawnAll bundles).records = s.records ++ bundles.flatMap Bundle.records := by
  induction bundles generalizing s with
  | nil => simp [spawnAll]
  | cons bundle bundles ih =>
    have hspawn : (s.spawn bundle.records).records = s.records ++ bundle.records := by
      simp [records, spawn]
    rw [List.flatMap_cons, ← List.append_assoc, ← hspawn]
    exact ih (s.spawn bundle.records)

theorem Tallied.spawnAll (h : Tallied start s) (bundles : List Bundle) :
    Tallied start (s.spawnAll bundles) := by
  refine List.foldlRecOn (motive := Tallied start) bundles _ h ?_
  intro s' hs' bundle _
  exact hs'.spawn bundle.records

theorem FailsUndelivered.spawnAll (h : s.FailsUndelivered) (bundles : List Bundle) :
    (s.spawnAll bundles).FailsUndelivered := by
  refine List.foldlRecOn (motive := FailsUndelivered) bundles _ h ?_
  intro s' hs' bundle _
  simp only [FailsUndelivered, spawn, List.forall_mem_append, List.forall_mem_singleton]
  exact ⟨hs', by simp⟩

end Checkers

/-! ## The invariant -/

/-- A record without the stamp the watcher overwrites. -/
def SignatureRecord.content (record : SignatureRecord) : SignatureRecord :=
  { record with createdAt := 0 }

namespace Outcomes

variable {clock : ℕ → ℕ} {s s' : Outcomes} {event : OutcomeEvent}
  {tr : List (Outcomes × OutcomeEvent)}

/-- What countable steps keep: records on their way are the ones published, in that order; they name
each recipient once; and those that fail to be checked name none. -/
structure Flow (s : Outcomes) : Prop where
  channels : s.balancer.Channels s.nextConn
  tallied : s.checkers.Tallied .new
  conserved : (s.checkers.records ++ (s.watcher.signatureQueue ++ s.inbox)).map
    SignatureRecord.content = s.published.map fun x => x.record.content
  recorded : ∀ x ∈ s.published, x.recipients = x.record.consumers ∧ x.record.consumers.Nodup
  fails : s.checkers.FailsUndelivered

theorem flow_new : Flow new := by
  refine ⟨⟨?_, ?_⟩, Checkers.tallied_start .new, rfl, ?_, ?_⟩ <;>
    simp [new, Balancer.new, Checkers.FailsUndelivered]

theorem Flow.publish {env : RequestEnv} {state : RpcState} {auth : Auth} {signature : Signature}
    {text data : String} {p : Published} (h : Flow s)
    (hcountable : s.Countable (.publish env state auth signature text data))
    (ok : s.balancer.publish env.publish (newSession env state auth signature) text data = .ok p) :
    Flow { s with
      balancer := p.balancer
      inbox := s.inbox ++ p.watched
      published := s.published ++
        p.watched.map fun record => ⟨record, recipients s.balancer p.delivered⟩ } := by
  refine ⟨h.channels.publish ok, h.tallied, ?_, ?_, h.fails⟩
  · have hconserved := h.conserved
    simp only [List.map_append, List.map_map, ← List.append_assoc] at hconserved ⊢
    rw [hconserved]
    rfl
  · intro x hx
    rcases List.mem_append.mp hx with hx | hx
    · exact h.recorded x hx
    · obtain ⟨record, hrecord, rfl⟩ := List.mem_map.mp hx
      obtain ⟨picks, hpick, hconsumers, hrecipients⟩ := recipients_publish h.channels ok hrecord
      refine ⟨hrecipients, ?_⟩
      rw [hconsumers]
      exact hcountable picks hpick

theorem Flow.tick {watcher : SignatureWatcher} (h : Flow s)
    (ticked : SignatureWatcher.Step clock s.watcher .tick watcher) :
    Flow { s with
      watcher
      checkers := s.checkers.spawnAll (watcher.spawned.drop s.watcher.spawned.length) } := by
  obtain ⟨fuel, hfuel⟩ := ticked
  -- the bundles spawned by the tick come off the front of the queue
  obtain ⟨⟨bundles, hspawned, hsplit, -⟩, -, -⟩ := SignatureWatcher.drains_of_drainLoop hfuel
  have hnew : watcher.spawned.drop s.watcher.spawned.length = bundles := by
    rw [hspawned, List.drop_left]
  refine ⟨h.channels, h.tallied.spawnAll _, ?_, h.recorded, h.fails.spawnAll _⟩
  have hconserved := h.conserved
  rw [← hsplit] at hconserved
  simp only [hnew, Checkers.records_spawnAll, List.append_assoc] at hconserved ⊢
  exact hconserved

theorem Flow.check {checkerEvent : CheckerEvent} {checkers : Checkers} (h : Flow s)
    (hcountable : s.Countable (.check checkerEvent))
    (own : ∀ bundle, checkerEvent ≠ .spawn bundle)
    (hstep : s.checkers.Step checkerEvent checkers) : Flow { s with checkers } := by
  refine ⟨h.channels, h.tallied.step hstep, ?_, h.recorded, ?_⟩
  · simp only [Checkers.records_step own hstep]
    exact h.conserved
  · cases hstep with
    | spawn => exact absurd rfl (own _)
    | @respond n task tpuOrder response htask waiting answers =>
      refine Interleaving.forall_mem_set n h.fails fun o err hanswered record hrecord => ?_
      obtain ⟨-, rfl⟩ : tpuOrder = o ∧ response = .error err := by
        simpa [CheckerTask.answer] using hanswered
      exact hcountable task htask record hrecord
    | @count n task inc rest htask next =>
      exact Interleaving.forall_mem_set n h.fails (h.fails task (List.mem_of_getElem? htask))

theorem Flow.step (h : Flow s) (hs : Step clock s event s') (hcountable : s.Countable event) :
    Flow s' := by
  cases hs with
  | op fresh other ok =>
    exact ⟨h.channels.step ok fresh, h.tallied, h.conserved, h.recorded, h.fails⟩
  | publish ok alive => exact h.publish hcountable ok
  | @arrive record rest next =>
    refine ⟨h.channels, h.tallied, ?_, h.recorded, h.fails⟩
    have hconserved := h.conserved
    rw [next] at hconserved
    -- the stamp is not part of the content
    have hstamp : (s.watcher.stamp clock record).content = record.content := rfl
    simp only [SignatureWatcher.arrive, List.map_append, List.map_cons, hstamp,
      List.append_assoc, List.cons_append, List.nil_append] at hconserved ⊢
    exact hconserved
  | tick ticked => exact h.tick ticked
  | check own hstep => exact h.check hcountable own hstep

theorem Flow.accounted (h : Flow s) (hchecked : s.AllChecked) : s.Accounted := by
  obtain ⟨hinbox, hqueue, hsettled⟩ := hchecked
  have hrecords : s.checkers.records.map SignatureRecord.content =
      s.published.map fun x => x.record.content := by
    have := h.conserved
    rwa [hinbox, hqueue, List.append_nil, List.append_nil] at this
  -- what is counted of a record depends on its content only
  have hcontent {γ : Type} (g : SignatureRecord → List γ)
      (hg : ∀ record, g record.content = g record) :
      s.checkers.records.flatMap g = s.published.flatMap fun x => g x.record := by
    have := congrArg (List.flatMap g) hrecords
    simpa only [List.flatMap_map, hg] using this
  refine ⟨fun label => ?_, fun c => ?_, fun ip => ?_⟩
  · rw [Checkers.once_of_tallied h.tallied hsettled, List.map_eq_flatMap, List.map_eq_flatMap,
      hcontent (fun record => [record.label]) fun _ => rfl]
    exact Nat.zero_add _
  · have hcount : (s.published.flatMap fun x => x.record.consumers).countP (· = c) =
        (s.published.flatMap fun x => [x]).countP fun x => c ∈ x.recipients := by
      apply Interleaving.countP_flatMap_congr
      intro x hx
      obtain ⟨hrecipients, hnodup⟩ := h.recorded x hx
      rw [Interleaving.countP_of_nodup hnodup, List.countP_singleton, hrecipients]
      simp only [decide_eq_true_eq]
    rw [Checkers.byConsumer_of_tallied h.tallied hsettled h.fails,
      hcontent SignatureRecord.consumers fun _ => rfl, hcount, List.flatMap_singleton']
    exact Nat.zero_add _
  · have hcount : (s.checkers.records.flatMap fun record => [record]).countP
        (fun record => ip ∈ record.tpuIps) = (s.published.flatMap fun x => [x]).countP
          fun x => ip ∈ x.record.tpuIps := by
      have hsets := hcontent (fun record => [record.tpuIps]) fun _ => rfl
      have := congrArg (List.countP fun ips => ip ∈ ips) hsets
      rw [List.flatMap_singleton', List.flatMap_singleton']
      simpa only [← List.map_eq_flatMap, List.countP_map, Function.comp_def] using this
    rw [Checkers.byTpuIp_of_tallied h.tallied hsettled h.fails, hcount, List.flatMap_singleton']
    exact Nat.zero_add _

/-- In every run whose steps are countable, the counters add up in every state in which everything
has been checked. -/
theorem accounted_of_countable (h : Run (Step clock) new tr s)
    (hcountable : ∀ x ∈ tr, x.1.Countable x.2) :
    (∀ x ∈ tr, x.1.AllChecked → x.1.Accounted) ∧ (s.AllChecked → s.Accounted) := by
  have hstep : ∀ t a u, (t, a) ∈ tr → Flow t → Step clock t a u → Flow u :=
    fun t a u hmem ht hs => ht.step hs (hcountable _ hmem)
  constructor
  · intro x hx
    exact (h.invariant_mem flow_new hstep x hx).accounted
  · exact (h.invariant flow_new hstep).accounted

/-! ## One transaction -/

/-- The only client takes the first envelope and is gone at the next send. -/
def brieflyOpen : RequestEnv :=
  ⟨0, 0, 0, .stored, .const 0, .stored, fun k _ => k == 0, true⟩

/-- The record of a transaction that client "A" took once. -/
def takenRecord : SignatureRecord :=
  ⟨0, 0, 0, 0, zeroSignature, .forward, ["A"], ∅, "unknown"⟩

def onlyClient : Balancer := Balancer.new.subscribe "A" "token" 0

/-- What is left of the client after the two sends that failed. -/
def flaggedClient : Balancer := (onlyClient.flagUnsubscribe "A").flagUnsubscribe "A"

/-- The transaction was delivered to the client; `task` checks its record. -/
def takenOnce (metrics : ChainMetrics) (task : CheckerTask) : Outcomes :=
  ⟨flaggedClient, 1, [], ⟨[], [⟨[takenRecord], 1⟩], 2⟩, ⟨metrics, [task]⟩, [⟨takenRecord, ["A"]⟩]⟩

theorem publish_brieflyOpen :
    onlyClient.publish brieflyOpen.publish
      (newSession brieflyOpen zeroState (.allow "unknown") zeroSignature) "text" "data" =
    .ok ⟨flaggedClient, [(0, buildTxMessageEnvelope "text" "data" [])], [takenRecord], .ok ()⟩ := by
  rfl

theorem run_takenOnce :
    ∃ tr, Run (Step SignatureWatcher.slowClock) new tr
        (takenOnce .new ⟨[takenRecord], none, []⟩) ∧
      ∀ x ∈ tr, x.1.Countable x.2 := by
  have hsub : Step SignatureWatcher.slowClock new (.op (.subscribe "A" "token" 0))
      ⟨onlyClient, 1, [], .new, ⟨.new, []⟩, []⟩ :=
    .op (by rintro _ _ _ ⟨⟩; rfl) (by simp) rfl
  have hpublish := @Step.publish SignatureWatcher.slowClock
    ⟨onlyClient, 1, [], .new, ⟨.new, []⟩, []⟩ _ _ _ _ _ _ _ publish_brieflyOpen rfl
  have harrive := @Step.arrive SignatureWatcher.slowClock
    ⟨flaggedClient, 1, [takenRecord], .new, ⟨.new, []⟩, [⟨takenRecord, ["A"]⟩]⟩ takenRecord [] rfl
  have htick : Step SignatureWatcher.slowClock
      ⟨flaggedClient, 1, [], ⟨[takenRecord], [], 1⟩, ⟨.new, []⟩, [⟨takenRecord, ["A"]⟩]⟩ .tick
      (takenOnce .new ⟨[takenRecord], none, []⟩) := .tick ⟨2, rfl⟩
  refine ⟨_, ((((Run.nil new).snoc hsub).snoc hpublish).snoc harrive).snoc htick, ?_⟩
  simp only [List.nil_append, List.cons_append, List.forall_mem_cons]
  refine ⟨trivial, ?_, trivial, trivial, by simp⟩
  intro picks hpick
  obtain rfl := Except.ok.inj hpick
  decide

/-- The node does not know the transaction: it is counted as timed out, for the client too. -/
theorem accounted_after_timeout :
    ∃ s, Reachable (Step SignatureWatcher.slowClock) new s ∧ s.AllChecked ∧ s.Accounted ∧
      s.published.countP (fun x => "A" ∈ x.recipients) = 1 := by
  obtain ⟨tr, hrun, hcountable⟩ := run_takenOnce
  have hincrements : signatureChecker .stored [takenRecord] (.ok [none]) =
      [.timeout "unknown" "FORWARD", .timeoutByConsumer "A"] := by
    simp [signatureChecker, checkStatus, SignatureRecord.iterTpuIps, HashOrder.stored, takenRecord,
      Mode.toString]
  have hanswered := hrun.snoc (.check (by simp)
    (@Checkers.Step.respond _ 0 ⟨[takenRecord], none, []⟩ .stored (.ok [none]) rfl rfl rfl))
  have hfirst := hanswered.snoc (.check (by simp) (@Checkers.Step.count _ 0 _ _ _ rfl hincrements))
  have hsecond := hfirst.snoc (.check (by simp) (@Checkers.Step.count _ 0
    ⟨[takenRecord], some (.stored, .ok [none]), [.timeoutByConsumer "A"]⟩ _ [] rfl rfl))
  have hsettled : AllChecked (takenOnce
      ((ChainMetrics.new.inc (.timeout "unknown" "FORWARD")).inc (.timeoutByConsumer "A"))
      ⟨[takenRecord], some (.stored, .ok [none]), []⟩) :=
    ⟨rfl, rfl, by simp [takenOnce, Checkers.Settled]⟩
  refine ⟨_, ⟨_, hsecond⟩, hsettled, (accounted_of_countable hsecond ?_).2 hsettled, by decide⟩
  simp only [List.forall_mem_append, List.forall_mem_singleton]
  exact ⟨⟨⟨hcountable, trivial⟩, trivial⟩, trivial⟩

/-- The request for statuses fails: the transaction is counted as timed out for its partner, and for
the client that took it not at all. -/
theorem failed_request_not_accounted :
    ∃ s, Reachable (Step SignatureWatcher.slowClock) new s ∧ s.AllChecked ∧
      s.published.countP (fun x => "A" ∈ x.recipients) = 1 ∧
      s.checkers.metrics.timeout.value ("unknown", "FORWARD") = 1 ∧
      s.checkers.metrics.finalizedByConsumer.value "A" +
        s.checkers.metrics.timeoutByConsumer.value "A" = 0 ∧ ¬ s.Accounted := by
  obtain ⟨tr, hrun, -⟩ := run_takenOnce
  have hanswered := hrun.snoc (.check (by simp) (@Checkers.Step.respond _ 0
    ⟨[takenRecord], none, []⟩ .stored (.error "connection refused") rfl rfl trivial))
  have hcounted := hanswered.snoc (.check (by simp) (@Checkers.Step.count _ 0
    ⟨[takenRecord], some (.stored, .error "connection refused"),
      [.timeout "unknown" "FORWARD"]⟩ _ [] rfl rfl))
  have hsettled : AllChecked (takenOnce (ChainMetrics.new.inc (.timeout "unknown" "FORWARD"))
      ⟨[takenRecord], some (.stored, .error "connection refused"), []⟩) :=
    ⟨rfl, rfl, by simp [takenOnce, Checkers.Settled]⟩
  refine ⟨_, ⟨_, hcounted⟩, hsettled, by decide, rfl, rfl, fun h => ?_⟩
  exact absurd (h.byConsumer "A") (by decide)

end Outcomes

end Mtransaction
