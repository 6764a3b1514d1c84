import Mtransaction.Lib.ReadLock
import Mtransaction.Server.BalancerRuns
import Mtransaction.Server.LockedServer

/-!
# Calls of `publish` at the same time

Several requests hold the balancer's read lock together and send in turns; all they write to the
balancer are the flags of consumers whose send failed, which no call reads.  So the server behaves
like the balancer alone, with one operation after the other.
-/

namespace Mtransaction

open Runs

/-! ## Flags do not matter to `pick_consumers` -/

/-- What `pick_consumers` may read of a consumer. -/
def TxConsumer.unflagged (c : TxConsumer) : TxConsumer := { c with doUnsubscribe := false }

def unflagPick (pick : Pick) : Pick := (pick.1.unflagged, pick.2)

namespace Balancer

def unflagEntry (e : String × TxConsumer) : String × TxConsumer := (e.1, e.2.unflagged)

/-- The two differ in flags at most. -/
structure SameButFlags (b b' : Balancer) : Prop where
  consumers : b.txConsumers.toPairs.map unflagEntry = b'.txConsumers.toPairs.map unflagEntry
  leaders : b.leaders = b'.leaders
  leaderTpus : b.leaderTpus = b'.leaderTpus
  total : b.totalConnectedStake = b'.totalConnectedStake

theorem SameButFlags.symm {b b' : Balancer} (h : SameButFlags b b') : SameButFlags b' b :=
  ⟨h.consumers.symm, h.leaders.symm, h.leaderTpus.symm, h.total.symm⟩

theorem sameButFlags_flagUnsubscribe (b : Balancer) (identity : String) :
    SameButFlags (b.flagUnsubscribe identity) b := by
  refine ⟨?_, rfl, rfl, rfl⟩
  simp only [flagUnsubscribe, mapConsumers, AList.mapValues, AList.toPairs, List.map_map]
  refine List.map_congr_left fun e _ => ?_
  simp only [Function.comp, unflagEntry]
  split <;> rfl

/-- An order of one has its counterpart in the other. -/
theorem SameButFlags.exists_order {b b' : Balancer} (h : SameButFlags b b')
    (o : HashOrder (String × TxConsumer)) : ∃ o' : HashOrder (String × TxConsumer),
      (b.txConsumers.iter o).map unflagEntry = (b'.txConsumers.iter o').map unflagEntry := by
  have hperm : ((b.txConsumers.iter o).map unflagEntry).Perm
      (b'.txConsumers.toPairs.map unflagEntry) := by
    rw [← h.consumers]
    exact (b.txConsumers.iter_perm o).map _
  have hcomp : Relation.Comp (· = List.map unflagEntry ·) List.Perm
      ((b.txConsumers.iter o).map unflagEntry) b'.txConsumers.toPairs := by
    rw [List.eq_map_comp_perm]
    exact hperm
  obtain ⟨l, heq, hl⟩ := hcomp
  -- that order for this map, and any order for others
  classical
  let o' : HashOrder (String × TxConsumer) :=
    ⟨fun m => if m = b'.txConsumers.toPairs then l else m, fun m => by
      split
      next hm => exact hm ▸ hl
      next => exact .refl _⟩
  refine ⟨o', heq.trans ?_⟩
  simp [AList.iter, o']

section Pick

variable {b b' : Balancer} {o o' : HashOrder (String × TxConsumer)}

theorem scanConsumers_unflagged (r : ℕ) (acc : UInt64) (cs : List TxConsumer) :
    scanConsumers r acc (cs.map TxConsumer.unflagged) =
      (scanConsumers r acc cs).map TxConsumer.unflagged := by
  induction cs generalizing acc with
  | nil => rfl
  | cons c cs ih =>
    simp only [List.map_cons, scanConsumers, ih]
    show (if r < (acc + (c.stake + 1)).toNat then _ else _) = _
    split <;> rfl

theorem leaderPicks_unflagged (b : Balancer) (o : HashOrder (String × TxConsumer)) :
    (b.leaderPicks o).map unflagPick =
      ((b.txConsumers.iter o).map unflagEntry).filterMap fun e =>
        (b.leaders.lookup e.1).map fun tpu => (e.2, [tpu]) := by
  rw [leaderPicks, List.map_filterMap, List.filterMap_map]
  congr 1
  funext e
  simp only [Function.comp, unflagEntry]
  cases b.leaders.lookup e.1 <;> rfl

theorem SameButFlags.totalWeight (h : SameButFlags b b') : b.totalWeight = b'.totalWeight := by
  have hlen : b.txConsumers.entries.length = b'.txConsumers.entries.length := by
    have := congrArg List.length h.consumers
    simpa using this
  have hnil : b.txConsumers.entries = [] ↔ b'.txConsumers.entries = [] := by
    rw [← List.length_eq_zero_iff, hlen, List.length_eq_zero_iff]
  simp only [Balancer.totalWeight, h.total, hlen, ne_eq, hnil]

theorem SameButFlags.sample (h : SameButFlags b b')
    (horder : (b.txConsumers.iter o).map unflagEntry = (b'.txConsumers.iter o').map unflagEntry)
    (rng : Rng) (k : ℕ) :
    (b.sampleConsumerStakeWeighted o rng k).map (Option.map TxConsumer.unflagged) =
      (b'.sampleConsumerStakeWeighted o' rng k).map (Option.map TxConsumer.unflagged) := by
  have hscanned : (b.scanned o).map TxConsumer.unflagged =
      (b'.scanned o').map TxConsumer.unflagged := by
    have hsnd := congrArg (List.map Prod.snd) horder
    rw [List.map_map, List.map_map] at hsnd
    rw [scanned, scanned, List.map_map, List.map_map]
    exact hsnd
  cases hweight : b.totalWeight with
  | none =>
    have hweight' := h.totalWeight ▸ hweight
    simp only [sampleConsumerStakeWeighted, hweight, hweight']
  | some w =>
    rw [sample_eq_of_totalWeight hweight, sample_eq_of_totalWeight (h.totalWeight ▸ hweight)]
    simp only [Except.map, ← scanConsumers_unflagged, hscanned]

theorem SameButFlags.samplePicks (h : SameButFlags b b')
    (horder : (b.txConsumers.iter o).map unflagEntry = (b'.txConsumers.iter o').map unflagEntry)
    (rng : Rng) (n k : ℕ) {cs cs' : List Pick} (hcs : cs.map unflagPick = cs'.map unflagPick) :
    (b.samplePicks o rng n k cs).map (List.map unflagPick) =
      (b'.samplePicks o' rng n k cs').map (List.map unflagPick) := by
  induction n generalizing k cs cs' with
  | zero => simp only [Balancer.samplePicks, Except.map, hcs]
  | succ n ih =>
    obtain ⟨pick, hpick⟩ := b.sample_ok o rng k
    obtain ⟨pick', hpick'⟩ := b'.sample_ok o' rng k
    have hsame := h.sample horder rng k
    rw [hpick, hpick', Except.map, Except.map, Except.ok.injEq] at hsame
    simp only [Balancer.samplePicks, hpick, hpick']
    cases pick with
    | none =>
      obtain rfl : pick' = none := by simpa using hsame.symm
      simp only [Except.map, hcs]
    | some c =>
      obtain ⟨c', rfl, hc⟩ : ∃ c', pick' = some c' ∧ c'.unflagged = c.unflagged := by
        simpa using hsame.symm
      refine ih (k + 1) ?_
      simp [hcs, unflagPick, hc]

theorem assignTpus_unflagged (leaderTpus : List LeaderInfo) (cs : List Pick) :
    (assignTpus leaderTpus cs).map (List.map unflagPick) =
      assignTpus leaderTpus (cs.map unflagPick) := by
  simp only [assignTpus, List.length_map]
  split
  · split
    · rfl
    · simp only [Except.map, pushChunks_eq]
      congr 1
      apply List.ext_getElem <;> simp [unflagPick]
  · rfl

/-- Picks depend on the flags in nothing but the flags. -/
theorem SameButFlags.pickConsumers (h : SameButFlags b b')
    (horder : (b.txConsumers.iter o).map unflagEntry = (b'.txConsumers.iter o').map unflagEntry)
    (rng : Rng) :
    (b.pickConsumers o rng).map (List.map unflagPick) =
      (b'.pickConsumers o' rng).map (List.map unflagPick) := by
  have hleaders : (b.leaderPicks o).map unflagPick = (b'.leaderPicks o').map unflagPick := by
    rw [leaderPicks_unflagged, leaderPicks_unflagged, horder, h.leaders]
  have hlen := congrArg List.length hleaders
  rw [List.length_map, List.length_map] at hlen
  have hsamples := h.samplePicks horder rng
    (nConsumers - min (b.leaderPicks o).length nConsumers) 0 hleaders
  simp only [Balancer.pickConsumers, ← hlen]
  cases hs : b.samplePicks o rng (nConsumers - min (b.leaderPicks o).length nConsumers) 0
      (b.leaderPicks o) with
  | error e =>
    cases hs' : b'.samplePicks o' rng (nConsumers - min (b.leaderPicks o).length nConsumers) 0
        (b'.leaderPicks o') with
    | error e' => simpa [hs, hs', Except.map] using hsamples
    | ok cs' => simp [hs, hs', Except.map] at hsamples
  | ok cs =>
    cases hs' : b'.samplePicks o' rng (nConsumers - min (b.leaderPicks o).length nConsumers) 0
        (b'.leaderPicks o') with
    | error e' => simp [hs, hs', Except.map] at hsamples
    | ok cs' =>
      have hcs : cs.map unflagPick = cs'.map unflagPick := by
        simpa [hs, hs', Except.map] using hsamples
      simp only [assignTpus_unflagged, hcs, h.leaderTpus]

/-- What a call of `publish` may set out to send, in some order of the map. -/
def Plans (b : Balancer) (rng : Rng) (todo : List Pick) : Prop :=
  ∃ o picks, b.pickConsumers o rng = .ok picks ∧ picks.map unflagPick = todo

theorem SameButFlags.plans (h : SameButFlags b b') {rng : Rng} {todo : List Pick}
    (hplans : b.Plans rng todo) : b'.Plans rng todo := by
  obtain ⟨o, picks, hpicks, htodo⟩ := hplans
  obtain ⟨o', horder⟩ := h.exists_order o
  have hsame := h.pickConsumers horder rng
  rw [hpicks] at hsame
  cases hpicks' : b'.pickConsumers o' rng with
  | error e => simp [hpicks', Except.map] at hsame
  | ok picks' =>
    refine ⟨o', picks', hpicks', ?_⟩
    rw [hpicks', Except.map, Except.map, Except.ok.injEq] at hsame
    exact hsame.symm.trans htodo

end Pick

theorem flagUnsubscribe_comm (b : Balancer) (i j : String) :
    (b.flagUnsubscribe i).flagUnsubscribe j = (b.flagUnsubscribe j).flagUnsubscribe i := by
  simp only [flagUnsubscribe, mapConsumers, AList.mapValues, List.map_map]
  congr 2
  refine List.map_congr_left fun e _ => ?_
  simp only [Function.comp]
  split <;> split <;> rfl

end Balancer

/-! ## Writers and calls of `publish` as tasks on the balancer -/

/-- The operations a writer performs before it lets go of the lock; `conn` is the channel a
`subscribe` makes. -/
def WriteOp.ops (conn : ConnId) : WriteOp → List BalancerOp
  | .setLeaders leaderTpus leaders o => [.setLeaders leaderTpus leaders, .flushUnsubscribes o]
  | .subscribe identity token => [.subscribe identity token conn]
  | .unsubscribe identity token => [.unsubscribe identity token]
  | .updateStakeWeights stakeWeights => [.updateStakeWeights stakeWeights]
  | .updateRtt identity value => [.updateRtt identity value]

/-- What a send does to the balancer. -/
def Balancer.markSend (b : Balancer) (x : Pick × Bool) : Balancer :=
  if x.2 then b else b.flagUnsubscribe x.1.1.identity

theorem Balancer.sameButFlags_markSend (b : Balancer) (x : Pick × Bool) :
    SameButFlags (b.markSend x) b := by
  unfold markSend
  split
  · exact ⟨rfl, rfl, rfl, rfl⟩
  · exact b.sameButFlags_flagUnsubscribe _

def balancerTasks : ReadLock.Tasks Balancer PublishRequest Pick Bool (ConnId × WriteOp) where
  plans request b todo := b.Plans request.rng todo
  act := Balancer.markSend
  write w b b' := exec Balancer.step b (w.2.ops w.1) = .ok b'
  act_comm b x y := by
    unfold Balancer.markSend
    split <;> split <;> first | rfl | exact b.flagUnsubscribe_comm _ _
  plans_act request b x todo :=
    ⟨(b.sameButFlags_markSend x).plans, (b.sameButFlags_markSend x).symm.plans⟩

/-- The sends of a call, with their outcomes. -/
def PublishRequest.sendAll (request : PublishRequest) (st : PublishState)
    (done : List (Pick × Bool)) : PublishState :=
  done.foldl (fun st x =>
    publishSend request.tpuOrder request.signature request.data x.2 st x.1) st

/-- The call of `publish` as it stands after these sends. -/
def PublishRequest.callAfter (request : PublishRequest) (done : List (Pick × Bool))
    (remaining : List Pick) : PublishCall :=
  let st := request.sendAll ⟨.new, request.session, []⟩ done
  ⟨request.tpuOrder, request.signature, request.data, st.session, st.delivered, remaining⟩

section SendAll

variable {request : PublishRequest} {done : List (Pick × Bool)} {st st' : PublishState}

theorem publishSend_unflag (tpuOrder : HashOrder String) (signature data : String)
    (accepted : Bool) (st : PublishState) (pick : Pick) :
    publishSend tpuOrder signature data accepted st (unflagPick pick) =
      publishSend tpuOrder signature data accepted st pick := rfl

theorem sendAll_balancer :
    (request.sendAll st done).balancer = balancerTasks.replay st.balancer done := by
  induction done generalizing st with
  | nil => rfl
  | cons x done ih =>
    show (request.sendAll _ done).balancer = balancerTasks.replay (st.balancer.markSend x) done
    rw [ih]
    congr 1
    rcases x with ⟨pick, accepted⟩
    cases accepted <;> rfl

-- the record and the envelopes do not depend on the balancer
theorem sendAll_congr (request : PublishRequest) (done : List (Pick × Bool)) (st st' : PublishState)
    (hsession : st.session = st'.session) (hdelivered : st.delivered = st'.delivered) :
    (request.sendAll st done).session = (request.sendAll st' done).session ∧
      (request.sendAll st done).delivered = (request.sendAll st' done).delivered := by
  induction done generalizing st st' with
  | nil => exact ⟨hsession, hdelivered⟩
  | cons x done ih =>
    rcases x with ⟨pick, accepted⟩
    cases accepted with
    | true =>
      refine ih _ _ ?_ ?_ <;> simp [publishSend, hsession, hdelivered]
    | false => exact ih _ _ hsession hdelivered

/-- `publish` finds its sends accepted or not as they were in `done`. -/
def sendsLike (done : List (Pick × Bool)) (k : ℕ) (_ : ConnId) : Bool :=
  (done[k]?.map Prod.snd).getD false

theorem publishLoop_eq_sendAll {env : PublishEnv} {k : ℕ} {picks : List Pick}
    (htpuOrder : env.tpuOrder = request.tpuOrder)
    (hpicks : picks.map unflagPick = done.map Prod.fst)
    (haccepts : ∀ n conn, env.accepts (k + n) conn = sendsLike done n conn) :
    publishLoop env request.signature request.data k picks st = request.sendAll st done := by
  induction picks generalizing k done st with
  | nil =>
    obtain rfl : done = [] := by simpa using hpicks.symm
    rfl
  | cons pick picks ih =>
    cases done with
    | nil => simp at hpicks
    | cons x done =>
      obtain ⟨hpick, hrest⟩ := List.cons.inj hpicks
      have hfirst : env.accepts k pick.1.tx = x.2 := haccepts 0 _
      rw [publishLoop, hfirst, ← publishSend_unflag, hpick, htpuOrder]
      refine ih hrest fun n conn => ?_
      rw [Nat.add_assoc, Nat.add_comm 1 n]
      exact haccepts (n + 1) conn

end SendAll

/-! ## The server's runs -/

/-- What a task has done to the balancer once it lets go of the lock. -/
inductive Commit
  | published (request : PublishRequest) (call : PublishCall)
  | written (conn : ConnId) (op : WriteOp)

/-- The task, for itself: a writer's operations, or a call of `publish` that nobody comes in
between of and that sends the same envelopes and hands the same record to the watcher. -/
def Commit.Serial (b : Balancer) : Commit → Balancer → Prop
  | .published request call, b' => ∃ env p, env.rng = request.rng ∧
      env.tpuOrder = request.tpuOrder ∧ env.watcherAlive ∧
      b.publish env request.session request.signature request.data = .ok p ∧
      b' = p.balancer ∧ call.delivered = p.delivered ∧
      (p.result = .ok () → p.watched = [call.session])
  | .written conn op, b' => exec Balancer.step b (op.ops conn) = .ok b'

/-- A commit up to the request behind a call of `publish`. -/
def Commit.outcome : Commit → PublishCall ⊕ ConnId × WriteOp
  | .published _ call => .inl call
  | .written conn op => .inr (conn, op)

/-- The commit a reader or a writer makes. -/
def Commit.ofTask : ReadLock.Commit PublishRequest Pick Bool (ConnId × WriteOp) → Commit
  | .read request done => .published request (request.callAfter done [])
  | .write w => .written w.1 w.2

theorem Commit.serial_ofTask {b b' : Balancer}
    {commit : ReadLock.Commit PublishRequest Pick Bool (ConnId × WriteOp)}
    (h : balancerTasks.Serial b commit b') : (Commit.ofTask commit).Serial b b' := by
  cases commit with
  | write w => exact h
  | read request done =>
    obtain ⟨⟨o, picks, hpicks, hdone⟩, rfl⟩ := h
    let env : PublishEnv := ⟨o, request.rng, request.tpuOrder, sendsLike done, true⟩
    have hloop (st : PublishState) : publishLoop env request.signature request.data 0 picks st =
        request.sendAll st done :=
      publishLoop_eq_sendAll rfl hdone fun n conn => by rw [Nat.zero_add]
    obtain ⟨hsession, hdelivered⟩ :=
      sendAll_congr request done ⟨.new, request.session, []⟩ ⟨b, request.session, []⟩ rfl rfl
    cases picks with
    | nil =>
      obtain rfl : done = [] := by simpa using hdone.symm
      have hpublish : b.publish env request.session request.signature request.data =
          .ok ⟨b, [], [], .error "No available clients connected"⟩ := by
        simp only [Balancer.publish, env, hpicks]
      exact ⟨env, _, rfl, rfl, rfl, hpublish, rfl, rfl, by simp⟩
    | cons pick picks =>
      have hpublish : ∃ p, b.publish env request.session request.signature request.data = .ok p ∧
          p = ⟨(request.sendAll ⟨b, request.session, []⟩ done).balancer,
            (request.sendAll ⟨b, request.session, []⟩ done).delivered,
            [(request.sendAll ⟨b, request.session, []⟩ done).session], .ok ()⟩ := by
        refine ⟨_, ?_, rfl⟩
        rw [← hloop]
        simp only [Balancer.publish, env, hpicks, if_true]
      obtain ⟨p, hok, rfl⟩ := hpublish
      refine ⟨env, _, rfl, rfl, rfl, hok, ?_, hdelivered, fun _ => ?_⟩
      · rw [sendAll_balancer]
      · rw [PublishRequest.callAfter, hsession]

namespace LockedServer

variable {s s' : LockedServer} {event : LockEvent} {tr : List (LockedServer × LockEvent)}

/-- The task that lets go of the lock in a step, with its outcome. -/
def committed : LockedServer × LockEvent → Option (PublishCall ⊕ ConnId × WriteOp)
  | (s, .finish n) => s.publishing[n]?.map .inl
  | (s, .grant) =>
    match s.waiting with
    | .write op :: _ => some (.inr (s.channels.length, op))
    | _ => none
  | _ => none

/-- A call of `publish` in progress: its request, the sends it has made and those it has to make. -/
structure Publishing where
  request : PublishRequest
  done : List (Pick × Bool)
  remaining : List Pick

def Publishing.reader (task : Publishing) : ReadLock.Reader PublishRequest Pick Bool :=
  ⟨task.request, task.done, task.remaining.map unflagPick⟩

def Publishing.call (task : Publishing) : PublishCall :=
  task.request.callAfter task.done task.remaining

/-- Somebody has asked for the lock to publish this. -/
def Requested (tr : List (LockedServer × LockEvent)) (request : PublishRequest) : Prop :=
  ∃ t, (t, .request (.read request)) ∈ tr

/-- A run of the server seen as a run of its tasks on the balancer. -/
structure Simulated (tr : List (LockedServer × LockEvent)) (s : LockedServer)
    (tasks : List Publishing)
    (rtr : List ((Balancer × List (ReadLock.Reader PublishRequest Pick Bool)) ×
      ReadLock.Event PublishRequest Pick Bool (ConnId × WriteOp))) : Prop where
  run : Run balancerTasks.Step (.new, []) rtr (s.balancer, tasks.map Publishing.reader)
  calls : s.publishing = tasks.map Publishing.call
  outcomes : ((rtr.filterMap ReadLock.committed).map Commit.ofTask).map Commit.outcome =
    tr.filterMap committed
  waiting : ∀ request, .read request ∈ s.waiting → Requested tr request
  publishing : ∀ task ∈ tasks, Requested tr task.request
  published : ∀ request call,
    .published request call ∈ (rtr.filterMap ReadLock.committed).map Commit.ofTask →
      Requested tr request

theorem Requested.later {request : PublishRequest} (h : Requested tr request)
    (x : LockedServer × LockEvent) : Requested (tr ++ [x]) request := by
  obtain ⟨t, ht⟩ := h
  exact ⟨t, List.mem_append_left _ ht⟩

theorem callAfter_concat (b : Balancer) (request : PublishRequest) (done : List (Pick × Bool))
    (remaining rest : List Pick) (pick : Pick) (accepted : Bool) :
    let call := request.callAfter done remaining
    let st := publishSend call.tpuOrder call.signature call.data accepted
      ⟨b, call.session, call.delivered⟩ pick
    { call with session := st.session, delivered := st.delivered, remaining := rest } =
      request.callAfter (done ++ [(unflagPick pick, accepted)]) rest := by
  obtain ⟨hsession, hdelivered⟩ := sendAll_congr request [(unflagPick pick, accepted)]
    (request.sendAll ⟨.new, request.session, []⟩ done)
    ⟨b, (request.callAfter done remaining).session, (request.callAfter done remaining).delivered⟩
    rfl rfl
  have hdone : request.sendAll ⟨.new, request.session, []⟩ (done ++ [(unflagPick pick, accepted)]) =
      request.sendAll (request.sendAll ⟨.new, request.session, []⟩ done)
        [(unflagPick pick, accepted)] := List.foldl_append
  simp only [PublishRequest.callAfter, hdone, hsession, hdelivered]
  rfl

section Simulation

variable {tasks : List Publishing}
  {rtr : List ((Balancer × List (ReadLock.Reader PublishRequest Pick Bool)) ×
    ReadLock.Event PublishRequest Pick Bool (ConnId × WriteOp))}

/-- A step that no task on the balancer takes part in. -/
theorem Simulated.stutter (h : Simulated tr s tasks rtr) (hbalancer : s'.balancer = s.balancer)
    (hpublishing : s'.publishing = s.publishing) (hcommitted : committed (s, event) = none)
    (hwaiting : ∀ request, .read request ∈ s'.waiting → Requested (tr ++ [(s, event)]) request) :
    Simulated (tr ++ [(s, event)]) s' tasks rtr where
  run := hbalancer ▸ h.run
  calls := hpublishing ▸ h.calls
  outcomes := by rw [filterMap_concat, hcommitted, h.outcomes, Option.toList_none, List.append_nil]
  waiting := hwaiting
  publishing task hmem := (h.publishing task hmem).later _
  published request call hmem := (h.published request call hmem).later _

/-- A step of one task on the balancer. -/
theorem Simulated.advance (h : Simulated tr s tasks rtr) {tasks' : List Publishing}
    {taskEvent : ReadLock.Event PublishRequest Pick Bool (ConnId × WriteOp)}
    (hstep : balancerTasks.Step (s.balancer, tasks.map Publishing.reader) taskEvent
      (s'.balancer, tasks'.map Publishing.reader))
    (hcalls : s'.publishing = tasks'.map Publishing.call)
    (hcommitted : (ReadLock.committed ((s.balancer, tasks.map Publishing.reader), taskEvent)).map
      (fun commit => (Commit.ofTask commit).outcome) = committed (s, event))
    (hwaiting : s'.waiting ⊆ s.waiting)
    (hrequested : ∀ task ∈ tasks', Requested tr task.request) :
    ∃ rtr', Simulated (tr ++ [(s, event)]) s' tasks' rtr' := by
  refine ⟨rtr ++ [((s.balancer, tasks.map Publishing.reader), taskEvent)], h.run.snoc hstep,
    hcalls, ?_, ?_, ?_, ?_⟩
  · rw [filterMap_concat, filterMap_concat, List.map_append, List.map_append, h.outcomes,
      ← hcommitted]
    cases ReadLock.committed ((s.balancer, tasks.map Publishing.reader), taskEvent) <;> rfl
  · exact fun request hmem => (h.waiting request (hwaiting hmem)).later _
  · exact fun task hmem => (hrequested task hmem).later _
  · intro request call hmem
    rw [filterMap_concat, List.map_append, List.mem_append] at hmem
    rcases hmem with hold | hnew
    · exact (h.published request call hold).later _
    · -- the commit of a task that was in progress
      obtain ⟨commit, hcommit, heq⟩ := List.mem_map.mp hnew
      cases commit with
      | write w => simp [Commit.ofTask] at heq
      | read request' done =>
        obtain ⟨rfl, -⟩ := Commit.published.inj heq
        obtain ⟨reader, hreader, rfl⟩ :=
          ReadLock.mem_of_committed (Option.mem_toList.mp hcommit)
        obtain ⟨task, htask, rfl⟩ := List.mem_map.mp hreader
        exact (h.publishing task htask).later _

theorem Simulated.startPublish (h : Simulated tr s tasks rtr) {request : PublishRequest}
    {rest : List LockRequest} (next : s.waiting = .read request :: rest)
    (running : (({ s with waiting := rest } : LockedServer).startPublish request).exited = none) :
    ∃ tasks' rtr', Simulated (tr ++ [(s, .grant)])
      (({ s with waiting := rest } : LockedServer).startPublish request) tasks' rtr' := by
  unfold LockedServer.startPublish at running ⊢
  split at running
  next picks hpicks =>
    let task : Publishing := ⟨request, [], picks⟩
    have hstep : balancerTasks.Step (s.balancer, tasks.map Publishing.reader) (.start request)
        (s.balancer, (tasks ++ [task]).map Publishing.reader) := by
      rw [List.map_append]
      exact .start (show balancerTasks.plans _ _ _ from ⟨request.order, picks, hpicks, rfl⟩)
    refine ⟨_, h.advance hstep ?_ ?_ ?_ ?_⟩
    · rw [List.map_append, ← h.calls]
      rfl
    · simp [ReadLock.committed, committed, next]
    · exact next ▸ List.subset_cons_self _ _
    · refine List.forall_mem_append.mpr ⟨h.publishing, List.forall_mem_singleton.mpr ?_⟩
      exact h.waiting request (next ▸ List.mem_cons_self)
  next => simp at running

theorem Simulated.write (h : Simulated tr s tasks rtr) {op : WriteOp} {rest : List LockRequest}
    (next : s.waiting = .write op :: rest) (idle : s.publishing = [])
    (running : (({ s with waiting := rest } : LockedServer).write op).exited = none) :
    ∃ tasks' rtr', Simulated (tr ++ [(s, .grant)])
      (({ s with waiting := rest } : LockedServer).write op) tasks' rtr' := by
  obtain rfl : tasks = [] := by
    rw [h.calls, List.map_eq_nil_iff] at idle
    exact idle
  have hwritten : exec Balancer.step s.balancer (op.ops s.channels.length) =
      .ok (({ s with waiting := rest } : LockedServer).write op).balancer ∧
      (({ s with waiting := rest } : LockedServer).write op).publishing = s.publishing ∧
      (({ s with waiting := rest } : LockedServer).write op).waiting = rest := by
    cases op with
    | updateRtt identity value =>
      unfold LockedServer.write at running ⊢
      dsimp only at running ⊢
      split at running
      next b' hb' =>
        refine ⟨?_, rfl, rfl⟩
        simp only [WriteOp.ops, exec, Balancer.step]
        rw [hb']
      next => simp at running
    | _ => exact ⟨rfl, rfl, rfl⟩
  obtain ⟨hexec, hpublishing, hwaiting⟩ := hwritten
  refine ⟨[], h.advance (.write (w := (s.channels.length, op)) hexec) ?_ ?_ ?_ (by simp)⟩
  · rw [hpublishing, idle]
    rfl
  · simp [ReadLock.committed, committed, next, Commit.ofTask, Commit.outcome]
  · rw [hwaiting, next]
    exact List.subset_cons_self _ _

theorem Simulated.send (h : Simulated tr s tasks rtr) {n : ℕ} {call : PublishCall} {pick : Pick}
    {rest : List Pick} (hcall : s.publishing[n]? = some call)
    (next : call.remaining = pick :: rest) :
    ∃ tasks' rtr', Simulated (tr ++ [(s, .send n)]) (s.send n call pick rest) tasks' rtr' := by
  rw [h.calls, List.getElem?_map, Option.map_eq_some_iff] at hcall
  obtain ⟨task, htask, rfl⟩ := hcall
  let task' : Publishing :=
    ⟨task.request, task.done ++ [(unflagPick pick, s.accepts pick.1.tx)], rest⟩
  have hreader : (tasks.map Publishing.reader)[n]? = some task.reader := by
    rw [List.getElem?_map, htask, Option.map_some]
  have hremaining : task.reader.remaining = unflagPick pick :: rest.map unflagPick := by
    rw [Publishing.reader, show task.remaining = pick :: rest from next, List.map_cons]
  have hbalancer : (s.send n task.call pick rest).balancer =
      balancerTasks.act s.balancer (unflagPick pick, s.accepts pick.1.tx) := by
    show (publishSend _ _ _ _ _ _).balancer = Balancer.markSend _ _
    cases s.accepts pick.1.tx <;> rfl
  have hstep : balancerTasks.Step (s.balancer, tasks.map Publishing.reader)
      (.act n (s.accepts pick.1.tx))
      ((s.send n task.call pick rest).balancer, (tasks.set n task').map Publishing.reader) := by
    rw [hbalancer, List.map_set]
    exact .act hreader hremaining
  refine ⟨tasks.set n task', h.advance hstep ?_ ?_ ?_ ?_⟩
  · rw [List.map_set, ← h.calls]
    show s.publishing.set n _ = s.publishing.set n _
    congr 1
    exact callAfter_concat s.balancer task.request task.done task.remaining rest pick _
  · simp [ReadLock.committed, committed]
  · exact fun _ hmem => hmem
  · exact Interleaving.forall_mem_set n h.publishing
      (h.publishing task (List.mem_of_getElem? htask))

theorem Simulated.finish (h : Simulated tr s tasks rtr) {n : ℕ} {call : PublishCall}
    (hcall : s.publishing[n]? = some call) (done : call.remaining = []) :
    ∃ tasks' rtr', Simulated (tr ++ [(s, .finish n)])
      { s with publishing := s.publishing.eraseIdx n } tasks' rtr' := by
  have hcall' := hcall
  rw [h.calls, List.getElem?_map, Option.map_eq_some_iff] at hcall'
  obtain ⟨task, htask, rfl⟩ := hcall'
  have hremaining : task.remaining = [] := done
  have hreader : (tasks.map Publishing.reader)[n]? = some task.reader := by
    rw [List.getElem?_map, htask, Option.map_some]
  have hstep : balancerTasks.Step (s.balancer, tasks.map Publishing.reader) (.finish n)
      (s.balancer, (tasks.eraseIdx n).map Publishing.reader) := by
    rw [← List.eraseIdx_map]
    exact .finish hreader (by rw [Publishing.reader, hremaining, List.map_nil])
  refine ⟨tasks.eraseIdx n, h.advance hstep ?_ ?_ ?_ ?_⟩
  · rw [← List.eraseIdx_map, ← h.calls]
  · simp only [ReadLock.committed, committed, hreader, hcall, Option.map_some, Commit.ofTask,
      Commit.outcome]
    simp [Publishing.call, Publishing.reader, hremaining]
  · exact fun _ hmem => hmem
  · exact fun task' hmem => h.publishing task' ((List.eraseIdx_sublist _ _).subset hmem)

theorem Simulated.step (h : Simulated tr s tasks rtr) (hs : Step s event s')
    (running : s'.exited = none) :
    ∃ tasks' rtr', Simulated (tr ++ [(s, event)]) s' tasks' rtr' := by
  have hwaiting : ∀ request, .read request ∈ s.waiting →
      Requested (tr ++ [(s, event)]) request := fun request hmem => (h.waiting request hmem).later _
  cases hs with
  | @request request =>
    refine ⟨tasks, rtr, h.stutter rfl rfl rfl fun request' hmem => ?_⟩
    rcases List.mem_append.mp hmem with hold | hnew
    · exact hwaiting request' hold
    · exact ⟨s, by simp [List.mem_singleton.mp hnew]⟩
  | grantRead _ next => exact h.startPublish next running
  | grantWrite _ next idle => exact h.write next idle running
  | send _ hcall next room => exact h.send hcall next
  | finish _ hcall done => exact h.finish hcall done
  | ping => exact ⟨tasks, rtr, h.stutter rfl rfl rfl hwaiting⟩
  | recv => exact ⟨tasks, rtr, h.stutter rfl rfl rfl hwaiting⟩
  | dropReceiver => exact ⟨tasks, rtr, h.stutter rfl rfl rfl hwaiting⟩

theorem simulated_of_run (h : Run Step new tr s) (running : s.exited = none) :
    ∃ tasks rtr, Simulated tr s tasks rtr := by
  induction h with
  | nil => exact ⟨[], [], .nil _, rfl, rfl, by simp [new], by simp, by simp⟩
  | @snoc t s tr event hr hs ih =>
    have hbefore : t.exited = none := by
      cases hs <;> assumption
    obtain ⟨tasks, rtr, hsimulated⟩ := ih hbefore
    exact hsimulated.step hs running

end Simulation

/-- The flags that failed sends of the calls in progress have set. -/
theorem exists_flags (tasks : List (ReadLock.Reader PublishRequest Pick Bool)) (b : Balancer) :
    ∃ identities : List String, balancerTasks.replay b (tasks.flatMap ReadLock.Reader.done) =
      identities.foldl Balancer.flagUnsubscribe b ∧ (tasks = [] → identities = []) := by
  refine ⟨((tasks.flatMap ReadLock.Reader.done).filter fun x => !x.2).map fun x => x.1.1.identity,
    ?_, by rintro rfl; rfl⟩
  generalize tasks.flatMap ReadLock.Reader.done = done
  induction done generalizing b with
  | nil => rfl
  | cons x done ih =>
    rcases x with ⟨pick, accepted⟩
    show balancerTasks.replay (b.markSend (pick, accepted)) done = _
    cases accepted <;> simp [Balancer.markSend, ih]

/-- A serial run of balancer operations that the server is behind of by some flags. -/
structure Serialized (tr : List (LockedServer × LockEvent)) (s : LockedServer)
    (serial : List (Balancer × Commit)) (b : Balancer) (identities : List String) : Prop where
  run : Run Commit.Serial .new serial b
  operations : Reachable (StepsTo Balancer.step) .new b
  order : (serial.map Prod.snd).map Commit.outcome = tr.filterMap committed
  requested : ∀ request call, .published request call ∈ serial.map Prod.snd → Requested tr request
  flags : s.balancer = identities.foldl Balancer.flagUnsubscribe b
  settled : s.publishing = [] → identities = []

theorem reachable_of_serial {serial : List (Balancer × Commit)} {b b' : Balancer}
    (h : Run Commit.Serial b serial b') : Reachable (StepsTo Balancer.step) b b' := by
  induction h with
  | nil => exact .refl _
  | @snoc _ _ _ commit _ hs ih =>
    cases commit with
    | written conn op => exact ih.trans (reachable_of_exec _ hs)
    | published request call =>
      obtain ⟨env, p, -, -, -, hp, rfl, -⟩ := hs
      refine ih.next (a := .publish env request.session request.signature request.data) ?_
      simp only [StepsTo, Balancer.step, hp]

/-- In every run without a panic the server has done to the balancer what its tasks do one after the
other, in the order in which they let go of the lock: each writer its operations, each call of
`publish` that was requested all of its sends at once, with the same envelopes and the same record.
The calls in progress have only added flags. -/
theorem serializable (h : Run Step new tr s) (running : s.exited = none) :
    ∃ serial b identities, Serialized tr s serial b identities := by
  obtain ⟨tasks, rtr, hsimulated⟩ := simulated_of_run h running
  obtain ⟨serial, b, hserial, hlabels, hbehind⟩ := ReadLock.Tasks.behind_of_run hsimulated.run
  obtain ⟨identities, hflags, hnone⟩ := exists_flags (tasks.map Publishing.reader) b
  have hcommits := hserial.relabel fun _ _ _ => Commit.serial_ofTask
  have hnames : (serial.map (Prod.map id Commit.ofTask)).map Prod.snd =
      (rtr.filterMap ReadLock.committed).map Commit.ofTask := by
    rw [← hlabels, List.map_map, List.map_map]
    rfl
  refine ⟨_, b, identities, hcommits, reachable_of_serial hcommits, ?_, ?_, ?_, ?_⟩
  · rw [hnames, hsimulated.outcomes]
  · rw [hnames]
    exact hsimulated.published
  · exact hbehind.state_eq.trans hflags
  · intro hidle
    rw [hsimulated.calls, List.map_eq_nil_iff] at hidle
    exact hnone (by rw [hidle, List.map_nil])

/-- Two calls in progress, and the client both have picked is gone before the first send. -/
theorem serialized_two_calls : ∃ tr s, Run Step new tr s ∧ s.publishing.length = 2 ∧
    (∃ c, s.balancer.txConsumers.lookup "A" = some c ∧ c.doUnsubscribe) ∧
      ∃ serial b identities, Serialized tr s serial b identities := by
  obtain ⟨tr, hrun, -⟩ := run_twoClients
  have hfirst := (hrun.snoc (step_request [])).snoc (step_grant [])
  have hsecond := (hfirst.snoc (@Step.request _ (.read firstDraws) rfl)).snoc
    (@Step.grantRead _ firstDraws [] rfl rfl)
  have hsend := (hsecond.snoc (@Step.dropReceiver _ 1 rfl)).snoc
    (@Step.send _ 0 drawnThrice _ _ rfl rfl rfl (by
      rintro ⟨ch, hch, hfull⟩
      obtain rfl : ⟨[], true⟩ = ch := Option.some.inj hch
      exact absurd hfull (by decide)))
  exact ⟨_, _, hsend, rfl, ⟨_, rfl, rfl⟩, serializable hsend rfl⟩

end LockedServer

end Mtransaction
