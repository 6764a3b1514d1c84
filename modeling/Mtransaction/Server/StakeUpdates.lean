import Mtransaction.Server.BalancerRuns

/-!
# Stakes from the chain and from the command line

The loop in `main` of `server/main.rs` that asks the RPC node for the epoch, fetches the activated
stakes when it has changed, and hands them to the balancer with the overrides of the command line.
Clients come and go meanwhile; between two calls, and while the loop waits for the write lock.
-/

namespace Mtransaction

open Runs

structure VoteAccount where
  nodePubkey : String
  activatedStake : UInt64
  deriving DecidableEq, Repr

def lamportsPerSol : UInt64 := 1000000000

/-- `get_activated_stake` on the current vote accounts. -/
def getActivatedStake (current : Except String (List VoteAccount)) :
    Except String (HashMap String UInt64) :=
  match current with
  | .error err => .error err
  | .ok current => .ok (AList.collect (current.map fun account =>
      (account.nodePubkey, account.activatedStake / lamportsPerSol)))

/-- The options `--stake-override-identity` and `--stake-override-sol`, taken in pairs. -/
def stakeOverride (stakeOverrideIdentity : List String) (stakeOverrideSol : List UInt64) :
    HashMap String UInt64 :=
  AList.collect (stakeOverrideIdentity.zip stakeOverrideSol)

/-- `stake_weights.into_iter().chain(stake_override.clone()).collect()` -/
def chainOverride (stakeWeights overrides : HashMap String UInt64)
    (o o' : HashOrder (String × UInt64)) : HashMap String UInt64 :=
  AList.collect (stakeWeights.iter o ++ overrides.iter o')

-- the later of two pairs with one key stays, so overrides win
theorem lookup_chainOverride (stakeWeights overrides : HashMap String UInt64)
    (o o' : HashOrder (String × UInt64)) (identity : String) :
    (chainOverride stakeWeights overrides o o').lookup identity =
      match overrides.lookup identity with
      | some stake => some stake
      | none => stakeWeights.lookup identity := by
  rw [chainOverride, AList.collect, List.foldl_append]
  cases hover : overrides.lookup identity with
  | some stake =>
    refine AList.lookup_foldl_insert_of_mem (AList.mem_iter.mpr hover) ?_ _
    intro stake' hmem
    exact Option.some.inj ((AList.mem_iter.mp hmem).symm.trans hover)
  | none =>
    have hnot : identity ∉ (overrides.iter o').map Prod.fst := by
      intro hmem
      obtain ⟨e, he, rfl⟩ := List.mem_map.mp hmem
      have := AList.mem_iter.mp he
      simp [hover] at this
    rw [AList.lookup_foldl_insert_of_notMem _ _ hnot]
    apply Option.ext
    intro stake
    have hcollect := AList.lookup_collect_eq_some_iff (k := identity) (v := stake)
      (stakeWeights.nodup_fst_iter o)
    rw [AList.collect] at hcollect
    rw [hcollect, AList.mem_iter]

/-! ## The loop -/

inductive StakePhase
  /-- about to call `get_current_epoch` -/
  | asking
  /-- about to call `get_activated_stake` -/
  | fetching (epoch : UInt64)
  /-- waiting for the write lock with the stakes fetched -/
  | updating (epoch : UInt64) (stakeWeights : HashMap String UInt64)
  | sleeping

/-- The loop and the balancer.  `fetched` remembers the successful fetches, the last one first, with
the epoch each was made for. -/
structure StakeUpdater where
  phase : StakePhase
  lastEpoch : UInt64
  balancer : Balancer
  fetched : List (UInt64 × HashMap String UInt64)

inductive StakeEvent
  | currentEpoch (answer : Except String UInt64)
  | activatedStake (answer : Except String (List VoteAccount))
  | update (o o' : HashOrder (String × UInt64))
  | wake
  /-- another task uses the balancer -/
  | op (op : BalancerOp)

def BalancerOp.setsStakes : BalancerOp → Bool
  | .updateStakeWeights _ => true
  | _ => false

/-- The call to the RPC node fails. -/
def StakeEvent.Fails : StakeEvent → Prop
  | .currentEpoch (.error _) | .activatedStake (.error _) => True
  | _ => False

namespace StakeUpdater

def new : StakeUpdater := ⟨.asking, 0, .new, []⟩

def askEpoch (s : StakeUpdater) (answer : Except String UInt64) : StakeUpdater :=
  let epoch :=
    match answer with
    | .ok epoch => epoch
    -- logged, and the old epoch stands in
    | .error _ => s.lastEpoch
  { s with phase := if s.lastEpoch ≠ epoch then .fetching epoch else .sleeping }

def fetchStake (s : StakeUpdater) (epoch : UInt64) (answer : Except String (List VoteAccount)) :
    StakeUpdater :=
  match getActivatedStake answer with
  | .ok stakeWeights =>
    { s with
      phase := .updating epoch stakeWeights
      fetched := (epoch, stakeWeights) :: s.fetched }
  | .error _ => { s with phase := .sleeping }

section Step

variable (overrides : HashMap String UInt64)

inductive Step : StakeUpdater → StakeEvent → StakeUpdater → Prop
  | currentEpoch {s : StakeUpdater} {answer : Except String UInt64} (asking : s.phase = .asking) :
      Step s (.currentEpoch answer) (s.askEpoch answer)
  | activatedStake {s : StakeUpdater} {epoch : UInt64}
      {answer : Except String (List VoteAccount)} (fetching : s.phase = .fetching epoch) :
      Step s (.activatedStake answer) (s.fetchStake epoch answer)
  | update {s : StakeUpdater} {epoch : UInt64} {stakeWeights : HashMap String UInt64}
      {o o' : HashOrder (String × UInt64)} (updating : s.phase = .updating epoch stakeWeights) :
      Step s (.update o o')
        { s with
          balancer := s.balancer.updateStakeWeights (chainOverride stakeWeights overrides o o')
          lastEpoch := epoch
          phase := .sleeping }
  | wake {s : StakeUpdater} (sleeping : s.phase = .sleeping) :
      Step s .wake { s with phase := .asking }
  | op {s : StakeUpdater} {op : BalancerOp} {balancer : Balancer} (other : op.setsStakes = false)
      (ok : s.balancer.step op = .ok balancer) : Step s (.op op) { s with balancer }

end Step

/-- The fetches that have reached the balancer: all but one that waits for the lock. -/
def applied (s : StakeUpdater) : List (UInt64 × HashMap String UInt64) :=
  match s.phase with
  | .updating _ _ => s.fetched.tail
  | _ => s.fetched

end StakeUpdater

/-- The stake an identity should have: the override if there is one, else the stake fetched, else
1; and 1 before anything has been fetched. -/
def effectiveStake (overrides : HashMap String UInt64) (fetched : Option (HashMap String UInt64))
    (identity : String) : UInt64 :=
  match fetched with
  | none => 1
  | some stakes =>
    match overrides.lookup identity with
    | some stake => stake
    | none => (stakes.lookup identity).getD 1

namespace StakeUpdater

/-- Every consumer has its effective stake by the last fetch that has reached the balancer, which is
the last one there is unless that one waits for the lock; a failed call changes neither weights nor
`last_epoch`; and the stakes are fetched whenever the epoch is not that of the last fetch. -/
structure Effective (overrides : HashMap String UInt64) (s : StakeUpdater) : Prop where
  stakes : ∀ i c, s.balancer.txConsumers.lookup i = some c →
    c.stake = effectiveStake overrides (s.applied.head?.map Prod.snd) i
  current : (∀ epoch stakeWeights, s.phase ≠ .updating epoch stakeWeights) →
    s.applied = s.fetched
  kept : ∀ event s', Step overrides s event s' → event.Fails →
    s'.balancer = s.balancer ∧ s'.lastEpoch = s.lastEpoch ∧ s'.fetched = s.fetched
  attempted : ∀ epoch s', Step overrides s (.currentEpoch (.ok epoch)) s' →
    (s'.phase = .fetching epoch ↔ epoch ≠ (s.fetched.head?.map Prod.fst).getD 0)

/-! ## What every step keeps -/

section Invariant

variable {overrides : HashMap String UInt64} {s s' : StakeUpdater} {event : StakeEvent}
  {tr : List (StakeUpdater × StakeEvent)}

/-- The weights are the effective stakes, and `last_epoch` that of the last fetch that has reached
the balancer; what waits for the lock is the last fetch of all. -/
structure Invariant (overrides : HashMap String UInt64) (s : StakeUpdater) : Prop where
  weights : ∀ i, (s.balancer.stakeWeights.lookup i).getD 1 =
    effectiveStake overrides (s.applied.head?.map Prod.snd) i
  stakes : ∀ i c, s.balancer.txConsumers.lookup i = some c →
    c.stake = effectiveStake overrides (s.applied.head?.map Prod.snd) i
  epoch : s.lastEpoch = (s.applied.head?.map Prod.fst).getD 0
  pending : ∀ epoch stakeWeights, s.phase = .updating epoch stakeWeights →
    s.fetched.head? = some (epoch, stakeWeights)

theorem invariant_new : Invariant overrides new := by
  refine ⟨fun i => rfl, fun i c hc => ?_, rfl, fun epoch stakeWeights hphase => ?_⟩
  · simp [new, Balancer.new] at hc
  · simp [new] at hphase

theorem applied_eq_fetched (h : ∀ epoch stakeWeights, s.phase ≠ .updating epoch stakeWeights) :
    s.applied = s.fetched := by
  unfold applied
  split
  next epoch stakeWeights heq => exact absurd heq (h epoch stakeWeights)
  next => rfl

-- a phase in which nothing waits for the lock may follow another such phase
theorem Invariant.setPhase (h : Invariant overrides s) {phase : StakePhase}
    (hs : s.applied = s.fetched)
    (hphase : ∀ epoch stakeWeights, phase ≠ .updating epoch stakeWeights) :
    Invariant overrides { s with phase } := by
  have happlied : applied { s with phase } = s.applied :=
    (applied_eq_fetched hphase).trans hs.symm
  refine ⟨?_, ?_, ?_, fun epoch stakeWeights heq => absurd heq (hphase epoch stakeWeights)⟩
  · rw [happlied]
    exact h.weights
  · rw [happlied]
    exact h.stakes
  · rw [happlied]
    exact h.epoch

theorem getD_chainOverride (stakeWeights overrides : HashMap String UInt64)
    (o o' : HashOrder (String × UInt64)) (i : String) :
    ((chainOverride stakeWeights overrides o o').lookup i).getD 1 =
      effectiveStake overrides (some stakeWeights) i := by
  rw [lookup_chainOverride, effectiveStake]
  cases overrides.lookup i <;> rfl

theorem Invariant.update (h : Invariant overrides s) {epoch : UInt64}
    {stakeWeights : HashMap String UInt64} (o o' : HashOrder (String × UInt64))
    (updating : s.phase = .updating epoch stakeWeights) :
    Invariant overrides
      { s with
        balancer := s.balancer.updateStakeWeights (chainOverride stakeWeights overrides o o')
        lastEpoch := epoch
        phase := .sleeping } := by
  have hlast := h.pending epoch stakeWeights updating
  have hweights (i : String) : ((chainOverride stakeWeights overrides o o').lookup i).getD 1 =
      effectiveStake overrides (s.fetched.head?.map Prod.snd) i := by
    rw [hlast, getD_chainOverride]
    rfl
  refine ⟨hweights, fun i c hc => ?_, ?_, by simp⟩
  · rw [Balancer.lookup_updateStakeWeights] at hc
    obtain ⟨c₀, -, rfl⟩ := Option.map_eq_some_iff.mp hc
    exact hweights i
  · show epoch = (s.fetched.head?.map Prod.fst).getD 0
    rw [hlast]
    rfl

theorem Invariant.op (h : Invariant overrides s) {op : BalancerOp} {balancer : Balancer}
    (other : op.setsStakes = false) (ok : s.balancer.step op = .ok balancer) :
    Invariant overrides { s with balancer } := by
  have hop : ∀ w, op ≠ .updateStakeWeights w := by
    rintro w rfl
    simp [BalancerOp.setsStakes] at other
  refine ⟨?_, fun i c hc => ?_, h.epoch, h.pending⟩
  · show ∀ i, (balancer.stakeWeights.lookup i).getD 1 = _
    rw [Balancer.step_stakeWeights ok hop]
    exact h.weights
  · -- a new consumer gets the weight there is, the others keep what they have
    rcases Balancer.step_entry ok hc with
      ⟨token, conn, -, rfl⟩ | ⟨w, c₀, heq, -, -⟩ | ⟨c₀, flag, hc₀, rfl⟩
    · exact h.weights i
    · exact absurd heq (hop w)
    · exact h.stakes i c₀ hc₀

theorem Invariant.step (h : Invariant overrides s) (hs : Step overrides s event s') :
    Invariant overrides s' := by
  cases hs with
  | currentEpoch asking =>
    refine h.setPhase (by simp [applied, asking]) fun epoch stakeWeights => ?_
    -- fetching, or nothing to do
    split_ifs <;> simp
  | @activatedStake epoch answer fetching =>
    have happlied : s.applied = s.fetched := by simp [applied, fetching]
    unfold fetchStake
    split
    next stakeWeights _ =>
      have hweights := h.weights
      have hstakes := h.stakes
      have hepoch := h.epoch
      rw [happlied] at hweights hstakes hepoch
      refine ⟨hweights, hstakes, hepoch, ?_⟩
      rintro _ _ ⟨⟩
      rfl
    next => exact h.setPhase happlied (by simp)
  | update updating => exact h.update _ _ updating
  | wake sleeping => exact h.setPhase (by simp [applied, sleeping]) (by simp)
  | op other ok => exact h.op other ok

theorem Invariant.effective (h : Invariant overrides s) : Effective overrides s := by
  refine ⟨h.stakes, applied_eq_fetched, fun event s' hs hfails => ?_, fun epoch s' hs => ?_⟩
  · cases hs with
    | currentEpoch asking => exact ⟨rfl, rfl, rfl⟩
    | @activatedStake epoch answer fetching =>
      cases answer with
      | ok current => exact hfails.elim
      | error err => exact ⟨rfl, rfl, rfl⟩
    | _ => exact hfails.elim
  · cases hs with
    | currentEpoch asking =>
      have hlast := h.epoch
      simp only [applied, asking] at hlast
      rw [← hlast]
      simp only [askEpoch]
      split
      next hne => simpa using Ne.symm hne
      next heq => simpa using (not_not.mp heq).symm

end Invariant

/-- In every run of the stake updates with the other tasks, the stakes are the effective ones, a
failed call to the RPC node changes nothing, and the stakes are fetched when they should be. -/
theorem effective_of_run {stakeOverrideIdentity : List String} {stakeOverrideSol : List UInt64}
    {s : StakeUpdater} {tr : List (StakeUpdater × StakeEvent)}
    (h : Run (Step (stakeOverride stakeOverrideIdentity stakeOverrideSol)) new tr s) :
    Effective (stakeOverride stakeOverrideIdentity stakeOverrideSol) s :=
  (h.invariant invariant_new fun _ _ _ _ ht hs => ht.step hs).effective

/-- "A" connects before the stakes are fetched, "B" and "C" after that; "A" has an override. -/
theorem effective_around_fetch :
    ∃ s, Reachable (Step (stakeOverride ["A"] [7])) new s ∧
      (s.balancer.txConsumers.lookup "A").map TxConsumer.stake = some 7 ∧
      (s.balancer.txConsumers.lookup "B").map TxConsumer.stake = some 5 ∧
      (s.balancer.txConsumers.lookup "C").map TxConsumer.stake = some 1 ∧
      Effective (stakeOverride ["A"] [7]) s := by
  have hconnect := (Run.nil new).snoc
    (@Step.op (stakeOverride ["A"] [7]) _ (.subscribe "A" "tokenA" 0) _ rfl rfl)
  have hepoch := hconnect.snoc (@Step.currentEpoch _ _ (.ok 800) rfl)
  have hfetch := hepoch.snoc (@Step.activatedStake _ _ 800
    (.ok [⟨"A", 3000000000⟩, ⟨"B", 5500000000⟩]) rfl)
  have hupdate := hfetch.snoc (@Step.update _ _ _ _ .stored .stored rfl)
  have hsecond := hupdate.snoc (@Step.op _ _ (.subscribe "B" "tokenB" 1) _ rfl rfl)
  have hthird := hsecond.snoc (@Step.op _ _ (.subscribe "C" "tokenC" 2) _ rfl rfl)
  exact ⟨_, ⟨_, hthird⟩, by decide, by decide, by decide, effective_of_run hthird⟩

end StakeUpdater

end Mtransaction
