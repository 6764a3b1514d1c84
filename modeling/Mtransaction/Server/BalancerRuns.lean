import Mtransaction.Lib.Runs
import Mtransaction.Server.Publish
import Mathlib.Algebra.Order.BigOperators.Group.List
import Mathlib.Algebra.Order.Group.Nat

/-!
# Runs of the balancer

The balancer as an object: any sequence of its operations from `Balancer::new`.  Every operation
that changes the consumer table recomputes `total_connected_stake`, except `update_stake_weights`;
what that costs is stated here for the cached total and for sampling.
-/

namespace Mtransaction

open Runs

inductive BalancerOp
  | subscribe (identity token : String) (conn : ConnId)
  | unsubscribe (identity token : String)
  | updateStakeWeights (stakeWeights : HashMap String UInt64)
  | setLeaders (leaderTpus : List LeaderInfo) (leaders : HashMap String LeaderInfo)
  | updateRtt (identity : String) (value : Rtt)
  | publish (env : PublishEnv) (session : SignatureRecord) (signature data : String)
  | flushUnsubscribes (o : HashOrder (String × TxConsumer))

namespace Balancer

def step (b : Balancer) : BalancerOp → Except Panic Balancer
  | .subscribe identity token conn => .ok (b.subscribe identity token conn)
  | .unsubscribe identity token => .ok (b.unsubscribe identity token)
  | .updateStakeWeights stakeWeights => .ok (b.updateStakeWeights stakeWeights)
  | .setLeaders leaderTpus leaders => .ok (b.setLeaders leaderTpus leaders)
  | .updateRtt identity value => b.updateRtt identity value
  | .publish env session signature data =>
    match b.publish env session signature data with
    | .ok p => .ok p.balancer
    | .error e => .error e
  | .flushUnsubscribes o => .ok (b.flushUnsubscribes o)

/-! ## The effect of one operation on an entry -/

section Entry

variable {b b' : Balancer} {op : BalancerOp}

/-- An entry is new, has a new stake, or is an old one that may have been flagged. -/
theorem step_entry {i : String} {c' : TxConsumer} (h : b.step op = .ok b')
    (hc : b'.txConsumers.lookup i = some c') :
    (∃ token conn, op = .subscribe i token conn ∧
      c' = ⟨i, (b.stakeWeights.lookup i).getD 1, conn, token, some conn, false⟩) ∨
    (∃ w c, op = .updateStakeWeights w ∧ b.txConsumers.lookup i = some c ∧
      c' = { c with stake := (w.lookup i).getD 1 }) ∨
    ∃ c flag, b.txConsumers.lookup i = some c ∧ c' = { c with doUnsubscribe := flag } := by
  cases op with
  | subscribe identity token conn =>
    obtain rfl := Except.ok.inj h
    rw [lookup_subscribe] at hc
    split at hc
    next hi =>
      subst hi
      exact .inl ⟨token, conn, rfl, (Option.some.inj hc).symm⟩
    next => exact .inr (.inr ⟨c', c'.doUnsubscribe, hc, rfl⟩)
  | unsubscribe identity token =>
    obtain rfl := Except.ok.inj h
    rw [lookup_unsubscribe] at hc
    exact .inr (.inr ⟨c', c'.doUnsubscribe, (Option.filter_eq_some_iff.mp hc).1, rfl⟩)
  | updateStakeWeights w =>
    obtain rfl := Except.ok.inj h
    rw [lookup_updateStakeWeights] at hc
    obtain ⟨c, hold, rfl⟩ := Option.map_eq_some_iff.mp hc
    exact .inr (.inl ⟨w, c, rfl, hold, rfl⟩)
  | setLeaders leaderTpus leaders =>
    obtain rfl := Except.ok.inj h
    exact .inr (.inr ⟨c', c'.doUnsubscribe, hc, rfl⟩)
  | updateRtt identity value =>
    obtain ⟨rttValues, rfl⟩ := b.updateRtt_eq_ok identity h
    exact .inr (.inr ⟨c', c'.doUnsubscribe, hc, rfl⟩)
  | publish env session signature data =>
    simp only [step] at h
    split at h
    next p hp =>
      obtain rfl := Except.ok.inj h
      obtain ⟨identities, heq⟩ := publish_flags hp
      rw [heq, lookup_foldl_flagUnsubscribe] at hc
      obtain ⟨c, hold, rfl⟩ := Option.map_eq_some_iff.mp hc
      exact .inr (.inr ⟨c, _, hold, rfl⟩)
    next => simp at h
  | flushUnsubscribes o =>
    obtain rfl := Except.ok.inj h
    rw [lookup_flushUnsubscribes] at hc
    exact .inr (.inr ⟨c', c'.doUnsubscribe, (Option.filter_eq_some_iff.mp hc).1, rfl⟩)

end Entry

/-! ## What one operation leaves alone -/

section Tables

variable {b b' b'' : Balancer} {op : BalancerOp}

/-- The tables that no operation on consumers touches. -/
structure SameTables (b b' : Balancer) : Prop where
  stakeWeights : b'.stakeWeights = b.stakeWeights
  leaders : b'.leaders = b.leaders
  leaderTpus : b'.leaderTpus = b.leaderTpus
  rttValues : b'.rttValues = b.rttValues

theorem SameTables.refl (b : Balancer) : SameTables b b := ⟨rfl, rfl, rfl, rfl⟩

theorem SameTables.trans (h : SameTables b b') (h' : SameTables b' b'') : SameTables b b'' :=
  ⟨h'.stakeWeights.trans h.stakeWeights, h'.leaders.trans h.leaders,
    h'.leaderTpus.trans h.leaderTpus, h'.rttValues.trans h.rttValues⟩

theorem sameTables_foldl {α : Type*} {f : Balancer → α → Balancer}
    (hf : ∀ b a, SameTables b (f b a)) (l : List α) (b : Balancer) : SameTables b (l.foldl f b) := by
  refine List.foldlRecOn (motive := SameTables b) l f (.refl b) ?_
  intro b' h a _
  exact h.trans (hf b' a)

theorem sameTables_unsubscribe (b : Balancer) (identity token : String) :
    SameTables b (b.unsubscribe identity token) := by
  rcases b.unsubscribe_cases identity token with ⟨c, -, -, heq⟩ | ⟨-, heq⟩ <;> rw [heq] <;>
    exact ⟨rfl, rfl, rfl, rfl⟩

theorem sameTables_flushUnsubscribes (b : Balancer) (o : HashOrder (String × TxConsumer)) :
    SameTables b (b.flushUnsubscribes o) := by
  unfold flushUnsubscribes
  exact sameTables_foldl (f := fun b (entry : String × String) => b.unsubscribe entry.1 entry.2)
    (fun b entry => b.sameTables_unsubscribe entry.1 entry.2) _ b

/-- Each table has one operation that writes it. -/
theorem step_sameTables (h : b.step op = .ok b') :
    (∃ w, op = .updateStakeWeights w) ∨
      (∃ leaderTpus leaders, op = .setLeaders leaderTpus leaders) ∨
      (∃ identity value, op = .updateRtt identity value) ∨ SameTables b b' := by
  cases op with
  | subscribe identity token conn =>
    obtain rfl := Except.ok.inj h
    exact .inr (.inr (.inr ⟨rfl, rfl, rfl, rfl⟩))
  | unsubscribe identity token =>
    obtain rfl := Except.ok.inj h
    exact .inr (.inr (.inr (b.sameTables_unsubscribe identity token)))
  | updateStakeWeights w => exact .inl ⟨w, rfl⟩
  | setLeaders leaderTpus leaders => exact .inr (.inl ⟨leaderTpus, leaders, rfl⟩)
  | updateRtt identity value => exact .inr (.inr (.inl ⟨identity, value, rfl⟩))
  | publish env session signature data =>
    simp only [step] at h
    split at h
    next p hp =>
      obtain rfl := Except.ok.inj h
      obtain ⟨identities, heq⟩ := publish_flags hp
      rw [heq]
      exact .inr (.inr (.inr (sameTables_foldl (f := flagUnsubscribe)
        (fun _ _ => ⟨rfl, rfl, rfl, rfl⟩) identities b)))
    next => simp at h
  | flushUnsubscribes o =>
    obtain rfl := Except.ok.inj h
    exact .inr (.inr (.inr (b.sameTables_flushUnsubscribes o)))

-- the weights change by `update_stake_weights` only
theorem step_stakeWeights (h : b.step op = .ok b') (hop : ∀ w, op ≠ .updateStakeWeights w) :
    b'.stakeWeights = b.stakeWeights := by
  rcases step_sameTables h with
    ⟨w, rfl⟩ | ⟨leaderTpus, leaders, rfl⟩ | ⟨identity, value, rfl⟩ | htables
  · exact absurd rfl (hop w)
  · obtain rfl := Except.ok.inj h
    rfl
  · obtain ⟨rttValues, rfl⟩ := b.updateRtt_eq_ok identity h
    rfl
  · exact htables.stakeWeights

-- and the round-trip times by `update_rtt` only
theorem step_rttValues (h : b.step op = .ok b')
    (hop : ∀ identity value, op ≠ .updateRtt identity value) : b'.rttValues = b.rttValues := by
  rcases step_sameTables h with
    ⟨w, rfl⟩ | ⟨leaderTpus, leaders, rfl⟩ | ⟨identity, value, rfl⟩ | htables
  · obtain rfl := Except.ok.inj h
    rfl
  · obtain rfl := Except.ok.inj h
    rfl
  · exact absurd rfl (hop identity value)
  · exact htables.rttValues

end Tables

/-! ## The effect of one operation on the stakes -/

def stakes (b : Balancer) : List UInt64 := b.txConsumers.values.map TxConsumer.stake

theorem stakeSum_eq (b : Balancer) : b.stakeSum = (b.stakes.map UInt64.toNat).sum := by
  simp [stakeSum, stakes, Function.comp_def]

theorem weightSum_eq_stakes (b : Balancer) : b.weightSum = b.stakeSum + b.stakes.length := by
  rw [weightSum_eq]
  simp [stakes, AList.values]

-- a wrapping sum is the exact sum modulo its width
theorem toNat_sum (l : List UInt64) : l.sum.toNat = (l.map UInt64.toNat).sum % 2 ^ 64 := by
  induction l with
  | nil => rfl
  | cons x l ih => rw [List.sum_cons, UInt64.toNat_add, ih, List.map_cons, List.sum_cons, Nat.add_mod_mod]

/-- The cached total is the sum, modulo `2 ^ 64`, of the stakes in the table. -/
def Recalculated (b : Balancer) : Prop := b.totalConnectedStake = b.stakes.sum

def SameStakes (b b' : Balancer) : Prop :=
  b'.totalConnectedStake = b.totalConnectedStake ∧ b'.stakes = b.stakes

theorem SameStakes.stakeSum_eq {b b' : Balancer} (h : SameStakes b b') : b'.stakeSum = b.stakeSum := by
  rw [Balancer.stakeSum_eq, Balancer.stakeSum_eq, h.2]

theorem Recalculated.toNat_eq {b : Balancer} (h : Recalculated b) :
    b.totalConnectedStake.toNat = b.stakeSum % 2 ^ 64 := by
  rw [h, toNat_sum, Balancer.stakeSum_eq]

-- flags do not touch stakes
theorem stakes_flagUnsubscribe (b : Balancer) (identity : String) :
    SameStakes b (b.flagUnsubscribe identity) := by
  refine ⟨rfl, ?_⟩
  rw [stakes, stakes, flagUnsubscribe, mapConsumers, AList.values_mapValues,
    ← AList.map_snd_toPairs, List.map_map, List.map_map]
  apply List.map_congr_left
  intro e _
  simp only [Function.comp_apply]
  split <;> rfl

theorem sameStakes_foldl_flagUnsubscribe (b : Balancer) (identities : List String) :
    SameStakes b (identities.foldl flagUnsubscribe b) := by
  refine List.foldlRecOn (motive := SameStakes b) identities flagUnsubscribe ⟨rfl, rfl⟩ ?_
  intro b' h identity _
  have hflag := b'.stakes_flagUnsubscribe identity
  exact ⟨hflag.1.trans h.1, hflag.2.trans h.2⟩

-- fewer consumers cannot weigh more
theorem stakeSum_le_of_sublist {b b' : Balancer} (h : b'.stakes.Sublist b.stakes) :
    b'.stakeSum ≤ b.stakeSum := by
  rw [stakeSum_eq, stakeSum_eq]
  exact (h.map _).sum_le_sum fun _ _ => Nat.zero_le _

theorem weightSum_le_of_sublist {b b' : Balancer} (h : b'.stakes.Sublist b.stakes) :
    b'.weightSum ≤ b.weightSum := by
  rw [weightSum_eq_stakes, weightSum_eq_stakes]
  exact Nat.add_le_add (stakeSum_le_of_sublist h) h.length_le

theorem stakes_removeConsumer (b : Balancer) (identity : String) :
    (b.removeConsumer identity).stakes.Sublist b.stakes := by
  have hsub : (b.txConsumers.erase identity).entries.Sublist b.txConsumers.entries :=
    List.kerase_sublist identity b.txConsumers.entries
  exact (hsub.map _).map _

theorem unsubscribe_stakes (b : Balancer) (identity token : String) :
    b.unsubscribe identity token = b ∨
      Recalculated (b.unsubscribe identity token) ∧
        (b.unsubscribe identity token).stakes.Sublist b.stakes := by
  rcases b.unsubscribe_cases identity token with ⟨c, -, -, heq⟩ | ⟨-, heq⟩
  · rw [heq]
    exact .inr ⟨rfl, b.stakes_removeConsumer identity⟩
  · exact .inl heq

theorem flushUnsubscribes_stakes (b : Balancer) (o : HashOrder (String × TxConsumer)) :
    b.flushUnsubscribes o = b ∨
      Recalculated (b.flushUnsubscribes o) ∧ (b.flushUnsubscribes o).stakes.Sublist b.stakes := by
  have hfold (entries : List (String × String)) (b : Balancer) :
      entries.foldl (fun b entry => b.unsubscribe entry.1 entry.2) b = b ∨
        Recalculated (entries.foldl (fun b entry => b.unsubscribe entry.1 entry.2) b) ∧
          (entries.foldl (fun b entry => b.unsubscribe entry.1 entry.2) b).stakes.Sublist
            b.stakes := by
    induction entries generalizing b with
    | nil => exact .inl rfl
    | cons entry rest ih =>
      rw [List.foldl_cons]
      -- the total is recomputed by the last removal that happens, if any does
      rcases b.unsubscribe_stakes entry.1 entry.2 with heq | ⟨hrec, hsub⟩
      · rw [heq]
        exact ih b
      · rcases ih (b.unsubscribe entry.1 entry.2) with heq | ⟨hrec', hsub'⟩
        · rw [heq]
          exact .inr ⟨hrec, hsub⟩
        · exact .inr ⟨hrec', hsub'.trans hsub⟩
  exact hfold _ b

/-- Everything one operation can do to the stakes and their total. -/
def StakeEffect (b b' : Balancer) : BalancerOp → Prop
  | .subscribe identity token conn => b' = b.subscribe identity token conn
  | .updateStakeWeights w => b' = b.updateStakeWeights w
  | _ => SameStakes b b' ∨ Recalculated b' ∧ b'.stakes.Sublist b.stakes

theorem step_stakeEffect {b b' : Balancer} {op : BalancerOp} (h : b.step op = .ok b') :
    StakeEffect b b' op := by
  cases op with
  | subscribe identity token conn => exact (Except.ok.inj h).symm
  | unsubscribe identity token =>
    obtain rfl := Except.ok.inj h
    rcases b.unsubscribe_stakes identity token with heq | hrec
    · exact .inl (heq.symm ▸ ⟨rfl, rfl⟩)
    · exact .inr hrec
  | updateStakeWeights w => exact (Except.ok.inj h).symm
  | setLeaders leaderTpus leaders =>
    obtain rfl := Except.ok.inj h
    exact .inl ⟨rfl, rfl⟩
  | updateRtt identity value =>
    obtain ⟨rttValues, rfl⟩ := b.updateRtt_eq_ok identity h
    exact .inl ⟨rfl, rfl⟩
  | publish env session signature data =>
    simp only [step] at h
    split at h
    next p hp =>
      obtain rfl := Except.ok.inj h
      obtain ⟨identities, heq⟩ := publish_flags hp
      exact .inl (heq ▸ b.sameStakes_foldl_flagUnsubscribe identities)
    next => simp at h
  | flushUnsubscribes o =>
    obtain rfl := Except.ok.inj h
    rcases b.flushUnsubscribes_stakes o with heq | hrec
    · exact .inl (heq.symm ▸ ⟨rfl, rfl⟩)
    · exact .inr hrec

/-! ## The cached total -/

/-- What the connected consumers would weigh together under these stake weights. -/
def weighedSum (b : Balancer) (stakeWeights : HashMap String UInt64) : ℕ :=
  (b.txConsumers.toPairs.map fun e => ((stakeWeights.lookup e.1).getD 1).toNat).sum

theorem stakeSum_updateStakeWeights (b : Balancer) (w : HashMap String UInt64) :
    (b.updateStakeWeights w).stakeSum = b.weighedSum w := by
  simp [stakeSum, weighedSum, updateStakeWeights, mapConsumers, AList.values_mapValues,
    Function.comp_def]

theorem stakeSum_subscribe (b : Balancer) (identity token : String) (conn : ConnId) :
    (b.subscribe identity token conn).stakeSum =
      ((b.stakeWeights.lookup identity).getD 1).toNat + (b.removeConsumer identity).stakeSum := by
  have herase : (b.txConsumers.erase identity).entries = b.txConsumers.entries.kerase identity :=
    rfl
  simp [stakeSum, subscribe, insertConsumer, removeConsumer, AList.values, AList.entries_insert,
    herase]

/-- The operation leaves the cached total exact if it was: a stake update gives the connected
consumers the same sum as before, and a new consumer's stake fits into `u64` with the others'. -/
def KeepsTotal (b : Balancer) : BalancerOp → Prop
  | .updateStakeWeights w => b.weighedSum w = b.stakeSum
  | .subscribe identity _ _ =>
    ((b.stakeWeights.lookup identity).getD 1).toNat + (b.removeConsumer identity).stakeSum < 2 ^ 64
  | _ => True

theorem step_total_eq_iff {b b' : Balancer} {op : BalancerOp}
    (hb : b.totalConnectedStake.toNat = b.stakeSum) (h : b.step op = .ok b') :
    b'.totalConnectedStake.toNat = b'.stakeSum ↔ b.KeepsTotal op := by
  have heffect := step_stakeEffect h
  cases op with
  | subscribe identity token conn =>
    subst heffect
    have hrec : Recalculated (b.subscribe identity token conn) := rfl
    rw [hrec.toNat_eq, KeepsTotal, ← b.stakeSum_subscribe identity token conn]
    constructor
    · intro heq
      rw [← heq]
      exact Nat.mod_lt _ (by decide)
    · exact Nat.mod_eq_of_lt
  | updateStakeWeights w =>
    subst heffect
    rw [KeepsTotal, ← stakeSum_updateStakeWeights, ← hb]
    exact eq_comm
  | _ =>
    simp only [KeepsTotal, iff_true]
    rcases heffect with hsame | ⟨hrec, hsub⟩
    · rw [hsame.1, hsame.stakeSum_eq, hb]
    -- a smaller table still fits, since the old total was exact
    · rw [hrec.toNat_eq]
      have hlt := b.totalConnectedStake.toNat_lt
      have hle := stakeSum_le_of_sublist hsub
      exact Nat.mod_eq_of_lt (by omega)

/-- In every run of the balancer the cached total is the exact sum of the connected stakes in every
state exactly when each stake update keeps the sum and no subscription makes it exceed `u64`. -/
theorem totalConnectedStake_eq_iff {b : Balancer} {tr : List (Balancer × BalancerOp)}
    (h : Run (StepsTo step) new tr b) :
    ((∀ x ∈ tr, x.1.totalConnectedStake.toNat = x.1.stakeSum) ∧
        b.totalConnectedStake.toNat = b.stakeSum) ↔
      ∀ x ∈ tr, x.1.KeepsTotal x.2 :=
  h.forall_states_iff (P := fun b => b.totalConnectedStake.toNat = b.stakeSum) rfl
    fun _ _ _ hb hs => step_total_eq_iff hb hs

/-- A consumer that subscribed with stake 1, after its stake became 5. -/
def staleBalancer : Balancer :=
  (new.subscribe "A" "token" 0).updateStakeWeights (AList.singleton "A" 5)

theorem totalConnectedStake_stale :
    Reachable (StepsTo step) new staleBalancer ∧
      staleBalancer.totalConnectedStake.toNat ≠ staleBalancer.stakeSum := by
  have hsub : StepsTo step new (.subscribe "A" "token" 0) (new.subscribe "A" "token" 0) := rfl
  have hupdate : StepsTo step (new.subscribe "A" "token" 0)
    (.updateStakeWeights (AList.singleton "A" 5)) staleBalancer := rfl
  exact ⟨((Reachable.refl new).next hsub).next hupdate, by decide⟩

theorem totalConnectedStake_eq_of_equal_stake :
    ((new.subscribe "A" "token" 0).updateStakeWeights
        (AList.singleton "A" 1)).totalConnectedStake.toNat =
      ((new.subscribe "A" "token" 0).updateStakeWeights (AList.singleton "A" 1)).stakeSum := by
  have hsub : StepsTo step new (.subscribe "A" "token" 0) (new.subscribe "A" "token" 0) := rfl
  have hupdate : StepsTo step (new.subscribe "A" "token" 0)
    (.updateStakeWeights (AList.singleton "A" 1)) _ := rfl
  refine ((totalConnectedStake_eq_iff (((Run.nil new).snoc hsub).snoc hupdate)).mpr ?_).2
  simp only [List.nil_append, List.cons_append, List.forall_mem_cons]
  have hfits : new.KeepsTotal (.subscribe "A" "token" 0) := by
    rw [KeepsTotal]
    decide
  have hkept : (new.subscribe "A" "token" 0).weighedSum (AList.singleton "A" 1) =
    (new.subscribe "A" "token" 0).stakeSum := by decide
  exact ⟨hfits, hkept, by simp⟩

/-! ## Sampling along a run -/

/-- No connected consumer is overlooked: every draw selects someone, so every pick list that is
returned is full, and `publish` never finds itself without clients. -/
structure NeverOverlooked (b : Balancer) : Prop where
  sampled : ∀ o rng k, ∃ c, b.sampleConsumerStakeWeighted o rng k = .ok (some c)
  picked : ∀ o rng picks, b.pickConsumers o rng = .ok picks →
    picks.length = max nConsumers b.connectedLeaders
  published : ∀ env session signature data p, b.publish env session signature data = .ok p →
    p.result = .ok ()

theorem NeverOverlooked.of_sampled {b : Balancer}
    (h : ∀ o rng k, ∃ c, b.sampleConsumerStakeWeighted o rng k = .ok (some c)) :
    b.NeverOverlooked := by
  have hpicked : ∀ o rng picks, b.pickConsumers o rng = .ok picks →
      picks.length = max nConsumers b.connectedLeaders := by
    intro o rng picks hp
    obtain ⟨sampled, heq, -, -, hfull⟩ := b.pickConsumers_eq o rng
    rw [heq] at hp
    rw [length_assignTpus hp, List.length_append, List.length_map, length_leaderPicks,
      hfull (h o rng)]
    omega
  refine ⟨h, hpicked, ?_⟩
  intro env session signature data p hp
  rcases publish_cases hp with ⟨hnil, -⟩ | ⟨picks, st, -, -, -, rfl⟩
  · have := hpicked _ _ _ hnil
    simp only [List.length_nil, nConsumers] at this
    omega
  · rfl

/-- While nothing overflows, everyone's being sampled comes down to one comparison. -/
theorem neverOverlooked_iff {b : Balancer} (hfits : b.weightSum < 2 ^ 64)
    (hne : b.txConsumers.entries ≠ []) :
    b.NeverOverlooked ↔ b.totalConnectedStake.toNat ≤ b.weightSum := by
  obtain ⟨w, hw⟩ := totalWeight_isSome hne
  have hcover : (∀ o rng k, ∃ c, b.sampleConsumerStakeWeighted o rng k = .ok (some c)) ↔
      w ≤ b.weightSum := by
    simp only [sample_eq_of_totalWeight hw, Except.ok.injEq, ← Option.isSome_iff_exists,
      scanConsumers_isSome_iff hfits]
    constructor
    · intro h
      -- the largest draw decides
      have := h .stored (.const (w - 1)) 0
      have hpos := totalWeight_pos hw
      simp only [Rng.const] at this
      rw [if_pos (by omega)] at this
      omega
    · intro h o rng k
      exact (rng.lt k w (totalWeight_pos hw)).trans_le h
  have htotal : w ≤ b.weightSum ↔ b.totalConnectedStake.toNat ≤ b.weightSum := by
    unfold totalWeight at hw
    split at hw
    next h0 =>
      rw [← Option.some.inj hw, h0, weightSum_eq]
      simp
    next => rw [Option.some.inj hw]
  rw [← htotal, ← hcover]
  exact ⟨fun h => h.sampled, .of_sampled⟩

/-- The scan adds up within `u64`, to no less than the cached total. -/
def Covered (b : Balancer) : Prop :=
  b.totalConnectedStake.toNat ≤ b.weightSum ∧ b.weightSum < 2 ^ 64

/-- The operation leaves the balancer covered if it was: a stake update sinks the stakes below the
total by no more than one per consumer, and neither it nor a subscription makes the stakes with one
more for each consumer exceed `u64`. -/
def KeepsCovered (b : Balancer) : BalancerOp → Prop
  | .updateStakeWeights w =>
    b.totalConnectedStake.toNat ≤ b.weighedSum w + b.txConsumers.entries.length ∧
      b.weighedSum w + b.txConsumers.entries.length < 2 ^ 64
  | .subscribe identity _ _ =>
    ((b.stakeWeights.lookup identity).getD 1).toNat + 1 + (b.removeConsumer identity).weightSum <
      2 ^ 64
  | _ => True

-- right after a recomputation the total is within the weights
theorem Recalculated.covered {b : Balancer} (h : Recalculated b) :
    b.totalConnectedStake.toNat ≤ b.weightSum := by
  rw [h.toNat_eq, weightSum_eq]
  exact (Nat.mod_le _ _).trans (Nat.le_add_right _ _)

theorem weightSum_updateStakeWeights (b : Balancer) (w : HashMap String UInt64) :
    (b.updateStakeWeights w).weightSum = b.weighedSum w + b.txConsumers.entries.length := by
  rw [weightSum_eq, stakeSum_updateStakeWeights]
  simp [updateStakeWeights, mapConsumers, AList.mapValues]

theorem weightSum_subscribe (b : Balancer) (identity token : String) (conn : ConnId) :
    (b.subscribe identity token conn).weightSum =
      ((b.stakeWeights.lookup identity).getD 1).toNat + 1 +
        (b.removeConsumer identity).weightSum := by
  have herase : (b.txConsumers.erase identity).entries = b.txConsumers.entries.kerase identity :=
    rfl
  simp [weightSum, subscribe, insertConsumer, removeConsumer, AList.values, AList.entries_insert,
    herase]

theorem step_covered_iff {b b' : Balancer} {op : BalancerOp} (hb : b.Covered)
    (h : b.step op = .ok b') : b'.Covered ↔ b.KeepsCovered op := by
  have heffect := step_stakeEffect h
  cases op with
  | subscribe identity token conn =>
    subst heffect
    have hrec : Recalculated (b.subscribe identity token conn) := rfl
    rw [Covered, KeepsCovered, ← weightSum_subscribe b identity token conn]
    exact and_iff_right hrec.covered
  | updateStakeWeights w =>
    subst heffect
    rw [Covered, KeepsCovered, weightSum_updateStakeWeights]
    rfl
  | _ =>
    simp only [KeepsCovered, iff_true]
    rcases heffect with hsame | ⟨hrec, hsub⟩
    · rw [Covered, hsame.1, weightSum_eq_stakes, hsame.stakeSum_eq, hsame.2, ← weightSum_eq_stakes]
      exact hb
    · exact ⟨hrec.covered, (weightSum_le_of_sublist hsub).trans_lt hb.2⟩

theorem total_eq_zero_of_empty {b : Balancer} (h : Reachable (StepsTo step) new b)
    (hempty : b.stakes = []) : b.totalConnectedStake = 0 := by
  revert hempty
  refine h.invariant (P := fun b => b.stakes = [] → b.totalConnectedStake = 0) (fun _ => rfl) ?_
  intro b op b' hb hs hempty
  have heffect := step_stakeEffect hs
  cases op with
  | subscribe identity token conn =>
    subst heffect
    have hrec : Recalculated (b.subscribe identity token conn) := rfl
    rw [hrec, hempty, List.sum_nil]
  | updateStakeWeights w =>
    subst heffect
    refine hb ?_
    have hlen := congrArg List.length hempty
    rw [← List.length_eq_zero_iff]
    simpa [stakes, updateStakeWeights, mapConsumers, AList.mapValues, AList.values] using hlen
  | _ =>
    rcases heffect with hsame | ⟨hrec, -⟩
    · rw [hsame.1]
      exact hb (hsame.2 ▸ hempty)
    · rw [hrec, hempty, List.sum_nil]

/-- A step after which the stakes of the connected consumers still add up within `u64`. -/
def FittingStep (b : Balancer) (op : BalancerOp) (b' : Balancer) : Prop :=
  StepsTo step b op b' ∧ b'.stakeSum < 2 ^ 64

theorem reachable_of_fitting {b : Balancer} (h : Runs.Reachable FittingStep new b) :
    Reachable (StepsTo step) new b ∧ b.stakeSum < 2 ^ 64 := by
  refine h.invariant (P := fun b => Reachable (StepsTo step) new b ∧ b.stakeSum < 2 ^ 64)
    ⟨.refl new, by decide⟩ ?_
  rintro b op b' ⟨hr, -⟩ ⟨hs, hfits⟩
  exact ⟨hr.next hs, hfits⟩

/-- If anybody is connected, nobody is overlooked. -/
def Serves (b : Balancer) : Prop := b.txConsumers.entries ≠ [] → b.NeverOverlooked

/-- And this stays so whoever subscribes next. -/
def ServesOn (b : Balancer) : Prop :=
  b.Serves ∧ ∀ identity token conn b',
    FittingStep b (.subscribe identity token conn) b' → b'.Serves

theorem Covered.serves {b : Balancer} (h : b.Covered) : b.Serves :=
  fun hne => (neverOverlooked_iff h.2 hne).mpr h.1

-- a total just recomputed is exact, and outruns a scan that wraps around
theorem Recalculated.weightSum_lt {b : Balancer} (h : Recalculated b) (hfits : b.stakeSum < 2 ^ 64)
    (hcount : b.txConsumers.entries.length < 2 ^ 32) (hserves : b.Serves) :
    b.weightSum < 2 ^ 64 := by
  by_contra hover
  have htotal : b.totalConnectedStake.toNat = b.stakeSum := by
    rw [h.toNat_eq, Nat.mod_eq_of_lt hfits]
  have hne : b.txConsumers.entries ≠ [] := by
    intro hempty
    simp [weightSum, AList.values, hempty] at hover
  obtain ⟨o, rng, hnone⟩ := sample_overlooks htotal (by omega) hcount
  obtain ⟨c, hc⟩ := (hserves hne).sampled o rng 0
  simp [hnone 0] at hc

-- a connected consumer that subscribes again comes back with the stake it has
theorem stakes_resubscribe {b : Balancer} {i : String} {c : TxConsumer}
    (hc : b.txConsumers.lookup i = some c) (hstake : (b.stakeWeights.lookup i).getD 1 = c.stake)
    (token : String) (conn : ConnId) : (b.subscribe i token conn).stakes.Perm b.stakes := by
  have hperm := (AList.values_perm_erase hc).map TxConsumer.stake
  have herase : (b.txConsumers.erase i).entries = b.txConsumers.entries.kerase i := rfl
  have heq : (b.subscribe i token conn).stakes =
      c.stake :: (b.txConsumers.erase i).values.map TxConsumer.stake := by
    simp [stakes, subscribe, insertConsumer, recalcTotalConnectedStake, AList.values,
      AList.entries_insert, herase, hstake]
  rw [heq, stakes]
  exact hperm.symm

/-- Weights that exceed `u64` after a stake update show as soon as someone subscribes again, since
the total is then made exact. -/
theorem weightSum_updateStakeWeights_lt {b : Balancer} {w : HashMap String UInt64}
    (hfits : (b.updateStakeWeights w).stakeSum < 2 ^ 64)
    (hcount : (b.updateStakeWeights w).txConsumers.entries.length < 2 ^ 32)
    (hserves : (b.updateStakeWeights w).ServesOn) :
    (b.updateStakeWeights w).weightSum < 2 ^ 64 := by
  by_contra hover
  obtain ⟨i, c, hc, -⟩ := exists_length_le_stake (by omega) hcount
  have hstake : ((b.updateStakeWeights w).stakeWeights.lookup i).getD 1 = c.stake := by
    rw [lookup_updateStakeWeights] at hc
    obtain ⟨d, -, rfl⟩ := Option.map_eq_some_iff.mp hc
    rfl
  have hperm := stakes_resubscribe hc hstake c.token c.tx
  have hsum : ((b.updateStakeWeights w).subscribe i c.token c.tx).stakeSum =
      (b.updateStakeWeights w).stakeSum := by
    rw [stakeSum_eq, stakeSum_eq]
    exact (hperm.map _).sum_eq
  have hlen : ((b.updateStakeWeights w).subscribe i c.token c.tx).txConsumers.entries.length =
      (b.updateStakeWeights w).txConsumers.entries.length := by
    simpa [stakes, AList.values] using hperm.length_eq
  have hserves' := hserves.2 i c.token c.tx _ ⟨rfl, hsum ▸ hfits⟩
  have hrec : Recalculated ((b.updateStakeWeights w).subscribe i c.token c.tx) := rfl
  have hlt := hrec.weightSum_lt (hsum ▸ hfits) (hlen ▸ hcount) hserves'
  rw [weightSum_eq, hsum, hlen, ← weightSum_eq] at hlt
  exact hover hlt

/-- Along every run on which the stakes add up within `u64`: if all its operations leave the
balancer covered, no state overlooks a connected consumer.  And if there are fewer than `2 ^ 32`
consumers at any time, only then: after any other operation somebody is overlooked at once, or as
soon as someone subscribes. -/
theorem neverOverlooked_of_run {b : Balancer} {tr : List (Balancer × BalancerOp)}
    (h : Run FittingStep new tr b) :
    ((∀ x ∈ tr, x.1.KeepsCovered x.2) → (∀ x ∈ tr, x.1.Serves) ∧ b.Serves) ∧
      ((∀ x ∈ tr, x.1.txConsumers.entries.length < 2 ^ 32) →
        b.txConsumers.entries.length < 2 ^ 32 → (∀ x ∈ tr, x.1.ServesOn) → b.ServesOn →
          ∀ x ∈ tr, x.1.KeepsCovered x.2) := by
  have hnew : new.Covered := ⟨by decide, by decide⟩
  constructor
  · intro hsteps
    have hkeep : ∀ t op u, (t, op) ∈ tr → t.Covered → FittingStep t op u → u.Covered :=
      fun t op u hmem ht hs => (step_covered_iff ht hs.1).mpr (hsteps _ hmem)
    exact ⟨fun x hx => (h.invariant_mem hnew hkeep x hx).serves, (h.invariant hnew hkeep).serves⟩
  · intro hcounts hcount hserves hend
    refine h.forall_steps_of_states
      (P := fun b => b.Covered ∧ Runs.Reachable FittingStep new b)
      (Q := fun b => b.txConsumers.entries.length < 2 ^ 32 ∧ b.ServesOn) ⟨hnew, .refl new⟩
      (fun t op u ht hs hop => ⟨(step_covered_iff ht.1 hs.1).mpr hop, ht.2.next hs⟩) ?_
      (fun x hx => ⟨hcounts x hx, hserves x hx⟩) ⟨hcount, hend⟩
    rintro t op u ⟨ht, hreach⟩ hs ⟨hcount, hserves⟩
    rw [← step_covered_iff ht hs.1]
    have hreach' := (reachable_of_fitting (hreach.next hs)).1
    have hlt : u.weightSum < 2 ^ 64 := by
      have heffect := step_stakeEffect hs.1
      cases op with
      | subscribe identity token conn =>
        subst heffect
        have hrec : Recalculated (t.subscribe identity token conn) := rfl
        exact hrec.weightSum_lt hs.2 hcount hserves.1
      | updateStakeWeights w =>
        subst heffect
        exact weightSum_updateStakeWeights_lt hs.2 hcount hserves
      | _ => exact ((step_covered_iff ht hs.1).mpr trivial).2
    by_cases hne : u.txConsumers.entries = []
    · have hzero := total_eq_zero_of_empty hreach' (by simp [stakes, AList.values, hne])
      exact ⟨by simp [hzero], hlt⟩
    · exact ⟨(neverOverlooked_iff hlt hne).mp (hserves.1 hne), hlt⟩

/-- A consumer that subscribed with stake 10, after its stake became 0. -/
def shrunkBalancer : Balancer :=
  ((new.updateStakeWeights (AList.singleton "A" 10)).subscribe "A" "token" 0).updateStakeWeights
    (AList.singleton "A" 0)

/-- Everything accepts, and every draw is 5 if it can be. -/
def drawFive : PublishEnv := ⟨.stored, .const 5, .stored, fun _ _ => true, true⟩

def anySession : SignatureRecord :=
  ⟨0, 0, 0, 0, ⟨Vector.replicate 64 0⟩, .forward, [], ∅, "unknown"⟩

theorem shrunkBalancer_overlooked :
    Runs.Reachable FittingStep new shrunkBalancer ∧ shrunkBalancer.txConsumers.entries ≠ [] ∧
      shrunkBalancer.totalWeight = some 10 ∧
      shrunkBalancer.sampleConsumerStakeWeighted .stored (.const 5) 0 = .ok none ∧
      (shrunkBalancer.publish drawFive anySession "signature" "data").map Published.result =
        .ok (.error "No available clients connected") := by
  have hfirst : FittingStep new (.updateStakeWeights (AList.singleton "A" 10)) _ :=
    ⟨rfl, by decide⟩
  have hsub : FittingStep (new.updateStakeWeights (AList.singleton "A" 10))
    (.subscribe "A" "token" 0) _ := ⟨rfl, by decide⟩
  have hsecond : FittingStep _ (.updateStakeWeights (AList.singleton "A" 0)) shrunkBalancer :=
    ⟨rfl, by decide⟩
  refine ⟨(((Reachable.refl new).next hfirst).next hsub).next hsecond, ?_⟩
  decide

theorem neverOverlooked_after_small_drop :
    ((new.subscribe "A" "token" 0).updateStakeWeights (AList.singleton "A" 0)).NeverOverlooked := by
  have hsub : FittingStep new (.subscribe "A" "token" 0) (new.subscribe "A" "token" 0) :=
    ⟨rfl, by decide⟩
  have hupdate : FittingStep (new.subscribe "A" "token" 0)
    (.updateStakeWeights (AList.singleton "A" 0)) _ := ⟨rfl, by decide⟩
  refine ((neverOverlooked_of_run (((Run.nil new).snoc hsub).snoc hupdate)).1 ?_).2 (by decide)
  simp only [List.nil_append, List.cons_append, List.forall_mem_cons]
  have hfits : new.KeepsCovered (.subscribe "A" "token" 0) := by
    rw [KeepsCovered]
    decide
  have hcovered : (new.subscribe "A" "token" 0).KeepsCovered
      (.updateStakeWeights (AList.singleton "A" 0)) := by
    rw [KeepsCovered]
    decide
  exact ⟨hfits, hcovered, by simp⟩

-- a stake of `u64::MAX` weighs nothing: its holder is overlooked by every draw
example : ((new.updateStakeWeights (AList.singleton "A" 18446744073709551615)).subscribe
    "A" "token" 0).sampleConsumerStakeWeighted .stored (.const 0) 0 = .ok none := by decide

end Balancer

end Mtransaction
