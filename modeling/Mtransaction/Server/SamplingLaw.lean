import Mtransaction.Server.BalancerRuns
import Mtransaction.Server.Redundancy

/-!
# How often each consumer is sampled

The scan gives every consumer an interval of its stake plus one; the draw is made from the sum of
the stakes alone, or from the number of consumers if that sum is 0.  Where the two do not match, the
intervals at the end of the iteration are cut off.
-/

namespace Mtransaction

namespace Balancer

/-- The draws from the range of `gen_range` that select this consumer. -/
def selectingDraws (b : Balancer) (o : HashOrder (String × TxConsumer)) (c : TxConsumer) :
    Finset ℕ :=
  (Finset.range (b.totalWeight.getD 0)).filter fun r =>
    b.sampleConsumerStakeWeighted o (.const r) 0 = .ok (some c)

/-- How many draws select a consumer does not depend on the order of the iteration; every consumer
is selected by some; and one with more stake by at least as many as one with less. -/
structure StakeWeighted (b : Balancer) : Prop where
  orderFree : ∀ c ∈ b.txConsumers.values, ∀ o o',
    (b.selectingDraws o c).card = (b.selectingDraws o' c).card
  selected : ∀ c ∈ b.txConsumers.values, ∀ o, 1 ≤ (b.selectingDraws o c).card
  monotone : ∀ c ∈ b.txConsumers.values, ∀ d ∈ b.txConsumers.values, c.stake ≤ d.stake →
    ∀ o, (b.selectingDraws o c).card ≤ (b.selectingDraws o d).card

section Count

variable {b : Balancer} {o : HashOrder (String × TxConsumer)} {c : TxConsumer}
  {pre post : List TxConsumer}

def weight (c : TxConsumer) : ℕ := c.stake.toNat + 1

-- a consumer gets what its interval has in common with the range of the draw
theorem card_selectingDraws (hexact : b.weightSum < 2 ^ 64) {w : ℕ} (hw : b.totalWeight = some w)
    (hscan : b.scanned o = pre ++ c :: post) :
    (b.selectingDraws o c).card =
      min ((pre.map weight).sum + weight c) w - (pre.map weight).sum := by
  have hnodup := b.nodup_scanned o
  rw [hscan, List.nodup_append] at hnodup
  obtain ⟨-, hcons, hdisjoint⟩ := hnodup
  have hpre : c ∉ pre := fun hmem => hdisjoint c hmem c List.mem_cons_self rfl
  have hpost : c ∉ post := (List.nodup_cons.mp hcons).1
  rw [← WeightedScan.card_filter_scan w hpre hpost, selectingDraws, hw, Option.getD_some]
  congr 1
  refine Finset.filter_congr fun r hr => ?_
  rw [Finset.mem_range] at hr
  rw [sample_eq_of_totalWeight hw, Except.ok.injEq, Rng.const]
  simp only [hr, if_true]
  rw [scanConsumers_eq_scan _ _ _ (by rw [b.weightSum_scanned o]; simpa using hexact), hscan]
  rfl

theorem exists_scanned (o : HashOrder (String × TxConsumer)) (hc : c ∈ b.txConsumers.values) :
    ∃ pre post, b.scanned o = pre ++ c :: post :=
  List.append_of_mem ((b.scanned_perm o).mem_iff.mpr hc)

-- the weights before a consumer, its own and those after it are all there is
theorem weightSum_eq_of_scanned (hscan : b.scanned o = pre ++ c :: post) :
    (pre.map weight).sum + weight c + (post.map weight).sum = b.weightSum := by
  have hsum : ((b.scanned o).map weight).sum = b.weightSum := b.weightSum_scanned o
  rw [← hsum, hscan, List.map_append, List.map_cons, List.sum_append, List.sum_cons, Nat.add_assoc]

theorem totalWeight_eq (hne : b.txConsumers.entries ≠ [])
    (htotal : b.totalConnectedStake.toNat = b.stakeSum) :
    b.totalWeight = some (if b.stakeSum = 0 then b.txConsumers.entries.length else b.stakeSum) := by
  have hzero : b.totalConnectedStake = 0 ↔ b.stakeSum = 0 := by
    rw [← htotal]
    exact ⟨fun h => by rw [h]; rfl, fun h => UInt64.toNat_inj.mp h⟩
  unfold totalWeight
  simp only [hzero, hne, ne_eq, not_false_eq_true, if_true, htotal]
  split <;> rfl

end Count

/-! ## When the law holds -/

section Law

variable {b : Balancer}

-- without stakes every consumer has one draw
theorem card_selectingDraws_of_noStake (hexact : b.weightSum < 2 ^ 64)
    (hne : b.txConsumers.entries ≠ []) (htotal : b.totalConnectedStake.toNat = b.stakeSum)
    (hzero : b.stakeSum = 0) {c : TxConsumer} (hc : c ∈ b.txConsumers.values)
    (o : HashOrder (String × TxConsumer)) : (b.selectingDraws o c).card = 1 := by
  obtain ⟨pre, post, hscan⟩ := exists_scanned o hc
  have hsum := weightSum_eq_of_scanned hscan
  rw [weightSum_eq, hzero, Nat.zero_add] at hsum
  have hstake : weight c = 1 := by
    have hzeros := List.sum_eq_zero_iff.mp hzero
    rw [weight, hzeros _ (List.mem_map_of_mem hc)]
  rw [card_selectingDraws hexact (totalWeight_eq hne htotal) hscan, if_pos hzero]
  omega

-- a single consumer has all the draws
theorem card_selectingDraws_of_single (hexact : b.weightSum < 2 ^ 64)
    (htotal : b.totalConnectedStake.toNat = b.stakeSum) (hpos : b.stakeSum ≠ 0)
    (hone : b.txConsumers.entries.length = 1) {c : TxConsumer} (hc : c ∈ b.txConsumers.values)
    (o : HashOrder (String × TxConsumer)) : (b.selectingDraws o c).card = b.stakeSum := by
  have hne : b.txConsumers.entries ≠ [] := List.ne_nil_of_length_pos (by omega)
  obtain ⟨pre, post, hscan⟩ := exists_scanned o hc
  have hlen : (pre ++ c :: post).length = 1 := by
    rw [← hscan, (b.scanned_perm o).length_eq, ← hone]
    simp [AList.values]
  obtain rfl : pre = [] := by
    rw [List.length_append, List.length_cons] at hlen
    exact List.length_eq_zero_iff.mp (by omega)
  obtain rfl : post = [] := by
    rw [List.nil_append, List.length_cons] at hlen
    exact List.length_eq_zero_iff.mp (by omega)
  have hsum := weightSum_eq_of_scanned hscan
  rw [weightSum_eq] at hsum
  rw [card_selectingDraws hexact (totalWeight_eq hne htotal) hscan, if_neg hpos]
  simp only [List.map_nil, List.sum_nil] at hsum ⊢
  omega

theorem stakeWeighted_of_noStake_or_single (hexact : b.weightSum < 2 ^ 64)
    (hne : b.txConsumers.entries ≠ []) (htotal : b.totalConnectedStake.toNat = b.stakeSum)
    (h : b.stakeSum = 0 ∨ b.txConsumers.entries.length = 1) : b.StakeWeighted := by
  have hconst : ∃ n, 1 ≤ n ∧ ∀ c ∈ b.txConsumers.values, ∀ o, (b.selectingDraws o c).card = n := by
    by_cases hzero : b.stakeSum = 0
    · exact ⟨1, Nat.le_refl 1, fun c hc o =>
        card_selectingDraws_of_noStake hexact hne htotal hzero hc o⟩
    · have hone := h.resolve_left hzero
      exact ⟨b.stakeSum, Nat.pos_of_ne_zero hzero, fun c hc o =>
        card_selectingDraws_of_single hexact htotal hzero hone hc o⟩
  obtain ⟨n, hpos, hcard⟩ := hconst
  refine ⟨fun c hc o o' => ?_, fun c hc o => ?_, fun c hc d hd _ o => ?_⟩
  · rw [hcard c hc o, hcard c hc o']
  · rw [hcard c hc o]
    exact hpos
  · rw [hcard c hc o, hcard d hd o]

/-- With a stake among two consumers or more, each has more draws when it comes first than when it
comes last. -/
theorem card_first_ne_card_last (hexact : b.weightSum < 2 ^ 64)
    (htotal : b.totalConnectedStake.toNat = b.stakeSum) (hpos : b.stakeSum ≠ 0)
    (htwo : 2 ≤ b.txConsumers.entries.length) {i : String} {c : TxConsumer}
    (hc : b.txConsumers.lookup i = some c) :
    (b.selectingDraws (.first (i, c)) c).card ≠
      (b.selectingDraws (HashOrder.first (i, c)).reversed c).card := by
  have hne : b.txConsumers.entries ≠ [] := List.ne_nil_of_length_pos (by omega)
  have hmem : (i, c) ∈ b.txConsumers.toPairs := AList.mem_toPairs.mpr hc
  obtain ⟨rest, harrange⟩ :
      ∃ rest, (HashOrder.first (i, c)).arrange b.txConsumers.toPairs = (i, c) :: rest :=
    ⟨_, HashOrder.arrange_first hmem⟩
  have hfirst : b.scanned (.first (i, c)) = [] ++ c :: rest.map Prod.snd := by
    simp only [scanned, AList.iter, harrange, List.map_cons, List.nil_append]
  have hlast : b.scanned (HashOrder.first (i, c)).reversed = rest.reverse.map Prod.snd ++ [c] := by
    simp only [scanned, AList.iter, HashOrder.reversed, harrange, List.reverse_cons,
      List.map_append, List.map_cons, List.map_nil]
  have hsum := weightSum_eq_of_scanned hfirst
  have hsum' := weightSum_eq_of_scanned hlast
  have hweight : 1 ≤ weight c := Nat.le_add_left 1 _
  -- somebody else has a weight too
  have hrest : 1 ≤ ((rest.map Prod.snd).map weight).sum := by
    have hlen := congrArg List.length harrange
    rw [HashOrder.length_arrange, AList.length_toPairs, List.length_cons] at hlen
    obtain ⟨e, he⟩ := List.exists_mem_of_length_pos (show 0 < rest.length by omega)
    have hle : weight e.2 ≤ ((rest.map Prod.snd).map weight).sum :=
      List.le_sum_of_mem (List.mem_map_of_mem (List.mem_map_of_mem he))
    exact (Nat.le_add_left 1 _).trans hle
  rw [weightSum_eq] at hsum hsum'
  rw [card_selectingDraws hexact (totalWeight_eq hne htotal) hfirst,
    card_selectingDraws hexact (totalWeight_eq hne htotal) hlast, if_neg hpos]
  simp only [List.map_nil, List.sum_nil] at hsum hsum' ⊢
  omega

/-- Where no sum overflows and the cached total is the sum of the stakes, sampling is weighted by
stake exactly if nobody has any stake or there is only one consumer. -/
theorem stakeWeighted_iff (hexact : b.weightSum < 2 ^ 64) (hne : b.txConsumers.entries ≠ [])
    (htotal : b.totalConnectedStake.toNat = b.stakeSum) :
    b.StakeWeighted ↔ b.stakeSum = 0 ∨ b.txConsumers.entries.length = 1 := by
  constructor
  · intro h
    by_contra hnot
    rw [not_or] at hnot
    obtain ⟨hpos, hmany⟩ := hnot
    have hlen := List.length_pos_of_ne_nil hne
    obtain ⟨e, he⟩ := List.exists_mem_of_ne_nil _ hne
    have hc : b.txConsumers.lookup e.1 = some e.2 := AList.mem_lookup_iff.mpr he
    exact card_first_ne_card_last hexact htotal hpos (by omega) hc
      (h.orderFree e.2 (AList.mem_values.mpr ⟨e.1, hc⟩) _ _)
  · exact stakeWeighted_of_noStake_or_single hexact hne htotal

end Law

/-- Two clients whose stake weights are 0. -/
def stakelessBalancer : Balancer :=
  ((new.updateStakeWeights (AList.collect [("A", 0), ("B", 0)])).subscribe "A" "tokenA" 0).subscribe
    "B" "tokenB" 1

theorem stakeless_stakeWeighted :
    stakelessBalancer.txConsumers.entries.length = 2 ∧ stakelessBalancer.StakeWeighted :=
  ⟨rfl, (stakeWeighted_iff (by decide) (by decide) (by decide)).mpr (.inl (by decide))⟩

/-- "A" subscribes with a stake of 5, and "B" with one of 1. -/
def unevenBalancer : Balancer :=
  ((new.updateStakeWeights (AList.singleton "A" 5)).subscribe "A" "tokenA" 0).subscribe
    "B" "tokenB" 1

/-- Where "A" comes first no draw selects "B", where "B" comes first two draws do. -/
theorem uneven_not_stakeWeighted :
    Runs.Reachable (Runs.StepsTo step) new unevenBalancer ∧
      unevenBalancer.totalConnectedStake.toNat = unevenBalancer.stakeSum ∧
      (∃ o o', ∃ c ∈ unevenBalancer.txConsumers.values,
        unevenBalancer.selectingDraws o c = ∅ ∧ (unevenBalancer.selectingDraws o' c).card = 2) ∧
      ¬ unevenBalancer.StakeWeighted := by
  have hdraws : unevenBalancer.selectingDraws HashOrder.stored.reversed
        ⟨"B", 1, 1, "tokenB", some 1, false⟩ = ∅ ∧
      (unevenBalancer.selectingDraws .stored ⟨"B", 1, 1, "tokenB", some 1, false⟩).card = 2 := by
    decide
  have hmem : ⟨"B", 1, 1, "tokenB", some 1, false⟩ ∈ unevenBalancer.txConsumers.values := by decide
  refine ⟨Runs.reachable_of_exec [.updateStakeWeights (AList.singleton "A" 5),
    .subscribe "A" "tokenA" 0, .subscribe "B" "tokenB" 1] rfl, by decide,
    ⟨_, _, _, hmem, hdraws⟩, ?_⟩
  intro h
  have hselected := h.selected _ hmem HashOrder.stored.reversed
  rw [hdraws.1] at hselected
  exact absurd hselected (by decide)

end Balancer

end Mtransaction
