import Mtransaction.Lib.WeightedScan
import Mtransaction.Server.Balancer
import Mathlib.Algebra.Order.BigOperators.Group.List
import Mathlib.Algebra.Order.Group.Nat

/-!
# Stake-weighted sampling of one consumer

`sample_consumer_stake_weighted` draws below the cached total and scans the live stakes, one more
for each consumer.  As long as nothing overflows the scan is a lookup by cumulative weight, and it
finds a consumer for every draw exactly when the cached total has not outgrown those weights.  Where
only the ones added make it overflow, some draw finds nobody.
-/

namespace Mtransaction

/-- The draws of one random generator: what its `k`-th `gen_range(0..w)` returns. -/
structure Rng where
  genRange : ℕ → ℕ → ℕ
  lt : ∀ k w, 0 < w → genRange k w < w

/-- The generator that makes these draws as far as the range has them. -/
def Rng.of (draws : ℕ → ℕ) : Rng :=
  ⟨fun k w => if draws k < w then draws k else 0, by intro k w hw; split <;> assumption⟩

/-- The generator that draws the same number as long as the range has it. -/
def Rng.const (r : ℕ) : Rng := ⟨fun _ w => if r < w then r else 0, by intro k w hw; split <;> assumption⟩

namespace Balancer

/-- `total_weight`, or `None` for the early return.  A length fits `u64` on every platform. -/
def totalWeight (b : Balancer) : Option ℕ :=
  if b.totalConnectedStake = 0 then
    if b.txConsumers.entries ≠ [] then some b.txConsumers.entries.length else none
  else some b.totalConnectedStake.toNat

def scanConsumers (randomStakePoint : ℕ) : UInt64 → List TxConsumer → Option TxConsumer
  | _, [] => none
  | accumulatedSum, txConsumer :: rest =>
    -- both additions wrap in the released binary
    let accumulatedSum := accumulatedSum + (txConsumer.stake + 1)
    if randomStakePoint < accumulatedSum.toNat then some txConsumer
    else scanConsumers randomStakePoint accumulatedSum rest

/-- `k` counts the draws `rng` has made before. -/
def sampleConsumerStakeWeighted (b : Balancer) (o : HashOrder (String × TxConsumer)) (rng : Rng)
    (k : ℕ) : Except Panic (Option TxConsumer) :=
  match b.totalWeight with
  | none => .ok none
  | some totalWeight =>
    -- `gen_range` panics on an empty range
    if totalWeight = 0 then .error .emptyRange
    else
      .ok <| scanConsumers (rng.genRange k totalWeight) 0 ((b.txConsumers.iter o).map Prod.snd)

def weightSum (b : Balancer) : ℕ := (b.txConsumers.values.map fun c => c.stake.toNat + 1).sum

theorem weightSum_eq (b : Balancer) : b.weightSum = b.stakeSum + b.txConsumers.entries.length := by
  simp [weightSum, stakeSum, AList.values, Function.comp_def, List.sum_map_add]

abbrev scanned (b : Balancer) (o : HashOrder (String × TxConsumer)) : List TxConsumer :=
  (b.txConsumers.iter o).map Prod.snd

theorem scanned_perm (b : Balancer) (o : HashOrder (String × TxConsumer)) :
    (b.scanned o).Perm b.txConsumers.values := by
  rw [← AList.map_snd_toPairs]
  exact (AList.iter_perm _ o).map _

theorem weightSum_scanned (b : Balancer) (o : HashOrder (String × TxConsumer)) :
    ((b.scanned o).map fun c => c.stake.toNat + 1).sum = b.weightSum :=
  ((b.scanned_perm o).map _).sum_eq

-- whatever is handed to `gen_range` is a range with a number in it
theorem totalWeight_pos {b : Balancer} {w : ℕ} (h : b.totalWeight = some w) : 0 < w := by
  unfold totalWeight at h
  split at h
  · split at h
    next hne => exact Option.some.inj h ▸ List.length_pos_of_ne_nil hne
    next => simp at h
  next hne =>
    have hpos : b.totalConnectedStake.toNat ≠ 0 := fun h0 => hne (UInt64.toNat_inj.mp h0)
    exact Option.some.inj h ▸ Nat.pos_of_ne_zero hpos

/-- The range handed to `gen_range` is never empty. -/
theorem sample_eq_of_totalWeight {b : Balancer} {w : ℕ} (h : b.totalWeight = some w)
    (o : HashOrder (String × TxConsumer)) (rng : Rng) (k : ℕ) :
    b.sampleConsumerStakeWeighted o rng k = .ok (scanConsumers (rng.genRange k w) 0 (b.scanned o)) := by
  simp only [sampleConsumerStakeWeighted, h]
  rw [if_neg (Nat.pos_iff_ne_zero.mp (totalWeight_pos h))]

theorem totalWeight_isSome {b : Balancer} (h : b.txConsumers.entries ≠ []) :
    ∃ w, b.totalWeight = some w := by
  by_cases h0 : b.totalConnectedStake = 0
  · exact ⟨_, by rw [totalWeight, if_pos h0, if_pos h]⟩
  · exact ⟨_, by rw [totalWeight, if_neg h0]⟩

theorem sample_ok (b : Balancer) (o : HashOrder (String × TxConsumer)) (rng : Rng) (k : ℕ) :
    ∃ pick, b.sampleConsumerStakeWeighted o rng k = .ok pick := by
  cases h : b.totalWeight with
  | none => exact ⟨none, by simp only [sampleConsumerStakeWeighted, h]⟩
  | some w => exact ⟨_, sample_eq_of_totalWeight h o rng k⟩

/-- Without overflow the scan looks its point up by cumulative weight. -/
theorem scanConsumers_eq_scan (r : ℕ) (acc : UInt64) (cs : List TxConsumer)
    (h : acc.toNat + (cs.map fun c => c.stake.toNat + 1).sum < 2 ^ 64) :
    scanConsumers r acc cs = WeightedScan.scan (fun c => c.stake.toNat + 1) r acc.toNat cs := by
  induction cs generalizing acc with
  | nil => rfl
  | cons c cs ih =>
    simp only [List.map_cons, List.sum_cons] at h
    -- no addition wraps before the whole sum does
    have hstep : (acc + (c.stake + 1)).toNat = acc.toNat + (c.stake.toNat + 1) := by
      rw [UInt64.toNat_add, UInt64.toNat_add]
      simp only [UInt64.toNat_one, Nat.reducePow] at h ⊢
      omega
    simp only [scanConsumers, WeightedScan.scan]
    rw [hstep, ih _ (by omega), hstep]

-- consumers that do not get past the drawn point are passed by, and no addition has wrapped
theorem scanConsumers_append {r : ℕ} {acc : UInt64} {pre post : List TxConsumer} (hr : r < 2 ^ 64)
    (h : acc.toNat + (pre.map fun c => c.stake.toNat + 1).sum ≤ r) :
    scanConsumers r acc (pre ++ post) =
      scanConsumers r (.ofNat (acc.toNat + (pre.map fun c => c.stake.toNat + 1).sum)) post := by
  induction pre generalizing acc with
  | nil => simp
  | cons c pre ih =>
    simp only [List.map_cons, List.sum_cons] at h ⊢
    have hstep : (acc + (c.stake + 1)).toNat = acc.toNat + (c.stake.toNat + 1) := by
      rw [UInt64.toNat_add, UInt64.toNat_add]
      simp only [UInt64.toNat_one, Nat.reducePow] at hr ⊢
      omega
    rw [List.cons_append, scanConsumers, hstep, if_neg (by omega), ih (by omega), hstep,
      Nat.add_assoc]

/-- A draw finds a consumer in every order exactly when it lies below the accumulated weights. -/
theorem scanConsumers_isSome_iff {b : Balancer} (hb : b.weightSum < 2 ^ 64)
    (o : HashOrder (String × TxConsumer)) (r : ℕ) :
    (scanConsumers r 0 (b.scanned o)).isSome ↔ r < b.weightSum := by
  rw [← b.weightSum_scanned o] at hb ⊢
  rw [scanConsumers_eq_scan _ _ _ (by simpa using hb)]
  simpa using WeightedScan.scan_isSome_iff (w := fun c : TxConsumer => c.stake.toNat + 1)
    (l := b.scanned o) (Nat.zero_le r)

-- the weights exceed the stakes by one each, so someone holds what makes the difference
theorem exists_length_le_stake {b : Balancer} (hover : 2 ^ 64 ≤ b.weightSum)
    (hcount : b.txConsumers.entries.length < 2 ^ 32) :
    ∃ i c, b.txConsumers.lookup i = some c ∧ b.txConsumers.entries.length ≤ c.stake.toNat := by
  by_contra hnone
  have hsmall : ∀ x ∈ b.txConsumers.values.map fun c => c.stake.toNat + 1,
      x ≤ b.txConsumers.entries.length := by
    intro x hx
    obtain ⟨c, hc, rfl⟩ := List.mem_map.mp hx
    obtain ⟨i, hi⟩ := AList.mem_values.mp hc
    by_contra hlt
    exact hnone ⟨i, c, hi, by omega⟩
  have hle := List.sum_le_card_nsmul _ _ hsmall
  have hsquare : b.txConsumers.entries.length * b.txConsumers.entries.length < 2 ^ 32 * 2 ^ 32 :=
    Nat.mul_lt_mul'' hcount hcount
  simp only [List.length_map, AList.values, nsmul_eq_mul, Nat.cast_id] at hle
  simp only [weightSum, AList.values] at hover
  omega

/-- Where the stakes fit into `u64` and the weights do not, the scan wraps around at a consumer that
comes last, and the largest draw below the exact total finds nobody. -/
theorem sample_overlooks {b : Balancer} (htotal : b.totalConnectedStake.toNat = b.stakeSum)
    (hover : 2 ^ 64 ≤ b.weightSum) (hcount : b.txConsumers.entries.length < 2 ^ 32) :
    ∃ o rng, ∀ k, b.sampleConsumerStakeWeighted o rng k = .ok none := by
  have hfits : b.stakeSum < 2 ^ 64 := htotal ▸ b.totalConnectedStake.toNat_lt
  obtain ⟨i, c, hc, hlarge⟩ := exists_length_le_stake hover hcount
  have hsum := b.weightSum_eq
  have hpos : b.totalConnectedStake ≠ 0 := by
    intro h0
    rw [h0, UInt64.toNat_zero] at htotal
    omega
  have hw : b.totalWeight = some b.stakeSum := by rw [totalWeight, if_neg hpos, htotal]
  have hmem : (i, c) ∈ b.txConsumers.toPairs := AList.mem_toPairs.mpr hc
  -- the others come first, in some order
  let o : HashOrder (String × TxConsumer) := (HashOrder.first (i, c)).reversed
  obtain ⟨others, hlast⟩ := HashOrder.exists_arrange_reversed_first hmem
  have hscan : b.scanned o = others.map Prod.snd ++ [c] := by
    rw [scanned, AList.iter, hlast, List.map_append]
    rfl
  generalize others.map Prod.snd = pre at hscan
  have hpre : (pre.map fun c => c.stake.toNat + 1).sum + (c.stake.toNat + 1) = b.weightSum := by
    rw [← b.weightSum_scanned o, hscan]
    simp
  refine ⟨o, .const (b.stakeSum - 1), fun k => ?_⟩
  rw [sample_eq_of_totalWeight hw, hscan]
  simp only [Rng.const]
  rw [if_pos (by omega), scanConsumers_append (by omega) (by simp only [UInt64.toNat_zero]; omega)]
  -- and with the last one the sum starts again from 0
  have hwrap : (UInt64.ofNat ((0 : UInt64).toNat + (pre.map fun c => c.stake.toNat + 1).sum) +
      (c.stake + 1)).toNat = b.weightSum - 2 ^ 64 := by
    rw [UInt64.toNat_add, UInt64.toNat_add, UInt64.toNat_ofNat']
    simp only [UInt64.toNat_zero, UInt64.toNat_one]
    omega
  simp only [scanConsumers, hwrap]
  rw [if_neg (by omega)]

/-! ## Whom a draw can select -/

/-- What the scan has added up to `acc` after these consumers. -/
def accumulate (acc : UInt64) (cs : List TxConsumer) : UInt64 :=
  cs.foldl (fun acc c => acc + (c.stake + 1)) acc

/-- The point `r` is exceeded nowhere among these consumers. -/
def Passes (r : ℕ) (acc : UInt64) (cs : List TxConsumer) : Prop :=
  ∀ pre, pre <+: cs → (accumulate acc pre).toNat ≤ r

theorem passes_nil {r : ℕ} {acc : UInt64} : Passes r acc [] ↔ acc.toNat ≤ r := by
  simp [Passes, accumulate]

theorem passes_cons {r : ℕ} {acc : UInt64} {c : TxConsumer} {cs : List TxConsumer} :
    Passes r acc (c :: cs) ↔ acc.toNat ≤ r ∧ Passes r (acc + (c.stake + 1)) cs := by
  constructor
  · intro h
    exact ⟨h [] List.nil_prefix, fun pre hpre => h (c :: pre) (List.cons_prefix_cons.mpr ⟨rfl, hpre⟩)⟩
  · rintro ⟨hacc, h⟩ pre hpre
    rcases List.prefix_cons_iff.mp hpre with rfl | ⟨rest, rfl, hrest⟩
    · exact hacc
    · exact h rest hrest

theorem scanConsumers_eq_none_iff {r : ℕ} {acc : UInt64} {cs : List TxConsumer}
    (hacc : acc.toNat ≤ r) : scanConsumers r acc cs = none ↔ Passes r acc cs := by
  induction cs generalizing acc with
  | nil => simp [scanConsumers, passes_nil, hacc]
  | cons c cs ih =>
    rw [passes_cons, and_iff_right hacc, scanConsumers]
    by_cases hlt : r < (acc + (c.stake + 1)).toNat
    · simp only [hlt, if_true, reduceCtorEq, false_iff]
      exact fun h => Nat.not_le_of_lt hlt (h [] List.nil_prefix)
    · simp only [hlt, if_false]
      exact ih (Nat.le_of_not_lt hlt)

theorem scanConsumers_eq_some_iff {r : ℕ} {acc : UInt64} {cs : List TxConsumer} {c : TxConsumer}
    (hacc : acc.toNat ≤ r) :
    scanConsumers r acc cs = some c ↔ ∃ pre post, cs = pre ++ c :: post ∧ Passes r acc pre ∧
      r < (accumulate acc (pre ++ [c])).toNat := by
  induction cs generalizing acc with
  | nil => simp [scanConsumers]
  | cons d ds ih =>
    rw [scanConsumers]
    by_cases hlt : r < (acc + (d.stake + 1)).toNat
    · simp only [hlt, if_true, Option.some.injEq]
      constructor
      · rintro rfl
        exact ⟨[], ds, rfl, passes_nil.mpr hacc, hlt⟩
      · rintro ⟨_ | ⟨e, pre⟩, post, heq, hpre, -⟩
        · exact (List.cons.inj heq).1
        -- the point is exceeded at the first consumer
        · obtain ⟨rfl, -⟩ := List.cons.inj heq
          exact absurd ((passes_cons.mp hpre).2 [] List.nil_prefix) (Nat.not_le_of_lt hlt)
    · simp only [hlt, if_false]
      rw [ih (Nat.le_of_not_lt hlt)]
      constructor
      · rintro ⟨pre, post, rfl, hpre, hr⟩
        exact ⟨d :: pre, post, rfl, passes_cons.mpr ⟨hacc, hpre⟩, hr⟩
      · rintro ⟨_ | ⟨e, pre⟩, post, heq, hpre, hr⟩
        · obtain ⟨rfl, -⟩ := List.cons.inj heq
          exact absurd hr hlt
        · obtain ⟨rfl, rfl⟩ := List.cons.inj heq
          exact ⟨pre, post, rfl, (passes_cons.mp hpre).2, hr⟩

/-- Some draw of the range lies where this consumer takes the sum past it. -/
def Drawable (b : Balancer) (o : HashOrder (String × TxConsumer)) (c : TxConsumer) : Prop :=
  ∃ w ∈ b.totalWeight, ∃ r < w, ∃ pre post, b.scanned o = pre ++ c :: post ∧ Passes r 0 pre ∧
    r < (accumulate 0 (pre ++ [c])).toNat

/-- Some draw of the range is not exceeded by any of the sums. -/
def Passable (b : Balancer) (o : HashOrder (String × TxConsumer)) : Prop :=
  ∃ w ∈ b.totalWeight, ∃ r < w, Passes r 0 (b.scanned o)

theorem sample_of_draws {b : Balancer} {w : ℕ} (hw : b.totalWeight = some w) {draws : ℕ → ℕ}
    {k : ℕ} (hlt : draws k < w) (o : HashOrder (String × TxConsumer)) :
    b.sampleConsumerStakeWeighted o (.of draws) k =
      .ok (scanConsumers (draws k) 0 (b.scanned o)) := by
  rw [sample_eq_of_totalWeight hw]
  simp only [Rng.of, hlt, if_true]

theorem Drawable.of_sample {b : Balancer} {o : HashOrder (String × TxConsumer)} {rng : Rng} {k : ℕ}
    {c : TxConsumer} (h : b.sampleConsumerStakeWeighted o rng k = .ok (some c)) :
    b.Drawable o c := by
  cases hw : b.totalWeight with
  | none => simp [sampleConsumerStakeWeighted, hw] at h
  | some w =>
    rw [sample_eq_of_totalWeight hw, Except.ok.injEq,
      scanConsumers_eq_some_iff (Nat.zero_le _)] at h
    exact ⟨w, hw, _, rng.lt k w (totalWeight_pos hw), h⟩

theorem Passable.of_sample {b : Balancer} {o : HashOrder (String × TxConsumer)} {rng : Rng} {k : ℕ}
    (hne : b.txConsumers.entries ≠ []) (h : b.sampleConsumerStakeWeighted o rng k = .ok none) :
    b.Passable o := by
  obtain ⟨w, hw⟩ := totalWeight_isSome hne
  rw [sample_eq_of_totalWeight hw, Except.ok.injEq, scanConsumers_eq_none_iff (Nat.zero_le _)] at h
  exact ⟨w, hw, _, rng.lt k w (totalWeight_pos hw), h⟩

theorem Drawable.mem_values {b : Balancer} {o : HashOrder (String × TxConsumer)} {c : TxConsumer}
    (h : b.Drawable o c) : c ∈ b.txConsumers.values := by
  obtain ⟨w, -, r, -, pre, post, hscan, -⟩ := h
  rw [← (b.scanned_perm o).mem_iff, hscan]
  simp

/-- Draw 0 selects the consumer that comes first, unless its weight wraps to nothing. -/
theorem sample_first {b : Balancer} {i : String} {c : TxConsumer}
    (hc : b.txConsumers.lookup i = some c) (hstake : c.stake + 1 ≠ 0) (k : ℕ) :
    b.sampleConsumerStakeWeighted (.first (i, c)) (.const 0) k = .ok (some c) := by
  have hmem : (i, c) ∈ b.txConsumers.toPairs := AList.mem_toPairs.mpr hc
  have hne : b.txConsumers.entries ≠ [] := by
    intro h
    simp [AList.toPairs, h] at hmem
  obtain ⟨w, hw⟩ := totalWeight_isSome hne
  have hpos : (c.stake + 1).toNat ≠ 0 := fun h0 => hstake (UInt64.toNat_inj.mp h0)
  rw [sample_eq_of_totalWeight hw]
  simp only [scanned, AList.iter, HashOrder.arrange_first hmem, List.map_cons, scanConsumers,
    Rng.const, totalWeight_pos hw, if_true, UInt64.zero_add]
  rw [if_pos (Nat.pos_of_ne_zero hpos)]

/-- A stake of `u64::MAX` weighs nothing once one is added: it is never selected. -/
theorem stake_ne_of_scanConsumers {r : ℕ} {acc : UInt64} {cs : List TxConsumer} {c : TxConsumer}
    (hacc : acc.toNat ≤ r) (h : scanConsumers r acc cs = some c) : c.stake + 1 ≠ 0 := by
  induction cs generalizing acc with
  | nil => simp [scanConsumers] at h
  | cons d ds ih =>
    simp only [scanConsumers] at h
    split at h
    next hlt =>
      obtain rfl := Option.some.inj h
      intro h0
      rw [h0, UInt64.add_zero] at hlt
      omega
    next hlt => exact ih (Nat.le_of_not_lt hlt) h

theorem Drawable.stake_ne {b : Balancer} {o : HashOrder (String × TxConsumer)} {c : TxConsumer}
    (h : b.Drawable o c) : c.stake + 1 ≠ 0 := by
  obtain ⟨w, -, r, -, hscan⟩ := h
  exact stake_ne_of_scanConsumers (Nat.zero_le _)
    ((scanConsumers_eq_some_iff (Nat.zero_le _)).mpr hscan)

theorem sample_eq_some {b : Balancer} {o : HashOrder (String × TxConsumer)} {rng : Rng} {k : ℕ}
    {c : TxConsumer} (h : b.sampleConsumerStakeWeighted o rng k = .ok (some c)) :
    c ∈ b.txConsumers.values ∧ c.stake + 1 ≠ 0 :=
  ⟨(Drawable.of_sample h).mem_values, (Drawable.of_sample h).stake_ne⟩

end Balancer

end Mtransaction
