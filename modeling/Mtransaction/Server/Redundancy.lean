import Mtransaction.Server.BalancerRuns
import Mathlib.Data.Finset.Card
import Mathlib.Data.Nat.ModEq

/-!
# How redundant the picks are

Copies are placed by position.  Distinct positions are distinct consumers only while nothing is
sampled with replacement, that is while enough connected consumers are leaders themselves.
-/

namespace Mtransaction

namespace Balancer

/-! ## Copies go to different positions -/

-- neighbouring positions differ as soon as there are two
theorem mod_ne_succ_mod {n : ℕ} (hn : 1 < n) (i : ℕ) : i % n ≠ (i + 1) % n := by
  intro h
  have hmod : i + 0 ≡ i + 1 [MOD n] := h
  have h01 : 0 % n = 1 % n := hmod.add_left_cancel'
  rw [Nat.zero_mod, Nat.mod_eq_of_lt hn] at h01
  exact absurd h01 (by decide)

/-- Every TPU ends up at two positions, different ones if there are two. -/
theorem assignTpus_covers {leaderTpus : List LeaderInfo} {consumers picks : List Pick}
    {tpu : LeaderInfo} (h : assignTpus leaderTpus consumers = .ok picks)
    (hne : consumers ≠ []) (htpu : tpu ∈ leaderTpus) :
    ∃ p q : ℕ, (∃ x : Pick, picks[p]? = some x ∧ tpu ∈ x.2) ∧
      (∃ x : Pick, picks[q]? = some x ∧ tpu ∈ x.2) ∧ (1 < picks.length → p ≠ q) := by
  have hlen := length_assignTpus h
  have hpos : 0 < consumers.length := List.length_pos_of_ne_nil hne
  simp only [assignTpus] at h
  rw [if_pos ⟨hpos, List.ne_nil_of_mem htpu⟩] at h
  split at h
  · simp at h
  next hchunk =>
    rw [Except.ok.injEq, pushChunks_eq] at h
    obtain ⟨i, c, hc, htpu⟩ := Assignment.mem_chunks (Nat.pos_of_ne_zero hchunk) htpu
    have hpush : ∀ j < nCopies,
        ∃ x : Pick, picks[(i + j) % consumers.length]? = some x ∧ tpu ∈ x.2 := by
      intro j hj
      have hlt : (i + j) % consumers.length < consumers.length := Nat.mod_lt _ hpos
      have hmem : ((i + j) % consumers.length, tpu) ∈
          pushes consumers.length (Assignment.chunks (leaderTpus.length / consumers.length) leaderTpus) := by
        refine List.mem_flatMap.mpr ⟨(c, i), hc, List.mem_flatMap.mpr ⟨tpu, htpu, ?_⟩⟩
        exact List.mem_map.mpr ⟨j, List.mem_range.mpr hj, rfl⟩
      have hget := congrArg (·[(i + j) % consumers.length]?) h
      simp only [List.getElem?_mapIdx, List.getElem?_eq_getElem hlt, Option.map_some] at hget
      exact ⟨_, hget.symm, List.mem_append_right _ (Assignment.mem_pushedTo.mpr hmem)⟩
    refine ⟨i % consumers.length, (i + 1) % consumers.length, hpush 0 (by decide),
      hpush 1 (by decide), ?_⟩
    intro hn
    exact mod_ne_succ_mod (hlen ▸ hn) i

def assignedTo (picks : List Pick) (tpu : LeaderInfo) : Finset TxConsumer :=
  ((picks.filter fun p => tpu ∈ p.2).map Prod.fst).toFinset

/-- Among distinct picks every TPU has as many takers as copies and picks allow. -/
theorem assignTpus_copies {leaderTpus : List LeaderInfo} {consumers picks : List Pick}
    {tpu : LeaderInfo} (h : assignTpus leaderTpus consumers = .ok picks)
    (hnodup : (picks.map Prod.fst).Nodup) (htpu : tpu ∈ leaderTpus) :
    min nCopies picks.length ≤ (assignedTo picks tpu).card := by
  by_cases hne : consumers = []
  · have : picks.length = 0 := by rw [length_assignTpus h, hne, List.length_nil]
    omega
  · obtain ⟨p, q, ⟨x, hx, htx⟩, ⟨y, hy, hty⟩, hpq⟩ := assignTpus_covers h hne htpu
    have hmem {z : Pick} {r : ℕ} (hz : picks[r]? = some z) (htz : tpu ∈ z.2) :
        z.1 ∈ assignedTo picks tpu := by
      refine List.mem_toFinset.mpr (List.mem_map_of_mem (f := Prod.fst) ?_)
      exact List.mem_filter.mpr ⟨List.mem_of_getElem? hz, decide_eq_true htz⟩
    by_cases hn : 1 < picks.length
    · -- two positions of a list without repetitions hold two consumers
      have hxy : x.1 ≠ y.1 := by
        intro heq
        have hp : (picks.map Prod.fst)[p]? = some x.1 := by simp [hx]
        have hq : (picks.map Prod.fst)[q]? = some x.1 := by simp [hy, heq]
        have hplt : p < (picks.map Prod.fst).length := (List.getElem?_eq_some_iff.mp hp).1
        exact hpq hn ((List.getElem?_inj hplt hnodup).mp (hp.trans hq.symm))
      have hcard : ({x.1, y.1} : Finset TxConsumer).card = 2 := Finset.card_pair hxy
      have hle : ({x.1, y.1} : Finset TxConsumer).card ≤ (assignedTo picks tpu).card := by
        refine Finset.card_le_card fun z hz => ?_
        rcases Finset.mem_insert.mp hz with rfl | hz
        · exact hmem hx htx
        · exact Finset.mem_singleton.mp hz ▸ hmem hy hty
      rw [hcard] at hle
      exact (min_le_left _ _).trans hle
    · have hone : 1 ≤ (assignedTo picks tpu).card := Finset.card_pos.mpr ⟨x.1, hmem hx htx⟩
      omega

/-! ## Redundant states -/

/-- Whatever is picked, no consumer is picked twice, and every leader is assigned to as many
consumers as there are copies, or to all of them. -/
def Redundant (b : Balancer) : Prop :=
  ∀ o rng picks, b.pickConsumers o rng = .ok picks →
    (picks.map Prod.fst).Nodup ∧ ∀ tpu ∈ b.leaderTpus,
      min nCopies b.txConsumers.entries.length ≤ (assignedTo picks tpu).card

/-- Nothing has to be sampled for a full pick list; or the leaders, enough of them for the copies,
cannot be sampled because their stake of `u64::MAX` weighs nothing once one is added. -/
def OnlyDistinctPicks (b : Balancer) : Prop :=
  nConsumers ≤ b.connectedLeaders ∨
    min nCopies b.txConsumers.entries.length ≤ b.connectedLeaders ∧
      ∀ identity c, b.LeadsAs identity c → c.stake + 1 = 0

-- no consumer is filed twice
theorem nodup_scanned (b : Balancer) (o : HashOrder (String × TxConsumer)) :
    (b.scanned o).Nodup := by
  refine (b.txConsumers.nodup_fst_iter o).of_map.map_on ?_
  rintro ⟨i, c⟩ hi ⟨j, d⟩ hj (rfl : c = d)
  have hkey := b.keyed i c (AList.mem_iter.mp hi)
  rw [b.keyed j c (AList.mem_iter.mp hj)] at hkey
  rw [hkey]

theorem nodup_leaderPicks (b : Balancer) (o : HashOrder (String × TxConsumer)) :
    ((b.leaderPicks o).map Prod.fst).Nodup := by
  rw [map_fst_leaderPicks]
  exact (b.nodup_scanned o).sublist (List.filter_sublist.map _)

theorem connectedLeaders_le (b : Balancer) : b.connectedLeaders ≤ b.txConsumers.entries.length := by
  rw [connectedLeaders, ← AList.length_toPairs]
  exact List.countP_le_length

theorem copies_of_nodup {b : Balancer} {consumers picks : List Pick}
    (h : assignTpus b.leaderTpus consumers = .ok picks) (hnodup : (consumers.map Prod.fst).Nodup)
    (hlen : min nCopies b.txConsumers.entries.length ≤ consumers.length) :
    (picks.map Prod.fst).Nodup ∧ ∀ tpu ∈ b.leaderTpus,
      min nCopies b.txConsumers.entries.length ≤ (assignedTo picks tpu).card := by
  rw [← map_fst_assignTpus h] at hnodup
  refine ⟨hnodup, fun tpu htpu => ?_⟩
  have hcopies := assignTpus_copies h hnodup htpu
  have hpicks := length_assignTpus h
  omega

/-- Where the only consumer is a leader without weight, nothing is sampled. -/
theorem length_sampled_le_one {b : Balancer} {sampled : List TxConsumer} (h : b.OnlyDistinctPicks)
    (hne : b.txConsumers.entries ≠ []) (hlen : sampled.length ≤ nConsumers - b.connectedLeaders)
    (hsampled : ∀ c ∈ sampled, c ∈ b.txConsumers.values ∧ c.stake + 1 ≠ 0) :
    sampled.length ≤ 1 := by
  have hpos := List.length_pos_of_ne_nil hne
  have hle := b.connectedLeaders_le
  simp only [OnlyDistinctPicks, nConsumers, nCopies] at h hlen
  by_cases htwo : 2 ≤ b.connectedLeaders
  · omega
  · obtain ⟨hmin, hwrap⟩ : min 2 b.txConsumers.entries.length ≤ b.connectedLeaders ∧
        ∀ identity c, b.LeadsAs identity c → c.stake + 1 = 0 := by
      rcases h with h | h
      · omega
      · exact h
    have hall : ∀ e ∈ b.txConsumers.toPairs, (b.leaders.lookup e.1).isSome := by
      have hcount : b.connectedLeaders = b.txConsumers.toPairs.length := by
        rw [AList.length_toPairs]
        omega
      exact List.countP_eq_length.mp hcount
    have hnone : sampled = [] := by
      rw [List.eq_nil_iff_forall_not_mem]
      intro c hc
      obtain ⟨hval, hstake⟩ := hsampled c hc
      obtain ⟨i, hi⟩ := AList.mem_values.mp hval
      exact hstake (hwrap i c ⟨hi, hall (i, c) (AList.mem_toPairs.mpr hi)⟩)
    simp [hnone]

theorem redundant_of_onlyDistinctPicks {b : Balancer} (hne : b.txConsumers.entries ≠ [])
    (h : b.OnlyDistinctPicks) : b.Redundant := by
  intro o rng picks hp
  obtain ⟨sampled, heq, hlen, hsampled, -⟩ := b.pickConsumers_eq o rng
  rw [heq] at hp
  have hweight : ∀ c ∈ sampled, c ∈ b.txConsumers.values ∧ c.stake + 1 ≠ 0 := by
    intro c hc
    obtain ⟨k, hk⟩ := hsampled c hc
    exact sample_eq_some hk
  have hsingle : sampled.Nodup := by
    have hone := length_sampled_le_one h hne hlen hweight
    match sampled, hone with
    | [], _ => exact List.nodup_nil
    | [c], _ => exact List.nodup_singleton c
  -- a leader is not sampled on top: nothing is sampled, or it has no weight
  have hfresh : ∀ c ∈ (b.leaderPicks o).map Prod.fst, c ∉ sampled := by
    intro c hc hs
    obtain ⟨i, hi⟩ := mem_map_fst_leaderPicks.mp hc
    rcases h with h | ⟨-, hwrap⟩
    · rw [Nat.sub_eq_zero_of_le h, Nat.le_zero, List.length_eq_zero_iff] at hlen
      simp [hlen] at hs
    · exact (hweight c hs).2 (hwrap i c hi)
  refine copies_of_nodup hp ?_ ?_
  · simp only [List.map_append, List.map_map, Function.comp_def, List.map_id']
    exact List.Nodup.append (b.nodup_leaderPicks o) hsingle fun c hc hs => hfresh c hc hs
  · rw [List.length_append, b.length_leaderPicks o]
    rcases h with h | ⟨h, -⟩
    · simp only [nCopies, nConsumers] at h ⊢
      omega
    · omega

/-- A sample that can be drawn again and again, or that is a leader, spoils the picks. -/
theorem not_redundant_of_sample {b : Balancer} (hret : ∀ o rng, ∃ picks, b.pickConsumers o rng = .ok picks)
    {i : String} {c : TxConsumer} (hc : b.txConsumers.lookup i = some c) (hstake : c.stake + 1 ≠ 0)
    (hdup : b.connectedLeaders + 1 < nConsumers ∨
      b.connectedLeaders < nConsumers ∧ (b.leaders.lookup i).isSome) : ¬ b.Redundant := by
  intro hred
  obtain ⟨picks, hp⟩ := hret (.first (i, c)) (.const 0)
  have hnodup := (hred _ _ _ hp).1
  rw [pickConsumers_first hc hstake] at hp
  rw [map_fst_assignTpus hp, List.map_append, List.map_replicate] at hnodup
  simp only [List.nodup_append, List.nodup_replicate] at hnodup
  obtain ⟨-, hone, hfresh⟩ := hnodup
  rcases hdup with h | ⟨h, hlead⟩
  · omega
  · have hmem : c ∈ (b.leaderPicks (.first (i, c))).map Prod.fst :=
      mem_map_fst_leaderPicks.mpr ⟨i, hc, hlead⟩
    exact hfresh c hmem c (List.mem_replicate.mpr ⟨by omega, rfl⟩) rfl

theorem card_assignedTo_le (picks : List Pick) (tpu : LeaderInfo) :
    (assignedTo picks tpu).card ≤ picks.length := by
  refine (List.toFinset_card_le _).trans ?_
  rw [List.length_map]
  exact List.length_filter_le _ _

theorem onlyDistinctPicks_of_redundant {b : Balancer} (htpus : b.leaderTpus ≠ [])
    (hret : ∀ o rng, ∃ picks, b.pickConsumers o rng = .ok picks) (hred : b.Redundant) :
    b.OnlyDistinctPicks := by
  by_contra hnot
  simp only [OnlyDistinctPicks, not_or, not_and, not_le] at hnot
  obtain ⟨hfew, hnot⟩ := hnot
  by_cases hleader : ∃ i c, b.LeadsAs i c ∧ c.stake + 1 ≠ 0
  · obtain ⟨i, c, ⟨hc, hlead⟩, hstake⟩ := hleader
    exact not_redundant_of_sample hret hc hstake (.inr ⟨hfew, hlead⟩) hred
  · push Not at hleader
    have hcopies : b.connectedLeaders < min nCopies b.txConsumers.entries.length := by
      by_contra hge
      exact hnot (Nat.le_of_not_lt hge) hleader
    by_cases hweight : ∃ c ∈ b.txConsumers.values, c.stake + 1 ≠ 0
    · obtain ⟨c, hval, hstake⟩ := hweight
      obtain ⟨i, hc⟩ := AList.mem_values.mp hval
      refine not_redundant_of_sample hret hc hstake (.inl ?_) hred
      simp only [nCopies, nConsumers] at hcopies ⊢
      omega
    · -- nobody can be sampled: the leaders alone are too few for the copies
      push Not at hweight
      obtain ⟨picks, hp⟩ := hret .stored (.const 0)
      obtain ⟨tpu, htpu⟩ := List.exists_mem_of_ne_nil _ htpus
      obtain ⟨sampled, heq, -, hsampled, -⟩ := b.pickConsumers_eq .stored (.const 0)
      have hnone : sampled = [] := by
        rw [List.eq_nil_iff_forall_not_mem]
        intro c hc
        obtain ⟨k, hk⟩ := hsampled c hc
        obtain ⟨hval, hstake⟩ := sample_eq_some hk
        exact hstake (hweight c hval)
      have hcard := ((hred _ _ _ hp).2 tpu htpu).trans (card_assignedTo_le picks tpu)
      rw [heq, hnone] at hp
      rw [length_assignTpus hp, List.map_nil, List.append_nil, length_leaderPicks] at hcard
      omega

/-- In a state with consumers and leaders, the result of `pick_consumers` is redundant for every
order and every draw exactly when all its picks are bound to be distinct. -/
theorem redundant_iff_onlyDistinctPicks {b : Balancer} (hne : b.txConsumers.entries ≠ [])
    (htpus : b.leaderTpus ≠ []) :
    (b.OnlyDistinctPicks → b.Redundant) ∧
      ((∀ o rng, ∃ picks, b.pickConsumers o rng = .ok picks) → b.Redundant →
        b.OnlyDistinctPicks) :=
  ⟨redundant_of_onlyDistinctPicks hne, onlyDistinctPicks_of_redundant htpus⟩

/-- Leaders as `balancer_updater` sets them, one per identity. -/
def leadersNamed (identities : List String) : HashMap String LeaderInfo :=
  AList.collect (identities.map fun i => (i, ⟨i, i ++ ":8009", "Prague", false⟩))

/-- Two consumers, neither of them one of the three leaders. -/
def twoClients : Balancer :=
  ((new.subscribe "A" "tokenA" 0).subscribe "B" "tokenB" 1).setLeaders
    (leadersNamed ["X", "Y", "Z"]).values (leadersNamed ["X", "Y", "Z"])

theorem twoClients_not_redundant :
    Runs.Reachable (Runs.StepsTo step) new twoClients ∧
      (∃ picks, twoClients.pickConsumers .stored (.const 0) = .ok picks ∧
        ¬ (picks.map Prod.fst).Nodup ∧ ∃ tpu ∈ twoClients.leaderTpus,
          (assignedTo picks tpu).card < min nCopies twoClients.txConsumers.entries.length) := by
  refine ⟨Runs.reachable_of_exec [.subscribe "A" "tokenA" 0, .subscribe "B" "tokenB" 1,
    .setLeaders (leadersNamed ["X", "Y", "Z"]).values (leadersNamed ["X", "Y", "Z"])] rfl, ?_⟩
  exact ⟨_, rfl, by decide, by decide⟩

def threeLeaders : Balancer :=
  (((new.subscribe "X" "tokenX" 0).subscribe "Y" "tokenY" 1).subscribe "Z" "tokenZ" 2).setLeaders
    (leadersNamed ["X", "Y", "Z"]).values (leadersNamed ["X", "Y", "Z"])

theorem threeLeaders_redundant : threeLeaders.Redundant :=
  (redundant_iff_onlyDistinctPicks (b := threeLeaders) (by decide) (by decide)).1
    (.inl (by decide))

end Balancer

end Mtransaction
