import Mtransaction.Lib.Assignment
import Mtransaction.Server.Sampling

/-!
# `pick_consumers`

Connected leaders are picked first, samples fill up to `N_CONSUMERS`, and the leaders' TPUs are
spread over the picks in chunks, each chunk going to `N_COPIES` neighbouring positions.
-/

namespace Mtransaction

/-- A picked consumer with the leaders it is to forward to. -/
abbrev Pick := TxConsumer × List LeaderInfo

namespace Balancer

/-- The consumers that are leaders themselves, each starting with its own TPU. -/
def leaderPicks (b : Balancer) (o : HashOrder (String × TxConsumer)) : List Pick :=
  (b.txConsumers.iter o).filterMap fun e =>
    match b.leaders.lookup e.1 with
    | some tpu => some (e.2, [tpu])
    | none => none

/-- The sampling loop: `n` rounds left, `k` draws made, stopping early when a sample fails. -/
def samplePicks (b : Balancer) (o : HashOrder (String × TxConsumer)) (rng : Rng) :
    ℕ → ℕ → List Pick → Except Panic (List Pick)
  | 0, _, consumers => .ok consumers
  | n + 1, k, consumers =>
    match b.sampleConsumerStakeWeighted o rng k with
    | .error e => .error e
    | .ok (some pick) => samplePicks b o rng n (k + 1) (consumers ++ [(pick, [])])
    -- `break`
    | .ok none => .ok consumers

/-- The loop over `j`: copies of one TPU of chunk `i`.  The position is a remainder modulo the
number of picks, so it is in range. -/
def pushTpu (n i : ℕ) (consumers : List Pick) (tpu : LeaderInfo) : List Pick :=
  (List.range nCopies).foldl
    (fun consumers j => Assignment.pushAt consumers ((i + j) % n, tpu)) consumers

/-- The loops over the chunks and over the TPUs of a chunk. -/
def pushChunks (n : ℕ) (chunks : List (List LeaderInfo)) (consumers : List Pick) : List Pick :=
  chunks.zipIdx.foldl (fun consumers c => c.1.foldl (pushTpu n c.2) consumers) consumers

/-- The part of `pick_consumers` after the sampling; `slice::chunks` panics on length 0. -/
def assignTpus (leaderTpus : List LeaderInfo) (consumers : List Pick) :
    Except Panic (List Pick) :=
  let n := consumers.length
  if 0 < n ∧ leaderTpus ≠ [] then
    let chunkLen := leaderTpus.length / n
    -- fewer TPUs than picks
    if chunkLen = 0 then .error .zeroChunkSize
    else .ok (pushChunks n (Assignment.chunks chunkLen leaderTpus) consumers)
  else .ok consumers

def pickConsumers (b : Balancer) (o : HashOrder (String × TxConsumer)) (rng : Rng) :
    Except Panic (List Pick) :=
  let consumers := b.leaderPicks o
  match b.samplePicks o rng (nConsumers - min consumers.length nConsumers) 0 consumers with
  | .error e => .error e
  | .ok consumers => assignTpus b.leaderTpus consumers

def connectedLeaders (b : Balancer) : ℕ :=
  b.txConsumers.toPairs.countP fun e => (b.leaders.lookup e.1).isSome

/-! ## The picked consumers -/

section Picks

variable (b : Balancer) (o : HashOrder (String × TxConsumer)) (rng : Rng)

-- the leaders among the consumers, in the order of the iteration
theorem map_fst_leaderPicks :
    (b.leaderPicks o).map Prod.fst =
      ((b.txConsumers.iter o).filter fun e => (b.leaders.lookup e.1).isSome).map Prod.snd := by
  rw [leaderPicks]
  induction b.txConsumers.iter o with
  | nil => rfl
  | cons e l ih => cases h : b.leaders.lookup e.1 <;> simp [h, ih]

-- how many they are does not depend on that order
theorem length_leaderPicks : (b.leaderPicks o).length = b.connectedLeaders := by
  rw [← List.length_map (f := Prod.fst), map_fst_leaderPicks, List.length_map,
    ← List.countP_eq_length_filter]
  exact (AList.iter_perm _ o).countP_eq _

def LeadsAs (b : Balancer) (identity : String) (c : TxConsumer) : Prop :=
  b.txConsumers.lookup identity = some c ∧ (b.leaders.lookup identity).isSome

theorem mem_map_fst_leaderPicks {b : Balancer} {o : HashOrder (String × TxConsumer)}
    {c : TxConsumer} :
    c ∈ (b.leaderPicks o).map Prod.fst ↔ ∃ identity, b.LeadsAs identity c := by
  simp only [map_fst_leaderPicks, List.mem_map, List.mem_filter, Prod.exists, AList.mem_iter,
    LeadsAs]
  constructor
  · rintro ⟨i, c, h, rfl⟩
    exact ⟨i, h⟩
  · rintro ⟨i, h⟩
    exact ⟨i, c, h, rfl⟩

/-- The loop appends samples, never more than asked for, and all of them if none fails. -/
theorem samplePicks_spec (n k : ℕ) (consumers : List Pick) :
    ∃ sampled : List TxConsumer,
      b.samplePicks o rng n k consumers = .ok (consumers ++ sampled.map fun c => (c, [])) ∧
      sampled.length ≤ n ∧
      (∀ c ∈ sampled, ∃ k, b.sampleConsumerStakeWeighted o rng k = .ok (some c)) ∧
      ((∀ k, ∃ c, b.sampleConsumerStakeWeighted o rng k = .ok (some c)) → sampled.length = n) := by
  induction n generalizing k consumers with
  | zero => exact ⟨[], by simp [samplePicks]⟩
  | succ n ih =>
    obtain ⟨pick, hpick⟩ := b.sample_ok o rng k
    simp only [samplePicks, hpick]
    cases pick with
    | none =>
      refine ⟨[], by simp, Nat.zero_le _, by simp, ?_⟩
      intro hall
      obtain ⟨c, hc⟩ := hall k
      simp [hc] at hpick
    | some c =>
      obtain ⟨sampled, hs, hlen, hval, hfull⟩ := ih (k + 1) (consumers ++ [(c, [])])
      refine ⟨c :: sampled, by simp [hs], Nat.succ_le_succ hlen, ?_, ?_⟩
      · intro d hd
        rcases List.mem_cons.mp hd with rfl | hd
        · exact ⟨k, hpick⟩
        · exact hval d hd
      · intro hall
        rw [List.length_cons, hfull hall]

theorem rounds_eq (leaders : ℕ) :
    nConsumers - min leaders nConsumers = nConsumers - leaders := by omega

theorem pickConsumers_eq :
    ∃ sampled : List TxConsumer,
      b.pickConsumers o rng =
        assignTpus b.leaderTpus (b.leaderPicks o ++ sampled.map fun c => (c, [])) ∧
      sampled.length ≤ nConsumers - b.connectedLeaders ∧
      (∀ c ∈ sampled, ∃ k, b.sampleConsumerStakeWeighted o rng k = .ok (some c)) ∧
      ((∀ k, ∃ c, b.sampleConsumerStakeWeighted o rng k = .ok (some c)) →
        sampled.length = nConsumers - b.connectedLeaders) := by
  obtain ⟨sampled, hs, hlen, hval, hfull⟩ := b.samplePicks_spec o rng
    (nConsumers - min (b.leaderPicks o).length nConsumers) 0 (b.leaderPicks o)
  rw [b.length_leaderPicks o, rounds_eq] at hlen hfull
  exact ⟨sampled, by simp only [pickConsumers, hs], hlen, hval, hfull⟩

/-- Draw 0 in the order that puts `c` first samples `c` every time. -/
theorem pickConsumers_first {b : Balancer} {i : String} {c : TxConsumer}
    (hc : b.txConsumers.lookup i = some c) (hstake : c.stake + 1 ≠ 0) :
    b.pickConsumers (.first (i, c)) (.const 0) =
      assignTpus b.leaderTpus (b.leaderPicks (.first (i, c)) ++
        List.replicate (nConsumers - b.connectedLeaders) (c, [])) := by
  obtain ⟨sampled, heq, -, hsampled, hfull⟩ := b.pickConsumers_eq (.first (i, c)) (.const 0)
  have hlen := hfull fun k => ⟨c, sample_first hc hstake k⟩
  have hconst : sampled = List.replicate (nConsumers - b.connectedLeaders) c := by
    refine List.eq_replicate_iff.mpr ⟨hlen, fun d hd => ?_⟩
    obtain ⟨k, hk⟩ := hsampled d hd
    rw [sample_first hc hstake, Except.ok.injEq, Option.some.injEq] at hk
    exact hk.symm
  rw [heq, hconst, List.map_replicate]

end Picks

/-! ## The assignment of TPUs -/

section Assign

variable {leaderTpus : List LeaderInfo} {consumers picks : List Pick}

/-- The assignment goes through unless there are TPUs, but fewer than picks. -/
theorem assignTpus_returns_iff (leaderTpus : List LeaderInfo) (consumers : List Pick) :
    (∃ picks, assignTpus leaderTpus consumers = .ok picks) ↔
      leaderTpus = [] ∨ consumers.length ≤ leaderTpus.length := by
  unfold assignTpus
  by_cases h : 0 < consumers.length ∧ leaderTpus ≠ []
  · simp only [h, and_self, if_true, ne_eq, not_false_eq_true]
    by_cases hlen : consumers.length ≤ leaderTpus.length
    · have hdiv : leaderTpus.length / consumers.length ≠ 0 :=
        Nat.pos_iff_ne_zero.mp (Nat.div_pos hlen h.1)
      simp [hdiv, hlen]
    · have hdiv : leaderTpus.length / consumers.length = 0 := Nat.div_eq_of_lt (by omega)
      simp [hdiv, hlen]
  · simp only [h, if_false, Except.ok.injEq, exists_eq', true_iff]
    by_cases hn : leaderTpus = []
    · exact .inl hn
    · right
      have : ¬ 0 < consumers.length := fun hpos => h ⟨hpos, hn⟩
      omega

def pushes (n : ℕ) (chunks : List (List LeaderInfo)) : List (ℕ × LeaderInfo) :=
  chunks.zipIdx.flatMap fun c => c.1.flatMap fun tpu =>
    (List.range nCopies).map fun j => ((c.2 + j) % n, tpu)

theorem pushChunks_eq (n : ℕ) (chunks : List (List LeaderInfo)) (consumers : List Pick) :
    pushChunks n chunks consumers =
      consumers.mapIdx fun p pick => (pick.1, pick.2 ++ Assignment.pushedTo (pushes n chunks) p) := by
  -- three nested loops are one loop over the single pushes
  have hflat : pushChunks n chunks consumers = (pushes n chunks).foldl Assignment.pushAt consumers := by
    rw [pushes, List.foldl_flatMap, pushChunks]
    congr 1
    funext consumers c
    simp only [List.foldl_flatMap, List.foldl_map]
    rfl
  rw [hflat, Assignment.foldl_pushAt]

/-- The assignment moves no consumer and only adds TPUs to what each already had. -/
theorem assignTpus_spec (h : assignTpus leaderTpus consumers = .ok picks) :
    ∃ added : ℕ → List LeaderInfo, (∀ p, added p ⊆ leaderTpus) ∧
      picks = consumers.mapIdx fun p pick => (pick.1, pick.2 ++ added p) := by
  simp only [assignTpus] at h
  split at h
  · split at h
    · simp at h
    next hchunk =>
      rw [Except.ok.injEq, pushChunks_eq] at h
      refine ⟨_, fun p tpu htpu => ?_, h.symm⟩
      -- what is pushed comes from a chunk
      obtain ⟨c, hc, hpush⟩ := List.mem_flatMap.mp (Assignment.mem_pushedTo.mp htpu)
      obtain ⟨tpu', htpu', hcopy⟩ := List.mem_flatMap.mp hpush
      obtain ⟨j, -, heq⟩ := List.mem_map.mp hcopy
      obtain ⟨-, rfl⟩ := Prod.mk.inj heq
      rw [← Assignment.flatten_chunks (Nat.pos_of_ne_zero hchunk) leaderTpus]
      exact List.mem_flatten.mpr ⟨c.1, List.fst_mem_of_mem_zipIdx hc, htpu'⟩
  · rw [Except.ok.injEq] at h
    refine ⟨fun _ => [], fun _ => List.nil_subset _, ?_⟩
    rw [← h]
    exact List.ext_getElem (by simp) (by simp)

-- positions keep their consumers
theorem map_fst_assignTpus (h : assignTpus leaderTpus consumers = .ok picks) :
    picks.map Prod.fst = consumers.map Prod.fst := by
  obtain ⟨added, -, rfl⟩ := assignTpus_spec h
  exact List.ext_getElem (by simp) (by simp)

theorem length_assignTpus (h : assignTpus leaderTpus consumers = .ok picks) :
    picks.length = consumers.length := by
  rw [← List.length_map (f := Prod.fst), map_fst_assignTpus h, List.length_map]

theorem map_fst_pickConsumers {b : Balancer} {o : HashOrder (String × TxConsumer)} {rng : Rng}
    (h : b.pickConsumers o rng = .ok picks) :
    ∃ sampled, picks.map Prod.fst = (b.leaderPicks o).map Prod.fst ++ sampled ∧
      ∀ c ∈ sampled, c ∈ b.txConsumers.values ∧ c.stake + 1 ≠ 0 := by
  obtain ⟨sampled, heq, -, hsampled, -⟩ := b.pickConsumers_eq o rng
  rw [heq] at h
  refine ⟨sampled, ?_, fun c hc => ?_⟩
  · simp [map_fst_assignTpus h, Function.comp_def]
  · obtain ⟨k, hk⟩ := hsampled c hc
    exact sample_eq_some hk

-- only connected consumers are picked
theorem mem_values_of_pick {b : Balancer} {o : HashOrder (String × TxConsumer)} {rng : Rng}
    (h : b.pickConsumers o rng = .ok picks) {pick : Pick} (hpick : pick ∈ picks) :
    pick.1 ∈ b.txConsumers.values := by
  obtain ⟨sampled, hfst, hsampled⟩ := map_fst_pickConsumers h
  have hmem : pick.1 ∈ picks.map Prod.fst := List.mem_map_of_mem hpick
  rw [hfst, List.mem_append] at hmem
  rcases hmem with hleader | hsample
  · obtain ⟨i, hi, -⟩ := mem_map_fst_leaderPicks.mp hleader
    exact AList.mem_values.mpr ⟨i, hi⟩
  · exact (hsampled _ hsample).1

theorem entries_ne_nil_of_picks {b : Balancer} {o : HashOrder (String × TxConsumer)} {rng : Rng}
    (h : b.pickConsumers o rng = .ok picks) (hne : picks ≠ []) : b.txConsumers.entries ≠ [] := by
  obtain ⟨pick, hpick⟩ := List.exists_mem_of_ne_nil _ hne
  obtain ⟨i, hi⟩ := AList.mem_values.mp (mem_values_of_pick h hpick)
  intro hempty
  have hmem := AList.mem_toPairs.mpr hi
  simp [AList.toPairs, hempty] at hmem

/-- A pick is told to forward to current leaders only. -/
theorem mem_leaders_of_pick {b : Balancer} {o : HashOrder (String × TxConsumer)} {rng : Rng}
    (h : b.pickConsumers o rng = .ok picks) {pick : Pick} (hpick : pick ∈ picks)
    {info : LeaderInfo} (hinfo : info ∈ pick.2) :
    info ∈ b.leaderTpus ∨ info ∈ b.leaders.values := by
  obtain ⟨sampled, heq, -⟩ := b.pickConsumers_eq o rng
  rw [heq] at h
  obtain ⟨added, hadded, rfl⟩ := assignTpus_spec h
  obtain ⟨p, hp, rfl⟩ := List.mem_mapIdx.mp hpick
  rcases List.mem_append.mp hinfo with hown | hspread
  · right
    -- only leaders among the consumers start with a TPU, their own
    rcases List.mem_append.mp (List.getElem_mem hp) with hleader | hsample
    · obtain ⟨e, -, he⟩ := List.mem_filterMap.mp hleader
      split at he
      next tpu htpu =>
        rw [← Option.some.inj he, List.mem_singleton] at hown
        exact hown ▸ AList.mem_values.mpr ⟨e.1, htpu⟩
      next => simp at he
    · obtain ⟨c, -, hc⟩ := List.mem_map.mp hsample
      rw [← hc] at hown
      simp at hown
  · exact .inl (hadded p hspread)

end Assign

/-! ## When `pick_consumers` returns -/

/-- There is no TPU, or there are at least as many as connected leaders and as `N_CONSUMERS`, the
second only if anyone can be sampled at all: the weight of a stake of `u64::MAX` wraps to 0. -/
def EnoughTpus (b : Balancer) : Prop :=
  b.leaderTpus = [] ∨ b.connectedLeaders ≤ b.leaderTpus.length ∧
    (nConsumers ≤ b.leaderTpus.length ∨ ∀ c ∈ b.txConsumers.values, c.stake + 1 = 0)

/-- `pick_consumers` returns, whatever the order and the draws, exactly when there are enough TPUs
for all picks. -/
theorem pickConsumers_returns_iff (b : Balancer) :
    (∀ o rng, ∃ picks, b.pickConsumers o rng = .ok picks) ↔ b.EnoughTpus := by
  unfold EnoughTpus
  constructor
  · intro hall
    by_cases hwrap : ∀ c ∈ b.txConsumers.values, c.stake + 1 = 0
    -- nobody has a weight: the leaders are all there is
    · obtain ⟨sampled, heq, -⟩ := b.pickConsumers_eq .stored (.const 0)
      have hret := hall .stored (.const 0)
      rw [heq, assignTpus_returns_iff, List.length_append, length_leaderPicks] at hret
      exact hret.imp id fun h => ⟨by omega, .inr hwrap⟩
    · -- draw 0 always selects the consumer with a weight, once it comes first
      push Not at hwrap
      obtain ⟨c, hc, hstake⟩ := hwrap
      obtain ⟨i, hi⟩ := AList.mem_values.mp hc
      have hret := hall (.first (i, c)) (.const 0)
      rw [pickConsumers_first hi hstake, assignTpus_returns_iff, List.length_append,
        List.length_replicate, length_leaderPicks] at hret
      exact hret.imp id fun h => ⟨by omega, .inl (by omega)⟩
  · intro hcond o rng
    obtain ⟨sampled, heq, hlen, hsampled, -⟩ := b.pickConsumers_eq o rng
    rw [heq, assignTpus_returns_iff, List.length_append, List.length_map, length_leaderPicks]
    rcases hcond with h | ⟨hleaders, h | hwrap⟩
    · exact .inl h
    · right
      omega
    · right
      have hnone : sampled = [] := by
        rw [List.eq_nil_iff_forall_not_mem]
        intro c hc
        obtain ⟨k, hk⟩ := hsampled c hc
        obtain ⟨hval, hstake⟩ := sample_eq_some hk
        exact hstake (hwrap c hval)
      simpa [hnone] using hleaders

/-! ## Who can make up all the picks -/

/-- A list with none but such consumers can be picked: all connected leaders are such consumers, and
with some number `n` of samples there is somebody on the list, there are enough TPUs for it, one of
such consumers can be drawn every time, and fewer than the rest to `N_CONSUMERS` are drawn only
where a draw can find nobody. -/
def CanPickOnly (b : Balancer) (P : TxConsumer → Prop) : Prop :=
  (∀ identity c, b.LeadsAs identity c → P c) ∧ ∃ o n, n ≤ nConsumers - b.connectedLeaders ∧
    0 < b.connectedLeaders + n ∧
    (b.leaderTpus = [] ∨ b.connectedLeaders + n ≤ b.leaderTpus.length) ∧
    (0 < n → ∃ c, b.Drawable o c ∧ P c) ∧ (n < nConsumers - b.connectedLeaders → b.Passable o)

section PickOnly

variable {b : Balancer} {o : HashOrder (String × TxConsumer)} {P : TxConsumer → Prop}

/-- The rounds go as the draws go. -/
theorem samplePicks_of_draws {rng : Rng} {rounds k : ℕ} {consumers : List Pick}
    {sampled : List TxConsumer} (hlen : sampled.length ≤ rounds)
    (hselected : ∀ j c, sampled[j]? = some c →
      b.sampleConsumerStakeWeighted o rng (k + j) = .ok (some c))
    (hstopped : sampled.length < rounds →
      b.sampleConsumerStakeWeighted o rng (k + sampled.length) = .ok none) :
    b.samplePicks o rng rounds k consumers = .ok (consumers ++ sampled.map fun c => (c, [])) := by
  induction sampled generalizing rounds k consumers with
  | nil =>
    cases rounds with
    | zero => simp [samplePicks]
    | succ rounds =>
      have hnone := hstopped (Nat.succ_pos rounds)
      rw [List.length_nil, Nat.add_zero] at hnone
      simp [samplePicks, hnone]
  | cons c sampled ih =>
    obtain ⟨rounds, rfl⟩ := Nat.exists_eq_add_one_of_ne_zero (Nat.ne_of_gt
      (Nat.lt_of_lt_of_le (Nat.succ_pos _) hlen))
    have hfirst := hselected 0 c rfl
    rw [Nat.add_zero] at hfirst
    simp only [samplePicks, hfirst]
    rw [ih (Nat.le_of_succ_le_succ hlen)]
    · simp
    · intro j d hd
      have := hselected (j + 1) d (by simpa using hd)
      rwa [Nat.add_comm j, ← Nat.add_assoc] at this
    · intro hlt
      have := hstopped (Nat.succ_lt_succ hlt)
      rwa [List.length_cons, Nat.add_comm _ 1, ← Nat.add_assoc] at this

/-- One such consumer, drawn as often as asked for, and then nobody if rounds are left. -/
theorem exists_sampled {n rounds : ℕ} (hdrawable : 0 < n → ∃ c, b.Drawable o c ∧ P c)
    (hpassable : n < rounds → b.Passable o) :
    ∃ (rng : Rng) (sampled : List TxConsumer), sampled.length = n ∧ (∀ c ∈ sampled, P c) ∧
      (∀ j c, sampled[j]? = some c → b.sampleConsumerStakeWeighted o rng j = .ok (some c)) ∧
      (n < rounds → b.sampleConsumerStakeWeighted o rng n = .ok none) := by
  have hstop : ∃ stop, n < rounds → ∃ w ∈ b.totalWeight, stop < w ∧ Passes stop 0 (b.scanned o) := by
    by_cases hlt : n < rounds
    · obtain ⟨w, hw, stop, hstop, hpasses⟩ := hpassable hlt
      exact ⟨stop, fun _ => ⟨w, hw, hstop, hpasses⟩⟩
    · exact ⟨0, fun h => absurd h hlt⟩
  obtain ⟨stop, hstop⟩ := hstop
  cases n with
  | zero =>
    refine ⟨.of fun _ => stop, [], rfl, by simp, by simp, fun hlt => ?_⟩
    obtain ⟨w, hw, hstop, hpasses⟩ := hstop hlt
    rw [sample_of_draws hw hstop, (scanConsumers_eq_none_iff (Nat.zero_le _)).mpr hpasses]
  | succ n =>
    obtain ⟨c, ⟨w, hw, r, hr, hscan⟩, hP⟩ := hdrawable (Nat.succ_pos n)
    let draws (k : ℕ) : ℕ := if k < n + 1 then r else stop
    refine ⟨.of draws, .replicate (n + 1) c, List.length_replicate, ?_, ?_, fun hlt => ?_⟩
    · intro d hd
      exact (List.mem_replicate.mp hd).2 ▸ hP
    · intro j d hd
      obtain ⟨hj, hget⟩ := List.getElem?_eq_some_iff.mp hd
      rw [List.length_replicate] at hj
      rw [List.getElem_replicate] at hget
      have hdraw : draws j = r := if_pos hj
      rw [← hget, sample_of_draws hw (hdraw ▸ hr), hdraw,
        (scanConsumers_eq_some_iff (Nat.zero_le _)).mpr hscan]
    · obtain ⟨w, hw, hstop, hpasses⟩ := hstop hlt
      have hdraw : draws (n + 1) = stop := if_neg (Nat.lt_irrefl _)
      rw [sample_of_draws hw (hdraw ▸ hstop), hdraw,
        (scanConsumers_eq_none_iff (Nat.zero_le _)).mpr hpasses]

theorem CanPickOnly.of_picks {rng : Rng} {picks : List Pick}
    (hpick : b.pickConsumers o rng = .ok picks) (hne : picks ≠ [])
    (hP : ∀ pick ∈ picks, P pick.1) : b.CanPickOnly P := by
  obtain ⟨sampled, heq, hlen, hsampled, hfull⟩ := b.pickConsumers_eq o rng
  have hassigned := hpick
  rw [heq] at hassigned
  have hfst := map_fst_assignTpus hassigned
  have htpus := (assignTpus_returns_iff _ _).mp ⟨_, hassigned⟩
  have hlength := length_assignTpus hassigned
  rw [List.length_append, List.length_map, length_leaderPicks] at htpus hlength
  rw [List.map_append, List.map_map] at hfst
  have hmem : ∀ c ∈ (b.leaderPicks o).map Prod.fst ++ sampled, P c := by
    intro c hc
    have hpicked : c ∈ picks.map Prod.fst := by
      rw [hfst]
      simpa using hc
    obtain ⟨pick, hpick, rfl⟩ := List.mem_map.mp hpicked
    exact hP pick hpick
  refine ⟨fun identity c hleads => ?_, o, sampled.length, hlen, ?_, htpus, fun hpos => ?_, ?_⟩
  · exact hmem c (List.mem_append_left _ (mem_map_fst_leaderPicks.mpr ⟨identity, hleads⟩))
  · rw [← hlength]
    exact List.length_pos_of_ne_nil hne
  · obtain ⟨c, hc⟩ := List.exists_mem_of_length_pos hpos
    obtain ⟨k, hk⟩ := hsampled c hc
    exact ⟨c, .of_sample hk, hmem c (List.mem_append_right _ hc)⟩
  · -- a round that is left out had a draw that found nobody
    intro hlt
    by_contra hnot
    refine absurd (hfull fun k => ?_) (Nat.ne_of_lt hlt)
    obtain ⟨sample, hk⟩ := b.sample_ok o rng k
    cases sample with
    | some c => exact ⟨c, hk⟩
    | none => exact absurd (Passable.of_sample (entries_ne_nil_of_picks hpick hne) hk) hnot

theorem CanPickOnly.exists_picks (h : b.CanPickOnly P) : ∃ o rng picks,
    b.pickConsumers o rng = .ok picks ∧ picks ≠ [] ∧ ∀ pick ∈ picks, P pick.1 := by
  obtain ⟨hleaders, o, n, hn, hpos, htpus, hdrawable, hpassable⟩ := h
  obtain ⟨rng, sampled, hlen, hP, hselected, hstopped⟩ := exists_sampled hdrawable hpassable
  have hsampled : b.samplePicks o rng (nConsumers - min (b.leaderPicks o).length nConsumers) 0
      (b.leaderPicks o) = .ok (b.leaderPicks o ++ sampled.map fun c => (c, [])) := by
    rw [length_leaderPicks, rounds_eq]
    refine samplePicks_of_draws (hlen ▸ hn) (by simpa using hselected) fun hlt => ?_
    rw [hlen, Nat.zero_add]
    exact hstopped (hlen ▸ hlt)
  obtain ⟨picks, hpicks⟩ := (assignTpus_returns_iff b.leaderTpus
    (b.leaderPicks o ++ sampled.map fun c => (c, []))).mpr (by
      rwa [List.length_append, List.length_map, length_leaderPicks, hlen])
  refine ⟨o, rng, picks, by simp only [pickConsumers, hsampled, hpicks], ?_, fun pick hpick => ?_⟩
  · refine List.ne_nil_of_length_pos ?_
    rw [length_assignTpus hpicks, List.length_append, List.length_map, length_leaderPicks, hlen]
    exact hpos
  · have hfst : pick.1 ∈ picks.map Prod.fst := List.mem_map_of_mem hpick
    rw [map_fst_assignTpus hpicks, List.map_append, List.map_map, List.mem_append] at hfst
    rcases hfst with hleader | hsample
    · obtain ⟨identity, hleads⟩ := mem_map_fst_leaderPicks.mp hleader
      exact hleaders identity pick.1 hleads
    · exact hP _ (by simpa using hsample)

theorem exists_picks_iff :
    (∃ o rng picks, b.pickConsumers o rng = .ok picks ∧ picks ≠ [] ∧ ∀ pick ∈ picks, P pick.1) ↔
      b.CanPickOnly P :=
  ⟨fun ⟨_, _, _, hpick, hne, hP⟩ => .of_picks hpick hne hP, CanPickOnly.exists_picks⟩

end PickOnly

end Balancer

end Mtransaction
