import Mtransaction.Server.Redundancy

/-!
# How the leaders are spread over the picks

`pick_consumers` cuts the leaders into chunks of `L / n` for `n` picks.  When `n` does not divide
`L` there are more chunks than picks, and the chunks go round a second time.
-/

namespace Mtransaction

namespace Balancer

/-- The single pushes, where every TPU is pushed to the two positions that stand beside it. -/
def pushesTo (leaderTpus : List LeaderInfo) (targets : List (ℕ × ℕ)) : List (ℕ × LeaderInfo) :=
  (leaderTpus.zip targets).flatMap fun e => [(e.2.1, e.1), (e.2.2, e.1)]

/-- The picks are the consumers with what was pushed to their positions: every TPU to two of them,
different ones if there are two, and to each position between `2 * q` and `4 * q` for `q = L / n`. -/
structure FannedOut (leaderTpus : List LeaderInfo) (consumers picks : List Pick)
    (targets : List (ℕ × ℕ)) : Prop where
  all : targets.length = leaderTpus.length
  inRange : ∀ t ∈ targets, t.1 < consumers.length ∧ t.2 < consumers.length
  apart : 2 ≤ consumers.length → ∀ t ∈ targets, t.1 ≠ t.2
  pushed : picks = consumers.mapIdx fun p pick =>
    (pick.1, pick.2 ++ Assignment.pushedTo (pushesTo leaderTpus targets) p)
  fair : ∀ p < consumers.length,
    2 * (leaderTpus.length / consumers.length) ≤
        (Assignment.pushedTo (pushesTo leaderTpus targets) p).length ∧
      (Assignment.pushedTo (pushesTo leaderTpus targets) p).length ≤
        4 * (leaderTpus.length / consumers.length)

section Targets

variable {leaderTpus : List LeaderInfo} {n q p : ℕ}

/-- The positions the `k`-th TPU goes to: those of its chunk and of the next one. -/
def target (n q k : ℕ) : ℕ × ℕ := (k / q % n, (k / q + 1) % n)

def allTargets (n q l : ℕ) : List (ℕ × ℕ) := (List.range l).map (target n q)

theorem zip_allTargets (leaderTpus : List LeaderInfo) (n q : ℕ) :
    leaderTpus.zip (allTargets n q leaderTpus.length) =
      leaderTpus.zipIdx.map fun e => (e.1, target n q e.2) := by
  apply List.ext_getElem
  · simp [allTargets]
  · intro k h₁ h₂
    simp [allTargets]

-- three nested loops push every TPU to its two targets
theorem pushes_chunks (hq : 0 < q) (leaderTpus : List LeaderInfo) (n : ℕ) :
    pushes n (Assignment.chunks q leaderTpus) =
      pushesTo leaderTpus (allTargets n q leaderTpus.length) := by
  have hcopies (i : ℕ) (tpu : LeaderInfo) :
      (List.range nCopies).map (fun j => ((i + j) % n, tpu)) = [(i % n, tpu), ((i + 1) % n, tpu)] :=
    rfl
  have hnested : pushes n (Assignment.chunks q leaderTpus) =
      ((Assignment.chunks q leaderTpus).zipIdx.flatMap fun c => c.1.map fun x => (x, c.2)).flatMap
        fun e => [(e.2 % n, e.1), ((e.2 + 1) % n, e.1)] := by
    rw [pushes, List.flatMap_assoc]
    simp only [hcopies, List.flatMap_map]
  rw [hnested, Assignment.zipIdx_chunks hq, pushesTo, zip_allTargets, List.flatMap_map,
    List.flatMap_map]
  rfl

-- what a position gets: as first target and as second
theorem length_pushedTo (leaderTpus : List LeaderInfo) (n q p : ℕ) :
    (Assignment.pushedTo (pushesTo leaderTpus (allTargets n q leaderTpus.length)) p).length =
      (List.range leaderTpus.length).countP (fun k => k / q % n = p) +
        (List.range leaderTpus.length).countP fun k => (k / q + 1) % n = p := by
  have hindices : List.range leaderTpus.length = leaderTpus.zipIdx.map Prod.snd := by
    simp [List.range_eq_range']
  rw [Assignment.pushedTo, List.length_map, ← List.countP_eq_length_filter, pushesTo,
    zip_allTargets, List.flatMap_map, hindices, List.countP_map, List.countP_map]
  induction leaderTpus.zipIdx with
  | nil => rfl
  | cons e l ih =>
    rw [List.flatMap_cons, List.countP_append, ih]
    by_cases hfirst : e.2 / q % n = p <;> by_cases hsecond : (e.2 / q + 1) % n = p <;>
      simp [target, hfirst, hsecond] <;> omega

theorem countP_eq_card (m : ℕ) (P : ℕ → Prop) [DecidablePred P] :
    (List.range m).countP (fun k => P k) = ((Finset.range m).filter P).card := by
  rw [List.countP_eq_length_filter]
  rfl

-- the chunks for a position as second target are those of another residue
theorem exists_residue (hp : p < n) (i : ℕ) : ∃ r < n, ∀ d, (d + i) % n = p ↔ d % n = r := by
  have hn : 0 < n := Nat.zero_lt_of_lt hp
  refine ⟨(p + (n - i % n)) % n, Nat.mod_lt _ hn, fun d => ?_⟩
  have hi : i % n + (n - i % n) = n := Nat.add_sub_cancel' (Nat.mod_lt i hn).le
  have hback : d + i + (n - i % n) ≡ d [MOD n] := by
    have hsum : i + (n - i % n) ≡ 0 [MOD n] := by
      have hmod : i + (n - i % n) ≡ i % n + (n - i % n) [MOD n] :=
        (Nat.mod_modEq i n).symm.add_right _
      rw [hi] at hmod
      exact hmod.trans (by simp [Nat.ModEq])
    rw [Nat.add_assoc]
    exact hsum.add_left d
  constructor
  · intro h
    have hp' : d + i ≡ p [MOD n] := by rw [Nat.ModEq, h, Nat.mod_eq_of_lt hp]
    exact hback.symm.trans (hp'.add_right _)
  · intro h
    have hd : d + i + (n - i % n) ≡ p + (n - i % n) [MOD n] := hback.trans h
    have hcancel : d + i ≡ p [MOD n] := Nat.ModEq.add_right_cancel' _ hd
    rw [hcancel, Nat.mod_eq_of_lt hp]

theorem countP_target (hq : 0 < q) (hp : p < n) {l : ℕ} (hge : n * q ≤ l) (hlt : l < 2 * n * q)
    (i : ℕ) :
    q ≤ (List.range l).countP (fun k => (k / q + i) % n = p) ∧
      (List.range l).countP (fun k => (k / q + i) % n = p) ≤ 2 * q := by
  obtain ⟨r, hr, hiff⟩ := exists_residue hp i
  simp only [hiff]
  rw [countP_eq_card]
  exact Assignment.card_filter_div_mod hq hr hge hlt

end Targets

theorem assignTpus_fannedOut {leaderTpus : List LeaderInfo} {consumers : List Pick}
    (hn : 1 ≤ consumers.length) (hl : consumers.length ≤ leaderTpus.length) :
    ∃ picks targets, assignTpus leaderTpus consumers = .ok picks ∧
      FannedOut leaderTpus consumers picks targets := by
  have hq : 0 < leaderTpus.length / consumers.length := Nat.div_pos hl hn
  have hne : leaderTpus ≠ [] := List.ne_nil_of_length_pos (by omega)
  refine ⟨_, allTargets consumers.length (leaderTpus.length / consumers.length) leaderTpus.length,
    ?_, ?_, ?_, ?_, rfl, ?_⟩
  · rw [assignTpus, if_pos ⟨hn, hne⟩, if_neg (Nat.pos_iff_ne_zero.mp hq), pushChunks_eq,
      pushes_chunks hq]
  · simp [allTargets]
  · simp only [allTargets, List.forall_mem_map]
    exact fun k _ => ⟨Nat.mod_lt _ hn, Nat.mod_lt _ hn⟩
  · simp only [allTargets, List.forall_mem_map]
    exact fun htwo k _ => mod_ne_succ_mod htwo _
  · intro p hp
    -- less than two rounds: what is left over is less than one push per position
    have hge : consumers.length * (leaderTpus.length / consumers.length) ≤ leaderTpus.length :=
      Nat.mul_div_le _ _
    have hlt : leaderTpus.length < 2 * consumers.length *
        (leaderTpus.length / consumers.length) := by
      have hdiv := Nat.div_add_mod leaderTpus.length consumers.length
      have hmod := Nat.mod_lt leaderTpus.length hn
      have hone := Nat.le_mul_of_pos_right consumers.length hq
      rw [Nat.mul_assoc, Nat.two_mul]
      omega
    have hfirst := countP_target hq hp hge hlt 0
    have hsecond := countP_target hq hp hge hlt 1
    simp only [Nat.add_zero] at hfirst
    rw [length_pushedTo]
    omega

-- a connected leader is picked, with its own TPU first
theorem leader_mem_picks {b : Balancer} {o : HashOrder (String × TxConsumer)} {rng : Rng}
    {picks : List Pick} (h : b.pickConsumers o rng = .ok picks) {identity : String}
    {c : TxConsumer} {info : LeaderInfo} (hc : b.txConsumers.lookup identity = some c)
    (hinfo : b.leaders.lookup identity = some info) : ∃ pushed, (c, info :: pushed) ∈ picks := by
  obtain ⟨sampled, heq, -⟩ := b.pickConsumers_eq o rng
  rw [heq] at h
  obtain ⟨added, -, rfl⟩ := assignTpus_spec h
  have hown : (c, [info]) ∈ b.leaderPicks o := by
    refine List.mem_filterMap.mpr ⟨(identity, c), AList.mem_iter.mpr hc, ?_⟩
    simp [hinfo]
  obtain ⟨p, hp, hget⟩ := List.mem_iff_getElem.mp
    (List.mem_append_left (sampled.map fun c => (c, [])) hown)
  refine ⟨added p, List.mem_mapIdx.mpr ⟨p, hp, ?_⟩⟩
  rw [hget]
  rfl

/-- Any list of picks and any list of at least as many TPUs: every TPU is pushed twice, to
different positions if there are two, and every position gets between `2 * q` and `4 * q`; and every
connected leader is among the picks of `pick_consumers`, starting with its own TPU. -/
theorem leader_fanOut :
    (∀ (leaderTpus : List LeaderInfo) (consumers : List Pick), 1 ≤ consumers.length →
      consumers.length ≤ leaderTpus.length →
      ∃ picks targets, assignTpus leaderTpus consumers = .ok picks ∧
        FannedOut leaderTpus consumers picks targets) ∧
    ∀ (b : Balancer) (o : HashOrder (String × TxConsumer)) (rng : Rng) (picks : List Pick),
      b.pickConsumers o rng = .ok picks →
      (∃ consumers, assignTpus b.leaderTpus consumers = .ok picks) ∧
      ∀ identity c info, b.txConsumers.lookup identity = some c →
        b.leaders.lookup identity = some info → ∃ pushed, (c, info :: pushed) ∈ picks := by
  refine ⟨fun _ _ hn hl => assignTpus_fannedOut hn hl, fun b o rng picks h => ⟨?_, ?_⟩⟩
  · obtain ⟨sampled, heq, -⟩ := b.pickConsumers_eq o rng
    exact ⟨_, heq.symm.trans h⟩
  · intro identity c info hc hinfo
    exact leader_mem_picks h hc hinfo

/-- Three picks share four leaders. -/
theorem four_leaders_fannedOut :
    ∃ picks targets, assignTpus (leadersNamed ["W", "X", "Y", "Z"]).values
        (["A", "B", "C"].map fun i => (⟨i, 1, 0, "token", some 0, false⟩, [])) = .ok picks ∧
      FannedOut (leadersNamed ["W", "X", "Y", "Z"]).values
        (["A", "B", "C"].map fun i => (⟨i, 1, 0, "token", some 0, false⟩, [])) picks targets ∧
      picks.map (fun pick => pick.2.length) = [3, 3, 2] := by
  obtain ⟨picks, targets, hassign, hfanned⟩ := leader_fanOut.1
    (leadersNamed ["W", "X", "Y", "Z"]).values
    (["A", "B", "C"].map fun i => (⟨i, 1, 0, "token", some 0, false⟩, [])) (by decide) (by decide)
  have hlengths : (assignTpus (leadersNamed ["W", "X", "Y", "Z"]).values
      (["A", "B", "C"].map fun i => (⟨i, 1, 0, "token", some 0, false⟩, []))).map
        (fun picks => picks.map fun pick => pick.2.length) = .ok [3, 3, 2] := by
    decide
  rw [hassign] at hlengths
  exact ⟨picks, targets, hassign, hfanned, Except.ok.inj hlengths⟩

end Balancer

end Mtransaction
