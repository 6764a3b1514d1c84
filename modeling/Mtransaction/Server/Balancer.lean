import Mtransaction.Server.Types
import Mathlib.Data.UInt
import Mathlib.Algebra.BigOperators.Group.List.Basic

/-!
# The balancer's state and the operations that change it

`server/balancer.rs` without `pick_consumers` and `publish`.  Integers of type `u64` are `UInt64`:
as in the released binary, sums wrap.
-/

namespace Mtransaction

/-- The process-wide gauges of `server/metrics.rs` that the balancer sets. -/
structure Gauges where
  /-- `SERVER_TOTAL_CONNECTED_TX_CONSUMERS` -/
  totalConnectedTxConsumers : Int
  /-- `SERVER_TOTAL_CONNECTED_STAKE`, by identity -/
  totalConnectedStake : HashMap String Int64

/-- The fields of the source's `Balancer`, with the effects of its methods on the rest of the
process: the gauges, and the unsubscribe signals sent so far.  `watcher_inbox` is only sent to by
`publish`, which returns what it sends. -/
structure Balancer where
  txConsumers : HashMap String TxConsumer
  stakeWeights : HashMap String UInt64
  totalConnectedStake : UInt64
  leaders : HashMap String LeaderInfo
  leaderTpus : List LeaderInfo
  rttValues : HashMap String (HashMap String RttValue)
  gauges : Gauges
  signals : List ConnId
  /-- Consumers are filed under their identity. -/
  keyed : ∀ i c, txConsumers.lookup i = some c → c.identity = i

namespace Balancer

def new : Balancer where
  txConsumers := ∅
  stakeWeights := ∅
  totalConnectedStake := 0
  leaders := ∅
  leaderTpus := []
  rttValues := ∅
  gauges := ⟨0, ∅⟩
  signals := []
  keyed := by simp

def stakeSum (b : Balancer) : ℕ := (b.txConsumers.values.map fun c => c.stake.toNat).sum

def recalcTotalConnectedStake (b : Balancer) : Balancer :=
  { b with
    -- `set` on the gauge, then one labelled series per connected identity
    gauges := {
      totalConnectedTxConsumers := b.txConsumers.entries.length
      totalConnectedStake := b.txConsumers.values.foldl
        (fun series c => series.insert c.identity c.stake.toInt64) b.gauges.totalConnectedStake }
    -- the sum wraps like the `u64` it is
    totalConnectedStake := (b.txConsumers.values.map TxConsumer.stake).sum }

/-- `HashMap::insert` under the consumer's identity; the entry it replaces is dropped. -/
def insertConsumer (b : Balancer) (consumer : TxConsumer) : Balancer :=
  { b with
    txConsumers := b.txConsumers.insert consumer.identity consumer
    signals := b.signals ++ (b.txConsumers.lookup consumer.identity).toList.flatMap TxConsumer.drop
    keyed := by
      intro i c h
      rw [AList.lookup_insert_eq_ite] at h
      split at h
      next hi => rw [hi, Option.some.inj h]
      next => exact b.keyed i c h }

def removeConsumer (b : Balancer) (identity : String) : Balancer :=
  { b with
    txConsumers := b.txConsumers.erase identity
    signals := b.signals ++ (b.txConsumers.lookup identity).toList.flatMap TxConsumer.drop
    keyed := by
      intro i c h
      rw [AList.lookup_erase_eq_ite] at h
      split at h
      next => simp at h
      next => exact b.keyed i c h }

/-- Change the consumers in place, leaving each under its identity. -/
def mapConsumers (b : Balancer) (f : String → TxConsumer → TxConsumer)
    (hf : ∀ i c, (f i c).identity = c.identity) : Balancer :=
  { b with
    txConsumers := b.txConsumers.mapValues f
    keyed := by
      intro i c h
      rw [AList.lookup_mapValues, Option.map_eq_some_iff] at h
      obtain ⟨c', hc', rfl⟩ := h
      rw [hf, b.keyed i c' hc'] }

/-- `conn` names the channel and the signal made by this call. -/
def subscribe (b : Balancer) (identity token : String) (conn : ConnId) : Balancer :=
  recalcTotalConnectedStake <| b.insertConsumer {
    identity
    stake := (b.stakeWeights.lookup identity).getD 1
    tx := conn
    token
    txUnsubscribe := some conn
    doUnsubscribe := false }

def unsubscribe (b : Balancer) (identity token : String) : Balancer :=
  -- a stale token leaves the entry of a newer connection alone
  match b.txConsumers.lookup identity with
  | some txConsumer =>
    if txConsumer.token = token then recalcTotalConnectedStake (b.removeConsumer identity) else b
  | none => b

/-- The consumers keep their place and get new stakes; the total is not recomputed. -/
def updateStakeWeights (b : Balancer) (stakeWeights : HashMap String UInt64) : Balancer :=
  { b with stakeWeights }.mapConsumers
    (fun identity c => { c with stake := (stakeWeights.lookup identity).getD 1 }) fun _ _ => rfl

def setLeaders (b : Balancer) (leaderTpus : List LeaderInfo) (leaders : HashMap String LeaderInfo) :
    Balancer :=
  { b with leaderTpus, leaders }

def updateRtt (b : Balancer) (identity : String) (value : Rtt) : Except Panic Balancer :=
  -- `entry(..).or_default()` twice: by identity, then by address
  let slots := (b.rttValues.lookup identity).getD ∅
  let slot := (slots.lookup value.ip).getD default
  let n := slot.n + 1
  if n = 0 then .error .divideByZero
  else
    -- the running mean, in wrapping arithmetic
    let rtt := (slot.n * slot.rtt + value.rtt) / n
    .ok { b with rttValues := b.rttValues.insert identity (slots.insert value.ip { rtt, n }) }

/-- The failed send in `publish`: `do_unsubscribe.store(true)` on the entry. -/
def flagUnsubscribe (b : Balancer) (identity : String) : Balancer :=
  b.mapConsumers (fun i c => if i = identity then { c with doUnsubscribe := true } else c) <| by
    intro i c
    split <;> rfl

def flushUnsubscribes (b : Balancer) (o : HashOrder (String × TxConsumer)) : Balancer :=
  -- first collected under the borrow, then removed one by one
  let identities := (b.txConsumers.iter o).filterMap fun e =>
    if e.2.doUnsubscribe then some (e.2.identity, e.2.token) else none
  identities.foldl (fun b entry => b.unsubscribe entry.1 entry.2) b

/-! ## What each operation leaves in the consumer table -/

section Lookup

variable (b : Balancer) (i identity token : String)

@[simp] theorem recalc_txConsumers : b.recalcTotalConnectedStake.txConsumers = b.txConsumers := rfl

@[simp] theorem recalc_signals : b.recalcTotalConnectedStake.signals = b.signals := rfl

@[simp] theorem setLeaders_txConsumers (tpus : List LeaderInfo) (leaders : HashMap String LeaderInfo) :
    (b.setLeaders tpus leaders).txConsumers = b.txConsumers := rfl

-- a new entry under its identity, nothing else
theorem lookup_subscribe (conn : ConnId) :
    (b.subscribe identity token conn).txConsumers.lookup i =
      if i = identity then
        some ⟨identity, (b.stakeWeights.lookup identity).getD 1, conn, token, some conn, false⟩
      else b.txConsumers.lookup i := by
  rw [subscribe, recalc_txConsumers, insertConsumer, AList.lookup_insert_eq_ite]

-- the two branches: the token matches and the entry goes, or nothing happens
theorem unsubscribe_cases :
    (∃ c, b.txConsumers.lookup identity = some c ∧ c.token = token ∧
      b.unsubscribe identity token = recalcTotalConnectedStake (b.removeConsumer identity)) ∨
    ((∀ c, b.txConsumers.lookup identity = some c → c.token ≠ token) ∧
      b.unsubscribe identity token = b) := by
  unfold unsubscribe
  cases h : b.txConsumers.lookup identity with
  | none => exact .inr ⟨by simp, rfl⟩
  | some c =>
    by_cases ht : c.token = token
    · exact .inl ⟨c, rfl, ht, if_pos ht⟩
    · refine .inr ⟨?_, if_neg ht⟩
      rintro c' ⟨⟩
      exact ht

theorem lookup_unsubscribe :
    (b.unsubscribe identity token).txConsumers.lookup i =
      (b.txConsumers.lookup i).filter fun c => ¬ (i = identity ∧ c.token = token) := by
  rcases b.unsubscribe_cases identity token with ⟨c, hc, ht, heq⟩ | ⟨hne, heq⟩
  · rw [heq, recalc_txConsumers, removeConsumer, AList.lookup_erase_eq_ite]
    by_cases hi : i = identity
    · subst hi
      simp [hc, ht, Option.filter_some]
    · cases b.txConsumers.lookup i <;> simp [hi, Option.filter_some]
  · rw [heq]
    cases h : b.txConsumers.lookup i with
    | none => rfl
    | some c =>
      rw [Option.filter_some, if_pos]
      simp only [decide_eq_true_eq, not_and]
      rintro rfl
      exact hne c h

-- a signal once sent stays sent
theorem signals_subset_unsubscribe : b.signals ⊆ (b.unsubscribe identity token).signals := by
  rcases b.unsubscribe_cases identity token with ⟨c, -, -, heq⟩ | ⟨-, heq⟩
  · rw [heq]
    exact List.subset_append_left _ _
  · rw [heq]
    exact List.Subset.refl _

theorem mem_signals_unsubscribe {c : TxConsumer} {conn : ConnId}
    (hc : b.txConsumers.lookup identity = some c) (ht : c.token = token)
    (hconn : c.txUnsubscribe = some conn) : conn ∈ (b.unsubscribe identity token).signals := by
  rcases b.unsubscribe_cases identity token with ⟨c', hc', -, heq⟩ | ⟨hne, -⟩
  · rw [heq, recalc_signals, removeConsumer, hc]
    simp [TxConsumer.drop, hconn]
  · exact absurd ht (hne c hc)

theorem lookup_updateStakeWeights (w : HashMap String UInt64) :
    (b.updateStakeWeights w).txConsumers.lookup i =
      (b.txConsumers.lookup i).map fun c => { c with stake := (w.lookup i).getD 1 } := by
  rw [updateStakeWeights, mapConsumers, AList.lookup_mapValues]

theorem lookup_flagUnsubscribe :
    (b.flagUnsubscribe identity).txConsumers.lookup i =
      (b.txConsumers.lookup i).map fun c =>
        if i = identity then { c with doUnsubscribe := true } else c := by
  rw [flagUnsubscribe, mapConsumers, AList.lookup_mapValues]

-- an entry is flagged once its identity is among those flagged, and stays flagged if it was
theorem lookup_foldl_flagUnsubscribe (identities : List String) :
    (identities.foldl flagUnsubscribe b).txConsumers.lookup i =
      (b.txConsumers.lookup i).map fun c =>
        { c with doUnsubscribe := c.doUnsubscribe || decide (i ∈ identities) } := by
  induction identities generalizing b with
  | nil => cases h : b.txConsumers.lookup i <;> simp [h]
  | cons identity rest ih =>
    rw [List.foldl_cons, ih, lookup_flagUnsubscribe, Option.map_map]
    congr 1
    funext c
    by_cases hi : i = identity <;> simp [hi]

-- the only field that changes
theorem updateRtt_eq_ok {value : Rtt} {b' : Balancer} (h : b.updateRtt identity value = .ok b') :
    ∃ rttValues, b' = { b with rttValues } := by
  simp only [updateRtt] at h
  split at h
  · simp at h
  · exact ⟨_, (Except.ok.inj h).symm⟩

end Lookup

/-! ## What a recomputation writes to the gauges -/

section Gauges

variable (b : Balancer) (i identity token : String)

/-- The series of the connected identities are written, the others stay as they are. -/
theorem lookup_recalc_series :
    b.recalcTotalConnectedStake.gauges.totalConnectedStake.lookup i =
      match b.txConsumers.lookup i with
      | some c => some c.stake.toInt64
      | none => b.gauges.totalConnectedStake.lookup i := by
  -- consumers are filed under their identity, so this is a loop over the pairs of the table
  have hfold : b.recalcTotalConnectedStake.gauges.totalConnectedStake =
      (b.txConsumers.toPairs.map fun e => (e.1, e.2.stake.toInt64)).foldl
        (fun series e => series.insert e.1 e.2) b.gauges.totalConnectedStake := by
    simp only [recalcTotalConnectedStake]
    rw [← AList.map_snd_toPairs, List.foldl_map, List.foldl_map]
    refine List.foldl_ext _ _ _ fun series e he => ?_
    rw [b.keyed e.1 e.2 (AList.mem_toPairs.mp he)]
  rw [hfold]
  cases hc : b.txConsumers.lookup i with
  | none =>
    refine AList.lookup_foldl_insert_of_notMem _ _ ?_
    simp [AList.mem_toPairs, hc]
  | some c =>
    have hmem : (i, c.stake.toInt64) ∈ b.txConsumers.toPairs.map fun e => (e.1, e.2.stake.toInt64) :=
      List.mem_map_of_mem (f := fun e => (e.1, e.2.stake.toInt64)) (AList.mem_toPairs.mpr hc)
    refine AList.lookup_foldl_insert_of_mem hmem ?_ _
    simp [AList.mem_toPairs, hc]

end Gauges

/-! ## Flushing -/

section Flush

variable {b : Balancer} {i : String} {c : TxConsumer} {conn : ConnId}

-- removing by identity and token, over a whole list of them
theorem lookup_foldl_unsubscribe (b : Balancer) (entries : List (String × String)) (i : String) :
    (entries.foldl (fun b entry => b.unsubscribe entry.1 entry.2) b).txConsumers.lookup i =
      (b.txConsumers.lookup i).filter fun c => (i, c.token) ∉ entries := by
  induction entries generalizing b with
  | nil => cases h : b.txConsumers.lookup i <;> simp [h, Option.filter_some]
  | cons entry entries ih =>
    rw [List.foldl_cons, ih, lookup_unsubscribe, Option.filter_filter]
    congr 1
    funext c
    simp only [List.mem_cons, not_or, Prod.ext_iff, Bool.decide_and]

theorem signals_subset_foldl (b : Balancer) (entries : List (String × String)) :
    b.signals ⊆ (entries.foldl (fun b entry => b.unsubscribe entry.1 entry.2) b).signals := by
  refine List.foldlRecOn (motive := fun b' : Balancer => b.signals ⊆ b'.signals) entries _
    (List.Subset.refl _) ?_
  intro b' h entry _
  exact List.Subset.trans h (b'.signals_subset_unsubscribe entry.1 entry.2)

theorem mem_signals_foldl {entries : List (String × String)}
    (hc : b.txConsumers.lookup i = some c) (hconn : c.txUnsubscribe = some conn)
    (hmem : (i, c.token) ∈ entries) :
    conn ∈ (entries.foldl (fun b entry => b.unsubscribe entry.1 entry.2) b).signals := by
  induction entries generalizing b with
  | nil => simp at hmem
  | cons entry entries ih =>
    rw [List.foldl_cons]
    -- this very entry is removed now, or it survives to the rest of the list
    by_cases hentry : (i, c.token) = entry
    · subst hentry
      exact signals_subset_foldl _ _ (b.mem_signals_unsubscribe _ _ hc rfl hconn)
    · refine ih ?_ ((List.mem_cons.mp hmem).resolve_left hentry)
      rw [lookup_unsubscribe, hc, Option.filter_some_pos]
      simp only [decide_eq_true_eq]
      rintro ⟨hi, ht⟩
      exact hentry (Prod.ext hi ht)

theorem mem_flagged (o : HashOrder (String × TxConsumer)) (hc : b.txConsumers.lookup i = some c) :
    (i, c.token) ∈ (b.txConsumers.iter o).filterMap (fun e =>
      if e.2.doUnsubscribe then some (e.2.identity, e.2.token) else none) ↔ c.doUnsubscribe := by
  simp only [List.mem_filterMap, Prod.exists, AList.mem_iter, Option.ite_none_right_eq_some,
    Option.some.injEq, Prod.mk.injEq]
  constructor
  · rintro ⟨j, d, hd, hflag, hid, -⟩
    -- entries are filed under their identity, so the flagged one is `c` itself
    obtain rfl : j = i := (b.keyed j d hd).symm.trans hid
    rw [hc] at hd
    exact Option.some.inj hd ▸ hflag
  · intro hflag
    exact ⟨i, c, hc, hflag, b.keyed i c hc, rfl⟩

theorem lookup_flushUnsubscribes (b : Balancer) (o : HashOrder (String × TxConsumer)) (i : String) :
    (b.flushUnsubscribes o).txConsumers.lookup i =
      (b.txConsumers.lookup i).filter fun c => !c.doUnsubscribe := by
  rw [flushUnsubscribes, lookup_foldl_unsubscribe]
  cases hc : b.txConsumers.lookup i with
  | none => rfl
  | some c =>
    simp only [Option.filter_some, b.mem_flagged o hc]
    cases c.doUnsubscribe <;> rfl

theorem mem_signals_flushUnsubscribes (o : HashOrder (String × TxConsumer))
    (hc : b.txConsumers.lookup i = some c) (hconn : c.txUnsubscribe = some conn)
    (hflag : c.doUnsubscribe) : conn ∈ (b.flushUnsubscribes o).signals :=
  mem_signals_foldl hc hconn ((mem_flagged o hc).mpr hflag)

theorem signals_subset_flushUnsubscribes (b : Balancer) (o : HashOrder (String × TxConsumer)) :
    b.signals ⊆ (b.flushUnsubscribes o).signals :=
  signals_subset_foldl _ _

end Flush

end Balancer

end Mtransaction
