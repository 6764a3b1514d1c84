import Mtransaction.Server.LeaderPipeline

/-!
# From the slot to the leader fields

The last set sent is the last one computed, and the leader fields of the balancer are what the
last reception found of its set in the table, whatever the order of slots, refreshes and
receptions.
-/

namespace Mtransaction

open Runs

/-- The elements of the last set of a list, none where the list is empty. -/
def lastSet (sets : List (HashSet String)) : Finset String :=
  (sets.getLast?.map HashSet.toFinset).getD ∅

@[simp] theorem lastSet_nil : lastSet [] = ∅ := rfl

@[simp] theorem lastSet_concat (sets : List (HashSet String)) (set : HashSet String) :
    lastSet (sets ++ [set]) = set.toFinset := by
  simp [lastSet]

/-! ## The sets computed and sent -/

namespace LeadersStream

variable {st st' : LeadersStream} {event : StreamEvent} {sets : List (HashSet String)}

/-- The set computed when the loop handles a notification. -/
def computed (st : LeadersStream) : StreamEvent → Option (HashSet String)
  | .slot slot =>
    match st.task with
    | .running schedule _ => some (currentLeaders schedule slot)
    | _ => none
  | _ => none

theorem length_currentLeaders_le (schedule : HashMap ℕ String) (slot : ℕ) :
    (currentLeaders schedule slot).elems.length ≤ nLeaders := by
  calc (currentLeaders schedule slot).elems.length
      ≤ ((List.range nLeaders).filterMap fun nthLeader =>
          schedule.lookup (nthLeader * 4 + slot % slotsPerEpoch)).length :=
        (List.dedup_sublist _).length_le
    _ ≤ (List.range nLeaders).length := List.length_filterMap_le _ _
    _ = nLeaders := List.length_range

/-- A step computes nothing and sends nothing, or computes a set and sends it if it is new. -/
theorem step_cases (h : st.step event = .ok st') :
    (st.computed event = none ∧ st'.sent = st.sent ∧
      (st'.task = st.task ∨ st.task = .subscribing ∧ st'.task = .running ∅ ∅ ∨
        st'.task = .ended ∨ ∃ schedule schedule' lastLeaders,
          st.task = .running schedule lastLeaders ∧ st'.task = .running schedule' lastLeaders)) ∨
    ∃ schedule lastLeaders set, st.task = .running schedule lastLeaders ∧
      st.computed event = some set ∧ set.elems.length ≤ nLeaders ∧
      (set.toFinset = lastLeaders.toFinset ∧ st' = st ∨
        set.toFinset ≠ lastLeaders.toFinset ∧
          st' = ⟨.running schedule set, st.sent ++ [set]⟩) := by
  cases event with
  | subscribed ok =>
    left
    simp only [LeadersStream.step] at h
    split at h <;> obtain rfl := Except.ok.inj h
    next htask => cases ok <;> simp [computed, htask]
    next => exact ⟨rfl, rfl, .inl rfl⟩
  | refresh o answer =>
    left
    simp only [LeadersStream.step] at h
    split at h
    next schedule lastLeaders htask =>
      split at h
      · simp at h
      · obtain rfl := Except.ok.inj h
        exact ⟨rfl, rfl, .inr (.inr (.inl rfl))⟩
      next schedule' _ =>
        obtain rfl := Except.ok.inj h
        exact ⟨rfl, rfl, .inr (.inr (.inr ⟨schedule, schedule', lastLeaders, htask, rfl⟩))⟩
    next =>
      obtain rfl := Except.ok.inj h
      exact ⟨rfl, rfl, .inl rfl⟩
  | slot slot =>
    simp only [LeadersStream.step] at h
    split at h
    next schedule lastLeaders htask =>
      right
      refine ⟨schedule, lastLeaders, _, htask, by simp only [computed, htask],
        length_currentLeaders_le schedule slot, ?_⟩
      split at h <;> obtain rfl := Except.ok.inj h
      next hsame => exact .inl ⟨hsame, rfl⟩
      next hdiff => exact .inr ⟨hdiff, rfl⟩
    next hnot =>
      obtain rfl := Except.ok.inj h
      exact .inl ⟨by simp only [computed], rfl, .inl rfl⟩

-- only a refresh panics, and it computes nothing
theorem computed_of_step_error {panic : Panic} (h : st.step event = .error panic) :
    st.computed event = none := by
  cases event with
  | slot slot =>
    simp only [LeadersStream.step] at h
    split at h
    · split at h <;> simp at h
    · simp at h
  | _ => rfl

/-- The channel against the sets computed so far. -/
structure Sent (st : LeadersStream) (sets : List (HashSet String)) : Prop where
  last : lastSet st.sent = lastSet sets
  running : ∀ schedule lastLeaders, st.task = .running schedule lastLeaders →
    lastLeaders.toFinset = lastSet st.sent
  subscribing : st.task = .subscribing → st.sent = []
  differ : st.sent.IsChain fun set next => next.toFinset ≠ set.toFinset
  bound : ∀ set ∈ st.sent, set.elems.length ≤ nLeaders

theorem Sent.new : Sent .new [] where
  last := rfl
  running _ _ h := by simp [LeadersStream.new] at h
  subscribing _ := rfl
  differ := .nil
  bound := by simp [LeadersStream.new]

-- a round that computes nothing sends nothing
theorem Sent.of_same (h : Sent st sets) (hsent : st'.sent = st.sent)
    (hrun : ∀ schedule lastLeaders, st'.task = .running schedule lastLeaders →
      lastLeaders.toFinset = lastSet st.sent)
    (hsub : st'.task = .subscribing → st.task = .subscribing) : Sent st' sets where
  last := hsent ▸ h.last
  running := hsent ▸ hrun
  subscribing hs := hsent ▸ h.subscribing (hsub hs)
  differ := hsent ▸ h.differ
  bound := hsent ▸ h.bound

theorem Sent.send {schedule : HashMap ℕ String} {set : HashSet String} (h : Sent st sets)
    (hset : set.toFinset ≠ lastSet st.sent) (hbound : set.elems.length ≤ nLeaders) :
    Sent ⟨.running schedule set, st.sent ++ [set]⟩ (sets ++ [set]) where
  last := by simp
  running _ _ htask := by
    obtain ⟨-, rfl⟩ := LeadersTask.running.inj htask
    simp
  subscribing htask := by simp at htask
  differ := by
    refine List.isChain_append.mpr ⟨h.differ, .singleton _, ?_⟩
    intro prev hprev next hnext
    obtain rfl := Option.some.inj hnext
    simpa [lastSet, Option.mem_def.mp hprev] using hset
  bound := by
    intro x hx
    rcases List.mem_append.mp hx with hx | hx
    · exact h.bound x hx
    · exact List.mem_singleton.mp hx ▸ hbound

theorem Sent.step (h : Sent st sets) (hstep : st.step event = .ok st') :
    Sent st' (sets ++ (st.computed event).toList) := by
  rcases step_cases hstep with
    ⟨hnone, hsent, htask⟩ | ⟨schedule, lastLeaders, set, htask, hset, hbound, hcases⟩
  · rw [hnone, Option.toList_none, List.append_nil]
    refine h.of_same hsent (fun schedule lastLeaders hrun => ?_) fun hsub => ?_
    · -- a task that has just subscribed has sent nothing, a refresh keeps the last leaders
      rcases htask with hsame | ⟨hold, hnew⟩ | hend | ⟨_, _, _, hold, hnew⟩
      · exact h.running _ _ (hsame ▸ hrun)
      · obtain ⟨-, rfl⟩ := LeadersTask.running.inj (hnew.symm.trans hrun)
        rw [h.subscribing hold]
        rfl
      · simp [hend] at hrun
      · obtain ⟨-, rfl⟩ := LeadersTask.running.inj (hnew.symm.trans hrun)
        exact h.running _ _ hold
    · rcases htask with hsame | ⟨hold, -⟩ | hend | ⟨_, _, _, -, hnew⟩
      · exact hsame ▸ hsub
      · exact hold
      · simp [hend] at hsub
      · simp [hnew] at hsub
  · rw [hset, Option.toList_some]
    have hlast := h.running _ _ htask
    rcases hcases with ⟨hsame, rfl⟩ | ⟨hdiff, rfl⟩
    · refine ⟨?_, h.running, h.subscribing, h.differ, h.bound⟩
      rw [lastSet_concat, hsame, hlast]
    · exact h.send (hlast ▸ hdiff) hbound

-- nothing sent is taken back
theorem sent_of_step (h : st.step event = .ok st') : st.sent <+: st'.sent := by
  rcases step_cases h with ⟨-, hsent, -⟩ | ⟨schedule, lastLeaders, set, -, -, -, hcases⟩
  · rw [hsent]
  · rcases hcases with ⟨-, rfl⟩ | ⟨-, rfl⟩
    · exact List.prefix_refl _
    · exact List.prefix_append _ _

end LeadersStream

/-! ## The table and one reception -/

section Table

variable {pubkeyFromStr : String → Option Pubkey} {infoMap : HashMap String LeaderInfo}

/-- Every record is filed under its own identity. -/
def Filed (infoMap : HashMap String LeaderInfo) : Prop :=
  ∀ identity info, infoMap.lookup identity = some info → info.identity = identity

theorem filed_mergeValidatorRecords (tpus : HashMap String String)
    (validatorRecords : HashMap String ValidatorRecord) (jitoIdentities : HashSet String) :
    Filed (mergeValidatorRecords tpus validatorRecords jitoIdentities) := by
  refine List.foldlRecOn (motive := Filed) tpus.toPairs _ (fun _ _ h => by simp at h) ?_
  intro result hresult e _ identity info hinfo
  split at hinfo
  next record _ =>
    rw [AList.lookup_insert_eq_ite] at hinfo
    split at hinfo
    next heq => rw [← Option.some.inj hinfo, heq]
    next => exact hresult identity info hinfo
  next => exact hresult identity info hinfo

theorem filed_getLeaderInfo {nodes : Except String (List (String × Option String))}
    {validators : Except String (List ValidatorRecord)}
    {jito : Except String (List (String × Bool))}
    (h : getLeaderInfo nodes validators jito = .ok infoMap) : Filed infoMap := by
  unfold getLeaderInfo at h
  split at h
  · simp at h
  · split at h
    · simp at h
    · split at h
      · simp at h
      · obtain rfl := Except.ok.inj h
        exact filed_mergeValidatorRecords _ _ _

theorem identity_of_lookupInfo {contactInfo : Pubkey → Option String} {identity : String}
    {info : LeaderInfo} (hfiled : Filed infoMap)
    (h : lookupInfo pubkeyFromStr contactInfo infoMap identity = .ok (some info)) :
    info.identity = identity := by
  unfold lookupInfo at h
  split at h
  · simp at h
  next record hrecord =>
    split at h
    · simp at h
    · split at h <;> rw [← Option.some.inj (Except.ok.inj h)] <;>
        exact hfiled identity record hrecord

namespace Balancer

variable {b b' : Balancer} {env : ReceiveEnv} {plainLeaders : HashSet String}

/-- The leader fields a reception leaves: the records of the table for the identities received. -/
theorem receiveLeaders_leaders
    (h : b.receiveLeaders pubkeyFromStr infoMap env plainLeaders = .ok b') :
    ∃ leaders, lookupLeaders pubkeyFromStr env.contactInfo infoMap
      (env.leaderOrder.arrange plainLeaders.elems) = .ok leaders ∧
        b'.leaders = AList.collect leaders := by
  unfold receiveLeaders at h
  split at h
  · simp at h
  next leaders hleaders =>
    obtain rfl := Except.ok.inj h
    exact ⟨leaders, hleaders, (sameLeaders_flushUnsubscribes _ _).1⟩

theorem receiveLeaders_filed (hfiled : Filed infoMap)
    (h : b.receiveLeaders pubkeyFromStr infoMap env plainLeaders = .ok b') :
    Filed b'.leaders := by
  obtain ⟨leaders, hleaders, heq⟩ := receiveLeaders_leaders h
  intro identity info hinfo
  rw [heq] at hinfo
  exact identity_of_lookupInfo hfiled
    (mem_lookupLeaders hleaders (AList.mem_of_lookup_collect hinfo)).2

theorem receiveLeaders_keys
    (h : b.receiveLeaders pubkeyFromStr infoMap env plainLeaders = .ok b') :
    b'.leaders.keys.Perm
      (plainLeaders.elems.filter fun identity => (infoMap.lookup identity).isSome) := by
  obtain ⟨leaders, hleaders, heq⟩ := receiveLeaders_leaders h
  have hfst := map_fst_lookupLeaders hleaders
  have hperm := (env.leaderOrder.perm plainLeaders.elems).filter fun identity =>
    (infoMap.lookup identity).isSome
  rw [heq]
  refine List.Perm.trans ?_ hperm
  rw [← hfst]
  -- no identity comes twice, so each pair collected keeps its key
  have hnodup : (leaders.map Prod.fst).Nodup := by
    rw [hfst]
    exact hperm.nodup_iff.mpr (plainLeaders.nodup.filter _)
  refine (List.perm_ext_iff_of_nodup (AList.collect leaders).keys_nodup hnodup).mpr fun k => ?_
  rw [← AList.mem_keys, ← AList.lookup_isSome, Option.isSome_iff_exists]
  simp only [AList.lookup_collect_eq_some_iff hnodup, List.mem_map, Prod.exists, exists_and_right,
    exists_eq_right]

end Balancer

end Table

/-! ## The pipeline -/

namespace Server

variable {pubkeyFromStr : String → Option Pubkey} {s t : Server} {event : ServerEvent}
  {tr : List (Server × ServerEvent)}

/-- The set computed in a step. -/
def computed (x : Server × ServerEvent) : Option (HashSet String) :=
  match x.1.exited, x.2 with
  | none, .stream event => x.1.stream.computed event
  | _, _ => none

/-- The set a step takes off the channel and sets in the balancer, and the table at that moment. -/
def reception (pubkeyFromStr : String → Option Pubkey) (x : Server × ServerEvent) :
    Option (HashSet String × HashMap String LeaderInfo) :=
  match x.1.exited, x.2, x.1.stream.sent[x.1.received]? with
  | none, .receive env, some plainLeaders =>
    match x.1.balancer.receiveLeaders pubkeyFromStr x.1.infoMap env plainLeaders with
    | .ok _ => some (plainLeaders, x.1.infoMap)
    | .error _ => none
  | _, _, _ => none

/-- The pipeline at the end of a run. -/
structure Coherent (pubkeyFromStr : String → Option Pubkey) (tr : List (Server × ServerEvent))
    (s : Server) : Prop where
  /-- the last set sent is the last one computed -/
  sent : lastSet s.stream.sent = lastSet (tr.filterMap computed)
  differ : s.stream.sent.IsChain fun set next => next.toFinset ≠ set.toFinset
  /-- sets are received in the order they were sent -/
  received : (tr.filterMap (reception pubkeyFromStr)).map Prod.fst =
    s.stream.sent.take s.received
  aligned : s.balancer.leaderTpus.Perm s.balancer.leaders.values
  identity : ∀ k info, s.balancer.leaders.lookup k = some info → info.identity = k
  /-- the leaders are those of the last set received that the table had then -/
  keys : ∀ k, k ∈ s.balancer.leaders ↔ ∃ plainLeaders infoMap,
    (tr.filterMap (reception pubkeyFromStr)).getLast? = some (plainLeaders, infoMap) ∧
      k ∈ plainLeaders.toFinset ∧ k ∈ infoMap
  bound : s.balancer.leaders.keys.length ≤ nLeaders
  /-- a failed refresh changes nothing -/
  failed : ∀ nodes validators jito err, getLeaderInfo nodes validators jito = .error err →
    (step pubkeyFromStr s (.nodes nodes validators jito)).infoMap = s.infoMap ∧
      (step pubkeyFromStr s (.nodes nodes validators jito)).balancer = s.balancer

/-! ### The channel -/

theorem sent_step {sets : List (HashSet String)} (h : s.stream.Sent sets) :
    (step pubkeyFromStr s event).stream.Sent (sets ++ (computed (s, event)).toList) := by
  unfold step
  cases hexit : s.exited with
  | some panic => simpa [computed, hexit] using h
  | none =>
    cases event with
    | stream event =>
      simp only [computed, hexit]
      split
      next stream hstream => exact h.step hstream
      next panic hpanic =>
        simpa [LeadersStream.computed_of_step_error hpanic] using h
    | nodes nodes validators jito =>
      dsimp only
      split <;> simpa [computed, hexit] using h
    | receive env =>
      dsimp only
      split <;> (try split) <;> simpa [computed, hexit] using h
    | op op =>
      dsimp only
      split <;> simpa [computed, hexit] using h

theorem sent_of_run (h : Run (StepsBy (step pubkeyFromStr)) new tr s) :
    s.stream.Sent (tr.filterMap computed) := by
  induction h with
  | nil => exact .new
  | @snoc s t tr event hr hs ih =>
    rw [filterMap_concat, ← hs]
    exact sent_step ih

/-! ### The leader fields -/

/-- The updater's side against the receptions so far. -/
structure Received (receptions : List (HashSet String × HashMap String LeaderInfo)) (s : Server) :
    Prop where
  filed : Filed s.infoMap
  le : s.received ≤ s.stream.sent.length
  taken : receptions.map Prod.fst = s.stream.sent.take s.received
  identity : Filed s.balancer.leaders
  keys : ∀ k, k ∈ s.balancer.leaders ↔ ∃ plainLeaders infoMap,
    receptions.getLast? = some (plainLeaders, infoMap) ∧ k ∈ plainLeaders.toFinset ∧ k ∈ infoMap
  bound : s.balancer.leaders.keys.length ≤ nLeaders

variable {receptions : List (HashSet String × HashMap String LeaderInfo)}

theorem Received.of_same (h : Received receptions s) (hsent : s.stream.sent <+: t.stream.sent)
    (hreceived : t.received = s.received) (hfiled : Filed t.infoMap)
    (hleaders : t.balancer.leaders = s.balancer.leaders) : Received receptions t where
  filed := hfiled
  le := hreceived ▸ h.le.trans hsent.length_le
  taken := by
    obtain ⟨later, hlater⟩ := hsent
    rw [h.taken, hreceived, ← hlater, List.take_append_of_le_length h.le]
  identity := hleaders ▸ h.identity
  keys := hleaders ▸ h.keys
  bound := hleaders ▸ h.bound

theorem Received.receive {b : Balancer} {env : ReceiveEnv} {plainLeaders : HashSet String}
    (h : Received receptions s) (hset : s.stream.sent[s.received]? = some plainLeaders)
    (hlen : plainLeaders.elems.length ≤ nLeaders)
    (hb : s.balancer.receiveLeaders pubkeyFromStr s.infoMap env plainLeaders = .ok b) :
    Received (receptions ++ [(plainLeaders, s.infoMap)])
      { s with balancer := b, received := s.received + 1 } where
  filed := h.filed
  le := (List.getElem?_eq_some_iff.mp hset).1
  taken := by
    rw [List.map_append, h.taken, List.take_add_one, hset]
    rfl
  identity := Balancer.receiveLeaders_filed h.filed hb
  keys k := by
    have hkeys := (Balancer.receiveLeaders_keys hb).mem_iff (a := k)
    rw [← AList.mem_keys] at hkeys
    simp [hkeys, AList.lookup_isSome]
  bound := by
    rw [(Balancer.receiveLeaders_keys hb).length_eq]
    exact (List.length_filter_le _ _).trans hlen

theorem received_step (h : Received receptions s)
    (hlen : ∀ set ∈ s.stream.sent, set.elems.length ≤ nLeaders) :
    Received (receptions ++ (reception pubkeyFromStr (s, event)).toList)
      (step pubkeyFromStr s event) := by
  unfold step
  cases hexit : s.exited with
  | some panic => simpa [reception, hexit] using h
  | none =>
    cases event with
    | stream event =>
      simp only [reception, hexit, Option.toList_none, List.append_nil]
      split
      next stream hstream =>
        exact h.of_same (LeadersStream.sent_of_step hstream) rfl h.filed rfl
      next => exact h.of_same (List.prefix_refl _) rfl h.filed rfl
    | nodes nodes validators jito =>
      simp only [reception, hexit, Option.toList_none, List.append_nil]
      split
      next infoMap hinfo => exact h.of_same (List.prefix_refl _) rfl (filed_getLeaderInfo hinfo) rfl
      next => exact h
    | receive env =>
      cases hset : s.stream.sent[s.received]? with
      | none => simpa [reception, hexit, hset] using h
      | some plainLeaders =>
        cases hb : s.balancer.receiveLeaders pubkeyFromStr s.infoMap env plainLeaders with
        | ok b =>
          simp only [reception, hexit, hset, hb, Option.toList_some]
          exact hexit ▸ h.receive hset (hlen _ (List.mem_of_getElem? hset)) hb
        | error panic =>
          simp only [reception, hexit, hset, hb, Option.toList_none, List.append_nil]
          exact h.of_same (List.prefix_refl _) rfl h.filed rfl
    | op op =>
      simp only [reception, hexit, Option.toList_none, List.append_nil]
      split
      next b hb =>
        exact h.of_same (List.prefix_refl _) rfl h.filed (Balancer.step_sameLeaders hb).1
      next => exact h.of_same (List.prefix_refl _) rfl h.filed rfl

theorem received_of_run (h : Run (StepsBy (step pubkeyFromStr)) new tr s) :
    Received (tr.filterMap (reception pubkeyFromStr)) s := by
  induction h with
  | nil =>
    exact ⟨fun _ _ hk => by simp [new] at hk, by simp [new], by simp [new],
      fun _ _ hk => by simp [new, Balancer.new] at hk, by simp [new, Balancer.new],
      by simp [new, Balancer.new, AList.keys, List.keys]⟩
  | @snoc s t tr event hr hs ih =>
    rw [filterMap_concat, ← hs]
    exact received_step ih (sent_of_run hr).bound

theorem step_failed_nodes {nodes : Except String (List (String × Option String))}
    {validators : Except String (List ValidatorRecord)}
    {jito : Except String (List (String × Bool))}
    {err : String} (h : getLeaderInfo nodes validators jito = .error err) :
    step pubkeyFromStr s (.nodes nodes validators jito) = s := by
  unfold step
  split
  · rfl
  · simp only [h]

/-- Whatever the order of notifications, refreshes, receptions and client operations. -/
theorem coherent_of_run (h : Run (StepsBy (step pubkeyFromStr)) new tr s) :
    Coherent pubkeyFromStr tr s := by
  have hsent := sent_of_run h
  have hreceived := received_of_run h
  refine ⟨hsent.last, hsent.differ, hreceived.taken, leadersAligned_of_reachable ⟨tr, h⟩,
    hreceived.identity, hreceived.keys, hreceived.bound, ?_⟩
  intro nodes validators jito err herr
  rw [step_failed_nodes herr]
  exact ⟨rfl, rfl⟩

/-- A run in which the validator is computed, sent, received and set. -/
theorem lone_coherent : ∃ tr s, Run (StepsBy (step lonePubkeyFromStr)) new tr s ∧
    s.balancer = loneBalancer ∧ Coherent lonePubkeyFromStr tr s := by
  obtain ⟨s, ⟨tr, hrun⟩, hb⟩ := exists_reachable_lone
  exact ⟨tr, s, hrun, hb, coherent_of_run hrun⟩

end Server

end Mtransaction
