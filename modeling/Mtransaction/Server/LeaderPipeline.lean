import Mtransaction.Server.BalancerUpdater

/-!
# What holds of the leader pipeline at every moment

The two leader fields of the balancer agree, which settles when `pick_consumers` can be called
safely; and the task that tracks leaders survives exactly the runs without a failed refresh.
-/

namespace Mtransaction

open Runs

/-! ## What a reception looks up -/

section Lookup

variable {pubkeyFromStr : String → Option Pubkey} {contactInfo : Pubkey → Option String}
  {infoMap : HashMap String LeaderInfo} {identity : String} {info : LeaderInfo}
  {identities : List String} {leaders : List (String × LeaderInfo)}

theorem mem_lookupLeaders
    (h : lookupLeaders pubkeyFromStr contactInfo infoMap identities = .ok leaders)
    (hmem : (identity, info) ∈ leaders) :
    identity ∈ identities ∧
      lookupInfo pubkeyFromStr contactInfo infoMap identity = .ok (some info) := by
  induction identities generalizing leaders with
  | nil =>
    obtain rfl := Except.ok.inj h
    simp at hmem
  | cons first rest ih =>
    rw [lookupLeaders] at h
    split at h
    · simp at h
    next found hfound =>
      split at h
      · simp at h
      next others hothers =>
        have hrest (hin : (identity, info) ∈ others) : identity ∈ first :: rest ∧
            lookupInfo pubkeyFromStr contactInfo infoMap identity = .ok (some info) := by
          obtain ⟨hid, hlook⟩ := ih hothers hin
          exact ⟨List.mem_cons_of_mem _ hid, hlook⟩
        split at h
        next value =>
          obtain rfl := Except.ok.inj h
          rcases List.mem_cons.mp hmem with heq | hin
          · obtain ⟨rfl, rfl⟩ := Prod.mk.inj heq
            exact ⟨List.mem_cons_self, hfound⟩
          · exact hrest hin
        next =>
          obtain rfl := Except.ok.inj h
          exact hrest hmem

-- gossip changes the address of a record, not whether there is one
theorem isSome_of_lookupInfo {found : Option LeaderInfo}
    (h : lookupInfo pubkeyFromStr contactInfo infoMap identity = .ok found) :
    found.isSome = (infoMap.lookup identity).isSome := by
  unfold lookupInfo at h
  split at h
  next hnone =>
    obtain rfl := Except.ok.inj h
    rw [hnone]
  next record hrecord =>
    split at h
    · simp at h
    · rw [hrecord]
      split at h <;> exact Except.ok.inj h ▸ rfl

/-- The identities found are those of the table, in the order they came. -/
theorem map_fst_lookupLeaders
    (h : lookupLeaders pubkeyFromStr contactInfo infoMap identities = .ok leaders) :
    leaders.map Prod.fst = identities.filter fun identity => (infoMap.lookup identity).isSome := by
  induction identities generalizing leaders with
  | nil =>
    obtain rfl := Except.ok.inj h
    rfl
  | cons first rest ih =>
    rw [lookupLeaders] at h
    split at h
    · simp at h
    next found hfound =>
      have hin : found.isSome = (infoMap.lookup first).isSome := isSome_of_lookupInfo hfound
      split at h
      · simp at h
      next others hothers =>
        rw [List.filter_cons, ← hin, ← ih hothers]
        split at h
        · obtain rfl := Except.ok.inj h
          simp
        · obtain rfl := Except.ok.inj h
          simp

end Lookup

/-! ## The leader fields -/

namespace Balancer

def SameLeaders (b b' : Balancer) : Prop :=
  b'.leaders = b.leaders ∧ b'.leaderTpus = b.leaderTpus

theorem SameTables.sameLeaders {b b' : Balancer} (h : SameTables b b') : SameLeaders b b' :=
  ⟨h.leaders, h.leaderTpus⟩

-- nothing but a reception sets leaders
theorem sameLeaders_flushUnsubscribes (b : Balancer) (o : HashOrder (String × TxConsumer)) :
    SameLeaders b (b.flushUnsubscribes o) :=
  (b.sameTables_flushUnsubscribes o).sameLeaders

theorem step_sameLeaders {b b' : Balancer} {op : ClientOp} (h : b.step op.toBalancerOp = .ok b') :
    SameLeaders b b' := by
  rcases step_sameTables h with
    ⟨w, hop⟩ | ⟨leaderTpus, leaders, hop⟩ | ⟨identity, value, hop⟩ | htables
  · rw [hop] at h
    obtain rfl := Except.ok.inj h
    exact ⟨rfl, rfl⟩
  · -- no client task does this
    cases op <;> simp [ClientOp.toBalancerOp] at hop
  · rw [hop] at h
    obtain ⟨rttValues, rfl⟩ := b.updateRtt_eq_ok identity h
    exact ⟨rfl, rfl⟩
  · exact htables.sameLeaders

/-- The TPUs to spread are those of the leaders, each once. -/
def LeadersAligned (b : Balancer) : Prop := b.leaderTpus.Perm b.leaders.values

theorem LeadersAligned.of_same {b b' : Balancer} (hb : b.LeadersAligned) (h : SameLeaders b b') :
    b'.LeadersAligned := by
  rw [LeadersAligned, h.1, h.2]
  exact hb

theorem receiveLeaders_aligned {pubkeyFromStr : String → Option Pubkey} {b b' : Balancer}
    {infoMap : HashMap String LeaderInfo} {env : ReceiveEnv} {plainLeaders : HashSet String}
    (h : b.receiveLeaders pubkeyFromStr infoMap env plainLeaders = .ok b') : b'.LeadersAligned := by
  unfold receiveLeaders at h
  split at h
  · simp at h
  next leaders _ =>
    obtain rfl := Except.ok.inj h
    refine LeadersAligned.of_same ?_ (sameLeaders_flushUnsubscribes _ _)
    rw [LeadersAligned]
    simp only [setLeaders]
    rw [← AList.map_snd_toPairs]
    exact (AList.iter_perm _ _).map _

/-- Connected leaders are filed under different identities, all of them leaders'. -/
theorem LeadersAligned.connectedLeaders_le {b : Balancer} (h : b.LeadersAligned) :
    b.connectedLeaders ≤ b.leaderTpus.length := by
  have hlen : b.leaderTpus.length = b.leaders.keys.length := by
    rw [h.length_eq]
    simp [AList.values, AList.keys, List.keys]
  -- identities of connected leaders, without repetition, are keys of the leader map
  have hsub : ((b.txConsumers.toPairs.filter fun e =>
      (b.leaders.lookup e.1).isSome).map Prod.fst).Subperm b.leaders.keys := by
    refine List.Nodup.subperm ?_ ?_
    · exact b.txConsumers.nodup_fst_toPairs.sublist (List.filter_sublist.map _)
    · intro i hi
      obtain ⟨e, he, rfl⟩ := List.mem_map.mp hi
      exact AList.lookup_isSome.mp (List.mem_filter.mp he).2
  have hcount := hsub.length_le
  rwa [List.length_map, ← List.countP_eq_length_filter, ← hlen] at hcount

end Balancer

namespace Server

variable {pubkeyFromStr : String → Option Pubkey} {s : Server}

/-- The balancer changes only by an operation of a client task or by a reception. -/
theorem step_balancer (pubkeyFromStr : String → Option Pubkey) (s : Server) (event : ServerEvent) :
    (step pubkeyFromStr s event).balancer = s.balancer ∨
      (∃ op, s.balancer.step (ClientOp.toBalancerOp op) =
        .ok (step pubkeyFromStr s event).balancer) ∨
      ∃ env plainLeaders, s.balancer.receiveLeaders pubkeyFromStr s.infoMap env plainLeaders =
        .ok (step pubkeyFromStr s event).balancer := by
  unfold step
  cases s.exited with
  | some _ => exact .inl rfl
  | none =>
    cases event with
    | stream event => dsimp only; split <;> exact .inl rfl
    | nodes nodes validators jito => dsimp only; split <;> exact .inl rfl
    | receive env =>
      dsimp only
      split
      next plainLeaders _ =>
        split
        next balancer hb => exact .inr (.inr ⟨env, plainLeaders, hb⟩)
        next => exact .inl rfl
      next => exact .inl rfl
    | op op =>
      dsimp only
      split
      next balancer hb => exact .inr (.inl ⟨op, hb⟩)
      next => exact .inl rfl

theorem leadersAligned_of_reachable (h : Reachable (StepsBy (step pubkeyFromStr)) new s) :
    s.balancer.LeadersAligned := by
  refine h.invariant (P := fun s => s.balancer.LeadersAligned) (List.Perm.refl _) ?_
  rintro t event u ht rfl
  rcases step_balancer pubkeyFromStr t event with heq | ⟨op, hop⟩ | ⟨env, plain, hrec⟩
  · rwa [heq]
  · exact ht.of_same (Balancer.step_sameLeaders hop)
  · exact Balancer.receiveLeaders_aligned hrec

/-- In every state of the server `pick_consumers` returns, for every order and every draw, exactly
when there is no leader or there are at least `N_CONSUMERS`, or nobody connected can be sampled:
no consumer, or only stakes of `u64::MAX`, whose weight wraps to 0. -/
theorem pickConsumers_total_iff (h : Reachable (StepsBy (step pubkeyFromStr)) new s) :
    (∀ o rng, ∃ picks, s.balancer.pickConsumers o rng = .ok picks) ↔
      s.balancer.leaderTpus = [] ∨ nConsumers ≤ s.balancer.leaderTpus.length ∨
        ∀ c ∈ s.balancer.txConsumers.values, c.stake = 18446744073709551615 := by
  have hleaders := (leadersAligned_of_reachable h).connectedLeaders_le
  -- the wrapped weight names a single stake
  have hmax (x : UInt64) : x + 1 = 0 ↔ x = 18446744073709551615 := by
    rw [← UInt64.toNat_inj, ← UInt64.toNat_inj, UInt64.toNat_add]
    have hx := x.toNat_lt
    simp only [UInt64.toNat_one, UInt64.toNat_zero, UInt64.reduceToNat, Nat.reducePow] at hx ⊢
    omega
  simp only [Balancer.pickConsumers_returns_iff, Balancer.EnoughTpus, hleaders, true_and, hmax]

/-! ### One leader -/

def loneValidator : String := "11111111111111111111111111111111"

def lonePubkeyFromStr (identity : String) : Option Pubkey :=
  if identity = loneValidator then some ⟨.replicate 32 0⟩ else none

/-- One validator leads every slot of the epoch. -/
def loneSchedule : RpcLeaderSchedule := .singleton loneValidator (List.range slotsPerEpoch)

def loneInfo : LeaderInfo := ⟨loneValidator, "10.0.0.1:8009", "Prague", false⟩

/-- The balancer once the validator is known to lead and one client is connected. -/
def loneBalancer : Balancer :=
  (Balancer.new.setLeaders [loneInfo] (.singleton loneValidator loneInfo)).subscribe "A" "token" 0

theorem step_stream (pubkeyFromStr : String → Option Pubkey) {event : StreamEvent}
    {stream : LeadersStream} (hs : s.exited = none) (h : s.stream.step event = .ok stream) :
    StepsBy (step pubkeyFromStr) s (.stream event) { s with stream } := by
  simp only [StepsBy, step, hs, h]

theorem exists_reachable_lone :
    ∃ s, Reachable (StepsBy (step lonePubkeyFromStr)) new s ∧ s.balancer = loneBalancer := by
  have hlone : IsEpochSchedule (fun _ => loneValidator) 0 loneSchedule :=
    isEpochSchedule_singleton _ 0 _ fun _ _ => rfl
  obtain ⟨schedule, hget, hlookup⟩ := lookup_getLeaderSchedule hlone .stored
  -- six of the seven indices lie behind the end of the epoch
  have hcurrent : currentLeaders schedule 431999 = .collect [loneValidator] := by
    simp only [currentLeaders, hlookup]
    rfl
  have hrefresh : LeadersStream.step ⟨.running ∅ ∅, []⟩
      (.refresh .stored (.ok (some loneSchedule))) = .ok ⟨.running schedule ∅, []⟩ := by
    simp only [LeadersStream.step, hget]
  have hslot : LeadersStream.step ⟨.running schedule ∅, []⟩ (.slot 431999) =
      .ok ⟨.running schedule (.collect [loneValidator]), [.collect [loneValidator]]⟩ := by
    simp only [LeadersStream.step, hcurrent]
    rfl
  have h₁ : StepsBy (step lonePubkeyFromStr) new (.stream (.subscribed true))
      ⟨⟨.running ∅ ∅, []⟩, 0, ∅, .new, none⟩ := rfl
  have h₂ := step_stream lonePubkeyFromStr
    (s := ⟨⟨.running ∅ ∅, []⟩, 0, ∅, .new, none⟩) rfl hrefresh
  have h₃ := step_stream lonePubkeyFromStr
    (s := ⟨⟨.running schedule ∅, []⟩, 0, ∅, .new, none⟩) rfl hslot
  exact ⟨_, ((((Reachable.refl new).next h₁).next h₂).next h₃).trans (reachable_foldl _
    [.nodes (.ok [(loneValidator, some "10.0.0.1:8009")])
        (.ok [⟨loneValidator, "vote", "Prague"⟩]) (.ok []),
      .receive ⟨fun _ => none, .stored, .stored, .stored⟩,
      .op (.subscribe "A" "token" 0)] _), rfl⟩

/-- Three picks share one TPU, so the chunk length is 0. -/
theorem pickConsumers_lone_panics :
    ∃ s, Reachable (StepsBy (step lonePubkeyFromStr)) new s ∧
      s.balancer.pickConsumers .stored (.const 0) = .error .zeroChunkSize := by
  obtain ⟨s, hs, hb⟩ := exists_reachable_lone
  refine ⟨s, hs, ?_⟩
  rw [hb]
  decide

/-! ### Three leaders -/

/-- Validators whose keys are the numbers 0, 1 and 2. -/
def firstValidators : List String :=
  [loneValidator, "11111111111111111111111111111112", "11111111111111111111111111111113"]

def firstPubkeyFromStr (identity : String) : Option Pubkey :=
  (firstValidators.idxOf? identity).map fun n => ⟨(Vector.replicate 31 0).push (UInt8.ofNat n)⟩

/-- They lead the first three windows; one of them and a client without stake have connected. -/
def firstLeadersServer : Server :=
  List.foldl (step firstPubkeyFromStr) new
    [.stream (.subscribed true),
      .stream (.refresh .stored (.ok (some (.collect (firstValidators.zip [[0], [4], [8]]))))),
      .stream (.slot 0),
      .nodes
        (.ok (firstValidators.zip
          [some "10.0.0.1:8009", some "10.0.0.2:8009", some "10.0.0.3:8009"]))
        (.ok (firstValidators.map fun identity => ⟨identity, "vote", "Prague"⟩)) (.ok []),
      .receive ⟨fun _ => none, .stored, .stored, .stored⟩,
      .op (.subscribe loneValidator "token1" 5),
      .op (.subscribe "A" "token2" 0)]

/-- One TPU for each of the three picks. -/
theorem pickConsumers_total_with_three :
    Reachable (StepsBy (step firstPubkeyFromStr)) new firstLeadersServer ∧
      firstLeadersServer.balancer.leaderTpus.map LeaderInfo.tpu =
        ["10.0.0.3:8009", "10.0.0.2:8009", "10.0.0.1:8009"] ∧
      ∀ o rng, ∃ picks, firstLeadersServer.balancer.pickConsumers o rng = .ok picks := by
  have hreach : Reachable (StepsBy (step firstPubkeyFromStr)) new firstLeadersServer :=
    reachable_foldl _ _ _
  have htpus : firstLeadersServer.balancer.leaderTpus.map LeaderInfo.tpu =
      ["10.0.0.3:8009", "10.0.0.2:8009", "10.0.0.1:8009"] := by rfl
  have hlen : firstLeadersServer.balancer.leaderTpus.length = 3 := by
    rw [← List.length_map (f := LeaderInfo.tpu), htpus]
    rfl
  exact ⟨hreach, htpus, (pickConsumers_total_iff hreach).mpr (.inr (.inl hlen.ge))⟩

end Server

/-! ## Leader tracking across refreshes -/

/-- `get_leader_schedule` returns an error or finds no schedule. -/
def ServerEvent.failedRefresh : ServerEvent → Bool
  | .stream (.refresh _ (.error _)) => true
  | .stream (.refresh _ (.ok none)) => true
  | _ => false

namespace Server

variable {pubkeyFromStr : String → Option Pubkey} {s t : Server} {event : ServerEvent}
  {tr : List (Server × ServerEvent)} {schedule : HashMap ℕ String} {lastLeaders : HashSet String}

/-- The process is up and `leaders_stream` is in its loop with this schedule and these leaders. -/
def Tracking (s : Server) (schedule : HashMap ℕ String) (lastLeaders : HashSet String) : Prop :=
  s.exited = none ∧ s.stream.task = .running schedule lastLeaders

/-- The notification of `slot` is compared and, if the leaders differ, sent on. -/
def SlotHandled (pubkeyFromStr : String → Option Pubkey) (s : Server) (slot : ℕ) : Prop :=
  ∃ schedule lastLeaders, s.Tracking schedule lastLeaders ∧
    (step pubkeyFromStr s (.stream (.slot slot))).stream =
      if (currentLeaders schedule slot).toFinset = lastLeaders.toFinset then s.stream
      else ⟨.running schedule (currentLeaders schedule slot),
        s.stream.sent ++ [currentLeaders schedule slot]⟩

/-- Along a run, a failed refresh leaves the task running on what it had, and every slot
notification the process lives to see is handled. -/
structure TrackingIntact (pubkeyFromStr : String → Option Pubkey)
    (tr : List (Server × ServerEvent)) : Prop where
  kept : ∀ x ∈ tr, x.2.failedRefresh → ∀ schedule lastLeaders, x.1.Tracking schedule lastLeaders →
    (step pubkeyFromStr x.1 x.2).Tracking schedule lastLeaders
  handled : ∀ x ∈ tr, ∀ slot, x.2 = .stream (.slot slot) → x.1.exited = none →
    x.1.SlotHandled pubkeyFromStr slot

-- the panic hook leaves nothing running
theorem step_of_exited (h : s.exited ≠ none) (event : ServerEvent) :
    step pubkeyFromStr s event = s := by
  unfold step
  split
  · rfl
  next hnone => exact absurd hnone h

theorem step_running (hs : s.Tracking schedule lastLeaders) (hevent : ¬ event.failedRefresh) :
    ∃ schedule lastLeaders, (step pubkeyFromStr s event).stream.task =
      .running schedule lastLeaders := by
  obtain ⟨halive, htask⟩ := hs
  unfold step
  rw [halive]
  cases event with
  | stream event =>
    cases event with
    | subscribed ok =>
      simp only [LeadersStream.step, htask]
      exact ⟨_, _, rfl⟩
    | refresh o answer =>
      rcases answer with err | _ | leaderSchedule
      · exact absurd rfl hevent
      · exact absurd rfl hevent
      · simp only [LeadersStream.step, htask, getLeaderSchedule]
        exact ⟨_, _, rfl⟩
    | slot slot =>
      simp only [LeadersStream.step, htask]
      split
      next stream hstream =>
        split at hstream <;> obtain rfl := Except.ok.inj hstream
        · exact ⟨_, _, htask⟩
        · exact ⟨_, _, rfl⟩
      next => exact ⟨_, _, htask⟩
  | nodes nodes validators jito => dsimp only; split <;> exact ⟨_, _, htask⟩
  | receive env => dsimp only; split <;> (try split) <;> exact ⟨_, _, htask⟩
  | op op => dsimp only; split <;> exact ⟨_, _, htask⟩

theorem step_failedRefresh (hs : s.Tracking schedule lastLeaders) (hevent : event.failedRefresh) :
    (step pubkeyFromStr s event).exited ≠ none ∨
      (step pubkeyFromStr s event).stream.task = .ended := by
  obtain ⟨halive, htask⟩ := hs
  rcases event with (ok | ⟨o, err | _ | leaderSchedule⟩ | slot) | _ | _ | _
  all_goals try simp [ServerEvent.failedRefresh] at hevent
  · right
    simp only [step, halive, LeadersStream.step, htask, getLeaderSchedule]
  · left
    simp [step, halive, LeadersStream.step, htask, getLeaderSchedule]

theorem slotHandled_of_tracking (hs : s.Tracking schedule lastLeaders) (slot : ℕ) :
    s.SlotHandled pubkeyFromStr slot := by
  refine ⟨schedule, lastLeaders, hs, ?_⟩
  obtain ⟨halive, htask⟩ := hs
  by_cases hsame : (currentLeaders schedule slot).toFinset = lastLeaders.toFinset
  · simp only [step, halive, LeadersStream.step, htask, hsame, if_true]
  · simp only [step, halive, LeadersStream.step, htask, hsame, if_false]

/-- While failed refreshes do no harm, a live process tracks leaders. -/
theorem tracking_of_run
    (h : Run (StepsBy (step pubkeyFromStr)) s tr t) (hs : s.Tracking schedule lastLeaders)
    (hkept : ∀ x ∈ tr, x.2.failedRefresh → ∀ schedule lastLeaders,
      x.1.Tracking schedule lastLeaders →
        (step pubkeyFromStr x.1 x.2).Tracking schedule lastLeaders) :
    ∀ x ∈ tr, x.1.exited = none → ∃ schedule lastLeaders, x.1.Tracking schedule lastLeaders := by
  refine h.invariant_mem (P := fun t => t.exited = none → ∃ schedule lastLeaders,
    t.Tracking schedule lastLeaders) (fun _ => ⟨_, _, hs⟩) ?_
  rintro t event u hmem ht rfl hu
  by_cases halive : t.exited = none
  · obtain ⟨schedule, lastLeaders, htrack⟩ := ht halive
    by_cases hevent : event.failedRefresh
    · exact ⟨_, _, hkept _ hmem hevent _ _ htrack⟩
    · obtain ⟨schedule', lastLeaders', htask⟩ := step_running htrack hevent
      exact ⟨schedule', lastLeaders', hu, htask⟩
  -- a process that has exited does not come back
  · exact absurd (step_of_exited halive event ▸ hu) halive

/-- Leader tracking is intact in exactly the runs in which no refresh fails. -/
theorem trackingIntact_iff
    (h : Run (StepsBy (step pubkeyFromStr)) s tr t) (hs : s.Tracking schedule lastLeaders) :
    TrackingIntact pubkeyFromStr tr ↔ ∀ x ∈ tr, x.1.exited = none → ¬ x.2.failedRefresh := by
  constructor
  · rintro ⟨hkept, -⟩ x hx halive hfailed
    obtain ⟨schedule', lastLeaders', htrack⟩ := tracking_of_run h hs hkept x hx halive
    obtain ⟨halive', htask'⟩ := hkept x hx hfailed _ _ htrack
    -- the claim of `kept` and the effect of the step contradict each other
    have hstop : (step pubkeyFromStr x.1 x.2).exited ≠ none ∨
        (step pubkeyFromStr x.1 x.2).stream.task = .ended := step_failedRefresh htrack hfailed
    rcases hstop with hexit | hend
    · exact hexit halive'
    · simp [hend] at htask'
  · intro hnone
    have hkept : ∀ x ∈ tr, x.2.failedRefresh → ∀ schedule lastLeaders,
        x.1.Tracking schedule lastLeaders →
          (step pubkeyFromStr x.1 x.2).Tracking schedule lastLeaders := by
      intro x hx hfailed _ _ htrack
      exact absurd hfailed (hnone x hx htrack.1)
    refine ⟨hkept, fun x hx slot _ halive => ?_⟩
    obtain ⟨schedule', lastLeaders', htrack⟩ := tracking_of_run h hs hkept x hx halive
    exact slotHandled_of_tracking htrack slot

/-- The task has just entered its loop. -/
def trackingServer : Server := ⟨⟨.running ∅ ∅, []⟩, 0, ∅, .new, none⟩

/-- The node answers the first refresh; a notification is compared, with nothing to send. -/
theorem trackingIntact_of_answers :
    TrackingIntact lonePubkeyFromStr
      [(trackingServer, .stream (.refresh .stored (.ok (some ∅)))),
        (trackingServer, .stream (.slot 7))] := by
  have h₁ : StepsBy (step lonePubkeyFromStr) trackingServer
      (.stream (.refresh .stored (.ok (some ∅)))) trackingServer := rfl
  have h₂ : StepsBy (step lonePubkeyFromStr) trackingServer (.stream (.slot 7)) trackingServer := rfl
  refine (trackingIntact_iff (((Run.nil trackingServer).snoc h₁).snoc h₂) ⟨rfl, rfl⟩).mpr ?_
  simp [ServerEvent.failedRefresh]

def timeout : ServerEvent := .stream (.refresh .stored (.error "operation timed out"))

def noSchedule : ServerEvent := .stream (.refresh .stored (.ok none))

/-- One error ends the task, one missing schedule the process. -/
theorem tracking_lost :
    Reachable (StepsBy (step lonePubkeyFromStr)) new trackingServer ∧
      (∃ t, Run (StepsBy (step lonePubkeyFromStr)) trackingServer [(trackingServer, timeout)] t ∧
        t.stream.task = .ended) ∧
      ¬ TrackingIntact lonePubkeyFromStr [(trackingServer, timeout)] ∧
      (∃ t, Run (StepsBy (step lonePubkeyFromStr)) trackingServer [(trackingServer, noSchedule)] t ∧
        t.exited = some .noLeaderSchedule) ∧
      ¬ TrackingIntact lonePubkeyFromStr [(trackingServer, noSchedule)] := by
  have hstart : trackingServer.Tracking ∅ ∅ := ⟨rfl, rfl⟩
  refine ⟨(Reachable.refl new).next (a := .stream (.subscribed true)) rfl,
    ⟨_, (Run.nil trackingServer).snoc rfl, rfl⟩, ?_, ⟨_, (Run.nil trackingServer).snoc rfl, rfl⟩, ?_⟩
  · intro h
    have := (h.kept (trackingServer, timeout) (by simp) rfl ∅ ∅ hstart).2
    simp [timeout, step, trackingServer, LeadersStream.step, getLeaderSchedule] at this
  · intro h
    have := (h.kept (trackingServer, noSchedule) (by simp) rfl ∅ ∅ hstart).1
    simp [noSchedule, step, trackingServer, LeadersStream.step, getLeaderSchedule] at this

/-! ### What a failed refresh leaves behind -/

/-- The task has ended, or the process has. -/
def Stopped (s : Server) : Prop := s.exited ≠ none ∨ s.stream.task = .ended

-- what a stopped task leaves on its channel is all there will ever be
theorem step_stream_of_stopped (hs : s.Stopped) (event : ServerEvent) :
    (step pubkeyFromStr s event).stream = s.stream := by
  rcases hs with hexit | hend
  · rw [step_of_exited hexit]
  · unfold step
    split
    · rfl
    cases event with
    | stream event => cases event <;> simp only [LeadersStream.step, hend]
    | nodes nodes validators jito => dsimp only; split <;> rfl
    | receive env => dsimp only; split <;> (try split) <;> rfl
    | op op => dsimp only; split <;> rfl

theorem step_stopped (hs : s.Stopped) (event : ServerEvent) :
    (step pubkeyFromStr s event).Stopped := by
  rcases hs with hexit | hend
  · rw [step_of_exited hexit]
    exact .inl hexit
  · right
    rw [step_stream_of_stopped (.inr hend), hend]

/-- After a failed refresh no set is ever sent again, whatever slots are notified: once
`balancer_updater` has received what was sent before, it neither sets leaders nor flushes. -/
theorem sent_of_failedRefresh (hs : s.Tracking schedule lastLeaders) (hevent : event.failedRefresh)
    (h : Reachable (StepsBy (step pubkeyFromStr)) (step pubkeyFromStr s event) t) :
    t.stream.sent = (step pubkeyFromStr s event).stream.sent := by
  have hinv := h.invariant (P := fun t => t.Stopped ∧
    t.stream = (step pubkeyFromStr s event).stream) ⟨step_failedRefresh hs hevent, rfl⟩ ?_
  · rw [hinv.2]
  · rintro t event' u ⟨hstop, hstream⟩ rfl
    exact ⟨step_stopped hstop event', by rw [step_stream_of_stopped hstop, hstream]⟩

end Server

end Mtransaction
