import Mtransaction.Lib.Runs
import Mtransaction.Server.Types

/-!
# `leaders_stream`

The task that turns slot notifications into sets of upcoming leaders, from a schedule it fetches
on a timer.  A fetch that fails ends the task, since its error leaves the loop through `?`.
-/

namespace Mtransaction

def slotsPerEpoch : ℕ := 432000

/-- What the RPC node returns: each leader's slots, counted from the start of the epoch. -/
abbrev RpcLeaderSchedule := HashMap String (List ℕ)

/-- `get_leader_schedule` on the node's answer.  An RPC error is returned, a missing schedule is a
panic. -/
def getLeaderSchedule (o : HashOrder (String × List ℕ))
    (answer : Except String (Option RpcLeaderSchedule)) :
    Except Panic (Except String (HashMap ℕ String)) :=
  match answer with
  | .error err => .ok (.error err)
  | .ok none => .error .noLeaderSchedule
  | .ok (some leaderSchedule) =>
    .ok (.ok (AList.collect ((leaderSchedule.iter o).flatMap fun e =>
      e.2.map fun slot => (slot, e.1))))

/-- `current_leaders`: only the start of the window is reduced to the epoch. -/
def currentLeaders (schedule : HashMap ℕ String) (slot : ℕ) : HashSet String :=
  .collect <| (List.range nLeaders).filterMap fun nthLeader =>
    schedule.lookup (nthLeader * 4 + slot % slotsPerEpoch)

inductive LeadersTask
  /-- waiting for `slot_subscribe` -/
  | subscribing
  /-- in its loop -/
  | running (schedule : HashMap ℕ String) (lastLeaders : HashSet String)
  | ended

/-- The task and the sets it has put on its channel so far, oldest first.  The receiving half is
held by a loop that never ends, so every send goes through. -/
structure LeadersStream where
  task : LeadersTask
  sent : List (HashSet String)

inductive StreamEvent
  | subscribed (ok : Bool)
  | refresh (o : HashOrder (String × List ℕ)) (answer : Except String (Option RpcLeaderSchedule))
  | slot (slot : ℕ)

namespace LeadersStream

def new : LeadersStream := ⟨.subscribing, []⟩

/-- One round of the task's loop.  What arrives while the task is not in it is not noticed. -/
def step (st : LeadersStream) : StreamEvent → Except Panic LeadersStream
  | .subscribed ok =>
    match st.task with
    | .subscribing => .ok { st with task := if ok then .running ∅ ∅ else .ended }
    | _ => .ok st
  | .refresh o answer =>
    match st.task with
    | .running _ lastLeaders =>
      match getLeaderSchedule o answer with
      | .error panic => .error panic
      -- `?` returns from the task
      | .ok (.error _) => .ok { st with task := .ended }
      | .ok (.ok schedule) => .ok { st with task := .running schedule lastLeaders }
    | _ => .ok st
  | .slot slot =>
    match st.task with
    | .running schedule lastLeaders =>
      let current := currentLeaders schedule slot
      -- `HashSet::eq` ignores the order
      if current.toFinset = lastLeaders.toFinset then .ok st
      else .ok { task := .running schedule current, sent := st.sent ++ [current] }
    | _ => .ok st

end LeadersStream

/-! ## The chain the schedules are about -/

/-- The answer is the schedule of epoch `e` on a chain whose slots have these leaders. -/
def IsEpochSchedule (leader : ℕ → String) (e : ℕ) (answer : RpcLeaderSchedule) : Prop :=
  ∀ identity slot, (∃ slots, answer.lookup identity = some slots ∧ slot ∈ slots) ↔
    slot < slotsPerEpoch ∧ leader (e * slotsPerEpoch + slot) = identity

theorem isEpochSchedule_singleton (leader : ℕ → String) (e : ℕ) (validator : String)
    (h : ∀ slot < slotsPerEpoch, leader (e * slotsPerEpoch + slot) = validator) :
    IsEpochSchedule leader e (AList.singleton validator (List.range slotsPerEpoch)) := by
  intro identity slot
  rw [← AList.insert_empty]
  simp only [AList.lookup_insert_eq_ite, AList.lookup_empty, Option.ite_none_right_eq_some,
    Option.some.injEq]
  constructor
  · rintro ⟨slots, ⟨rfl, rfl⟩, hslot⟩
    have hlt := List.mem_range.mp hslot
    exact ⟨hlt, h slot hlt⟩
  · rintro ⟨hlt, rfl⟩
    exact ⟨_, ⟨h slot hlt, rfl⟩, List.mem_range.mpr hlt⟩

/-- A chain, and an RPC node that answers every call with the schedule of the epoch the call is
made in. -/
structure Chain where
  leader : ℕ → String
  /-- the answer to call number `k` made in epoch `e` -/
  answer : ℕ → ℕ → RpcLeaderSchedule
  answer_spec : ∀ k e, IsEpochSchedule leader e (answer k e)

/-- The leaders of the current and the next six leader windows of four slots. -/
def Chain.upcomingLeaders (chain : Chain) (s : ℕ) : Finset String :=
  ((List.range nLeaders).map fun k => chain.leader (s + 4 * k)).toFinset

theorem lookup_getLeaderSchedule {leader : ℕ → String} {e : ℕ} {answer : RpcLeaderSchedule}
    (h : IsEpochSchedule leader e answer) (o : HashOrder (String × List ℕ)) :
    ∃ schedule, getLeaderSchedule o (.ok (some answer)) = .ok (.ok schedule) ∧ ∀ slot,
      schedule.lookup slot =
        if slot < slotsPerEpoch then some (leader (e * slotsPerEpoch + slot)) else none := by
  refine ⟨_, rfl, fun slot => ?_⟩
  -- the pairs collected are the slots of the epoch with their leaders
  have hmem (identity : String) : (slot, identity) ∈ ((answer.iter o).flatMap fun e =>
      e.2.map fun slot => (slot, e.1)) ↔
        slot < slotsPerEpoch ∧ leader (e * slotsPerEpoch + slot) = identity := by
    rw [← h identity slot]
    simp only [List.mem_flatMap, List.mem_map, Prod.exists, AList.mem_iter, Prod.mk.injEq]
    constructor
    · rintro ⟨i, slots, hi, s, hs, rfl, rfl⟩
      exact ⟨slots, hi, hs⟩
    · rintro ⟨slots, hi, hs⟩
      exact ⟨identity, slots, hi, slot, hs, rfl, rfl⟩
  split
  next hlt =>
    refine AList.lookup_collect ((hmem _).mpr ⟨hlt, rfl⟩) fun identity hi => ?_
    exact ((hmem identity).mp hi).2.symm
  next hge =>
    refine AList.lookup_collect_eq_none fun hkey => ?_
    obtain ⟨⟨s, identity⟩, hs, rfl⟩ := List.mem_map.mp hkey
    exact hge ((hmem identity).mp hs).1

/-! ## Computed leaders against the chain's -/

/-- What a running task is told: that it may refresh, in the chain's current epoch, or a slot. -/
inductive Notice
  | refresh (epoch : ℕ)
  | slot (slot : ℕ)
  deriving DecidableEq

/-- The event a notice becomes when call number `k` is answered by the chain's node. -/
def Chain.event (chain : Chain) (orders : ℕ → HashOrder (String × List ℕ)) (k : ℕ) :
    Notice → StreamEvent
  | .refresh e => .refresh (orders k) (.ok (some (chain.answer k e)))
  | .slot s => .slot s

def LeadersStream.subscribed : LeadersStream := ⟨.running ∅ ∅, []⟩

/-- The set computed at every slot notification is the chain's. -/
def Chain.LeadersComputed (chain : Chain) (orders : ℕ → HashOrder (String × List ℕ))
    (notices : List Notice) : Prop :=
  ∀ pre s post, notices = pre ++ .slot s :: post → ∃ st schedule lastLeaders,
    Runs.exec LeadersStream.step .subscribed (pre.mapIdx (chain.event orders)) = .ok st ∧
      st.task = .running schedule lastLeaders ∧
      (currentLeaders schedule s).toFinset = chain.upcomingLeaders s

def lastEpoch (notices : List Notice) : Option ℕ :=
  notices.foldl (fun last notice =>
    match notice with
    | .refresh e => some e
    | .slot _ => last) none

/-- The held schedule is the last refresh's epoch's. -/
def Chain.Held (chain : Chain) (epoch : Option ℕ) (schedule : HashMap ℕ String) : Prop :=
  ∀ slot, schedule.lookup slot =
    epoch.bind fun e =>
      if slot < slotsPerEpoch then some (chain.leader (e * slotsPerEpoch + slot)) else none

/-- As long as the node answers, the task keeps running on the last schedule fetched. -/
theorem Chain.exec_held (chain : Chain) (orders : ℕ → HashOrder (String × List ℕ))
    (notices : List Notice) : ∃ st schedule lastLeaders,
      Runs.exec LeadersStream.step .subscribed (notices.mapIdx (chain.event orders)) = .ok st ∧
        st.task = .running schedule lastLeaders ∧ chain.Held (lastEpoch notices) schedule := by
  induction notices using List.reverseRecOn with
  | nil => exact ⟨_, ∅, ∅, rfl, rfl, fun _ => rfl⟩
  | append_singleton notices notice ih =>
    obtain ⟨st, schedule, lastLeaders, hexec, htask, hheld⟩ := ih
    rw [List.mapIdx_concat, Runs.exec_append hexec]
    cases notice with
    | refresh e =>
      obtain ⟨schedule', hget, hlookup⟩ :=
        lookup_getLeaderSchedule (chain.answer_spec notices.length e) (orders notices.length)
      refine ⟨{ st with task := .running schedule' lastLeaders }, schedule', lastLeaders, ?_, rfl, ?_⟩
      · simp only [Runs.exec, Chain.event, LeadersStream.step, htask, hget]
      · simpa [lastEpoch, Chain.Held] using hlookup
    | slot s =>
      have hlast : lastEpoch (notices ++ [.slot s]) = lastEpoch notices := by simp [lastEpoch]
      rw [hlast]
      by_cases hsame : (currentLeaders schedule s).toFinset = lastLeaders.toFinset
      · refine ⟨st, schedule, lastLeaders, ?_, htask, hheld⟩
        simp only [Runs.exec, Chain.event, LeadersStream.step, htask, hsame, if_true]
      · refine ⟨⟨.running schedule (currentLeaders schedule s),
          st.sent ++ [currentLeaders schedule s]⟩, schedule, _, ?_, rfl, hheld⟩
        simp only [Runs.exec, Chain.event, LeadersStream.step, htask, hsame, if_false]

theorem Chain.mem_upcomingLeaders {chain : Chain} {s : ℕ} {identity : String} :
    identity ∈ chain.upcomingLeaders s ↔ ∃ k < nLeaders, chain.leader (s + 4 * k) = identity := by
  simp [Chain.upcomingLeaders]

theorem mem_currentLeaders {chain : Chain} {e s : ℕ} {schedule : HashMap ℕ String}
    {identity : String} (h : chain.Held (some e) schedule) :
    identity ∈ (currentLeaders schedule s).toFinset ↔
      ∃ k < nLeaders, k * 4 + s % slotsPerEpoch < slotsPerEpoch ∧
        chain.leader (e * slotsPerEpoch + (k * 4 + s % slotsPerEpoch)) = identity := by
  simp only [currentLeaders, HashSet.mem_toFinset, HashSet.mem_collect, List.mem_filterMap,
    List.mem_range, h _, Option.bind_some, Option.ite_none_right_eq_some, Option.some.injEq]

/-- Inside the held epoch the window of indices is the window of slots. -/
theorem currentLeaders_eq_upcomingLeaders {chain : Chain} {s : ℕ} {schedule : HashMap ℕ String}
    (h : chain.Held (some (s / slotsPerEpoch)) schedule)
    (hwindow : s % slotsPerEpoch + 4 * (nLeaders - 1) < slotsPerEpoch) :
    (currentLeaders schedule s).toFinset = chain.upcomingLeaders s := by
  ext identity
  rw [mem_currentLeaders h, Chain.mem_upcomingLeaders]
  refine exists_congr fun k => and_congr_right fun hk => ?_
  have hslot : s / slotsPerEpoch * slotsPerEpoch + (k * 4 + s % slotsPerEpoch) = s + 4 * k := by
    have := Nat.div_add_mod' s slotsPerEpoch
    omega
  rw [hslot]
  simp only [nLeaders] at hk hwindow
  exact and_iff_right (by omega)

/-! ### A chain on which no two slots share a leader -/

def soloLeader (n : ℕ) : String := String.ofList (List.replicate n 'a')

-- the leader tells the slot
theorem soloLeader_injective {m n : ℕ} (h : soloLeader m = soloLeader n) : m = n := by
  have := congrArg (fun s => s.toList.length) h
  simpa [soloLeader] using this

def soloSchedule (e : ℕ) : RpcLeaderSchedule :=
  AList.collect ((List.range slotsPerEpoch).map fun i => (soloLeader (e * slotsPerEpoch + i), [i]))

def soloChain : Chain where
  leader := soloLeader
  answer _ e := soloSchedule e
  answer_spec _ e := by
    have hkeys : (((List.range slotsPerEpoch).map fun i =>
        (soloLeader (e * slotsPerEpoch + i), [i])).map Prod.fst).Nodup := by
      rw [List.map_map]
      refine List.nodup_range.map fun i j h => ?_
      have := soloLeader_injective h
      omega
    intro identity slot
    simp only [soloSchedule, AList.lookup_collect_eq_some_iff hkeys, List.mem_map, List.mem_range,
      Prod.mk.injEq]
    constructor
    · rintro ⟨slots, ⟨i, hi, hid, rfl⟩, hslot⟩
      rw [List.mem_singleton] at hslot
      exact ⟨hslot ▸ hi, hslot ▸ hid⟩
    · rintro ⟨hlt, hid⟩
      exact ⟨[slot], ⟨slot, hlt, hid, rfl⟩, List.mem_singleton_self slot⟩

/-! ### When the computed leaders are the chain's -/

/-- The last refresh was made in the slot's own epoch, and the window ends in it too. -/
def InHeldEpoch (pre : List Notice) (s : ℕ) : Prop :=
  lastEpoch pre = some (s / slotsPerEpoch) ∧
    s % slotsPerEpoch + 4 * (nLeaders - 1) < slotsPerEpoch

/-- The leaders of slots `s` and `s + 24` tell which epoch is held and where the window ends. -/
theorem inHeldEpoch_of_solo {epoch : Option ℕ} {s : ℕ} {schedule : HashMap ℕ String}
    (hheld : soloChain.Held epoch schedule)
    (h : (currentLeaders schedule s).toFinset = soloChain.upcomingLeaders s) :
    epoch = some (s / slotsPerEpoch) ∧
      s % slotsPerEpoch + 4 * (nLeaders - 1) < slotsPerEpoch := by
  have hmem (k : ℕ) (hk : k < nLeaders) :
      soloLeader (s + 4 * k) ∈ (currentLeaders schedule s).toFinset := by
    rw [h, Chain.mem_upcomingLeaders]
    exact ⟨k, hk, rfl⟩
  cases epoch with
  | none =>
    have hnone : (currentLeaders schedule s).toFinset = ∅ := by
      ext identity
      simp [currentLeaders, hheld _]
    have hfirst := hmem 0 (by decide)
    simp [hnone] at hfirst
  | some e =>
    -- both ends of the window occur among the held leaders
    obtain ⟨k₀, -, -, hfirst⟩ := (mem_currentLeaders hheld).mp (hmem 0 (by decide))
    obtain ⟨k₆, hk₆, hlt, hlast⟩ := (mem_currentLeaders hheld).mp (hmem 6 (by decide))
    have hfirst := soloLeader_injective hfirst
    have hlast := soloLeader_injective hlast
    simp only [nLeaders, slotsPerEpoch, Option.some.injEq] at *
    omega

/-- The sets computed are the upcoming leaders, on every chain and in every order its schedules
come in, exactly when every slot is notified inside the epoch of the last refresh, far enough from
its end. -/
theorem leadersComputed_iff (notices : List Notice) :
    (∀ chain orders, Chain.LeadersComputed chain orders notices) ↔
      ∀ pre s post, notices = pre ++ .slot s :: post → InHeldEpoch pre s := by
  constructor
  · intro hall pre s post hsplit
    obtain ⟨st, schedule, lastLeaders, hexec, htask, hset⟩ :=
      hall soloChain (fun _ => .stored) pre s post hsplit
    obtain ⟨st', schedule', lastLeaders', hexec', htask', hheld⟩ :=
      soloChain.exec_held (fun _ => .stored) pre
    obtain rfl : st = st' := Except.ok.inj (hexec.symm.trans hexec')
    obtain ⟨rfl, -⟩ := LeadersTask.running.inj (htask.symm.trans htask')
    exact inHeldEpoch_of_solo hheld hset
  · intro hcond chain orders pre s post hsplit
    obtain ⟨hepoch, hwindow⟩ := hcond pre s post hsplit
    obtain ⟨st, schedule, lastLeaders, hexec, htask, hheld⟩ := chain.exec_held orders pre
    rw [hepoch] at hheld
    exact ⟨st, schedule, lastLeaders, hexec, htask,
      currentLeaders_eq_upcomingLeaders hheld hwindow⟩

/-- Epoch 0 belongs to `A`, every later epoch to `B`. -/
def handoverLeader (n : ℕ) : String := if n < slotsPerEpoch then "A" else "B"

theorem handoverLeader_epoch (e slot : ℕ) (h : slot < slotsPerEpoch) :
    handoverLeader (e * slotsPerEpoch + slot) = handoverLeader (e * slotsPerEpoch) := by
  have hiff : e * slotsPerEpoch + slot < slotsPerEpoch ↔ e * slotsPerEpoch < slotsPerEpoch := by
    simp only [slotsPerEpoch] at h ⊢
    omega
  simp only [handoverLeader, hiff]

def handoverChain : Chain where
  leader := handoverLeader
  answer _ e := AList.singleton (handoverLeader (e * slotsPerEpoch)) (List.range slotsPerEpoch)
  answer_spec _ e := isEpochSchedule_singleton _ e _ (handoverLeader_epoch e)

/-- One slot before the epoch ends the window misses `B`; one slot later the schedule is stale. -/
theorem handover_not_computed :
    ¬ handoverChain.LeadersComputed (fun _ => .stored) [.refresh 0, .slot 431999] ∧
      ¬ handoverChain.LeadersComputed (fun _ => .stored) [.refresh 0, .slot 432000] := by
  obtain ⟨st, schedule, lastLeaders, hexec, htask, hheld⟩ :=
    handoverChain.exec_held (fun _ => .stored) [.refresh 0]
  have hset (s : ℕ) (h : handoverChain.LeadersComputed (fun _ => .stored) [.refresh 0, .slot s]) :
      (currentLeaders schedule s).toFinset = handoverChain.upcomingLeaders s := by
    obtain ⟨st', schedule', lastLeaders', hexec', htask', hset⟩ := h [.refresh 0] s [] rfl
    obtain rfl : st = st' := Except.ok.inj (hexec.symm.trans hexec')
    obtain ⟨rfl, -⟩ := LeadersTask.running.inj (htask.symm.trans htask')
    exact hset
  constructor
  · intro h
    have := hset _ h
    simp only [currentLeaders, hheld _] at this
    revert this
    decide
  · intro h
    have := hset _ h
    simp only [currentLeaders, hheld _] at this
    revert this
    decide

end Mtransaction
