import Mtransaction.Lib.RunningMean
import Mtransaction.Server.BalancerRuns

/-!
# Round-trip times

`update_rtt` keeps a running mean for each identity and address.  Over the naturals it stays behind
the mean of the reports by what is cut off at every step; in the `u64` of the source it is that
running mean as long as no product of a count and a mean leaves no room for the next report.
-/

namespace Mtransaction

open Runs History RunningMean

/-! ## Slots -/

section Slots

variable {ν : Type} (rttValues : HashMap String (HashMap String ν)) (identity ip : String)

def slotOf : Option ν := (rttValues.lookup identity).bind fun slots => slots.lookup ip

-- `entry(..).or_default()` finds the slot that is there
theorem lookup_getD_empty :
    ((rttValues.lookup identity).getD ∅).lookup ip = slotOf rttValues identity ip := by
  unfold slotOf
  cases rttValues.lookup identity <;> rfl

theorem slotOf_insert (slot : ν) (identity' ip' : String) :
    slotOf (rttValues.insert identity (((rttValues.lookup identity).getD ∅).insert ip slot))
        identity' ip' =
      if identity' = identity ∧ ip' = ip then some slot else slotOf rttValues identity' ip' := by
  rw [slotOf, AList.lookup_insert_eq_ite]
  by_cases hidentity : identity' = identity
  · subst hidentity
    rw [if_pos rfl, Option.bind_some, AList.lookup_insert_eq_ite, lookup_getD_empty]
    simp
  · rw [if_neg hidentity, if_neg fun h => hidentity h.1]
    rfl

end Slots

/-! ## Reports -/

/-- The values an identity has reported for an address. -/
def reported (reports : List (String × Rtt)) (identity ip : String) : List ℕ :=
  reports.filterMap fun r =>
    if r.1 = identity ∧ r.2.ip = ip then some r.2.rtt.toNat else none

section Reports

variable {reports : List (String × Rtt)} {identity ip : String} {value : Rtt}

theorem reported_concat : reported (reports ++ [(identity, value)]) identity value.ip =
    reported reports identity value.ip ++ [value.rtt.toNat] := by
  simp [reported]

theorem reported_concat_other {identity' ip' : String}
    (h : ¬ (identity' = identity ∧ ip' = value.ip)) :
    reported (reports ++ [(identity, value)]) identity' ip' = reported reports identity' ip' := by
  have hnone : ¬ (identity = identity' ∧ value.ip = ip') := fun heq => h ⟨heq.1.symm, heq.2.symm⟩
  simp [reported, hnone]

theorem length_reported_le (reports : List (String × Rtt)) (identity ip : String) :
    (reported reports identity ip).length ≤ reports.length :=
  List.length_filterMap_le _ _

theorem sum_reported_le (reports : List (String × Rtt)) (identity ip : String) :
    (reported reports identity ip).sum ≤ (reports.map fun r => r.2.rtt.toNat).sum := by
  induction reports using List.reverseRecOn with
  | nil => simp [reported]
  | append_singleton reports r ih =>
    obtain ⟨identity', value⟩ := r
    rw [List.map_append, List.sum_append]
    by_cases h : identity = identity' ∧ ip = value.ip
    · obtain ⟨rfl, rfl⟩ := h
      rw [reported_concat, List.sum_append]
      exact Nat.add_le_add_right ih _
    · rw [reported_concat_other h]
      exact ih.trans (Nat.le_add_right _ _)

/-- One more report is one more value for its own pair. -/
theorem forall_along_concat (C : List ℕ → ℕ → Prop) :
    (∀ identity' ip', Along C (reported (reports ++ [(identity, value)]) identity' ip')) ↔
      (∀ identity' ip', Along C (reported reports identity' ip')) ∧
        C (reported reports identity value.ip) value.rtt.toNat := by
  constructor
  · intro h
    have hown := h identity value.ip
    rw [reported_concat, along_concat] at hown
    refine ⟨fun identity' ip' => ?_, hown.2⟩
    by_cases heq : identity' = identity ∧ ip' = value.ip
    · obtain ⟨rfl, rfl⟩ := heq
      exact hown.1
    · exact reported_concat_other heq ▸ h identity' ip'
  · rintro ⟨hold, hnew⟩ identity' ip'
    by_cases heq : identity' = identity ∧ ip' = value.ip
    · obtain ⟨rfl, rfl⟩ := heq
      rw [reported_concat, along_concat]
      exact ⟨hold identity' value.ip, hnew⟩
    · rw [reported_concat_other heq]
      exact hold identity' ip'

end Reports

/-! ## Over the naturals -/

/-- `RttValue` without bounds. -/
structure ExactRttValue where
  rtt : ℕ
  n : ℕ
  deriving DecidableEq, Repr

/-- `update_rtt` in exact arithmetic. -/
def updateRttExact (rttValues : HashMap String (HashMap String ExactRttValue)) (identity : String)
    (value : Rtt) : HashMap String (HashMap String ExactRttValue) :=
  let slots := (rttValues.lookup identity).getD ∅
  let slot := (slots.lookup value.ip).getD ⟨0, 0⟩
  let n := slot.n + 1
  let rtt := (slot.n * slot.rtt + value.rtt.toNat) / n
  rttValues.insert identity (slots.insert value.ip { rtt, n })

def exactRtts (reports : List (String × Rtt)) : HashMap String (HashMap String ExactRttValue) :=
  reports.foldl (fun rttValues r => updateRttExact rttValues r.1 r.2) ∅

/-- What one report does: its own slot has the number of the reports for the pair, and less than 1
away from their mean; the other slots stay as they are. -/
structure MeanTracked (before : List (String × Rtt)) (report : String × Rtt) : Prop where
  slot : ∃ slot,
    slotOf (exactRtts (before ++ [report])) report.1 report.2.ip = some slot ∧
    slot.n = (reported (before ++ [report]) report.1 report.2.ip).length ∧
    |(slot.rtt : ℚ) - (reported (before ++ [report]) report.1 report.2.ip).sum /
      (reported (before ++ [report]) report.1 report.2.ip).length| < 1
  others : ∀ identity ip, ¬ (identity = report.1 ∧ ip = report.2.ip) →
    slotOf (exactRtts (before ++ [report])) identity ip = slotOf (exactRtts before) identity ip

/-- Every report does so. -/
def TracksMean (reports : List (String × Rtt)) : Prop := Along MeanTracked reports

section Exact

variable {reports : List (String × Rtt)} {identity ip : String} {value : Rtt}

theorem slotOf_exactRtts_concat (reports : List (String × Rtt)) (identity : String) (value : Rtt)
    (identity' ip' : String) :
    slotOf (exactRtts (reports ++ [(identity, value)])) identity' ip' =
      if identity' = identity ∧ ip' = value.ip then
        let slot := (slotOf (exactRtts reports) identity value.ip).getD ⟨0, 0⟩
        some ⟨(slot.n * slot.rtt + value.rtt.toNat) / (slot.n + 1), slot.n + 1⟩
      else slotOf (exactRtts reports) identity' ip' := by
  rw [exactRtts, List.foldl_append, List.foldl_cons, List.foldl_nil, ← exactRtts, updateRttExact]
  simp only [lookup_getD_empty]
  exact slotOf_insert _ _ _ _ _ _

/-- A slot is made by the first report for its pair, and has their number and running mean. -/
theorem slotOf_exactRtts (reports : List (String × Rtt)) (identity ip : String) :
    slotOf (exactRtts reports) identity ip =
      if reported reports identity ip = [] then none
      else some ⟨mean (reported reports identity ip), (reported reports identity ip).length⟩ := by
  induction reports using List.reverseRecOn generalizing identity ip with
  | nil => rfl
  | append_singleton reports r ih =>
    obtain ⟨identity', value⟩ := r
    rw [slotOf_exactRtts_concat]
    by_cases h : identity = identity' ∧ ip = value.ip
    · obtain ⟨rfl, rfl⟩ := h
      -- without a report the slot is the default
      have hslot : (slotOf (exactRtts reports) identity value.ip).getD ⟨0, 0⟩ =
          ⟨mean (reported reports identity value.ip),
            (reported reports identity value.ip).length⟩ := by
        rw [ih]
        split
        next hnil => simp [hnil]
        next => rfl
      simp [hslot, reported_concat, mean_concat]
    · rw [if_neg h, ih, reported_concat_other h]

/-- Where the slot has had the mean of the reports so far, it has the next one exactly if the
remainder does not get smaller. -/
theorem meanTracked_iff (h : mean (reported reports identity value.ip) =
      (reported reports identity value.ip).sum / (reported reports identity value.ip).length) :
    MeanTracked reports (identity, value) ↔
      remainder (reported reports identity value.ip) ≤
        remainder (reported reports identity value.ip ++ [value.rtt.toNat]) := by
  have hne : reported (reports ++ [(identity, value)]) identity value.ip ≠ [] := by
    simp [reported_concat]
  have hslot := slotOf_exactRtts (reports ++ [(identity, value)]) identity value.ip
  rw [if_neg hne] at hslot
  rw [← mean_concat_eq_iff h, ← reported_concat, ← abs_mean_sub_average_lt_one_iff hne]
  constructor
  · rintro ⟨⟨slot, hget, -, hmean⟩, -⟩
    obtain rfl := Option.some.inj (hslot.symm.trans hget)
    exact hmean
  · intro hmean
    refine ⟨⟨_, hslot, rfl, hmean⟩, fun identity' ip' hother => ?_⟩
    rw [slotOf_exactRtts_concat, if_neg hother]

theorem tracksMean_concat (h : ∀ identity ip, RemaindersGrow (reported reports identity ip)) :
    TracksMean (reports ++ [(identity, value)]) ↔ TracksMean reports ∧
      remainder (reported reports identity value.ip) ≤
        remainder (reported reports identity value.ip ++ [value.rtt.toNat]) := by
  rw [TracksMean, along_concat, meanTracked_iff (mean_eq_of_remaindersGrow (h _ _))]
  rfl

/-- Every slot has the mean after each report exactly if, of each pair, the remainder of the sum of
the reports by their number never gets smaller. -/
theorem tracksMean_iff (reports : List (String × Rtt)) :
    TracksMean reports ↔ ∀ identity ip, RemaindersGrow (reported reports identity ip) := by
  induction reports using List.reverseRecOn with
  | nil =>
    have hnil (identity ip : String) : reported [] identity ip = [] := rfl
    simp [TracksMean, RemaindersGrow, hnil]
  | append_singleton reports r ih =>
    obtain ⟨identity, value⟩ := r
    simp only [RemaindersGrow] at ih ⊢
    rw [forall_along_concat, ← ih]
    constructor
    · intro h
      have hreports : TracksMean reports := (along_concat.mp h).1
      exact (tracksMean_concat (ih.mp hreports)).mp h
    · rintro ⟨hreports, hnew⟩
      exact (tracksMean_concat (ih.mp hreports)).mpr ⟨hreports, hnew⟩

def reportsOfA (values : List UInt64) : List (String × Rtt) :=
  values.map fun rtt => ("A", ⟨"10.0.0.1", rtt⟩)

/-- The mean of 0, 1 and 2 is 1; whether the slot has it depends on their order. -/
theorem rising_not_tracked :
    slotOf (exactRtts (reportsOfA [2, 0, 1])) "A" "10.0.0.1" = some ⟨1, 3⟩ ∧
      slotOf (exactRtts (reportsOfA [0, 1, 2])) "A" "10.0.0.1" = some ⟨0, 3⟩ ∧
      (∃ b, exec Balancer.step .new
          ((reportsOfA [0, 1, 2]).map fun r => .updateRtt r.1 r.2) = .ok b ∧
        slotOf b.rttValues "A" "10.0.0.1" = some ⟨0, 3⟩) ∧
      ¬ TracksMean (reportsOfA [0, 1, 2]) := by
  refine ⟨by decide, by decide, ⟨_, rfl, by decide⟩, fun h => ?_⟩
  obtain ⟨⟨slot, hget, -, hmean⟩, -⟩ := h (reportsOfA [0, 1]) ("A", ⟨"10.0.0.1", 2⟩)
    (List.prefix_refl _)
  have hslot : some slot = some ⟨0, 3⟩ := hget.symm.trans (by decide)
  obtain rfl := Option.some.inj hslot
  have hvalues : reported (reportsOfA [0, 1] ++ [("A", ⟨"10.0.0.1", 2⟩)]) "A" "10.0.0.1" =
      [0, 1, 2] := by decide
  rw [hvalues] at hmean
  norm_num at hmean

/-- Where the slots have the mean all along, they have the same for the same values in another
order. -/
theorem slotOf_exactRtts_perm {reports' : List (String × Rtt)}
    (h : RemaindersGrow (reported reports identity ip))
    (h' : RemaindersGrow (reported reports' identity ip))
    (hperm : (reported reports identity ip).Perm (reported reports' identity ip)) :
    slotOf (exactRtts reports) identity ip = slotOf (exactRtts reports') identity ip := by
  have hnil : reported reports identity ip = [] ↔ reported reports' identity ip = [] :=
    ⟨fun heq => List.nil_perm.mp (heq ▸ hperm), fun heq => List.perm_nil.mp (heq ▸ hperm)⟩
  simp only [slotOf_exactRtts, hnil, mean_eq_of_remaindersGrow h, mean_eq_of_remaindersGrow h',
    hperm.sum_eq, hperm.length_eq]

/-- In any case a slot is not ahead of the mean, and after `n` reports at most `(n - 1) / 2` behind
it. -/
theorem exactRtts_drift {slot : ExactRttValue}
    (h : slotOf (exactRtts reports) identity ip = some slot) :
    (slot.rtt : ℚ) ≤ (reported reports identity ip).sum / slot.n ∧
      ((reported reports identity ip).sum : ℚ) / slot.n ≤ slot.rtt + (slot.n - 1) / 2 := by
  rw [slotOf_exactRtts] at h
  split at h
  · simp at h
  next hne =>
    obtain rfl := Option.some.inj h
    exact ⟨mean_le_average hne, average_le_mean_add hne⟩

/-- Some reports leave it that far behind, for every number of them. -/
theorem exactRtts_drift_attained (identity ip : String) {n : ℕ} (hpos : 0 < n) (hn : n ≤ 2 ^ 64) :
    ∃ reports, slotOf (exactRtts reports) identity ip = some ⟨0, n⟩ ∧
      2 * (reported reports identity ip).sum = n * (n - 1) := by
  have hreported : reported ((List.range n).map fun k => (identity, ⟨ip, .ofNat k⟩)) identity ip =
      List.range n := by
    have hvalue : ∀ k ∈ List.range n, (UInt64.ofNat k).toNat = k := by
      intro k hk
      rw [UInt64.toNat_ofNat']
      exact Nat.mod_eq_of_lt ((List.mem_range.mp hk).trans_le hn)
    rw [reported, List.filterMap_map]
    simp only [Function.comp_def, and_self, if_true, List.filterMap_eq_map']
    exact (List.map_congr_left hvalue).trans (List.map_id' _)
  refine ⟨(List.range n).map fun k => (identity, ⟨ip, .ofNat k⟩), ?_, ?_⟩
  · rw [slotOf_exactRtts, hreported, mean_range, List.length_range, if_neg]
    exact List.ne_nil_of_length_pos (by rwa [List.length_range])
  · rw [hreported]
    exact two_mul_sum_range n

end Exact

/-! ## In `u64` -/

def RttValue.exact (slot : RttValue) : ExactRttValue := ⟨slot.rtt.toNat, slot.n.toNat⟩

/-- Neither `slot.n + 1` nor `slot.n * slot.rtt + value.rtt` exceeds `u64::MAX`. -/
def RttValue.Fits (slot : RttValue) (value : UInt64) : Prop :=
  slot.n.toNat + 1 < 2 ^ 64 ∧ slot.n.toNat * slot.rtt.toNat + value.toNat < 2 ^ 64

namespace Balancer

variable {b b' : Balancer} {op : BalancerOp} {tr : List (Balancer × BalancerOp)}
  {reports : List (String × Rtt)} {identity ip : String} {value : Rtt}

/-- The slot of `update_rtt`: the default where there is none yet. -/
def rttSlot (b : Balancer) (identity ip : String) : RttValue :=
  (slotOf b.rttValues identity ip).getD default

def reportOf (x : Balancer × BalancerOp) : Option (String × Rtt) :=
  match x.2 with
  | .updateRtt identity value => some (identity, value)
  | _ => none

/-- The reports of a run of the balancer, whatever else it does in between: no call overflows, the
next one returns, and each slot is between two of the values reported for its pair. -/
structure RttSafe (tr : List (Balancer × BalancerOp)) (b : Balancer) : Prop where
  noOverflow : ∀ x ∈ tr, ∀ identity value, x.2 = .updateRtt identity value →
    (x.1.rttSlot identity value.ip).Fits value.rtt
  returns : (tr.filterMap reportOf).length + 1 < 2 ^ 64 → ∀ identity value,
    ∃ b', b.updateRtt identity value = .ok b'
  between : ∀ identity ip slot, slotOf b.rttValues identity ip = some slot →
    ∃ lo ∈ reported (tr.filterMap reportOf) identity ip,
      ∃ hi ∈ reported (tr.filterMap reportOf) identity ip,
        lo ≤ slot.rtt.toNat ∧ slot.rtt.toNat ≤ hi

/-! ### One report -/

theorem updateRtt_eq (b : Balancer) (identity : String) (value : Rtt) :
    b.updateRtt identity value =
      let slot := b.rttSlot identity value.ip
      if slot.n + 1 = 0 then .error .divideByZero
      else .ok { b with
        rttValues := b.rttValues.insert identity
          (((b.rttValues.lookup identity).getD ∅).insert value.ip
            ⟨(slot.n * slot.rtt + value.rtt) / (slot.n + 1), slot.n + 1⟩) } := by
  simp only [updateRtt, lookup_getD_empty]
  rfl

theorem slotOf_updateRtt (h : b.updateRtt identity value = .ok b') (identity' ip' : String) :
    slotOf b'.rttValues identity' ip' =
      if identity' = identity ∧ ip' = value.ip then
        let slot := b.rttSlot identity value.ip
        some ⟨(slot.n * slot.rtt + value.rtt) / (slot.n + 1), slot.n + 1⟩
      else slotOf b.rttValues identity' ip' := by
  simp only [updateRtt_eq] at h
  split at h
  · simp at h
  · obtain rfl := Except.ok.inj h
    exact slotOf_insert _ _ _ _ _ _

/-- Only `update_rtt` is a report, and only it changes a slot. -/
theorem step_reports (tr : List (Balancer × BalancerOp)) (h : b.step op = .ok b') :
    ((∀ identity value, op ≠ .updateRtt identity value) ∧ b'.rttValues = b.rttValues ∧
      (tr ++ [(b, op)]).filterMap reportOf = tr.filterMap reportOf) ∨
    ∃ identity value, op = .updateRtt identity value ∧ b.updateRtt identity value = .ok b' ∧
      (tr ++ [(b, op)]).filterMap reportOf = tr.filterMap reportOf ++ [(identity, value)] := by
  rw [filterMap_concat]
  cases op with
  | updateRtt identity value => exact .inr ⟨identity, value, rfl, h, rfl⟩
  | _ =>
    refine .inl ⟨by simp, step_rttValues h (by simp), ?_⟩
    exact List.append_nil _

/-! ### The slots against the exact ones -/

/-- The slots of the balancer are those of exact arithmetic. -/
def SlotsExact (b : Balancer) (reports : List (String × Rtt)) : Prop :=
  ∀ identity ip, (slotOf b.rttValues identity ip).map RttValue.exact =
    slotOf (exactRtts reports) identity ip

theorem SlotsExact.getD_slotOf (h : b.SlotsExact reports) (identity ip : String) :
    (slotOf (exactRtts reports) identity ip).getD ⟨0, 0⟩ = (b.rttSlot identity ip).exact := by
  rw [← h identity ip, rttSlot]
  cases slotOf b.rttValues identity ip <;> rfl

theorem SlotsExact.exact_rttSlot (h : b.SlotsExact reports) (identity ip : String) :
    (b.rttSlot identity ip).exact =
      ⟨mean (reported reports identity ip), (reported reports identity ip).length⟩ := by
  rw [← h.getD_slotOf, slotOf_exactRtts]
  split
  next hnil => simp [hnil]
  next => rfl

theorem SlotsExact.fits_iff (h : b.SlotsExact reports) (hlen : reports.length + 1 < 2 ^ 64) :
    (b.rttSlot identity value.ip).Fits value.rtt ↔
      roundedSum (reported reports identity value.ip) + value.rtt.toNat < 2 ^ 64 := by
  have hslot := h.exact_rttSlot identity value.ip
  have hrtt := congrArg ExactRttValue.rtt hslot
  have hn := congrArg ExactRttValue.n hslot
  simp only [RttValue.exact] at hrtt hn
  have hle := length_reported_le reports identity value.ip
  rw [RttValue.Fits, hrtt, hn, roundedSum_eq]
  exact and_iff_right (by omega)

-- without overflow a step in `u64` is one over the naturals
theorem exact_next {slot : RttValue} {v : UInt64} (h : slot.Fits v) :
    RttValue.exact ⟨(slot.n * slot.rtt + v) / (slot.n + 1), slot.n + 1⟩ =
      ⟨(slot.exact.n * slot.exact.rtt + v.toNat) / (slot.exact.n + 1), slot.exact.n + 1⟩ := by
  obtain ⟨hn, hsum⟩ := h
  have hcount : (slot.n + 1).toNat = slot.n.toNat + 1 := by
    rw [UInt64.toNat_add]
    exact Nat.mod_eq_of_lt hn
  have hmul : (slot.n * slot.rtt).toNat = slot.n.toNat * slot.rtt.toNat := by
    rw [UInt64.toNat_mul]
    exact Nat.mod_eq_of_lt (by omega)
  have hadd : (slot.n * slot.rtt + v).toNat = slot.n.toNat * slot.rtt.toNat + v.toNat := by
    rw [UInt64.toNat_add, hmul]
    exact Nat.mod_eq_of_lt hsum
  simp only [RttValue.exact, UInt64.toNat_div, hcount, hadd]

theorem SlotsExact.update (h : b.SlotsExact reports)
    (hfits : (b.rttSlot identity value.ip).Fits value.rtt)
    (hb : b.updateRtt identity value = .ok b') :
    b'.SlotsExact (reports ++ [(identity, value)]) := by
  intro identity' ip'
  rw [slotOf_updateRtt hb, slotOf_exactRtts_concat]
  split
  · simp only [Option.map_some, exact_next hfits, h.getD_slotOf]
  · exact h identity' ip'

/-! ### Runs -/

/-- As long as the rounded sums of all pairs fit into `u64`, the slots are the exact ones. -/
theorem slotsExact_of_run (h : Run (StepsTo step) new tr b)
    (hlen : (tr.filterMap reportOf).length < 2 ^ 64)
    (hfits : ∀ identity ip,
      RunningMean.Fits (2 ^ 64) (reported (tr.filterMap reportOf) identity ip)) :
    b.SlotsExact (tr.filterMap reportOf) := by
  induction h with
  | nil => exact fun _ _ => rfl
  | @snoc b b' tr op hr hs ih =>
    rcases step_reports tr hs with ⟨-, hsame, hreports⟩ | ⟨identity, value, rfl, hb, hreports⟩ <;>
      rw [hreports] at hlen hfits ⊢
    · intro identity ip
      rw [hsame]
      exact ih hlen hfits identity ip
    · rw [List.length_append, List.length_singleton] at hlen
      obtain ⟨hfits, hnew⟩ := (forall_along_concat _).mp hfits
      have hexact := ih (by omega) hfits
      exact hexact.update ((hexact.fits_iff hlen).mpr hnew) hb

/-- The count of a slot is that of the reports, whatever becomes of its mean. -/
theorem n_rttSlot_of_run (h : Run (StepsTo step) new tr b)
    (hlen : (tr.filterMap reportOf).length < 2 ^ 64) (identity ip : String) :
    (b.rttSlot identity ip).n.toNat =
      (reported (tr.filterMap reportOf) identity ip).length := by
  induction h with
  | nil => rfl
  | @snoc b b' tr op hr hs ih =>
    rcases step_reports tr hs with
      ⟨-, hsame, hreports⟩ | ⟨identity', value, rfl, hb, hreports⟩ <;> rw [hreports] at hlen ⊢
    · rw [rttSlot, hsame]
      exact ih hlen
    · rw [List.length_append, List.length_singleton] at hlen
      have hold := ih (by omega)
      rw [rttSlot, slotOf_updateRtt hb]
      by_cases heq : identity = identity' ∧ ip = value.ip
      · obtain ⟨rfl, rfl⟩ := heq
        have hle := length_reported_le (tr.filterMap reportOf) identity value.ip
        have hlt : (b.rttSlot identity value.ip).n.toNat + 1 < 2 ^ 64 := by omega
        rw [if_pos ⟨rfl, rfl⟩, reported_concat, List.length_append, ← hold]
        simp only [Option.getD_some, UInt64.toNat_add, List.length_singleton]
        exact Nat.mod_eq_of_lt hlt
      · rw [if_neg heq, reported_concat_other heq]
        exact hold

theorem updateRtt_returns (h : Run (StepsTo step) new tr b)
    (hlen : (tr.filterMap reportOf).length + 1 < 2 ^ 64) (identity : String) (value : Rtt) :
    ∃ b', b.updateRtt identity value = .ok b' := by
  have hn := n_rttSlot_of_run h (by omega) identity value.ip
  have hle := length_reported_le (tr.filterMap reportOf) identity value.ip
  have hne : (b.rttSlot identity value.ip).n + 1 ≠ 0 := by
    intro hzero
    have hwrap := congrArg UInt64.toNat hzero
    rw [UInt64.toNat_add, hn] at hwrap
    have hlt : (reported (tr.filterMap reportOf) identity value.ip).length + 1 < 2 ^ 64 := by omega
    exact absurd ((Nat.mod_eq_of_lt hlt).symm.trans hwrap) (Nat.succ_ne_zero _)
  rw [updateRtt_eq]
  simp only [if_neg hne]
  exact ⟨_, rfl⟩

theorem noOverflow_iff (h : Run (StepsTo step) new tr b)
    (hlen : (tr.filterMap reportOf).length < 2 ^ 64) :
    (∀ x ∈ tr, ∀ identity value, x.2 = .updateRtt identity value →
      (x.1.rttSlot identity value.ip).Fits value.rtt) ↔
    ∀ identity ip, RunningMean.Fits (2 ^ 64) (reported (tr.filterMap reportOf) identity ip) := by
  induction h with
  | nil => simp [reported, RunningMean.Fits]
  | @snoc b b' tr op hr hs ih =>
    simp only [List.forall_mem_append, List.forall_mem_singleton]
    rcases step_reports tr hs with ⟨hop, -, hreports⟩ | ⟨identity, value, rfl, hb, hreports⟩ <;>
      rw [hreports] at hlen ⊢
    · rw [ih hlen]
      exact and_iff_left fun identity value heq => absurd heq (hop identity value)
    · rw [List.length_append, List.length_singleton] at hlen
      simp only [RunningMean.Fits]
      rw [forall_along_concat, ih (by omega)]
      -- up to here the slots are exact
      refine and_congr_right fun hfits => ?_
      have hexact := slotsExact_of_run hr (by omega) hfits
      rw [← hexact.fits_iff hlen]
      constructor
      · intro hnew
        exact hnew identity value rfl
      · rintro hnew _ _ ⟨⟩
        exact hnew

theorem between_of_slotsExact (h : b.SlotsExact reports) {slot : RttValue}
    (hslot : slotOf b.rttValues identity ip = some slot) :
    ∃ lo ∈ reported reports identity ip, ∃ hi ∈ reported reports identity ip,
      lo ≤ slot.rtt.toNat ∧ slot.rtt.toNat ≤ hi := by
  have hexact := h identity ip
  rw [hslot, slotOf_exactRtts] at hexact
  split at hexact
  · simp at hexact
  next hne =>
    have hrtt : slot.rtt.toNat = mean (reported reports identity ip) :=
      congrArg ExactRttValue.rtt (Option.some.inj hexact)
    rw [hrtt]
    exact exists_bounds hne

theorem rttSafe_of_fits (h : Run (StepsTo step) new tr b)
    (hlen : (tr.filterMap reportOf).length < 2 ^ 64)
    (hfits : ∀ identity ip,
      RunningMean.Fits (2 ^ 64) (reported (tr.filterMap reportOf) identity ip)) :
    RttSafe tr b := by
  have hexact := slotsExact_of_run h hlen hfits
  exact ⟨(noOverflow_iff h hlen).mpr hfits, fun hnext => updateRtt_returns h hnext,
    fun _ _ _ hslot => between_of_slotsExact hexact hslot⟩

/-- It is enough that all reports together fit. -/
theorem rttSafe_of_sum_lt (h : Run (StepsTo step) new tr b)
    (hlen : (tr.filterMap reportOf).length < 2 ^ 64)
    (hsum : ((tr.filterMap reportOf).map fun r => r.2.rtt.toNat).sum < 2 ^ 64) : RttSafe tr b :=
  rttSafe_of_fits h hlen fun identity ip =>
    fits_of_sum_lt ((sum_reported_le _ identity ip).trans_lt hsum)

/-- Fewer than 2^64 reports are safe exactly if, of each pair, no report overflows the sum of those
before it, rounded down after each to a multiple of their number. -/
theorem rttSafe_iff (h : Run (StepsTo step) new tr b)
    (hlen : (tr.filterMap reportOf).length < 2 ^ 64) :
    RttSafe tr b ↔
      ∀ identity ip, RunningMean.Fits (2 ^ 64) (reported (tr.filterMap reportOf) identity ip) := by
  constructor
  · exact fun hsafe => (noOverflow_iff h hlen).mp hsafe.noOverflow
  · exact rttSafe_of_fits h hlen

/-- A client connects, and two of them report. -/
theorem rttSafe_three_reports : ∃ tr b, Run (StepsTo step) new tr b ∧
    slotOf b.rttValues "A" "10.0.0.1" = some ⟨15, 2⟩ ∧ RttSafe tr b := by
  have hnew : Run (StepsTo step) new [] new := .nil new
  have hconnected := hnew.snoc (show StepsTo step _ (.subscribe "A" "token" 0) _ from rfl)
  have hfirst := hconnected.snoc
    (show StepsTo step _ (.updateRtt "A" ⟨"10.0.0.1", 10⟩) _ from rfl)
  have hother := hfirst.snoc (show StepsTo step _ (.updateRtt "B" ⟨"10.0.0.1", 40⟩) _ from rfl)
  have hlast := hother.snoc (show StepsTo step _ (.updateRtt "A" ⟨"10.0.0.1", 20⟩) _ from rfl)
  refine ⟨_, _, hlast, by decide, (rttSafe_iff hlast (by decide)).mpr fun identity ip => ?_⟩
  exact fits_of_sum_lt ((sum_reported_le _ identity ip).trans_lt (by decide))

/-- The second report wraps the sum to 0, and so the mean. -/
theorem rtt_overflow : ∃ tr b, Run (StepsTo step) new tr b ∧
    tr.map Prod.snd = [.updateRtt "A" ⟨"10.0.0.1", 18446744073709551615⟩,
      .updateRtt "A" ⟨"10.0.0.1", 1⟩] ∧
    slotOf b.rttValues "A" "10.0.0.1" = some ⟨0, 2⟩ ∧ ¬ RttSafe tr b := by
  have hnew : Run (StepsTo step) new [] new := .nil new
  have hfirst := hnew.snoc
    (show StepsTo step _ (.updateRtt "A" ⟨"10.0.0.1", 18446744073709551615⟩) _ from rfl)
  have hsecond := hfirst.snoc (show StepsTo step _ (.updateRtt "A" ⟨"10.0.0.1", 1⟩) _ from rfl)
  refine ⟨_, _, hsecond, rfl, by decide, fun h => ?_⟩
  obtain ⟨lo, hlo, -, -, hle, -⟩ := h.between "A" "10.0.0.1" ⟨0, 2⟩ (by decide)
  have hpos : ∀ v ∈ [18446744073709551615, 1], 0 < v := by decide
  exact absurd (hpos lo hlo) (Nat.not_lt.mpr hle)

end Balancer

end Mtransaction
