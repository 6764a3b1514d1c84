import Mtransaction.Server.ClientReports
import Mtransaction.Server.RttMeans

/-!
# Means of what the connections report

The connections report round trips to the balancer one by one, among everything else that happens
to it.  What the balancer holds for a client and an address is set against the mean of what the
client's connections reported.
-/

namespace Mtransaction

open Runs RunningMean

namespace ClientReports

variable {s t : ClientReports} {event : ReportEvent} {tr : List (ClientReports × ReportEvent)}

/-- The round trip that a step reports, and for whom. -/
def rttOf (x : ClientReports × ReportEvent) : Option (String × Rtt) :=
  match x.2 with
  | .task identity token .part =>
    match x.1.partsOf identity token with
    | .rtt value :: _ => some (identity, value)
    | _ => none
  | _ => none

/-- After `n` reports of the client for the address, the balancer has counted `n` and holds a value
that is not above their mean, and at most `(n - 1) / 2` below it. -/
structure MeanHeld (reports : List (String × Rtt)) (b : Balancer) (identity ip : String) :
    Prop where
  absent : slotOf b.rttValues identity ip = none ↔ reported reports identity ip = []
  counted : ∀ slot, slotOf b.rttValues identity ip = some slot →
    slot.n.toNat = (reported reports identity ip).length
  drift : ∀ slot, slotOf b.rttValues identity ip = some slot →
    (slot.rtt.toNat : ℚ) ≤ (reported reports identity ip).sum / slot.n.toNat ∧
      ((reported reports identity ip).sum : ℚ) / slot.n.toNat ≤
        slot.rtt.toNat + (slot.n.toNat - 1) / 2

/-- Only a part of a request changes what the balancer holds. -/
theorem rtt_step (hs : Step s event t) :
    rttOf (s, event) = none ∧ t.balancer.rttValues = s.balancer.rttValues ∨
    ∃ identity value, rttOf (s, event) = some (identity, value) ∧
      s.balancer.updateRtt identity value = .ok t.balancer := by
  cases hs with
  | @part s' identity token task part rest htask next ok =>
    have hparts : s.partsOf identity token = part :: rest := by
      simp only [partsOf, htask, ReportTask.parts, next]
    rcases perform_cases ok with ⟨gauge, value, rfl, rfl⟩ | ⟨value, balancer, rfl, hupdate, rfl⟩ |
      ⟨pong, rfl, ⟨o, -, rfl⟩ | rfl⟩
    · exact .inl ⟨by simp only [rttOf, hparts], rfl⟩
    · exact .inr ⟨identity, value, by simp only [rttOf, hparts], hupdate⟩
    · exact .inl ⟨by simp only [rttOf, hparts], rfl⟩
    · exact .inl ⟨by simp only [rttOf, hparts], rfl⟩
  | op other ok => exact .inl ⟨rfl, Balancer.step_rttValues ok other⟩
  | txStream => exact .inl ⟨rfl, rttValues_subscribe _ _ _ _⟩
  | unsubscribe => exact .inl ⟨rfl, rttValues_unsubscribe _ _ _⟩
  | _ => exact .inl ⟨rfl, rfl⟩

-- the run of the balancer is embedded in that of the tasks
theorem slotsExact_of_reports (h : Run Step new tr s) (hlen : (tr.filterMap rttOf).length < 2 ^ 64)
    (hfits : ∀ identity ip, Fits (2 ^ 64) (reported (tr.filterMap rttOf) identity ip)) :
    s.balancer.SlotsExact (tr.filterMap rttOf) := by
  induction h with
  | nil => exact fun _ _ => rfl
  | snoc _ hs ih =>
    rw [filterMap_concat] at hlen hfits ⊢
    rcases rtt_step hs with ⟨hnone, hsame⟩ | ⟨identity, value, hreport, hupdate⟩
    · rw [hnone, Option.toList_none, List.append_nil] at hlen hfits ⊢
      intro identity ip
      rw [hsame]
      exact ih hlen hfits identity ip
    · rw [hreport, Option.toList_some] at hlen hfits ⊢
      rw [List.length_append, List.length_singleton] at hlen
      obtain ⟨hfits, hnew⟩ := (forall_along_concat _).mp hfits
      have hexact := ih (by omega) hfits
      exact hexact.update ((hexact.fits_iff hlen).mpr hnew) hupdate

theorem meanHeld_of_slotsExact {reports : List (String × Rtt)} {b : Balancer}
    (h : b.SlotsExact reports) (identity ip : String) : MeanHeld reports b identity ip := by
  have hslots := (h identity ip).trans (slotOf_exactRtts reports identity ip)
  have hsome {slot : RttValue} (hslot : slotOf b.rttValues identity ip = some slot) :
      slotOf (exactRtts reports) identity ip = some slot.exact := by
    rw [← h identity ip, hslot, Option.map_some]
  refine ⟨?_, fun slot hslot => ?_, fun slot hslot => ?_⟩
  · rw [← Option.map_eq_none_iff, hslots]
    split
    next hnil => exact iff_of_true rfl hnil
    next hne => exact iff_of_false (by simp) hne
  · rw [hslot, Option.map_some] at hslots
    split at hslots
    · simp at hslots
    · exact congrArg ExactRttValue.n (Option.some.inj hslots)
  · have hdrift := exactRtts_drift (hsome hslot)
    simpa only [RttValue.exact] using hdrift

/-- In every state, for every client and address, as long as the rounded sums fit into `u64`. -/
theorem meanHeld_of_run (h : Run Step new tr s) (hlen : (tr.filterMap rttOf).length < 2 ^ 64)
    (hfits : ∀ identity ip, Fits (2 ^ 64) (reported (tr.filterMap rttOf) identity ip))
    (identity ip : String) : MeanHeld (tr.filterMap rttOf) s.balancer identity ip :=
  meanHeld_of_slotsExact (slotsExact_of_reports h hlen hfits) identity ip

/-- Two connections of one client report 10 and 21. -/
theorem meanHeld_two_connections : ∃ tr s, Run Step new tr s ∧
    tr.filterMap rttOf = [("A", ⟨"10.0.0.1", 10⟩), ("A", ⟨"10.0.0.1", 21⟩)] ∧
    slotOf s.balancer.rttValues "A" "10.0.0.1" = some ⟨15, 2⟩ ∧
    MeanHeld (tr.filterMap rttOf) s.balancer "A" "10.0.0.1" := by
  have hopen := ((Run.nil new).snoc (@Step.txStream new "A" "a" 0 rfl)).snoc
    (@Step.txStream _ "A" "b" 1 rfl)
  have htaken := (hopen.snoc (@Step.request _ "A" "a" _
    (.ok { rtt := some ⟨"10.0.0.1", 10⟩ }) rfl rfl)).snoc (@Step.request _ "A" "b" _
    (.ok { rtt := some ⟨"10.0.0.1", 21⟩ }) rfl rfl)
  have hreported := (htaken.snoc (@Step.part _ _ "A" "a" _ _ _ rfl rfl rfl)).snoc
    (@Step.part _ _ "A" "b" _ _ _ rfl rfl rfl)
  refine ⟨_, _, hreported, rfl, by decide, meanHeld_of_run hreported (by decide) ?_ _ _⟩
  exact fun identity ip => fits_of_sum_lt ((sum_reported_le _ identity ip).trans_lt (by decide))

end ClientReports

end Mtransaction
