import Mtransaction.Server.TxStream

/-!
# The connected-stake metric

`SERVER_TOTAL_CONNECTED_STAKE` has one series per identity.  The balancer writes the series of all
connected identities whenever it recomputes its total; the task of a connection deletes the series of
its identity when it has unsubscribed, whoever is connected under that identity by then.
-/

namespace Mtransaction

open Runs

namespace Balancer

def series (b : Balancer) (i : String) : Option Int64 := b.gauges.totalConnectedStake.lookup i

def Shown (b : Balancer) : Prop :=
  ∀ i c, b.txConsumers.lookup i = some c → b.series i = some c.stake.toInt64

theorem shown_recalc (b : Balancer) : b.recalcTotalConnectedStake.Shown := by
  intro i c hc
  rw [recalc_txConsumers] at hc
  rw [series, lookup_recalc_series, hc]

-- a recomputation brings up no series but those of connected identities
theorem series_recalc {b : Balancer} {i : String}
    (h : (b.recalcTotalConnectedStake.series i).isSome) :
    (b.series i).isSome ∨ (b.txConsumers.lookup i).isSome := by
  rw [series, lookup_recalc_series] at h
  cases hc : b.txConsumers.lookup i with
  | none =>
    rw [hc] at h
    exact .inl h
  | some c => exact .inr rfl

/-! ## Removing entries -/

/-- Entries may have gone; what is left is shown if it was. -/
structure Trims (b b' : Balancer) : Prop where
  entries : ∀ i c, b'.txConsumers.lookup i = some c → b.txConsumers.lookup i = some c
  shown : b.Shown → b'.Shown
  series : ∀ i, (b'.series i).isSome → (b.series i).isSome ∨ (b.txConsumers.lookup i).isSome

theorem Trims.refl (b : Balancer) : Trims b b := ⟨fun _ _ h => h, fun h => h, fun _ => .inl⟩

theorem Trims.trans {b b' b'' : Balancer} (h : Trims b b') (h' : Trims b' b'') : Trims b b'' := by
  refine ⟨fun i c hc => h.entries i c (h'.entries i c hc), fun hb => h'.shown (h.shown hb), ?_⟩
  intro i hi
  rcases h'.series i hi with hseries | hentry
  · exact h.series i hseries
  · obtain ⟨c, hc⟩ := Option.isSome_iff_exists.mp hentry
    right
    rw [h.entries i c hc]
    rfl

theorem trims_unsubscribe (b : Balancer) (identity token : String) :
    Trims b (b.unsubscribe identity token) := by
  have hentries : ∀ i c, (b.unsubscribe identity token).txConsumers.lookup i = some c →
      b.txConsumers.lookup i = some c := by
    intro i c hc
    rw [lookup_unsubscribe] at hc
    exact (Option.filter_eq_some_iff.mp hc).1
  rcases b.unsubscribe_cases identity token with ⟨c, -, -, heq⟩ | ⟨-, heq⟩
  · rw [heq] at hentries ⊢
    refine ⟨hentries, fun _ => shown_recalc _, fun i hi => ?_⟩
    rcases series_recalc hi with hseries | hentry
    · exact .inl hseries
    · obtain ⟨c, hc⟩ := Option.isSome_iff_exists.mp hentry
      right
      rw [hentries i c hc]
      rfl
  · rw [heq]
    exact .refl b

theorem trims_flushUnsubscribes (b : Balancer) (o : HashOrder (String × TxConsumer)) :
    Trims b (b.flushUnsubscribes o) := by
  unfold flushUnsubscribes
  refine List.foldlRecOn (motive := Trims b) _ _ (.refl b) ?_
  intro b' h entry _
  exact h.trans (b'.trims_unsubscribe entry.1 entry.2)

end Balancer

namespace TxStreams

variable {s s' : TxStreams} {event : StreamsEvent} {id : ConnId} {i : String} {c : TxConsumer}
  {tr : List (TxStreams × StreamsEvent)}

/-! ## The claim about the metric -/

/-- Every connection has its entry and is served, or has finished its cleanup. -/
def Quiescent (s : TxStreams) : Prop :=
  ∀ id conn, s.conns[id]? = some conn →
    conn.phase = .finished ∨
      conn.phase = .looping ∧ ∃ c, s.balancer.txConsumers.lookup conn.identity = some c ∧ c.tx = id

/-- Exactly the connected identities have a series, and it shows their stake. -/
structure StakeMirrored (s : TxStreams) : Prop where
  present : ∀ i, (s.balancer.series i).isSome ↔ (s.balancer.txConsumers.lookup i).isSome
  value : ∀ i c v, s.balancer.txConsumers.lookup i = some c → s.balancer.series i = some v →
    v.toInt = c.stake.toNat

/-- The step does not spoil the metric: a series is deleted only while its identity is not
connected, an update leaves connected consumers the stakes they have, and a new consumer's stake is
within `i64`. -/
def Harmless (s : TxStreams) : StreamsEvent → Prop
  | .resetClientMetrics id => ∀ conn, s.conns[id]? = some conn →
      s.balancer.txConsumers.lookup conn.identity = none
  | .updateStakeWeights w => ∀ i c, s.balancer.txConsumers.lookup i = some c →
      (w.lookup i).getD 1 = c.stake
  | .txStream identity _ => ((s.balancer.stakeWeights.lookup identity).getD 1).toNat < 2 ^ 63
  | _ => True

/-! ## The invariant -/

/-- Some connection of this identity has not finished its cleanup. -/
def Unfinished (conns : List Conn) (i : String) : Prop :=
  ∃ conn ∈ conns, conn.identity = i ∧ conn.phase ≠ .finished

-- the task of an entry's connection is still to clean up
theorem Invariant.unfinished (h : Invariant s) (hc : s.balancer.txConsumers.lookup i = some c) :
    Unfinished s.conns i := by
  obtain ⟨conn, howner⟩ := h.owned i c hc
  refine ⟨conn, List.mem_of_getElem? howner.isConn, howner.identity_eq, ?_⟩
  intro hphase
  have hlive := howner.live
  simp [Conn.live, hphase] at hlive

theorem Unfinished.modify {conns : List Conn} {f : Conn → Conn} (h : Unfinished conns i)
    (hf : ∀ conn, (f conn).identity = conn.identity)
    (hphase : ∀ conn, conns[id]? = some conn → conn.identity = i → conn.phase ≠ .finished →
      (f conn).phase ≠ .finished) : Unfinished (conns.modify id f) i := by
  obtain ⟨conn, hmem, hi, hopen⟩ := h
  obtain ⟨k, hk⟩ := List.mem_iff_getElem?.mp hmem
  by_cases hid : id = k
  · subst hid
    refine ⟨f conn, List.mem_of_getElem? (i := id) ?_, (hf conn).trans hi, hphase conn hk hi hopen⟩
    simp [hk]
  · refine ⟨conn, List.mem_of_getElem? (i := k) ?_, hi, hopen⟩
    simp [hid, hk]

/-- What harmless steps keep: the connected identities are shown, within `i64`, and whoever else has
a series has a connection whose task will delete it. -/
structure Metered (s : TxStreams) : Prop where
  shown : s.balancer.Shown
  small : ∀ i c, s.balancer.txConsumers.lookup i = some c → c.stake.toNat < 2 ^ 63
  owed : ∀ i, (s.balancer.series i).isSome → Unfinished s.conns i

theorem metered_new : Metered new := by
  refine ⟨?_, ?_, ?_⟩ <;> simp [new, Balancer.new, Balancer.Shown, Balancer.series]

theorem Metered.modifyConn {f : Conn → Conn} (h : Metered s)
    (hf : ∀ conn, (f conn).identity = conn.identity)
    (hphase : ∀ i conn, (s.balancer.series i).isSome → s.conns[id]? = some conn →
      conn.identity = i → conn.phase ≠ .finished → (f conn).phase ≠ .finished) :
    Metered (s.modifyConn id f) :=
  ⟨h.shown, h.small, fun i hi => (h.owed i hi).modify hf fun conn => hphase i conn hi⟩

/-- Entries change in nothing that the metric shows. -/
theorem Metered.sameStakes {b : Balancer} {g : String → TxConsumer → TxConsumer} (h : Metered s)
    (hlookup : ∀ i, b.txConsumers.lookup i = (s.balancer.txConsumers.lookup i).map (g i))
    (hstake : ∀ i c, s.balancer.txConsumers.lookup i = some c → (g i c).stake = c.stake)
    (hseries : b.series = s.balancer.series) : Metered { s with balancer := b } := by
  have hentry : ∀ i c', b.txConsumers.lookup i = some c' →
      ∃ c, s.balancer.txConsumers.lookup i = some c ∧ c'.stake = c.stake := by
    intro i c' hc'
    obtain ⟨c, hc, rfl⟩ := Option.map_eq_some_iff.mp ((hlookup i).symm.trans hc')
    exact ⟨c, hc, hstake i c hc⟩
  refine ⟨fun i c' hc' => ?_, fun i c' hc' => ?_, ?_⟩
  · obtain ⟨c, hc, heq⟩ := hentry i c' hc'
    rw [hseries, heq]
    exact h.shown i c hc
  · obtain ⟨c, hc, heq⟩ := hentry i c' hc'
    rw [heq]
    exact h.small i c hc
  · rw [hseries]
    exact h.owed

theorem Metered.trims {b : Balancer} (h : Metered s) (hinv : Invariant s)
    (ht : Balancer.Trims s.balancer b) : Metered { s with balancer := b } := by
  refine ⟨ht.shown h.shown, fun i c hc => h.small i c (ht.entries i c hc), fun i hi => ?_⟩
  rcases ht.series i hi with hseries | hentry
  · exact h.owed i hseries
  · obtain ⟨c, hc⟩ := Option.isSome_iff_exists.mp hentry
    exact hinv.unfinished hc

theorem Metered.txStream {identity token : String} (h : Metered s)
    (hinv : Invariant (s.txStream identity token))
    (hsmall : ((s.balancer.stakeWeights.lookup identity).getD 1).toNat < 2 ^ 63) :
    Metered (s.txStream identity token) := by
  refine ⟨Balancer.shown_recalc _, fun i c hc => ?_, fun i hi => ?_⟩
  · simp only [TxStreams.txStream] at hc
    rw [Balancer.lookup_subscribe] at hc
    split at hc
    · obtain rfl := Option.some.inj hc
      exact hsmall
    · exact h.small i c hc
  · rcases Balancer.series_recalc hi with hseries | hentry
    · obtain ⟨conn, hmem, hconn⟩ := h.owed i hseries
      exact ⟨conn, List.mem_append_left _ hmem, hconn⟩
    · obtain ⟨c, hc⟩ := Option.isSome_iff_exists.mp hentry
      exact hinv.unfinished hc

-- the deleted series is that of an identity without an entry
theorem Metered.resetClientMetrics (h : Metered s) {conn : Conn}
    (hconn : s.conns[id]? = some conn)
    (hgone : s.balancer.txConsumers.lookup conn.identity = none) :
    Metered (TxStreams.modifyConn { s with balancer := s.balancer.resetClientMetrics conn.identity }
      id fun conn => { conn with phase := .finished }) := by
  have hlookup (i : String) : (s.balancer.resetClientMetrics conn.identity).series i =
      if i = conn.identity then none else s.balancer.series i :=
    AList.lookup_erase_eq_ite conn.identity i
  have hreset : Metered { s with balancer := s.balancer.resetClientMetrics conn.identity } := by
    refine ⟨fun i c hc => ?_, h.small, fun i hi => ?_⟩
    · have hne : i ≠ conn.identity := by
        rintro rfl
        exact absurd (hc.symm.trans hgone) (by simp)
      rw [hlookup, if_neg hne]
      exact h.shown i c hc
    · rw [hlookup] at hi
      split at hi
      · simp at hi
      · exact h.owed i hi
  refine hreset.modifyConn (fun _ => rfl) fun i conn' hi hconn' hid => ?_
  obtain rfl : conn = conn' := Option.some.inj (hconn.symm.trans hconn')
  rw [hlookup, if_pos hid.symm] at hi
  simp at hi

theorem Metered.step (h : Metered s) (hinv : Invariant s) (hs : Step s event s')
    (hharmless : s.Harmless event) : Metered s' := by
  have hinv' := hinv.step hs
  cases hs with
  | txStream idle fresh => exact h.txStream hinv' hharmless
  | endStream => exact h.modifyConn (fun _ => rfl) (fun _ _ _ _ _ hphase => hphase)
  | dropReceiver => exact h.modifyConn (fun _ => rfl) (fun _ _ _ _ _ hphase => hphase)
  | stop hconn looping wake => exact h.modifyConn (fun _ => rfl) (fun _ _ _ _ _ _ => by simp)
  | @cleanup id conn idle hconn stopping =>
    have htrims := h.trims hinv (s.balancer.trims_unsubscribe conn.identity conn.token)
    exact htrims.modifyConn (fun _ => rfl) (fun _ _ _ _ _ _ => by simp)
  | @resetClientMetrics id conn hconn unsubscribed =>
    exact h.resetClientMetrics hconn (hharmless conn hconn)
  | updateRtt idle hconn looping ok =>
    obtain ⟨rttValues, rfl⟩ := Balancer.updateRtt_eq_ok _ _ ok
    exact h.sameStakes (g := fun _ c => c) (by simp) (fun _ _ _ => rfl) rfl
  | startPublish picked unsent => exact ⟨h.shown, h.small, h.owed⟩
  | @send n call pick rest hcall next =>
    unfold TxStreams.send
    cases hacc : s.accepts pick.1.tx with
    | true => exact ⟨h.shown, h.small, h.owed⟩
    | false =>
      have hflag := h.sameStakes (s.balancer.lookup_flagUnsubscribe · pick.1.identity)
        (fun i c _ => by split <;> rfl) rfl
      have hfailed : Metered (TxStreams.modifyConn _ pick.1.tx
          fun conn => { conn with sendFailed := true }) :=
        hflag.modifyConn (fun _ => rfl) fun _ _ _ _ _ hphase => hphase
      exact ⟨hfailed.shown, hfailed.small, hfailed.owed⟩
  | endPublish hcall done => exact ⟨h.shown, h.small, h.owed⟩
  | @updateStakeWeights w idle =>
    exact h.sameStakes (s.balancer.lookup_updateStakeWeights · w) (fun i c hc => hharmless i c hc) rfl
  | @receiveLeaders leaderTpus leaders o idle =>
    have hset : Metered { s with balancer := s.balancer.setLeaders leaderTpus leaders } :=
      h.sameStakes (g := fun _ c => c) (by simp) (fun _ _ _ => rfl) rfl
    have hinvset : Invariant { s with balancer := s.balancer.setLeaders leaderTpus leaders } :=
      hinv.mapEntries (g := fun _ c => c) (by simp) rfl (fun _ _ => rfl) (fun _ _ => rfl)
        (fun _ _ => rfl) (fun _ _ _ _ _ => .inl)
    exact hset.trims hinvset (Balancer.trims_flushUnsubscribes _ o)

-- a stake within `i64` is shown as it is
theorem toInt_toInt64 {stake : UInt64} (h : stake.toNat < 2 ^ 63) : stake.toInt64.toInt = stake.toNat := by
  show stake.toBitVec.toInt = stake.toBitVec.toNat
  apply BitVec.toInt_eq_toNat_of_lt
  show 2 * stake.toNat < 2 ^ 64
  omega

theorem Metered.stakeMirrored (h : Metered s) (hquiet : s.Quiescent) : s.StakeMirrored := by
  refine ⟨fun i => ⟨fun hi => ?_, fun hi => ?_⟩, fun i c v hc hv => ?_⟩
  · obtain ⟨conn, hmem, rfl, hopen⟩ := h.owed i hi
    obtain ⟨id, hid⟩ := List.mem_iff_getElem?.mp hmem
    obtain ⟨-, c, hc, -⟩ := (hquiet id conn hid).resolve_left hopen
    rw [hc]
    rfl
  · obtain ⟨c, hc⟩ := Option.isSome_iff_exists.mp hi
    rw [h.shown i c hc]
    rfl
  · rw [h.shown i c hc] at hv
    rw [← Option.some.inj hv]
    exact toInt_toInt64 (h.small i c hc)

/-- In every interleaving whose steps are harmless, the metric mirrors the table in every quiescent
state. -/
theorem stakeMirrored_of_harmless (h : Run Step new tr s)
    (hharmless : ∀ x ∈ tr, x.1.Harmless x.2) :
    (∀ x ∈ tr, x.1.Quiescent → x.1.StakeMirrored) ∧ (s.Quiescent → s.StakeMirrored) := by
  have hstep : ∀ t a u, (t, a) ∈ tr → Invariant t ∧ Metered t → Step t a u →
      Invariant u ∧ Metered u := by
    rintro t a u hmem ⟨hinv, hmetered⟩ hs
    exact ⟨hinv.step hs, hmetered.step hinv hs (hharmless _ hmem)⟩
  have hnew : Invariant new ∧ Metered new := ⟨invariant_new, metered_new⟩
  constructor
  · intro x hx
    exact (h.invariant_mem hnew hstep x hx).2.stakeMirrored
  · exact (h.invariant hnew hstep).2.stakeMirrored

def twoWeights : HashMap String UInt64 := AList.collect [("A", 5), ("B", 7)]

/-- Of two clients with stake the first has left, and its task has cleaned up. -/
def departed : TxStreams :=
  ⟨((((Balancer.new.updateStakeWeights twoWeights).subscribe "A" "token1" 0).subscribe
      "B" "token2" 1).unsubscribe "A" "token1").resetClientMetrics "A",
    [⟨"A", "token1", true, false, .finished, false⟩, ⟨"B", "token2", false, false, .looping, false⟩],
    []⟩

/-- The stake of the client that stayed is shown, and no other. -/
theorem stakeMirrored_departed :
    departed.StakeMirrored ∧ departed.balancer.series "B" = some 7 ∧
      departed.balancer.series "A" = none := by
  have hweights : Run Step new _ _ := (Run.nil new).snoc
    (@Step.updateStakeWeights _ twoWeights rfl)
  have hboth := (hweights.snoc (@Step.txStream _ "A" "token1" rfl (by simp [new]))).snoc
    (@Step.txStream _ "B" "token2" rfl (by simp [new, TxStreams.txStream]))
  have hstopped := (hboth.snoc (@Step.endStream _ 0)).snoc
    (@Step.stop _ 0 ⟨"A", "token1", true, false, .looping, false⟩ rfl rfl (.inr (.inl rfl)))
  have hcleaned := hstopped.snoc
    (@Step.cleanup _ 0 ⟨"A", "token1", true, false, .stopping, false⟩ rfl rfl rfl)
  have hreset : Run Step new _ departed := hcleaned.snoc
    (@Step.resetClientMetrics _ 0 ⟨"A", "token1", true, false, .unsubscribed, false⟩ rfl rfl)
  refine ⟨(stakeMirrored_of_harmless hreset ?_).2 ?_, by decide, by decide⟩
  · simp only [List.nil_append, List.cons_append, List.forall_mem_cons, Harmless]
    refine ⟨fun i c hc => by simp [new, Balancer.new] at hc, ?_, ?_, trivial, trivial, trivial,
      fun conn hconn => ?_, by simp⟩
    · decide
    · decide
    · obtain rfl := Option.some.inj hconn
      decide
  · intro id conn hconn
    rcases id with _ | _ | id
    · obtain rfl := Option.some.inj hconn
      exact .inl rfl
    · obtain rfl := Option.some.inj hconn
      exact .inr ⟨rfl, _, rfl, rfl⟩
    · exact absurd hconn (by simp [departed])

/-- A client has reconnected, and the task of its old connection has cleaned up. -/
def reconnected : TxStreams :=
  ⟨((Balancer.new.subscribe "A" "token1" 0).subscribe "A" "token2" 1).resetClientMetrics "A",
    [⟨"A", "token1", false, false, .finished, false⟩, ⟨"A", "token2", false, false, .looping, false⟩],
    []⟩

/-- The client is connected and everything is quiet, but its series is gone. -/
theorem reconnected_not_mirrored :
    Reachable Step new reconnected ∧ reconnected.Quiescent ∧ ¬ reconnected.StakeMirrored := by
  have hfirst : Step new (.txStream "A" "token1") _ := .txStream rfl (by simp [new])
  have hsecond : Step (new.txStream "A" "token1") (.txStream "A" "token2") _ :=
    .txStream rfl (by simp [new, TxStreams.txStream])
  have hstop : Step ((new.txStream "A" "token1").txStream "A" "token2") (.stop 0) _ :=
    .stop rfl rfl (.inl (by decide))
  have hstopped := (((Reachable.refl new).next hfirst).next hsecond).next hstop
  -- the token is stale: the cleanup leaves the entry to the new connection
  have hcleaned := hstopped.next
    (@Step.cleanup _ 0 ⟨"A", "token1", false, false, .stopping, false⟩ rfl rfl rfl)
  refine ⟨?_, ?_, ?_⟩
  · exact hcleaned.next
      (@Step.resetClientMetrics _ 0 ⟨"A", "token1", false, false, .unsubscribed, false⟩ rfl rfl)
  · intro id conn hconn
    rcases id with _ | _ | id
    · obtain rfl := Option.some.inj hconn
      exact .inl rfl
    · obtain rfl := Option.some.inj hconn
      exact .inr ⟨rfl, _, rfl, rfl⟩
    · exact absurd hconn (by simp [reconnected])
  · intro h
    exact absurd ((h.present "A").mpr rfl) (by decide)

end TxStreams

end Mtransaction
