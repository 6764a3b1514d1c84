import Mtransaction.Lib.Runs
import Mtransaction.Server.Types
import Mathlib.Order.Monotone.Basic

/-!
# The signature watcher

The task of `spawn_tx_signature_watcher` stamps records as they arrive and, on every tick, hands
those older than ten seconds over in bundles.  It reads the clock once for every arrival and once
for every record it looks at, so an age may pass the limit between two readings of one tick.
-/

namespace Mtransaction

open Runs

/-- `signature_check_after`, in nanoseconds -/
def signatureCheckAfter : ℕ := 10000000000

def maxBundleSize : ℕ := 250

/-- The records of one `signature_checker` task.  The one at position `i` was counted at reading
`firstRead + i` of the clock. -/
structure Bundle where
  records : List SignatureRecord
  firstRead : ℕ

/-- The task's queue, the checkers it has spawned, and how often it has read the clock. -/
structure SignatureWatcher where
  signatureQueue : List SignatureRecord
  spawned : List Bundle
  reads : ℕ

inductive WatcherEvent
  | arrive (record : SignatureRecord)
  | tick

namespace SignatureWatcher

def new : SignatureWatcher := ⟨[], [], 0⟩

section Step

-- What the clock shows at each reading.
variable (clock : ℕ → ℕ)

/-- The age of a record when the clock is read for the `k`-th time has passed the limit. -/
def Expired (k : ℕ) (record : SignatureRecord) : Prop :=
  signatureCheckAfter < clock k - record.createdAt

instance (k : ℕ) (record : SignatureRecord) : Decidable (Expired clock k record) :=
  inferInstanceAs (Decidable (_ < _))

/-- The `for` loop: `to_be_bundled_count` and the number of readings when it is left.  The age is
read before the count is compared. -/
def countExpired : ℕ → ℕ → List SignatureRecord → ℕ × ℕ
  | reads, toBeBundledCount, [] => (toBeBundledCount, reads)
  | reads, toBeBundledCount, record :: rest =>
    if Expired clock reads record ∧ toBeBundledCount < maxBundleSize then
      countExpired (reads + 1) (toBeBundledCount + 1) rest
    else (toBeBundledCount, reads + 1)

/-- The inner `loop` of a tick, if it ends within `fuel` rounds. -/
def drainLoop : ℕ → SignatureWatcher → Option SignatureWatcher
  | 0, _ => none
  | fuel + 1, w =>
    -- ages are read anew in every round
    let counted := countExpired clock w.reads 0 w.signatureQueue
    -- `break`
    if counted.1 = 0 then some { w with reads := counted.2 }
    else
      drainLoop fuel
        { signatureQueue := w.signatureQueue.drop counted.1
          spawned := w.spawned ++ [⟨w.signatureQueue.take counted.1, w.reads⟩]
          reads := counted.2 }

def stamp (w : SignatureWatcher) (record : SignatureRecord) : SignatureRecord :=
  { record with createdAt := clock w.reads }

def arrive (w : SignatureWatcher) (record : SignatureRecord) : SignatureWatcher :=
  { w with signatureQueue := w.signatureQueue ++ [w.stamp clock record], reads := w.reads + 1 }

def Step (w : SignatureWatcher) : WatcherEvent → SignatureWatcher → Prop
  | .arrive record, w' => w' = w.arrive clock record
  | .tick, w' => ∃ fuel, drainLoop clock fuel w = some w'

/-- The records a run receives, as they are stamped on arrival. -/
def received (tr : List (SignatureWatcher × WatcherEvent)) : List SignatureRecord :=
  tr.filterMap fun x =>
    match x.2 with
    | .arrive record => some (x.1.stamp clock record)
    | .tick => none

/-- A bundle as `signature_checker` may expect it. -/
structure WellFormed (bundle : Bundle) : Prop where
  nonempty : bundle.records ≠ []
  size : bundle.records.length ≤ maxBundleSize
  expired : ∀ i record, bundle.records[i]? = some record →
    Expired clock (bundle.firstRead + i) record

end Step

/-! ## One tick -/

section Tick

variable {clock : ℕ → ℕ} {w w' : SignatureWatcher} {fuel : ℕ}

/-- The loop counts a prefix of expired records, up to the size of a bundle. -/
theorem countExpired_spec (clock : ℕ → ℕ) (queue : List SignatureRecord) (reads count : ℕ)
    (hcount : count ≤ maxBundleSize) :
    ∃ m, (countExpired clock reads count queue).1 = count + m ∧ count + m ≤ maxBundleSize ∧
      m ≤ queue.length ∧ reads ≤ (countExpired clock reads count queue).2 ∧
      ∀ i record, i < m → queue[i]? = some record → Expired clock (reads + i) record := by
  induction queue generalizing reads count with
  | nil => exact ⟨0, by simp [countExpired, hcount]⟩
  | cons record rest ih =>
    rw [countExpired]
    by_cases hold : Expired clock reads record ∧ count < maxBundleSize
    · rw [if_pos hold]
      obtain ⟨m, hn, hsize, hlen, hreads, hexpired⟩ := ih (reads + 1) (count + 1) hold.2
      refine ⟨m + 1, by omega, by omega, by simp; omega, by omega, ?_⟩
      intro i record' hi hget
      -- record `i` is looked at in round `i` of the loop
      cases i with
      | zero => simpa [← Option.some.inj hget] using hold.1
      | succ i =>
        have := hexpired i record' (by omega) (by simpa using hget)
        rwa [Nat.add_right_comm] at this
    · rw [if_neg hold]
      exact ⟨0, by simp [hcount]⟩

theorem countExpired_eq_zero {queue : List SignatureRecord} {reads : ℕ} {record : SignatureRecord}
    (h : (countExpired clock reads 0 queue).1 = 0) (hhead : queue.head? = some record) :
    ¬ Expired clock reads record := by
  intro hold
  cases queue with
  | nil => simp at hhead
  | cons first rest =>
    obtain rfl : first = record := by simpa using hhead
    have hcond : Expired clock reads first ∧ 0 < maxBundleSize := ⟨hold, by decide⟩
    rw [countExpired, if_pos hcond] at h
    -- one record is counted already
    obtain ⟨m, hm, -⟩ := countExpired_spec clock rest (reads + 1) (0 + 1) (by decide)
    omega

/-- What a tick does: it splits bundles off the front of the queue until the first record left is
young. -/
structure Drains (clock : ℕ → ℕ) (w w' : SignatureWatcher) : Prop where
  bundles : ∃ bundles, w'.spawned = w.spawned ++ bundles ∧
    bundles.flatMap Bundle.records ++ w'.signatureQueue = w.signatureQueue ∧
    ∀ bundle ∈ bundles, WellFormed clock bundle
  reads_le : w.reads ≤ w'.reads
  young : ∃ k, w.reads ≤ k ∧ ∀ record, w'.signatureQueue.head? = some record →
    ¬ Expired clock k record

theorem drains_of_drainLoop (h : drainLoop clock fuel w = some w') : Drains clock w w' := by
  induction fuel generalizing w with
  | zero => simp [drainLoop] at h
  | succ fuel ih =>
    obtain ⟨m, hm, hsize, hlen, hreads, hexpired⟩ :=
      countExpired_spec clock w.signatureQueue w.reads 0 (Nat.zero_le _)
    simp only [drainLoop] at h
    split at h
    next hzero =>
      obtain rfl := Option.some.inj h
      exact ⟨⟨[], by simp⟩, hreads, w.reads, le_refl _, fun record hhead =>
        countExpired_eq_zero hzero hhead⟩
    next hpos =>
      obtain ⟨⟨bundles, hspawned, hsplit, hbundles⟩, hle, k, hk, hyoung⟩ := ih h
      simp only [hm, Nat.zero_add] at hspawned hsplit hle hk hpos hsize
      refine ⟨⟨⟨w.signatureQueue.take m, w.reads⟩ :: bundles, ?_, ?_, ?_⟩, by omega, k, by omega,
        hyoung⟩
      · simp [hspawned]
      · rw [List.flatMap_cons, List.append_assoc, hsplit, List.take_append_drop]
      · intro bundle hbundle
        rcases List.mem_cons.mp hbundle with rfl | hbundle
        · refine ⟨?_, by simp; omega, fun i record hget => ?_⟩
          · exact List.ne_nil_of_length_pos (by simp; omega)
          · rw [List.getElem?_take, Option.ite_none_right_eq_some] at hget
            exact hexpired i record hget.1 hget.2
        · exact hbundles bundle hbundle

/-- The inner loop ends: every round but the last takes records off the queue. -/
theorem drainLoop_terminates (clock : ℕ → ℕ) (w : SignatureWatcher)
    (hfuel : w.signatureQueue.length < fuel) : ∃ w', drainLoop clock fuel w = some w' := by
  induction fuel generalizing w with
  | zero => omega
  | succ fuel ih =>
    simp only [drainLoop]
    split
    · exact ⟨_, rfl⟩
    next hpos =>
      obtain ⟨m, hm, -, hlen, -⟩ :=
        countExpired_spec clock w.signatureQueue w.reads 0 (Nat.zero_le _)
      refine ih _ ?_
      rw [List.length_drop]
      omega

-- more fuel changes nothing once the loop has ended
theorem drainLoop_succ (h : drainLoop clock fuel w = some w') :
    drainLoop clock (fuel + 1) w = some w' := by
  induction fuel generalizing w with
  | zero => simp [drainLoop] at h
  | succ fuel ih =>
    rw [drainLoop] at h ⊢
    split at h
    next hzero => rw [if_pos hzero, h]
    next hpos => rw [if_neg hpos, ih h]

end Tick

/-! ## Whole runs -/

section Runs

variable {clock : ℕ → ℕ} {w w' : SignatureWatcher} {tr : List (SignatureWatcher × WatcherEvent)}

/-- What every run keeps: nothing is lost, bundles are well formed, and the queue is in the order
of its stamps, none of them in the future. -/
structure Watching (clock : ℕ → ℕ) (tr : List (SignatureWatcher × WatcherEvent))
    (w : SignatureWatcher) : Prop where
  conserved : w.spawned.flatMap Bundle.records ++ w.signatureQueue = received clock tr
  wellFormed : ∀ bundle ∈ w.spawned, WellFormed clock bundle
  sorted : w.signatureQueue.Pairwise fun r r' => r.createdAt ≤ r'.createdAt
  past : ∀ record ∈ w.signatureQueue, record.createdAt ≤ clock w.reads

-- what a run has received grows with arrivals only
theorem received_arrive (record : SignatureRecord) :
    received clock (tr ++ [(w, .arrive record)]) = received clock tr ++ [w.stamp clock record] := by
  simp [received]

theorem received_tick : received clock (tr ++ [(w, .tick)]) = received clock tr := by
  simp [received]

theorem Watching.arrive (hclock : Monotone clock) (h : Watching clock tr w)
    (record : SignatureRecord) :
    Watching clock (tr ++ [(w, .arrive record)]) (w.arrive clock record) := by
  have hlater : clock w.reads ≤ clock (w.reads + 1) := hclock (Nat.le_succ _)
  refine ⟨?_, h.wellFormed, ?_, ?_⟩
  · rw [received_arrive, ← h.conserved, List.append_assoc]
    rfl
  · refine List.pairwise_append.mpr ⟨h.sorted, List.pairwise_singleton _ _, ?_⟩
    intro r hr r' hr'
    obtain rfl := List.mem_singleton.mp hr'
    exact h.past r hr
  · intro r hr
    rcases List.mem_append.mp hr with hr | hr
    · exact (h.past r hr).trans hlater
    · obtain rfl := List.mem_singleton.mp hr
      exact hlater

theorem Watching.tick (hclock : Monotone clock) (h : Watching clock tr w) (hd : Drains clock w w') :
    Watching clock (tr ++ [(w, .tick)]) w' := by
  obtain ⟨⟨bundles, hspawned, hsplit, hbundles⟩, hle, -⟩ := hd
  -- a tick keeps a suffix of the queue, so it stays sorted
  have hsuffix : w'.signatureQueue <:+ w.signatureQueue := ⟨_, hsplit⟩
  refine ⟨?_, ?_, h.sorted.sublist hsuffix.sublist, ?_⟩
  · rw [hspawned, List.flatMap_append, List.append_assoc, hsplit, h.conserved,
      received_tick]
  · intro bundle hmem
    rw [hspawned] at hmem
    exact (List.mem_append.mp hmem).elim (h.wellFormed bundle) (hbundles bundle)
  · intro r hr
    exact (h.past r (hsuffix.subset hr)).trans (hclock hle)

theorem watching_of_run (hclock : Monotone clock) (h : Run (Step clock) new tr w) :
    Watching clock tr w := by
  generalize hs : new = s at h
  induction h with
  | nil => exact hs ▸ ⟨rfl, by simp [new], .nil, by simp [new]⟩
  | @snoc t u tr event hr hstep ih =>
    cases event with
    | arrive record => exact hstep ▸ ih.arrive hclock record
    | tick =>
      obtain ⟨fuel, hfuel⟩ := hstep
      exact ih.tick hclock (drains_of_drainLoop hfuel)

/-- The records left by a tick were stamped after the first of them, which is young. -/
theorem young_after_tick (hclock : Monotone clock) (h : Watching clock tr w)
    (hd : Drains clock w w') {start : ℕ} (hstart : start ≤ clock w.reads) :
    ∀ record ∈ w'.signatureQueue, start - record.createdAt ≤ signatureCheckAfter := by
  intro record hmem
  have hsorted := (h.tick hclock hd).sorted
  obtain ⟨-, -, k, hk, hyoung⟩ := hd
  obtain ⟨first, rest, hqueue⟩ := List.exists_cons_of_ne_nil (List.ne_nil_of_mem hmem)
  have hfirst : first.createdAt ≤ record.createdAt := by
    rw [hqueue] at hsorted hmem
    rcases List.mem_cons.mp hmem with rfl | hrest
    · exact le_refl _
    · exact List.rel_of_pairwise_cons hsorted hrest
  have hage := hyoung first (by rw [hqueue, List.head?_cons])
  -- the clock has not run back since the tick started
  have hnow : start ≤ clock k := hstart.trans (hclock hk)
  simp only [Expired] at hage
  omega

/-- In every run of arrivals and ticks the bundles followed by the queue are the records received,
all bundles are well formed, a tick always ends, whatever bound on its rounds it is given from some
bound on, and then no record is left that was too old when the tick started. -/
theorem watcher_correct (hclock : Monotone clock) (h : Run (Step clock) new tr w) :
    w.spawned.flatMap Bundle.records ++ w.signatureQueue = received clock tr ∧
      (∀ bundle ∈ w.spawned, WellFormed clock bundle) ∧
      (∃ w' enough, ∀ fuel ≥ enough, drainLoop clock fuel w = some w') ∧
      ∀ w', Step clock w .tick w' → ∀ start ≤ clock w.reads, ∀ record ∈ w'.signatureQueue,
        start - record.createdAt ≤ signatureCheckAfter := by
  have hwatching := watching_of_run hclock h
  refine ⟨hwatching.conserved, hwatching.wellFormed, ?_, ?_⟩
  · obtain ⟨w', hw'⟩ := drainLoop_terminates clock w (Nat.lt_succ_self w.signatureQueue.length)
    refine ⟨w', w.signatureQueue.length + 1, fun fuel hfuel => ?_⟩
    induction fuel, hfuel using Nat.le_induction with
    | base => exact hw'
    | succ fuel _ ih => exact drainLoop_succ ih
  · rintro w' ⟨fuel, hfuel⟩ start hstart
    exact young_after_tick hclock hwatching (drains_of_drainLoop hfuel) hstart

/-- Twenty seconds between readings. -/
def slowClock (k : ℕ) : ℕ := 20000000000 * k

def anyRecord : SignatureRecord :=
  ⟨0, 0, 0, 0, ⟨.replicate 64 0⟩, .forward, ["A"], {"10.0.0.1"}, "unknown"⟩

/-- A record arrives at reading 0 and is bundled at reading 1. -/
theorem wellFormed_single_bundle : WellFormed slowClock ⟨[anyRecord], 1⟩ := by
  have hclock : Monotone slowClock := fun _ _ h => Nat.mul_le_mul_left _ h
  have harrive : Step slowClock new (.arrive anyRecord) ⟨[anyRecord], [], 1⟩ := rfl
  have htick : Step slowClock ⟨[anyRecord], [], 1⟩ .tick ⟨[], [⟨[anyRecord], 1⟩], 2⟩ := ⟨2, rfl⟩
  exact (watcher_correct hclock (((Run.nil new).snoc harrive).snoc htick)).2.1 _
    (List.mem_singleton_self _)

end Runs

end SignatureWatcher

end Mtransaction
