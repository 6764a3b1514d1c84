import Mtransaction.Lib.Counters
import Mtransaction.Lib.Runs
import Mtransaction.Server.Types
import Mathlib.Data.Finset.Sort
import Mathlib.Data.String.Basic

/-!
# The signature checkers

`signature_checker` of `server/solana_service.rs` asks for the statuses of a bundle and advances the
`CHAIN_TX_*` counters.  Many of its tasks run at once; each is the list of the increments it makes,
one atomic step each, and the tasks take their steps in any order.
-/

namespace Mtransaction

open Runs

/-- Of a status only whether the transaction failed is counted; the rest is logged. -/
structure TransactionStatus where
  err : Option String
  deriving DecidableEq, Repr

abbrev StatusResponse := Except String (List (Option TransactionStatus))

/-- The `CHAIN_TX_*` counters of `server/metrics.rs`, with their labels. -/
structure ChainMetrics where
  finalized : CounterVec (String × String)
  finalizedByConsumer : CounterVec String
  finalizedByTpuIp : CounterVec String
  timeout : CounterVec (String × String)
  timeoutByConsumer : CounterVec String
  timeoutByTpuIp : CounterVec String
  executionSuccess : CounterVec (String × String)
  executionError : ℕ

/-- One call of `inc`.  There is none on `CHAIN_TX_EXECUTION_ERROR`. -/
inductive ChainInc
  | executionSuccess (partner mode : String)
  | finalized (partner mode : String)
  | finalizedByConsumer (consumer : String)
  | finalizedByTpuIp (tpuIp : String)
  | timeout (partner mode : String)
  | timeoutByConsumer (consumer : String)
  | timeoutByTpuIp (tpuIp : String)
  deriving DecidableEq, Repr

namespace ChainMetrics

def new : ChainMetrics := ⟨∅, ∅, ∅, ∅, ∅, ∅, ∅, 0⟩

def inc (m : ChainMetrics) : ChainInc → ChainMetrics
  | .executionSuccess partner mode =>
    { m with executionSuccess := m.executionSuccess.inc (partner, mode) }
  | .finalized partner mode => { m with finalized := m.finalized.inc (partner, mode) }
  | .finalizedByConsumer consumer =>
    { m with finalizedByConsumer := m.finalizedByConsumer.inc consumer }
  | .finalizedByTpuIp tpuIp => { m with finalizedByTpuIp := m.finalizedByTpuIp.inc tpuIp }
  | .timeout partner mode => { m with timeout := m.timeout.inc (partner, mode) }
  | .timeoutByConsumer consumer => { m with timeoutByConsumer := m.timeoutByConsumer.inc consumer }
  | .timeoutByTpuIp tpuIp => { m with timeoutByTpuIp := m.timeoutByTpuIp.inc tpuIp }

end ChainMetrics

section Checker

-- The order in which the sets `tpu_ips` are iterated over.
variable (tpuOrder : HashOrder String)

def SignatureRecord.iterTpuIps (record : SignatureRecord) : List String :=
  tpuOrder.arrange (record.tpuIps.sort (· ≤ ·))

/-- The body of the loop over a bundle and its statuses. -/
def checkStatus (record : SignatureRecord) : Option TransactionStatus → List ChainInc
  | some knownStatus =>
    (match knownStatus.err with
      | some _ => .executionSuccess record.partnerName record.mode.toString
      | none => .executionSuccess record.partnerName record.mode.toString) ::
    .finalized record.partnerName record.mode.toString ::
      (record.consumers.map .finalizedByConsumer ++
        (record.iterTpuIps tpuOrder).map .finalizedByTpuIp)
  | none =>
    .timeout record.partnerName record.mode.toString ::
      (record.consumers.map .timeoutByConsumer ++ (record.iterTpuIps tpuOrder).map .timeoutByTpuIp)

/-- A transaction that failed is counted as one that succeeded. -/
theorem checkStatus_known (record : SignatureRecord) (knownStatus : TransactionStatus) :
    checkStatus tpuOrder record (some knownStatus) =
      .executionSuccess record.partnerName record.mode.toString ::
      .finalized record.partnerName record.mode.toString ::
        (record.consumers.map .finalizedByConsumer ++
          (record.iterTpuIps tpuOrder).map .finalizedByTpuIp) := by
  obtain ⟨err⟩ := knownStatus
  cases err <;> rfl

def signatureChecker (bundle : List SignatureRecord) (response : StatusResponse) : List ChainInc :=
  match response with
  | .ok value => (bundle.zip value).flatMap fun x => checkStatus tpuOrder x.1 x.2
  -- the whole bundle counts as timed out
  | .error _ => bundle.map fun tx => .timeout tx.partnerName tx.mode.toString

end Checker

/-! ## Tasks -/

/-- A task of `signature_checker`: its bundle, the answer it got with the order it iterates sets in,
and the increments still to be made. -/
structure CheckerTask where
  bundle : List SignatureRecord
  answered : Option (HashOrder String × StatusResponse)
  remaining : List ChainInc

def CheckerTask.answer (task : CheckerTask) (tpuOrder : HashOrder String)
    (response : StatusResponse) : CheckerTask :=
  { task with
    answered := some (tpuOrder, response)
    remaining := signatureChecker tpuOrder task.bundle response }

structure Checkers where
  metrics : ChainMetrics
  tasks : List CheckerTask

inductive CheckerEvent
  | spawn (bundle : List SignatureRecord)
  | respond (n : ℕ) (tpuOrder : HashOrder String) (response : StatusResponse)
  | count (n : ℕ)

/-- The node returns one status per signature asked for, or fails. -/
def Answers (bundle : List SignatureRecord) : StatusResponse → Prop
  | .ok value => value.length = bundle.length
  | .error _ => True

namespace Checkers

def spawn (s : Checkers) (bundle : List SignatureRecord) : Checkers :=
  { s with tasks := s.tasks ++ [⟨bundle, none, []⟩] }

inductive Step : Checkers → CheckerEvent → Checkers → Prop
  | spawn {s : Checkers} {bundle : List SignatureRecord} : Step s (.spawn bundle) (s.spawn bundle)
  | respond {s : Checkers} {n : ℕ} {task : CheckerTask} {tpuOrder : HashOrder String}
      {response : StatusResponse} (htask : s.tasks[n]? = some task) (waiting : task.answered = none)
      (answers : Answers task.bundle response) :
      Step s (.respond n tpuOrder response)
        { s with tasks := s.tasks.set n (task.answer tpuOrder response) }
  | count {s : Checkers} {n : ℕ} {task : CheckerTask} {inc : ChainInc} {rest : List ChainInc}
      (htask : s.tasks[n]? = some task) (next : task.remaining = inc :: rest) :
      Step s (.count n) ⟨s.metrics.inc inc, s.tasks.set n { task with remaining := rest }⟩

/-- All tasks have been answered and have made their increments. -/
def Settled (s : Checkers) : Prop :=
  ∀ task ∈ s.tasks, task.answered.isSome ∧ task.remaining = []

end Checkers

def CheckerTask.increments (task : CheckerTask) : List ChainInc :=
  match task.answered with
  | some (tpuOrder, response) => signatureChecker tpuOrder task.bundle response
  | none => []

def CheckerTask.known (task : CheckerTask) : List (SignatureRecord × TransactionStatus) :=
  match task.answered with
  | some (_, .ok value) => (task.bundle.zip value).flatMap fun x => (x.2.map (x.1, ·)).toList
  | _ => []

/-! ## What has been counted -/

namespace Checkers

variable {start : ChainMetrics} {s s' : Checkers} {event : CheckerEvent}
  {tr : List (Checkers × CheckerEvent)}

/-- What every run keeps: the increments made and those still to be made are those of the tasks. -/
structure Tallied (start : ChainMetrics) (s : Checkers) : Prop where
  tally : ∃ performed : List ChainInc, s.metrics = performed.foldl ChainMetrics.inc start ∧
    (performed ++ s.tasks.flatMap CheckerTask.remaining).Perm
      (s.tasks.flatMap CheckerTask.increments)
  waiting : ∀ task ∈ s.tasks, task.answered = none → task.remaining = []
  answers : ∀ task ∈ s.tasks, ∀ tpuOrder response, task.answered = some (tpuOrder, response) →
    Answers task.bundle response

theorem tallied_start (start : ChainMetrics) : Tallied start ⟨start, []⟩ :=
  ⟨⟨[], rfl, .nil⟩, by simp, by simp⟩

theorem Tallied.spawn (h : Tallied start s) (bundle : List SignatureRecord) :
    Tallied start (s.spawn bundle) := by
  obtain ⟨performed, hmetrics, hperm⟩ := h.tally
  refine ⟨⟨performed, hmetrics, ?_⟩, ?_, ?_⟩
  · simpa [Checkers.spawn, CheckerTask.increments] using hperm
  · simp only [Checkers.spawn, List.forall_mem_append, List.forall_mem_singleton]
    exact ⟨h.waiting, fun _ => trivial⟩
  · simp only [Checkers.spawn, List.forall_mem_append, List.forall_mem_singleton]
    exact ⟨h.answers, by simp⟩

theorem Tallied.respond (h : Tallied start s) {n : ℕ} {task : CheckerTask}
    {tpuOrder : HashOrder String} {response : StatusResponse} (htask : s.tasks[n]? = some task)
    (waiting : task.answered = none) (answers : Answers task.bundle response) :
    Tallied start { s with tasks := s.tasks.set n (task.answer tpuOrder response) } := by
  obtain ⟨performed, hmetrics, hperm⟩ := h.tally
  have hidle := h.waiting task (List.mem_of_getElem? htask) waiting
  refine ⟨⟨performed, hmetrics, ?_⟩, ?_, ?_⟩
  · -- the same increments are added to both sides
    have hremaining := Interleaving.flatMap_set_perm CheckerTask.remaining
      (task.answer tpuOrder response) htask
    have hincrements := Interleaving.flatMap_set_perm CheckerTask.increments
      (task.answer tpuOrder response) htask
    rw [hidle, List.nil_append] at hremaining
    rw [show task.increments = [] by rw [CheckerTask.increments, waiting], List.nil_append]
      at hincrements
    have hmove : (performed ++ (signatureChecker tpuOrder task.bundle response ++
        s.tasks.flatMap CheckerTask.remaining)).Perm
        (signatureChecker tpuOrder task.bundle response ++
          (performed ++ s.tasks.flatMap CheckerTask.remaining)) := by
      rw [← List.append_assoc, ← List.append_assoc]
      exact List.perm_append_comm.append_right _
    exact ((hremaining.append_left _).trans hmove).trans
      ((hperm.append_left _).trans hincrements.symm)
  · refine Interleaving.forall_mem_set n h.waiting fun hnone => ?_
    simp [CheckerTask.answer] at hnone
  · refine Interleaving.forall_mem_set n h.answers fun o r hr => ?_
    obtain ⟨-, rfl⟩ : o = tpuOrder ∧ r = response := by
      simpa [CheckerTask.answer, eq_comm] using hr
    exact answers

theorem Tallied.count (h : Tallied start s) {n : ℕ} {task : CheckerTask} {inc : ChainInc}
    {rest : List ChainInc} (htask : s.tasks[n]? = some task)
    (next : task.remaining = inc :: rest) :
    Tallied start ⟨s.metrics.inc inc, s.tasks.set n { task with remaining := rest }⟩ := by
  obtain ⟨performed, hmetrics, hperm⟩ := h.tally
  have hmem := List.mem_of_getElem? htask
  refine ⟨⟨performed ++ [inc], ?_, ?_⟩, ?_, ?_⟩
  · rw [List.foldl_append, ← hmetrics]
    rfl
  · have hremaining := Interleaving.flatMap_set_perm CheckerTask.remaining
      { task with remaining := rest } htask
    have hincrements := Interleaving.flatMap_set_perm CheckerTask.increments
      { task with remaining := rest } htask
    -- what the task makes in all has not changed, what remains has lost its head
    have hsame : ((s.tasks.set n { task with remaining := rest }).flatMap
        CheckerTask.increments).Perm (s.tasks.flatMap CheckerTask.increments) :=
      (List.perm_append_left_iff _).mp hincrements
    rw [next, List.cons_append] at hremaining
    have hhead : (inc :: (s.tasks.set n { task with remaining := rest }).flatMap
        CheckerTask.remaining).Perm (s.tasks.flatMap CheckerTask.remaining) :=
      (List.perm_append_left_iff rest).mp (List.perm_middle.trans hremaining)
    rw [List.append_assoc]
    exact ((hhead.append_left performed).trans hperm).trans hsame.symm
  · refine Interleaving.forall_mem_set n h.waiting fun hnone => ?_
    simp [h.waiting task hmem hnone] at next
  · exact Interleaving.forall_mem_set n h.answers (h.answers task hmem)

theorem Tallied.step (h : Tallied start s) (hs : Step s event s') : Tallied start s' := by
  cases hs with
  | spawn => exact h.spawn _
  | respond htask waiting answers => exact h.respond htask waiting answers
  | count htask next => exact h.count htask next

theorem tallied_of_run (h : Run Step ⟨start, []⟩ tr s) : Tallied start s :=
  h.invariant (tallied_start start) fun _ _ _ _ ht hs => ht.step hs

/-- Once all tasks are through, a quantity that some increments raise has grown by their number. -/
theorem Tallied.measure {f : ChainMetrics → ℕ} {p : ChainInc → Bool} (h : Tallied start s)
    (hsettled : s.Settled) (hf : ∀ m i, f (m.inc i) = f m + if p i then 1 else 0) :
    f s.metrics = f start + (s.tasks.flatMap CheckerTask.increments).countP p := by
  obtain ⟨performed, hmetrics, hperm⟩ := h.tally
  have hnone : s.tasks.flatMap CheckerTask.remaining = [] :=
    List.flatMap_eq_nil_iff.mpr fun task hmem => (hsettled task hmem).2
  rw [hnone, List.append_nil] at hperm
  rw [hmetrics, Interleaving.foldl_countP hf, hperm.countP_eq]

end Checkers

/-! ### The increments of one task -/

def SignatureRecord.label (record : SignatureRecord) : String × String :=
  (record.partnerName, record.mode.toString)

namespace ChainInc

/-- Advances `CHAIN_TX_FINALIZED` or `CHAIN_TX_TIMEOUT` under these labels. -/
def isOutcome (label : String × String) (i : ChainInc) : Bool :=
  i = .finalized label.1 label.2 ∨ i = .timeout label.1 label.2

def isFinalized : ChainInc → Bool
  | .finalized _ _ => true
  | _ => false

def isExecutionSuccess : ChainInc → Bool
  | .executionSuccess _ _ => true
  | _ => false

end ChainInc

section CheckStatus

variable (tpuOrder : HashOrder String) (record : SignatureRecord) (p : ChainInc → Bool)

theorem countP_checkStatus_known (status : TransactionStatus) :
    (checkStatus tpuOrder record (some status)).countP p =
      record.consumers.countP (fun c => p (.finalizedByConsumer c)) +
      (record.iterTpuIps tpuOrder).countP (fun ip => p (.finalizedByTpuIp ip)) +
      (if p (.finalized record.partnerName record.mode.toString) then 1 else 0) +
      if p (.executionSuccess record.partnerName record.mode.toString) then 1 else 0 := by
  rw [checkStatus_known, List.countP_cons, List.countP_cons, List.countP_append, List.countP_map,
    List.countP_map]
  rfl

theorem countP_checkStatus_unknown :
    (checkStatus tpuOrder record none).countP p =
      record.consumers.countP (fun c => p (.timeoutByConsumer c)) +
      (record.iterTpuIps tpuOrder).countP (fun ip => p (.timeoutByTpuIp ip)) +
      if p (.timeout record.partnerName record.mode.toString) then 1 else 0 := by
  rw [checkStatus, List.countP_cons, List.countP_append, List.countP_map, List.countP_map]
  rfl

end CheckStatus

namespace CheckerTask

variable {γ : Type*} {task : CheckerTask} {tpuOrder : HashOrder String} {response : StatusResponse}
  {p : ChainInc → Bool}

/-- Increments that depend on the record only, whatever its status, are counted by record. -/
theorem countP_increments {g : SignatureRecord → List γ} {q : γ → Bool}
    (htask : task.answered = some (tpuOrder, response)) (hanswers : Answers task.bundle response)
    (hok : ∀ record status,
      (checkStatus tpuOrder record status).countP p = (g record).countP q)
    (herr : ∀ err, response = .error err → ∀ record ∈ task.bundle,
      [ChainInc.timeout record.partnerName record.mode.toString].countP p = (g record).countP q) :
    task.increments.countP p = (task.bundle.flatMap g).countP q := by
  rw [increments, htask]
  cases response with
  | ok value =>
    -- every record has a status
    have hzip : (task.bundle.zip value).map Prod.fst = task.bundle :=
      List.map_fst_zip (Nat.le_of_eq hanswers.symm)
    have hflat : task.bundle.flatMap g = (task.bundle.zip value).flatMap fun x => g x.1 := by
      conv_lhs => rw [← hzip, List.flatMap_map]
    rw [hflat]
    apply Interleaving.countP_flatMap_congr
    intro x _
    exact hok x.1 x.2
  | error err =>
    simp only [signatureChecker]
    rw [List.map_eq_flatMap]
    apply Interleaving.countP_flatMap_congr
    exact herr err rfl

end CheckerTask

/-! ### The counters after a run -/

namespace Checkers

variable {start : ChainMetrics} {s : Checkers} {tr : List (Checkers × CheckerEvent)}

def records (s : Checkers) : List SignatureRecord := s.tasks.flatMap CheckerTask.bundle

def knowns (s : Checkers) : List (SignatureRecord × TransactionStatus) :=
  s.tasks.flatMap CheckerTask.known

/-- Every record has been counted once, as finalized if its status is known and as timed out
otherwise, and every known status once, as a success or as an error. -/
structure OutcomesCounted (start : ChainMetrics) (s : Checkers) : Prop where
  once : ∀ label, s.metrics.finalized.value label + s.metrics.timeout.value label =
    start.finalized.value label + start.timeout.value label +
      (s.records.map SignatureRecord.label).count label
  finalized : ∀ label, s.metrics.finalized.value label =
    start.finalized.value label + (s.knowns.map fun x => x.1.label).count label
  success : s.metrics.executionSuccess.total =
    start.executionSuccess.total + s.knowns.countP fun x => x.2.err.isNone
  error : s.metrics.executionError =
    start.executionError + s.knowns.countP fun x => x.2.err.isSome
  balance : s.metrics.finalized.total + (start.executionSuccess.total + start.executionError) =
    start.finalized.total + (s.metrics.executionSuccess.total + s.metrics.executionError)

section Counted

variable {γ : Type*} {p : ChainInc → Bool} (h : Tallied start s) (hsettled : s.Settled)
include h hsettled

theorem countP_records {g : SignatureRecord → List γ} {q : γ → Bool}
    (hok : ∀ tpuOrder record status,
      (checkStatus tpuOrder record status).countP p = (g record).countP q)
    (herr : ∀ task ∈ s.tasks, ∀ tpuOrder err, task.answered = some (tpuOrder, .error err) →
      ∀ record ∈ task.bundle,
        [ChainInc.timeout record.partnerName record.mode.toString].countP p = (g record).countP q) :
    (s.tasks.flatMap CheckerTask.increments).countP p = (s.records.flatMap g).countP q := by
  rw [records, List.flatMap_assoc]
  apply Interleaving.countP_flatMap_congr
  intro task hmem
  obtain ⟨⟨tpuOrder, response⟩, htask⟩ := Option.isSome_iff_exists.mp (hsettled task hmem).1
  apply CheckerTask.countP_increments htask (h.answers task hmem _ _ htask) (hok tpuOrder)
  rintro err rfl
  exact herr task hmem tpuOrder err htask

omit h hsettled in
theorem countP_knowns {q : SignatureRecord × TransactionStatus → Bool}
    (hknown : ∀ tpuOrder record status,
      (checkStatus tpuOrder record (some status)).countP p = [(record, status)].countP q)
    (hunknown : ∀ tpuOrder record, (checkStatus tpuOrder record none).countP p = 0)
    (hfailed : ∀ partner mode, p (.timeout partner mode) = false) :
    (s.tasks.flatMap CheckerTask.increments).countP p = s.knowns.countP q := by
  apply Interleaving.countP_flatMap_congr
  intro task _
  unfold CheckerTask.increments CheckerTask.known
  rcases task.answered with _ | ⟨tpuOrder, err | value⟩
  · rfl
  · simp [signatureChecker, hfailed, List.countP_map, Function.comp_def]
  · apply Interleaving.countP_flatMap_congr
    rintro ⟨record, _ | status⟩ -
    · exact hunknown tpuOrder record
    · exact hknown tpuOrder record status

theorem once_of_tallied (label : String × String) :
    s.metrics.finalized.value label + s.metrics.timeout.value label =
      start.finalized.value label + start.timeout.value label +
        (s.records.map SignatureRecord.label).count label := by
  have hmeasure := h.measure hsettled (p := ChainInc.isOutcome label)
    (f := fun m => m.finalized.value label + m.timeout.value label) (by
      intro m i
      cases i <;>
        simp [ChainMetrics.inc, ChainInc.isOutcome, CounterVec.value_inc, Prod.ext_iff] <;> omega)
  rw [hmeasure, List.map_eq_flatMap, List.count]
  congr 1
  refine countP_records h hsettled (fun tpuOrder record status => ?_) fun _ _ _ _ _ record _ => ?_
  · rcases status with _ | status
    · simp [countP_checkStatus_unknown, ChainInc.isOutcome, SignatureRecord.label, List.countP_cons,
        Prod.ext_iff]
    · simp [countP_checkStatus_known, ChainInc.isOutcome, SignatureRecord.label, List.countP_cons,
        Prod.ext_iff]
  · simp [ChainInc.isOutcome, SignatureRecord.label, List.countP_cons, Prod.ext_iff]

theorem finalized_of_tallied (label : String × String) :
    s.metrics.finalized.value label =
      start.finalized.value label + (s.knowns.map fun x => x.1.label).count label := by
  have hmeasure := h.measure hsettled (p := fun i => i = .finalized label.1 label.2)
    (f := fun m => m.finalized.value label) (by
      intro m i
      cases i <;> simp [ChainMetrics.inc, CounterVec.value_inc, Prod.ext_iff])
  rw [hmeasure, List.count, List.countP_map]
  congr 1
  apply countP_knowns
  · simp [countP_checkStatus_known, SignatureRecord.label, List.countP_cons, Prod.ext_iff]
  · simp [countP_checkStatus_unknown]
  · simp

theorem executionSuccess_of_tallied :
    s.metrics.executionSuccess.total = start.executionSuccess.total + s.knowns.length := by
  have hmeasure := h.measure hsettled (p := ChainInc.isExecutionSuccess)
    (f := fun m => m.executionSuccess.total) (by
      intro m i
      cases i <;> simp [ChainMetrics.inc, ChainInc.isExecutionSuccess, CounterVec.total_inc])
  rw [hmeasure, ← congrFun List.countP_true s.knowns]
  congr 1
  apply countP_knowns
  · simp [countP_checkStatus_known, ChainInc.isExecutionSuccess]
  · simp [countP_checkStatus_unknown, ChainInc.isExecutionSuccess]
  · simp [ChainInc.isExecutionSuccess]

theorem finalizedTotal_of_tallied :
    s.metrics.finalized.total = start.finalized.total + s.knowns.length := by
  have hmeasure := h.measure hsettled (p := ChainInc.isFinalized)
    (f := fun m => m.finalized.total) (by
      intro m i
      cases i <;> simp [ChainMetrics.inc, ChainInc.isFinalized, CounterVec.total_inc])
  rw [hmeasure, ← congrFun List.countP_true s.knowns]
  congr 1
  apply countP_knowns
  · simp [countP_checkStatus_known, ChainInc.isFinalized]
  · simp [countP_checkStatus_unknown, ChainInc.isFinalized]
  · simp [ChainInc.isFinalized]

-- nothing ever advances the error counter
theorem executionError_of_tallied : s.metrics.executionError = start.executionError := by
  have hmeasure := h.measure hsettled (p := fun _ => false) (f := fun m => m.executionError) (by
    intro m i
    cases i <;> simp [ChainMetrics.inc])
  simpa using hmeasure

end Counted

/-- In every run of checkers, once all are through, the outcomes have been counted as they should
exactly when no known status reported an error. -/
theorem outcomesCounted_iff (h : Run Step ⟨start, []⟩ tr s) (hsettled : s.Settled) :
    OutcomesCounted start s ↔ ∀ x ∈ s.knowns, x.2.err = none := by
  have htallied := tallied_of_run h
  have hsuccess := executionSuccess_of_tallied htallied hsettled
  have herror := executionError_of_tallied htallied hsettled
  constructor
  · intro hcounted x hx
    have hnone : s.knowns.countP (fun x => x.2.err.isSome) = 0 := by
      have := hcounted.error
      omega
    rw [List.countP_eq_zero] at hnone
    simpa using hnone x hx
  · intro hnone
    have hall : s.knowns.countP (fun x => x.2.err.isNone) = s.knowns.length := by
      rw [List.countP_eq_length]
      intro x hx
      simp [hnone x hx]
    have hzero : s.knowns.countP (fun x => x.2.err.isSome) = 0 := by
      rw [List.countP_eq_zero]
      intro x hx
      simp [hnone x hx]
    have htotal := finalizedTotal_of_tallied htallied hsettled
    refine ⟨once_of_tallied htallied hsettled, finalized_of_tallied htallied hsettled, ?_, ?_, ?_⟩
    · rw [hsuccess, hall]
    · rw [herror, hzero]
      rfl
    · omega

/-! ### One record -/

/-- A record that no consumer accepted. -/
def plainRecord : SignatureRecord :=
  ⟨0, 0, 0, 0, ⟨.replicate 64 0⟩, .forward, [], ∅, "unknown"⟩

/-- One checker is through with one record, whose status was known. -/
def checkedOnce (status : TransactionStatus) : Checkers where
  metrics := (ChainMetrics.new.inc (.executionSuccess "unknown" "FORWARD")).inc
    (.finalized "unknown" "FORWARD")
  tasks := [⟨[plainRecord], some (.stored, .ok [some status]), []⟩]

theorem settled_checkedOnce (status : TransactionStatus) : (checkedOnce status).Settled := by
  simp [Settled, checkedOnce]

theorem run_checkedOnce (status : TransactionStatus) :
    ∃ tr, Run Step ⟨.new, []⟩ tr (checkedOnce status) := by
  have hincrements : signatureChecker .stored [plainRecord] (.ok [some status]) =
      [.executionSuccess "unknown" "FORWARD", .finalized "unknown" "FORWARD"] := by
    simp [signatureChecker, checkStatus_known, SignatureRecord.iterTpuIps, HashOrder.stored,
      plainRecord, Mode.toString]
  have hspawned := (@Run.nil _ _ Step ⟨.new, []⟩).snoc (@Step.spawn _ [plainRecord])
  have hanswered := hspawned.snoc
    (@Step.respond _ 0 ⟨[plainRecord], none, []⟩ .stored (.ok [some status]) rfl rfl rfl)
  have hfirst := hanswered.snoc (.count (n := 0) rfl hincrements)
  have hsecond := hfirst.snoc (@Step.count _ 0 ⟨[plainRecord], some (.stored, .ok [some status]),
    [.finalized "unknown" "FORWARD"]⟩ _ [] rfl rfl)
  exact ⟨_, hsecond⟩

/-- A transaction that ended with an error is counted as a success. -/
theorem failure_counted_as_success :
    Reachable Step ⟨.new, []⟩ (checkedOnce ⟨some "InstructionError"⟩) ∧
      (checkedOnce ⟨some "InstructionError"⟩).Settled ∧
      (checkedOnce ⟨some "InstructionError"⟩).metrics.executionSuccess.total = 1 ∧
      (checkedOnce ⟨some "InstructionError"⟩).metrics.executionError = 0 ∧
      ¬ OutcomesCounted .new (checkedOnce ⟨some "InstructionError"⟩) := by
  refine ⟨run_checkedOnce _, settled_checkedOnce _, by decide, rfl, ?_⟩
  intro h
  have hone : (checkedOnce ⟨some "InstructionError"⟩).knowns.countP (fun x => x.2.err.isSome) = 1 := by
    decide
  have herror := h.error
  rw [hone] at herror
  exact absurd herror (by decide)

/-! ### Two checkers at once -/

/-- A task makes all its increments. -/
theorem exists_run_counted {n : ℕ} {task : CheckerTask} (htask : s.tasks[n]? = some task) :
    ∃ tr, Run Step s tr ⟨task.remaining.foldl ChainMetrics.inc s.metrics,
      s.tasks.set n { task with remaining := [] }⟩ := by
  obtain ⟨bundle, answered, remaining⟩ := task
  obtain ⟨hn, hget⟩ := List.getElem?_eq_some_iff.mp htask
  induction remaining generalizing s with
  | nil =>
    have hsame : s.tasks.set n ⟨bundle, answered, []⟩ = s.tasks := by
      rw [← hget, List.set_getElem_self]
    rw [hsame]
    exact ⟨[], .nil s⟩
  | cons inc rest ih =>
    have hfirst := (Run.nil s).snoc (Step.count htask rfl)
    have hset : (s.tasks.set n ⟨bundle, answered, rest⟩)[n]? = some ⟨bundle, answered, rest⟩ := by
      rw [List.getElem?_set_self hn]
    obtain ⟨tr, htr⟩ := ih (s := ⟨s.metrics.inc inc, s.tasks.set n ⟨bundle, answered, rest⟩⟩)
      hset (by simpa using hn) (by simp)
    rw [List.set_set] at htr
    exact ⟨_, hfirst.append htr⟩

/-- A record that one consumer accepted for one TPU. -/
def deliveredRecord : SignatureRecord :=
  { plainRecord with consumers := ["A"], tpuIps := {"10.0.0.1"} }

/-- Of one bundle a status is known and one is not; for the other the call fails. -/
def checkedTwice : Checkers where
  metrics := [.executionSuccess "unknown" "FORWARD", .finalized "unknown" "FORWARD",
    .finalizedByConsumer "A", .finalizedByTpuIp "10.0.0.1", .timeout "unknown" "FORWARD",
    .timeout "unknown" "FORWARD"].foldl ChainMetrics.inc .new
  tasks := [⟨[deliveredRecord, plainRecord], some (.stored, .ok [some ⟨none⟩, none]), []⟩,
    ⟨[plainRecord], some (.stored, .error "timeout"), []⟩]

theorem run_checkedTwice : ∃ tr, Run Step ⟨.new, []⟩ tr checkedTwice := by
  have hincrements : signatureChecker .stored [deliveredRecord, plainRecord]
      (.ok [some ⟨none⟩, none]) = [.executionSuccess "unknown" "FORWARD",
        .finalized "unknown" "FORWARD", .finalizedByConsumer "A", .finalizedByTpuIp "10.0.0.1",
        .timeout "unknown" "FORWARD"] := by
    simp [signatureChecker, checkStatus, SignatureRecord.iterTpuIps, HashOrder.stored, plainRecord,
      deliveredRecord, Mode.toString]
  let first : CheckerTask := ⟨[deliveredRecord, plainRecord], none, []⟩
  let second : CheckerTask := ⟨[plainRecord], none, []⟩
  have hspawned := ((@Run.nil _ _ Step ⟨.new, []⟩).snoc (@Step.spawn _ first.bundle)).snoc
    (@Step.spawn _ second.bundle)
  -- the second checker is answered first
  have hanswered := (hspawned.snoc (@Step.respond _ 1 second .stored (.error "timeout") rfl rfl
    trivial)).snoc (@Step.respond _ 0 first .stored (.ok [some ⟨none⟩, none]) rfl rfl rfl)
  obtain ⟨tr₀, hfirst⟩ := exists_run_counted (n := 0)
    (s := ⟨.new, [first.answer .stored (.ok [some ⟨none⟩, none]),
      second.answer .stored (.error "timeout")]⟩) rfl
  obtain ⟨tr₁, hsecond⟩ := exists_run_counted (n := 1)
    (s := ⟨(signatureChecker .stored first.bundle (.ok [some ⟨none⟩, none])).foldl ChainMetrics.inc
      .new, [{ first.answer .stored (.ok [some ⟨none⟩, none]) with remaining := [] },
      second.answer .stored (.error "timeout")]⟩) rfl
  have hrun := (hanswered.append hfirst).append hsecond
  simp only [first, second, hincrements] at hrun
  exact ⟨_, hrun⟩

/-- With known and unknown statuses and a failed call. -/
theorem outcomesCounted_checkedTwice : OutcomesCounted .new checkedTwice := by
  obtain ⟨tr, hrun⟩ := run_checkedTwice
  refine (outcomesCounted_iff hrun (by simp [Settled, checkedTwice])).mpr ?_
  simp [knowns, checkedTwice, CheckerTask.known]

end Checkers

end Mtransaction
