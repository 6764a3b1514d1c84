import Mtransaction.Client.GrpcClient

/-!
# What the QUIC forwarder counts, and how many sends it makes at once

Every address of a received transaction gets a task of its own.  However the tasks interleave, none
is forgotten and none is counted twice, and at most `max_permits` of them send at a time.
-/

namespace Mtransaction

open Runs

/-! ## Permits and results of the tasks -/

namespace ForwardTask

/-- The result of the send is not counted yet. -/
def unreported (task : ForwardTask) : Bool :=
  task.phase = .spawned ∨ task.phase = .waiting ∨ task.phase = .sending

/-- Between `acquire_owned` and `drop`. -/
def holdsPermit (task : ForwardTask) : Bool := task.phase = .sending ∨ task.phase = .reported

end ForwardTask

namespace Forwarding

variable {SocketAddr : Type} {crates : ForwardCrates SocketAddr} {f f' : Forwarding}
  {event : ForwardEvent}

def unreportedOf (f : Forwarding) (source : String) : ℕ :=
  f.tasks.countP fun task => task.source = source && task.unreported

def holders (f : Forwarding) : ℕ := f.tasks.countP ForwardTask.holdsPermit

/-- The results counted for a source and those still to come. -/
def accounted (f : Forwarding) (source : String) : ℕ :=
  f.metrics.txForwardSucceeded.value source + f.metrics.txForwardFailed.value source +
    f.unreportedOf source

/-- The transaction the dispatch loop takes. -/
def processed (f : Forwarding) : ForwardEvent → Option ForwardedTransaction
  | .process => f.queue.head?
  | _ => none

/-- How many tasks the transactions of a source call for. -/
def tpuTotal (transactions : List ForwardedTransaction) (source : String) : ℕ :=
  ((transactions.filter fun tx => tx.source = source).map fun tx => tx.transaction.tpu.length).sum

theorem tpuTotal_append (transactions more : List ForwardedTransaction) (source : String) :
    tpuTotal (transactions ++ more) source =
      tpuTotal transactions source + tpuTotal more source := by
  simp [tpuTotal]

theorem countP_setPhase (f : Forwarding) {n : ℕ} {task : ForwardTask} (phase : ForwardPhase)
    (htask : f.tasks[n]? = some task) (p : ForwardTask → Bool) :
    (f.setPhase n task phase).countP p + (if p task then 1 else 0) =
      f.tasks.countP p + if p { task with phase } then 1 else 0 :=
  Interleaving.countP_set_add p _ htask

/-! ### Results -/

theorem accounted_process (hquic : f.forwarder = .quic) (tx : ForwardedTransaction)
    (source : String) :
    (f.process tx).accounted source = f.accounted source + tpuTotal [tx] source := by
  -- one unreported task for each address, all of the transaction's source
  have htasks : (tx.transaction.tpu.map fun tpu =>
      (⟨tx.source, tx.transaction, some tpu, .spawned⟩ : ForwardTask)).countP
        (fun task => task.source = source && task.unreported) = tpuTotal [tx] source := by
    rw [List.countP_map]
    by_cases hsource : tx.source = source
    · simp [Function.comp_def, ForwardTask.unreported, tpuTotal, hsource]
    · simp [Function.comp_def, tpuTotal, hsource]
  simp only [accounted, unreportedOf, process, hquic, List.countP_append, htasks]
  omega

/-- A task that moves on without reporting is accounted for as before. -/
theorem unreportedOf_setPhase {n : ℕ} {task : ForwardTask} (phase : ForwardPhase)
    (htask : f.tasks[n]? = some task)
    (hsame : ForwardTask.unreported { task with phase } = task.unreported) (source : String) :
    (f.setPhase n task phase).countP (fun task => task.source = source && task.unreported) =
      f.unreportedOf source := by
  have hcount := f.countP_setPhase phase htask fun task => task.source = source && task.unreported
  simp only [hsame] at hcount
  exact Nat.add_right_cancel hcount

-- the task that reports is one less to come for its source
theorem unreportedOf_reported {n : ℕ} {task : ForwardTask} (htask : f.tasks[n]? = some task)
    (sending : task.phase = .sending) (source : String) :
    (f.setPhase n task .reported).countP (fun task => task.source = source && task.unreported) +
      (if task.source = source then 1 else 0) = f.unreportedOf source := by
  have hcount := f.countP_setPhase .reported htask fun task =>
    task.source = source && task.unreported
  simpa [ForwardTask.unreported, unreportedOf, sending] using hcount

/-- A result is counted once, in one of the two counters. -/
theorem value_handleSendResult (m : ForwardMetrics) (source source' : String)
    (result : Except String Unit) :
    (handleSendResult m source result).txForwardSucceeded.value source' +
        (handleSendResult m source result).txForwardFailed.value source' =
      m.txForwardSucceeded.value source' + m.txForwardFailed.value source' +
        if source = source' then 1 else 0 := by
  cases result with
  | ok =>
    simp only [handleSendResult, CounterVec.value_inc]
    omega
  | error err =>
    simp only [handleSendResult, CounterVec.value_inc]
    omega

theorem accounted_step (hquic : f.forwarder = .quic) (hs : f.Step crates event f')
    (source : String) :
    f'.accounted source = f.accounted source + tpuTotal (f.processed event).toList source := by
  cases hs with
  | @process tx rest next =>
    rw [accounted_process (f := { f with queue := rest }) hquic, processed, next]
    rfl
  | @start n task sent htask spawned prepared =>
    have hmetrics : (f.observe task).txForwardSucceeded = f.metrics.txForwardSucceeded ∧
        (f.observe task).txForwardFailed = f.metrics.txForwardFailed := by
      unfold observe
      split <;> exact ⟨rfl, rfl⟩
    have htasks := unreportedOf_setPhase .waiting htask
      (by simp [ForwardTask.unreported, spawned]) source
    simp only [accounted, unreportedOf, hmetrics] at htasks ⊢
    rw [htasks]
    rfl
  | @acquire n task htask waiting permit =>
    have htasks := unreportedOf_setPhase .sending htask
      (by simp [ForwardTask.unreported, waiting]) source
    simp only [accounted, unreportedOf] at htasks ⊢
    rw [htasks]
    rfl
  | @finish n task result htask sending =>
    have hresult := value_handleSendResult f.metrics task.source source result
    have htasks := unreportedOf_reported htask sending source
    have hnone : tpuTotal (f.processed (.finish n result)).toList source = 0 := rfl
    simp only [accounted, unreportedOf] at htasks ⊢
    omega
  | @drop n task htask reported =>
    have htasks := unreportedOf_setPhase .finished htask
      (by simp [ForwardTask.unreported, reported]) source
    simp only [accounted, unreportedOf] at htasks ⊢
    rw [htasks]
    rfl

/-! ### Permits -/

/-- Every permit is available or held by one task. -/
structure PermitsKept (maxPermits : ℕ) (f : Forwarding) : Prop where
  quic : f.forwarder = .quic
  max : f.maxPermits = maxPermits
  balance : f.holders + f.availablePermits = maxPermits

variable {maxPermits : ℕ}

theorem PermitsKept.setPhase {n : ℕ} {task : ForwardTask} {phase : ForwardPhase}
    {metrics : ForwardMetrics} {available : ℕ} (h : f.PermitsKept maxPermits)
    (htask : f.tasks[n]? = some task)
    (hpermits : (if ForwardTask.holdsPermit { task with phase } then 1 else 0) + available =
      (if task.holdsPermit then 1 else 0) + f.availablePermits) :
    PermitsKept maxPermits
      { f with metrics, availablePermits := available, tasks := f.setPhase n task phase } := by
  have hcount := f.countP_setPhase phase htask ForwardTask.holdsPermit
  have hbalance := h.balance
  refine ⟨h.quic, h.max, ?_⟩
  simp only [holders] at hbalance ⊢
  omega

theorem PermitsKept.step (h : f.PermitsKept maxPermits) (hs : f.Step crates event f') :
    f'.PermitsKept maxPermits := by
  cases hs with
  | @process tx rest next =>
    have hbalance := h.balance
    refine ⟨?_, ?_, ?_⟩
    · simp only [process, h.quic]
    · simp only [process, h.quic, h.max]
    · -- new tasks hold nothing
      simp only [process, h.quic, holders, List.countP_append, List.countP_map] at hbalance ⊢
      simpa [Function.comp_def, ForwardTask.holdsPermit] using hbalance
  | start htask spawned prepared =>
    exact h.setPhase htask (by simp [ForwardTask.holdsPermit, spawned])
  | @acquire n task htask waiting permit =>
    refine h.setPhase htask ?_
    have hbefore : task.holdsPermit = false := by simp [ForwardTask.holdsPermit, waiting]
    have hafter : ForwardTask.holdsPermit { task with phase := .sending } := by
      simp [ForwardTask.holdsPermit]
    simp only [hbefore, hafter, if_true, Bool.false_eq_true, if_false]
    omega
  | finish htask sending =>
    exact h.setPhase htask (by simp [ForwardTask.holdsPermit, sending])
  | @drop n task htask reported =>
    refine h.setPhase htask ?_
    have hbefore : task.holdsPermit := by simp [ForwardTask.holdsPermit, reported]
    have hafter : ForwardTask.holdsPermit { task with phase := .finished } = false := by
      simp [ForwardTask.holdsPermit]
    simp only [hbefore, hafter, if_true, Bool.false_eq_true, if_false]
    omega

end Forwarding

/-! ## Runs of the client -/

namespace Client

variable {SocketAddr : Type} {crates : ForwardCrates SocketAddr} {s s' : Client}
  {event : ClientEvent} {tr : List (Client × ClientEvent)} {maxPermits : ℕ}

/-- The transaction taken from the channel in a step. -/
def processed (x : Client × ClientEvent) : Option ForwardedTransaction :=
  match x.2 with
  | .forward event => x.1.forwarding.processed event
  | _ => none

/-- The forwarder at the end of a run. -/
structure Throttled (maxPermits : ℕ) (tr : List (Client × ClientEvent)) (s : Client) : Prop where
  conserved : ∀ source,
    s.forwarding.metrics.txForwardSucceeded.value source +
        s.forwarding.metrics.txForwardFailed.value source + s.forwarding.unreportedOf source =
      Forwarding.tpuTotal (tr.filterMap processed) source
  held : s.forwarding.holders ≤ maxPermits
  /-- `max_permits - available_permits` does not underflow -/
  available : s.forwarding.maxPermits = maxPermits ∧ s.forwarding.availablePermits ≤ maxPermits

theorem permitsKept_step (h : s.forwarding.PermitsKept maxPermits) (hs : s.Step crates event s') :
    s'.forwarding.PermitsKept maxPermits := by
  cases hs with
  | forward running hstep => exact h.step hstep
  -- connections only add to the channel
  | conn => exact ⟨h.quic, h.max, h.balance⟩
  | _ => exact h

theorem permitsKept_of_run (h : Run (Step crates) (new .quic maxPermits) tr s) :
    s.forwarding.PermitsKept maxPermits :=
  h.invariant (P := fun s => s.forwarding.PermitsKept maxPermits)
    ⟨rfl, rfl, by simp [new, Forwarding.holders]⟩ fun _ _ _ _ ht hs => permitsKept_step ht hs

theorem accounted_step (hquic : s.forwarding.forwarder = .quic) (hs : s.Step crates event s')
    (source : String) :
    s'.forwarding.accounted source = s.forwarding.accounted source +
      Forwarding.tpuTotal (processed (s, event)).toList source := by
  cases hs with
  | forward running hstep => exact Forwarding.accounted_step hquic hstep source
  | forwardPanics running hpanics =>
    cases hpanics
    rfl
  | _ => rfl

theorem accounted_of_run (h : Run (Step crates) (new .quic maxPermits) tr s) (source : String) :
    s.forwarding.accounted source = Forwarding.tpuTotal (tr.filterMap processed) source := by
  induction h with
  | nil => rfl
  | @snoc s s' tr event hr hs ih =>
    rw [filterMap_concat, Forwarding.tpuTotal_append, ← ih]
    exact accounted_step (permitsKept_of_run hr).quic hs source

/-- However the tasks interleave, with any number of connections receiving. -/
theorem throttled_of_run (h : Run (Step crates) (new .quic maxPermits) tr s) :
    Throttled maxPermits tr s := by
  have hpermits := permitsKept_of_run h
  have hbalance := hpermits.balance
  refine ⟨accounted_of_run h, ?_, hpermits.max, ?_⟩
  · omega
  · omega

/-- A transaction with three addresses and one permit: the first task has reported and still holds
it, the second waits for it. -/
theorem throttled_one_permit : ∃ tr s,
    Run (Step sampleForwardCrates) (new .quic 1) tr s ∧ Throttled 1 tr s ∧
      s.forwarding.holders = 1 ∧ s.forwarding.unreportedOf "a" = 2 ∧
        Forwarding.tpuTotal (tr.filterMap processed) "a" = 3 := by
  have htls := ((Run.nil (new .quic 1)).snoc (@Step.spawn _ sampleForwardCrates _ "a" rfl)).snoc
    (@Step.conn _ _ _ 0 _ _ _ _ rfl rfl (.tls rfl))
  have hcall := (htls.snoc (@Step.conn _ _ _ 0 _ _ _ _ rfl rfl (.connect rfl))).snoc
    (@Step.conn _ _ _ 0 _ _ _ _ rfl rfl (.call rfl))
  have hsent := hcall.snoc (@Step.conn _ _ _ 0 _ _
    (.response true (.ok (buildTxMessageEnvelope "text" "AA==" (.replicate 3 "10.0.0.1:8009")))) _
    rfl rfl (.response rfl))
  have hspawned := hsent.snoc (.forward rfl (.process rfl))
  have hfirst := hspawned.snoc (.forward rfl (@Forwarding.Step.start _ _ _ 0 _ _ rfl rfl rfl))
  have hsecond := hfirst.snoc (.forward rfl (@Forwarding.Step.start _ _ _ 1 _ _ rfl rfl rfl))
  have hacquired := hsecond.snoc
    (.forward rfl (@Forwarding.Step.acquire _ _ _ 0 _ rfl rfl (by decide)))
  have hreported := hacquired.snoc
    (.forward rfl (@Forwarding.Step.finish _ _ _ 0 _ (.ok ()) rfl rfl))
  exact ⟨_, _, hreported, throttled_of_run hreported, rfl, rfl, rfl⟩

end Client

end Mtransaction
