import Mtransaction.Client.Throttling

/-!
# What becomes of received transactions

For each of the three forwarders: what is received, sent and counted, and that the tasks come to an
end, in whatever order they run.
-/

namespace Mtransaction

open Runs

/-- The steps a task has still to take. -/
def ForwardPhase.work : ForwardPhase → ℕ
  | .spawned => 4
  | .waiting => 3
  | .sending => 2
  | .reported => 1
  | .finished => 0

namespace TransactionForwarder

/-- How many tasks are spawned for a transaction. -/
def spawns : TransactionForwarder → Transaction → ℕ
  | .quic, transaction => transaction.tpu.length
  | .rpc, _ => 1
  | .blackhole, _ => 0

/-- How many results are counted for a transaction in the end. -/
def results : TransactionForwarder → Transaction → ℕ
  | .quic, transaction => transaction.tpu.length
  | .rpc, _ => 1
  | .blackhole, _ => 1

def resultsTotal (forwarder : TransactionForwarder) (transactions : List ForwardedTransaction)
    (source : String) : ℕ :=
  ((transactions.filter fun tx => tx.source = source).map fun tx =>
    forwarder.results tx.transaction).sum

/-- The tasks spawned for a transaction. -/
def newTasks : TransactionForwarder → ForwardedTransaction → List ForwardTask
  | .quic, tx =>
    tx.transaction.tpu.map fun tpu => ⟨tx.source, tx.transaction, some tpu, .spawned⟩
  | .rpc, tx => [⟨tx.source, tx.transaction, none, .spawned⟩]
  | .blackhole, _ => []

theorem length_newTasks (forwarder : TransactionForwarder) (tx : ForwardedTransaction) :
    (forwarder.newTasks tx).length = forwarder.spawns tx.transaction := by
  cases forwarder <;> simp [newTasks, spawns]

theorem mem_newTasks {forwarder : TransactionForwarder} {tx : ForwardedTransaction}
    {task : ForwardTask} (h : task ∈ forwarder.newTasks tx) :
    task.phase = .spawned ∧ task.source = tx.source := by
  cases forwarder with
  | quic =>
    obtain ⟨tpu, -, rfl⟩ := List.mem_map.mp h
    exact ⟨rfl, rfl⟩
  | rpc =>
    obtain rfl := List.mem_singleton.mp h
    exact ⟨rfl, rfl⟩
  | blackhole => simp [newTasks] at h

end TransactionForwarder

namespace Forwarding

variable {SocketAddr : Type} {crates : ForwardCrates SocketAddr} {f f' : Forwarding}
  {event : ForwardEvent}

/-- The steps all tasks have still to take, with those of the transactions in the channel. -/
def work (f : Forwarding) : ℕ :=
  (f.tasks.map fun task => task.phase.work).sum +
    (f.queue.map fun tx => 1 + 4 * f.forwarder.spawns tx.transaction).sum

/-- The sends that are not over, with those of the transactions in the channel. -/
def outstanding (f : Forwarding) : ℕ :=
  f.tasks.countP (fun task => task.phase ≠ .finished) +
    (f.queue.map fun tx => f.forwarder.spawns tx.transaction).sum

/-- The steps that need no permit: the transactions in the channel and the starts of their tasks and
of those already spawned. -/
def startable (f : Forwarding) : ℕ :=
  f.tasks.countP (fun task => task.phase = .spawned) +
    (f.queue.map fun tx => 1 + f.forwarder.spawns tx.transaction).sum

/-- After so many steps nothing can be done any more. -/
def stepsToEnd (f : Forwarding) : ℕ := if f.maxPermits = 0 then f.startable else f.work

/-- Nothing is left to do, and every permit is back. -/
structure Settled (f : Forwarding) : Prop where
  queue : f.queue = []
  tasks : ∀ task ∈ f.tasks, task.phase = .finished
  permits : f.availablePermits = f.maxPermits

/-! ## One transaction -/

section Process

variable (f : Forwarding) (tx : ForwardedTransaction)

theorem process_tasks : (f.process tx).tasks = f.tasks ++ f.forwarder.newTasks tx := by
  unfold process
  cases f.forwarder <;> simp [TransactionForwarder.newTasks]

theorem process_rest : (f.process tx).queue = f.queue ∧
    (f.process tx).forwarder = f.forwarder ∧ (f.process tx).maxPermits = f.maxPermits ∧
      (f.process tx).availablePermits = f.availablePermits := by
  unfold process
  cases f.forwarder <;> simp

theorem value_process (source : String) :
    (f.process tx).metrics.txReceived.value source =
      f.metrics.txReceived.value source + if tx.source = source then 1 else 0 := by
  unfold process
  cases f.forwarder <;> exact CounterVec.value_inc _ _ _

end Process

/-! ## The work that is left -/

theorem work_process (f : Forwarding) (tx : ForwardedTransaction) :
    (f.process tx).work = f.work + 4 * f.forwarder.spawns tx.transaction := by
  obtain ⟨hqueue, hforwarder, -, -⟩ := f.process_rest tx
  have hnew : ((f.forwarder.newTasks tx).map fun task => task.phase.work).sum =
      4 * f.forwarder.spawns tx.transaction := by
    have hfour : (f.forwarder.newTasks tx).map (fun task => task.phase.work) =
        List.replicate (f.forwarder.newTasks tx).length 4 := by
      refine List.eq_replicate_iff.mpr ⟨List.length_map _, fun n hn => ?_⟩
      obtain ⟨task, htask, rfl⟩ := List.mem_map.mp hn
      rw [(TransactionForwarder.mem_newTasks htask).1]
      rfl
    rw [hfour, List.sum_replicate_nat, TransactionForwarder.length_newTasks, Nat.mul_comm]
  rw [work, work, process_tasks, hqueue, hforwarder, List.map_append, List.sum_append, hnew]
  omega

theorem work_setPhase {n : ℕ} {task : ForwardTask} {phase : ForwardPhase}
    {metrics : ForwardMetrics} {available : ℕ} (htask : f.tasks[n]? = some task)
    (hwork : phase.work + 1 = task.phase.work) :
    work { f with metrics, availablePermits := available, tasks := f.setPhase n task phase } + 1 =
      f.work := by
  have hsum := Interleaving.sum_map_set_add (fun task : ForwardTask => task.phase.work)
    { task with phase } htask
  simp only [work, setPhase] at hsum ⊢
  omega

/-- Every step does one part of the work. -/
theorem work_step (hs : f.Step crates event f') : f'.work + 1 = f.work := by
  cases hs with
  | @process tx rest next =>
    rw [work_process]
    simp only [work, next, List.map_cons, List.sum_cons]
    omega
  | start htask spawned | acquire htask spawned | finish htask spawned | drop htask spawned =>
    exact work_setPhase htask (by rw [spawned]; rfl)

/-! ## Permits -/

/-- A step of a task does not depend on the forwarder that spawned it. -/
theorem Step.asQuic (hs : f.Step crates event f') (hother : event ≠ .process) :
    Step crates { f with forwarder := .quic } event { f' with forwarder := .quic } := by
  cases hs with
  | process => exact absurd rfl hother
  | start htask spawned prepared =>
    exact @Step.start _ _ { f with forwarder := .quic } _ _ _ htask spawned prepared
  | acquire htask waiting permit =>
    exact @Step.acquire _ _ { f with forwarder := .quic } _ _ htask waiting permit
  | finish htask sending => exact @Step.finish _ _ { f with forwarder := .quic } _ _ _ htask sending
  | drop htask reported => exact @Step.drop _ _ { f with forwarder := .quic } _ _ htask reported

/-- Every permit is available or held by one task, whatever the forwarder. -/
structure Balanced (maxPermits : ℕ) (f : Forwarding) : Prop where
  max : f.maxPermits = maxPermits
  balance : f.holders + f.availablePermits = maxPermits

theorem holders_process (f : Forwarding) (tx : ForwardedTransaction) :
    (f.process tx).holders = f.holders := by
  have hnew : (f.forwarder.newTasks tx).countP ForwardTask.holdsPermit = 0 := by
    refine List.countP_eq_zero.mpr fun task htask => ?_
    simp [ForwardTask.holdsPermit, (TransactionForwarder.mem_newTasks htask).1]
  rw [holders, process_tasks, List.countP_append, hnew]
  rfl

theorem Balanced.step {maxPermits : ℕ} (h : f.Balanced maxPermits) (hs : f.Step crates event f') :
    f'.Balanced maxPermits := by
  by_cases hevent : event = .process
  · subst hevent
    cases hs with
    | @process tx rest next =>
      obtain ⟨-, -, hmax, havailable⟩ := process_rest { f with queue := rest } tx
      exact ⟨hmax.trans h.max, by rw [holders_process, havailable]; exact h.balance⟩
  · have hkept : PermitsKept maxPermits { f with forwarder := .quic } := ⟨rfl, h.max, h.balance⟩
    have hkept' := hkept.step (hs.asQuic hevent)
    exact ⟨hkept'.max, hkept'.balance⟩

theorem Balanced.run {maxPermits : ℕ} {ftr : List (Forwarding × ForwardEvent)}
    (h : f.Balanced maxPermits) (hr : Run (Step crates) f ftr f') : f'.Balanced maxPermits :=
  hr.invariant h fun _ _ _ _ ht hs => ht.step hs

theorem forwarder_step (hs : f.Step crates event f') : f'.forwarder = f.forwarder := by
  cases hs with
  | @process tx rest next => exact (process_rest { f with queue := rest } tx).2.1
  | _ => rfl

/-! ## Nothing waits forever -/

/-- While a permit can be had, or is held by a task that will drop it, something can be done. -/
theorem exists_step {maxPermits : ℕ} (hsafe : f.Safe crates) (h : f.Balanced maxPermits)
    (hpos : 0 < maxPermits) (hwork : f.work ≠ 0) : ∃ event f', f.Step crates event f' := by
  cases hqueue : f.queue with
  | cons tx rest => exact ⟨_, _, .process hqueue⟩
  | nil =>
    obtain ⟨task, hmem, hleft⟩ : ∃ task ∈ f.tasks, task.phase ≠ .finished := by
      by_contra hnone
      simp only [not_exists, not_and, not_not] at hnone
      refine hwork ?_
      rw [work, hqueue, List.map_nil, List.sum_nil, Nat.add_zero,
        List.sum_eq_zero_iff_forall_eq_nat]
      intro n hn
      obtain ⟨task, htask, rfl⟩ := List.mem_map.mp hn
      rw [hnone task htask]
      rfl
    have hholder {task : ForwardTask} (hmem : task ∈ f.tasks) (hholds : task.holdsPermit) :
        ∃ event f', f.Step crates event f' := by
      obtain ⟨n, htask⟩ := List.mem_iff_getElem?.mp hmem
      rcases of_decide_eq_true hholds with hphase | hphase
      · exact ⟨_, _, @Step.finish _ _ _ n task (.ok ()) htask hphase⟩
      · exact ⟨_, _, .drop htask hphase⟩
    obtain ⟨n, htask⟩ := List.mem_iff_getElem?.mp hmem
    cases hphase : task.phase with
    | spawned =>
      obtain ⟨sent, hsent⟩ := hsafe.spawned task hmem
      exact ⟨_, _, .start htask hphase hsent⟩
    | waiting =>
      by_cases hpermit : 0 < f.availablePermits
      · exact ⟨_, _, .acquire htask hphase hpermit⟩
      · -- somebody holds a permit
        have hsome : 0 < f.holders := by
          have := h.balance
          omega
        obtain ⟨holder, hin, hholds⟩ := List.countP_pos_iff.mp hsome
        exact hholder hin hholds
    | sending => exact hholder hmem (by simp [ForwardTask.holdsPermit, hphase])
    | reported => exact hholder hmem (by simp [ForwardTask.holdsPermit, hphase])
    | finished => exact absurd hphase hleft

theorem settled_of_work {maxPermits : ℕ} (h : f.Balanced maxPermits) (hwork : f.work = 0) :
    f.Settled := by
  rw [work, Nat.add_eq_zero_iff, List.sum_eq_zero_iff_forall_eq_nat,
    List.sum_eq_zero_iff_forall_eq_nat] at hwork
  have htasks : ∀ task ∈ f.tasks, task.phase = .finished := by
    intro task hmem
    have hzero := hwork.1 _ (List.mem_map_of_mem hmem)
    cases hphase : task.phase <;> simp [hphase, ForwardPhase.work] at hzero ⊢
  refine ⟨?_, htasks, ?_⟩
  · cases hqueue : f.queue with
    | nil => rfl
    | cons tx rest =>
      have := hwork.2 (1 + 4 * f.forwarder.spawns tx.transaction) (by simp [hqueue])
      omega
  · have hnone : f.holders = 0 := by
      refine List.countP_eq_zero.mpr fun task hmem => ?_
      simp [ForwardTask.holdsPermit, htasks task hmem]
    have := h.balance
    rw [h.max]
    omega

theorem outstanding_of_settled (h : f.Settled) : f.outstanding = 0 := by
  rw [outstanding, h.queue, List.map_nil, List.sum_nil, Nat.add_zero]
  exact List.countP_eq_zero.mpr fun task hmem => by simp [h.tasks task hmem]

-- a task that holds a permit is one of the holders
theorem holders_pos {n : ℕ} {task : ForwardTask} (htask : f.tasks[n]? = some task)
    (hholds : task.holdsPermit) : 0 < f.holders :=
  List.countP_pos_iff.mpr ⟨task, List.mem_of_getElem? htask, hholds⟩

/-- Without permits no task gets past its wait. -/
theorem outstanding_step (h : f.Balanced 0) (hs : f.Step crates event f') :
    f'.outstanding = f.outstanding := by
  have hbalance := h.balance
  cases hs with
  | @process tx rest next =>
    obtain ⟨hqueue, hforwarder, -, -⟩ := process_rest { f with queue := rest } tx
    have hnew : (f.forwarder.newTasks tx).countP (fun task => task.phase ≠ .finished) =
        f.forwarder.spawns tx.transaction := by
      rw [← TransactionForwarder.length_newTasks, List.countP_eq_length]
      intro task htask
      simp [(TransactionForwarder.mem_newTasks htask).1]
    rw [outstanding, hqueue, hforwarder, process_tasks, List.countP_append, hnew, outstanding, next,
      List.map_cons, List.sum_cons, Nat.add_assoc]
  | @start n task sent htask spawned prepared =>
    have hcount := f.countP_setPhase .waiting htask fun task => task.phase ≠ .finished
    have hsame : (f.setPhase n task .waiting).countP (fun task => task.phase ≠ .finished) =
        f.tasks.countP fun task => task.phase ≠ .finished := by
      simpa [spawned] using hcount
    rw [outstanding, hsame, outstanding]
  | acquire htask waiting permit => omega
  | finish htask sending =>
    have := holders_pos htask (by simp [ForwardTask.holdsPermit, sending])
    omega
  | drop htask reported =>
    have := holders_pos htask (by simp [ForwardTask.holdsPermit, reported])
    omega

/-- Without permits every step is one of those that need none. -/
theorem startable_step (h : f.Balanced 0) (hs : f.Step crates event f') :
    f'.startable + 1 = f.startable := by
  have hbalance := h.balance
  cases hs with
  | @process tx rest next =>
    obtain ⟨hqueue, hforwarder, -, -⟩ := process_rest { f with queue := rest } tx
    have hnew : (f.forwarder.newTasks tx).countP (fun task => task.phase = .spawned) =
        f.forwarder.spawns tx.transaction := by
      rw [← TransactionForwarder.length_newTasks, List.countP_eq_length]
      intro task htask
      simp [(TransactionForwarder.mem_newTasks htask).1]
    rw [startable, hqueue, hforwarder, process_tasks, List.countP_append, hnew, startable, next,
      List.map_cons, List.sum_cons]
    dsimp only
    omega
  | @start n task sent htask spawned prepared =>
    have hcount := f.countP_setPhase .waiting htask fun task => task.phase = .spawned
    simp only [spawned, reduceCtorEq, decide_false, decide_true, Bool.false_eq_true, if_false,
      if_true] at hcount
    rw [startable, startable]
    dsimp only
    omega
  | acquire htask waiting permit => omega
  | finish htask sending =>
    have := holders_pos htask (by simp [ForwardTask.holdsPermit, sending])
    omega
  | drop htask reported =>
    have := holders_pos htask (by simp [ForwardTask.holdsPermit, reported])
    omega

theorem startable_of_stuck (hsafe : f.Safe crates)
    (hstuck : ∀ event f', ¬ f.Step crates event f') : f.startable = 0 := by
  cases hqueue : f.queue with
  | cons tx rest => exact absurd (.process hqueue) (hstuck _ _)
  | nil =>
    rw [startable, hqueue, List.map_nil, List.sum_nil, Nat.add_zero, List.countP_eq_zero]
    intro task hmem hspawned
    obtain ⟨n, htask⟩ := List.mem_iff_getElem?.mp hmem
    obtain ⟨sent, hsent⟩ := hsafe.spawned task hmem
    exact hstuck _ _ (.start htask (of_decide_eq_true hspawned) hsent)

/-- However the tasks are scheduled, they end after the same number of steps; and they end with
nothing left over exactly if there is a permit, or nothing to send. -/
structure Drains (crates : ForwardCrates SocketAddr) (f : Forwarding) : Prop where
  bounded : ∀ ftr f', Run (Step crates) f ftr f' → ftr.length + f'.work = f.work
  ends : ∀ ftr f', Run (Step crates) f ftr f' → (∀ event f'', ¬ f'.Step crates event f'') →
    ftr.length = f.stepsToEnd
  settles_iff : (∀ ftr f', Run (Step crates) f ftr f' → (∀ event f'', ¬ f'.Step crates event f'') →
    f'.Settled) ↔ 0 < f.maxPermits ∨ f.outstanding = 0

theorem Safe.run {ftr : List (Forwarding × ForwardEvent)} (h : f.Safe crates)
    (hr : Run (Step crates) f ftr f') : f'.Safe crates :=
  hr.invariant h fun _ _ _ _ ht hs => ht.step hs

theorem outstanding_run {ftr : List (Forwarding × ForwardEvent)} (h : f.Balanced 0)
    (hr : Run (Step crates) f ftr f') : f'.outstanding = f.outstanding := by
  induction hr with
  | nil => rfl
  | snoc hr hs ih => exact (outstanding_step (h.run hr) hs).trans ih

/-- A state without steps, where no permits were given and nothing is outstanding. -/
theorem settled_of_outstanding (h : f.Balanced 0) (hnone : f.outstanding = 0)
    (hstuck : ∀ event f', ¬ f.Step crates event f') : f.Settled := by
  have hbalance := h.balance
  rw [outstanding, Nat.add_eq_zero_iff, List.countP_eq_zero] at hnone
  refine ⟨?_, fun task hmem => by simpa using hnone.1 task hmem, ?_⟩
  · cases hqueue : f.queue with
    | nil => rfl
    | cons tx rest => exact absurd (.process hqueue) (hstuck _ _)
  · rw [h.max]
    omega

theorem startable_run {ftr : List (Forwarding × ForwardEvent)} (h : f.Balanced 0)
    (hr : Run (Step crates) f ftr f') : ftr.length + f'.startable = f.startable := by
  induction hr with
  | nil => simp
  | snoc hr hs ih =>
    have hstep := startable_step (h.run hr) hs
    rw [List.length_append, List.length_singleton]
    omega

/-- With a permit the work is done when nothing can be done. -/
theorem work_of_stuck {maxPermits : ℕ} (hsafe : f.Safe crates) (h : f.Balanced maxPermits)
    (hpos : 0 < maxPermits) (hstuck : ∀ event f', ¬ f.Step crates event f') : f.work = 0 := by
  by_contra hwork
  obtain ⟨event, f', hs⟩ := exists_step hsafe h hpos hwork
  exact hstuck event f' hs

theorem drains {maxPermits : ℕ} (hsafe : f.Safe crates) (h : f.Balanced maxPermits) :
    f.Drains crates := by
  have hbounded : ∀ ftr f', Run (Step crates) f ftr f' → ftr.length + f'.work = f.work :=
    fun ftr f' hr => hr.length_add_measure fun _ _ _ hs => work_step hs
  refine ⟨hbounded, fun ftr f' hr hstuck => ?_, ?_⟩
  · rw [stepsToEnd, h.max]
    rcases Nat.eq_zero_or_pos maxPermits with rfl | hpos
    · have hall := startable_run h hr
      rw [startable_of_stuck (hsafe.run hr) hstuck] at hall
      exact hall
    · have hall := hbounded ftr f' hr
      rw [work_of_stuck (hsafe.run hr) (h.run hr) hpos hstuck] at hall
      rw [if_neg (Nat.pos_iff_ne_zero.mp hpos)]
      exact hall
  rw [h.max]
  constructor
  · intro hsettles
    by_contra hnot
    simp only [not_or, Nat.not_lt, Nat.le_zero] at hnot
    obtain ⟨rfl, hleft⟩ := hnot
    obtain ⟨ftr, f', hr, hstuck⟩ :=
      @exists_run_stuck _ _ (Step crates) work (fun _ _ _ hs => work_step hs) f
    refine hleft ?_
    rw [← outstanding_run h hr]
    exact outstanding_of_settled (hsettles ftr f' hr hstuck)
  · rintro hcase ftr f' hr hstuck
    have hbalanced := h.run hr
    rcases Nat.eq_zero_or_pos maxPermits with rfl | hpos
    · have hnone := hcase.resolve_left (Nat.lt_irrefl 0)
      exact settled_of_outstanding hbalanced ((outstanding_run h hr).trans hnone) hstuck
    · exact settled_of_work hbalanced (work_of_stuck (hsafe.run hr) hbalanced hpos hstuck)

/-! ## Results -/

/-- What is counted for a transaction, or will be once its tasks have reported. -/
theorem accounted_process_any (f : Forwarding) (tx : ForwardedTransaction) (source : String) :
    (f.process tx).accounted source =
      f.accounted source + f.forwarder.resultsTotal [tx] source := by
  cases hforwarder : f.forwarder with
  | quic => exact accounted_process hforwarder tx source
  | rpc =>
    by_cases hsource : tx.source = source <;>
      simp [accounted, unreportedOf, process, hforwarder, TransactionForwarder.resultsTotal,
        TransactionForwarder.results, ForwardTask.unreported, hsource, Nat.add_assoc]
  | blackhole =>
    have hresults : TransactionForwarder.blackhole.resultsTotal [tx] source =
        if tx.source = source then 1 else 0 := by
      by_cases hsource : tx.source = source <;>
        simp [TransactionForwarder.resultsTotal, TransactionForwarder.results, hsource]
    simp only [accounted, unreportedOf, process, hforwarder, CounterVec.value_inc, hresults]
    omega

theorem accounted_step_any (hs : f.Step crates event f') (source : String) :
    f'.accounted source = f.accounted source +
      f.forwarder.resultsTotal (f.processed event).toList source := by
  by_cases hevent : event = .process
  · subst hevent
    cases hs with
    | @process tx rest next =>
      rw [accounted_process_any, processed, next]
      rfl
  · have hquic := accounted_step (f := { f with forwarder := .quic }) rfl (hs.asQuic hevent) source
    have hnone (f : Forwarding) : f.processed event = none := by
      cases event with
      | process => exact absurd rfl hevent
      | _ => rfl
    rw [hnone] at hquic ⊢
    exact hquic

theorem received_step (hs : f.Step crates event f') (source : String) :
    f'.metrics.txReceived.value source = f.metrics.txReceived.value source +
      (f.processed event).toList.countP fun tx => tx.source = source := by
  cases hs with
  | @process tx rest next =>
    rw [value_process, processed, next]
    simp
  | @start n task sent htask spawned prepared =>
    have hobserve : (f.observe task).txReceived = f.metrics.txReceived := by
      unfold observe
      split <;> rfl
    rw [hobserve]
    rfl
  | @finish n task result htask sending => cases result <;> rfl
  | acquire | drop => rfl

/-- A black hole spawns no tasks, so nothing can fail. -/
theorem blackholed_step (hs : f.Step crates event f') (hforwarder : f.forwarder = .blackhole)
    (htasks : f.tasks = []) :
    f'.tasks = [] ∧ f'.metrics.txForwardFailed = f.metrics.txForwardFailed := by
  cases hs with
  | @process tx rest next =>
    rw [process_tasks]
    simp [htasks, hforwarder, TransactionForwarder.newTasks, process]
  | start htask | acquire htask | finish htask | drop htask => simp [htasks] at htask

end Forwarding

namespace Client

variable {SocketAddr : Type} {crates : ForwardCrates SocketAddr} {s s' : Client}
  {event : ClientEvent} {tr : List (Client × ClientEvent)} {forwarder : TransactionForwarder}
  {maxPermits : ℕ}

theorem balanced_of_run (h : Run (Step crates) (new forwarder maxPermits) tr s) :
    s.forwarding.Balanced maxPermits := by
  refine h.invariant (P := fun s => s.forwarding.Balanced maxPermits)
    ⟨rfl, by simp [new, Forwarding.holders]⟩ fun t a u _ ht hs => ?_
  cases hs with
  | forward running hstep => exact ht.step hstep
  | conn => exact ⟨ht.max, ht.balance⟩
  | _ => exact ht

/-- The forwarder at the end of a run, of whichever kind it is. -/
structure Conserved (forwarder : TransactionForwarder) (maxPermits : ℕ)
    (tr : List (Client × ClientEvent)) (s : Client) : Prop where
  received : ∀ source, s.forwarding.metrics.txReceived.value source =
    (tr.filterMap processed).countP fun tx => tx.source = source
  results : ∀ source,
    s.forwarding.metrics.txForwardSucceeded.value source +
        s.forwarding.metrics.txForwardFailed.value source + s.forwarding.unreportedOf source =
      forwarder.resultsTotal (tr.filterMap processed) source
  /-- nothing is sent from a black hole, and it does not fail -/
  blackholed : forwarder = .blackhole → s.forwarding.tasks = [] ∧
    ∀ source, s.forwarding.metrics.txForwardFailed.value source = 0
  throttled : s.forwarding.holders + s.forwarding.availablePermits = maxPermits

/-- A step is one of the forwarder, or leaves it alone but for new transactions in the channel. -/
theorem forwarding_cases (hs : s.Step crates event s') :
    (∃ e, event = .forward e ∧ s.forwarding.Step crates e s'.forwarding) ∨
      processed (s, event) = none ∧ ∃ queue, s'.forwarding = { s.forwarding with queue } := by
  cases hs with
  | forward running hstep => exact .inl ⟨_, rfl, hstep⟩
  | forwardPanics running hpanics =>
    cases hpanics
    exact .inr ⟨rfl, _, rfl⟩
  | _ => exact .inr ⟨rfl, _, rfl⟩

theorem forwarder_of_run (h : Run (Step crates) (new forwarder maxPermits) tr s) :
    s.forwarding.forwarder = forwarder := by
  refine h.invariant (P := fun s => s.forwarding.forwarder = forwarder) rfl fun t a u _ ht hs => ?_
  rcases forwarding_cases hs with ⟨e, -, hstep⟩ | ⟨-, queue, heq⟩
  · exact (Forwarding.forwarder_step hstep).trans ht
  · rw [heq]
    exact ht

theorem resultsTotal_append (transactions more : List ForwardedTransaction) (source : String) :
    forwarder.resultsTotal (transactions ++ more) source =
      forwarder.resultsTotal transactions source + forwarder.resultsTotal more source := by
  simp [TransactionForwarder.resultsTotal]

/-- Whatever the forwarder, however its tasks interleave. -/
theorem conserved_of_run (h : Run (Step crates) (new forwarder maxPermits) tr s) :
    Conserved forwarder maxPermits tr s := by
  induction h with
  | nil =>
    refine ⟨fun source => rfl, fun source => rfl, fun _ => ⟨rfl, fun source => rfl⟩, ?_⟩
    simp [new, Forwarding.holders]
  | @snoc s s' tr event hr hs ih =>
    have hforwarder := forwarder_of_run hr
    have hbalanced := balanced_of_run (hr.snoc hs)
    rcases forwarding_cases hs with ⟨e, rfl, hstep⟩ | ⟨hnone, queue, heq⟩
    · have hprocessed : processed (s, .forward e) = s.forwarding.processed e := rfl
      refine ⟨fun source => ?_, fun source => ?_, fun hblackhole => ?_, hbalanced.balance⟩
      · rw [filterMap_concat, List.countP_append, ← ih.received, hprocessed]
        exact Forwarding.received_step hstep source
      · rw [filterMap_concat, resultsTotal_append, ← ih.results, hprocessed, ← hforwarder]
        exact Forwarding.accounted_step_any hstep source
      · obtain ⟨htasks, hfailed⟩ := ih.blackholed hblackhole
        obtain ⟨htasks', hsame⟩ :=
          Forwarding.blackholed_step hstep (hforwarder.trans hblackhole) htasks
        exact ⟨htasks', by rw [hsame]; exact hfailed⟩
    · refine ⟨fun source => ?_, fun source => ?_, fun hblackhole => ?_, hbalanced.balance⟩
      · rw [filterMap_concat, hnone, heq, Option.toList_none, List.append_nil]
        exact ih.received source
      · rw [filterMap_concat, hnone, heq, Option.toList_none, List.append_nil]
        exact ih.results source
      · rw [heq]
        exact ih.blackholed hblackhole

theorem run_streaming (forwarder : TransactionForwarder) (maxPermits : ℕ) : ∃ tr,
    Run (Step sampleForwardCrates) (new forwarder maxPermits) tr
      { new forwarder maxPermits with
        conns := [{ ServerConnection.new "a" with phase := .streaming }] } := by
  have htls := ((Run.nil (new forwarder maxPermits)).snoc
    (@Step.spawn _ sampleForwardCrates _ "a" rfl)).snoc
    (@Step.conn _ _ _ 0 _ _ _ _ rfl rfl (.tls rfl))
  exact ⟨_, (htls.snoc (@Step.conn _ _ _ 0 _ _ _ _ rfl rfl (.connect rfl))).snoc
    (@Step.conn _ _ _ 0 _ _ _ _ rfl rfl (.call rfl))⟩

/-- The RPC forwarder sends a transaction once, also if it names two addresses. -/
theorem conserved_rpc : ∃ tr s, Run (Step sampleForwardCrates) (new .rpc 1) tr s ∧
    s.forwarding.metrics.txForwardFailed.value "a" = 1 ∧ s.forwarding.unreportedOf "a" = 0 ∧
      Conserved .rpc 1 tr s := by
  obtain ⟨tr, hrun⟩ := run_streaming .rpc 1
  have hsent := hrun.snoc (@Step.conn _ _ _ 0 _ _
    (.response true (.ok (buildTxMessageEnvelope "text" "AA==" ["10.0.0.1:8009", "b"]))) _ rfl rfl
    (.response rfl))
  have hstarted := (hsent.snoc (.forward rfl (.process rfl))).snoc
    (.forward rfl (@Forwarding.Step.start _ _ _ 0 _ _ rfl rfl rfl))
  have hfailed := (hstarted.snoc
    (.forward rfl (@Forwarding.Step.acquire _ _ _ 0 _ rfl rfl (by decide)))).snoc
    (.forward rfl (@Forwarding.Step.finish _ _ _ 0 _ (.error "timeout") rfl rfl))
  exact ⟨_, _, hfailed, rfl, rfl, conserved_of_run hfailed⟩

/-! ## The forward tasks of a client that runs -/

/-- A step of a forward task. -/
def ForwardStep (crates : ForwardCrates SocketAddr) (s : Client) (event : ForwardEvent)
    (s' : Client) : Prop := s.Step crates (.forward event) s'

/-- The client's forward tasks come to an end, after the same number of steps in every order, while
the client runs on; and it ends with nothing left over exactly if there is a permit, or nothing to
send. -/
structure Drained (crates : ForwardCrates SocketAddr) (s : Client) : Prop where
  running : ∀ ftr s', Run (ForwardStep crates) s ftr s' → s'.exited = none
  bounded : ∀ ftr s', Run (ForwardStep crates) s ftr s' →
    ftr.length + s'.forwarding.work = s.forwarding.work
  ends : ∀ ftr s', Run (ForwardStep crates) s ftr s' →
    (∀ event s'', ¬ ForwardStep crates s' event s'') → ftr.length = s.forwarding.stepsToEnd
  settles_iff : (∀ ftr s', Run (ForwardStep crates) s ftr s' →
    (∀ event s'', ¬ ForwardStep crates s' event s'') → s'.forwarding.Settled) ↔
      0 < s.forwarding.maxPermits ∨ s.forwarding.outstanding = 0

theorem forwardStep_iff (hrunning : s.exited = none) (hsafe : s.forwarding.Safe crates)
    {event : ForwardEvent} :
    ForwardStep crates s event s' ↔
      ∃ f, s.forwarding.Step crates event f ∧ s' = { s with forwarding := f } := by
  constructor
  · intro hs
    cases hs with
    | forward running hstep => exact ⟨_, hstep, rfl⟩
    | forwardPanics running hpanics => exact absurd hpanics hsafe.not_panics
  · rintro ⟨f, hstep, rfl⟩
    exact .forward hrunning hstep

theorem stuck_iff (hrunning : s.exited = none) (hsafe : s.forwarding.Safe crates) :
    (∀ event s', ¬ ForwardStep crates s event s') ↔
      ∀ event f, ¬ s.forwarding.Step crates event f := by
  constructor
  · intro hstuck event f hs
    exact hstuck event _ ((forwardStep_iff hrunning hsafe).mpr ⟨f, hs, rfl⟩)
  · intro hstuck event s' hs
    obtain ⟨f, hstep, -⟩ := (forwardStep_iff hrunning hsafe).mp hs
    exact hstuck event f hstep

/-- The forwarder of a client that runs is on its own. -/
theorem forwarding_of_run (hrunning : s.exited = none) (hsafe : s.forwarding.Safe crates)
    {ftr : List (Client × ForwardEvent)} (h : Run (ForwardStep crates) s ftr s') :
    ∃ ftr', Run (Forwarding.Step crates) s.forwarding ftr' s'.forwarding ∧
      ftr'.length = ftr.length ∧ s'.exited = none := by
  induction h with
  | nil => exact ⟨[], .nil _, rfl, hrunning⟩
  | snoc _ hs ih =>
    obtain ⟨ftr', hr, hlength, hexited⟩ := ih
    obtain ⟨f, hstep, rfl⟩ := (forwardStep_iff hexited (hsafe.run hr)).mp hs
    exact ⟨_, hr.snoc hstep, by simp [hlength], hexited⟩

theorem run_of_forwarding (hrunning : s.exited = none) {ftr : List (Forwarding × ForwardEvent)}
    {f : Forwarding} (h : Run (Forwarding.Step crates) s.forwarding ftr f) :
    ∃ ftr', Run (ForwardStep crates) s ftr' { s with forwarding := f } := by
  induction h with
  | nil => exact ⟨[], .nil _⟩
  | @snoc f f' ftr event hr hs ih =>
    obtain ⟨ftr', hr'⟩ := ih
    exact ⟨_, hr'.snoc (a := event) (.forward (s := { s with forwarding := f }) hrunning hs)⟩

/-- From every state the client can reach and still runs in, as long as what it has received can be
sent. -/
theorem drains_of_run (h : Run (Step crates) (new forwarder maxPermits) tr s)
    (hrunning : s.exited = none) (hsafe : s.forwarding.Safe crates) : s.Drained crates := by
  have hdrains := Forwarding.drains hsafe (balanced_of_run h)
  refine ⟨fun ftr s' hr => ?_, fun ftr s' hr => ?_, fun ftr s' hr hstuck => ?_, ?_⟩
  · obtain ⟨-, -, -, hexited⟩ := forwarding_of_run hrunning hsafe hr
    exact hexited
  · obtain ⟨ftr', hr', hlength, -⟩ := forwarding_of_run hrunning hsafe hr
    rw [← hlength]
    exact hdrains.bounded ftr' _ hr'
  · obtain ⟨ftr', hr', hlength, hexited⟩ := forwarding_of_run hrunning hsafe hr
    rw [← hlength]
    exact hdrains.ends ftr' _ hr' ((stuck_iff hexited (hsafe.run hr')).mp hstuck)
  · rw [← hdrains.settles_iff]
    constructor
    · intro hall ftr f hr hstuck
      obtain ⟨ftr', hr'⟩ := run_of_forwarding hrunning hr
      exact hall ftr' _ hr' ((stuck_iff (s := { s with forwarding := f }) hrunning
        (hsafe.run hr)).mpr hstuck)
    · intro hall ftr s' hr hstuck
      obtain ⟨ftr', hr', -, hexited⟩ := forwarding_of_run hrunning hsafe hr
      exact hall ftr' _ hr' ((stuck_iff hexited (hsafe.run hr')).mp hstuck)

theorem run_twoAddresses (maxPermits : ℕ) : ∃ tr s,
    Run (Step sampleForwardCrates) (new .quic maxPermits) tr s ∧ s.exited = none ∧
    s.forwarding.stepsToEnd = (if maxPermits = 0 then 3 else 9) ∧
    s.forwarding.Safe sampleForwardCrates := by
  obtain ⟨tr, hrun⟩ := run_streaming .quic maxPermits
  have hsent := hrun.snoc (@Step.conn _ _ _ 0 _ _
    (.response true (.ok (buildTxMessageEnvelope "text" "AA==" (.replicate 2 "10.0.0.1:8009")))) _
    rfl rfl (.response rfl))
  refine ⟨_, _, hsent, rfl, rfl, fun _ tx hmem => ?_, ?_⟩
  · obtain rfl := List.mem_singleton.mp hmem
    simp [Forwarding.Sendable, sampleForwardCrates]
  · simp [receive, modifyConn, new]

/-- One permit is enough for a transaction with two addresses: nine steps, in any order.  Without a
permit both tasks wait after three. -/
theorem drained_two_addresses :
    (∃ tr s, Run (Step sampleForwardCrates) (new .quic 1) tr s ∧
      s.forwarding.stepsToEnd = 9 ∧ s.Drained sampleForwardCrates) ∧
    ∃ tr s, Run (Step sampleForwardCrates) (new .quic 0) tr s ∧
      s.forwarding.stepsToEnd = 3 ∧ s.Drained sampleForwardCrates := by
  obtain ⟨tr, s, hrun, hrunning, hsteps, hsafe⟩ := run_twoAddresses 1
  obtain ⟨tr₀, s₀, hrun₀, hrunning₀, hsteps₀, hsafe₀⟩ := run_twoAddresses 0
  exact ⟨⟨tr, s, hrun, hsteps, drains_of_run hrun hrunning hsafe⟩,
    tr₀, s₀, hrun₀, hsteps₀, drains_of_run hrun₀ hrunning₀ hsafe₀⟩

end Client

end Mtransaction
