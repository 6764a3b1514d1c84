import Mtransaction.Lib.Counters
import Mtransaction.Server.Types

/-!
# The client's forwarders

`client/forwarder.rs`, `client/quic_forwarder.rs` and `client/rpc_forwarder.rs`.  One task takes the
received transactions from an unbounded channel and spawns further tasks that send them on.  A panic
in any task ends the process.
-/

namespace Mtransaction

structure Status where
  code : ℕ
  message : String
  deriving DecidableEq, Repr

/-- The ways a task of the client can panic once it runs.  `setup_panic_hook` ends the whole process
on any of them. -/
inductive ClientPanic
  /-- `tpu.parse().unwrap()` -/
  | tpuNotSocketAddr
  /-- `decode(transaction.data).unwrap()` -/
  | notBase64
  /-- `client.tx_stream(request_stream).await.unwrap()` -/
  | txStreamRefused (status : Status)
  deriving DecidableEq, Repr

/-- What the forward tasks use of the standard library and of other crates. -/
structure ForwardCrates (SocketAddr : Type) where
  /-- `SocketAddr::from_str` -/
  parse : String → Except String SocketAddr
  /-- `base64::decode` -/
  base64Decode : String → Except String (List UInt8)

structure ForwardedTransaction where
  source : String
  transaction : Transaction
  deriving DecidableEq, Repr

inductive TransactionForwarder
  | quic
  | rpc
  | blackhole
  deriving DecidableEq, Repr

/-- The choice made by `spawn_forwarder`. -/
def spawnForwarder {Keypair IpAddr : Type} (identity : Option Keypair) (tpuAddr : Option IpAddr)
    (rpcUrl : Option String) (blackhole : Bool) : Except String TransactionForwarder :=
  if blackhole then .ok .blackhole
  else
    match rpcUrl with
    | some _ =>
      if identity.isSome || tpuAddr.isSome then
        .error "Cannot use parameters identity and tpu-addr when rpc-url is specified!"
      else .ok .rpc
    | none => .ok .quic

/-- Where a forward task stands: not run yet, waiting for a permit, sending with a permit, its result
counted but the permit not yet dropped, done. -/
inductive ForwardPhase
  | spawned
  | waiting
  | sending
  | reported
  | finished
  deriving DecidableEq, Repr

/-- A spawned task, with the address it sends to if it is one of the QUIC forwarder. -/
structure ForwardTask where
  source : String
  transaction : Transaction
  tpu : Option String
  phase : ForwardPhase
  deriving DecidableEq, Repr

/-- The metrics of `client/metrics.rs` that forwarding changes. -/
structure ForwardMetrics where
  txReceived : CounterVec String
  txForwardSucceeded : CounterVec String
  txForwardFailed : CounterVec String
  quicForwarderPermitsUsedMax : ℕ

structure Forwarding where
  forwarder : TransactionForwarder
  maxPermits : ℕ
  availablePermits : ℕ
  /-- `rx_transactions` -/
  queue : List ForwardedTransaction
  tasks : List ForwardTask
  metrics : ForwardMetrics

inductive ForwardEvent
  /-- the next transaction is taken from the channel -/
  | process
  /-- task `n` runs up to its wait for a permit -/
  | start (n : ℕ)
  | acquire (n : ℕ)
  /-- the send of task `n` is over -/
  | finish (n : ℕ) (result : Except String Unit)
  /-- `drop(throttle_permit)` -/
  | drop (n : ℕ)

namespace ForwardTask

variable {SocketAddr : Type} (crates : ForwardCrates SocketAddr)

/-- The address and the bytes a QUIC task sends; a task of the RPC forwarder sends the data as they
are. -/
def prepare (task : ForwardTask) : Except ClientPanic (Option (SocketAddr × List UInt8)) :=
  match task.tpu with
  | none => .ok none
  | some tpu =>
    match crates.parse tpu with
    | .error _ => .error .tpuNotSocketAddr
    | .ok addr =>
      match crates.base64Decode task.transaction.data with
      | .error _ => .error .notBase64
      | .ok wireTransaction => .ok (some (addr, wireTransaction))

theorem prepare_ok_iff (task : ForwardTask) :
    (∃ sent, task.prepare crates = .ok sent) ↔
      ∀ tpu, task.tpu = some tpu → (∃ addr, crates.parse tpu = .ok addr) ∧
        ∃ wire, crates.base64Decode task.transaction.data = .ok wire := by
  unfold prepare
  cases task.tpu with
  | none => simp
  | some tpu =>
    cases hparse : crates.parse tpu with
    | error err => simp [hparse]
    | ok addr =>
      cases hdecode : crates.base64Decode task.transaction.data with
      | error err => simp [hparse]
      | ok wire => simp [hparse]

end ForwardTask

namespace Forwarding

/-- `Forwarder::process` of the three forwarders. -/
def process (f : Forwarding) (tx : ForwardedTransaction) : Forwarding :=
  let received := { f.metrics with txReceived := f.metrics.txReceived.inc tx.source }
  match f.forwarder with
  | .quic =>
    { f with
      metrics := received
      tasks := f.tasks ++
        tx.transaction.tpu.map fun tpu => ⟨tx.source, tx.transaction, some tpu, .spawned⟩ }
  | .rpc =>
    { f with
      metrics := received
      tasks := f.tasks ++ [⟨tx.source, tx.transaction, none, .spawned⟩] }
  | .blackhole =>
    { f with
      metrics := {
        received with txForwardSucceeded := f.metrics.txForwardSucceeded.inc tx.source } }

def observe (f : Forwarding) (task : ForwardTask) : ForwardMetrics :=
  match task.tpu with
  | some _ =>
    { f.metrics with
      quicForwarderPermitsUsedMax :=
        max f.metrics.quicForwarderPermitsUsedMax (f.maxPermits - f.availablePermits) }
  | none => f.metrics

/-- `handle_send_result`, and its counterpart in the RPC task. -/
def handleSendResult (m : ForwardMetrics) (source : String) : Except String Unit → ForwardMetrics
  | .ok () => { m with txForwardSucceeded := m.txForwardSucceeded.inc source }
  | .error _ => { m with txForwardFailed := m.txForwardFailed.inc source }

def setPhase (f : Forwarding) (n : ℕ) (task : ForwardTask) (phase : ForwardPhase) :
    List ForwardTask :=
  f.tasks.set n { task with phase }

section Step

variable {SocketAddr : Type} (crates : ForwardCrates SocketAddr)

inductive Step : Forwarding → ForwardEvent → Forwarding → Prop
  | process {f : Forwarding} {tx : ForwardedTransaction} {rest : List ForwardedTransaction}
      (next : f.queue = tx :: rest) : Step f .process ({ f with queue := rest }.process tx)
  | start {f : Forwarding} {n : ℕ} {task : ForwardTask} {sent : Option (SocketAddr × List UInt8)}
      (htask : f.tasks[n]? = some task) (spawned : task.phase = .spawned)
      (prepared : task.prepare crates = .ok sent) :
      Step f (.start n) { f with metrics := f.observe task, tasks := f.setPhase n task .waiting }
  | acquire {f : Forwarding} {n : ℕ} {task : ForwardTask} (htask : f.tasks[n]? = some task)
      (waiting : task.phase = .waiting) (permit : 0 < f.availablePermits) :
      Step f (.acquire n)
        { f with
          availablePermits := f.availablePermits - 1
          tasks := f.setPhase n task .sending }
  | finish {f : Forwarding} {n : ℕ} {task : ForwardTask} {result : Except String Unit}
      (htask : f.tasks[n]? = some task) (sending : task.phase = .sending) :
      Step f (.finish n result)
        { f with
          metrics := handleSendResult f.metrics task.source result
          tasks := f.setPhase n task .reported }
  | drop {f : Forwarding} {n : ℕ} {task : ForwardTask} (htask : f.tasks[n]? = some task)
      (reported : task.phase = .reported) :
      Step f (.drop n)
        { f with
          availablePermits := f.availablePermits + 1
          tasks := f.setPhase n task .finished }

/-- The step that ends the process instead. -/
inductive Panics : Forwarding → ForwardEvent → ClientPanic → Prop
  | start {f : Forwarding} {n : ℕ} {task : ForwardTask} {panic : ClientPanic}
      (htask : f.tasks[n]? = some task) (spawned : task.phase = .spawned)
      (prepared : task.prepare crates = .error panic) : Panics f (.start n) panic

end Step

/-! ## Transactions that can be sent -/

section Sendable

variable {SocketAddr : Type} {crates : ForwardCrates SocketAddr} {f f' : Forwarding}
  {event : ForwardEvent} {panic : ClientPanic}

/-- What the QUIC tasks of a transaction unwrap without checking. -/
def Sendable (crates : ForwardCrates SocketAddr) (transaction : Transaction) : Prop :=
  ∀ tpu ∈ transaction.tpu, (∃ addr, crates.parse tpu = .ok addr) ∧
    ∃ wire, crates.base64Decode transaction.data = .ok wire

/-- No transaction can make a task panic: not those in the channel, and not those of spawned
tasks. -/
structure Safe (crates : ForwardCrates SocketAddr) (f : Forwarding) : Prop where
  queued : f.forwarder = .quic → ∀ tx ∈ f.queue, Sendable crates tx.transaction
  spawned : ∀ task ∈ f.tasks, ∃ sent, task.prepare crates = .ok sent

theorem Safe.not_panics (h : f.Safe crates) : ¬ f.Panics crates event panic := by
  rintro ⟨htask, -, prepared⟩
  obtain ⟨sent, hsent⟩ := h.spawned _ (List.mem_of_getElem? htask)
  rw [hsent] at prepared
  simp at prepared

theorem Safe.setPhase (h : f.Safe crates) {n : ℕ} {task : ForwardTask} (phase : ForwardPhase)
    (htask : f.tasks[n]? = some task) :
    ∀ task' ∈ f.setPhase n task phase, ∃ sent, task'.prepare crates = .ok sent :=
  Interleaving.forall_mem_set n h.spawned (h.spawned task (List.mem_of_getElem? htask))

theorem Safe.process (h : f.Safe crates) {tx : ForwardedTransaction}
    {rest : List ForwardedTransaction} (next : f.queue = tx :: rest) :
    Safe crates ({ f with queue := rest }.process tx) := by
  have hqueued : f.forwarder = .quic → ∀ tx' ∈ rest, Sendable crates tx'.transaction := by
    intro hquic tx' hmem
    exact h.queued hquic tx' (next ▸ List.mem_cons_of_mem _ hmem)
  unfold Forwarding.process
  cases hforwarder : f.forwarder with
  | quic =>
    simp only
    refine ⟨fun _ => hqueued hforwarder, List.forall_mem_append.mpr ⟨h.spawned, ?_⟩⟩
    -- one task for each address of the transaction
    intro task hmem
    obtain ⟨tpu, htpu, rfl⟩ := List.mem_map.mp hmem
    have hsendable := h.queued hforwarder tx (next ▸ List.mem_cons_self)
    rw [ForwardTask.prepare_ok_iff]
    intro tpu' heq
    exact Option.some.inj heq ▸ hsendable tpu htpu
  | rpc =>
    simp only
    refine ⟨by simp, List.forall_mem_append.mpr ⟨h.spawned, ?_⟩⟩
    simp [ForwardTask.prepare]
  | blackhole =>
    simp only
    exact ⟨by simp, h.spawned⟩

theorem Safe.step (h : f.Safe crates) (hs : f.Step crates event f') : f'.Safe crates := by
  cases hs with
  | process next => exact h.process next
  | start htask spawned prepared => exact ⟨h.queued, h.setPhase .waiting htask⟩
  | acquire htask waiting permit => exact ⟨h.queued, h.setPhase .sending htask⟩
  | finish htask sending => exact ⟨h.queued, h.setPhase .reported htask⟩
  | drop htask reported => exact ⟨h.queued, h.setPhase .finished htask⟩

end Sendable

end Forwarding

end Mtransaction
