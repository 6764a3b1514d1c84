import Mtransaction.Client.Forwarder
import Mtransaction.Lib.Runs
import Mathlib.Data.UInt

/-!
# The client's connections to its servers

`client/grpc_client.rs` and `spawn_grpc_connection_with_retry` of `client/main.rs`: one task per
server loads the TLS configuration, connects, calls `tx_stream` and reads the stream, and starts
over after a delay when one of these fails.  All of them share one forwarder and one process.
-/

namespace Mtransaction

open Runs

/-! ## Messages of `proto/mtransaction.proto` to the server -/

structure Pong where
  id : String
  deriving DecidableEq, Repr

structure ClientMetrics where
  txReceived : UInt64
  txForwardSucceeded : UInt64
  txForwardFailed : UInt64
  version : String
  quicForwarderPermitsUsedMax : UInt64
  memoryPhysical : UInt64
  deriving DecidableEq, Repr

structure RequestMessageEnvelope where
  pong : Option Pong := none
  metrics : Option ClientMetrics := none
  rtt : Option Rtt := none
  deriving DecidableEq, Repr

def processPing (ping : PingMessage) : RequestMessageEnvelope := { pong := some ⟨ping.id⟩ }

/-- The messages a response puts on `tx_upstream_transactions` and on `tx_transactions`. -/
def processUpstreamMessage (source : String) (response : Except Status ResponseMessageEnvelope) :
    List RequestMessageEnvelope × List ForwardedTransaction :=
  match response with
  | .ok envelope =>
    (envelope.ping.toList.map processPing,
      envelope.transaction.toList.map fun transaction => ⟨source, transaction⟩)
  -- an error item is logged, and the stream is read on
  | .error _ => ([], [])

/-! ## One connection -/

/-- In milliseconds. -/
def grpcReconnectDelay : UInt64 := 1000
def grpcReconnectMaxDelay : UInt64 := 60000

/-- The delay after the `retry`-th failure; the product wraps like the `u64` it is. -/
def retryDelay (retry : UInt64) : UInt64 := min grpcReconnectMaxDelay (grpcReconnectDelay * retry)

inductive ConnPhase
  | loadingTls
  | connecting
  | calling
  | streaming
  | sleeping (retryDelay : UInt64)
  /-- left the loop -/
  | ended
  | aborted
  deriving DecidableEq, Repr

/-- A task of `spawn_grpc_connection_with_retry`. -/
structure ServerConnection where
  source : String
  phase : ConnPhase
  retry : UInt64
  /-- how often an attempt has failed, exactly -/
  failures : ℕ
  /-- whether the receiver of the attempt's metrics is closed -/
  metricsClosed : Bool
  /-- whether the feeder of the attempt's metrics has ended, and dropped its sender -/
  feederGone : Bool
  /-- what the attempt has put on `tx_upstream_transactions` -/
  upstream : List RequestMessageEnvelope

/-- What happens to a connection.  `taken` says whether the request stream is still read. -/
inductive ConnEvent
  | tls (result : Except String Unit)
  | connect (result : Except String Unit)
  | call (result : Except Status Unit)
  | response (taken : Bool) (response : Except Status ResponseMessageEnvelope)
  /-- `response_stream.next()` is `None` -/
  | closed
  | metrics (taken : Bool) (metrics : ClientMetrics)
  /-- `metrics.recv()` is `None` -/
  | metricsDropped
  | feederEnds
  | wake

def ConnEvent.Fails : ConnEvent → Prop
  | .tls (.error _) | .connect (.error _) | .call (.error _) | .closed => True
  | _ => False

namespace ServerConnection

def new (source : String) : ServerConnection := ⟨source, .loadingTls, 0, 0, false, false, []⟩

def fail (conn : ServerConnection) : ServerConnection :=
  { conn with
    retry := conn.retry + 1
    failures := conn.failures + 1
    metricsClosed := true
    phase := .sleeping (retryDelay (conn.retry + 1)) }

/-- The next round of the loop, with a feeder of its own. -/
def again (conn : ServerConnection) : ServerConnection :=
  { conn with phase := .loadingTls, metricsClosed := false, feederGone := false, upstream := [] }

def enqueue (conn : ServerConnection) (taken : Bool) (messages : List RequestMessageEnvelope) :
    ServerConnection :=
  { conn with upstream := if taken then conn.upstream ++ messages else conn.upstream }

/-- The steps of a connection, with the transactions it hands to the forwarder. -/
inductive Step :
    ServerConnection → ConnEvent → ServerConnection → List ForwardedTransaction → Prop
  | tls {conn : ServerConnection} (loading : conn.phase = .loadingTls) :
      Step conn (.tls (.ok ())) { conn with phase := .connecting } []
  | tlsFails {conn : ServerConnection} {err : String} (loading : conn.phase = .loadingTls) :
      Step conn (.tls (.error err)) conn.fail []
  | connect {conn : ServerConnection} (connecting : conn.phase = .connecting) :
      Step conn (.connect (.ok ())) { conn with phase := .calling } []
  | connectFails {conn : ServerConnection} {err : String} (connecting : conn.phase = .connecting) :
      Step conn (.connect (.error err)) conn.fail []
  | call {conn : ServerConnection} (calling : conn.phase = .calling) :
      Step conn (.call (.ok ())) { conn with phase := .streaming } []
  | response {conn : ServerConnection} {taken : Bool}
      {response : Except Status ResponseMessageEnvelope} (streaming : conn.phase = .streaming) :
      Step conn (.response taken response)
        (conn.enqueue taken (processUpstreamMessage conn.source response).1)
        (processUpstreamMessage conn.source response).2
  | closed {conn : ServerConnection} (streaming : conn.phase = .streaming) :
      Step conn .closed conn.fail []
  | metrics {conn : ServerConnection} {taken : Bool} {metrics : ClientMetrics}
      (streaming : conn.phase = .streaming) :
      Step conn (.metrics taken metrics) (conn.enqueue taken [{ metrics := some metrics }]) []
  -- `break`, and `Ok` ends the loop
  | metricsDropped {conn : ServerConnection} (streaming : conn.phase = .streaming)
      (gone : conn.feederGone) : Step conn .metricsDropped { conn with phase := .ended } []
  -- the feeder looks whether the receiver is closed
  | feederEnds {conn : ServerConnection} (closed : conn.metricsClosed) :
      Step conn .feederEnds { conn with feederGone := true } []
  | wake {conn : ServerConnection} {delay : UInt64} (sleeping : conn.phase = .sleeping delay) :
      Step conn .wake conn.again []

/-- The step that ends the process instead: a refused call is unwrapped. -/
inductive Panics : ServerConnection → ConnEvent → ClientPanic → Prop
  | call {conn : ServerConnection} {status : Status} (calling : conn.phase = .calling) :
      Panics conn (.call (.error status)) (.txStreamRefused status)

end ServerConnection

/-! ## The process -/

structure Client where
  conns : List ServerConnection
  forwarding : Forwarding
  /-- the panic that ended the process -/
  exited : Option ClientPanic

inductive ClientEvent
  /-- `build_tasks`, for one server -/
  | spawn (source : String)
  | abort (n : ℕ)
  | conn (n : ℕ) (event : ConnEvent)
  | forward (event : ForwardEvent)

namespace Client

def new (forwarder : TransactionForwarder) (maxPermits : ℕ) : Client :=
  ⟨[], ⟨forwarder, maxPermits, maxPermits, [], [], ⟨∅, ∅, ∅, 0⟩⟩, none⟩

def modifyConn (s : Client) (n : ℕ) (conn : ServerConnection) : Client :=
  { s with conns := s.conns.set n conn }

def receive (s : Client) (transactions : List ForwardedTransaction) : Client :=
  { s with forwarding := { s.forwarding with queue := s.forwarding.queue ++ transactions } }

section Step

variable {SocketAddr : Type} (crates : ForwardCrates SocketAddr)

/-- The steps of all tasks, as long as none of them has panicked. -/
inductive Step : Client → ClientEvent → Client → Prop
  | spawn {s : Client} {source : String} (running : s.exited = none) :
      Step s (.spawn source) { s with conns := s.conns ++ [.new source] }
  | abort {s : Client} {n : ℕ} {conn : ServerConnection} (running : s.exited = none)
      (hconn : s.conns[n]? = some conn) :
      Step s (.abort n) (s.modifyConn n { conn with phase := .aborted })
  | conn {s : Client} {n : ℕ} {conn conn' : ServerConnection} {event : ConnEvent}
      {transactions : List ForwardedTransaction} (running : s.exited = none)
      (hconn : s.conns[n]? = some conn) (hstep : conn.Step event conn' transactions) :
      Step s (.conn n event) ((s.modifyConn n conn').receive transactions)
  | connPanics {s : Client} {n : ℕ} {conn : ServerConnection} {event : ConnEvent}
      {panic : ClientPanic} (running : s.exited = none) (hconn : s.conns[n]? = some conn)
      (hpanics : conn.Panics event panic) : Step s (.conn n event) { s with exited := some panic }
  | forward {s : Client} {event : ForwardEvent} {forwarding : Forwarding}
      (running : s.exited = none) (hstep : s.forwarding.Step crates event forwarding) :
      Step s (.forward event) { s with forwarding }
  | forwardPanics {s : Client} {event : ForwardEvent} {panic : ClientPanic}
      (running : s.exited = none) (hpanics : s.forwarding.Panics crates event panic) :
      Step s (.forward event) { s with exited := some panic }

/-- The step cannot do harm: no server refuses the call, the transactions that come in can be sent
by QUIC if that is how they are sent, and failures are few enough for their delays not to wrap. -/
def Harmless (s : Client) : ClientEvent → Prop
  | .conn _ (.call (.error _)) => False
  | .conn _ (.response _ (.ok envelope)) => s.forwarding.forwarder = .quic →
      ∀ transaction ∈ envelope.transaction, Forwarding.Sendable crates transaction
  | .conn n (.tls (.error _)) | .conn n (.connect (.error _)) | .conn n .closed =>
      ∀ conn ∈ s.conns[n]?, conn.failures < 18446744073709551
  | _ => True

end Step

/-- The process runs, every connection keeps trying, and after its `k`-th failure it waits for `k`
seconds, or one minute if that is less. -/
structure Serving (s : Client) : Prop where
  running : s.exited = none
  retrying : ∀ conn ∈ s.conns, conn.phase ≠ .ended
  delayed : ∀ conn ∈ s.conns, ∀ delay, conn.phase = .sleeping delay →
    delay.toNat = min 60000 (1000 * conn.failures)

/-- What happens on one connection leaves the others as they are, and a failure is retried. -/
structure Contained (s : Client) (n : ℕ) (event : ConnEvent) (s' : Client) : Prop where
  others : ∀ m ≠ n, s'.conns[m]? = s.conns[m]?
  retried : event.Fails → ∃ conn conn' delay, s.conns[n]? = some conn ∧
    s'.conns[n]? = some conn' ∧ conn'.phase = .sleeping delay ∧
      conn'.failures = conn.failures + 1

end Client

/-! ## Delays -/

theorem toNat_retryDelay {retry : UInt64} (h : retry.toNat ≤ 18446744073709551) :
    (retryDelay retry).toNat = min 60000 (1000 * retry.toNat) := by
  have hmul : (grpcReconnectDelay * retry).toNat = 1000 * retry.toNat := by
    rw [UInt64.toNat_mul]
    show 1000 * retry.toNat % 2 ^ 64 = _
    apply Nat.mod_eq_of_lt
    omega
  show (if grpcReconnectMaxDelay ≤ grpcReconnectDelay * retry then grpcReconnectMaxDelay
    else grpcReconnectDelay * retry).toNat = _
  have hmax : grpcReconnectMaxDelay.toNat = 60000 := rfl
  split
  next hle =>
    rw [UInt64.le_iff_toNat_le, hmul, hmax] at hle
    rw [hmax, Nat.min_eq_left hle]
  next hlt =>
    rw [UInt64.le_iff_toNat_le, hmul, hmax] at hlt
    rw [hmul]
    omega

namespace ServerConnection

variable {conn conn' : ServerConnection} {event : ConnEvent}
  {transactions : List ForwardedTransaction}

/-- An attempt is being made; its metrics are received until it is over. -/
def Attempting (conn : ServerConnection) : Prop :=
  conn.phase = .loadingTls ∨ conn.phase = .connecting ∨ conn.phase = .calling ∨
    conn.phase = .streaming

/-- What holds of a connection as long as its failures are few. -/
structure Sound (conn : ServerConnection) : Prop where
  fed : conn.Attempting → conn.metricsClosed = false ∧ conn.feederGone = false
  retrying : conn.phase ≠ .ended
  counted : conn.retry.toNat = conn.failures
  few : conn.failures ≤ 18446744073709551
  delayed : ∀ delay, conn.phase = .sleeping delay → delay.toNat = min 60000 (1000 * conn.failures)

theorem sound_new (source : String) : (new source).Sound := by
  constructor <;> simp [new]

theorem Sound.aborted (h : conn.Sound) : Sound { conn with phase := .aborted } := by
  refine ⟨?_, by simp, h.counted, h.few, by simp⟩
  rintro (⟨⟨⟩⟩ | ⟨⟨⟩⟩ | ⟨⟨⟩⟩ | ⟨⟨⟩⟩)

theorem Sound.fail (h : conn.Sound) (hfew : conn.failures < 18446744073709551) :
    conn.fail.Sound := by
  have hretry : (conn.retry + 1).toNat = conn.failures + 1 := by
    rw [UInt64.toNat_add, h.counted]
    show (conn.failures + 1) % 2 ^ 64 = _
    apply Nat.mod_eq_of_lt
    omega
  refine ⟨?_, by simp [ServerConnection.fail], hretry, hfew, fun delay hdelay => ?_⟩
  · rintro (⟨⟨⟩⟩ | ⟨⟨⟩⟩ | ⟨⟨⟩⟩ | ⟨⟨⟩⟩)
  · obtain rfl := ConnPhase.sleeping.inj hdelay
    show _ = min 60000 (1000 * (conn.failures + 1))
    rw [toNat_retryDelay (by omega), hretry]

theorem Sound.proceed (h : conn.Sound) (hconn : conn.Attempting) {phase : ConnPhase}
    (hphase : phase ≠ .ended) (hsleep : ∀ delay, phase ≠ .sleeping delay) :
    Sound { conn with phase } :=
  ⟨fun _ => h.fed hconn, hphase, h.counted, h.few, fun delay hd => absurd hd (hsleep delay)⟩

/-- The feeder of the metrics does not end before the attempt. -/
theorem Sound.step (h : conn.Sound) (hs : conn.Step event conn' transactions)
    (hfew : event.Fails → conn.failures < 18446744073709551) : conn'.Sound := by
  cases hs with
  | tls loading => exact h.proceed (.inl loading) (by simp) (by simp)
  | tlsFails loading => exact h.fail (hfew trivial)
  | connect connecting => exact h.proceed (.inr (.inl connecting)) (by simp) (by simp)
  | connectFails connecting => exact h.fail (hfew trivial)
  | call calling => exact h.proceed (.inr (.inr (.inl calling))) (by simp) (by simp)
  | response streaming => exact ⟨h.fed, h.retrying, h.counted, h.few, h.delayed⟩
  | closed streaming => exact h.fail (hfew trivial)
  | metrics streaming => exact ⟨h.fed, h.retrying, h.counted, h.few, h.delayed⟩
  | metricsDropped streaming gone =>
    have hfed := (h.fed (.inr (.inr (.inr streaming)))).2
    rw [hfed] at gone
    simp at gone
  | feederEnds closed =>
    refine ⟨fun hattempt => ?_, h.retrying, h.counted, h.few, h.delayed⟩
    have hopen := (h.fed hattempt).1
    rw [hopen] at closed
    simp at closed
  | wake sleeping =>
    exact ⟨fun _ => ⟨rfl, rfl⟩, by simp [again], h.counted, h.few, by simp [again]⟩

end ServerConnection

namespace Client

variable {SocketAddr : Type} {crates : ForwardCrates SocketAddr} {s s' : Client}
  {event : ClientEvent} {tr : List (Client × ClientEvent)} {forwarder : TransactionForwarder}
  {maxPermits : ℕ}

/-- What harmless steps keep. -/
structure Sound (crates : ForwardCrates SocketAddr) (s : Client) : Prop where
  running : s.exited = none
  safe : s.forwarding.Safe crates
  conns : ∀ conn ∈ s.conns, conn.Sound

theorem sound_new (forwarder : TransactionForwarder) (maxPermits : ℕ) :
    (new forwarder maxPermits).Sound crates :=
  ⟨rfl, ⟨by simp [new], by simp [new]⟩, by simp [new]⟩

theorem Sound.serving (h : s.Sound crates) : s.Serving :=
  ⟨h.running, fun conn hmem => (h.conns conn hmem).retrying,
    fun conn hmem => (h.conns conn hmem).delayed⟩

theorem Sound.modifyConn (h : s.Sound crates) (n : ℕ) {conn : ServerConnection}
    (hconn : conn.Sound) : ∀ conn' ∈ (s.modifyConn n conn).conns, conn'.Sound :=
  Interleaving.forall_mem_set n h.conns hconn

theorem Sound.receive (h : s.Sound crates) {n : ℕ} {conn conn' : ServerConnection}
    {connEvent : ConnEvent} {transactions : List ForwardedTransaction}
    (hharmless : s.Harmless crates (.conn n connEvent))
    (hs : conn.Step connEvent conn' transactions) :
    Forwarding.Safe crates
      { s.forwarding with queue := s.forwarding.queue ++ transactions } := by
  refine ⟨fun hquic => ?_, h.safe.spawned⟩
  refine List.forall_mem_append.mpr ⟨h.safe.queued hquic, ?_⟩
  cases hs with
  | @response taken response streaming =>
    cases response with
    | error status => simp [processUpstreamMessage]
    | ok envelope =>
      intro tx hmem
      obtain ⟨transaction, htransaction, rfl⟩ := List.mem_map.mp hmem
      exact hharmless hquic transaction (Option.mem_toList.mp htransaction)
  | _ => simp

theorem Harmless.few {n : ℕ} {conn : ServerConnection} {connEvent : ConnEvent}
    (h : s.Harmless crates (.conn n connEvent)) (hconn : s.conns[n]? = some conn)
    (hfails : connEvent.Fails) : conn.failures < 18446744073709551 := by
  unfold ConnEvent.Fails at hfails
  split at hfails
  · exact h conn hconn
  · exact h conn hconn
  · exact h.elim
  · exact h conn hconn
  · exact hfails.elim

theorem Sound.step (h : s.Sound crates) (hs : s.Step crates event s')
    (hharmless : s.Harmless crates event) : s'.Sound crates := by
  cases hs with
  | spawn running =>
    refine ⟨running, h.safe, List.forall_mem_append.mpr ⟨h.conns, ?_⟩⟩
    exact List.forall_mem_singleton.mpr (ServerConnection.sound_new _)
  | abort running hconn =>
    have hsound := (h.conns _ (List.mem_of_getElem? hconn)).aborted
    exact ⟨running, h.safe, h.modifyConn _ hsound⟩
  | conn running hconn hstep =>
    have hsound := (h.conns _ (List.mem_of_getElem? hconn)).step hstep (hharmless.few hconn)
    exact ⟨running, h.receive hharmless hstep, h.modifyConn _ hsound⟩
  | connPanics running hconn hpanics =>
    cases hpanics
    exact hharmless.elim
  | forward running hstep => exact ⟨running, h.safe.step hstep, h.conns⟩
  | forwardPanics running hpanics => exact absurd hpanics h.safe.not_panics

theorem contained_of_step {n : ℕ} {connEvent : ConnEvent}
    (hs : s.Step crates (.conn n connEvent) s')
    (hharmless : s.Harmless crates (.conn n connEvent)) : Contained s n connEvent s' := by
  cases hs with
  | @conn _ conn conn' _ transactions running hconn hstep =>
    refine ⟨fun m hm => List.getElem?_set_ne (Ne.symm hm), fun hfails => ?_⟩
    have hset : ((s.modifyConn n conn').receive transactions).conns[n]? = some conn' :=
      List.getElem?_set_self (List.getElem?_eq_some_iff.mp hconn).1
    cases hstep with
    | tlsFails loading => exact ⟨conn, conn.fail, _, hconn, hset, rfl, rfl⟩
    | connectFails connecting => exact ⟨conn, conn.fail, _, hconn, hset, rfl, rfl⟩
    | closed streaming => exact ⟨conn, conn.fail, _, hconn, hset, rfl, rfl⟩
    | _ => exact hfails.elim
  | connPanics running hconn hpanics =>
    cases hpanics
    exact hharmless.elim

/-- In every run of harmless steps the process runs, its connections retry with the delays they are
meant to have, and what happens on one of them does not touch the others. -/
theorem contained_of_harmless (h : Run (Step crates) (new forwarder maxPermits) tr s)
    (hharmless : ∀ x ∈ tr, x.1.Harmless crates x.2) :
    (∀ x ∈ tr, x.1.Serving ∧ ∀ n connEvent s', x.2 = .conn n connEvent →
      x.1.Step crates x.2 s' → Contained x.1 n connEvent s') ∧ s.Serving := by
  have hstep : ∀ t a u, (t, a) ∈ tr → t.Sound crates → t.Step crates a u → u.Sound crates :=
    fun t a u hmem ht hs => ht.step hs (hharmless _ hmem)
  constructor
  · intro x hx
    refine ⟨(h.invariant_mem (sound_new _ _) hstep x hx).serving, ?_⟩
    intro n connEvent s' heq hs
    have hx' := hharmless x hx
    rw [heq] at hs hx'
    exact contained_of_step hs hx'
  · exact (h.invariant (sound_new _ _) hstep).serving

/-! ## Two servers -/

/-- One address that parses and one text that decodes. -/
def sampleForwardCrates : ForwardCrates Unit where
  parse tpu := if tpu = "10.0.0.1:8009" then .ok () else .error "invalid socket address syntax"
  base64Decode data := if data = "AA==" then .ok [0] else .error "Invalid byte"

/-- A QUIC client with two servers, the first of which is being called. -/
def callingFirst : Client :=
  { new .quic 1000 with
    conns := [{ ServerConnection.new "a" with phase := .calling }, .new "b"] }

theorem run_callingFirst :
    ∃ tr, Run (Step sampleForwardCrates) (new .quic 1000) tr callingFirst ∧
      ∀ x ∈ tr, x.1.Harmless sampleForwardCrates x.2 := by
  have hspawned := ((Run.nil (new .quic 1000)).snoc
    (@Step.spawn _ sampleForwardCrates _ "a" rfl)).snoc (@Step.spawn _ _ _ "b" rfl)
  have htls := hspawned.snoc (@Step.conn _ _ _ 0 _ _ _ _ rfl rfl (.tls rfl))
  have hconnect := htls.snoc (@Step.conn _ _ _ 0 _ _ _ _ rfl rfl (.connect rfl))
  refine ⟨_, hconnect, ?_⟩
  simp only [List.forall_mem_append, List.forall_mem_singleton]
  exact ⟨⟨⟨⟨by simp, trivial⟩, trivial⟩, trivial⟩, trivial⟩

/-- The first server sends a transaction and closes the stream: it is called again after a second,
and the second server is not concerned. -/
theorem contained_after_close :
    ∃ s, Reachable (Step sampleForwardCrates) (new .quic 1000) s ∧ s.Serving ∧
      s.conns[0]?.map ServerConnection.phase = some (.sleeping 1000) ∧
      s.conns[1]? = some (.new "b") := by
  obtain ⟨tr, hrun, hharmless⟩ := run_callingFirst
  have hcalled := hrun.snoc (@Step.conn _ _ _ 0 _ _ _ _ rfl rfl (.call rfl))
  have hsent := hcalled.snoc (@Step.conn _ _ _ 0 _ _
    (.response true (.ok (buildTxMessageEnvelope "text" "AA==" ["10.0.0.1:8009"]))) _ rfl rfl
    (.response rfl))
  have hclosed := hsent.snoc (@Step.conn _ _ _ 0 _ _ _ _ rfl rfl (.closed rfl))
  refine ⟨_, ⟨_, hclosed⟩, (contained_of_harmless hclosed ?_).2, rfl, rfl⟩
  simp only [List.forall_mem_append, List.forall_mem_singleton]
  refine ⟨⟨⟨hharmless, trivial⟩, ?_⟩, ?_⟩
  · rintro - transaction ⟨⟩
    simp [Forwarding.Sendable, sampleForwardCrates]
  · rintro conn ⟨⟩
    decide

/-- A server that refuses the call ends the process, and the connection to the other server with
it; so does one that sends an address that does not parse. -/
theorem process_ended_by_one_server :
    (∃ s, Reachable (Step sampleForwardCrates) (new .quic 1000) s ∧
      s.exited = some (.txStreamRefused ⟨16, "Not authenticated!"⟩) ∧ ¬ s.Serving) ∧
    ∃ s, Reachable (Step sampleForwardCrates) (new .quic 1000) s ∧
      s.exited = some .tpuNotSocketAddr ∧ ¬ s.Serving := by
  obtain ⟨tr, hrun, -⟩ := run_callingFirst
  constructor
  · have hrefused := hrun.snoc (@Step.connPanics _ _ _ 0 _ _ _ rfl rfl
      (@ServerConnection.Panics.call _ ⟨16, "Not authenticated!"⟩ rfl))
    exact ⟨_, ⟨_, hrefused⟩, rfl, fun h => by simpa using h.running⟩
  · have hcalled := hrun.snoc (@Step.conn _ _ _ 0 _ _ _ _ rfl rfl (.call rfl))
    have hsent := hcalled.snoc (@Step.conn _ _ _ 0 _ _
      (.response true (.ok (buildTxMessageEnvelope "text" "AA==" ["localhost:8009"]))) _ rfl rfl
      (.response rfl))
    have hspawned := hsent.snoc (.forward rfl (.process rfl))
    have hpanic := hspawned.snoc (.forwardPanics rfl (@Forwarding.Panics.start _ _ _ 0 _
      .tpuNotSocketAddr rfl rfl rfl))
    exact ⟨_, ⟨_, hpanic⟩, rfl, fun h => by simpa using h.running⟩

end Client

end Mtransaction
