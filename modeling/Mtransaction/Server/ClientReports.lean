import Mtransaction.Lib.Noninterference
import Mtransaction.Server.TxStream
import Mtransaction.Server.BalancerRuns
import Mtransaction.PingPong

/-!
# What clients report

`handle_client_request` of `server/grpc_server.rs` takes three things from a client: its metrics,
which become gauges under its identity, measured round trips, which the balancer averages, and
pongs.  A task does this for each connection while others serve the other clients, and other
connections of the same client.
-/

namespace Mtransaction

open Runs Noninterference

/-- The gauges of `handle_client_metrics`. -/
inductive ClientGauge
  | txReceived
  | txForwardSucceeded
  | txForwardFailed
  | quicForwarderPermitsUsedMax
  | memoryPhysical
  deriving DecidableEq, Repr

/-- One thing `handle_client_request` does. -/
inductive RequestPart
  | set (gauge : ClientGauge) (value : Int64)
  | rtt (value : Rtt)
  | pong (pong : Pong)
  deriving DecidableEq

/-- What the gauge is set to, `as i64`. -/
def ClientMetrics.value (metrics : ClientMetrics) : ClientGauge → Int64
  | .txReceived => metrics.txReceived.toInt64
  | .txForwardSucceeded => metrics.txForwardSucceeded.toInt64
  | .txForwardFailed => metrics.txForwardFailed.toInt64
  | .quicForwarderPermitsUsedMax => metrics.quicForwarderPermitsUsedMax.toInt64
  | .memoryPhysical => metrics.memoryPhysical.toInt64

/-- One gauge after the other. -/
def handleClientMetrics (metrics : ClientMetrics) : List RequestPart :=
  [.txReceived, .txForwardSucceeded, .txForwardFailed, .quicForwarderPermitsUsedMax,
    .memoryPhysical].map fun gauge => .set gauge (metrics.value gauge)

/-- All of `handle_client_request`, in its order. -/
def requestParts : Except Status RequestMessageEnvelope → List RequestPart
  | .ok envelope =>
    (envelope.metrics.toList.flatMap handleClientMetrics) ++
      (envelope.rtt.toList.map .rtt ++ envelope.pong.toList.map .pong)
  -- logged
  | .error _ => []

inductive ReportPhase
  /-- in `select!`, or in `handle_client_request` with these parts left -/
  | running (parts : List RequestPart)
  /-- waiting for room in the channel -/
  | sending
  /-- out of the loop -/
  | stopping
  | unsubscribed
  /-- in `reset_client_metrics`, after the first removal -/
  | resetting
  | finished
  deriving DecidableEq

/-- The task of a connection. -/
structure ReportTask where
  hint : UInt64
  ready : ℕ
  lastPing : Ping
  phase : ReportPhase
  deriving DecidableEq

def ReportTask.new (now : ℕ) : ReportTask := ⟨0, now, ⟨0, now⟩, .running []⟩

/-- What is left of the request. -/
def ReportTask.parts (task : ReportTask) : List RequestPart :=
  match task.phase with
  | .running parts => parts
  | _ => []

/-- The ping hint stream yields. -/
def ReportTask.ping (task : ReportTask) (now : ℕ) : ReportTask :=
  ⟨task.hint + 1, now + pingInterval, ⟨task.hint + 1, now⟩, .sending⟩

/-- The server's metrics of its clients and the tasks that set them.  `pingRtt` is what
`CLIENT_PING_RTT` was told, in microseconds. -/
structure ClientReports where
  now : ℕ
  balancer : Balancer
  gauges : HashMap (ClientGauge × String) Int64
  pingRtt : HashMap String (List ℕ)
  tasks : HashMap (String × String) ReportTask

inductive TaskEvent
  /-- `tx_stream` is called -/
  | txStream (conn : ConnId)
  /-- the client's stream yields -/
  | request (message : Except Status RequestMessageEnvelope)
  /-- the next part of the request -/
  | part
  | ping
  | sent
  | sendFails
  /-- unsubscribed, the client's stream ended, or the channel closed -/
  | stop
  | unsubscribe
  | resetPingRtt
  | resetStake

inductive ReportEvent
  | tick (nanos : ℕ)
  /-- what all others do with the balancer -/
  | op (op : BalancerOp)
  /-- the task of a connection, known by identity and token -/
  | task (identity token : String) (event : TaskEvent)

namespace ClientReports

def new : ClientReports := ⟨0, .new, ∅, ∅, ∅⟩

def setTask (s : ClientReports) (identity token : String) (task : ReportTask) : ClientReports :=
  { s with tasks := s.tasks.insert (identity, token) task }

def observe (s : ClientReports) (observation : Observation) : ClientReports :=
  let series := (s.pingRtt.lookup observation.identity).getD []
  { s with pingRtt := s.pingRtt.insert observation.identity (series ++ [observation.micros]) }

def perform (s : ClientReports) (identity : String) (lastPing : Ping) :
    RequestPart → Except Panic ClientReports
  | .set gauge value => .ok { s with gauges := s.gauges.insert (gauge, identity) value }
  | .rtt value =>
    match s.balancer.updateRtt identity value with
    | .ok balancer => .ok { s with balancer }
    | .error panic => .error panic
  | .pong pong =>
    -- which connection it is does not show
    match handleClientPong s.now 0 identity pong lastPing with
    | some observation => .ok (s.observe observation)
    | none => .ok s

/-- The steps of all tasks; a panic ends the run. -/
inductive Step : ClientReports → ReportEvent → ClientReports → Prop
  | tick {s : ClientReports} {nanos : ℕ} : Step s (.tick nanos) { s with now := s.now + nanos }
  | op {s : ClientReports} {op : BalancerOp} {balancer : Balancer}
      (other : ∀ identity value, op ≠ .updateRtt identity value)
      (ok : s.balancer.step op = .ok balancer) : Step s (.op op) { s with balancer }
  | txStream {s : ClientReports} {identity token : String} {conn : ConnId}
      (fresh : s.tasks.lookup (identity, token) = none) :
      Step s (.task identity token (.txStream conn))
        ({ s with balancer := s.balancer.subscribe identity token conn }.setTask identity token
          (.new s.now))
  | request {s : ClientReports} {identity token : String} {task : ReportTask}
      {message : Except Status RequestMessageEnvelope}
      (htask : s.tasks.lookup (identity, token) = some task) (looping : task.phase = .running []) :
      Step s (.task identity token (.request message))
        (s.setTask identity token { task with phase := .running (requestParts message) })
  | part {s s' : ClientReports} {identity token : String} {task : ReportTask} {part : RequestPart}
      {rest : List RequestPart} (htask : s.tasks.lookup (identity, token) = some task)
      (next : task.phase = .running (part :: rest))
      (ok : s.perform identity task.lastPing part = .ok s') :
      Step s (.task identity token .part)
        (s'.setTask identity token { task with phase := .running rest })
  | ping {s : ClientReports} {identity token : String} {task : ReportTask}
      (htask : s.tasks.lookup (identity, token) = some task) (looping : task.phase = .running [])
      (ready : task.ready ≤ s.now) :
      Step s (.task identity token .ping) (s.setTask identity token (task.ping s.now))
  | sent {s : ClientReports} {identity token : String} {task : ReportTask}
      (htask : s.tasks.lookup (identity, token) = some task) (sending : task.phase = .sending) :
      Step s (.task identity token .sent)
        (s.setTask identity token { task with phase := .running [] })
  | sendFails {s : ClientReports} {identity token : String} {task : ReportTask}
      (htask : s.tasks.lookup (identity, token) = some task) (sending : task.phase = .sending) :
      Step s (.task identity token .sendFails)
        (s.setTask identity token { task with phase := .stopping })
  | stop {s : ClientReports} {identity token : String} {task : ReportTask}
      (htask : s.tasks.lookup (identity, token) = some task) (looping : task.phase = .running []) :
      Step s (.task identity token .stop)
        (s.setTask identity token { task with phase := .stopping })
  | unsubscribe {s : ClientReports} {identity token : String} {task : ReportTask}
      (htask : s.tasks.lookup (identity, token) = some task) (stopping : task.phase = .stopping) :
      Step s (.task identity token .unsubscribe)
        ({ s with balancer := s.balancer.unsubscribe identity token }.setTask identity token
          { task with phase := .unsubscribed })
  | resetPingRtt {s : ClientReports} {identity token : String} {task : ReportTask}
      (htask : s.tasks.lookup (identity, token) = some task)
      (unsubscribed : task.phase = .unsubscribed) :
      Step s (.task identity token .resetPingRtt)
        ({ s with pingRtt := s.pingRtt.erase identity }.setTask identity token
          { task with phase := .resetting })
  | resetStake {s : ClientReports} {identity token : String} {task : ReportTask}
      (htask : s.tasks.lookup (identity, token) = some task) (resetting : task.phase = .resetting) :
      Step s (.task identity token .resetStake)
        ({ s with balancer := s.balancer.resetClientMetrics identity }.setTask identity token
          { task with phase := .finished })

/-! ## One client -/

/-- What the server has of a client. -/
structure ClientView where
  now : ℕ
  gauges : ClientGauge → Option Int64
  pingRtt : Option (List ℕ)
  rtts : Option (HashMap String RttValue)
  tasks : String → Option ReportTask

variable {s s' t t' : ClientReports} {event : ReportEvent} {identity token : String}
  {tr : List (ClientReports × ReportEvent)}

def clientView (s : ClientReports) (identity : String) : ClientView where
  now := s.now
  gauges gauge := s.gauges.lookup (gauge, identity)
  pingRtt := s.pingRtt.lookup identity
  rtts := s.balancer.rttValues.lookup identity
  tasks token := s.tasks.lookup (identity, token)

/-- Time goes on for all, and each task works for one client. -/
def concerns (identity : String) : ReportEvent → Bool
  | .tick _ => true
  | .op _ => false
  | .task identity' _ _ => identity' = identity

theorem rttValues_subscribe (b : Balancer) (identity token : String) (conn : ConnId) :
    (b.subscribe identity token conn).rttValues = b.rttValues :=
  @Balancer.step_rttValues b _ (.subscribe identity token conn) rfl (by simp)

theorem rttValues_unsubscribe (b : Balancer) (identity token : String) :
    (b.unsubscribe identity token).rttValues = b.rttValues :=
  @Balancer.step_rttValues b _ (.unsubscribe identity token) rfl (by simp)

theorem clientView_balancer {b : Balancer} (h : b.rttValues = s.balancer.rttValues)
    (identity : String) : { s with balancer := b }.clientView identity = s.clientView identity := by
  simp only [clientView, h]

theorem clientView_setTask_ne {identity' : String} (h : identity' ≠ identity) (token : String)
    (task : ReportTask) : (s.setTask identity' token task).clientView identity =
      s.clientView identity := by
  simp [clientView, setTask, AList.lookup_insert_ne, h.symm]

theorem clientView_setTask (h : s'.clientView identity = s.clientView identity) (token : String)
    (task : ReportTask) : (s'.setTask identity token task).clientView identity =
      (s.setTask identity token task).clientView identity := by
  simp only [clientView, setTask, ClientView.mk.injEq] at h ⊢
  refine ⟨h.1, h.2.1, h.2.2.1, h.2.2.2.1, funext fun token' => ?_⟩
  rw [AList.lookup_insert_eq_ite, AList.lookup_insert_eq_ite, congrFun h.2.2.2.2 token']

theorem identity_of_pong {now n : ℕ} {pong : Pong} {lastPing : Ping} {o : Observation}
    (h : handleClientPong now n identity pong lastPing = some o) : o.identity = identity := by
  unfold handleClientPong at h
  split at h
  · rw [← Option.some.inj h]
  · simp at h

theorem perform_cases {lastPing : Ping} {part : RequestPart}
    (hs : s.perform identity lastPing part = .ok t) :
    (∃ gauge value, part = .set gauge value ∧
        t = { s with gauges := s.gauges.insert (gauge, identity) value }) ∨
      (∃ value balancer, part = .rtt value ∧ s.balancer.updateRtt identity value = .ok balancer ∧
        t = { s with balancer }) ∨
      ∃ pong, part = .pong pong ∧ ((∃ o, o.identity = identity ∧ t = s.observe o) ∨ t = s) := by
  cases part with
  | set gauge value => exact .inl ⟨gauge, value, rfl, (Except.ok.inj hs).symm⟩
  | rtt value =>
    simp only [perform] at hs
    split at hs
    next balancer hupdate =>
      exact .inr (.inl ⟨value, balancer, rfl, hupdate, (Except.ok.inj hs).symm⟩)
    next => simp at hs
  | pong pong =>
    simp only [perform] at hs
    split at hs
    next o hpong =>
      exact .inr (.inr ⟨pong, rfl, .inl ⟨o, identity_of_pong hpong, (Except.ok.inj hs).symm⟩⟩)
    next => exact .inr (.inr ⟨pong, rfl, .inr (Except.ok.inj hs).symm⟩)

theorem updateRtt_cases {b b' : Balancer} {value : Rtt} (h : b.updateRtt identity value = .ok b') :
    ∃ slots, b' = { b with rttValues := b.rttValues.insert identity slots } := by
  simp only [Balancer.updateRtt] at h
  split at h
  · simp at h
  · exact ⟨_, (Except.ok.inj h).symm⟩

theorem perform_view_ne {identity' : String} (h : identity' ≠ identity) {lastPing : Ping}
    {part : RequestPart} (hs : s.perform identity' lastPing part = .ok t) :
    t.clientView identity = s.clientView identity := by
  rcases perform_cases hs with ⟨gauge, value, -, rfl⟩ | ⟨value, balancer, -, hupdate, rfl⟩ |
    ⟨pong, -, ⟨o, rfl, rfl⟩ | rfl⟩
  · simp [clientView, AList.lookup_insert_ne, h.symm]
  · obtain ⟨slots, rfl⟩ := updateRtt_cases hupdate
    simp [clientView, AList.lookup_insert_ne h.symm]
  · simp [clientView, observe, AList.lookup_insert_ne h.symm]
  · rfl

/-- A part looks at nothing but what the server has of the client. -/
theorem perform_view (h : s'.clientView identity = s.clientView identity) {lastPing : Ping}
    {part : RequestPart} (hs : s.perform identity lastPing part = .ok t) :
    ∃ t', s'.perform identity lastPing part = .ok t' ∧
      t'.clientView identity = t.clientView identity := by
  have hview := h
  simp only [clientView, ClientView.mk.injEq] at hview
  obtain ⟨hnow, hgauges, hping, hrtts, htasks⟩ := hview
  cases part with
  | set gauge value =>
    obtain rfl := Except.ok.inj hs
    refine ⟨_, rfl, ?_⟩
    simp only [clientView, ClientView.mk.injEq]
    refine ⟨hnow, funext fun gauge' => ?_, hping, hrtts, htasks⟩
    rw [AList.lookup_insert_eq_ite, AList.lookup_insert_eq_ite, congrFun hgauges gauge']
  | rtt value =>
    simp only [perform, Balancer.updateRtt, hrtts] at hs ⊢
    split at hs
    next balancer hupdate =>
      split at hupdate
      · simp at hupdate
      next hpos =>
        obtain rfl := Except.ok.inj hupdate
        obtain rfl := Except.ok.inj hs
        refine ⟨_, by rw [if_neg hpos], ?_⟩
        simp only [clientView, ClientView.mk.injEq, AList.lookup_insert]
        exact ⟨hnow, hgauges, hping, trivial, htasks⟩
    next => simp at hs
  | pong pong =>
    simp only [perform, hnow] at hs ⊢
    split at hs
    next observation hpong =>
      obtain rfl := Except.ok.inj hs
      obtain rfl := identity_of_pong hpong
      refine ⟨_, rfl, ?_⟩
      simp only [clientView, observe, ClientView.mk.injEq, AList.lookup_insert, hping]
      exact ⟨hnow, hgauges, trivial, hrtts, htasks⟩
    next =>
      obtain rfl := Except.ok.inj hs
      exact ⟨s', rfl, h⟩

theorem view_hidden (hs : Step s event t) (h : concerns identity event = false) :
    t.clientView identity = s.clientView identity := by
  cases hs with
  | tick => simp [concerns] at h
  | op other ok => exact clientView_balancer (Balancer.step_rttValues ok other) identity
  | txStream fresh =>
    rw [clientView_setTask_ne (by simpa [concerns] using h)]
    exact clientView_balancer (rttValues_subscribe _ _ _ _) identity
  | unsubscribe =>
    rw [clientView_setTask_ne (by simpa [concerns] using h)]
    exact clientView_balancer (rttValues_unsubscribe _ _ _) identity
  | part htask next ok =>
    have hne := by simpa [concerns] using h
    rw [clientView_setTask_ne hne, perform_view_ne hne ok]
  | resetPingRtt =>
    have hne := by simpa [concerns] using h
    rw [clientView_setTask_ne hne]
    simp [clientView, AList.lookup_erase_ne (Ne.symm hne)]
  | _ => exact clientView_setTask_ne (by simpa [concerns] using h) _ _

theorem view_matched (hs : Step s event t) (h : concerns identity event)
    (hview : s'.clientView identity = s.clientView identity) :
    ∃ t', Step s' event t' ∧ t'.clientView identity = t.clientView identity := by
  have hnow : s'.now = s.now := congrArg ClientView.now hview
  have htasks (token : String) :
      s'.tasks.lookup (identity, token) = s.tasks.lookup (identity, token) :=
    congrFun (congrArg ClientView.tasks hview) token
  cases event with
  | op => simp [concerns] at h
  | tick nanos =>
    cases hs
    refine ⟨_, .tick, ?_⟩
    simp only [clientView, ClientView.mk.injEq] at hview ⊢
    exact ⟨by rw [hnow], hview.2⟩
  | task identity' token event =>
    obtain rfl : identity' = identity := by simpa [concerns] using h
    cases hs with
    | txStream fresh =>
      refine ⟨_, .txStream ((htasks _).trans fresh), ?_⟩
      have hnew : ReportTask.new s'.now = .new s.now := congrArg ReportTask.new hnow
      rw [hnew]
      refine clientView_setTask ?_ _ _
      rw [clientView_balancer (rttValues_subscribe _ _ _ _), hview,
        clientView_balancer (rttValues_subscribe _ _ _ _)]
    | request htask looping =>
      exact ⟨_, .request ((htasks _).trans htask) looping, clientView_setTask hview _ _⟩
    | part htask next ok =>
      obtain ⟨t', ok', hview'⟩ := perform_view hview ok
      exact ⟨_, .part ((htasks _).trans htask) next ok', clientView_setTask hview' _ _⟩
    | ping htask looping ready =>
      refine ⟨_, .ping ((htasks _).trans htask) looping (hnow ▸ ready), ?_⟩
      rw [hnow]
      exact clientView_setTask hview _ _
    | sent htask sending =>
      exact ⟨_, .sent ((htasks _).trans htask) sending, clientView_setTask hview _ _⟩
    | sendFails htask sending =>
      exact ⟨_, .sendFails ((htasks _).trans htask) sending, clientView_setTask hview _ _⟩
    | stop htask looping =>
      exact ⟨_, .stop ((htasks _).trans htask) looping, clientView_setTask hview _ _⟩
    | unsubscribe htask stopping =>
      refine ⟨_, .unsubscribe ((htasks _).trans htask) stopping, clientView_setTask ?_ _ _⟩
      rw [clientView_balancer (rttValues_unsubscribe _ _ _), hview,
        clientView_balancer (rttValues_unsubscribe _ _ _)]
    | resetPingRtt htask unsubscribed =>
      refine ⟨_, .resetPingRtt ((htasks _).trans htask) unsubscribed, clientView_setTask ?_ _ _⟩
      simp only [clientView, ClientView.mk.injEq, AList.lookup_erase] at hview ⊢
      exact ⟨hview.1, hview.2.1, trivial, hview.2.2.2⟩
    | resetStake htask resetting =>
      exact ⟨_, .resetStake ((htasks _).trans htask) resetting, clientView_setTask hview _ _⟩

theorem unwinds (identity : String) :
    Unwinds Step (fun s => s.clientView identity) (concerns identity) :=
  ⟨fun _ _ _ hs h => view_hidden hs h, fun _ _ _ _ hs h hview => view_matched hs h hview⟩

theorem step_deterministic (s : ClientReports) (event : ReportEvent) (t t' : ClientReports)
    (hs : Step s event t) (hs' : Step s event t') : t = t' := by
  cases hs <;> cases hs' <;> simp_all

/-! ## Gauges of one client -/

/-- The metrics of `identity` that a step takes up. -/
def metricsOf (identity : String) (x : ClientReports × ReportEvent) : Option ClientMetrics :=
  match x.2 with
  | .task identity' _ (.request (.ok envelope)) =>
    if identity' = identity then envelope.metrics else none
  | _ => none

theorem eq_of_metricsOf {metrics : ClientMetrics}
    (h : metricsOf identity (s, event) = some metrics) :
    ∃ token envelope, event = .task identity token (.request (.ok envelope)) ∧
      envelope.metrics = some metrics := by
  unfold metricsOf at h
  split at h
  next _ identity' token envelope hevent =>
    split at h
    next hi => exact ⟨token, envelope, hi ▸ hevent, h⟩
    next => simp at h
  next => simp at h

/-- What the task of a connection has left of the request it handles. -/
def partsOf (s : ClientReports) (identity token : String) : List RequestPart :=
  match s.tasks.lookup (identity, token) with
  | some task => task.parts
  | none => []

/-- A connection of the client has still to set a gauge to a value. -/
def Pending (s : ClientReports) (identity : String) (gauge : ClientGauge) (value : Int64) : Prop :=
  ∃ token, .set gauge value ∈ s.partsOf identity token

theorem set_mem_requestParts {message : Except Status RequestMessageEnvelope} {gauge : ClientGauge}
    {value : Int64} : .set gauge value ∈ requestParts message ↔
      ∃ envelope metrics, message = .ok envelope ∧ envelope.metrics = some metrics ∧
        value = metrics.value gauge := by
  cases message with
  | error status => simp [requestParts]
  | ok envelope =>
    cases hmetrics : envelope.metrics with
    | none => simp [requestParts, hmetrics]
    | some metrics =>
      simp [requestParts, hmetrics, handleClientMetrics]
      cases gauge <;> simp

theorem partsOf_setTask (s : ClientReports) (identity token : String) (task : ReportTask)
    (identity' token' : String) : (s.setTask identity token task).partsOf identity' token' =
      if (identity', token') = (identity, token) then task.parts
      else s.partsOf identity' token' := by
  unfold partsOf setTask
  rw [AList.lookup_insert_eq_ite]
  by_cases h : (identity', token') = (identity, token) <;> simp only [h, if_true, if_false]

theorem partsOf_setTask_same {task : ReportTask} (h : task.parts = s.partsOf identity token) :
    (s.setTask identity token task).partsOf = s.partsOf := by
  funext identity' token'
  rw [partsOf_setTask]
  split
  next heq =>
    obtain ⟨rfl, rfl⟩ := Prod.mk.inj heq
    exact h
  next => rfl

theorem perform_parts {lastPing : Ping} {part : RequestPart}
    (hs : s.perform identity lastPing part = .ok t) : t.partsOf = s.partsOf ∧
      ((∃ gauge value, part = .set gauge value ∧
          t.gauges = s.gauges.insert (gauge, identity) value) ∨
        (∀ gauge value, part ≠ .set gauge value) ∧ t.gauges = s.gauges) := by
  rcases perform_cases hs with ⟨gauge, value, rfl, rfl⟩ | ⟨value, balancer, rfl, -, rfl⟩ |
    ⟨pong, rfl, ⟨o, -, rfl⟩ | rfl⟩
  · exact ⟨rfl, .inl ⟨gauge, value, rfl, rfl⟩⟩
  · exact ⟨rfl, .inr ⟨by simp, rfl⟩⟩
  · exact ⟨rfl, .inr ⟨by simp, rfl⟩⟩
  · exact ⟨rfl, .inr ⟨by simp, rfl⟩⟩

/-- What a step does to the tasks: it takes up a request, performs a part, or leaves what all of
them have to do. -/
theorem parts_step (hs : Step s event t) :
    (∃ identity token message, event = .task identity token (.request message) ∧
      s.partsOf identity token = [] ∧ t.partsOf identity token = requestParts message ∧
      (∀ i k, (i, k) ≠ (identity, token) → t.partsOf i k = s.partsOf i k) ∧
      t.gauges = s.gauges) ∨
    (∃ identity token part rest, event = .task identity token .part ∧
      s.partsOf identity token = part :: rest ∧ t.partsOf identity token = rest ∧
      (∀ i k, (i, k) ≠ (identity, token) → t.partsOf i k = s.partsOf i k) ∧
      ((∃ gauge value, part = .set gauge value ∧
          t.gauges = s.gauges.insert (gauge, identity) value) ∨
        (∀ gauge value, part ≠ .set gauge value) ∧ t.gauges = s.gauges)) ∨
    (∀ identity, metricsOf identity (s, event) = none) ∧ t.partsOf = s.partsOf ∧
      t.gauges = s.gauges := by
  have hrunning {i k : String} {task : ReportTask} {parts : List RequestPart}
      (htask : s.tasks.lookup (i, k) = some task) (hphase : task.phase = .running parts) :
      s.partsOf i k = parts := by
    rw [partsOf, htask]
    simp only [ReportTask.parts, hphase]
  cases hs with
  | @request identity token task message htask looping =>
    refine .inl ⟨identity, token, message, rfl, hrunning htask looping, ?_, fun i k hne => ?_, rfl⟩
    · rw [partsOf_setTask, if_pos rfl, ReportTask.parts]
    · rw [partsOf_setTask, if_neg hne]
  | @part s' identity token task part rest htask next ok =>
    obtain ⟨hparts, hgauges⟩ := perform_parts ok
    refine .inr (.inl ⟨identity, token, part, rest, rfl, hrunning htask next, ?_, fun i k hne => ?_,
      hgauges⟩)
    · rw [partsOf_setTask, if_pos rfl, ReportTask.parts]
    · rw [partsOf_setTask, if_neg hne, hparts]
  | tick => exact .inr (.inr ⟨fun _ => rfl, rfl, rfl⟩)
  | op => exact .inr (.inr ⟨fun _ => rfl, rfl, rfl⟩)
  | txStream fresh =>
    refine .inr (.inr ⟨fun _ => rfl, partsOf_setTask_same ?_, rfl⟩)
    simp only [ReportTask.parts, ReportTask.new, partsOf, fresh]
  | ping htask looping =>
    refine .inr (.inr ⟨fun _ => rfl, partsOf_setTask_same ?_, rfl⟩)
    simp only [ReportTask.parts, ReportTask.ping, hrunning htask looping]
  | stop htask looping =>
    refine .inr (.inr ⟨fun _ => rfl, partsOf_setTask_same ?_, rfl⟩)
    simp only [ReportTask.parts, hrunning htask looping]
  | sent htask hphase | sendFails htask hphase | unsubscribe htask hphase
  | resetPingRtt htask hphase | resetStake htask hphase =>
    refine .inr (.inr ⟨fun _ => rfl, partsOf_setTask_same ?_, rfl⟩)
    simp only [ReportTask.parts, partsOf, htask, hphase]

/-- What is pending for the client, by this connection or by another. -/
theorem pending_iff (hothers : ∀ k ≠ token, t.partsOf identity k = s.partsOf identity k)
    {gauge : ClientGauge} {value : Int64} : t.Pending identity gauge value ↔
      .set gauge value ∈ t.partsOf identity token ∨
        ∃ k ≠ token, .set gauge value ∈ s.partsOf identity k := by
  constructor
  · rintro ⟨k, hk⟩
    by_cases heq : k = token
    · exact .inl (heq ▸ hk)
    · exact .inr ⟨k, heq, hothers k heq ▸ hk⟩
  · rintro (htoken | ⟨k, hne, hk⟩)
    · exact ⟨token, htoken⟩
    · exact ⟨k, (hothers k hne).symm ▸ hk⟩

/-- What can happen to the gauges of one client. -/
inductive GaugeChange (identity : String) (s t : ClientReports) : Option ClientMetrics → Prop
  | takesUp {metrics : ClientMetrics}
      (gauges : ∀ gauge, t.gauges.lookup (gauge, identity) = s.gauges.lookup (gauge, identity))
      (pending : ∀ gauge value, t.Pending identity gauge value ↔
        s.Pending identity gauge value ∨ value = metrics.value gauge) :
      GaugeChange identity s t (some metrics)
  | sets {gauge : ClientGauge} {value : Int64} (due : s.Pending identity gauge value)
      (done : t.gauges.lookup (gauge, identity) = some value)
      (gauges : ∀ gauge' ≠ gauge,
        t.gauges.lookup (gauge', identity) = s.gauges.lookup (gauge', identity))
      (fewer : ∀ gauge' value', t.Pending identity gauge' value' → s.Pending identity gauge' value')
      (others : ∀ gauge' ≠ gauge, ∀ value',
        s.Pending identity gauge' value' → t.Pending identity gauge' value') :
      GaugeChange identity s t none
  | same (gauges : ∀ gauge, t.gauges.lookup (gauge, identity) = s.gauges.lookup (gauge, identity))
      (pending : ∀ gauge value, t.Pending identity gauge value ↔ s.Pending identity gauge value) :
      GaugeChange identity s t none

theorem gauge_step (hs : Step s event t) (identity : String) :
    GaugeChange identity s t (metricsOf identity (s, event)) := by
  rcases parts_step hs with
    ⟨i, token, message, rfl, hbefore, hafter, hothers, hgauges⟩ |
    ⟨i, token, part, rest, rfl, hbefore, hafter, hothers, hgauges⟩ | ⟨hnone, hparts, hgauges⟩
  · by_cases hi : i = identity
    · subst hi
      have hpending (gauge : ClientGauge) (value : Int64) : t.Pending i gauge value ↔
          s.Pending i gauge value ∨ .set gauge value ∈ requestParts message := by
        rw [@pending_iff s t i token fun k hne => hothers i k (by simp [hne]),
          @pending_iff s s i token fun _ _ => rfl, hbefore, hafter]
        simp [or_comm]
      have hsame (gauge : ClientGauge) :
          t.gauges.lookup (gauge, i) = s.gauges.lookup (gauge, i) := by rw [hgauges]
      rcases message with status | envelope
      · exact .same hsame fun gauge value => by simp [hpending, requestParts]
      · simp only [set_mem_requestParts, Except.ok.injEq] at hpending
        cases hmetrics : envelope.metrics with
        | none =>
          simp only [metricsOf, hmetrics, if_true]
          exact .same hsame fun gauge value => by simp [hpending, hmetrics]
        | some metrics =>
          simp only [metricsOf, hmetrics, if_true]
          exact .takesUp hsame fun gauge value => by simp [hpending, hmetrics]
    · have hnone : metricsOf identity (s, .task i token (.request message)) = none := by
        cases message <;> simp [metricsOf, hi]
      have hparts : t.partsOf identity = s.partsOf identity :=
        funext fun k => hothers identity k (by simp [Ne.symm hi])
      rw [hnone]
      exact .same (fun gauge => by rw [hgauges]) fun gauge value => by simp only [Pending, hparts]
  · by_cases hi : i = identity
    · subst hi
      have hpending (gauge : ClientGauge) (value : Int64) : s.Pending i gauge value ↔
          part = .set gauge value ∨ t.Pending i gauge value := by
        rw [@pending_iff s t i token fun k hne => hothers i k (by simp [hne]),
          @pending_iff s s i token fun _ _ => rfl, hbefore, hafter]
        simp [or_assoc, eq_comm]
      rcases hgauges with ⟨gauge, value, rfl, hgauges⟩ | ⟨hother, hgauges⟩
      · refine .sets ((hpending gauge value).mpr (.inl rfl)) ?_ (fun gauge' hne => ?_)
          (fun gauge' value' h => (hpending gauge' value').mpr (.inr h))
          fun gauge' hne value' h => ?_
        · rw [hgauges, AList.lookup_insert]
        · rw [hgauges, AList.lookup_insert_ne (by simp [hne])]
        · exact ((hpending gauge' value').mp h).resolve_left (by simp [Ne.symm hne])
      · exact .same (fun gauge => by rw [hgauges]) fun gauge value => by
          simp [hpending gauge value, hother]
    · have hparts : t.partsOf identity = s.partsOf identity :=
        funext fun k => hothers identity k (by simp [Ne.symm hi])
      refine .same (fun gauge => ?_) fun gauge value => by simp only [Pending, hparts]
      rcases hgauges with ⟨gauge', value, -, hgauges⟩ | ⟨-, hgauges⟩
      · rw [hgauges, AList.lookup_insert_ne (by simp [Ne.symm hi])]
      · rw [hgauges]
  · rw [hnone]
    exact .same (fun gauge => by rw [hgauges]) fun gauge value => by simp only [Pending, hparts]

/-- Whatever a gauge shows, and whatever is still to be set, is from metrics with a property. -/
structure From (P : ClientMetrics → Prop) (identity : String) (s : ClientReports) : Prop where
  pending : ∀ gauge value, s.Pending identity gauge value →
    ∃ metrics, P metrics ∧ value = metrics.value gauge
  shown : ∀ gauge value, s.gauges.lookup (gauge, identity) = some value →
    ∃ metrics, P metrics ∧ value = metrics.value gauge

theorem From.mono {P Q : ClientMetrics → Prop} (h : From P identity s) (hPQ : ∀ m, P m → Q m) :
    From Q identity s := by
  refine ⟨fun gauge value hpending => ?_, fun gauge value hshown => ?_⟩
  · exact (h.pending gauge value hpending).imp fun m hm => ⟨hPQ m hm.1, hm.2⟩
  · exact (h.shown gauge value hshown).imp fun m hm => ⟨hPQ m hm.1, hm.2⟩

theorem From.step {P : ClientMetrics → Prop} (h : From P identity s)
    {report : Option ClientMetrics} (hchange : GaugeChange identity s t report)
    (hreport : ∀ metrics ∈ report, P metrics) : From P identity t := by
  cases hchange with
  | @takesUp metrics gauges pending =>
    refine ⟨fun gauge value hpending => ?_, fun gauge value hshown => ?_⟩
    · rcases (pending gauge value).mp hpending with hold | rfl
      · exact h.pending gauge value hold
      · exact ⟨metrics, hreport metrics rfl, rfl⟩
    · exact h.shown gauge value (gauges gauge ▸ hshown)
  | @sets gauge value due done gauges fewer others =>
    refine ⟨fun gauge' value' hpending => h.pending gauge' value' (fewer _ _ hpending), ?_⟩
    intro gauge' value' hshown
    by_cases hgauge : gauge' = gauge
    · subst hgauge
      obtain rfl : value = value' := Option.some.inj (done.symm.trans hshown)
      exact h.pending _ _ due
    · exact h.shown gauge' value' (gauges gauge' hgauge ▸ hshown)
  | same gauges pending =>
    refine ⟨fun gauge value hpending => h.pending gauge value ((pending _ _).mp hpending), ?_⟩
    exact fun gauge value hshown => h.shown gauge value (gauges gauge ▸ hshown)

/-- Every gauge shows the client's last report, or is about to. -/
structure Current (identity : String) (reports : List ClientMetrics) (s : ClientReports) :
    Prop where
  pending : ∀ gauge value, s.Pending identity gauge value →
    ∃ metrics, reports.getLast? = some metrics ∧ value = metrics.value gauge
  shown : ∀ gauge, (∃ value, s.Pending identity gauge value) ∨
    s.gauges.lookup (gauge, identity) = reports.getLast?.map fun metrics => metrics.value gauge

-- a report is taken up when all gauges have been set for the one before
theorem Current.step {reports : List ClientMetrics} (h : Current identity reports s)
    {report : Option ClientMetrics} (hchange : GaugeChange identity s t report)
    (hapart : report.isSome → ∀ gauge value, ¬ s.Pending identity gauge value) :
    Current identity (reports ++ report.toList) t := by
  cases hchange with
  | @takesUp metrics gauges pending =>
    have hnone := hapart rfl
    refine ⟨fun gauge value hpending => ?_, fun gauge => ?_⟩
    · have hvalue := ((pending gauge value).mp hpending).resolve_left (hnone gauge value)
      exact ⟨metrics, by simp, hvalue⟩
    · exact .inl ⟨metrics.value gauge, (pending _ _).mpr (.inr rfl)⟩
  | @sets gauge value due done gauges fewer others =>
    rw [Option.toList_none, List.append_nil]
    refine ⟨fun gauge' value' hpending => h.pending gauge' value' (fewer _ _ hpending), ?_⟩
    intro gauge'
    by_cases hgauge : gauge' = gauge
    · subst hgauge
      obtain ⟨metrics, hlast, rfl⟩ := h.pending _ _ due
      exact .inr (by rw [done, hlast, Option.map_some])
    · rw [gauges gauge' hgauge]
      exact (h.shown gauge').imp_left fun ⟨value', hpending⟩ =>
        ⟨value', others gauge' hgauge value' hpending⟩
  | same gauges pending =>
    rw [Option.toList_none, List.append_nil]
    refine ⟨fun gauge value hpending => h.pending gauge value ((pending _ _).mp hpending), ?_⟩
    intro gauge
    rw [gauges]
    simpa only [pending] using h.shown gauge

theorem pending_new (identity : String) (gauge : ClientGauge) (value : Int64) :
    ¬ new.Pending identity gauge value := by
  rintro ⟨token, hmem⟩
  simp [partsOf, new] at hmem

theorem from_new (P : ClientMetrics → Prop) (identity : String) : From P identity new := by
  refine ⟨fun gauge value hpending => absurd hpending (pending_new _ _ _), ?_⟩
  simp [new]

/-- No connection of the client is setting its gauges. -/
def Settled (s : ClientReports) (identity : String) : Prop :=
  ∀ gauge value, ¬ s.Pending identity gauge value

theorem settled_of_entries
    (h : s.tasks.entries.all fun e => e.1.1 != identity || e.2.parts.isEmpty) :
    s.Settled identity := by
  rintro gauge value ⟨token, hmem⟩
  unfold partsOf at hmem
  split at hmem
  next task htask =>
    have hentry := List.all_eq_true.mp h _ (AList.mem_lookup_iff.mp htask)
    simp_all
  next => simp at hmem

/-! ## Every run -/

/-- The metrics of two clients. -/
def metricsA : ClientMetrics := ⟨3, 2, 1, "1.0", 4, 5⟩

def metricsB : ClientMetrics := ⟨7, 7, 7, "1.0", 7, 7⟩

def reportEvents : List ReportEvent :=
  [.task "A" "a" (.txStream 0), .task "B" "b" (.txStream 1),
    .task "A" "a" (.request (.ok { metrics := some metricsA })),
    .task "B" "b" (.request (.ok { metrics := some metricsB })),
    .task "A" "a" .part, .task "B" "b" .part, .task "A" "a" .part, .task "A" "a" .part,
    .task "A" "a" .part, .task "A" "a" .part]

/-- All gauges of "A" have been set and one of "B". -/
theorem run_twoReports : ∃ tr s, Run Step new tr s ∧ tr.map Prod.snd = reportEvents ∧
    s.gauges.lookup (.memoryPhysical, "A") = some 5 ∧
    tr.filterMap (metricsOf "A") = [metricsA] ∧
    (∀ x ∈ tr, (metricsOf "A" x).isSome → x.1.Settled "A") ∧ s.Settled "A" := by
  have hopen := ((Run.nil new).snoc (@Step.txStream new "A" "a" 0 rfl)).snoc
    (@Step.txStream _ "B" "b" 1 rfl)
  have htaken := (hopen.snoc (@Step.request _ "A" "a" _ (.ok { metrics := some metricsA }) rfl
    rfl)).snoc (@Step.request _ "B" "b" _ (.ok { metrics := some metricsB }) rfl rfl)
  have hfirst := (htaken.snoc (@Step.part _ _ "A" "a" _ _ _ rfl rfl rfl)).snoc
    (@Step.part _ _ "B" "b" _ _ _ rfl rfl rfl)
  have hrest := (((hfirst.snoc (@Step.part _ _ "A" "a" _ _ _ rfl rfl rfl)).snoc
    (@Step.part _ _ "A" "a" _ _ _ rfl rfl rfl)).snoc
    (@Step.part _ _ "A" "a" _ _ _ rfl rfl rfl)).snoc
    (@Step.part _ _ "A" "a" _ _ _ rfl rfl rfl)
  refine ⟨_, _, hrest, rfl, rfl, rfl, ?_, settled_of_entries rfl⟩
  simp only [List.nil_append, List.cons_append, List.forall_mem_cons]
  refine ⟨by simp [metricsOf], by simp [metricsOf], fun _ => settled_of_entries rfl, ?_⟩
  simp [metricsOf]

/-- What the server has of a client is what the client's own connections make of it: without all the
other steps it would be the same, and in any run with these steps it is the same. -/
theorem isolated_of_run (h : Run Step new tr s) (identity : String) :
    (∃ tr' s', Run Step new tr' s' ∧
      tr'.map Prod.snd = (tr.map Prod.snd).filter (concerns identity) ∧
      s'.clientView identity = s.clientView identity) ∧
    ∀ tr' s', Run Step new tr' s' →
      (tr'.map Prod.snd).filter (concerns identity) =
        (tr.map Prod.snd).filter (concerns identity) →
      s'.clientView identity = s.clientView identity :=
  ⟨(unwinds identity).purge h,
    fun _ _ h' hlabels => (unwinds identity).view_eq step_deterministic h h' hlabels⟩

theorem isolated_twoReports : ∃ tr s tr' s', Run Step new tr s ∧ tr.map Prod.snd = reportEvents ∧
    Run Step new tr' s' ∧ tr'.map Prod.snd = reportEvents.filter (concerns "A") ∧
    s'.clientView "A" = s.clientView "A" ∧
    (s.clientView "A").gauges .memoryPhysical = some 5 := by
  obtain ⟨tr, s, hrun, hevents, hgauge, -⟩ := run_twoReports
  obtain ⟨tr', s', hrun', hevents', hview⟩ := (isolated_of_run hrun "A").1
  exact ⟨tr, s, tr', s', hrun, hevents, hrun', hevents ▸ hevents', hview, hgauge⟩

/-- What a gauge of the client shows the client has reported on one of its connections.  Where the
connections of the client take up metrics one after the other, all five gauges show the last report
whenever they are settled, also when the connection it came from has ended. -/
theorem gauges_of_run (h : Run Step new tr s) (identity : String) :
    (∀ gauge value, s.gauges.lookup (gauge, identity) = some value →
      ∃ metrics ∈ tr.filterMap (metricsOf identity), value = metrics.value gauge) ∧
    ((∀ x ∈ tr, (metricsOf identity x).isSome → x.1.Settled identity) → s.Settled identity →
      ∀ gauge, s.gauges.lookup (gauge, identity) =
        (tr.filterMap (metricsOf identity)).getLast?.map fun metrics => metrics.value gauge) := by
  have hreported : From (· ∈ tr.filterMap (metricsOf identity)) identity s := by
    induction h with
    | nil => exact from_new _ identity
    | snoc _ hs ih =>
      rw [filterMap_concat]
      refine (ih.mono fun m hm => List.mem_append_left _ hm).step (gauge_step hs identity) ?_
      exact fun m hm => List.mem_append_right _ (Option.mem_toList.mpr hm)
  refine ⟨hreported.shown, fun hapart hsettled gauge => ?_⟩
  have hcurrent : Current identity (tr.filterMap (metricsOf identity)) s := by
    clear hreported hsettled
    induction h with
    | nil =>
      refine ⟨fun gauge value hpending => absurd hpending (pending_new _ _ _), ?_⟩
      simp [new]
    | @snoc t u tr event _ hs ih =>
      rw [filterMap_concat]
      refine (ih fun x hx => hapart x (List.mem_append_left _ hx)).step (gauge_step hs identity) ?_
      exact hapart (t, event) (by simp)
  exact (hcurrent.shown gauge).resolve_left fun ⟨value, hpending⟩ => hsettled gauge value hpending

theorem gauges_twoReports : ∃ tr s, Run Step new tr s ∧ tr.map Prod.snd = reportEvents ∧
    ∀ gauge, s.gauges.lookup (gauge, "A") = some (metricsA.value gauge) := by
  obtain ⟨tr, s, hrun, hevents, -, hreports, hapart, hsettled⟩ := run_twoReports
  refine ⟨tr, s, hrun, hevents, fun gauge => ?_⟩
  rw [(gauges_of_run hrun "A").2 hapart hsettled gauge, hreports]
  rfl

end ClientReports

end Mtransaction
