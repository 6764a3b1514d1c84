import Mtransaction.Client.MetricsFeed
import Mtransaction.Server.ClientReports

/-!
# From a client's counters to the server's gauges

Client processes count what they forward, their feeders read the counters for one server each, the
connections send what the feeders read, behind pongs and late, and the tasks of the server set the
gauges of the client's identity.  Processes may share an identity, and old connections may still
deliver while new ones do.
-/

namespace Mtransaction

open Runs Interleaving

/-! ## What a client can report -/

namespace Feeding

variable {SocketAddr : Type} {crates : ForwardCrates SocketAddr} {s s' : Feeding}
  {event : FeedEvent} {m : ClientMetrics}

/-- The metrics of one source, none of them beyond what the process has counted by now, and the
permits no more than there are. -/
def Counted (s : Feeding) (m : ClientMetrics) : Prop :=
  ∃ source received succeeded failed permits,
    received ≤ s.forwarding.metrics.txReceived.value source ∧
    succeeded ≤ s.forwarding.metrics.txForwardSucceeded.value source ∧
    failed ≤ s.forwarding.metrics.txForwardFailed.value source ∧
    permits ≤ s.forwarding.maxPermits ∧
    m = ⟨.ofNat received, .ofNat succeeded, .ofNat failed, clientVersion, .ofNat permits,
      m.memoryPhysical⟩

theorem value_le_inc (v : CounterVec String) (k k' : String) : v.value k' ≤ (v.inc k).value k' := by
  rw [CounterVec.value_inc]
  exact Nat.le_add_right _ _

/-- The counters of the forwarder never go back. -/
theorem counters_step {f f' : Forwarding} {event : ForwardEvent} (hs : f.Step crates event f')
    (source : String) :
    f.metrics.txReceived.value source ≤ f'.metrics.txReceived.value source ∧
      f.metrics.txForwardSucceeded.value source ≤ f'.metrics.txForwardSucceeded.value source ∧
      f.metrics.txForwardFailed.value source ≤ f'.metrics.txForwardFailed.value source := by
  cases hs with
  | process next =>
    unfold Forwarding.process
    dsimp only
    split
    · exact ⟨value_le_inc _ _ _, le_rfl, le_rfl⟩
    · exact ⟨value_le_inc _ _ _, le_rfl, le_rfl⟩
    · exact ⟨value_le_inc _ _ _, value_le_inc _ _ _, le_rfl⟩
  | @start n task sent htask spawned prepared =>
    unfold Forwarding.observe
    cases task.tpu <;> exact ⟨le_rfl, le_rfl, le_rfl⟩
  | acquire htask waiting permit => exact ⟨le_rfl, le_rfl, le_rfl⟩
  | @finish n task result htask sending =>
    cases result with
    | ok => exact ⟨le_rfl, value_le_inc _ _ _, le_rfl⟩
    | error err => exact ⟨le_rfl, le_rfl, value_le_inc _ _ _⟩
  | drop htask reported => exact ⟨le_rfl, le_rfl, le_rfl⟩

theorem Counted.step (h : s.Counted m) (hs : s.Step crates event s') : s'.Counted m := by
  obtain ⟨source, received, succeeded, failed, permits, hr, hsu, hf, hp, hm⟩ := h
  cases hs with
  | forward hstep =>
    obtain ⟨hr', hsu', hf'⟩ := counters_step hstep source
    exact ⟨source, received, succeeded, failed, permits, hr.trans hr', hsu.trans hsu', hf.trans hf',
      (step_gauge hstep).2 ▸ hp, hm⟩
  | _ => exact ⟨source, received, succeeded, failed, permits, hr, hsu, hf, hp, hm⟩

/-- A feeder has built these metrics and not yet handed them on. -/
def Holds (s : Feeding) (m : ClientMetrics) : Prop :=
  ∃ feeder ∈ s.feeders, feeder.phase = .sending m ∨ feeder.buffer = some m

theorem mem_or_of_holds_set {f : Forwarding} {n : ℕ} {feeder : Feeder}
    (h : Holds ⟨f, s.feeders.set n feeder⟩ m) :
    s.Holds m ∨ feeder.phase = .sending m ∨ feeder.buffer = some m := by
  obtain ⟨found, hmem, hfound⟩ := h
  rcases List.mem_or_eq_of_mem_set hmem with hold | rfl
  · exact .inl ⟨found, hold, hfound⟩
  · exact .inr hfound

-- a feeder that holds no more than before
theorem holds_of_holds_set {f : Forwarding} {n : ℕ} {feeder feeder' : Feeder}
    (h : Holds ⟨f, s.feeders.set n feeder'⟩ m) (hfeeder : s.feeders[n]? = some feeder)
    (hphase : feeder'.phase = .sending m → feeder.phase = .sending m)
    (hbuffer : feeder'.buffer = some m → feeder.buffer = some m ∨ feeder.phase = .sending m) :
    s.Holds m := by
  have hmem := List.mem_of_getElem? hfeeder
  rcases mem_or_of_holds_set h with hold | hsending | hfull
  · exact hold
  · exact ⟨feeder, hmem, .inl (hphase hsending)⟩
  · exact ⟨feeder, hmem, (hbuffer hfull).symm⟩

/-- What is held was held before, or it is built in this step from the counters as they are. -/
theorem holds_step (hs : s.Step crates event s') (h : s'.Holds m) :
    s.Holds m ∨ ∃ n memoryPhysical feeder, event = .build n memoryPhysical ∧
      s.feeders[n]? = some feeder ∧ m = s.message feeder.source memoryPhysical := by
  cases hs with
  | receive => exact .inl h
  | forward hstep =>
    obtain ⟨feeder', hmem, hheld⟩ := h
    obtain ⟨feeder, hfeeder, rfl⟩ := List.mem_map.mp hmem
    exact .inl ⟨feeder, hfeeder, hheld⟩
  | spawn =>
    obtain ⟨feeder, hmem, hheld⟩ := h
    rcases List.mem_append.mp hmem with hold | hnew
    · exact .inl ⟨feeder, hold, hheld⟩
    · rw [List.mem_singleton.mp hnew] at hheld
      simp [Feeder.new] at hheld
  | @build n feeder memoryPhysical hfeeder checking isOpen =>
    rcases mem_or_of_holds_set h with hold | hsending | hfull
    · exact .inl hold
    · exact .inr ⟨n, memoryPhysical, feeder, rfl, hfeeder, (FeederPhase.sending.inj hsending).symm⟩
    · exact .inl ⟨feeder, List.mem_of_getElem? hfeeder, .inr hfull⟩
  | @put n feeder message hfeeder sending isOpen room =>
    refine .inl (holds_of_holds_set h hfeeder (by simp [Feeder.put]) fun hfull => .inr ?_)
    rw [← Option.some.inj hfull]
    exact sending
  | putFails hfeeder sending closed => exact .inl (holds_of_holds_set h hfeeder (by simp) .inl)
  | wake hfeeder sleeping => exact .inl (holds_of_holds_set h hfeeder (by simp) .inl)
  | stop hfeeder checking closed => exact .inl (holds_of_holds_set h hfeeder (by simp) .inl)
  | recv hfeeder full => exact .inl (holds_of_holds_set h hfeeder id (by simp))
  | close hfeeder => exact .inl (holds_of_holds_set h hfeeder id .inl)

/-- What the feeders have built, and the gauge they will read next. -/
structure Truthful (s : Feeding) : Prop where
  gauge : s.gauge ≤ s.forwarding.maxPermits
  building : ∀ feeder ∈ s.feeders, ∀ m, feeder.phase = .sending m → s.Counted m
  buffered : ∀ feeder ∈ s.feeders, ∀ m, feeder.buffer = some m → s.Counted m

theorem truthful_new (forwarder : TransactionForwarder) (maxPermits : ℕ) :
    (new forwarder maxPermits).Truthful := by
  refine ⟨Nat.zero_le _, ?_, ?_⟩ <;> simp [new]

theorem counted_message (h : s.gauge ≤ s.forwarding.maxPermits) (source : String)
    (memoryPhysical : UInt64) : s.Counted (s.message source memoryPhysical) :=
  ⟨source, _, _, _, _, le_rfl, le_rfl, le_rfl, h, rfl⟩

theorem Truthful.setFeeder (h : s.Truthful) {n : ℕ} {feeder : Feeder}
    (hbuilding : ∀ m, feeder.phase = .sending m → s.Counted m)
    (hbuffered : ∀ m, feeder.buffer = some m → s.Counted m) :
    Truthful { s with feeders := s.feeders.set n feeder } :=
  ⟨h.gauge, forall_mem_set n h.building hbuilding, forall_mem_set n h.buffered hbuffered⟩

theorem Truthful.reset (h : s.Truthful) : Truthful { s with forwarding := s.resetGauge } :=
  ⟨Nat.zero_le _, h.building, h.buffered⟩

theorem Truthful.step (h : s.Truthful) (hs : s.Step crates event s') : s'.Truthful := by
  have hcounted : ∀ m, s.Counted m → s'.Counted m := fun m hm => hm.step hs
  cases hs with
  | receive => exact ⟨h.gauge, h.building, h.buffered⟩
  | @forward _ forwarding hstep =>
    refine ⟨?_, ?_, ?_⟩
    · rw [Feeding.gauge, (step_gauge hstep).1, (step_gauge hstep).2]
      exact max_le h.gauge (peak_observation_le _ _)
    · intro feeder' hmem m hphase
      obtain ⟨feeder, hfeeder, rfl⟩ := List.mem_map.mp hmem
      exact hcounted m (h.building feeder hfeeder m hphase)
    · intro feeder' hmem m hbuffer
      obtain ⟨feeder, hfeeder, rfl⟩ := List.mem_map.mp hmem
      exact hcounted m (h.buffered feeder hfeeder m hbuffer)
  | @spawn source =>
    refine ⟨h.gauge, List.forall_mem_append.mpr ⟨h.building, ?_⟩,
      List.forall_mem_append.mpr ⟨h.buffered, ?_⟩⟩ <;> simp [Feeder.new]
  | @build n feeder memoryPhysical hfeeder checking isOpen =>
    refine h.setFeeder (fun m hm => ?_) (h.buffered feeder (List.mem_of_getElem? hfeeder))
    rw [← FeederPhase.sending.inj hm]
    exact counted_message h.gauge _ _
  | @put n feeder message hfeeder sending isOpen room =>
    have hset : Truthful { s with feeders := s.feeders.set n (feeder.put message) } := by
      refine h.setFeeder (by simp [Feeder.put]) fun m hm => ?_
      rw [← Option.some.inj hm]
      exact h.building feeder (List.mem_of_getElem? hfeeder) message sending
    exact hset.reset
  | @putFails n feeder message hfeeder sending closed =>
    have hset : Truthful { s with feeders := s.feeders.set n { feeder with phase := .sleeping } } :=
      h.setFeeder (by simp) (h.buffered feeder (List.mem_of_getElem? hfeeder))
    exact hset.reset
  | @wake n feeder hfeeder sleeping =>
    exact h.setFeeder (by simp) (h.buffered feeder (List.mem_of_getElem? hfeeder))
  | @stop n feeder hfeeder checking closed =>
    exact h.setFeeder (by simp) (h.buffered feeder (List.mem_of_getElem? hfeeder))
  | @recv n feeder message hfeeder full =>
    exact h.setFeeder (h.building feeder (List.mem_of_getElem? hfeeder)) (by simp)
  | @close n feeder hfeeder =>
    exact h.setFeeder (h.building feeder (List.mem_of_getElem? hfeeder))
      (h.buffered feeder (List.mem_of_getElem? hfeeder))

end Feeding

/-! ## Processes, connections and the server -/

/-- A connection: the process and the feeder whose messages it sends, the task of the server that
reads them, and what is on its way. -/
structure Uplink where
  process : ℕ
  feeder : ℕ
  identity : String
  token : String
  messages : List (Except Status RequestMessageEnvelope)

/-- The processes go with the identity of their certificate. -/
structure Reporting where
  processes : List (String × Feeding)
  uplinks : List Uplink
  server : ClientReports

inductive ReportingEvent
  | start (identity : String) (forwarder : TransactionForwarder) (maxPermits : ℕ)
  /-- a step of process `k`; metrics received from a feeder without being sent are lost -/
  | client (k : ℕ) (event : FeedEvent)
  /-- `tx_stream` is called for the attempt that feeder `n` of process `k` feeds -/
  | connect (k n : ℕ) (token : String) (conn : ConnId)
  /-- metrics are received from the feeder and sent -/
  | upload (l : ℕ)
  /-- a pong, or an error of the network -/
  | send (l : ℕ) (message : Except Status RequestMessageEnvelope)
  /-- the task of the server gets the next message -/
  | receive (l : ℕ)
  | server (event : ReportEvent)

namespace Reporting

def new : Reporting := ⟨[], [], .new⟩

section Step

variable {SocketAddr : Type} (crates : ForwardCrates SocketAddr)

inductive Step : Reporting → ReportingEvent → Reporting → Prop
  | start {s : Reporting} {identity : String} {forwarder : TransactionForwarder} {maxPermits : ℕ} :
      Step s (.start identity forwarder maxPermits)
        { s with processes := s.processes ++ [(identity, .new forwarder maxPermits)] }
  | client {s : Reporting} {k : ℕ} {event : FeedEvent} {identity : String}
      {feeding feeding' : Feeding} (hprocess : s.processes[k]? = some (identity, feeding))
      (hstep : feeding.Step crates event feeding') :
      Step s (.client k event) { s with processes := s.processes.set k (identity, feeding') }
  | connect {s : Reporting} {k n : ℕ} {token : String} {conn : ConnId} {identity : String}
      {feeding : Feeding} {server : ClientReports}
      (hprocess : s.processes[k]? = some (identity, feeding)) (hfeeder : n < feeding.feeders.length)
      (hstep : s.server.Step (.task identity token (.txStream conn)) server) :
      Step s (.connect k n token conn)
        { s with server, uplinks := s.uplinks ++ [⟨k, n, identity, token, []⟩] }
  | upload {s : Reporting} {l : ℕ} {uplink : Uplink} {identity : String}
      {feeding feeding' : Feeding} {feeder : Feeder} {metrics : ClientMetrics}
      (huplink : s.uplinks[l]? = some uplink)
      (hprocess : s.processes[uplink.process]? = some (identity, feeding))
      (hfeeder : feeding.feeders[uplink.feeder]? = some feeder)
      (full : feeder.buffer = some metrics)
      (hstep : feeding.Step crates (.recv uplink.feeder) feeding') :
      Step s (.upload l)
        { s with
          processes := s.processes.set uplink.process (identity, feeding')
          uplinks := s.uplinks.set l
            { uplink with
              messages := uplink.messages ++ [.ok { metrics := some metrics }] } }
  | send {s : Reporting} {l : ℕ} {message : Except Status RequestMessageEnvelope} {uplink : Uplink}
      (huplink : s.uplinks[l]? = some uplink)
      (other : ∀ envelope, message = .ok envelope → envelope.metrics = none) :
      Step s (.send l message)
        { s with
          uplinks := s.uplinks.set l { uplink with messages := uplink.messages ++ [message] } }
  | receive {s : Reporting} {l : ℕ} {uplink : Uplink}
      {message : Except Status RequestMessageEnvelope}
      {rest : List (Except Status RequestMessageEnvelope)} {server : ClientReports}
      (huplink : s.uplinks[l]? = some uplink) (next : uplink.messages = message :: rest)
      (hstep : s.server.Step (.task uplink.identity uplink.token (.request message)) server) :
      Step s (.receive l)
        { s with server, uplinks := s.uplinks.set l { uplink with messages := rest } }
  | server {s : Reporting} {event : ReportEvent} {server : ClientReports}
      (own : ∀ identity token, (∀ conn, event ≠ .task identity token (.txStream conn)) ∧
        ∀ message, event ≠ .task identity token (.request message))
      (hstep : s.server.Step event server) : Step s (.server event) { s with server }

end Step

/-- In this step a feeder of process `k`, which has this identity, builds these metrics. -/
def Builds (x : Reporting × ReportingEvent) (k : ℕ) (identity : String) (m : ClientMetrics) :
    Prop :=
  ∃ n memoryPhysical feeding feeder, x.2 = .client k (.build n memoryPhysical) ∧
    x.1.processes[k]? = some (identity, feeding) ∧ feeding.feeders[n]? = some feeder ∧
    m = feeding.message feeder.source memoryPhysical

/-- A process with the identity has built these metrics, and has counted as much by now. -/
def Backed (tr : List (Reporting × ReportingEvent)) (processes : List (String × Feeding))
    (identity : String) (m : ClientMetrics) : Prop :=
  ∃ k feeding, processes[k]? = some (identity, feeding) ∧ (∃ x ∈ tr, Builds x k identity m) ∧
    feeding.Counted m

/-- Each gauge of an identity shows what some message of a process with that identity says. -/
def Honest (tr : List (Reporting × ReportingEvent)) (s : Reporting) : Prop :=
  ∀ identity gauge value, s.server.gauges.lookup (gauge, identity) = some value →
    ∃ metrics, Backed tr s.processes identity metrics ∧ value = metrics.value gauge

variable {SocketAddr : Type} {crates : ForwardCrates SocketAddr} {s s' : Reporting}
  {event : ReportingEvent} {tr : List (Reporting × ReportingEvent)} {identity : String}
  {m : ClientMetrics} {processes : List (String × Feeding)}

theorem Backed.later (h : Backed tr processes identity m) (x : Reporting × ReportingEvent) :
    Backed (tr ++ [x]) processes identity m := by
  obtain ⟨k, feeding, hprocess, ⟨y, hy, hbuilds⟩, hcounted⟩ := h
  exact ⟨k, feeding, hprocess, ⟨y, List.mem_append_left _ hy, hbuilds⟩, hcounted⟩

theorem Backed.append (h : Backed tr processes identity m) (more : List (String × Feeding)) :
    Backed tr (processes ++ more) identity m := by
  obtain ⟨k, feeding, hprocess, hbuilt, hcounted⟩ := h
  refine ⟨k, feeding, ?_, hbuilt, hcounted⟩
  rw [List.getElem?_append_left (List.getElem?_eq_some_iff.mp hprocess).1, hprocess]

/-- Counters do not go back, whichever process takes the step. -/
theorem Backed.set {k : ℕ} {identity' : String} {feeding feeding' : Feeding}
    (h : Backed tr processes identity m) (hprocess : processes[k]? = some (identity', feeding))
    (hcounted : ∀ m, feeding.Counted m → feeding'.Counted m) :
    Backed tr (processes.set k (identity', feeding')) identity m := by
  obtain ⟨j, found, hj, hbuilt, hfound⟩ := h
  by_cases hk : k = j
  · subst hk
    obtain ⟨rfl, rfl⟩ := Prod.mk.inj (Option.some.inj (hprocess.symm.trans hj))
    exact ⟨k, feeding', List.getElem?_set_self (List.getElem?_eq_some_iff.mp hj).1, hbuilt,
      hcounted m hfound⟩
  · exact ⟨j, found, by rw [List.getElem?_set_ne hk, hj], hbuilt, hfound⟩

/-- What is on its way to the server is backed too. -/
structure Flowing (tr : List (Reporting × ReportingEvent)) (s : Reporting) : Prop where
  truthful : ∀ process ∈ s.processes, process.2.Truthful
  built : ∀ (k : ℕ) identity feeding, s.processes[k]? = some (identity, feeding) →
    ∀ m, feeding.Holds m → ∃ x ∈ tr, Builds x k identity m
  process : ∀ uplink ∈ s.uplinks,
    ∃ feeding, s.processes[uplink.process]? = some (uplink.identity, feeding)
  messages : ∀ uplink ∈ s.uplinks, ∀ envelope metrics, .ok envelope ∈ uplink.messages →
    envelope.metrics = some metrics → Backed tr s.processes uplink.identity metrics
  server : ∀ identity, ClientReports.From (Backed tr s.processes identity) identity s.server

theorem flowing_new : Flowing [] new := by
  refine ⟨?_, ?_, ?_, ?_, fun identity => ClientReports.from_new _ identity⟩ <;> simp [new]

theorem Flowing.later (h : Flowing tr s) (x : Reporting × ReportingEvent) :
    Flowing (tr ++ [x]) s := by
  refine ⟨h.truthful, fun k identity feeding hprocess m hm => ?_, h.process,
    fun uplink huplink envelope metrics hmem hmetrics =>
      (h.messages uplink huplink envelope metrics hmem hmetrics).later x,
    fun identity => (h.server identity).mono fun m hm => hm.later x⟩
  obtain ⟨y, hy, hbuilds⟩ := h.built k identity feeding hprocess m hm
  exact ⟨y, List.mem_append_left _ hy, hbuilds⟩

/-- A step of a process. -/
theorem Flowing.setProcess (h : Flowing tr s) {k : ℕ} {event : FeedEvent}
    {feeding feeding' : Feeding} (hprocess : s.processes[k]? = some (identity, feeding))
    (hstep : feeding.Step crates event feeding')
    (hbuilt : ∀ m, feeding'.Holds m → feeding.Holds m ∨ ∃ x ∈ tr, Builds x k identity m) :
    Flowing tr { s with processes := s.processes.set k (identity, feeding') } := by
  have hcounted : ∀ m, feeding.Counted m → feeding'.Counted m := fun m hm => hm.step hstep
  refine ⟨?_, ?_, ?_, ?_, ?_⟩
  · refine forall_mem_set k h.truthful ?_
    exact (h.truthful _ (List.mem_of_getElem? hprocess)).step hstep
  · intro j identity' found hfound m hm
    by_cases hk : k = j
    · subst hk
      rw [List.getElem?_set_self (List.getElem?_eq_some_iff.mp hprocess).1] at hfound
      obtain ⟨rfl, rfl⟩ := Prod.mk.inj (Option.some.inj hfound)
      rcases hbuilt m hm with hold | hnew
      · exact h.built k identity feeding hprocess m hold
      · exact hnew
    · rw [List.getElem?_set_ne hk] at hfound
      exact h.built j identity' found hfound m hm
  · intro uplink huplink
    obtain ⟨found, hfound⟩ := h.process uplink huplink
    by_cases hk : k = uplink.process
    · subst hk
      obtain ⟨rfl, -⟩ := Prod.mk.inj (Option.some.inj (hprocess.symm.trans hfound))
      exact ⟨feeding', List.getElem?_set_self (List.getElem?_eq_some_iff.mp hfound).1⟩
    · exact ⟨found, by rw [List.getElem?_set_ne hk, hfound]⟩
  · intro uplink huplink envelope metrics hmem hmetrics
    exact (h.messages uplink huplink envelope metrics hmem hmetrics).set hprocess hcounted
  · exact fun identity' => (h.server identity').mono fun m hm => hm.set hprocess hcounted

/-- A step of the server that takes up no metrics but backed ones. -/
theorem Flowing.serverStep (h : Flowing tr s) {event : ReportEvent} {server : ClientReports}
    (hstep : s.server.Step event server)
    (hmetrics : ∀ identity, ∀ m ∈ ClientReports.metricsOf identity (s.server, event),
      Backed tr s.processes identity m) : Flowing tr { s with server } :=
  ⟨h.truthful, h.built, h.process, h.messages,
    fun identity => (h.server identity).step (ClientReports.gauge_step hstep identity)
      (hmetrics identity)⟩

/-- The messages of one connection change. -/
theorem Flowing.setUplink (h : Flowing tr s) {l : ℕ} {uplink : Uplink}
    (huplink : s.uplinks[l]? = some uplink)
    {messages : List (Except Status RequestMessageEnvelope)}
    (hmessages : ∀ envelope metrics, .ok envelope ∈ messages → envelope.metrics = some metrics →
      Backed tr s.processes uplink.identity metrics) :
    Flowing tr { s with uplinks := s.uplinks.set l { uplink with messages } } :=
  ⟨h.truthful, h.built, forall_mem_set l h.process (h.process uplink (List.mem_of_getElem? huplink)),
    forall_mem_set l h.messages hmessages, h.server⟩

theorem Flowing.start (h : Flowing tr s) (identity : String) (forwarder : TransactionForwarder)
    (maxPermits : ℕ) :
    Flowing tr { s with processes := s.processes ++ [(identity, .new forwarder maxPermits)] } := by
  refine ⟨List.forall_mem_append.mpr ⟨h.truthful, ?_⟩, fun k identity' feeding hprocess m hm => ?_,
    fun uplink huplink => ?_, fun uplink huplink envelope metrics hmem hmetrics =>
      (h.messages uplink huplink envelope metrics hmem hmetrics).append _,
    fun identity' => (h.server identity').mono fun m hm => hm.append _⟩
  · exact List.forall_mem_singleton.mpr (Feeding.truthful_new forwarder maxPermits)
  · by_cases hk : k < s.processes.length
    · rw [List.getElem?_append_left hk] at hprocess
      exact h.built k identity' feeding hprocess m hm
    · -- the new process has no feeder yet
      rw [List.getElem?_append_right (Nat.le_of_not_lt hk)] at hprocess
      have hnew := List.mem_singleton.mp (List.mem_of_getElem? hprocess)
      obtain ⟨-, rfl⟩ := Prod.mk.inj hnew
      obtain ⟨feeder, hfeeder, -⟩ := hm
      simp [Feeding.new] at hfeeder
  · obtain ⟨feeding, hfeeding⟩ := h.process uplink huplink
    exact ⟨feeding, by
      rw [List.getElem?_append_left (List.getElem?_eq_some_iff.mp hfeeding).1, hfeeding]⟩

theorem Flowing.upload (h : Flowing tr s) {l : ℕ} {uplink : Uplink} {feeding feeding' : Feeding}
    {feeder : Feeder} {metrics : ClientMetrics} (huplink : s.uplinks[l]? = some uplink)
    (hprocess : s.processes[uplink.process]? = some (identity, feeding))
    (hfeeder : feeding.feeders[uplink.feeder]? = some feeder)
    (full : feeder.buffer = some metrics)
    (hstep : feeding.Step crates (.recv uplink.feeder) feeding') :
    Flowing tr
      { s with
        processes := s.processes.set uplink.process (identity, feeding')
        uplinks := s.uplinks.set l
          { uplink with messages := uplink.messages ++ [.ok { metrics := some metrics }] } } := by
  obtain ⟨found, hfound⟩ := h.process uplink (List.mem_of_getElem? huplink)
  obtain ⟨hidentity, -⟩ := Prod.mk.inj (Option.some.inj (hfound.symm.trans hprocess))
  have hheld : ∀ m, feeding'.Holds m →
      feeding.Holds m ∨ ∃ x ∈ tr, Builds x uplink.process identity m := by
    intro m hm
    rcases Feeding.holds_step hstep hm with hold | ⟨_, _, _, hevent, -⟩
    · exact .inl hold
    · simp at hevent
  have hfed := h.setProcess hprocess hstep hheld
  refine hfed.setUplink huplink fun envelope metrics' hmem hmetrics => ?_
  rcases List.mem_append.mp hmem with hold | hnew
  · exact hfed.messages uplink (List.mem_of_getElem? huplink) envelope metrics' hold hmetrics
  · -- the message was in the feeder's channel
    obtain rfl := Except.ok.inj (List.mem_singleton.mp hnew)
    obtain rfl := Option.some.inj hmetrics
    have hmem := List.mem_of_getElem? hfeeder
    have hcounted := (h.truthful _ (List.mem_of_getElem? hprocess)).buffered feeder hmem metrics full
    rw [hidentity]
    exact ⟨uplink.process, feeding',
      List.getElem?_set_self (List.getElem?_eq_some_iff.mp hprocess).1,
      h.built _ identity feeding hprocess metrics ⟨feeder, hmem, .inr full⟩, hcounted.step hstep⟩

theorem Flowing.step (h : Flowing tr s) (hs : Step crates s event s') :
    Flowing (tr ++ [(s, event)]) s' := by
  have hlater := h.later (s, event)
  cases hs with
  | start => exact hlater.start _ _ _
  | @client k event identity feeding feeding' hprocess hstep =>
    refine hlater.setProcess hprocess hstep fun m hm => ?_
    rcases Feeding.holds_step hstep hm with hold | ⟨n, memoryPhysical, feeder, rfl, hfeeder, rfl⟩
    · exact .inl hold
    · exact .inr ⟨(s, .client k (.build n memoryPhysical)), by simp, n, memoryPhysical, feeding,
        feeder, rfl, hprocess, hfeeder, rfl⟩
  | @connect k n token conn identity feeding server hprocess hfeeder hstep =>
    have hserver := hlater.serverStep hstep (by simp [ClientReports.metricsOf])
    refine ⟨hserver.truthful, hserver.built, List.forall_mem_append.mpr ⟨hserver.process, ?_⟩,
      List.forall_mem_append.mpr ⟨hserver.messages, ?_⟩, hserver.server⟩
    · exact List.forall_mem_singleton.mpr ⟨feeding, hprocess⟩
    · simp
  | upload huplink hprocess hfeeder full hstep =>
    exact hlater.upload huplink hprocess hfeeder full hstep
  | send huplink other =>
    refine hlater.setUplink huplink fun envelope metrics hmem hmetrics => ?_
    rcases List.mem_append.mp hmem with hold | hnew
    · exact hlater.messages _ (List.mem_of_getElem? huplink) envelope metrics hold hmetrics
    · rw [other envelope (List.mem_singleton.mp hnew).symm] at hmetrics
      simp at hmetrics
  | @receive l uplink message rest server huplink next hstep =>
    have hmessages := hlater.messages uplink (List.mem_of_getElem? huplink)
    rw [next] at hmessages
    have hserver : Flowing (tr ++ [(s, .receive l)]) { s with server } := by
      refine hlater.serverStep hstep fun identity m hm => ?_
      obtain ⟨token, envelope, hevent, hmetrics⟩ := ClientReports.eq_of_metricsOf hm
      obtain ⟨rfl, rfl, hrequest⟩ := ReportEvent.task.inj hevent
      obtain rfl := TaskEvent.request.inj hrequest
      exact hmessages envelope m List.mem_cons_self hmetrics
    exact hserver.setUplink huplink fun envelope metrics hmem hmetrics =>
      hmessages envelope metrics (List.mem_cons_of_mem _ hmem) hmetrics
  | server own hstep =>
    refine hlater.serverStep hstep fun identity m hm => ?_
    obtain ⟨token, envelope, hevent, -⟩ := ClientReports.eq_of_metricsOf hm
    exact absurd hevent ((own identity token).2 _)

theorem flowing_of_run (h : Run (Step crates) new tr s) : Flowing tr s := by
  induction h with
  | nil => exact flowing_new
  | snoc _ hs ih => exact ih.step hs

/-- In every state, however late the messages are and whichever connections they come on. -/
theorem honest_of_run (h : Run (Step crates) new tr s) : Honest tr s :=
  fun identity gauge value hshown => ((flowing_of_run h).server identity).shown gauge value hshown

/-- A client takes a transaction, and the server learns of it. -/
theorem honest_one_transaction : ∃ tr s, Run (Step Client.sampleForwardCrates) new tr s ∧
    s.server.gauges.lookup (.txReceived, "A") = some 1 ∧ Honest tr s := by
  have hfed := ((Run.nil new).snoc
    (@Step.start _ Client.sampleForwardCrates _ "A" .blackhole 1)).snoc
    (@Step.client _ _ _ 0 (.spawn "s") _ _ _ rfl .spawn)
  have hcounted := (hfed.snoc (@Step.client _ _ _ 0 (.receive [⟨"s", ⟨"", "", []⟩⟩]) _ _ _ rfl
    .receive)).snoc (@Step.client _ _ _ 0 (.forward .process) _ _ _ rfl (.forward (.process rfl)))
  have hbuilt := (hcounted.snoc (@Step.client _ _ _ 0 (.build 0 0) _ _ _ rfl
    (.build rfl rfl rfl))).snoc (@Step.client _ _ _ 0 (.put 0) _ _ _ rfl (.put rfl rfl rfl rfl))
  have hsent := (hbuilt.snoc (@Step.connect _ _ _ 0 0 "token" 0 _ _ _ rfl (by decide)
    (.txStream rfl))).snoc (@Step.upload _ _ _ 0 _ _ _ _ _ _ rfl rfl rfl rfl (.recv rfl rfl))
  have hset := (hsent.snoc (@Step.receive _ _ _ 0 _ _ _ _ rfl rfl (.request rfl rfl))).snoc
    (@Step.server _ _ _ (.task "A" "token" .part) _ (by simp) (.part rfl rfl rfl))
  exact ⟨_, _, hset, rfl, honest_of_run hset⟩

end Reporting

end Mtransaction
