import Mtransaction.Client.GrpcClient

/-!
# The feeders of the client's metrics

`client/metrics.rs`: each attempt to connect has a feeder of its own, which builds a message, waits
until its channel has room, sets the gauge of used permits back to 0 and sleeps.  The gauge is one
for the whole process.  What the feeders report is set against what the forward tasks observed.
-/

namespace Mtransaction

open Runs History Interleaving

/-- `VERSION` of `client/main.rs`. -/
def clientVersion : String := "rust-0.0.14-beta"

inductive FeederPhase
  /-- about to look whether the receiver is closed -/
  | checking
  /-- waiting for room in the channel -/
  | sending (message : ClientMetrics)
  | sleeping
  | ended
  deriving DecidableEq, Repr

/-- A task of `spawn_feeder` and its channel of one place.  The last three fields are history: the
values observed since its last message was built, those observed before that and since the message
before, and the messages it has put on the channel, each with the values observed for it. -/
structure Feeder where
  source : String
  phase : FeederPhase
  /-- the receiver is closed -/
  closed : Bool
  buffer : Option ClientMetrics
  observed : List ℕ
  due : List ℕ
  messages : List (ClientMetrics × List ℕ)

/-- The forwarder, whose metrics are the whole process's, and the feeders spawned so far. -/
structure Feeding where
  forwarding : Forwarding
  feeders : List Feeder

inductive FeedEvent
  | receive (transactions : List ForwardedTransaction)
  | forward (event : ForwardEvent)
  | spawn (source : String)
  /-- feeder `n` finds its receiver open and builds a message -/
  | build (n : ℕ) (memoryPhysical : UInt64)
  /-- the send of feeder `n` is over, and the gauge is set back -/
  | put (n : ℕ)
  | putFails (n : ℕ)
  | wake (n : ℕ)
  /-- feeder `n` finds its receiver closed -/
  | stop (n : ℕ)
  | recv (n : ℕ)
  | close (n : ℕ)

/-- The value a forward task observes in a step: the permits in use when it starts. -/
def Forwarding.observation (f : Forwarding) : ForwardEvent → Option ℕ
  | .start n =>
    match f.tasks[n]? with
    | some ⟨_, _, some _, _⟩ => some (f.maxPermits - f.availablePermits)
    | _ => none
  | _ => none

namespace Feeder

def new (source : String) : Feeder := ⟨source, .checking, false, none, [], [], []⟩

def observe (feeder : Feeder) (values : List ℕ) : Feeder :=
  { feeder with observed := feeder.observed ++ values }

def build (feeder : Feeder) (message : ClientMetrics) : Feeder :=
  { feeder with phase := .sending message, observed := [], due := feeder.observed }

def put (feeder : Feeder) (message : ClientMetrics) : Feeder :=
  { feeder with
    phase := .sleeping
    buffer := some message
    messages := feeder.messages ++ [(message, feeder.due)] }

end Feeder

namespace Feeding

def new (forwarder : TransactionForwarder) (maxPermits : ℕ) : Feeding :=
  ⟨(Client.new forwarder maxPermits).forwarding, []⟩

/-- `QUIC_FORWARDER_PERMITS_USED_MAX` -/
def gauge (s : Feeding) : ℕ := s.forwarding.metrics.quicForwarderPermitsUsedMax

def resetGauge (s : Feeding) : Forwarding :=
  { s.forwarding with metrics := { s.forwarding.metrics with quicForwarderPermitsUsedMax := 0 } }

def message (s : Feeding) (source : String) (memoryPhysical : UInt64) : ClientMetrics where
  txReceived := .ofNat (s.forwarding.metrics.txReceived.value source)
  txForwardSucceeded := .ofNat (s.forwarding.metrics.txForwardSucceeded.value source)
  txForwardFailed := .ofNat (s.forwarding.metrics.txForwardFailed.value source)
  version := clientVersion
  quicForwarderPermitsUsedMax := .ofNat s.gauge
  memoryPhysical

section Step

variable {SocketAddr : Type} (crates : ForwardCrates SocketAddr)

/-- The steps between two awaits of a forward task or of a feeder. -/
inductive Step : Feeding → FeedEvent → Feeding → Prop
  | receive {s : Feeding} {transactions : List ForwardedTransaction} :
      Step s (.receive transactions)
        { s with
          forwarding := { s.forwarding with queue := s.forwarding.queue ++ transactions } }
  | forward {s : Feeding} {event : ForwardEvent} {forwarding : Forwarding}
      (hstep : s.forwarding.Step crates event forwarding) :
      Step s (.forward event)
        ⟨forwarding,
          s.feeders.map fun feeder => feeder.observe (s.forwarding.observation event).toList⟩
  | spawn {s : Feeding} {source : String} :
      Step s (.spawn source) { s with feeders := s.feeders ++ [.new source] }
  | build {s : Feeding} {n : ℕ} {feeder : Feeder} {memoryPhysical : UInt64}
      (hfeeder : s.feeders[n]? = some feeder) (checking : feeder.phase = .checking)
      (isOpen : feeder.closed = false) :
      Step s (.build n memoryPhysical)
        { s with
          feeders := s.feeders.set n (feeder.build (s.message feeder.source memoryPhysical)) }
  | put {s : Feeding} {n : ℕ} {feeder : Feeder} {message : ClientMetrics}
      (hfeeder : s.feeders[n]? = some feeder) (sending : feeder.phase = .sending message)
      (isOpen : feeder.closed = false) (room : feeder.buffer = none) :
      Step s (.put n) ⟨s.resetGauge, s.feeders.set n (feeder.put message)⟩
  -- the error is logged, and the gauge set back all the same
  | putFails {s : Feeding} {n : ℕ} {feeder : Feeder} {message : ClientMetrics}
      (hfeeder : s.feeders[n]? = some feeder) (sending : feeder.phase = .sending message)
      (closed : feeder.closed) :
      Step s (.putFails n) ⟨s.resetGauge, s.feeders.set n { feeder with phase := .sleeping }⟩
  | wake {s : Feeding} {n : ℕ} {feeder : Feeder} (hfeeder : s.feeders[n]? = some feeder)
      (sleeping : feeder.phase = .sleeping) :
      Step s (.wake n) { s with feeders := s.feeders.set n { feeder with phase := .checking } }
  | stop {s : Feeding} {n : ℕ} {feeder : Feeder} (hfeeder : s.feeders[n]? = some feeder)
      (checking : feeder.phase = .checking) (closed : feeder.closed) :
      Step s (.stop n) { s with feeders := s.feeders.set n { feeder with phase := .ended } }
  | recv {s : Feeding} {n : ℕ} {feeder : Feeder} {message : ClientMetrics}
      (hfeeder : s.feeders[n]? = some feeder) (full : feeder.buffer = some message) :
      Step s (.recv n) { s with feeders := s.feeders.set n { feeder with buffer := none } }
  | close {s : Feeding} {n : ℕ} {feeder : Feeder} (hfeeder : s.feeders[n]? = some feeder) :
      Step s (.close n) { s with feeders := s.feeders.set n { feeder with closed := true } }

end Step

/-! ## Peaks -/

/-- The largest of some observed values, 0 without any. -/
def peak (values : List ℕ) : ℕ := values.foldr max 0

theorem peak_append (values more : List ℕ) :
    peak (values ++ more) = max (peak values) (peak more) := by
  induction values with
  | nil => simp [peak]
  | cons v values ih =>
    simp only [peak, List.cons_append, List.foldr_cons] at ih ⊢
    rw [ih, max_assoc]

/-- Each message on a channel reports the peak since the feeder's message before it was built, or
since the feeder was spawned. -/
def NoPeakLost (s : Feeding) : Prop :=
  ∀ feeder ∈ s.feeders, ∀ m ∈ feeder.messages, m.1.quicForwarderPermitsUsedMax.toNat = peak m.2

/-- For each feeder what it found in the gauge when it was spawned, as long as nobody has set the
gauge back. -/
def inherited (before : List (Feeding × FeedEvent)) : List ℕ :=
  before.foldl (fun held x =>
    match x.2 with
    | .spawn _ => held ++ [x.1.gauge]
    | .put _ | .putFails _ => held.map fun _ => 0
    | _ => held) []

/-- A feeder builds a message only when nothing larger is left in the gauge from before it was
spawned than it has seen observed; and the gauge is set back only while no permit in use has been
observed since any feeder with an open channel built its last message. -/
def Timely (before : List (Feeding × FeedEvent)) (x : Feeding × FeedEvent) : Prop :=
  match x.2 with
  | .build n _ =>
      ∀ feeder ∈ x.1.feeders[n]?, (inherited before).getD n 0 ≤ peak feeder.observed
  | .put _ | .putFails _ =>
      ∀ feeder ∈ x.1.feeders, feeder.closed = false → peak feeder.observed = 0
  | _ => True

variable {SocketAddr : Type} {crates : ForwardCrates SocketAddr} {s s' : Feeding}
  {event : FeedEvent} {before tr : List (Feeding × FeedEvent)} {forwarder : TransactionForwarder}
  {maxPermits : ℕ}

/-- The gauge is the peak an idle feeder has to report, or what it has inherited; a feeder that
waits for room is between its message and the reset, and the gauge says nothing about it. -/
structure Tracks (gauge held : ℕ) (feeder : Feeder) : Prop where
  current : feeder.closed = false → feeder.phase = .checking ∨ feeder.phase = .sleeping →
    max held (peak feeder.observed) = gauge
  waiting : ∀ message, feeder.phase = .sending message →
    message.quicForwarderPermitsUsedMax.toNat = peak feeder.due
  reported : ∀ m ∈ feeder.messages, m.1.quicForwarderPermitsUsedMax.toNat = peak m.2

structure Tracked (maxPermits : ℕ) (before : List (Feeding × FeedEvent)) (s : Feeding) : Prop where
  permits : s.forwarding.maxPermits = maxPermits
  bound : s.gauge ≤ maxPermits
  length : (inherited before).length = s.feeders.length
  feeders : ∀ n feeder, s.feeders[n]? = some feeder →
    Tracks s.gauge ((inherited before).getD n 0) feeder

theorem step_gauge {f f' : Forwarding} {event : ForwardEvent}
    (hs : f.Step crates event f') :
    f'.metrics.quicForwarderPermitsUsedMax =
        Max.max f.metrics.quicForwarderPermitsUsedMax (peak (f.observation event).toList) ∧
      f'.maxPermits = f.maxPermits := by
  cases hs with
  | process next =>
    unfold Forwarding.process
    dsimp only
    split <;> simp [Forwarding.observation, peak]
  | @start n task sent htask spawned prepared =>
    obtain ⟨source, transaction, tpu, phase⟩ := task
    cases tpu <;> simp [Forwarding.observation, htask, Forwarding.observe, peak]
  | acquire htask waiting permit => simp [Forwarding.observation, peak]
  | @finish n task result htask sending =>
    cases result <;> simp [Forwarding.observation, Forwarding.handleSendResult, peak]
  | drop htask reported => simp [Forwarding.observation, peak]

-- no more permits are in use than there are
theorem peak_observation_le (f : Forwarding) (event : ForwardEvent) :
    peak (f.observation event).toList ≤ f.maxPermits := by
  unfold Forwarding.observation
  split
  · split <;> simp [peak]
  · simp [peak]

/-! ## One step -/

namespace Tracks

variable {gauge held : ℕ} {feeder : Feeder}

theorem new (source : String) : Tracks gauge gauge (.new source) :=
  ⟨fun _ _ => Nat.max_zero gauge, by simp [Feeder.new], by simp [Feeder.new]⟩

theorem observe (h : Tracks gauge held feeder) (values : List ℕ) :
    Tracks (max gauge (peak values)) held (feeder.observe values) := by
  refine ⟨fun hopen hphase => ?_, h.waiting, h.reported⟩
  rw [Feeder.observe, peak_append, ← max_assoc, h.current hopen hphase]

theorem build (h : Tracks gauge held feeder) (hopen : feeder.closed = false)
    (hphase : feeder.phase = .checking) (hheld : held ≤ peak feeder.observed)
    {message : ClientMetrics} (hmessage : message.quicForwarderPermitsUsedMax.toNat = gauge) :
    Tracks gauge held (feeder.build message) := by
  refine ⟨fun _ hidle => by simp [Feeder.build] at hidle, fun m hm => ?_, h.reported⟩
  obtain rfl := FeederPhase.sending.inj hm
  rw [hmessage, ← h.current hopen (.inl hphase)]
  exact max_eq_right hheld

theorem reset (h : Tracks gauge held feeder)
    (hobserved : feeder.closed = false → peak feeder.observed = 0) : Tracks 0 0 feeder :=
  ⟨fun hopen _ => by rw [hobserved hopen, max_self], h.waiting, h.reported⟩

theorem put (h : Tracks gauge held feeder) {message : ClientMetrics}
    (hphase : feeder.phase = .sending message)
    (hobserved : feeder.closed = false → peak feeder.observed = 0) :
    Tracks 0 0 (feeder.put message) := by
  refine ⟨fun hopen _ => by rw [Feeder.put, hobserved hopen, max_self],
    fun _ hm => by simp [Feeder.put] at hm, ?_⟩
  refine List.forall_mem_append.mpr ⟨h.reported, List.forall_mem_singleton.mpr ?_⟩
  exact h.waiting message hphase

end Tracks

theorem getD_map_zero (held : List ℕ) (n : ℕ) : (held.map fun _ => 0).getD n 0 = 0 := by
  rw [List.getD_eq_getElem?_getD, List.getElem?_map]
  cases held[n]? <;> rfl

namespace Tracked

/-- One feeder changes, and the gauge does not. -/
theorem set {n : ℕ} {feeder : Feeder} (h : s.Tracked maxPermits before)
    (hinherited : inherited (before ++ [(s, event)]) = inherited before)
    (hfeeder : Tracks s.gauge ((inherited before).getD n 0) feeder) :
    Tracked maxPermits (before ++ [(s, event)]) { s with feeders := s.feeders.set n feeder } := by
  refine ⟨h.permits, h.bound, ?_, ?_⟩
  · rw [hinherited, h.length, List.length_set]
  · rw [hinherited]
    exact forall_getElem?_set n h.feeders hfeeder

/-- A timely reset leaves nothing inherited and nothing to report. -/
theorem reset {n : ℕ} {feeder : Feeder} (h : s.Tracked maxPermits before)
    (hinherited : inherited (before ++ [(s, event)]) = (inherited before).map fun _ => 0)
    (hobserved : ∀ feeder ∈ s.feeders, feeder.closed = false → peak feeder.observed = 0)
    (hfeeder : Tracks 0 0 feeder) :
    Tracked maxPermits (before ++ [(s, event)]) ⟨s.resetGauge, s.feeders.set n feeder⟩ := by
  refine ⟨h.permits, Nat.zero_le _, ?_, ?_⟩
  · rw [hinherited, List.length_map, h.length, List.length_set]
  · simp only [hinherited, getD_map_zero]
    refine forall_getElem?_set n (fun m f hf => ?_) hfeeder
    exact (h.feeders m f hf).reset (hobserved f (List.mem_of_getElem? hf))

theorem spawn {source : String} (h : s.Tracked maxPermits before) :
    Tracked maxPermits (before ++ [(s, .spawn source)])
      { s with feeders := s.feeders ++ [.new source] } := by
  have hinherited : inherited (before ++ [(s, .spawn source)]) = inherited before ++ [s.gauge] := by
    simp [inherited]
  refine ⟨h.permits, h.bound, by simp [hinherited, h.length], fun n feeder hfeeder => ?_⟩
  rw [List.getElem?_append] at hfeeder
  rw [hinherited, List.getD_eq_getElem?_getD, List.getElem?_append, h.length]
  by_cases hn : n < s.feeders.length
  · rw [if_pos hn] at hfeeder ⊢
    rw [← List.getD_eq_getElem?_getD]
    exact h.feeders n feeder hfeeder
  · rw [if_neg hn] at hfeeder ⊢
    rw [List.getElem?_singleton, Option.ite_none_right_eq_some] at hfeeder
    obtain ⟨hzero, hfeeder⟩ := hfeeder
    obtain rfl := Option.some.inj hfeeder
    rw [hzero]
    exact .new _

theorem step (hmax : maxPermits ≤ 2305843009213693951) (h : s.Tracked maxPermits before)
    (htimely : Timely before (s, event)) (hs : s.Step crates event s') :
    s'.Tracked maxPermits (before ++ [(s, event)]) := by
  cases hs with
  | @receive transactions =>
    have hinherited : inherited (before ++ [(s, .receive transactions)]) = inherited before := by
      simp [inherited]
    exact ⟨h.permits, h.bound, hinherited ▸ h.length, hinherited ▸ h.feeders⟩
  | @forward event forwarding hstep =>
    obtain ⟨hgauge, hpermits⟩ := step_gauge hstep
    have hle := peak_observation_le s.forwarding event
    have hinherited : inherited (before ++ [(s, .forward event)]) = inherited before := by
      simp [inherited]
    refine ⟨hpermits.trans h.permits, ?_, by rw [hinherited, h.length, List.length_map], ?_⟩
    · rw [gauge, hgauge]
      exact max_le h.bound (h.permits ▸ hle)
    · intro n feeder hfeeder
      obtain ⟨f, hf, rfl⟩ := Option.map_eq_some_iff.mp ((List.getElem?_map ..).symm.trans hfeeder)
      rw [gauge, hgauge, hinherited]
      exact (h.feeders n f hf).observe _
  | spawn => exact h.spawn
  | @build n feeder memoryPhysical hfeeder checking isOpen =>
    refine h.set (by simp [inherited]) ((h.feeders n feeder hfeeder).build isOpen checking
      (htimely feeder hfeeder) ?_)
    -- the gauge fits the message's field
    have hbound := h.bound
    rw [message, UInt64.toNat_ofNat']
    apply Nat.mod_eq_of_lt
    omega
  | @put n feeder message hfeeder sending isOpen room =>
    exact h.reset (by simp [inherited]) htimely ((h.feeders n feeder hfeeder).put sending
      (htimely feeder (List.mem_of_getElem? hfeeder)))
  | @putFails n feeder message hfeeder sending closed =>
    refine h.reset (by simp [inherited]) htimely
      ⟨fun hopen => ?_, by simp, (h.feeders n feeder hfeeder).reported⟩
    simp [closed] at hopen
  | @wake n feeder hfeeder sleeping =>
    have htracks := h.feeders n feeder hfeeder
    exact h.set (by simp [inherited])
      ⟨fun hopen _ => htracks.current hopen (.inr sleeping), by simp, htracks.reported⟩
  | @stop n feeder hfeeder checking closed =>
    exact h.set (by simp [inherited]) ⟨by simp, by simp, (h.feeders n feeder hfeeder).reported⟩
  | @recv n feeder message hfeeder full =>
    have htracks := h.feeders n feeder hfeeder
    exact h.set (by simp [inherited]) ⟨htracks.current, htracks.waiting, htracks.reported⟩
  | @close n feeder hfeeder =>
    have htracks := h.feeders n feeder hfeeder
    exact h.set (by simp [inherited]) ⟨by simp, htracks.waiting, htracks.reported⟩

theorem noPeakLost (h : s.Tracked maxPermits before) : s.NoPeakLost := by
  intro feeder hfeeder
  obtain ⟨n, hn⟩ := List.mem_iff_getElem?.mp hfeeder
  exact (h.feeders n feeder hn).reported

end Tracked

/-! ## Runs -/

/-- As long as every message and every reset is timely, no peak is lost.  The bound is that of the
semaphore, which cannot be made with more permits. -/
theorem noPeakLost_of_timely (hmax : maxPermits ≤ 2305843009213693951)
    (h : Run (Step crates) (new forwarder maxPermits) tr s) (htimely : Along Timely tr) :
    (∀ x ∈ tr, x.1.NoPeakLost) ∧ s.NoPeakLost := by
  have hnew : Tracked maxPermits [] (new forwarder maxPermits) :=
    ⟨rfl, Nat.zero_le _, rfl, by simp [new]⟩
  obtain ⟨hmem, hend⟩ := h.invariant_along (P := fun before t => t.Tracked maxPermits before) htimely
    hnew fun before t a u htimely ht hs => ht.step hmax htimely hs
  refine ⟨fun x hx => ?_, hend.noPeakLost⟩
  obtain ⟨before, hx⟩ := hmem x hx
  exact hx.noPeakLost

/-! ### One transaction with two addresses, and two permits -/

def twoTpus : ForwardedTransaction := ⟨"a", ⟨"AA==", "text", ["10.0.0.1:8009", "10.0.0.1:8009"]⟩⟩

/-- The second task observes the permit of the first, and the feeder reports it.  Another feeder,
spawned before the gauge is set back, builds its message after that. -/
theorem peak_reported : ∃ tr s, Run (Step Client.sampleForwardCrates) (new .quic 2) tr s ∧
    s.NoPeakLost ∧ s.feeders.map (fun feeder => feeder.messages.map fun m =>
      (m.1.quicForwarderPermitsUsedMax, m.2)) = [[(1, [0, 1])], [(0, [])]] := by
  have hspawned := (Run.nil (new .quic 2)).snoc (@Step.spawn _ Client.sampleForwardCrates _ "a")
  have hprocessed := (hspawned.snoc (@Step.receive _ _ _ [twoTpus])).snoc (.forward (.process rfl))
  have hfirst := (hprocessed.snoc (.forward (@Forwarding.Step.start _ _ _ 0 _ _ rfl rfl rfl))).snoc
    (.forward (@Forwarding.Step.acquire _ _ _ 0 _ rfl rfl (by decide)))
  have hsecond := hfirst.snoc (.forward (@Forwarding.Step.start _ _ _ 1 _ _ rfl rfl rfl))
  have hbuilt := (hsecond.snoc (@Step.build _ _ _ 0 _ 0 rfl rfl rfl)).snoc (@Step.spawn _ _ _ "b")
  have hput := (hbuilt.snoc (@Step.put _ _ _ 0 _ _ rfl rfl rfl rfl)).snoc
    (@Step.build _ _ _ 1 _ 0 rfl rfl rfl)
  have hboth := hput.snoc (@Step.put _ _ _ 1 _ _ rfl rfl rfl rfl)
  refine ⟨_, _, hboth, (noPeakLost_of_timely (by decide) hboth ?_).2, rfl⟩
  simp only [along_concat, along_nil, true_and, Timely]
  decide

/-- With a feeder for each of two servers, the first to report takes the peak from the second.  With
one feeder, what is observed while it waits for room is lost. -/
theorem peak_lost :
    (∃ s, Reachable (Step Client.sampleForwardCrates) (new .quic 2) s ∧ ¬ s.NoPeakLost ∧
      s.feeders.map (fun feeder => feeder.messages.map fun m =>
        (m.1.quicForwarderPermitsUsedMax, m.2)) = [[(1, [0, 1])], [(0, [0, 1])]]) ∧
    ∃ s, Reachable (Step Client.sampleForwardCrates) (new .quic 2) s ∧ ¬ s.NoPeakLost ∧
      s.feeders.map (fun feeder => feeder.messages.map fun m =>
        (m.1.quicForwarderPermitsUsedMax, m.2)) = [[(0, [0]), (0, [1])]] := by
  constructor
  · have hspawned := ((Reachable.refl (new .quic 2)).next
      (@Step.spawn _ Client.sampleForwardCrates _ "a")).next (@Step.spawn _ _ _ "b")
    have hprocessed := (hspawned.next (@Step.receive _ _ _ [twoTpus])).next
      (.forward (.process rfl))
    have hfirst := (hprocessed.next
      (.forward (@Forwarding.Step.start _ _ _ 0 _ _ rfl rfl rfl))).next
        (.forward (@Forwarding.Step.acquire _ _ _ 0 _ rfl rfl (by decide)))
    have hsecond := hfirst.next (.forward (@Forwarding.Step.start _ _ _ 1 _ _ rfl rfl rfl))
    have hput := (hsecond.next (@Step.build _ _ _ 0 _ 0 rfl rfl rfl)).next
      (@Step.put _ _ _ 0 _ _ rfl rfl rfl rfl)
    have hlost := (hput.next (@Step.build _ _ _ 1 _ 0 rfl rfl rfl)).next
      (@Step.put _ _ _ 1 _ _ rfl rfl rfl rfl)
    refine ⟨_, hlost, fun h => ?_, rfl⟩
    revert h
    simp only [NoPeakLost]
    decide
  · have hspawned := (Reachable.refl (new .quic 2)).next
      (@Step.spawn _ Client.sampleForwardCrates _ "a")
    have hprocessed := (hspawned.next (@Step.receive _ _ _ [twoTpus])).next
      (.forward (.process rfl))
    have hfirst := (hprocessed.next
      (.forward (@Forwarding.Step.start _ _ _ 0 _ _ rfl rfl rfl))).next
        (.forward (@Forwarding.Step.acquire _ _ _ 0 _ rfl rfl (by decide)))
    have hwaiting := hfirst.next (@Step.build _ _ _ 0 _ 0 rfl rfl rfl)
    have hput := (hwaiting.next (.forward (@Forwarding.Step.start _ _ _ 1 _ _ rfl rfl rfl))).next
      (@Step.put _ _ _ 0 _ _ rfl rfl rfl rfl)
    have hagain := ((hput.next (@Step.recv _ _ _ 0 _ _ rfl rfl)).next
      (@Step.wake _ _ _ 0 _ rfl rfl)).next (@Step.build _ _ _ 0 _ 0 rfl rfl rfl)
    have hlost := hagain.next (@Step.put _ _ _ 0 _ _ rfl rfl rfl rfl)
    refine ⟨_, hlost, fun h => ?_, rfl⟩
    revert h
    simp only [NoPeakLost]
    decide

end Feeding

end Mtransaction
