import Mtransaction.Server.TxStream

/-!
# The balancer's lock and the consumers' channels

`publish` keeps the read lock while it sends to one consumer after the other, and waits where a
channel is full.  tokio's `RwLock` serves requests in the order they come: a waiting writer holds up
the readers behind it.  What is done under the write lock does not wait for anything, so it is one
step.
-/

namespace Mtransaction

open Runs

/-- The argument of `mpsc::channel` in `subscribe`. -/
def channelCapacity : ℕ := 100

structure Channel where
  pending : List ResponseMessageEnvelope
  receiverDropped : Bool

def Channel.full (ch : Channel) : Bool :=
  !ch.receiverDropped && decide (channelCapacity ≤ ch.pending.length)

/-- A task that is about to call `publish`. -/
structure PublishRequest where
  order : HashOrder (String × TxConsumer)
  rng : Rng
  tpuOrder : HashOrder String
  session : SignatureRecord
  signature : String
  data : String

/-- What is done under the write lock. -/
inductive WriteOp
  /-- `set_leaders` and `flush_unsubscribes` -/
  | setLeaders (leaderTpus : List LeaderInfo) (leaders : HashMap String LeaderInfo)
      (o : HashOrder (String × TxConsumer))
  | subscribe (identity token : String)
  | unsubscribe (identity token : String)
  | updateStakeWeights (stakeWeights : HashMap String UInt64)
  | updateRtt (identity : String) (value : Rtt)

inductive LockRequest
  | read (request : PublishRequest)
  | write (op : WriteOp)

/-- `publishing` are the holders of the read lock, `waiting` the requests for the lock, first come
first.  Channels are numbered by `subscribe`. -/
structure LockedServer where
  balancer : Balancer
  channels : List Channel
  publishing : List PublishCall
  waiting : List LockRequest
  exited : Option Panic

inductive LockEvent
  | request (request : LockRequest)
  /-- the first in the queue gets the lock -/
  | grant
  | send (n : ℕ)
  | finish (n : ℕ)
  | ping (conn : ConnId) (id : String)
  | recv (conn : ConnId)
  | dropReceiver (conn : ConnId)

namespace LockedServer

def new : LockedServer := ⟨.new, [], [], [], none⟩

def Full (s : LockedServer) (conn : ConnId) : Prop :=
  ∃ ch, s.channels[conn]? = some ch ∧ ch.full = true

/-- One more message and the channel is full. -/
def LastSlot (s : LockedServer) (conn : ConnId) : Prop :=
  ∃ ch, s.channels[conn]? = some ch ∧ ch.receiverDropped = false ∧
    ch.pending.length + 1 = channelCapacity

def push (s : LockedServer) (conn : ConnId) (message : ResponseMessageEnvelope) : LockedServer :=
  { s with channels := s.channels.modify conn fun ch =>
      { ch with pending := ch.pending ++ [message] } }

def accepts (s : LockedServer) (conn : ConnId) : Bool :=
  match s.channels[conn]? with
  | some ch => !ch.receiverDropped
  | none => false

/-- `publish` from the read lock to its first send. -/
def startPublish (s : LockedServer) (request : PublishRequest) : LockedServer :=
  match s.balancer.pickConsumers request.order request.rng with
  | .ok picks =>
    { s with
      publishing := s.publishing ++
        [⟨request.tpuOrder, request.signature, request.data, request.session, [], picks⟩] }
  | .error panic => { s with exited := some panic }

def send (s : LockedServer) (n : ℕ) (call : PublishCall) (pick : Pick) (rest : List Pick) :
    LockedServer :=
  let accepted := s.accepts pick.1.tx
  let st := publishSend call.tpuOrder call.signature call.data accepted
    ⟨s.balancer, call.session, call.delivered⟩ pick
  let message := buildTxMessageEnvelope call.signature call.data (pickTpus call.tpuOrder pick.2)
  { s with
    balancer := st.balancer
    channels := if accepted then (s.push pick.1.tx message).channels else s.channels
    publishing := s.publishing.set n
      { call with session := st.session, delivered := st.delivered, remaining := rest } }

def write (s : LockedServer) : WriteOp → LockedServer
  | .setLeaders leaderTpus leaders o =>
    { s with balancer := (s.balancer.setLeaders leaderTpus leaders).flushUnsubscribes o }
  | .subscribe identity token =>
    { s with
      balancer := s.balancer.subscribe identity token s.channels.length
      channels := s.channels ++ [⟨[], false⟩] }
  | .unsubscribe identity token =>
    { s with balancer := s.balancer.unsubscribe identity token }
  | .updateStakeWeights stakeWeights =>
    { s with balancer := s.balancer.updateStakeWeights stakeWeights }
  | .updateRtt identity value =>
    match s.balancer.updateRtt identity value with
    | .ok balancer => { s with balancer }
    | .error panic => { s with exited := some panic }

/-- The steps of all tasks, and of the clients at the other end of the channels. -/
inductive Step : LockedServer → LockEvent → LockedServer → Prop
  | request {s : LockedServer} {request : LockRequest} (running : s.exited = none) :
      Step s (.request request) { s with waiting := s.waiting ++ [request] }
  | grantRead {s : LockedServer} {request : PublishRequest} {rest : List LockRequest}
      (running : s.exited = none) (next : s.waiting = .read request :: rest) :
      Step s .grant ({ s with waiting := rest }.startPublish request)
  | grantWrite {s : LockedServer} {op : WriteOp} {rest : List LockRequest}
      (running : s.exited = none) (next : s.waiting = .write op :: rest)
      (idle : s.publishing = []) : Step s .grant ({ s with waiting := rest }.write op)
  | send {s : LockedServer} {n : ℕ} {call : PublishCall} {pick : Pick} {rest : List Pick}
      (running : s.exited = none) (hcall : s.publishing[n]? = some call)
      (next : call.remaining = pick :: rest) (room : ¬ s.Full pick.1.tx) :
      Step s (.send n) (s.send n call pick rest)
  | finish {s : LockedServer} {n : ℕ} {call : PublishCall} (running : s.exited = none)
      (hcall : s.publishing[n]? = some call) (done : call.remaining = []) :
      Step s (.finish n) { s with publishing := s.publishing.eraseIdx n }
  | ping {s : LockedServer} {conn : ConnId} {id : String} (running : s.exited = none)
      (receiving : s.accepts conn) (room : ¬ s.Full conn) :
      Step s (.ping conn id) (s.push conn { ping := some ⟨id⟩ })
  | recv {s : LockedServer} {conn : ConnId} (running : s.exited = none) :
      Step s (.recv conn)
        { s with channels := s.channels.modify conn fun ch =>
            { ch with pending := ch.pending.tail } }
  | dropReceiver {s : LockedServer} {conn : ConnId} (running : s.exited = none) :
      Step s (.dropReceiver conn)
        { s with channels := s.channels.modify conn fun ch =>
            { ch with receiverDropped := true } }

/-- The consumer of channel `a` is connected and does not receive; all others have room; and some
call of `publish` still has another consumer to serve, or some writer waits. -/
structure Stalls (s : LockedServer) (a : ConnId) : Prop where
  running : s.exited = none
  connected : ∃ identity c, s.balancer.txConsumers.lookup identity = some c ∧ c.tx = a
  undropped : ∃ ch, s.channels[a]? = some ch ∧ ch.receiverDropped = false
  others : ∀ identity c, s.balancer.txConsumers.lookup identity = some c → c.tx ≠ a →
    ¬ s.Full c.tx
  demand : (∃ call ∈ s.publishing, ∃ pick ∈ call.remaining, pick.1.tx ≠ a) ∨
    ∃ op, .write op ∈ s.waiting

/-- The event is a step of such a call, or brings such a writer nearer to the lock: it waits for the
calls in progress to end, and for those ahead of it in the queue. -/
inductive Advances (s : LockedServer) (a : ConnId) : LockEvent → Prop
  | serve {n : ℕ} {call : PublishCall} {pick : Pick} (hcall : s.publishing[n]? = some call)
      (hpick : pick ∈ call.remaining) (other : pick.1.tx ≠ a) : Advances s a (.send n)
  | send {n : ℕ} {op : WriteOp} (hwriter : .write op ∈ s.waiting) : Advances s a (.send n)
  | finish {n : ℕ} {op : WriteOp} (hwriter : .write op ∈ s.waiting) : Advances s a (.finish n)
  | grant {op : WriteOp} (hwriter : .write op ∈ s.waiting) : Advances s a .grant

/-- Whoever stalls, the service goes on. -/
def Progressing (s : LockedServer) : Prop :=
  ∀ a, s.Stalls a → ∃ event s', s.Advances a event ∧ Step s event s'

def remaining (s : LockedServer) : List (List Pick) := s.publishing.map PublishCall.remaining

/-- The next of these sends goes to this channel. -/
def Awaits (picks : List Pick) (conn : ConnId) : Prop := ∃ pick ∈ picks.head?, pick.1.tx = conn

/-- A call with these sends left may wait for room: it has nobody else to serve, and no writer is
waiting for the lock. -/
def MayWait (waiting : List LockRequest) (picks : List Pick) : Prop :=
  (∀ pick ∈ picks, ∀ other ∈ picks, other.1.tx = pick.1.tx) ∧ ∀ op, .write op ∉ waiting

/-- The step leaves no call of `publish` in front of a full channel that may not wait there: not the
call that gets the lock, nor the one that sends, nor those that come next to the channel whose last
slot the step takes.  And a writer asks for the lock only while no call waits. -/
def Flows (s : LockedServer) : LockEvent → Prop
  | .request (.write _) => ∀ picks ∈ s.remaining, ∀ conn, Awaits picks conn → ¬ s.Full conn
  | .grant => ∀ request rest picks, s.waiting = .read request :: rest →
      s.balancer.pickConsumers request.order request.rng = .ok picks →
        ∀ conn, Awaits picks conn → s.Full conn → MayWait rest picks
  | .send n => ∀ call pick rest, s.publishing[n]? = some call → call.remaining = pick :: rest →
      (∀ conn, Awaits rest conn → s.Full conn → MayWait s.waiting rest) ∧
        (s.LastSlot pick.1.tx → ∀ picks ∈ s.remaining.set n rest, Awaits picks pick.1.tx →
          MayWait s.waiting picks)
  | .ping conn _ => s.LastSlot conn → ∀ picks ∈ s.remaining, Awaits picks conn →
      MayWait s.waiting picks
  | _ => True

/-! ## Channels fill up one message at a time -/

section Channels

variable {s : LockedServer} {conn conn' : ConnId}

theorem full_of_channels {s s' : LockedServer} (h : s'.channels = s.channels) :
    s'.Full conn ↔ s.Full conn := by
  unfold Full
  rw [h]

theorem full_of_push {message : ResponseMessageEnvelope} (h : (s.push conn message).Full conn') :
    s.Full conn' ∨ (conn' = conn ∧ s.LastSlot conn) := by
  obtain ⟨ch, hch, hfull⟩ := h
  simp only [push, List.getElem?_modify] at hch
  cases hold : s.channels[conn']? with
  | none => simp [hold] at hch
  | some old =>
    rw [hold] at hch
    by_cases hconn : conn = conn'
    · subst hconn
      obtain rfl : { old with pending := old.pending ++ [message] } = ch := by simpa using hch
      simp only [Channel.full, List.length_append, List.length_singleton, Bool.and_eq_true,
        Bool.not_eq_true', decide_eq_true_eq] at hfull
      obtain ⟨hopen, hlen⟩ := hfull
      by_cases hlast : old.pending.length + 1 = channelCapacity
      · exact .inr ⟨rfl, old, hold, hopen, hlast⟩
      · refine .inl ⟨old, hold, ?_⟩
        simp only [Channel.full, hopen, Bool.not_false, Bool.true_and, decide_eq_true_eq]
        omega
    · obtain rfl : old = ch := by simpa [hconn] using hch
      exact .inl ⟨old, hold, hfull⟩

theorem full_of_modify {f : Channel → Channel} (hf : ∀ ch, (f ch).full = true → ch.full = true)
    (h : Full { s with channels := s.channels.modify conn f } conn') : s.Full conn' := by
  obtain ⟨ch, hch, hfull⟩ := h
  simp only [List.getElem?_modify] at hch
  cases hold : s.channels[conn']? with
  | none => simp [hold] at hch
  | some old =>
    rw [hold] at hch
    by_cases hconn : conn = conn'
    · obtain rfl : f old = ch := by simpa [hconn] using hch
      exact ⟨old, hold, hf old hfull⟩
    · obtain rfl : old = ch := by simpa [hconn] using hch
      exact ⟨old, hold, hfull⟩

theorem full_tail (ch : Channel) (h : Channel.full { ch with pending := ch.pending.tail } = true) :
    ch.full = true := by
  simp only [Channel.full, Bool.and_eq_true, List.length_tail, decide_eq_true_eq] at h ⊢
  exact ⟨h.1, by omega⟩

theorem not_full_dropped (ch : Channel) :
    Channel.full { ch with receiverDropped := true } = false := rfl

end Channels

/-! ## Runs in which no call holds anybody up -/

section Runs

variable {s s' : LockedServer} {event : LockEvent} {tr : List (LockedServer × LockEvent)}

/-- A call in front of a full channel may wait there. -/
def HoldsNobodyUp (s : LockedServer) : Prop :=
  ∀ picks ∈ s.remaining, ∀ conn, Awaits picks conn → s.Full conn → MayWait s.waiting picks

/-- Whoever is picked stays connected, since no writer gets the lock meanwhile. -/
def PicksConnected (s : LockedServer) : Prop :=
  ∀ picks ∈ s.remaining, ∀ pick ∈ picks,
    ∃ identity c, s.balancer.txConsumers.lookup identity = some c ∧ c.tx = pick.1.tx

theorem MayWait.of_subset {waiting waiting' : List LockRequest} {picks : List Pick}
    (h : MayWait waiting picks) (hsub : ∀ op, .write op ∈ waiting' → .write op ∈ waiting) :
    MayWait waiting' picks :=
  ⟨h.1, fun op hop => h.2 op (hsub op hop)⟩

-- a writer has the lock for itself
theorem remaining_write (hidle : s.publishing = []) (op : WriteOp) : (s.write op).remaining = [] := by
  have hpublishing : (s.write op).publishing = [] := by
    cases op with
    | updateRtt identity value =>
      unfold LockedServer.write
      dsimp only
      split <;> exact hidle
    | _ => exact hidle
  rw [remaining, hpublishing]
  rfl

theorem remaining_send (s : LockedServer) (n : ℕ) (call : PublishCall) (pick : Pick)
    (rest : List Pick) : (s.send n call pick rest).remaining = s.remaining.set n rest := by
  show (s.publishing.set n _).map PublishCall.remaining = _
  rw [List.map_set]
  rfl

theorem remaining_finish_subset (s : LockedServer) (n : ℕ) :
    remaining { s with publishing := s.publishing.eraseIdx n } ⊆ s.remaining :=
  ((List.eraseIdx_sublist _ _).map _).subset

theorem full_of_send {n : ℕ} {call : PublishCall} {pick : Pick} {rest : List Pick} {conn : ConnId}
    (h : (s.send n call pick rest).Full conn) :
    s.Full conn ∨ (conn = pick.1.tx ∧ s.LastSlot pick.1.tx) := by
  cases haccepts : s.accepts pick.1.tx with
  | true =>
    have hpush : (s.send n call pick rest).channels = (s.push pick.1.tx (buildTxMessageEnvelope
        call.signature call.data (pickTpus call.tpuOrder pick.2))).channels := by
      simp only [LockedServer.send, haccepts, if_true]
    exact full_of_push ((full_of_channels hpush).mp h)
  | false =>
    have hsame : (s.send n call pick rest).channels = s.channels := by
      simp [LockedServer.send, haccepts]
    exact .inl ((full_of_channels hsame).mp h)

/-! ### What every step keeps -/

theorem HoldsNobodyUp.startPublish (h : s.HoldsNobodyUp) {request : PublishRequest}
    {rest : List LockRequest} (hrest : ∀ op, .write op ∈ rest → .write op ∈ s.waiting)
    (hnew : ∀ picks, s.balancer.pickConsumers request.order request.rng = .ok picks →
      ∀ conn, Awaits picks conn → s.Full conn → MayWait rest picks) :
    (LockedServer.startPublish { s with waiting := rest } request).HoldsNobodyUp := by
  unfold LockedServer.startPublish
  split
  next picks hpicks =>
    intro picks' hmem conn hawaits hfull
    simp only [remaining, List.map_append, List.map_singleton, List.mem_append,
      List.mem_singleton] at hmem
    rcases hmem with hold | rfl
    · exact (h picks' hold conn hawaits hfull).of_subset hrest
    · exact hnew _ hpicks conn hawaits hfull
  next =>
    intro picks hmem conn hawaits hfull
    exact (h picks hmem conn hawaits hfull).of_subset hrest

theorem HoldsNobodyUp.send (h : s.HoldsNobodyUp) {n : ℕ} {call : PublishCall} {pick : Pick}
    {rest : List Pick} (hnext : ∀ conn, Awaits rest conn → s.Full conn → MayWait s.waiting rest)
    (hlast : s.LastSlot pick.1.tx → ∀ picks ∈ s.remaining.set n rest, Awaits picks pick.1.tx →
      MayWait s.waiting picks) :
    (s.send n call pick rest).HoldsNobodyUp := by
  intro picks hmem conn hawaits hfull
  rw [remaining_send] at hmem
  rcases full_of_send hfull with hbefore | ⟨rfl, hslot⟩
  · rcases List.mem_or_eq_of_mem_set hmem with hold | rfl
    · exact h picks hold conn hawaits hbefore
    · exact hnext conn hawaits hbefore
  · exact hlast hslot picks hmem hawaits

theorem HoldsNobodyUp.step (h : s.HoldsNobodyUp) (hs : Step s event s') (hflows : s.Flows event) :
    s'.HoldsNobodyUp := by
  cases hs with
  | @request request running =>
    intro picks hmem conn hawaits hfull
    cases request with
    | read request =>
      refine (h picks hmem conn hawaits hfull).of_subset fun op hop => ?_
      simpa using hop
    | write op => exact absurd hfull (hflows picks hmem conn hawaits)
  | @grantRead request rest running next =>
    refine h.startPublish (fun op hop => ?_) fun picks => hflows request rest picks next
    rw [next]
    exact List.mem_cons_of_mem _ hop
  | @grantWrite op rest running next idle =>
    intro picks hmem
    rw [remaining_write (s := { s with waiting := rest }) idle op] at hmem
    simp at hmem
  | send running hcall next room =>
    obtain ⟨hnext, hlast⟩ := hflows _ _ _ hcall next
    exact h.send hnext hlast
  | finish running hcall done =>
    exact fun picks hmem => h picks (s.remaining_finish_subset _ hmem)
  | ping running receiving room =>
    intro picks hmem conn hawaits hfull
    rcases full_of_push hfull with hfull | ⟨rfl, hslot⟩
    · exact h picks hmem conn hawaits hfull
    · exact hflows hslot picks hmem hawaits
  | recv running =>
    exact fun picks hmem conn hawaits hfull =>
      h picks hmem conn hawaits (full_of_modify full_tail hfull)
  | dropReceiver running =>
    refine fun picks hmem conn hawaits hfull =>
      h picks hmem conn hawaits (full_of_modify (fun ch hch => ?_) hfull)
    rw [not_full_dropped] at hch
    simp at hch

theorem PicksConnected.step (h : s.PicksConnected) (hs : Step s event s') : s'.PicksConnected := by
  cases hs with
  | request | ping | recv | dropReceiver => exact h
  | @grantRead request rest running next =>
    unfold LockedServer.startPublish
    split
    next picks hpicks =>
      intro picks' hmem pick hpick
      simp only [remaining, List.map_append, List.map_singleton, List.mem_append,
        List.mem_singleton] at hmem
      rcases hmem with hold | rfl
      · exact h picks' hold pick hpick
      · obtain ⟨identity, hc⟩ := AList.mem_values.mp (Balancer.mem_values_of_pick hpicks hpick)
        exact ⟨identity, pick.1, hc, rfl⟩
    next => exact h
  | @grantWrite op rest running next idle =>
    intro picks hmem
    rw [remaining_write (s := { s with waiting := rest }) idle op] at hmem
    simp at hmem
  | @send n call pick rest running hcall next room =>
    intro picks hmem pick' hpick'
    rw [remaining_send] at hmem
    have hbefore : ∃ identity c, s.balancer.txConsumers.lookup identity = some c ∧
        c.tx = pick'.1.tx := by
      rcases List.mem_or_eq_of_mem_set hmem with hold | rfl
      · exact h picks hold pick' hpick'
      · refine h call.remaining (List.mem_map_of_mem (List.mem_of_getElem? hcall)) pick' ?_
        rw [next]
        exact List.mem_cons_of_mem _ hpick'
    obtain ⟨identity, c, hc, htx⟩ := hbefore
    simp only [LockedServer.send, publishSend]
    split
    · exact ⟨identity, c, hc, htx⟩
    · refine ⟨identity, _, (s.balancer.lookup_flagUnsubscribe identity _).trans (by rw [hc]; rfl), ?_⟩
      split <;> exact htx
  | finish running hcall done =>
    exact fun picks hmem => h picks (s.remaining_finish_subset _ hmem)

theorem HoldsNobodyUp.progressing (h : s.HoldsNobodyUp) (hpicks : s.PicksConnected) :
    s.Progressing := by
  intro a hstalls
  rcases hstalls.demand with ⟨call, hmem, pick, hpick, hother⟩ | ⟨op, hwriter⟩
  · -- the call itself goes on
    obtain ⟨n, hcall⟩ := List.mem_iff_getElem?.mp hmem
    obtain ⟨first, rest, hnext⟩ := List.exists_cons_of_ne_nil (List.ne_nil_of_mem hpick)
    have hremaining : call.remaining ∈ s.remaining := List.mem_map_of_mem hmem
    have hroom : ¬ s.Full first.1.tx := by
      intro hfull
      -- with nobody else to serve, the call is in front of that other consumer
      have hsame := (h _ hremaining first.1.tx ⟨first, by rw [hnext]; rfl, rfl⟩ hfull).1
      have hfirst : first ∈ call.remaining := by
        rw [hnext]
        exact List.mem_cons_self
      obtain ⟨identity, c, hc, htx⟩ := hpicks _ hremaining pick hpick
      rw [hsame pick hpick first hfirst] at hfull
      exact hstalls.others identity c hc (htx ▸ hother) (htx ▸ hfull)
    exact ⟨_, _, .serve hcall hpick hother, .send hstalls.running hcall hnext hroom⟩
  · cases hpublishing : s.publishing with
    | nil =>
      -- nobody holds the lock: the first in the queue gets it
      obtain ⟨first, rest, hwaiting⟩ := List.exists_cons_of_ne_nil (List.ne_nil_of_mem hwriter)
      cases first with
      | read request => exact ⟨_, _, .grant hwriter, .grantRead hstalls.running hwaiting⟩
      | write op =>
        exact ⟨_, _, .grant hwriter, .grantWrite hstalls.running hwaiting hpublishing⟩
    | cons call calls =>
      have hcall : s.publishing[0]? = some call := by
        rw [hpublishing]
        rfl
      cases hnext : call.remaining with
      | nil => exact ⟨_, _, .finish hwriter, .finish hstalls.running hcall hnext⟩
      | cons pick rest =>
        have hroom : ¬ s.Full pick.1.tx := fun hfull =>
          (h call.remaining (List.mem_map_of_mem (List.mem_of_getElem? hcall)) pick.1.tx
            ⟨pick, by rw [hnext]; rfl, rfl⟩ hfull).2 op hwriter
        exact ⟨_, _, .send hwriter, .send hstalls.running hcall hnext hroom⟩

/-- In every run in which a call of `publish` comes in front of a full channel only where it has
nobody else to serve, and only while no writer waits, no client can stop the service by not
receiving. -/
theorem progressing_of_flows (h : Run Step new tr s) (hflows : ∀ x ∈ tr, x.1.Flows x.2) :
    (∀ x ∈ tr, x.1.Progressing) ∧ s.Progressing := by
  have hnew : new.HoldsNobodyUp ∧ new.PicksConnected := by
    constructor <;> intro picks hmem <;> simp [new, remaining] at hmem
  have hstep : ∀ t e u, (t, e) ∈ tr → t.HoldsNobodyUp ∧ t.PicksConnected → Step t e u →
      u.HoldsNobodyUp ∧ u.PicksConnected :=
    fun t e u hmem ht hs => ⟨ht.1.step hs (hflows _ hmem), ht.2.step hs⟩
  constructor
  · intro x hx
    obtain ⟨hholds, hpicks⟩ := h.invariant_mem hnew hstep x hx
    exact hholds.progressing hpicks
  · obtain ⟨hholds, hpicks⟩ := h.invariant hnew hstep
    exact hholds.progressing hpicks

end Runs

/-! ## Two clients -/

/-- "B" is connected on channel 0, and "A" on channel 1 with these messages pending. -/
def twoClients (pending : List ResponseMessageEnvelope) (publishing : List PublishCall)
    (waiting : List LockRequest) : LockedServer :=
  ⟨(Balancer.new.subscribe "B" "token-b" 0).subscribe "A" "token-a" 1,
    [⟨[], false⟩, ⟨pending, false⟩], publishing, waiting, none⟩

theorem run_twoClients :
    ∃ tr, Run Step new tr (twoClients [] [] []) ∧ ∀ x ∈ tr, x.1.Flows x.2 := by
  let oneClient (waiting : List LockRequest) : LockedServer :=
    ⟨Balancer.new.subscribe "B" "token-b" 0, [⟨[], false⟩], [], waiting, none⟩
  let subscribeB : WriteOp := .subscribe "B" "token-b"
  let subscribeA : WriteOp := .subscribe "A" "token-a"
  have hb : Step new (.request (.write subscribeB)) ⟨.new, [], [], [.write subscribeB], none⟩ :=
    .request rfl
  have hb' : Step ⟨.new, [], [], [.write subscribeB], none⟩ .grant (oneClient []) :=
    @Step.grantWrite _ subscribeB [] rfl rfl rfl
  have ha : Step (oneClient []) (.request (.write subscribeA)) (oneClient [.write subscribeA]) :=
    .request rfl
  have ha' : Step (oneClient [.write subscribeA]) .grant (twoClients [] [] []) :=
    @Step.grantWrite _ subscribeA [] rfl rfl rfl
  refine ⟨_, ((((Run.nil new).snoc hb).snoc hb').snoc ha).snoc ha', ?_⟩
  simp only [List.forall_mem_append, List.forall_mem_singleton]
  exact ⟨⟨⟨⟨by simp, by rintro _ ⟨⟩⟩, by rintro _ _ _ ⟨⟩⟩, by rintro _ ⟨⟩⟩, by rintro _ _ _ ⟨⟩⟩

/-- A transaction to be published, where every draw is the first consumer of the map. -/
def firstDraws : PublishRequest :=
  ⟨.stored, .const 0, .stored, ⟨0, 0, 0, 0, ⟨.replicate 64 0⟩, .forward, [], ∅, "unknown"⟩,
    "text", "data"⟩

/-- The call after all three draws have gone to "A". -/
def drawnThrice : PublishCall :=
  let pick : Pick := (⟨"A", 1, 1, "token-a", some 1, false⟩, [])
  ⟨firstDraws.tpuOrder, "text", "data", firstDraws.session, [], [pick, pick, pick]⟩

/-- The same with the map the other way round: all draws go to "B". -/
def lastDraws : PublishRequest := { firstDraws with order := HashOrder.stored.reversed }

def drawnOther : PublishCall :=
  let pick : Pick := (⟨"B", 1, 0, "token-b", some 0, false⟩, [])
  ⟨firstDraws.tpuOrder, "text", "data", firstDraws.session, [], [pick, pick, pick]⟩

def subscribeC : LockRequest := .write (.subscribe "C" "token-c")

section Steps

variable (pending : List ResponseMessageEnvelope)

theorem step_request : Step (twoClients pending [] []) (.request (.read firstDraws))
    (twoClients pending [] [.read firstDraws]) := .request rfl

theorem step_grant : Step (twoClients pending [] [.read firstDraws]) .grant
    (twoClients pending [drawnThrice] []) := @Step.grantRead _ firstDraws [] rfl rfl

theorem step_writer : Step (twoClients pending [drawnThrice] []) (.request subscribeC)
    (twoClients pending [drawnThrice] [subscribeC]) := .request rfl

theorem step_request_other : Step (twoClients pending [drawnThrice] []) (.request (.read lastDraws))
    (twoClients pending [drawnThrice] [.read lastDraws]) := .request rfl

theorem step_grant_other : Step (twoClients pending [drawnThrice] [.read lastDraws]) .grant
    (twoClients pending [drawnThrice, drawnOther] []) := @Step.grantRead _ lastDraws [] rfl rfl

theorem not_full_zero (publishing : List PublishCall) (waiting : List LockRequest) :
    ¬ (twoClients pending publishing waiting).Full 0 := by
  rintro ⟨ch, hch, hfull⟩
  obtain rfl : ⟨[], false⟩ = ch := Option.some.inj hch
  exact absurd hfull (by decide)

/-- Only "A" may have too many messages. -/
theorem stalls_twoClients {publishing : List PublishCall} {waiting : List LockRequest}
    (hdemand : (∃ call ∈ publishing, ∃ pick ∈ call.remaining, pick.1.tx ≠ 1) ∨
      ∃ op, .write op ∈ waiting) : Stalls (twoClients pending publishing waiting) 1 := by
  refine ⟨rfl, ⟨"A", _, rfl, rfl⟩, ⟨_, rfl, rfl⟩, ?_, hdemand⟩
  intro identity c hc hother
  have htx : c.tx = 0 := by
    simp only [twoClients, Balancer.lookup_subscribe] at hc
    split at hc
    · obtain rfl := Option.some.inj hc
      exact absurd rfl hother
    · split at hc
      · exact (Option.some.inj hc) ▸ rfl
      · simp [Balancer.new] at hc
  rw [htx]
  exact not_full_zero pending publishing waiting

end Steps

theorem run_pings {k : ℕ} (hk : k ≤ channelCapacity) :
    ∃ tr, Run Step new tr (twoClients (List.replicate k { ping := some ⟨"1"⟩ }) [] []) ∧
      ∀ x ∈ tr, x.1.Flows x.2 := by
  induction k with
  | zero => exact run_twoClients
  | succ k ih =>
    obtain ⟨tr, hrun, hflows⟩ := ih (by omega)
    have hroom : ¬ Full (twoClients (List.replicate k { ping := some ⟨"1"⟩ }) [] []) 1 := by
      rintro ⟨ch, hch, hfull⟩
      obtain rfl : ⟨List.replicate k _, false⟩ = ch := Option.some.inj hch
      simp only [Channel.full, List.length_replicate, Bool.not_false, Bool.true_and,
        decide_eq_true_eq] at hfull
      omega
    have hstep := @Step.ping _ 1 "1" rfl rfl hroom
    rw [List.replicate_succ']
    refine ⟨_, hrun.snoc hstep, ?_⟩
    simp only [List.forall_mem_append, List.forall_mem_singleton]
    exact ⟨hflows, fun _ picks hmem => by simp [twoClients, remaining] at hmem⟩

/-- "A" stops to receive, and a call waits in front of its full channel.  It has nobody else to
serve and no writer waits, and the next call serves "B". -/
theorem progressing_past_full_channel :
    ∃ s, Reachable Step new s ∧ s.Full 1 ∧ s.Stalls 1 ∧ s.Progressing ∧
      ∃ event s', s.Advances 1 event ∧ Step s event s' := by
  obtain ⟨tr, hrun, hflows⟩ := run_pings (Nat.le_refl _)
  have hfirst := (hrun.snoc (step_request _)).snoc (step_grant _)
  have hother := (hfirst.snoc (step_request_other _)).snoc (step_grant_other _)
  have hstalls : Stalls (twoClients (List.replicate channelCapacity { ping := some ⟨"1"⟩ })
      [drawnThrice, drawnOther] []) 1 :=
    stalls_twoClients _ (.inl ⟨drawnOther, by simp, _, List.mem_cons_self, by decide⟩)
  have hprogress := (progressing_of_flows hother ?_).2
  · exact ⟨_, ⟨_, hother⟩, ⟨_, rfl, by decide⟩, hstalls, hprogress, hprogress 1 hstalls⟩
  simp only [List.forall_mem_append, List.forall_mem_singleton]
  refine ⟨⟨⟨⟨hflows, trivial⟩, ?_⟩, trivial⟩, ?_⟩
  · intro request rest picks hnext hpicks conn hawaits hfull
    obtain ⟨rfl, rfl⟩ : firstDraws = request ∧ [] = rest := by simpa [twoClients] using hnext
    obtain rfl : drawnThrice.remaining = picks := Except.ok.inj hpicks
    exact ⟨by decide, by simp⟩
  · intro request rest picks hnext hpicks conn hawaits hfull
    obtain ⟨rfl, rfl⟩ : lastDraws = request ∧ [] = rest := by simpa [twoClients] using hnext
    obtain rfl : drawnOther.remaining = picks := Except.ok.inj hpicks
    obtain ⟨pick, hpick, rfl⟩ := hawaits
    obtain rfl := Option.some.inj hpick
    exact absurd hfull (not_full_zero _ _ _)

/-- 100 messages wait for "A", a call of `publish` waits to send it one more, and a new client waits
for the lock. -/
def stalledServer : LockedServer :=
  twoClients (List.replicate channelCapacity { ping := some ⟨"1"⟩ }) [drawnThrice] [subscribeC]

theorem full_stalledServer : stalledServer.Full 1 := ⟨_, rfl, by decide⟩

theorem eq_drawnThrice {n : ℕ} {call : PublishCall}
    (hcall : stalledServer.publishing[n]? = some call) : call = drawnThrice :=
  List.mem_singleton.mp (List.mem_of_getElem? hcall)

/-- No step that is left helps the call or the new client. -/
theorem not_advances_stalledServer {a : ConnId} {event : LockEvent} {s' : LockedServer}
    (hs : Step stalledServer event s') : ¬ stalledServer.Advances a event := by
  intro hadvances
  cases hs with
  | request running => cases hadvances
  | grantRead running next => exact absurd (List.cons.inj next).1 (by simp [subscribeC])
  | grantWrite running next idle => exact absurd idle (List.cons_ne_nil _ _)
  | send running hcall next room =>
    obtain rfl := eq_drawnThrice hcall
    obtain ⟨rfl, -⟩ := List.cons.inj next
    exact room full_stalledServer
  | finish running hcall done =>
    obtain rfl := eq_drawnThrice hcall
    exact absurd done (List.cons_ne_nil _ _)
  | ping running receiving room => cases hadvances
  | recv running => cases hadvances
  | dropReceiver running => cases hadvances

/-- "A" stops to receive, and with it the service stops. -/
theorem service_stopped_by_one_client :
    Reachable Step new stalledServer ∧ stalledServer.Stalls 1 ∧ ¬ stalledServer.Progressing := by
  have hstalls : stalledServer.Stalls 1 :=
    stalls_twoClients _ (.inr ⟨_, List.mem_singleton_self _⟩)
  refine ⟨?_, hstalls, fun h => ?_⟩
  · obtain ⟨tr, hrun, -⟩ := run_pings (Nat.le_refl _)
    exact ⟨_, ((hrun.snoc (step_request _)).snoc (step_grant _)).snoc (step_writer _)⟩
  · obtain ⟨event, s', hadvances, hstep⟩ := h 1 hstalls
    exact not_advances_stalledServer hstep hadvances

end LockedServer

end Mtransaction
