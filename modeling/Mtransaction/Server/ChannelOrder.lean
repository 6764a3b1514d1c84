import Mtransaction.Server.LockedServer

/-!
# What a consumer's channel holds

Calls of `publish` and pings put messages on a channel, the response stream takes them off.  Nothing
else touches them, and nobody puts a message on a full channel.
-/

namespace Mtransaction

open Runs

namespace LockedServer

variable {s s' : LockedServer} {event : LockEvent} {tr : List (LockedServer × LockEvent)}

/-- The message a step puts on a channel. -/
def enqueues : LockedServer × LockEvent → Option (ConnId × ResponseMessageEnvelope)
  | (s, .send n) =>
    match s.publishing[n]? with
    | some call =>
      match call.remaining with
      | pick :: _ =>
        if s.accepts pick.1.tx then
          some (pick.1.tx,
            buildTxMessageEnvelope call.signature call.data (pickTpus call.tpuOrder pick.2))
        else none
      | [] => none
    | none => none
  | (_, .ping conn id) => some (conn, { ping := some ⟨id⟩ })
  | _ => none

/-- The message a step puts on this channel. -/
def enqueuesOn (conn : ConnId) (x : LockedServer × LockEvent) : Option ResponseMessageEnvelope :=
  ((enqueues x).filter fun e => e.1 = conn).map Prod.snd

/-- The messages waiting on a channel; none before the channel is made. -/
def pending (s : LockedServer) (conn : ConnId) : List ResponseMessageEnvelope :=
  ((s.channels[conn]?).map Channel.pending).getD []

theorem pending_push {conn conn' : ConnId} {message : ResponseMessageEnvelope}
    (hconn : s.accepts conn) :
    (s.push conn message).pending conn' =
      s.pending conn' ++ if conn = conn' then [message] else [] := by
  simp only [pending, push, List.getElem?_modify]
  split
  next h =>
    subst h
    cases hch : s.channels[conn]? with
    | none => simp [accepts, hch] at hconn
    | some ch => rfl
  next h => simp

theorem pending_write (s : LockedServer) (op : WriteOp) (conn : ConnId) :
    (s.write op).pending conn = s.pending conn := by
  cases op with
  | subscribe identity token =>
    show (((s.channels ++ [⟨[], false⟩])[conn]?).map Channel.pending).getD [] =
      ((s.channels[conn]?).map Channel.pending).getD []
    rw [List.getElem?_append]
    split
    · rfl
    next hlt =>
      -- a new channel is empty
      rw [List.getElem?_eq_none (Nat.le_of_not_lt hlt)]
      cases conn - s.channels.length <;> rfl
  | updateRtt identity value =>
    unfold LockedServer.write
    dsimp only
    split <;> rfl
  | _ => rfl

theorem enqueuesOn_eq {conn conn' : ConnId} {message : ResponseMessageEnvelope}
    {x : LockedServer × LockEvent} (h : enqueues x = some (conn, message)) :
    (enqueuesOn conn' x).toList = if conn = conn' then [message] else [] := by
  rw [enqueuesOn, h]
  by_cases hconn : conn = conn' <;> simp [hconn]

theorem enqueuesOn_of_none {conn : ConnId} {x : LockedServer × LockEvent}
    (h : enqueues x = none) : (enqueuesOn conn x).toList = [] := by
  rw [enqueuesOn, h]
  rfl

theorem enqueues_send {n : ℕ} {call : PublishCall} {pick : Pick} {rest : List Pick}
    (hcall : s.publishing[n]? = some call) (next : call.remaining = pick :: rest) :
    enqueues (s, .send n) = if s.accepts pick.1.tx then
      some (pick.1.tx,
        buildTxMessageEnvelope call.signature call.data (pickTpus call.tpuOrder pick.2))
      else none := by
  simp only [enqueues, hcall, next]

/-- Whatever happens but a receive, a channel keeps its messages and gets those put on it. -/
theorem pending_step (hs : Step s event s') (hrecv : ∀ c, event ≠ .recv c) (conn : ConnId) :
    s'.pending conn = s.pending conn ++ (enqueuesOn conn (s, event)).toList := by
  cases hs with
  | recv => exact absurd rfl (hrecv _)
  | request | finish =>
    rw [enqueuesOn_of_none rfl, List.append_nil]
    rfl
  | grantRead running next =>
    rw [enqueuesOn_of_none rfl, List.append_nil]
    unfold LockedServer.startPublish
    split <;> rfl
  | grantWrite running next idle =>
    rw [enqueuesOn_of_none rfl, List.append_nil, pending_write]
    rfl
  | @send n call pick rest running hcall next room =>
    have henqueues := enqueues_send hcall next
    cases haccepts : s.accepts pick.1.tx with
    | true =>
      rw [haccepts, if_pos rfl] at henqueues
      rw [enqueuesOn_eq henqueues, ← pending_push haccepts]
      simp only [pending, LockedServer.send, haccepts, if_true]
    | false =>
      rw [haccepts, if_neg (by simp)] at henqueues
      rw [enqueuesOn_of_none henqueues, List.append_nil]
      simp [pending, LockedServer.send, haccepts]
  | ping running receiving room =>
    rw [enqueuesOn_eq rfl, pending_push receiving]
  | @dropReceiver conn' =>
    rw [enqueuesOn_of_none rfl, List.append_nil]
    simp only [pending, List.getElem?_modify]
    cases s.channels[conn]? with
    | none => rfl
    | some ch => by_cases h : conn' = conn <;> simp [h]

-- a receive takes the oldest message of its own channel
theorem pending_recv {conn : ConnId} (hs : Step s (.recv conn) s') (conn' : ConnId) :
    s'.pending conn' = if conn = conn' then (s.pending conn').tail else s.pending conn' := by
  cases hs
  simp only [pending, List.getElem?_modify]
  cases s.channels[conn']? with
  | none => simp
  | some ch => by_cases h : conn = conn' <;> simp [h]

/-- Channels are made by `subscribe` alone. -/
theorem length_channels_step (hs : Step s event s')
    (hother : event = .grant → ∀ identity token rest,
      s.waiting ≠ .write (.subscribe identity token) :: rest) :
    s'.channels.length = s.channels.length := by
  cases hs with
  | grantRead running next =>
    unfold LockedServer.startPublish
    split <;> rfl
  | @grantWrite op rest running next idle =>
    cases op with
    | subscribe identity token => exact absurd next (hother rfl _ _ _)
    | updateRtt identity value =>
      unfold LockedServer.write
      dsimp only
      split <;> rfl
    | _ => rfl
  | @send n call pick rest running hcall next room =>
    simp only [LockedServer.send]
    split <;> simp [push]
  | request | finish => rfl
  | ping | recv | dropReceiver => simp [push]

theorem length_channels_subscribe (hs : Step s .grant s') {identity token : String}
    {rest : List LockRequest} (next : s.waiting = .write (.subscribe identity token) :: rest) :
    s'.channels.length = s.channels.length + 1 := by
  cases hs with
  | grantRead running next' => simp [next] at next'
  | grantWrite running next' idle =>
    obtain ⟨rfl, -⟩ : WriteOp.subscribe identity token = _ ∧ rest = _ := by
      simpa [next] using next'
    simp [LockedServer.write]

theorem lt_capacity_of_room {conn : ConnId} (hconn : s.accepts conn) (room : ¬ s.Full conn) :
    (s.pending conn).length < channelCapacity := by
  cases hch : s.channels[conn]? with
  | none => simp [accepts, hch] at hconn
  | some ch =>
    have hopen : ch.receiverDropped = false := by simpa [accepts, hch] using hconn
    have hlt : ¬ channelCapacity ≤ ch.pending.length := fun hge =>
      room ⟨ch, hch, by simp [Channel.full, hopen, hge]⟩
    simpa [pending, hch] using hlt

-- a message is only put on a channel that is open and has room
theorem room_of_enqueues (hs : Step s event s') {conn : ConnId}
    {message : ResponseMessageEnvelope} (h : enqueues (s, event) = some (conn, message)) :
    s.accepts conn ∧ (s.pending conn).length < channelCapacity := by
  cases hs with
  | @send n call pick rest running hcall next room =>
    rw [enqueues_send hcall next] at h
    split at h
    next haccepts =>
      obtain ⟨rfl, -⟩ := Prod.mk.inj (Option.some.inj h)
      exact ⟨haccepts, lt_capacity_of_room haccepts room⟩
    next => simp at h
  | ping running receiving room =>
    obtain ⟨rfl, -⟩ := Prod.mk.inj (Option.some.inj h)
    exact ⟨receiving, lt_capacity_of_room receiving room⟩
  | _ => simp [enqueues] at h

theorem pending_bounded_step (hs : Step s event s')
    (h : ∀ conn, (s.pending conn).length ≤ channelCapacity) (conn : ConnId) :
    (s'.pending conn).length ≤ channelCapacity := by
  by_cases hrecv : ∃ c, event = .recv c
  · obtain ⟨c, rfl⟩ := hrecv
    rw [pending_recv hs]
    split
    · have := h conn
      rw [List.length_tail]
      omega
    · exact h conn
  · rw [pending_step hs (fun c hc => hrecv ⟨c, hc⟩)]
    cases henqueues : enqueues (s, event) with
    | none =>
      rw [enqueuesOn_of_none henqueues, List.append_nil]
      exact h conn
    | some e =>
      have hroom := (room_of_enqueues hs henqueues).2
      rw [enqueuesOn_eq henqueues]
      split
      next hconn =>
        rw [List.length_append, List.length_singleton, ← hconn]
        exact hroom
      next => simpa using h conn

end LockedServer

end Mtransaction
