import Mtransaction.Client.GrpcClient
import Mtransaction.Lib.Decimal

/-!
# Pings and pongs

`server/grpc_server.rs` pings every connection every ten seconds and the client answers.  Pings wait
behind transactions in the connection's channel, both directions of the network deliver in order but
late, and pongs come in between metrics.  What the server observes is set against what it sent.
-/

namespace Mtransaction

open Runs

/-! ## One connection, at both ends -/

/-- Instants are nanoseconds. -/
structure Ping where
  id : UInt64
  issuedAt : ℕ
  deriving DecidableEq, Repr

/-- `id.to_string()` -/
def Ping.text (ping : Ping) : String := toString ping.id.toNat

def buildPingMessageEnvelope (id : String) : ResponseMessageEnvelope := { ping := some ⟨id⟩ }

/-- The capacity of a consumer's channel. -/
def consumerChannelCapacity : ℕ := 100

/-- Ten seconds. -/
def pingInterval : ℕ := 10000000000

/-- An instant is a number of seconds below 2⁶³ and its nanoseconds. -/
def instantLimit : ℕ := 2 ^ 63 * 1000000000

inductive PingPhase
  /-- in `select!` -/
  | looping
  /-- waiting for room in the channel -/
  | sending (ping : Ping)
  /-- out of the loop -/
  | ended
  deriving DecidableEq, Repr

/-- A connection of `tx_stream`: the task's variables, what is on the way to the client and back,
and the history of its pings and of the pongs handled. -/
structure PingConn where
  identity : String
  /-- what the client calls the server -/
  source : String
  /-- the iterator behind `ping_hint_stream`, and when the stream yields again -/
  hint : UInt64
  ready : ℕ
  lastPing : Ping
  phase : PingPhase
  channel : List ResponseMessageEnvelope
  receiverDropped : Bool
  downlink : List (Except Status ResponseMessageEnvelope)
  uplink : List (Except Status RequestMessageEnvelope)
  issued : List Ping
  sent : List Ping
  handled : List String

/-- What `CLIENT_PING_RTT` is told: for which connection and pong, and the microseconds. -/
structure Observation where
  conn : ℕ
  identity : String
  pongId : String
  micros : ℕ
  deriving DecidableEq, Repr

structure PingPong where
  now : ℕ
  conns : List PingConn

inductive PingEvent
  | tick (nanos : ℕ)
  /-- `tx_stream` is called -/
  | txStream (identity source : String)
  /-- the hint stream yields -/
  | ping (n : ℕ)
  | sendPing (n : ℕ)
  | sendPingFails (n : ℕ)
  | publish (n : ℕ) (signature data : String) (tpu : List String)
  /-- the response stream takes a message from the channel -/
  | pump (n : ℕ)
  | downError (n : ℕ) (status : Status)
  /-- the client handles a response; `taken` says whether its request stream is still read -/
  | answer (n : ℕ) (taken : Bool)
  | metrics (n : ℕ) (metrics : ClientMetrics)
  | upError (n : ℕ) (status : Status)
  /-- the task handles a request -/
  | handle (n : ℕ)
  | dropReceiver (n : ℕ)
  | stop (n : ℕ)

namespace PingConn

/-- `Ping::new` and the stream over it; the first ping is due at once. -/
def new (now : ℕ) (identity source : String) : PingConn :=
  ⟨identity, source, 0, now, ⟨0, now⟩, .looping, [], false, [], [], [], [], []⟩

/-- The next ping of the iterator. -/
def nextPing (conn : PingConn) (now : ℕ) : Ping := ⟨conn.hint + 1, now⟩

def issue (conn : PingConn) (now : ℕ) : PingConn :=
  { conn with
    hint := conn.hint + 1
    ready := now + pingInterval
    -- before the ping is sent
    lastPing := conn.nextPing now
    phase := .sending (conn.nextPing now)
    issued := conn.issued ++ [conn.nextPing now] }

def sendPing (conn : PingConn) (ping : Ping) : PingConn :=
  { conn with
    phase := .looping
    channel := conn.channel ++ [buildPingMessageEnvelope ping.text]
    sent := conn.sent ++ [ping] }

def answer (conn : PingConn) (taken : Bool) (response : Except Status ResponseMessageEnvelope)
    (rest : List (Except Status ResponseMessageEnvelope)) : PingConn :=
  { conn with
    downlink := rest
    uplink := if taken then
        conn.uplink ++ (processUpstreamMessage conn.source response).1.map .ok
      else conn.uplink }

end PingConn

/-- The pong of a request, if it has one. -/
def pongId : Except Status RequestMessageEnvelope → Option String
  | .ok envelope => envelope.pong.map Pong.id
  | .error _ => none

def pingId : Except Status ResponseMessageEnvelope → Option String
  | .ok envelope => envelope.ping.map PingMessage.id
  | .error _ => none

def handleClientPong (now n : ℕ) (identity : String) (pong : Pong) (lastPing : Ping) :
    Option Observation :=
  if lastPing.text = pong.id then
    some ⟨n, identity, pong.id, (now - lastPing.issuedAt) / 1000⟩
  else none

/-- The part of `handle_client_request` that concerns pongs. -/
def handleClientRequest (now n : ℕ) (identity : String)
    (request : Except Status RequestMessageEnvelope) (lastPing : Ping) : Option Observation :=
  match request with
  | .ok envelope =>
    match envelope.pong with
    | some pong => handleClientPong now n identity pong lastPing
    | none => none
  -- logged
  | .error _ => none

namespace PingPong

def new : PingPong := ⟨0, []⟩

def setConn (s : PingPong) (n : ℕ) (conn : PingConn) : PingPong :=
  { s with conns := s.conns.set n conn }

/-- The steps of the connections' tasks at both ends and of the network. -/
inductive Step : PingPong → PingEvent → PingPong → Prop
  | tick {s : PingPong} {nanos : ℕ} (representable : s.now + nanos < instantLimit) :
      Step s (.tick nanos) { s with now := s.now + nanos }
  | txStream {s : PingPong} {identity source : String} :
      Step s (.txStream identity source)
        { s with conns := s.conns ++ [.new s.now identity source] }
  | ping {s : PingPong} {n : ℕ} {conn : PingConn} (hconn : s.conns[n]? = some conn)
      (looping : conn.phase = .looping) (ready : conn.ready ≤ s.now) :
      Step s (.ping n) (s.setConn n (conn.issue s.now))
  | sendPing {s : PingPong} {n : ℕ} {conn : PingConn} {ping : Ping}
      (hconn : s.conns[n]? = some conn) (sending : conn.phase = .sending ping)
      (isOpen : conn.receiverDropped = false)
      (room : conn.channel.length < consumerChannelCapacity) :
      Step s (.sendPing n) (s.setConn n (conn.sendPing ping))
  | sendPingFails {s : PingPong} {n : ℕ} {conn : PingConn} {ping : Ping}
      (hconn : s.conns[n]? = some conn) (sending : conn.phase = .sending ping)
      (dropped : conn.receiverDropped) :
      Step s (.sendPingFails n) (s.setConn n { conn with phase := .ended })
  | publish {s : PingPong} {n : ℕ} {conn : PingConn} {signature data : String} {tpu : List String}
      (hconn : s.conns[n]? = some conn) (isOpen : conn.receiverDropped = false)
      (room : conn.channel.length < consumerChannelCapacity) :
      Step s (.publish n signature data tpu)
        (s.setConn n
          { conn with channel := conn.channel ++ [buildTxMessageEnvelope signature data tpu] })
  | pump {s : PingPong} {n : ℕ} {conn : PingConn} {message : ResponseMessageEnvelope}
      {rest : List ResponseMessageEnvelope} (hconn : s.conns[n]? = some conn)
      (next : conn.channel = message :: rest) :
      Step s (.pump n)
        (s.setConn n { conn with channel := rest, downlink := conn.downlink ++ [.ok message] })
  | downError {s : PingPong} {n : ℕ} {conn : PingConn} {status : Status}
      (hconn : s.conns[n]? = some conn) :
      Step s (.downError n status)
        (s.setConn n { conn with downlink := conn.downlink ++ [.error status] })
  | answer {s : PingPong} {n : ℕ} {conn : PingConn} {taken : Bool}
      {response : Except Status ResponseMessageEnvelope}
      {rest : List (Except Status ResponseMessageEnvelope)} (hconn : s.conns[n]? = some conn)
      (next : conn.downlink = response :: rest) :
      Step s (.answer n taken) (s.setConn n (conn.answer taken response rest))
  | metrics {s : PingPong} {n : ℕ} {conn : PingConn} {metrics : ClientMetrics}
      (hconn : s.conns[n]? = some conn) :
      Step s (.metrics n metrics)
        (s.setConn n { conn with uplink := conn.uplink ++ [.ok { metrics := some metrics }] })
  | upError {s : PingPong} {n : ℕ} {conn : PingConn} {status : Status}
      (hconn : s.conns[n]? = some conn) :
      Step s (.upError n status)
        (s.setConn n { conn with uplink := conn.uplink ++ [.error status] })
  | handle {s : PingPong} {n : ℕ} {conn : PingConn}
      {request : Except Status RequestMessageEnvelope}
      {rest : List (Except Status RequestMessageEnvelope)} (hconn : s.conns[n]? = some conn)
      (looping : conn.phase = .looping) (next : conn.uplink = request :: rest) :
      Step s (.handle n)
        (s.setConn n
          { conn with uplink := rest, handled := conn.handled ++ (pongId request).toList })
  | dropReceiver {s : PingPong} {n : ℕ} {conn : PingConn} (hconn : s.conns[n]? = some conn) :
      Step s (.dropReceiver n) (s.setConn n { conn with receiverDropped := true })
  -- unsubscribed, the client's stream ended, or the channel closed
  | stop {s : PingPong} {n : ℕ} {conn : PingConn} (hconn : s.conns[n]? = some conn)
      (looping : conn.phase = .looping) :
      Step s (.stop n) (s.setConn n { conn with phase := .ended })

/-- The observation a step makes. -/
def observation (x : PingPong × PingEvent) : Option Observation :=
  match x.2 with
  | .handle n =>
    match x.1.conns[n]? with
    | some conn =>
      match conn.uplink with
      | request :: _ => handleClientRequest x.1.now n conn.identity request conn.lastPing
      | [] => none
    | none => none
  | _ => none

/-- An observation made in a state is for the latest ping of its connection, the only one with the
pong's id, which was sent there, and measures from that ping's own time. -/
def Matched (s : PingPong) (o : Observation) : Prop :=
  ∃ conn ping, s.conns[o.conn]? = some conn ∧ o.identity = conn.identity ∧ ping ∈ conn.sent ∧
    conn.issued.getLast? = some ping ∧ ping.text = o.pongId ∧ ping.id ≠ 0 ∧
    (∀ p ∈ conn.issued, p.text = o.pongId → p = ping) ∧ o.micros = (s.now - ping.issuedAt) / 1000

end PingPong

/-! ## What is in flight on a connection -/

namespace PingConn

variable {conn : PingConn} {now : ℕ} {ping : Ping}

/-- The ids on their way, those that will be handled first in front. -/
def inFlight (conn : PingConn) : List String :=
  conn.uplink.filterMap pongId ++
    (conn.downlink.filterMap pingId ++ conn.channel.filterMap fun m => pingId (.ok m))

/-- The pings of a connection are numbered from 1; all that is handled or in flight goes back to
different pings sent, in their order. -/
structure Sound (conn : PingConn) : Prop where
  count : conn.hint.toNat = conn.issued.length
  ids : conn.issued.map (fun p => p.id.toNat) = List.range' 1 conn.issued.length
  throttled : conn.issued.length * pingInterval ≤ conn.ready
  last : conn.issued.getLast? = some conn.lastPing ∨ conn.issued = [] ∧ conn.lastPing.id = 0
  looping : conn.phase = .looping → conn.sent = conn.issued
  sending : ∀ ping, conn.phase = .sending ping → conn.issued = conn.sent ++ [ping]
  sent : conn.sent <+: conn.issued
  ordered : (conn.handled ++ conn.inFlight).Sublist (conn.sent.map Ping.text)

theorem Sound.new (now : ℕ) (identity source : String) : Sound (.new now identity source) where
  count := rfl
  ids := rfl
  throttled := by simp [PingConn.new]
  last := .inr ⟨rfl, rfl⟩
  looping _ := rfl
  sending ping h := by simp [PingConn.new] at h
  sent := List.prefix_refl _
  ordered := by simp [PingConn.new, inFlight]

/-- No two pings of a connection have one id. -/
theorem Sound.nodup_text (h : conn.Sound) : (conn.issued.map Ping.text).Nodup := by
  have htext : conn.issued.map Ping.text =
      (conn.issued.map fun p => p.id.toNat).map toString := by
    rw [List.map_map]
    rfl
  rw [htext, h.ids]
  exact (List.nodup_range' 1).map Decimal.toString_injective

theorem Sound.id_ne_zero (h : conn.Sound) (hping : ping ∈ conn.issued) : ping.id ≠ 0 := by
  have hmem : ping.id.toNat ∈ conn.issued.map fun p => p.id.toNat := List.mem_map_of_mem hping
  rw [h.ids, List.mem_range'_1] at hmem
  intro hzero
  rw [hzero] at hmem
  exact absurd hmem.1 (by decide)

/-! ### Steps -/

/-- The clock stops before the ids wrap. -/
theorem Sound.length_lt (h : conn.Sound) (hready : conn.ready ≤ now) (hnow : now < instantLimit) :
    conn.issued.length + 1 < 2 ^ 64 := by
  have hthrottled := h.throttled
  simp only [pingInterval, instantLimit] at *
  omega

theorem Sound.issue (h : conn.Sound) (hready : conn.ready ≤ now) (hnow : now < instantLimit)
    (hphase : conn.phase = .looping) : (conn.issue now).Sound := by
  have hsent := h.looping hphase
  have hhint : (conn.hint + 1).toNat = conn.issued.length + 1 := by
    rw [UInt64.toNat_add, h.count]
    exact Nat.mod_eq_of_lt (h.length_lt hready hnow)
  constructor
  case count => simpa [PingConn.issue] using hhint
  case ids =>
    simp only [PingConn.issue, nextPing, List.map_append, List.map_singleton, h.ids, hhint,
      List.length_append, List.length_singleton, List.range'_concat]
    rw [Nat.one_mul, Nat.add_comm 1]
  case throttled =>
    have hthrottled := h.throttled
    simp only [PingConn.issue, List.length_append, List.length_singleton, Nat.add_mul] at *
    omega
  case last => simp [PingConn.issue]
  case looping => simp [PingConn.issue]
  case sending =>
    intro ping hping
    obtain rfl := PingPhase.sending.inj hping
    show conn.issued ++ _ = conn.sent ++ _
    rw [hsent]
  case sent => exact h.sent.trans (List.prefix_append _ _)
  case ordered => exact h.ordered

theorem Sound.sendPing (h : conn.Sound) (hphase : conn.phase = .sending ping) :
    (conn.sendPing ping).Sound := by
  have hissued := h.sending ping hphase
  refine ⟨h.count, h.ids, h.throttled, h.last, fun _ => hissued.symm, ?_, ?_, ?_⟩
  · simp [PingConn.sendPing]
  · exact hissued ▸ List.prefix_refl _
  · -- the ping goes to the very end of what is in flight
    have hflight : (conn.sendPing ping).inFlight = conn.inFlight ++ [ping.text] := by
      simp [inFlight, PingConn.sendPing, pingId, buildPingMessageEnvelope]
    rw [hflight, ← List.append_assoc]
    simpa [PingConn.sendPing] using h.ordered.append (List.Sublist.refl [ping.text])

theorem Sound.finish (h : conn.Sound) : Sound { conn with phase := .ended } :=
  ⟨h.count, h.ids, h.throttled, h.last, by simp, by simp, h.sent, h.ordered⟩

/-- Messages move on without overtaking each other; some may be lost. -/
theorem Sound.deliver {channel : List ResponseMessageEnvelope} {receiverDropped : Bool}
    {downlink : List (Except Status ResponseMessageEnvelope)}
    {uplink : List (Except Status RequestMessageEnvelope)} {handled : List String} (h : conn.Sound)
    (hflight : (handled ++ (uplink.filterMap pongId ++ (downlink.filterMap pingId ++
      channel.filterMap fun m => pingId (.ok m)))).Sublist (conn.handled ++ conn.inFlight)) :
    Sound { conn with channel, receiverDropped, downlink, uplink, handled } :=
  ⟨h.count, h.ids, h.throttled, h.last, h.looping, h.sending, h.sent, hflight.trans h.ordered⟩

-- the client answers a ping with a pong of the same id, and anything else with nothing
theorem filterMap_pongId_processUpstreamMessage (source : String)
    (response : Except Status ResponseMessageEnvelope) :
    ((processUpstreamMessage source response).1.map Except.ok).filterMap pongId =
      (pingId response).toList := by
  cases response with
  | error status => rfl
  | ok envelope =>
    cases hping : envelope.ping <;>
      simp [processUpstreamMessage, processPing, pingId, pongId, hping]

theorem Sound.answer (h : conn.Sound) (taken : Bool)
    {response : Except Status ResponseMessageEnvelope}
    {rest : List (Except Status ResponseMessageEnvelope)}
    (hnext : conn.downlink = response :: rest) : (conn.answer taken response rest).Sound := by
  refine h.deliver (List.Sublist.append_left ?_ _)
  rw [inFlight, hnext, Runs.filterMap_cons]
  cases taken with
  | true =>
    rw [if_pos rfl, List.filterMap_append, filterMap_pongId_processUpstreamMessage]
    simp
  | false =>
    rw [if_neg (by simp)]
    refine List.Sublist.append_left (List.Sublist.append_right ?_ _) _
    exact List.sublist_append_right _ _

theorem Sound.handle (h : conn.Sound) {request : Except Status RequestMessageEnvelope}
    {rest : List (Except Status RequestMessageEnvelope)} (hnext : conn.uplink = request :: rest) :
    Sound { conn with uplink := rest, handled := conn.handled ++ (pongId request).toList } := by
  refine h.deliver ?_
  rw [inFlight, hnext, Runs.filterMap_cons]
  simp

/-- Where the pong handled has the id of `last_ping`, that ping was sent and is the latest. -/
theorem Sound.matched (h : conn.Sound) (hphase : conn.phase = .looping)
    {request : Except Status RequestMessageEnvelope}
    {rest : List (Except Status RequestMessageEnvelope)} (hnext : conn.uplink = request :: rest)
    (hpong : pongId request = some conn.lastPing.text) :
    conn.lastPing ∈ conn.sent ∧ conn.issued.getLast? = some conn.lastPing ∧
      ∀ p ∈ conn.issued, p.text = conn.lastPing.text → p = conn.lastPing := by
  have hsent := h.looping hphase
  -- the pong answers some ping that was sent, so there is a latest one
  have hflight : conn.lastPing.text ∈ conn.handled ++ conn.inFlight := by
    simp [inFlight, hnext, hpong]
  obtain ⟨p, hp, htext⟩ := List.mem_map.mp (h.ordered.subset hflight)
  have hlast : conn.issued.getLast? = some conn.lastPing := by
    rcases h.last with hlast | ⟨hnil, -⟩
    · exact hlast
    · rw [hsent, hnil] at hp
      simp at hp
  have hmem : conn.lastPing ∈ conn.issued := List.mem_of_getLast? hlast
  exact ⟨hsent ▸ hmem, hlast, fun p hp htext => List.inj_on_of_nodup_map h.nodup_text hp hmem htext⟩

end PingConn

namespace PingPong

variable {s s' : PingPong} {event : PingEvent} {tr : List (PingPong × PingEvent)}
  {o : Observation}

/-! ## All connections -/

structure Sound (s : PingPong) : Prop where
  now : s.now < instantLimit
  conns : ∀ conn ∈ s.conns, conn.Sound

theorem Sound.setConn (h : s.Sound) (n : ℕ) {conn : PingConn} (hconn : conn.Sound) :
    (s.setConn n conn).Sound :=
  ⟨h.now, Interleaving.forall_mem_set n h.conns hconn⟩

theorem Sound.step (h : s.Sound) (hs : s.Step event s') : s'.Sound := by
  have hget {n : ℕ} {conn : PingConn} (hconn : s.conns[n]? = some conn) : conn.Sound :=
    h.conns conn (List.mem_of_getElem? hconn)
  cases hs with
  | tick representable => exact ⟨representable, h.conns⟩
  | txStream =>
    refine ⟨h.now, List.forall_mem_append.mpr ⟨h.conns, ?_⟩⟩
    exact List.forall_mem_singleton.mpr (.new _ _ _)
  | ping hconn looping ready => exact h.setConn _ ((hget hconn).issue ready h.now looping)
  | sendPing hconn sending isOpen room => exact h.setConn _ ((hget hconn).sendPing sending)
  | sendPingFails hconn sending dropped => exact h.setConn _ (hget hconn).finish
  | publish hconn isOpen room =>
    refine h.setConn _ ((hget hconn).deliver ?_)
    simp [PingConn.inFlight, pingId, buildTxMessageEnvelope]
  | pump hconn next =>
    refine h.setConn _ ((hget hconn).deliver ?_)
    simp [PingConn.inFlight, next, Runs.filterMap_cons]
  | downError hconn =>
    refine h.setConn _ ((hget hconn).deliver ?_)
    simp [PingConn.inFlight, pingId]
  | answer hconn next => exact h.setConn _ ((hget hconn).answer _ next)
  | metrics hconn =>
    refine h.setConn _ ((hget hconn).deliver ?_)
    simp [PingConn.inFlight, pongId]
  | upError hconn =>
    refine h.setConn _ ((hget hconn).deliver ?_)
    simp [PingConn.inFlight, pongId]
  | handle hconn looping next => exact h.setConn _ ((hget hconn).handle next)
  | dropReceiver hconn => exact h.setConn _ ((hget hconn).deliver (.refl _))
  | stop hconn looping => exact h.setConn _ (hget hconn).finish

theorem sound_of_run (h : Run Step new tr s) : s.Sound :=
  h.invariant (P := Sound) ⟨by decide, by simp [new]⟩ fun _ _ _ _ ht hs => ht.step hs

theorem handleClientRequest_eq_some {now n : ℕ} {identity : String}
    {request : Except Status RequestMessageEnvelope} {lastPing : Ping}
    (h : handleClientRequest now n identity request lastPing = some o) :
    pongId request = some lastPing.text ∧
      o = ⟨n, identity, lastPing.text, (now - lastPing.issuedAt) / 1000⟩ := by
  unfold handleClientRequest at h
  split at h
  next envelope =>
    split at h
    next pong hpong =>
      unfold handleClientPong at h
      split at h
      next hid =>
        obtain rfl := Option.some.inj h
        rw [hid]
        exact ⟨by simp [pongId, hpong], rfl⟩
      next => simp at h
    next => simp at h
  next => simp at h

-- a step that observes handles a pong with the id of `last_ping`
theorem observation_eq_some (hs : s.Step event s') (h : observation (s, event) = some o) :
    ∃ conn request rest, s.conns[o.conn]? = some conn ∧ conn.phase = .looping ∧
      conn.uplink = request :: rest ∧ pongId request = some conn.lastPing.text ∧
      o = ⟨o.conn, conn.identity, conn.lastPing.text, (s.now - conn.lastPing.issuedAt) / 1000⟩ ∧
      s' = s.setConn o.conn
        { conn with uplink := rest, handled := conn.handled ++ [conn.lastPing.text] } := by
  cases hs with
  | @handle n conn request rest hconn looping next =>
    simp only [observation, hconn, next] at h
    obtain ⟨hpong, rfl⟩ := handleClientRequest_eq_some h
    refine ⟨conn, request, rest, hconn, looping, next, hpong, rfl, ?_⟩
    rw [hpong]
    rfl
  | _ => simp [observation] at h

theorem matched_of_step (hsound : s.Sound) (hs : s.Step event s')
    (h : observation (s, event) = some o) : s.Matched o := by
  obtain ⟨conn, request, rest, hconn, hphase, hnext, hpong, ho, -⟩ := observation_eq_some hs h
  have hc := hsound.conns conn (List.mem_of_getElem? hconn)
  obtain ⟨hsent, hlast, hunique⟩ := hc.matched hphase hnext hpong
  rw [ho]
  exact ⟨conn, conn.lastPing, hconn, rfl, hsent, hlast, rfl,
    hc.id_ne_zero (List.mem_of_getLast? hlast), hunique, rfl⟩

/-! ## Observations of a run -/

/-- The ids observed on one connection, oldest first. -/
def observedOn (tr : List (PingPong × PingEvent)) (n : ℕ) : List String :=
  ((tr.filterMap observation).filter fun o => o.conn = n).map Observation.pongId

def handledOn (s : PingPong) (n : ℕ) : List String :=
  match s.conns[n]? with
  | some conn => conn.handled
  | none => []

/-- The observations of a run: each is for the latest ping of its own connection, none is made twice
for a ping, and the id 0 of the first `last_ping` is no ping's. -/
structure Matching (tr : List (PingPong × PingEvent)) (s : PingPong) : Prop where
  matched : ∀ x ∈ tr, ∀ o, observation x = some o → x.1.Matched o
  once : ∀ n, (observedOn tr n).Nodup
  never_zero : ∀ conn ∈ s.conns, ∀ ping ∈ conn.issued, ping.id ≠ 0

theorem handledOn_setConn {m : ℕ} {conn conn' : PingConn} (hconn : s.conns[m]? = some conn)
    (h : conn.handled <+: conn'.handled) (n : ℕ) :
    s.handledOn n <+: (s.setConn m conn').handledOn n := by
  unfold handledOn setConn
  by_cases hn : m = n
  · subst hn
    rw [List.getElem?_set_self (List.getElem?_eq_some_iff.mp hconn).1, hconn]
    exact h
  · rw [List.getElem?_set_ne hn]

-- what is handled stays handled
theorem handledOn_step (hs : s.Step event s') (n : ℕ) : s.handledOn n <+: s'.handledOn n := by
  cases hs with
  | tick representable => exact List.prefix_refl _
  | txStream =>
    unfold handledOn
    by_cases hn : n < s.conns.length
    · rw [List.getElem?_append_left hn]
    · rw [List.getElem?_eq_none_iff.mpr (Nat.le_of_not_lt hn)]
      exact List.nil_prefix
  | handle hconn looping next =>
    refine handledOn_setConn hconn ?_ n
    exact List.prefix_append _ _
  | ping hconn | sendPing hconn | sendPingFails hconn | publish hconn | pump hconn | downError hconn
  | answer hconn | metrics hconn | upError hconn | dropReceiver hconn | stop hconn =>
    refine handledOn_setConn hconn ?_ n
    exact List.prefix_refl _

theorem handledOn_of_observation (hs : s.Step event s') (h : observation (s, event) = some o) :
    s'.handledOn o.conn = s.handledOn o.conn ++ [o.pongId] := by
  obtain ⟨conn, request, rest, hconn, -, -, -, ho, rfl⟩ := observation_eq_some hs h
  have hlt := (List.getElem?_eq_some_iff.mp hconn).1
  rw [ho]
  simp only [handledOn, setConn, hconn, List.getElem?_set_self hlt]

/-- Every pong observed was handled on its connection. -/
theorem observedOn_sublist (h : Run Step new tr s) (n : ℕ) :
    (observedOn tr n).Sublist (s.handledOn n) := by
  induction h with
  | nil => exact List.nil_sublist _
  | @snoc s s' tr event hr hs ih =>
    have hkept := ih.trans (handledOn_step hs n).sublist
    simp only [observedOn, Runs.filterMap_concat] at *
    cases ho : observation (s, event) with
    | none => simpa [ho] using hkept
    | some o =>
      by_cases hn : o.conn = n
      · subst hn
        rw [handledOn_of_observation hs ho]
        simpa using ih.append (List.Sublist.refl [o.pongId])
      · simpa [hn] using hkept

theorem Sound.nodup_handledOn (h : s.Sound) (n : ℕ) : (s.handledOn n).Nodup := by
  unfold handledOn
  split
  next conn hconn =>
    have hc := h.conns conn (List.mem_of_getElem? hconn)
    have hhandled := (List.sublist_append_left conn.handled conn.inFlight).trans hc.ordered
    exact hc.nodup_text.sublist (hhandled.trans (hc.sent.sublist.map _))
  next => exact List.nodup_nil

/-- Whatever the delays, the transactions and metrics in between, and the connections. -/
theorem matching_of_run (h : Run Step new tr s) : Matching tr s := by
  refine ⟨?_, fun n => ((sound_of_run h).nodup_handledOn n).sublist (observedOn_sublist h n), ?_⟩
  · induction h with
    | nil => simp
    | @snoc s s' tr event hr hs ih =>
      refine List.forall_mem_append.mpr ⟨ih, List.forall_mem_singleton.mpr fun o ho => ?_⟩
      exact matched_of_step (sound_of_run hr) hs ho
  · intro conn hconn ping hping
    exact ((sound_of_run h).conns conn hconn).id_ne_zero hping

/-- The pong of the first ping of a connection is observed; that of the second comes after the third
was issued, and is not. -/
theorem matching_late_pong : ∃ tr s, Run Step new tr s ∧ Matching tr s ∧
    tr.filterMap observation = [⟨0, "A", "1", 4⟩] ∧ s.handledOn 0 = ["1", "2"] := by
  have hfirst := (((Run.nil new).snoc (@Step.txStream _ "A" "a")).snoc
    (@Step.ping _ 0 _ rfl rfl (by decide))).snoc (@Step.sendPing _ 0 _ _ rfl rfl rfl (by decide))
  have hanswered := ((hfirst.snoc (@Step.pump _ 0 _ _ _ rfl rfl)).snoc
    (@Step.tick _ 4000 (by decide))).snoc (@Step.answer _ 0 _ true _ _ rfl rfl)
  have hobserved := hanswered.snoc (@Step.handle _ 0 _ _ _ rfl rfl rfl)
  have hsecond := ((hobserved.snoc (@Step.tick _ 10000000000 (by decide))).snoc
    (@Step.ping _ 0 _ rfl rfl (by decide))).snoc (@Step.sendPing _ 0 _ _ rfl rfl rfl (by decide))
  have hthird := ((hsecond.snoc (@Step.tick _ 10000000000 (by decide))).snoc
    (@Step.ping _ 0 _ rfl rfl (by decide))).snoc (@Step.sendPing _ 0 _ _ rfl rfl rfl (by decide))
  have hlate := ((hthird.snoc (@Step.pump _ 0 _ _ _ rfl rfl)).snoc
    (@Step.answer _ 0 _ true _ _ rfl rfl)).snoc (@Step.handle _ 0 _ _ _ rfl rfl rfl)
  exact ⟨_, _, hlate, matching_of_run hlate, by decide, by decide⟩

end PingPong

end Mtransaction
