import Mtransaction.Client.Throttling
import Mtransaction.Server.ChannelOrder
import Mtransaction.Server.RequestGate

/-!
# The server and its clients

One server, any number of client processes, and the calls of `tx_stream` between them, from the HTTP
request that asks for a transaction to be published to the task of a client that forwards it.  Calls
may fail and be made again, and what is on its way then is lost.
-/

namespace Mtransaction

open Runs

/-- The common names of a certificate, where `none` stands for one that is not text; `none` for a
certificate that does not parse. -/
abbrev PeerCert := Option (List (Option String))

def getIdentityFromReq (peerCerts : Option (List PeerCert)) : Option String :=
  match peerCerts with
  | some certs => certs.findSome? fun cert => (cert.getD []).findSome? id
  | none => none

/-- An HTTP request for one of the two methods, and what its handler finds around it. -/
structure RpcCall where
  reqId : ℕ
  coin : Bool
  authorization : Option HeaderValue
  data : String
  config : Option SendPriorityTransactionConfig
  env : RequestEnv

/-- The handler gets as far as `publish`, with these arguments. -/
def RpcCall.Reaches (crates : Crates) (rpcConfig : RpcConfig) (call : RpcCall)
    (request : PublishRequest) : Prop :=
  ∃ state auth signature,
    metaExtractor crates rpcConfig call.reqId call.coin call.authorization = .ok state ∧
    state.auth = .ok auth ∧ Publishes crates state call.data call.config signature ∧
    request = ⟨call.env.publish.order, call.env.publish.rng, call.env.publish.tpuOrder,
      newSession call.env state auth signature, crates.signatureToString signature, call.data⟩

structure Process where
  peerCerts : Option (List PeerCert)
  client : Client

/-- A call of `tx_stream`: its variables on the server, and the connection that makes it, which has
failed `attempt` times before. -/
structure TxStreamCall where
  identity : String
  token : String
  process : ℕ
  conn : ℕ
  attempt : ℕ

/-- A call that has subscribed: what is on its way to the client and what the client has read. -/
structure Stream extends TxStreamCall where
  downlink : List ResponseMessageEnvelope
  read : List ResponseMessageEnvelope

/-- Streams are numbered like the channels they are fed from; `calls` are those whose `subscribe`
waits for the lock, in order. -/
structure Deployment where
  server : LockedServer
  processes : List Process
  calls : List TxStreamCall
  streams : List Stream

inductive DeploymentEvent
  | start (peerCerts : Option (List PeerCert)) (forwarder : TransactionForwarder) (maxPermits : ℕ)
  | rpc (call : RpcCall)
  /-- connection `n` of process `k` calls `tx_stream` -/
  | call (k n : ℕ) (token : String)
  | refuse (k n : ℕ)
  | subscribe
  | server (event : LockEvent)
  /-- the response stream takes a message from the channel -/
  | pump (conn : ConnId)
  /-- the client learns that its call is answered -/
  | answer (conn : ConnId)
  | deliver (conn : ConnId) (taken : Bool)
  | client (k : ℕ) (event : ClientEvent)

/-- Steps of the server alone. -/
def LockedServer.Own (s : LockedServer) : LockEvent → Prop
  | .request (.read _) | .request (.write (.subscribe _ _)) | .recv _ => False
  | .grant => ∀ identity token rest, s.waiting ≠ .write (.subscribe identity token) :: rest
  | _ => True

/-- Steps of a client alone, and failures of its calls. -/
def ClientEvent.Own : ClientEvent → Prop
  | .conn _ (.call (.ok _)) | .conn _ (.response _ (.ok _)) => False
  | _ => True

namespace Deployment

def new : Deployment := ⟨.new, [], [], []⟩

def setClient (s : Deployment) (k : ℕ) (process : Process) (client : Client) : Deployment :=
  { s with processes := s.processes.set k { process with client } }

def unauthenticated : Status := ⟨16, "Not authenticated!"⟩

section Step

variable {SocketAddr : Type} (crates : Crates) (rpcConfig : RpcConfig)
  (forward : ForwardCrates SocketAddr)

inductive Step : Deployment → DeploymentEvent → Deployment → Prop
  | start {s : Deployment} {peerCerts : Option (List PeerCert)} {forwarder : TransactionForwarder}
      {maxPermits : ℕ} :
      Step s (.start peerCerts forwarder maxPermits)
        { s with processes := s.processes ++ [⟨peerCerts, .new forwarder maxPermits⟩] }
  | rpc {s : Deployment} {call : RpcCall} {request : PublishRequest} {server : LockedServer}
      (reaches : call.Reaches crates rpcConfig request)
      (hstep : s.server.Step (.request (.read request)) server) :
      Step s (.rpc call) { s with server }
  | call {s : Deployment} {k n : ℕ} {identity token : String} {process : Process}
      {conn : ServerConnection} {server : LockedServer}
      (hprocess : s.processes[k]? = some process) (running : process.client.exited = none)
      (hconn : process.client.conns[n]? = some conn) (calling : conn.phase = .calling)
      (identified : getIdentityFromReq process.peerCerts = some identity)
      -- one call for each attempt
      (once : ∀ call ∈ s.calls ++ s.streams.map Stream.toTxStreamCall,
        (call.process, call.conn, call.attempt) ≠ (k, n, conn.failures))
      (hstep : s.server.Step (.request (.write (.subscribe identity token))) server) :
      Step s (.call k n token)
        { s with server, calls := s.calls ++ [⟨identity, token, k, n, conn.failures⟩] }
  | refuse {s : Deployment} {k n : ℕ} {process : Process} {client : Client}
      (hprocess : s.processes[k]? = some process)
      (anonymous : getIdentityFromReq process.peerCerts = none)
      (hstep : process.client.Step forward (.conn n (.call (.error unauthenticated))) client) :
      Step s (.refuse k n) (s.setClient k process client)
  | subscribe {s : Deployment} {call : TxStreamCall} {calls : List TxStreamCall}
      {rest : List LockRequest} {server : LockedServer}
      (next : s.server.waiting = .write (.subscribe call.identity call.token) :: rest)
      (hcall : s.calls = call :: calls) (hstep : s.server.Step .grant server) :
      Step s .subscribe { s with server, calls, streams := s.streams ++ [⟨call, [], []⟩] }
  | server {s : Deployment} {event : LockEvent} {server : LockedServer} (own : s.server.Own event)
      (hstep : s.server.Step event server) : Step s (.server event) { s with server }
  | pump {s : Deployment} {c : ConnId} {stream : Stream} {message : ResponseMessageEnvelope}
      {rest : List ResponseMessageEnvelope} {server : LockedServer}
      (hstream : s.streams[c]? = some stream)
      (next : s.server.channels[c]? = some ⟨message :: rest, false⟩)
      (hstep : s.server.Step (.recv c) server) :
      Step s (.pump c)
        { s with
          server
          streams := s.streams.set c { stream with downlink := stream.downlink ++ [message] } }
  | answer {s : Deployment} {c : ConnId} {stream : Stream} {process : Process}
      {conn : ServerConnection} {client : Client} (hstream : s.streams[c]? = some stream)
      (hprocess : s.processes[stream.process]? = some process)
      (hconn : process.client.conns[stream.conn]? = some conn)
      (current : conn.failures = stream.attempt)
      (hstep : process.client.Step forward (.conn stream.conn (.call (.ok ()))) client) :
      Step s (.answer c) (s.setClient stream.process process client)
  | deliver {s : Deployment} {c : ConnId} {taken : Bool} {stream : Stream}
      {message : ResponseMessageEnvelope} {rest : List ResponseMessageEnvelope} {process : Process}
      {conn : ServerConnection} {client : Client} (hstream : s.streams[c]? = some stream)
      (next : stream.downlink = message :: rest)
      (hprocess : s.processes[stream.process]? = some process)
      (hconn : process.client.conns[stream.conn]? = some conn)
      (current : conn.failures = stream.attempt)
      (hstep : process.client.Step forward
        (.conn stream.conn (.response taken (.ok message))) client) :
      Step s (.deliver c taken)
        { s.setClient stream.process process client with
          streams := s.streams.set c
            { stream with downlink := rest, read := stream.read ++ [message] } }
  | client {s : Deployment} {k : ℕ} {event : ClientEvent} {process : Process} {client : Client}
      (hprocess : s.processes[k]? = some process) (own : event.Own)
      (hstep : process.client.Step forward event client) :
      Step s (.client k event) (s.setClient k process client)

end Step

/-- The messages put on a channel in a run. -/
def enqueued (tr : List (Deployment × DeploymentEvent)) (conn : ConnId) :
    List ResponseMessageEnvelope :=
  tr.filterMap fun x =>
    match x.2 with
    | .server event => LockedServer.enqueuesOn conn (x.1.server, event)
    | _ => none

/-- The transaction that the forwarder of process `k` takes in a step. -/
def dispatches (k : ℕ) (x : Deployment × DeploymentEvent) : Option ForwardedTransaction :=
  match x.2 with
  | .client k' event =>
    if k' = k then x.1.processes[k]?.bind fun process => Client.processed (process.client, event)
    else none
  | _ => none

def queue (s : Deployment) (k : ℕ) : List ForwardedTransaction :=
  ((s.processes[k]?).map fun process => process.client.forwarding.queue).getD []

/-- The transactions the connections of process `k` have received, in order: those the forwarder has
taken and those it has still to take. -/
def received (tr : List (Deployment × DeploymentEvent)) (s : Deployment) (k : ℕ) :
    List Transaction :=
  (tr.filterMap (dispatches k) ++ s.queue k).map ForwardedTransaction.transaction

end Deployment

/-- The transactions a stream has brought to its client. -/
def Stream.transactions (stream : Stream) : List Transaction :=
  stream.read.filterMap ResponseMessageEnvelope.transaction

namespace Deployment

variable {SocketAddr : Type} {crates : Crates} {rpcConfig : RpcConfig}
  {forward : ForwardCrates SocketAddr} {s s' : Deployment} {event : DeploymentEvent}
  {tr : List (Deployment × DeploymentEvent)}

theorem enqueued_other (hother : ∀ lockEvent, event ≠ .server lockEvent) (c : ConnId) :
    enqueued (tr ++ [(s, event)]) c = enqueued tr c := by
  rw [enqueued, filterMap_concat]
  cases event with
  | server lockEvent => exact absurd rfl (hother lockEvent)
  | _ => exact List.append_nil _

structure Linked (tr : List (Deployment × DeploymentEvent)) (s : Deployment) : Prop where
  length : s.streams.length = s.server.channels.length
  order : ∀ c stream, s.streams[c]? = some stream →
    stream.read ++ stream.downlink ++ s.server.pending c = enqueued tr c
  fresh : ∀ c, s.streams.length ≤ c → enqueued tr c = []
  bounded : ∀ c, (s.server.pending c).length ≤ channelCapacity

/-- A step that leaves channels and streams alone. -/
theorem Linked.quiet (h : Linked tr s) (hother : ∀ lockEvent, event ≠ .server lockEvent)
    (hstreams : s'.streams = s.streams)
    (hlength : s'.server.channels.length = s.server.channels.length)
    (hpending : ∀ c, s'.server.pending c = s.server.pending c) :
    Linked (tr ++ [(s, event)]) s' where
  length := by rw [hstreams, hlength, h.length]
  order c stream hstream := by
    rw [hpending, enqueued_other hother]
    exact h.order c stream (hstreams ▸ hstream)
  fresh c hc := by
    rw [enqueued_other hother]
    exact h.fresh c (hstreams ▸ hc)
  bounded c := by
    rw [hpending]
    exact h.bounded c

theorem Linked.subscribe (h : Linked tr s) {call : TxStreamCall} {calls : List TxStreamCall}
    {rest : List LockRequest} {server : LockedServer}
    (next : s.server.waiting = .write (.subscribe call.identity call.token) :: rest)
    (hstep : s.server.Step .grant server) :
    Linked (tr ++ [(s, .subscribe)])
      { s with server, calls, streams := s.streams ++ [⟨call, [], []⟩] } := by
  have hpending (c : ConnId) : server.pending c = s.server.pending c := by
    rw [LockedServer.pending_step hstep (by simp), LockedServer.enqueuesOn_of_none rfl,
      List.append_nil]
  refine ⟨?_, fun c stream hstream => ?_, fun c hc => ?_, fun c => ?_⟩
  · rw [List.length_append, List.length_singleton, h.length,
      LockedServer.length_channels_subscribe hstep next]
  · rw [enqueued_other (by simp), hpending]
    rw [List.getElem?_append] at hstream
    split at hstream
    · exact h.order c stream hstream
    next hc =>
      -- the new stream: nothing was ever put on its channel
      have hnone : s.server.pending c = [] := by
        rw [LockedServer.pending, List.getElem?_eq_none (by rw [← h.length]; omega)]
        rfl
      obtain rfl : (⟨call, [], []⟩ : Stream) = stream := by
        cases hsub : c - s.streams.length with
        | zero => simpa [hsub] using hstream
        | succ n => simp [hsub] at hstream
      rw [hnone, h.fresh c (by omega)]
      rfl
  · rw [enqueued_other (by simp)]
    refine h.fresh c ?_
    rw [List.length_append, List.length_singleton] at hc
    omega
  · rw [hpending]
    exact h.bounded c

theorem Linked.server (h : Linked tr s) {lockEvent : LockEvent} {server : LockedServer}
    (own : s.server.Own lockEvent) (hstep : s.server.Step lockEvent server) :
    Linked (tr ++ [(s, .server lockEvent)]) { s with server } := by
  have hrecv : ∀ c, lockEvent ≠ .recv c := by
    rintro c rfl
    exact own
  have henqueued (c : ConnId) : enqueued (tr ++ [(s, .server lockEvent)]) c =
      enqueued tr c ++ (LockedServer.enqueuesOn c (s.server, lockEvent)).toList := by
    rw [enqueued, filterMap_concat]
    rfl
  have hlength : server.channels.length = s.server.channels.length := by
    refine LockedServer.length_channels_step hstep ?_
    rintro rfl
    exact own
  refine ⟨?_, fun c stream hstream => ?_, fun c hc => ?_, ?_⟩
  · rw [hlength, ← h.length]
  · rw [henqueued, ← h.order c stream hstream, LockedServer.pending_step hstep hrecv,
      List.append_assoc _ (s.server.pending c)]
  · -- messages go to channels there are
    rw [henqueued, h.fresh c hc, List.nil_append]
    cases henqueues : LockedServer.enqueues (s.server, lockEvent) with
    | none => exact LockedServer.enqueuesOn_of_none henqueues
    | some e =>
      rw [LockedServer.enqueuesOn_eq henqueues, if_neg]
      rintro rfl
      have haccepts := (LockedServer.room_of_enqueues hstep henqueues).1
      rw [LockedServer.accepts, List.getElem?_eq_none (by rw [← h.length]; exact hc)] at haccepts
      simp at haccepts
  · exact LockedServer.pending_bounded_step hstep h.bounded

theorem Linked.pump (h : Linked tr s) {c : ConnId} {stream : Stream}
    {message : ResponseMessageEnvelope} {rest : List ResponseMessageEnvelope}
    {server : LockedServer} (hstream : s.streams[c]? = some stream)
    (next : s.server.channels[c]? = some ⟨message :: rest, false⟩)
    (hstep : s.server.Step (.recv c) server) :
    Linked (tr ++ [(s, .pump c)])
      { s with
        server
        streams := s.streams.set c { stream with downlink := stream.downlink ++ [message] } } := by
  have hlength : server.channels.length = s.server.channels.length :=
    LockedServer.length_channels_step hstep (by simp)
  refine ⟨?_, fun c' stream' hstream' => ?_, fun c' hc' => ?_, fun c' => ?_⟩
  · rw [List.length_set, hlength, h.length]
  · rw [enqueued_other (by simp), LockedServer.pending_recv hstep]
    by_cases hc : c = c'
    · subst hc
      rw [List.getElem?_set_self (List.getElem?_eq_some_iff.mp hstream).1,
        Option.some.injEq] at hstream'
      have hpending : s.server.pending c = message :: rest := by simp [LockedServer.pending, next]
      rw [if_pos rfl, ← h.order c stream hstream, ← hstream', hpending]
      simp
    · rw [List.getElem?_set_ne hc] at hstream'
      rw [if_neg hc]
      exact h.order c' stream' hstream'
  · rw [enqueued_other (by simp)]
    exact h.fresh c' (by rwa [List.length_set] at hc')
  · exact LockedServer.pending_bounded_step hstep h.bounded c'

theorem Linked.deliver (h : Linked tr s) {c : ConnId} {taken : Bool} {stream : Stream}
    {message : ResponseMessageEnvelope} {rest : List ResponseMessageEnvelope} {process : Process}
    {client : Client} (hstream : s.streams[c]? = some stream)
    (next : stream.downlink = message :: rest) :
    Linked (tr ++ [(s, .deliver c taken)])
      { s.setClient stream.process process client with
        streams := s.streams.set c
          { stream with downlink := rest, read := stream.read ++ [message] } } := by
  refine ⟨?_, fun c' stream' hstream' => ?_, fun c' hc' => ?_, h.bounded⟩
  · rw [List.length_set]
    exact h.length
  · rw [enqueued_other (by simp)]
    by_cases hc : c = c'
    · subst hc
      rw [List.getElem?_set_self (List.getElem?_eq_some_iff.mp hstream).1,
        Option.some.injEq] at hstream'
      rw [← h.order c stream hstream, ← hstream', next]
      simp [setClient]
    · rw [List.getElem?_set_ne hc] at hstream'
      exact h.order c' stream' hstream'
  · rw [enqueued_other (by simp)]
    exact h.fresh c' (by rwa [List.length_set] at hc')

theorem Linked.step (h : Linked tr s) (hs : Step crates rpcConfig forward s event s') :
    Linked (tr ++ [(s, event)]) s' := by
  cases hs with
  | rpc _ hstep | call _ _ _ _ _ _ hstep =>
    refine h.quiet (by simp) rfl (LockedServer.length_channels_step hstep (by simp)) fun c => ?_
    cases hstep
    rfl
  | subscribe next hcall hstep => exact h.subscribe next hstep
  | server own hstep => exact h.server own hstep
  | pump hstream next hstep => exact h.pump hstream next hstep
  | deliver hstream next => exact h.deliver hstream next
  | start | refuse | answer | client => exact h.quiet (by simp) rfl rfl fun _ => rfl

end Deployment

/-! ## Streams and forwarders -/

def ClientEvent.transactions : ClientEvent → List Transaction
  | .conn _ (.response _ (.ok envelope)) => envelope.transaction.toList
  | _ => []

/-- Connections put what they read at the end of the forwarder's queue, and the forwarder takes its
transactions off the front. -/
theorem Client.queue_step {SocketAddr : Type} {forward : ForwardCrates SocketAddr} {s s' : Client}
    {event : ClientEvent} (hs : s.Step forward event s') :
    ((Client.processed (s, event)).toList ++ s'.forwarding.queue).map
        ForwardedTransaction.transaction =
      s.forwarding.queue.map ForwardedTransaction.transaction ++ event.transactions := by
  cases hs with
  | @conn n conn conn' connEvent transactions running hconn hstep =>
    show ([] ++ (s.forwarding.queue ++ transactions)).map ForwardedTransaction.transaction = _
    rw [List.nil_append, List.map_append]
    congr 1
    cases hstep with
    | @response taken response streaming =>
      cases response with
      | ok envelope =>
        simp [processUpstreamMessage, ClientEvent.transactions, Function.comp_def]
      | error status => rfl
    | _ => rfl
  | connPanics running hconn hpanics =>
    cases hpanics
    simp [Client.processed, ClientEvent.transactions]
  | forward running hstep =>
    cases hstep with
    | process next =>
      simp only [Client.processed, Forwarding.processed, next, ClientEvent.transactions]
      unfold Forwarding.process
      split <;> simp
    | _ => simp [Client.processed, Forwarding.processed, ClientEvent.transactions]
  | forwardPanics running hpanics =>
    cases hpanics
    simp [Client.processed, Forwarding.processed, ClientEvent.transactions]
  | _ => simp [Client.processed, ClientEvent.transactions, Client.modifyConn]

namespace Deployment

variable {SocketAddr : Type} {crates : Crates} {rpcConfig : RpcConfig}
  {forward : ForwardCrates SocketAddr} {s s' : Deployment} {event : DeploymentEvent}
  {tr : List (Deployment × DeploymentEvent)}

/-- What all streams of a process have brought it. -/
def brought (streams : List Stream) (k : ℕ) : List Transaction :=
  (streams.filter fun stream => stream.process = k).flatMap Stream.transactions

theorem received_concat (k : ℕ) : received (tr ++ [(s, event)]) s' k =
    (tr.filterMap (dispatches k)).map ForwardedTransaction.transaction ++
      ((dispatches k (s, event)).toList ++ s'.queue k).map ForwardedTransaction.transaction := by
  rw [received, filterMap_concat, List.append_assoc, List.map_append]

theorem received_same (hdispatches : ∀ k, dispatches k (s, event) = none) (k : ℕ)
    (hqueue : s'.queue k = s.queue k) : received (tr ++ [(s, event)]) s' k = received tr s k := by
  rw [received_concat, hdispatches, hqueue]
  simp [received]

theorem queue_setClient {k : ℕ} {process : Process} (hprocess : s.processes[k]? = some process)
    (client : Client) (k' : ℕ) : (s.setClient k process client).queue k' =
      if k = k' then client.forwarding.queue else s.queue k' := by
  simp only [queue, setClient]
  by_cases hk : k = k'
  · subst hk
    rw [List.getElem?_set_self (List.getElem?_eq_some_iff.mp hprocess).1, if_pos rfl]
    rfl
  · rw [List.getElem?_set_ne hk, if_neg hk]

/-- A step of the client of process `k`: it receives what it reads. -/
theorem received_client {k : ℕ} {process : Process} {client : Client} {clientEvent : ClientEvent}
    (hprocess : s.processes[k]? = some process)
    (hstep : process.client.Step forward clientEvent client) (k' : ℕ)
    (hdispatches : dispatches k' (s, event) =
      if k = k' then Client.processed (process.client, clientEvent) else none)
    (hqueue : s'.queue k' = (s.setClient k process client).queue k') :
    received (tr ++ [(s, event)]) s' k' =
      received tr s k' ++ if k = k' then clientEvent.transactions else [] := by
  rw [received_concat, hdispatches, hqueue, queue_setClient hprocess]
  by_cases hk : k = k'
  · subst hk
    have hold : s.queue k = process.client.forwarding.queue := by
      rw [queue, hprocess]
      rfl
    rw [if_pos rfl, if_pos rfl, if_pos rfl, Client.queue_step hstep, received, hold,
      List.map_append, List.append_assoc]
  · rw [if_neg hk, if_neg hk, if_neg hk]
    simp [received]

/-- What the streams of a process bring is what it receives, each of them in order. -/
structure Merged (tr : List (Deployment × DeploymentEvent)) (s : Deployment) : Prop where
  once : ∀ k, (received tr s k).Perm (brought s.streams k)
  sublist : ∀ stream ∈ s.streams, stream.transactions.Sublist (received tr s stream.process)

theorem brought_eq (streams : List Stream) (k : ℕ) : brought streams k =
    streams.flatMap fun stream => if stream.process = k then stream.transactions else [] := by
  induction streams with
  | nil => rfl
  | cons stream streams ih =>
    rw [brought] at ih ⊢
    by_cases hk : stream.process = k <;> simp [hk, ih]

/-- What a stream has brought to whom. -/
def Delivery (stream : Stream) : ℕ × List Transaction := (stream.process, stream.transactions)

theorem Merged.same (h : Merged tr s)
    (hreceived : ∀ k, received (tr ++ [(s, event)]) s' k = received tr s k)
    (hstreams : s'.streams.map Delivery = s.streams.map Delivery) :
    Merged (tr ++ [(s, event)]) s' := by
  have hbrought (streams : List Stream) (k : ℕ) : brought streams k =
      (streams.map Delivery).flatMap fun d => if d.1 = k then d.2 else [] := by
    rw [brought_eq, List.flatMap_map]
    rfl
  constructor
  · intro k
    rw [hreceived, hbrought, hstreams, ← hbrought]
    exact h.once k
  · intro stream hmem
    have hdelivery := List.mem_map_of_mem (f := Delivery) hmem
    rw [hstreams] at hdelivery
    obtain ⟨stream', hmem', heq⟩ := List.mem_map.mp hdelivery
    obtain ⟨hprocess, htransactions⟩ := Prod.mk.inj heq
    rw [hreceived, ← hprocess, ← htransactions]
    exact h.sublist stream' hmem'

theorem Merged.start (h : Merged tr s) {peerCerts : Option (List PeerCert)}
    {forwarder : TransactionForwarder} {maxPermits : ℕ} :
    Merged (tr ++ [(s, .start peerCerts forwarder maxPermits)])
      { s with processes := s.processes ++ [⟨peerCerts, .new forwarder maxPermits⟩] } := by
  refine h.same (fun k => received_same (fun _ => rfl) k ?_) rfl
  simp only [queue]
  rw [List.getElem?_append]
  split
  · rfl
  next hk =>
    -- the new process has received nothing
    rw [List.getElem?_eq_none (Nat.le_of_not_lt hk)]
    cases k - s.processes.length <;> rfl

theorem Merged.subscribe (h : Merged tr s) {call : TxStreamCall} {calls : List TxStreamCall}
    {server : LockedServer} : Merged (tr ++ [(s, .subscribe)])
      { s with server, calls, streams := s.streams ++ [⟨call, [], []⟩] } := by
  have hreceived (k : ℕ) : received (tr ++ [(s, .subscribe)])
      { s with server, calls, streams := s.streams ++ [⟨call, [], []⟩] } k = received tr s k :=
    received_same (fun _ => rfl) k rfl
  constructor
  · intro k
    have hnothing : brought [⟨call, [], []⟩] k = [] := by
      rw [brought_eq]
      simp [Stream.transactions]
    rw [hreceived, brought_eq, List.flatMap_append, ← brought_eq, ← brought_eq, hnothing,
      List.append_nil]
    exact h.once k
  · intro stream hmem
    rw [hreceived]
    rcases List.mem_append.mp hmem with hold | hnew
    · exact h.sublist stream hold
    · rw [List.mem_singleton.mp hnew]
      exact List.nil_sublist _

theorem Merged.deliver (h : Merged tr s) {c : ConnId} {taken : Bool} {stream : Stream}
    {message : ResponseMessageEnvelope} {rest : List ResponseMessageEnvelope} {process : Process}
    {client : Client} (hstream : s.streams[c]? = some stream)
    (hprocess : s.processes[stream.process]? = some process)
    (hstep : process.client.Step forward
      (.conn stream.conn (.response taken (.ok message))) client) :
    Merged (tr ++ [(s, .deliver c taken)])
      { s.setClient stream.process process client with
        streams := s.streams.set c
          { stream with downlink := rest, read := stream.read ++ [message] } } := by
  have hreceived (k : ℕ) : received (tr ++ [(s, .deliver c taken)])
      { s.setClient stream.process process client with
        streams := s.streams.set c
          { stream with downlink := rest, read := stream.read ++ [message] } } k =
      received tr s k ++ if stream.process = k then message.transaction.toList else [] :=
    received_client hprocess hstep k (by simp [dispatches, Client.processed]) rfl
  have htransactions : Stream.transactions
      { stream with downlink := rest, read := stream.read ++ [message] } =
      stream.transactions ++ message.transaction.toList := by
    rw [Stream.transactions, Stream.transactions, filterMap_concat]
  constructor
  · intro k
    have hset := Interleaving.flatMap_set_perm
      (fun stream : Stream => if stream.process = k then stream.transactions else [])
      { stream with downlink := rest, read := stream.read ++ [message] } hstream
    rw [hreceived, brought_eq]
    have hold := h.once k
    rw [brought_eq] at hold
    by_cases hk : stream.process = k
    · simp only [hk, if_true, htransactions] at hset ⊢
      rw [List.append_assoc, List.perm_append_left_iff] at hset
      exact ((hold.append_right _).trans List.perm_append_comm).trans hset.symm
    · simp only [hk, if_false, List.append_nil, List.nil_append] at hset ⊢
      exact hold.trans hset.symm
  · intro stream' hmem
    rw [hreceived]
    rcases List.mem_or_eq_of_mem_set hmem with hold | rfl
    · exact (h.sublist stream' hold).trans (List.sublist_append_left _ _)
    · rw [htransactions, if_pos rfl]
      exact (h.sublist stream (List.mem_of_getElem? hstream)).append (.refl _)

theorem Merged.client (h : Merged tr s) {k : ℕ} {clientEvent : ClientEvent} {process : Process}
    {client : Client} (hprocess : s.processes[k]? = some process) (own : clientEvent.Own)
    (hstep : process.client.Step forward clientEvent client) :
    Merged (tr ++ [(s, .client k clientEvent)]) (s.setClient k process client) := by
  have hnone : clientEvent.transactions = [] := by
    unfold ClientEvent.transactions
    split
    · exact own.elim
    · rfl
  refine h.same (fun k' => ?_) rfl
  have hreceived : received (tr ++ [(s, .client k clientEvent)]) (s.setClient k process client) k' =
      received tr s k' ++ if k = k' then clientEvent.transactions else [] := by
    refine received_client hprocess hstep k' ?_ rfl
    simp only [dispatches]
    split
    next hk => rw [← hk, hprocess, Option.bind_some]
    next => rfl
  rw [hreceived, hnone, ite_self, List.append_nil]

-- the client hears of its call
theorem Merged.called (h : Merged tr s) {k n : ℕ} {result : Except Status Unit} {process : Process}
    {client : Client} (hevent : ∀ k, dispatches k (s, event) = none)
    (hprocess : s.processes[k]? = some process)
    (hstep : process.client.Step forward (.conn n (.call result)) client) :
    Merged (tr ++ [(s, event)]) (s.setClient k process client) := by
  refine h.same (fun k' => ?_) rfl
  have hreceived : received (tr ++ [(s, event)]) (s.setClient k process client) k' =
      received tr s k' ++ if k = k' then [] else [] :=
    received_client hprocess hstep k' (by rw [hevent]; exact (ite_self _).symm) rfl
  rw [hreceived, ite_self, List.append_nil]

theorem Merged.step (h : Merged tr s) (hs : Step crates rpcConfig forward s event s') :
    Merged (tr ++ [(s, event)]) s' := by
  cases hs with
  | start => exact h.start
  | rpc | call | server => exact h.same (fun k => received_same (fun _ => rfl) k rfl) rfl
  | subscribe => exact h.subscribe
  | pump hstream =>
    -- what is on its way is not read
    exact h.same (fun k => received_same (fun _ => rfl) k rfl)
      (Interleaving.map_set_same Delivery hstream rfl)
  | refuse hprocess anonymous hstep => exact h.called (fun _ => rfl) hprocess hstep
  | answer hstream hprocess hconn current hstep => exact h.called (fun _ => rfl) hprocess hstep
  | deliver hstream next hprocess hconn current hstep => exact h.deliver hstream hprocess hstep
  | client hprocess own hstep => exact h.client hprocess own hstep

theorem linked_of_run (h : Run (Step crates rpcConfig forward) new tr s) : Linked tr s := by
  induction h with
  | nil =>
    refine ⟨rfl, by simp [new], by simp [enqueued], fun _ => ?_⟩
    simp [new, LockedServer.new, LockedServer.pending]
  | snoc hr hs ih => exact ih.step hs

theorem merged_of_run (h : Run (Step crates rpcConfig forward) new tr s) : Merged tr s := by
  induction h with
  | nil =>
    refine ⟨fun k => ?_, by simp [new]⟩
    simp [received, queue, brought, new]
  | snoc hr hs ih => exact ih.step hs

def sampleClaims : JWT := ⟨999999999, 1000000000, none, some "partner"⟩

/-- The libraries of `sampleCrates`, where one token verifies. -/
def keyedCrates : Crates :=
  { sampleCrates with
    verifyWithKey := fun _ token =>
      if token = "a.b.c" then .ok sampleClaims else .error "signature verification failed" }

def keyedConfig : RpcConfig := ⟨some ⟨[]⟩, []⟩

/-- "Bearer a.b.c" -/
def bearer : HeaderValue :=
  ⟨[66, 101, 97, 114, 101, 114, 32, 97, 46, 98, 46, 99], by simp⟩

def keyedCall : RpcCall :=
  ⟨0, false, some bearer, zeroData, some ⟨some true⟩, .drawing .stored (.const 0)⟩

theorem meta_keyedCall : metaExtractor keyedCrates keyedConfig 0 false (some bearer) =
    .ok ⟨.ok (.jwt sampleClaims), 0, .forward⟩ := rfl

def keyedRequest : PublishRequest :=
  ⟨.stored, .const 0, .stored,
    newSession (.drawing .stored (.const 0)) ⟨.ok (.jwt sampleClaims), 0, .forward⟩
      (.jwt sampleClaims) zeroSignature,
    keyedCrates.signatureToString zeroSignature, zeroData⟩

theorem reaches_keyedCall : keyedCall.Reaches keyedCrates keyedConfig keyedRequest := by
  refine ⟨_, _, zeroSignature, meta_keyedCall, rfl, ⟨⟨⟨_, rfl⟩, rfl, ?_⟩, rfl⟩, rfl⟩
  exact decodes_zeroData

/-- Three leaders are announced, none of them a client. -/
def threeLeaders : List LeaderInfo :=
  [⟨"l1", "10.0.0.1:8009", "Berlin", false⟩, ⟨"l2", "10.0.0.2:8009", "Paris", false⟩,
    ⟨"l3", "10.0.0.3:8009", "Rome", false⟩]

/-- The transaction client "A" gets for `keyedCall` as the first of its three picks. -/
def keyedTransaction : Transaction :=
  ⟨zeroData, keyedCrates.signatureToString zeroSignature, ["10.0.0.1:8009", "10.0.0.3:8009"]⟩

/-- Client "A" connects, the leaders and then the request come in, and the client's forwarder takes
the transaction. -/
theorem run_keyedCall : ∃ tr s,
    Run (Step keyedCrates keyedConfig Client.sampleForwardCrates) new tr s ∧
      tr.filterMap (dispatches 0) = [⟨"a", keyedTransaction⟩] ∧ s.queue 0 = [] ∧
      s.streams.map Stream.transactions = [[keyedTransaction]] := by
  have hstarted := ((Run.nil new).snoc (@Step.start _ keyedCrates keyedConfig
    Client.sampleForwardCrates _ (some [some [some "A"]]) .quic 1)).snoc
    (@Step.client _ _ _ _ _ 0 (.spawn "a") _ _ rfl trivial (.spawn rfl))
  have hcalling := (hstarted.snoc
    (@Step.client _ _ _ _ _ 0 (.conn 0 (.tls (.ok ()))) _ _ rfl trivial
      (.conn rfl rfl (.tls rfl)))).snoc
    (@Step.client _ _ _ _ _ 0 (.conn 0 (.connect (.ok ()))) _ _ rfl trivial
      (.conn rfl rfl (.connect rfl)))
  have hsubscribed := (hcalling.snoc (@Step.call _ _ _ _ _ 0 0 "A" "token" _ _ _ rfl rfl rfl rfl rfl
    (by simp [new, setClient]) (.request rfl))).snoc
    (@Step.subscribe _ _ _ _ _ ⟨"A", "token", 0, 0, 0⟩ _ [] _ rfl rfl
      (@LockedServer.Step.grantWrite _ (.subscribe "A" "token") [] rfl rfl rfl))
  have hstreaming := hsubscribed.snoc (@Step.answer _ _ _ _ _ 0 _ _ _ _ rfl rfl rfl rfl
    (@Client.Step.conn _ _ _ 0 _ _ _ _ rfl rfl (.call rfl)))
  have hannounced := (hstreaming.snoc (@Step.server _ _ _ _ _
    (.request (.write (.setLeaders threeLeaders ∅ .stored))) _ trivial (.request rfl))).snoc
    (@Step.server _ _ _ _ _ .grant _ (by rintro _ _ _ ⟨⟩)
      (@LockedServer.Step.grantWrite _ (.setLeaders threeLeaders ∅ .stored) [] rfl rfl rfl))
  have hpublishing := (hannounced.snoc (@Step.rpc _ _ _ _ _ keyedCall keyedRequest _
    reaches_keyedCall (.request rfl))).snoc
    (@Step.server _ _ _ _ _ .grant _ (by rintro _ _ _ ⟨⟩)
      (@LockedServer.Step.grantRead _ keyedRequest [] rfl rfl))
  have hsent := hpublishing.snoc (@Step.server _ _ _ _ _ (.send 0) _ trivial
    (@LockedServer.Step.send _ 0 _ _ _ rfl rfl rfl (by
      rintro ⟨ch, hch, hfull⟩
      obtain rfl : ⟨[], false⟩ = ch := Option.some.inj hch
      exact absurd hfull (by decide))))
  have hread := (hsent.snoc (@Step.pump _ _ _ _ _ 0 _ _ _ _ rfl rfl (.recv rfl))).snoc
    (@Step.deliver _ _ _ _ _ 0 true _ _ _ _ _ _ rfl rfl rfl rfl rfl
      (.conn rfl rfl (.response rfl)))
  have hprocessed := hread.snoc
    (@Step.client _ _ _ _ _ 0 (.forward .process) _ _ rfl trivial (.forward rfl (.process rfl)))
  exact ⟨_, _, hprocessed, rfl, rfl, rfl⟩

end Deployment

end Mtransaction
