import Mtransaction.Lib.Runs
import Mtransaction.Server.Publish

/-!
# Client connections

`tx_stream` of `server/grpc_server.rs`: every connection subscribes, gets a task of its own, and
unsubscribes when that task leaves its loop.  Meanwhile transactions are published to it and flushes
remove it.  `publish` holds the balancer's read lock from its first pick to its last send; whatever
takes the write lock waits until no `publish` is in progress.
-/

namespace Mtransaction

open Runs

inductive TaskPhase
  /-- in its loop -/
  | looping
  /-- out of the loop, waiting for the write lock -/
  | stopping
  /-- has called `unsubscribe` -/
  | unsubscribed
  /-- has called `reset_client_metrics` -/
  | finished
  deriving DecidableEq, Repr

/-- One connection, numbered by its place in the order of opening. -/
structure Conn where
  identity : String
  token : String
  /-- the client's stream has ended -/
  streamEnded : Bool
  /-- the receiving half of the consumer channel is gone -/
  receiverDropped : Bool
  phase : TaskPhase
  /-- a send of `publish` on the channel has failed -/
  sendFailed : Bool
  deriving DecidableEq, Repr

/-- The task has not yet run its cleanup. -/
def Conn.live (conn : Conn) : Bool := conn.phase = .looping ∨ conn.phase = .stopping

/-- A call of `publish` between two of its sends. -/
structure PublishCall where
  tpuOrder : HashOrder String
  signature : String
  data : String
  session : SignatureRecord
  delivered : List (ConnId × ResponseMessageEnvelope)
  remaining : List Pick

structure TxStreams where
  balancer : Balancer
  conns : List Conn
  publishing : List PublishCall

inductive StreamsEvent
  | txStream (identity token : String)
  | endStream (id : ConnId)
  | dropReceiver (id : ConnId)
  | stop (id : ConnId)
  | cleanup (id : ConnId)
  | resetClientMetrics (id : ConnId)
  | updateRtt (id : ConnId) (value : Rtt)
  | startPublish (call : PublishCall)
  | send (n : ℕ)
  | endPublish (n : ℕ)
  | updateStakeWeights (stakeWeights : HashMap String UInt64)
  | receiveLeaders (leaderTpus : List LeaderInfo) (leaders : HashMap String LeaderInfo)
      (o : HashOrder (String × TxConsumer))

/-- `reset_client_metrics`, of which the balancer sees the stake gauge. -/
def Balancer.resetClientMetrics (b : Balancer) (identity : String) : Balancer :=
  { b with gauges := { b.gauges with
      totalConnectedStake := b.gauges.totalConnectedStake.erase identity } }

namespace TxStreams

def new : TxStreams := ⟨.new, [], []⟩

def txStream (s : TxStreams) (identity token : String) : TxStreams :=
  { s with
    -- under the write lock; the new channel and signal have the next number
    balancer := s.balancer.subscribe identity token s.conns.length
    conns := s.conns ++ [⟨identity, token, false, false, .looping, false⟩] }

def modifyConn (s : TxStreams) (id : ConnId) (f : Conn → Conn) : TxStreams :=
  { s with conns := s.conns.modify id f }

def accepts (s : TxStreams) (id : ConnId) : Bool :=
  match s.conns[id]? with
  | some conn => !conn.receiverDropped
  | none => false

def send (s : TxStreams) (n : ℕ) (call : PublishCall) (pick : Pick) (rest : List Pick) :
    TxStreams :=
  let accepted := s.accepts pick.1.tx
  let st := publishSend call.tpuOrder call.signature call.data accepted
    ⟨s.balancer, call.session, call.delivered⟩ pick
  { balancer := st.balancer
    -- `mpsc::Sender::send` fails once the receiver is gone
    conns := if accepted then s.conns
      else s.conns.modify pick.1.tx fun conn => { conn with sendFailed := true }
    publishing := s.publishing.set n
      { call with session := st.session, delivered := st.delivered, remaining := rest } }

/-- The steps of all tasks.  Tokens are drawn at random; they are taken to be distinct. -/
inductive Step : TxStreams → StreamsEvent → TxStreams → Prop
  | txStream {s : TxStreams} {identity token : String} (idle : s.publishing = [])
      (fresh : ∀ conn ∈ s.conns, conn.token ≠ token) :
      Step s (.txStream identity token) (s.txStream identity token)
  | endStream {s : TxStreams} {id : ConnId} :
      Step s (.endStream id) (s.modifyConn id fun conn => { conn with streamEnded := true })
  | dropReceiver {s : TxStreams} {id : ConnId} :
      Step s (.dropReceiver id) (s.modifyConn id fun conn => { conn with receiverDropped := true })
  | stop {s : TxStreams} {id : ConnId} {conn : Conn} (hconn : s.conns[id]? = some conn)
      (looping : conn.phase = .looping)
      (wake : id ∈ s.balancer.signals ∨ conn.streamEnded ∨ conn.receiverDropped) :
      Step s (.stop id) (s.modifyConn id fun conn => { conn with phase := .stopping })
  | cleanup {s : TxStreams} {id : ConnId} {conn : Conn} (idle : s.publishing = [])
      (hconn : s.conns[id]? = some conn) (stopping : conn.phase = .stopping) :
      Step s (.cleanup id)
        ({ s with balancer := s.balancer.unsubscribe conn.identity conn.token }.modifyConn id
          fun conn => { conn with phase := .unsubscribed })
  | resetClientMetrics {s : TxStreams} {id : ConnId} {conn : Conn}
      (hconn : s.conns[id]? = some conn) (unsubscribed : conn.phase = .unsubscribed) :
      Step s (.resetClientMetrics id)
        ({ s with balancer := s.balancer.resetClientMetrics conn.identity }.modifyConn id
          fun conn => { conn with phase := .finished })
  | updateRtt {s : TxStreams} {id : ConnId} {conn : Conn} {value : Rtt} {balancer : Balancer}
      (idle : s.publishing = []) (hconn : s.conns[id]? = some conn)
      (looping : conn.phase = .looping)
      (ok : s.balancer.updateRtt conn.identity value = .ok balancer) :
      Step s (.updateRtt id value) { s with balancer }
  | startPublish {s : TxStreams} {call : PublishCall} {o : HashOrder (String × TxConsumer)}
      {rng : Rng} (picked : s.balancer.pickConsumers o rng = .ok call.remaining)
      (unsent : call.delivered = []) :
      Step s (.startPublish call) { s with publishing := s.publishing ++ [call] }
  | send {s : TxStreams} {n : ℕ} {call : PublishCall} {pick : Pick} {rest : List Pick}
      (hcall : s.publishing[n]? = some call) (next : call.remaining = pick :: rest) :
      Step s (.send n) (s.send n call pick rest)
  | endPublish {s : TxStreams} {n : ℕ} {call : PublishCall} (hcall : s.publishing[n]? = some call)
      (done : call.remaining = []) :
      Step s (.endPublish n) { s with publishing := s.publishing.eraseIdx n }
  | updateStakeWeights {s : TxStreams} {stakeWeights : HashMap String UInt64}
      (idle : s.publishing = []) :
      Step s (.updateStakeWeights stakeWeights)
        { s with balancer := s.balancer.updateStakeWeights stakeWeights }
  | receiveLeaders {s : TxStreams} {leaderTpus : List LeaderInfo}
      {leaders : HashMap String LeaderInfo} {o : HashOrder (String × TxConsumer)}
      (idle : s.publishing = []) :
      Step s (.receiveLeaders leaderTpus leaders o)
        { s with balancer := (s.balancer.setLeaders leaderTpus leaders).flushUnsubscribes o }

/-! ## The invariant -/

/-- The entry under `identity` is that of the newest connection of this identity, whose task is
still to clean up; it is flagged only after a failed send on the connection's own channel. -/
structure Owner (conns : List Conn) (identity : String) (c : TxConsumer) (conn : Conn) : Prop where
  isConn : conns[c.tx]? = some conn
  identity_eq : conn.identity = identity
  token_eq : conn.token = c.token
  signal : c.txUnsubscribe = some c.tx
  live : conn.live
  newest : ∀ id conn', c.tx < id → conns[id]? = some conn' → conn'.identity ≠ identity
  flagged : c.doUnsubscribe → conn.sendFailed

structure Invariant (s : TxStreams) : Prop where
  owned : ∀ i c, s.balancer.txConsumers.lookup i = some c → ∃ conn, Owner s.conns i c conn
  signalled : ∀ id conn, s.conns[id]? = some conn →
    (∃ c, s.balancer.txConsumers.lookup conn.identity = some c ∧ c.tx = id) ∨
      id ∈ s.balancer.signals
  tokens : (s.conns.map Conn.token).Nodup
  picks : ∀ call ∈ s.publishing, ∀ pick ∈ call.remaining,
    ∃ c, s.balancer.txConsumers.lookup pick.1.identity = some c ∧ c.tx = pick.1.tx

theorem invariant_new : Invariant new := by
  refine ⟨?_, ?_, List.nodup_nil, ?_⟩ <;> simp [new, Balancer.new]

section Preservation

variable {s s' : TxStreams} {event : StreamsEvent} {id : ConnId} {i : String} {c : TxConsumer}
  {conn : Conn} {b : Balancer}

/-! ### Changes to a connection -/

/-- What no change to a connection touches. -/
structure SameConn (conn conn' : Conn) : Prop where
  identity_eq : conn'.identity = conn.identity
  token_eq : conn'.token = conn.token
  failed : conn.sendFailed → conn'.sendFailed

-- a connection after the change is one from before, changed or not
theorem getElem?_modify_of_some {f : Conn → Conn} {conns : List Conn} {k : ConnId}
    (h : (conns.modify id f)[k]? = some conn) :
    ∃ conn₀, conns[k]? = some conn₀ ∧ (conn = conn₀ ∨ k = id ∧ conn = f conn₀) := by
  rw [List.getElem?_modify] at h
  by_cases hk : id = k
  · obtain ⟨conn₀, h₀, hconn⟩ := Option.map_eq_some_iff.mp h
    rw [if_pos hk] at hconn
    exact ⟨conn₀, h₀, .inr ⟨hk.symm, hconn.symm⟩⟩
  · exact ⟨conn, by simpa [hk] using h, .inl rfl⟩

theorem Owner.modify {conns : List Conn} {f : Conn → Conn} (h : Owner conns i c conn)
    (hf : ∀ conn, SameConn conn (f conn)) (hlive : c.tx = id → (f conn).live) :
    ∃ conn', Owner (conns.modify id f) i c conn' := by
  have hnewest : ∀ k conn', c.tx < k → (conns.modify id f)[k]? = some conn' → conn'.identity ≠ i := by
    intro k conn' hk hget
    obtain ⟨conn₀, h₀, rfl | ⟨-, rfl⟩⟩ := getElem?_modify_of_some hget
    · exact h.newest k conn' hk h₀
    · rw [(hf conn₀).identity_eq]
      exact h.newest k conn₀ hk h₀
  -- the changed connection may be the owner itself
  by_cases hid : c.tx = id
  · refine ⟨f conn, ?_, (hf conn).identity_eq.trans h.identity_eq,
      (hf conn).token_eq.trans h.token_eq, h.signal, hlive hid, hnewest,
      fun hflag => (hf conn).failed (h.flagged hflag)⟩
    simp [hid.symm, h.isConn]
  · refine ⟨conn, ?_, h.identity_eq, h.token_eq, h.signal, h.live, hnewest, h.flagged⟩
    simp [Ne.symm hid, h.isConn]

theorem map_token_modify {f : Conn → Conn} (hf : ∀ conn, SameConn conn (f conn))
    (conns : List Conn) : (conns.modify id f).map Conn.token = conns.map Conn.token := by
  refine List.ext_getElem? fun k => ?_
  rw [List.getElem?_map, List.getElem?_map, List.getElem?_modify]
  cases conns[k]? with
  | none => rfl
  | some conn => by_cases hk : id = k <;> simp [hk, (hf conn).token_eq]

/-- A change to a connection is safe if it does not end the cleanup of an entry's owner. -/
theorem Invariant.modifyConn {f : Conn → Conn} (h : Invariant s)
    (hf : ∀ conn, SameConn conn (f conn))
    (hlive : ∀ i c conn, s.balancer.txConsumers.lookup i = some c → c.tx = id →
      s.conns[id]? = some conn → conn.live → (f conn).live) :
    Invariant (s.modifyConn id f) := by
  refine ⟨fun i c hc => ?_, fun k conn hget => ?_, ?_, h.picks⟩
  · obtain ⟨conn, howner⟩ := h.owned i c hc
    refine howner.modify hf fun hid => hlive i c conn hc hid ?_ howner.live
    exact hid ▸ howner.isConn
  · obtain ⟨conn₀, h₀, rfl | ⟨-, rfl⟩⟩ := getElem?_modify_of_some hget
    · exact h.signalled k conn h₀
    · rw [(hf conn₀).identity_eq]
      exact h.signalled k conn₀ h₀
  · show ((s.conns.modify id f).map Conn.token).Nodup
    rw [map_token_modify hf]
    exact h.tokens

/-! ### Changes to the table -/

/-- Entries change in nothing that concerns their subscription. -/
theorem Invariant.mapEntries {g : String → TxConsumer → TxConsumer} (h : Invariant s)
    (hlookup : ∀ i, b.txConsumers.lookup i = (s.balancer.txConsumers.lookup i).map (g i))
    (hsignals : b.signals = s.balancer.signals)
    (htx : ∀ i c, (g i c).tx = c.tx) (htoken : ∀ i c, (g i c).token = c.token)
    (hsignal : ∀ i c, (g i c).txUnsubscribe = c.txUnsubscribe)
    (hflag : ∀ i c conn, s.balancer.txConsumers.lookup i = some c → s.conns[c.tx]? = some conn →
      (g i c).doUnsubscribe → c.doUnsubscribe ∨ conn.sendFailed) :
    Invariant { s with balancer := b } := by
  have hentry : ∀ i c, s.balancer.txConsumers.lookup i = some c →
      b.txConsumers.lookup i = some (g i c) := by
    intro i c hc
    rw [hlookup, hc, Option.map_some]
  refine ⟨fun i c' hc' => ?_, fun id conn hget => ?_, h.tokens, fun call hcall pick hpick => ?_⟩
  · obtain ⟨c, hc, rfl⟩ := Option.map_eq_some_iff.mp ((hlookup i).symm.trans hc')
    obtain ⟨conn, howner⟩ := h.owned i c hc
    refine ⟨conn, ?_, howner.identity_eq, howner.token_eq.trans (htoken i c).symm, ?_, howner.live,
      ?_, fun hf => ?_⟩
    · rw [htx]
      exact howner.isConn
    · rw [hsignal, htx]
      exact howner.signal
    · rw [htx]
      exact howner.newest
    · exact (hflag i c conn hc howner.isConn hf).elim howner.flagged id
  · rw [hsignals]
    refine (h.signalled id conn hget).imp_left ?_
    rintro ⟨c, hc, rfl⟩
    exact ⟨_, hentry _ _ hc, htx _ _⟩
  · obtain ⟨c, hc, htx'⟩ := h.picks call hcall pick hpick
    exact ⟨_, hentry _ _ hc, (htx _ _).trans htx'⟩

/-- Entries go, and are signalled as they go. -/
theorem Invariant.filterEntries {keep : String → TxConsumer → Bool} (h : Invariant s)
    (idle : s.publishing = [])
    (hlookup : ∀ i, b.txConsumers.lookup i = (s.balancer.txConsumers.lookup i).filter (keep i))
    (hsignals : s.balancer.signals ⊆ b.signals)
    (hgone : ∀ i c conn, s.balancer.txConsumers.lookup i = some c → keep i c = false →
      c.txUnsubscribe = some conn → conn ∈ b.signals) :
    Invariant { s with balancer := b } := by
  refine ⟨fun i c hc => ?_, fun id conn hget => ?_, h.tokens, by simp [idle]⟩
  · rw [hlookup] at hc
    exact h.owned i c (Option.filter_eq_some_iff.mp hc).1
  · rcases h.signalled id conn hget with ⟨c, hc, rfl⟩ | hmem
    · cases hkeep : keep conn.identity c with
      | true =>
        left
        refine ⟨c, ?_, rfl⟩
        rw [hlookup, hc, Option.filter_some_pos hkeep]
      | false =>
        obtain ⟨_, howner⟩ := h.owned _ c hc
        exact .inr (hgone _ c _ hc hkeep howner.signal)
    · exact .inr (hsignals hmem)

-- the new connection is the last
theorem getElem?_txStream {identity token : String} :
    (s.txStream identity token).conns[id]? = some conn ↔ s.conns[id]? = some conn ∨
      id = s.conns.length ∧ conn = ⟨identity, token, false, false, .looping, false⟩ := by
  rw [TxStreams.txStream, List.getElem?_append]
  split
  next hlt => simp [Nat.ne_of_lt hlt]
  next hge =>
    have hnone : s.conns[id]? = none := List.getElem?_eq_none_iff.mpr (Nat.le_of_not_lt hge)
    rw [List.getElem?_singleton, hnone]
    have hid : id - s.conns.length = 0 ↔ id = s.conns.length := by
      rw [Nat.sub_eq_zero_iff_le]
      exact (Nat.le_antisymm_iff.trans (and_iff_left (Nat.le_of_not_lt hge))).symm
    simp [hid, eq_comm]

/-- A new connection takes over its identity's entry; the one it replaces is signalled. -/
theorem Invariant.txStream {identity token : String} (h : Invariant s) (idle : s.publishing = [])
    (fresh : ∀ conn ∈ s.conns, conn.token ≠ token) : Invariant (s.txStream identity token) := by
  have hlookup (i : String) := s.balancer.lookup_subscribe i identity token s.conns.length
  refine ⟨fun i c hc => ?_, fun id conn hget => ?_, ?_, by simp [TxStreams.txStream, idle]⟩
  · simp only [TxStreams.txStream] at hc
    rw [hlookup] at hc
    split at hc
    next hi =>
      obtain rfl := Option.some.inj hc
      refine ⟨_, getElem?_txStream.mpr (.inr ⟨rfl, rfl⟩), hi.symm, rfl, rfl, rfl,
        fun id conn' hlt hget => ?_, by simp⟩
      rcases getElem?_txStream.mp hget with hget | ⟨rfl, -⟩
      · exact absurd hlt (Nat.lt_asymm (List.getElem?_eq_some_iff.mp hget).1)
      · exact absurd hlt (Nat.lt_irrefl _)
    next hi =>
      obtain ⟨conn, howner⟩ := h.owned i c hc
      refine ⟨conn, getElem?_txStream.mpr (.inl howner.isConn), howner.identity_eq, howner.token_eq, howner.signal,
        howner.live, fun id conn' hlt hget => ?_, howner.flagged⟩
      rcases getElem?_txStream.mp hget with hget | ⟨-, rfl⟩
      · exact howner.newest id conn' hlt hget
      · exact Ne.symm hi
  · rcases getElem?_txStream.mp hget with hget | ⟨rfl, rfl⟩
    · rcases h.signalled id conn hget with ⟨c, hc, rfl⟩ | hmem
      -- an older connection of the same identity is replaced, and dropped
      · by_cases hi : conn.identity = identity
        · right
          obtain ⟨_, howner⟩ := h.owned _ c hc
          rw [hi] at hc
          simp [TxStreams.txStream, Balancer.subscribe, Balancer.insertConsumer, hc,
            TxConsumer.drop, howner.signal]
        · left
          refine ⟨c, ?_, rfl⟩
          simp only [TxStreams.txStream]
          rw [hlookup, if_neg hi, hc]
      · right
        simp [TxStreams.txStream, Balancer.subscribe, Balancer.insertConsumer, hmem]
    · left
      simp only [TxStreams.txStream]
      exact ⟨_, (hlookup identity).trans (if_pos rfl), rfl⟩
  · simp only [TxStreams.txStream, List.map_append, List.map_cons, List.map_nil]
    refine List.nodup_append.mpr ⟨h.tokens, List.nodup_singleton _, ?_⟩
    intro t ht t' ht'
    obtain ⟨conn, hconn, rfl⟩ := List.mem_map.mp ht
    obtain rfl := List.mem_singleton.mp ht'
    exact fresh conn hconn

-- which calls are in progress matters only through what they still have to send
theorem Invariant.setPublishing {publishing : List PublishCall} (h : Invariant s)
    (hpicks : ∀ call ∈ publishing, ∀ pick ∈ call.remaining,
      ∃ c, s.balancer.txConsumers.lookup pick.1.identity = some c ∧ c.tx = pick.1.tx) :
    Invariant { s with publishing } :=
  ⟨h.owned, h.signalled, h.tokens, hpicks⟩

/-- A failed send flags the entry of the connection it was made on. -/
theorem Invariant.send {n : ℕ} {call : PublishCall} {pick : Pick} {rest : List Pick}
    (h : Invariant s) (hcall : s.publishing[n]? = some call) (next : call.remaining = pick :: rest) :
    Invariant (s.send n call pick rest) := by
  have hmem : call ∈ s.publishing := List.mem_of_getElem? hcall
  have hpublishing (call' : PublishCall) (hrest : call'.remaining = rest) :
      Invariant { s with publishing := s.publishing.set n call' } := by
    refine h.setPublishing fun call'' hcall'' pick' hpick' => ?_
    rcases List.mem_or_eq_of_mem_set hcall'' with hold | rfl
    · exact h.picks call'' hold pick' hpick'
    · refine h.picks call hmem pick' ?_
      rw [next]
      exact List.mem_cons_of_mem _ (hrest ▸ hpick')
  cases hacc : s.accepts pick.1.tx with
  | true =>
    simp only [TxStreams.send, hacc, publishSend, if_true]
    exact hpublishing _ rfl
  | false =>
    obtain ⟨c, hc, htx⟩ := h.picks call hmem pick (by rw [next]; exact List.mem_cons_self)
    simp only [TxStreams.send, hacc, publishSend, Bool.false_eq_true, if_false]
    have hfailed : Invariant ({ s with
        publishing := s.publishing.set n { call with remaining := rest } }.modifyConn pick.1.tx
          fun conn => { conn with sendFailed := true }) :=
      (hpublishing _ rfl).modifyConn (fun _ => ⟨rfl, rfl, fun _ => rfl⟩)
        (fun _ _ _ _ _ _ hlive => hlive)
    refine hfailed.mapEntries (s.balancer.lookup_flagUnsubscribe · pick.1.identity) rfl
      (fun i c => by split <;> rfl) (fun i c => by split <;> rfl) (fun i c => by split <;> rfl) ?_
    intro i c' conn hc' hconn hflag
    by_cases hi : i = pick.1.identity
    · -- the flagged entry is the one picked, so its connection is the one that failed
      right
      subst hi
      obtain rfl : c = c' := Option.some.inj (hc.symm.trans hc')
      rw [htx] at hconn
      simp only [TxStreams.modifyConn, List.getElem?_modify_eq] at hconn
      obtain ⟨conn₁, -, rfl⟩ := Option.map_eq_some_iff.mp hconn
      rfl
    · left
      simpa [hi] using hflag

theorem Invariant.step (h : Invariant s) (hs : Step s event s') : Invariant s' := by
  cases hs with
  | txStream idle fresh => exact h.txStream idle fresh
  | endStream => exact h.modifyConn (fun _ => ⟨rfl, rfl, id⟩) (fun _ _ _ _ _ _ hlive => hlive)
  | dropReceiver => exact h.modifyConn (fun _ => ⟨rfl, rfl, id⟩) (fun _ _ _ _ _ _ hlive => hlive)
  | stop hconn looping wake =>
    exact h.modifyConn (fun _ => ⟨rfl, rfl, id⟩) (fun _ _ _ _ _ _ _ => rfl)
  | @cleanup id conn idle hconn stopping =>
    have hfilter := h.filterEntries idle
      (s.balancer.lookup_unsubscribe · conn.identity conn.token)
      (s.balancer.signals_subset_unsubscribe conn.identity conn.token) ?_
    · refine hfilter.modifyConn (fun _ => ⟨rfl, rfl, fun hf => hf⟩) ?_
      -- the entry of the connection that cleans up is gone
      intro i c conn' hc hid hconn' hlive
      obtain ⟨hc, hkeep⟩ := Option.filter_eq_some_iff.mp
        ((s.balancer.lookup_unsubscribe i conn.identity conn.token).symm.trans hc)
      obtain ⟨conn'', howner⟩ := h.owned i c hc
      have heq : conn'' = conn := by
        have := howner.isConn
        rw [hid, hconn] at this
        exact (Option.some.inj this).symm
      subst heq
      simp [howner.identity_eq, howner.token_eq] at hkeep
    · intro i c x hc hgone hx
      simp only [decide_eq_false_iff_not, not_not] at hgone
      obtain ⟨rfl, htoken⟩ := hgone
      exact s.balancer.mem_signals_unsubscribe _ _ hc htoken hx
  | @resetClientMetrics id conn hconn unsubscribed =>
    have hsame := h.mapEntries (b := s.balancer.resetClientMetrics conn.identity)
      (g := fun _ c => c) (by simp [Balancer.resetClientMetrics]) rfl (fun _ _ => rfl)
      (fun _ _ => rfl) (fun _ _ => rfl) (fun _ _ _ _ _ => .inl)
    refine hsame.modifyConn (fun _ => ⟨rfl, rfl, fun hf => hf⟩) ?_
    intro i c conn' _ _ hconn' hlive
    obtain rfl : conn = conn' := Option.some.inj (hconn.symm.trans hconn')
    simp [Conn.live, unsubscribed] at hlive
  | updateRtt idle hconn looping ok =>
    obtain ⟨rttValues, rfl⟩ := Balancer.updateRtt_eq_ok _ _ ok
    exact h.mapEntries (g := fun _ c => c) (by simp) rfl (fun _ _ => rfl) (fun _ _ => rfl)
      (fun _ _ => rfl) (fun _ _ _ _ _ => .inl)
  | startPublish picked unsent =>
    refine h.setPublishing fun call hcall pick hpick => ?_
    rcases List.mem_append.mp hcall with hold | hnew
    · exact h.picks call hold pick hpick
    · obtain rfl := List.mem_singleton.mp hnew
      obtain ⟨i, hi⟩ := AList.mem_values.mp (Balancer.mem_values_of_pick picked hpick)
      exact ⟨pick.1, (s.balancer.keyed i _ hi).symm ▸ hi, rfl⟩
  | send hcall next => exact h.send hcall next
  | endPublish hcall done =>
    exact h.setPublishing fun call hcall => h.picks call (List.mem_of_mem_eraseIdx hcall)
  | @updateStakeWeights w idle =>
    exact h.mapEntries (s.balancer.lookup_updateStakeWeights · w) rfl (fun _ _ => rfl)
      (fun _ _ => rfl) (fun _ _ => rfl) (fun _ _ _ _ _ => .inl)
  | @receiveLeaders leaderTpus leaders o idle =>
    refine h.filterEntries idle
      ((s.balancer.setLeaders leaderTpus leaders).lookup_flushUnsubscribes o)
      ((s.balancer.setLeaders leaderTpus leaders).signals_subset_flushUnsubscribes o) ?_
    intro i c x hc hgone hx
    simp only [Bool.not_eq_eq_eq_not, Bool.not_false] at hgone
    exact Balancer.mem_signals_flushUnsubscribes
      (b := s.balancer.setLeaders leaderTpus leaders) o hc hx hgone

theorem invariant_of_reachable (h : Reachable Step new s) : Invariant s :=
  h.invariant invariant_new fun _ _ _ ht hs => ht.step hs

/-! ## What happens to an entry -/

/-- The steps that may remove an entry: the cleanup of its own connection, and a flush after a
failed send on its own channel. -/
def Removes (s : TxStreams) (event : StreamsEvent) (c : TxConsumer) : Prop :=
  event = .cleanup c.tx ∨
    ∃ leaderTpus leaders o conn, event = .receiveLeaders leaderTpus leaders o ∧
      s.conns[c.tx]? = some conn ∧ conn.sendFailed

/-- A step leaves an entry to its connection, or replaces it by that of a new connection of its
identity, or removes it. -/
theorem entry_cases (h : Invariant s) (hs : Step s event s')
    (hc : s.balancer.txConsumers.lookup i = some c) :
    (∃ c', s'.balancer.txConsumers.lookup i = some c' ∧ c'.tx = c.tx) ∨
    (∃ token c', event = .txStream i token ∧ s'.balancer.txConsumers.lookup i = some c' ∧
      c'.tx = s.conns.length) ∨
    s'.balancer.txConsumers.lookup i = none ∧ s.Removes event c := by
  cases hs with
  | @txStream identity token idle fresh =>
    have hlookup := s.balancer.lookup_subscribe i identity token s.conns.length
    by_cases hi : i = identity
    · rw [if_pos hi] at hlookup
      exact .inr (.inl ⟨token, _, by rw [hi], hlookup, rfl⟩)
    · rw [if_neg hi, hc] at hlookup
      exact .inl ⟨c, hlookup, rfl⟩
  | endStream | dropReceiver | stop | startPublish | endPublish | resetClientMetrics =>
    exact .inl ⟨c, hc, rfl⟩
  | @cleanup id conn idle hconn stopping =>
    have hlookup := s.balancer.lookup_unsubscribe i conn.identity conn.token
    rw [hc] at hlookup
    by_cases hown : i = conn.identity ∧ c.token = conn.token
    · -- tokens tell connections apart
      obtain ⟨conn', howner⟩ := h.owned i c hc
      have hget : (s.conns.map Conn.token)[c.tx]? = (s.conns.map Conn.token)[id]? := by
        rw [List.getElem?_map, List.getElem?_map, howner.isConn, hconn, Option.map_some,
          Option.map_some, howner.token_eq, hown.2]
      have hlt : c.tx < (s.conns.map Conn.token).length := by
        rw [List.length_map]
        exact (List.getElem?_eq_some_iff.mp howner.isConn).1
      rw [Option.filter_some_neg (by simp [hown])] at hlookup
      exact .inr (.inr ⟨hlookup, .inl (by rw [(List.getElem?_inj hlt h.tokens).mp hget])⟩)
    · rw [Option.filter_some_pos (by simp only [decide_eq_true_eq]; exact hown)] at hlookup
      exact .inl ⟨c, hlookup, rfl⟩
  | updateRtt idle hconn looping ok =>
    obtain ⟨rttValues, rfl⟩ := Balancer.updateRtt_eq_ok _ _ ok
    exact .inl ⟨c, hc, rfl⟩
  | @send n call pick rest hcall next =>
    left
    simp only [TxStreams.send, publishSend]
    split
    · exact ⟨c, hc, rfl⟩
    · have hlookup := s.balancer.lookup_flagUnsubscribe i pick.1.identity
      rw [hc, Option.map_some] at hlookup
      exact ⟨_, hlookup, by split <;> rfl⟩
  | @updateStakeWeights w idle =>
    have hlookup := s.balancer.lookup_updateStakeWeights i w
    rw [hc, Option.map_some] at hlookup
    exact .inl ⟨_, hlookup, rfl⟩
  | @receiveLeaders leaderTpus leaders o idle =>
    have hlookup := (s.balancer.setLeaders leaderTpus leaders).lookup_flushUnsubscribes o i
    rw [Balancer.setLeaders_txConsumers, hc] at hlookup
    cases hflag : c.doUnsubscribe with
    | true =>
      obtain ⟨conn, howner⟩ := h.owned i c hc
      rw [Option.filter_some_neg (by simp [hflag])] at hlookup
      exact .inr (.inr ⟨hlookup, .inr ⟨_, _, _, conn, rfl, howner.isConn, howner.flagged hflag⟩⟩)
    | false =>
      rw [Option.filter_some_pos (by simp [hflag])] at hlookup
      exact .inl ⟨c, hlookup, rfl⟩

/-- In every state of any interleaving: an entry is that of the newest connection of its identity,
whose task has not run its cleanup; a step that removes it is the cleanup of that connection or a
flush after a failed send on its channel, and one that hands it to another connection opens that
connection for the same identity; and every connection without an entry has been signalled. -/
theorem subscriptions_safe (h : Reachable Step new s) :
    (∀ i c, s.balancer.txConsumers.lookup i = some c →
      ∃ conn, s.conns[c.tx]? = some conn ∧ conn.identity = i ∧ conn.token = c.token ∧
        (∀ id conn', c.tx < id → s.conns[id]? = some conn' → conn'.identity ≠ i) ∧ conn.live) ∧
    (∀ i c event s', s.balancer.txConsumers.lookup i = some c → Step s event s' →
      (s'.balancer.txConsumers.lookup i = none → s.Removes event c) ∧
        ∀ c', s'.balancer.txConsumers.lookup i = some c' → c'.tx ≠ c.tx →
          c'.tx = s.conns.length ∧ ∃ token, event = .txStream i token) ∧
    (∀ id conn, s.conns[id]? = some conn →
      (∀ c, s.balancer.txConsumers.lookup conn.identity = some c → c.tx ≠ id) →
        id ∈ s.balancer.signals) := by
  have hinv := invariant_of_reachable h
  refine ⟨fun i c hc => ?_, fun i c event s' hc hs => ?_, fun id conn hget hnone => ?_⟩
  · obtain ⟨conn, howner⟩ := hinv.owned i c hc
    exact ⟨conn, howner.isConn, howner.identity_eq, howner.token_eq, howner.newest, howner.live⟩
  · rcases entry_cases hinv hs hc with ⟨c₁, hc₁, htx⟩ | ⟨token, c₁, hevent, hc₁, htx⟩ |
      ⟨hgone, hremoves⟩
    · refine ⟨fun hgone => by simp [hgone] at hc₁, fun c' hc' hne => ?_⟩
      obtain rfl : c₁ = c' := Option.some.inj (hc₁.symm.trans hc')
      exact absurd htx hne
    · refine ⟨fun hgone => by simp [hgone] at hc₁, fun c' hc' _ => ?_⟩
      obtain rfl : c₁ = c' := Option.some.inj (hc₁.symm.trans hc')
      exact ⟨htx, token, hevent⟩
    · exact ⟨fun _ => hremoves, fun c' hc' => by simp [hgone] at hc'⟩
  · refine (hinv.signalled id conn hget).resolve_left ?_
    rintro ⟨c, hc, htx⟩
    exact hnone c hc htx

end Preservation

/-- A client that reconnects while its old connection is open: the old one is signalled. -/
theorem signalled_after_reconnect :
    0 ∈ ((new.txStream "A" "token1").txStream "A" "token2").balancer.signals := by
  have hfirst : Step new (.txStream "A" "token1") _ := .txStream rfl (by simp [new])
  have hsecond : Step (new.txStream "A" "token1") (.txStream "A" "token2") _ :=
    .txStream rfl (by simp [new, TxStreams.txStream])
  exact (subscriptions_safe (((Reachable.refl new).next hfirst).next hsecond)).2.2 0 _ rfl (by decide)

end TxStreams

end Mtransaction
