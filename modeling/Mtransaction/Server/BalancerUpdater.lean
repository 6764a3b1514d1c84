import Mtransaction.Server.BalancerRuns
import Mtransaction.Server.LeadersStream

/-!
# The leader pipeline

`leaders_stream` feeds `balancer_updater` over an unbounded channel; the updater looks the leaders
up in a table it refreshes on a timer and sets them in the balancer, which client connections and
RPC requests use at the same time.
-/

namespace Mtransaction

open Runs

/-! ## The table of validators -/

structure ValidatorRecord where
  identity : String
  voteAccount : String
  dcFullCity : String
  deriving DecidableEq, Repr

/-- `get_tpu_by_identity` on the cluster nodes: public key and QUIC TPU of each. -/
def getTpuByIdentity (nodes : Except String (List (String × Option String))) :
    Except String (HashMap String String) :=
  match nodes with
  | .error err => .error err
  | .ok nodes => .ok (AList.collect (nodes.filterMap fun node =>
      match node.2 with
      | some tpu => some (node.1, tpu)
      | none => none))

def fetchValidatorRecords (response : Except String (List ValidatorRecord)) :
    Except String (HashMap String ValidatorRecord) :=
  match response with
  | .error err => .error err
  | .ok validators => .ok (AList.collect (validators.map fun entry => (entry.identity, entry)))

/-- `fetch_jito_validators` on the vote accounts, with whether each runs Jito. -/
def fetchJitoValidators (response : Except String (List (String × Bool))) :
    Except String (HashSet String) :=
  match response with
  | .error err => .error err
  | .ok validators => .ok (.collect (validators.filterMap fun entry =>
      if entry.2 then some entry.1 else none))

/-- Identities with a record, in any order: no two entries of `tpus` share one. -/
def mergeValidatorRecords (tpus : HashMap String String)
    (validatorRecords : HashMap String ValidatorRecord) (jitoIdentities : HashSet String) :
    HashMap String LeaderInfo :=
  tpus.toPairs.foldl (fun result e =>
    match validatorRecords.lookup e.1 with
    | some record => result.insert e.1
        ⟨e.1, e.2, record.dcFullCity, decide (record.voteAccount ∈ jitoIdentities.elems)⟩
    | none => result) ∅

def getLeaderInfo (nodes : Except String (List (String × Option String)))
    (validators : Except String (List ValidatorRecord))
    (jito : Except String (List (String × Bool))) : Except String (HashMap String LeaderInfo) :=
  match getTpuByIdentity nodes with
  | .error err => .error ("Failed to update TPUs by identity: " ++ err)
  | .ok tpus =>
    match fetchValidatorRecords validators with
    | .error err => .error ("Failed to fetch validator records: " ++ err)
    | .ok validatorRecords =>
      match fetchJitoValidators jito with
      | .error err => .error ("Failed to fetch Jito validators: " ++ err)
      | .ok jitoIdentities => .ok (mergeValidatorRecords tpus validatorRecords jitoIdentities)

/-! ## One reception -/

structure Pubkey where
  bytes : Vector UInt8 32
  deriving DecidableEq, Repr

/-- What a reception finds around it: gossip's QUIC TPUs, and the orders of the set received, of
the map collected from it and of `tx_consumers`. -/
structure ReceiveEnv where
  contactInfo : Pubkey → Option String
  leaderOrder : HashOrder String
  valueOrder : HashOrder (String × LeaderInfo)
  flushOrder : HashOrder (String × TxConsumer)

section Receive

-- `Pubkey::from_str` belongs to the Solana SDK.
variable (pubkeyFromStr : String → Option Pubkey)

def lookupInfo (contactInfo : Pubkey → Option String) (validatorRecords : HashMap String LeaderInfo)
    (identity : String) : Except Panic (Option LeaderInfo) :=
  match validatorRecords.lookup identity with
  | none => .ok none
  | some record =>
    match pubkeyFromStr identity with
    -- `Pubkey::from_str(identity).unwrap()`
    | none => .error .notPubkey
    | some key =>
      match contactInfo key with
      -- gossip knows a newer TPU
      | some tpu => .ok (some { record with tpu })
      | none => .ok (some record)

/-- The `filter_map` over the received set. -/
def lookupLeaders (contactInfo : Pubkey → Option String)
    (infoMap : HashMap String LeaderInfo) : List String → Except Panic (List (String × LeaderInfo))
  | [] => .ok []
  | identity :: rest =>
    match lookupInfo pubkeyFromStr contactInfo infoMap identity with
    | .error panic => .error panic
    | .ok info =>
      match lookupLeaders contactInfo infoMap rest with
      | .error panic => .error panic
      | .ok leaders =>
        match info with
        | some value => .ok ((identity, value) :: leaders)
        | none => .ok leaders

/-- The branch of `balancer_updater` that handles one received set. -/
def Balancer.receiveLeaders (b : Balancer) (infoMap : HashMap String LeaderInfo) (env : ReceiveEnv)
    (plainLeaders : HashSet String) : Except Panic Balancer :=
  match lookupLeaders pubkeyFromStr env.contactInfo infoMap
      (env.leaderOrder.arrange plainLeaders.elems) with
  | .error panic => .error panic
  | .ok leaders =>
    let leadersInfo := AList.collect leaders
    let leaderValues := (leadersInfo.iter env.valueOrder).map Prod.snd
    -- both under one write lock
    .ok ((b.setLeaders leaderValues leadersInfo).flushUnsubscribes env.flushOrder)

end Receive

/-! ## The server's tasks together -/

/-- The balancer's operations that tasks other than `balancer_updater` call. -/
inductive ClientOp
  | subscribe (identity token : String) (conn : ConnId)
  | unsubscribe (identity token : String)
  | updateStakeWeights (stakeWeights : HashMap String UInt64)
  | updateRtt (identity : String) (value : Rtt)
  | publish (env : PublishEnv) (session : SignatureRecord) (signature data : String)

def ClientOp.toBalancerOp : ClientOp → BalancerOp
  | .subscribe identity token conn => .subscribe identity token conn
  | .unsubscribe identity token => .unsubscribe identity token
  | .updateStakeWeights stakeWeights => .updateStakeWeights stakeWeights
  | .updateRtt identity value => .updateRtt identity value
  | .publish env session signature data => .publish env session signature data

/-- The leader pipeline and the balancer.  `received` counts the sets taken off the channel;
`exited` is set by the first panic. -/
structure Server where
  stream : LeadersStream
  received : ℕ
  infoMap : HashMap String LeaderInfo
  balancer : Balancer
  exited : Option Panic

inductive ServerEvent
  | stream (event : StreamEvent)
  | nodes (nodes : Except String (List (String × Option String)))
      (validators : Except String (List ValidatorRecord))
      (jito : Except String (List (String × Bool)))
  | receive (env : ReceiveEnv)
  | op (op : ClientOp)

namespace Server

def new : Server := ⟨.new, 0, ∅, .new, none⟩

/-- One step of one task.  Nothing happens once the process has exited. -/
def step (pubkeyFromStr : String → Option Pubkey) (s : Server) (event : ServerEvent) : Server :=
  match s.exited with
  | some _ => s
  | none =>
    match event with
    | .stream event =>
      match s.stream.step event with
      | .ok stream => { s with stream }
      | .error panic => { s with exited := some panic }
    | .nodes nodes validators jito =>
      match getLeaderInfo nodes validators jito with
      | .ok infoMap => { s with infoMap }
      -- logged, and the old table stays
      | .error _ => s
    | .receive env =>
      match s.stream.sent[s.received]? with
      | some plainLeaders =>
        match s.balancer.receiveLeaders pubkeyFromStr s.infoMap env plainLeaders with
        | .ok balancer => { s with balancer, received := s.received + 1 }
        | .error panic => { s with exited := some panic }
      | none => s
    | .op op =>
      match s.balancer.step op.toBalancerOp with
      | .ok balancer => { s with balancer }
      | .error panic => { s with exited := some panic }

end Server

end Mtransaction
