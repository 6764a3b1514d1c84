import Mtransaction.Client.GrpcClient
import Mtransaction.Server.LeaderPipeline
import Mtransaction.Server.RpcServer

/-!
# What the server sends, the client can use

The client's forward tasks unwrap the addresses and the data of a transaction without checking.
The server writes the addresses from socket addresses it got from the RPC node and from gossip, and
has decoded the data itself before it forwards them.
-/

namespace Mtransaction

open Runs

variable {SocketAddr : Type}

/-- `SocketAddr::to_string` of some address. -/
def IsSocketAddr (display : SocketAddr → String) (tpu : String) : Prop :=
  ∃ addr, tpu = display addr

/-- The addresses the RPC node or gossip report with this event are socket addresses. -/
def ServerEvent.Addressed (display : SocketAddr → String) : ServerEvent → Prop
  | .nodes (.ok reported) _ _ => ∀ node ∈ reported, ∀ tpu ∈ node.2, IsSocketAddr display tpu
  | .receive env => ∀ key, ∀ tpu ∈ env.contactInfo key, IsSocketAddr display tpu
  | _ => True

/-- What the client relies on. -/
structure Agreed (forward : ForwardCrates SocketAddr) (transaction : Transaction) : Prop where
  decodes : ∃ wire, forward.base64Decode transaction.data = .ok wire
  parses : ∀ tpu ∈ transaction.tpu, ∃ addr, forward.parse tpu = .ok addr

/-- The client and the server use the same base64, and an address that is displayed can be read
back. -/
structure SameCrates (crates : Crates) (forward : ForwardCrates SocketAddr)
    (display : SocketAddr → String) : Prop where
  base64 : ∀ data, forward.base64Decode data = crates.base64Decode data
  parse_display : ∀ addr, forward.parse (display addr) = .ok addr

/-! ## Where the addresses come from -/

section Addresses

variable {display : SocketAddr → String} {pubkeyFromStr : String → Option Pubkey}
  {infoMap : HashMap String LeaderInfo} {identity : String} {info : LeaderInfo}

def TableAddressed (display : SocketAddr → String) (infoMap : HashMap String LeaderInfo) : Prop :=
  ∀ identity info, infoMap.lookup identity = some info → IsSocketAddr display info.tpu

theorem lookup_getTpuByIdentity {nodes : List (String × Option String)}
    {tpus : HashMap String String} {tpu : String} (h : getTpuByIdentity (.ok nodes) = .ok tpus)
    (htpu : tpus.lookup identity = some tpu) : (identity, some tpu) ∈ nodes := by
  obtain rfl := Except.ok.inj h
  obtain ⟨⟨identity', tpu'⟩, hnode, heq⟩ :=
    List.mem_filterMap.mp (AList.mem_of_lookup_collect htpu)
  cases tpu' with
  | none => simp at heq
  | some tpu' =>
    obtain ⟨rfl, rfl⟩ := Prod.mk.inj (Option.some.inj heq)
    exact hnode

theorem lookup_mergeValidatorRecords {tpus : HashMap String String}
    {validatorRecords : HashMap String ValidatorRecord} {jitoIdentities : HashSet String}
    (h : (mergeValidatorRecords tpus validatorRecords jitoIdentities).lookup identity = some info) :
    tpus.lookup identity = some info.tpu := by
  -- the loop only adds entries of this kind
  refine (List.foldlRecOn (motive := fun result : HashMap String LeaderInfo => ∀ i info,
    result.lookup i = some info → tpus.lookup i = some info.tpu) tpus.toPairs _ (by simp) ?_)
    identity info h
  intro result hresult e he i info hi
  split at hi
  next record _ =>
    rw [AList.lookup_insert_eq_ite] at hi
    split at hi
    next heq =>
      rw [← Option.some.inj hi, heq]
      exact AList.mem_toPairs.mp he
    next => exact hresult i info hi
  next => exact hresult i info hi

theorem tableAddressed_getLeaderInfo {nodes : Except String (List (String × Option String))}
    {validators : Except String (List ValidatorRecord)} {jito : Except String (List (String × Bool))}
    (haddressed : (ServerEvent.nodes nodes validators jito).Addressed display)
    (h : getLeaderInfo nodes validators jito = .ok infoMap) : TableAddressed display infoMap := by
  intro identity info hinfo
  unfold getLeaderInfo at h
  split at h
  · simp at h
  next tpus htpus =>
    split at h
    · simp at h
    · split at h
      · simp at h
      · obtain rfl := Except.ok.inj h
        have htpu := lookup_mergeValidatorRecords hinfo
        cases nodes with
        | error err => simp [getTpuByIdentity] at htpus
        | ok nodes =>
          exact haddressed _ (lookup_getTpuByIdentity htpus htpu) _ rfl

theorem isSocketAddr_lookupInfo {contactInfo : Pubkey → Option String}
    (htable : TableAddressed display infoMap)
    (hgossip : ∀ key, ∀ tpu ∈ contactInfo key, IsSocketAddr display tpu)
    (h : lookupInfo pubkeyFromStr contactInfo infoMap identity = .ok (some info)) :
    IsSocketAddr display info.tpu := by
  unfold lookupInfo at h
  split at h
  · simp at h
  next record hrecord =>
    split at h
    · simp at h
    next key _ =>
      split at h
      next tpu htpu =>
        rw [← Option.some.inj (Except.ok.inj h)]
        exact hgossip key tpu htpu
      next =>
        rw [← Option.some.inj (Except.ok.inj h)]
        exact htable identity record hrecord

theorem tableAddressed_receiveLeaders {b b' : Balancer} {env : ReceiveEnv}
    {plainLeaders : HashSet String} (htable : TableAddressed display infoMap)
    (hgossip : (ServerEvent.receive env).Addressed display)
    (h : b.receiveLeaders pubkeyFromStr infoMap env plainLeaders = .ok b') :
    TableAddressed display b'.leaders := by
  intro identity info hinfo
  unfold Balancer.receiveLeaders at h
  split at h
  · simp at h
  next leaders hleaders =>
    obtain rfl := Except.ok.inj h
    rw [(Balancer.sameLeaders_flushUnsubscribes _ _).1] at hinfo
    have hmem := AList.mem_of_lookup_collect hinfo
    exact isSocketAddr_lookupInfo htable hgossip (mem_lookupLeaders hleaders hmem).2

end Addresses

/-! ## Every reachable state -/

namespace Server

variable {display : SocketAddr → String} {pubkeyFromStr : String → Option Pubkey} {s : Server}
  {event : ServerEvent} {tr : List (Server × ServerEvent)}

/-- The table and the leaders have socket addresses only. -/
structure Addressed (display : SocketAddr → String) (s : Server) : Prop where
  table : TableAddressed display s.infoMap
  leaders : TableAddressed display s.balancer.leaders

theorem Addressed.step (h : s.Addressed display) (hevent : event.Addressed display) :
    (step pubkeyFromStr s event).Addressed display := by
  unfold Server.step
  cases s.exited with
  | some _ => exact h
  | none =>
    cases event with
    | stream event =>
      dsimp only
      split <;> exact ⟨h.table, h.leaders⟩
    | nodes nodes validators jito =>
      dsimp only
      split
      next infoMap hinfo => exact ⟨tableAddressed_getLeaderInfo hevent hinfo, h.leaders⟩
      next => exact h
    | receive env =>
      dsimp only
      split
      next plainLeaders _ =>
        split
        next balancer hreceive =>
          exact ⟨h.table, tableAddressed_receiveLeaders h.table hevent hreceive⟩
        next => exact ⟨h.table, h.leaders⟩
      next => exact h
    | op op =>
      dsimp only
      split
      next balancer hop =>
        refine ⟨h.table, ?_⟩
        rw [TableAddressed, (Balancer.step_sameLeaders hop).1]
        exact h.leaders
      next => exact ⟨h.table, h.leaders⟩

theorem addressed_of_run (h : Run (StepsBy (step pubkeyFromStr)) new tr s)
    (haddressed : ∀ x ∈ tr, x.2.Addressed display) : s.Addressed display := by
  refine h.invariant ⟨?_, ?_⟩ ?_
  · simp [TableAddressed, new]
  · simp [TableAddressed, new, Balancer.new]
  · rintro t event u hmem ht rfl
    exact ht.step (haddressed _ hmem)

/-- What is told to a picked consumer is a leader's address. -/
theorem Addressed.pick (h : s.Addressed display) (haligned : s.balancer.LeadersAligned)
    {o : HashOrder (String × TxConsumer)} {rng : Rng} {picks : List Pick}
    (hpicks : s.balancer.pickConsumers o rng = .ok picks) {pick : Pick} (hpick : pick ∈ picks)
    {tpuOrder : HashOrder String} {tpu : String} (htpu : tpu ∈ pickTpus tpuOrder pick.2) :
    IsSocketAddr display tpu := by
  rw [pickTpus, HashOrder.mem_arrange, List.mem_dedup] at htpu
  obtain ⟨info, hinfo, rfl⟩ := List.mem_map.mp htpu
  have hvalue : info ∈ s.balancer.leaders.values := by
    rcases Balancer.mem_leaders_of_pick hpicks hpick hinfo with hspread | hown
    · exact haligned.mem_iff.mp hspread
    · exact hown
  obtain ⟨identity, hlookup⟩ := AList.mem_values.mp hvalue
  exact h.leaders identity info hlookup

end Server

/-! ## Every envelope -/

section Envelopes

variable {crates : Crates} {forward : ForwardCrates SocketAddr} {display : SocketAddr → String}
  {pubkeyFromStr : String → Option Pubkey} {s : Server} {tr : List (Server × ServerEvent)}
  {env : RequestEnv} {state : RpcState} {data : String}
  {config : Option SendPriorityTransactionConfig} {handled : Handled}

/-- In every reachable state of the server, every transaction that a request puts on a channel is
one the client can use. -/
theorem delivered_agreed (hcrates : SameCrates crates forward display)
    (h : Run (StepsBy (Server.step pubkeyFromStr)) .new tr s)
    (haddressed : ∀ x ∈ tr, x.2.Addressed display) (method : Method)
    (hcall : method.call crates s.balancer env state data config = .ok handled) :
    ∀ conn envelope transaction, (conn, envelope) ∈ handled.delivered →
      envelope.transaction = some transaction → Agreed forward transaction := by
  intro conn envelope transaction hmem htransaction
  rw [Method.call_eq] at hcall
  rcases sendPriorityTransaction_cases hcall with
    ⟨err, rfl⟩ | ⟨signature, -, -, rfl⟩ | ⟨auth, signature, p, hadmitted, -, hpublish, rfl⟩
  · simp [Handled.early] at hmem
  · simp [Handled.early] at hmem
  · obtain ⟨-, picks, pick, hpicks, hpick, rfl⟩ := Balancer.mem_delivered_publish hpublish hmem
    obtain rfl := Option.some.inj htransaction
    constructor
    · -- the server has decoded the data before
      obtain ⟨-, -, wire, decoded, hwire, -⟩ := hadmitted
      exact ⟨wire, (hcrates.base64 data).trans hwire⟩
    · intro tpu htpu
      have hserver := Server.addressed_of_run h haddressed
      have haligned := Server.leadersAligned_of_reachable ⟨tr, h⟩
      obtain ⟨addr, rfl⟩ := hserver.pick haligned hpicks hpick htpu
      exact ⟨addr, hcrates.parse_display addr⟩

theorem Agreed.sendable {transaction : Transaction} (h : Agreed forward transaction) :
    Forwarding.Sendable forward transaction :=
  fun tpu htpu => ⟨h.parses tpu htpu, h.decodes⟩

/-- Such a server's responses are harmless to every client. -/
theorem harmless_of_agreed {client : Client} {n : ℕ} {taken : Bool}
    {envelope : ResponseMessageEnvelope}
    (h : ∀ transaction ∈ envelope.transaction, Agreed forward transaction) :
    client.Harmless forward (.conn n (.response taken (.ok envelope))) :=
  fun _ transaction htransaction => (h transaction htransaction).sendable

end Envelopes

/-! ## Three leaders -/

def threeTpus : List String := ["10.0.0.1:8009", "10.0.0.2:8009", "10.0.0.3:8009"]

/-- The libraries on these addresses and on the data of one transaction. -/
def threeForward : ForwardCrates { tpu : String // tpu ∈ threeTpus } where
  parse tpu :=
    if h : tpu ∈ threeTpus then .ok ⟨tpu, h⟩ else .error "invalid socket address syntax"
  base64Decode := sampleCrates.base64Decode

theorem sameCrates_three : SameCrates sampleCrates threeForward Subtype.val :=
  ⟨fun _ => rfl, fun addr => dif_pos addr.2⟩

/-- The keys that are 0, 1 and 2 as numbers, in base58. -/
def threeValidators : List String :=
  ["11111111111111111111111111111111", "11111111111111111111111111111112",
    "11111111111111111111111111111113"]

def threePubkeyFromStr (identity : String) : Option Pubkey :=
  (threeValidators.findIdx? fun validator => validator = identity).map fun k =>
    ⟨(Vector.replicate 32 0).set 31 (UInt8.ofNat k)⟩

/-- Three validators lead in turn, the RPC node knows them all, and a client connects. -/
def threeEvents : List ServerEvent :=
  [.stream (.subscribed true),
    .stream (.refresh .stored (.ok (some (AList.collect (threeValidators.zip [[0], [4], [8]]))))),
    .stream (.slot 0),
    .nodes (.ok (threeValidators.zip (threeTpus.map some)))
      (.ok (threeValidators.map fun identity => ⟨identity, "vote", "Prague"⟩)) (.ok []),
    .receive ⟨fun _ => none, .stored, .stored, .stored⟩,
    .op (.subscribe "A" "token" 0)]

def threeServer : Server := threeEvents.foldl (Server.step threePubkeyFromStr) .new

/-- The client gets two of the three addresses with its first envelope, and can use them. -/
theorem agreed_with_three_leaders :
    ∃ tr handled transaction,
      Run (StepsBy (Server.step threePubkeyFromStr)) .new tr threeServer ∧
      Method.sendTransaction.call sampleCrates threeServer.balancer (.drawing .stored (.const 0))
        zeroState zeroData (some ⟨some true⟩) = .ok handled ∧
      (0, { transaction := some transaction }) ∈ handled.delivered ∧
      transaction.tpu = ["10.0.0.3:8009", "10.0.0.1:8009"] ∧ Agreed threeForward transaction := by
  obtain ⟨tr, hrun, hlabels⟩ := run_foldl (Server.step threePubkeyFromStr) threeEvents .new
  have haddressed : ∀ event ∈ threeEvents, event.Addressed
      (Subtype.val : { tpu : String // tpu ∈ threeTpus } → String) := by
    have hnodes : ∀ node ∈ threeValidators.zip (threeTpus.map some), ∀ tpu ∈ node.2,
        tpu ∈ threeTpus := by decide
    simp only [threeEvents, List.forall_mem_cons]
    refine ⟨trivial, trivial, trivial, ?_, by simp [ServerEvent.Addressed], trivial, by simp⟩
    exact fun node hnode tpu htpu => ⟨⟨tpu, hnodes node hnode tpu htpu⟩, rfl⟩
  have htrace : ∀ x ∈ tr, x.2.Addressed
      (Subtype.val : { tpu : String // tpu ∈ threeTpus } → String) := by
    intro x hx
    exact haddressed _ (hlabels ▸ List.mem_map_of_mem hx)
  have hpublish : ∃ published, threeServer.balancer.publish (.drawing .stored (.const 0) :
        RequestEnv).publish (newSession (.drawing .stored (.const 0)) zeroState (.allow "unknown")
        zeroSignature) (sampleCrates.signatureToString zeroSignature) zeroData = .ok published ∧
      published.delivered.head? = some (0, buildTxMessageEnvelope
        (sampleCrates.signatureToString zeroSignature) zeroData
          ["10.0.0.3:8009", "10.0.0.1:8009"]) := ⟨_, rfl, rfl⟩
  obtain ⟨published, hpublish, hhead⟩ := hpublish
  have hcall : sendTransaction sampleCrates threeServer.balancer (.drawing .stored (.const 0))
      zeroState zeroData (some ⟨some true⟩) = .ok _ :=
    sendPriorityTransaction_eq_ok rfl rfl decodes_zeroData rfl hpublish
  have hmem := List.mem_of_head? hhead
  exact ⟨tr, _, _, hrun, hcall, hmem, rfl,
    delivered_agreed sameCrates_three hrun htrace .sendTransaction hcall 0 _ _ hmem rfl⟩

end Mtransaction
