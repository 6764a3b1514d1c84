import Mtransaction.Lib.SocketAddr
import Mtransaction.Server.Publish

/-!
# What `publish` records of its deliveries

The session handed to the watcher names the consumers that took the transaction and the IPs it was
to be sent to.  The IP is cut from the text of the address at the first colon.
-/

namespace Mtransaction

open Net

/-! ## IPs cut from addresses -/

/-- The IPs of the socket addresses that print as one of these texts. -/
def ipsOf (tpus : List String) : Set IpAddr :=
  {ip | ∃ addr : SocketAddr, addr.display ∈ tpus ∧ addr.ip = ip}

theorem tpuIp_display_v4 (addr : SocketAddrV4) : tpuIp addr.display = addr.ip.display := by
  rw [tpuIp, addr.takeWhile_display, String.ofList_toList]

-- the bracket stands before every colon
theorem bracket_mem_tpuIp (addr : SocketAddrV6) : '[' ∈ (tpuIp addr.display).toList := by
  obtain ⟨rest, hrest⟩ := addr.exists_display
  simp [tpuIp, hrest]

theorem ipsOf_v4 {tpus : List String} (hv6 : ∀ addr : SocketAddrV6, addr.display ∉ tpus)
    {addr : SocketAddr} (haddr : addr.display ∈ tpus) : ∃ v4, addr = .v4 v4 := by
  cases addr with
  | v4 addr => exact ⟨addr, rfl⟩
  | v6 addr => exact absurd haddr (hv6 addr)

/-- The text before the colon is the IP, and different for different IPs, exactly where no address
is an IPv6 one. -/
theorem tpuIp_exact_iff {tpus : List String}
    (haddr : ∀ tpu ∈ tpus, ∃ addr : SocketAddr, tpu = addr.display) :
    ({ip | ip ∈ tpus.map tpuIp} = IpAddr.display '' ipsOf tpus ∧
      Set.InjOn IpAddr.display (ipsOf tpus)) ↔
        ∀ addr : SocketAddrV6, addr.display ∉ tpus := by
  constructor
  · rintro ⟨hset, -⟩ addr hmem
    have hcut : tpuIp addr.display ∈ {ip | ip ∈ tpus.map tpuIp} := List.mem_map_of_mem hmem
    rw [hset] at hcut
    obtain ⟨ip, -, hip⟩ := hcut
    -- no IP prints with a bracket
    have hbracket := bracket_mem_tpuIp addr
    rw [← hip] at hbracket
    exact ip.bracket_notMem_display hbracket
  · intro hv6
    constructor
    · ext text
      simp only [Set.mem_ofPred_eq, List.mem_map, Set.mem_image, ipsOf]
      constructor
      · rintro ⟨tpu, htpu, rfl⟩
        obtain ⟨addr, rfl⟩ := haddr tpu htpu
        obtain ⟨v4, rfl⟩ := ipsOf_v4 hv6 htpu
        exact ⟨_, ⟨_, htpu, rfl⟩, (tpuIp_display_v4 v4).symm⟩
      · rintro ⟨_, ⟨addr, htpu, rfl⟩, rfl⟩
        obtain ⟨v4, rfl⟩ := ipsOf_v4 hv6 htpu
        exact ⟨_, htpu, tpuIp_display_v4 v4⟩
    · rintro _ ⟨addr, haddr, rfl⟩ _ ⟨addr', haddr', rfl⟩ heq
      obtain ⟨v4, rfl⟩ := ipsOf_v4 hv6 haddr
      obtain ⟨v4', rfl⟩ := ipsOf_v4 hv6 haddr'
      exact congrArg IpAddr.v4 (Ipv4Addr.display_injective heq)

/-! ## The record -/

section Loop

variable (env : PublishEnv) (signature data : String)

theorem foldl_insert_eq_union (ips : List String) (s : Finset String) :
    ips.foldl (fun ips ip => insert ip ips) s = s ∪ ips.toFinset := by
  induction ips generalizing s with
  | nil => simp
  | cons ip ips ih =>
    rw [List.foldl_cons, ih, List.toFinset_cons, Finset.insert_union, Finset.union_insert]

-- the IPs recorded are cut from the TPUs of the accepted picks
theorem publishLoop_tpuIps (k : ℕ) (picks : List Pick) (st : PublishState) :
    (publishLoop env signature data k picks st).session.tpuIps = st.session.tpuIps ∪
      (((acceptedPicks env k picks).flatMap fun pick => pickTpus env.tpuOrder pick.2).map
        tpuIp).toFinset := by
  induction picks generalizing k st with
  | nil => simp [publishLoop, acceptedPicks]
  | cons pick rest ih =>
    rw [publishLoop, ih, acceptedPicks]
    cases h : env.accepts k pick.1.tx with
    | false => simp [publishSend]
    | true => simp [publishSend, foldl_insert_eq_union, Finset.union_assoc]

theorem mem_pickTpus {tpuOrder : HashOrder String} {info : List LeaderInfo} {tpu : String} :
    tpu ∈ pickTpus tpuOrder info ↔ ∃ leader ∈ info, leader.tpu = tpu := by
  simp [pickTpus]

theorem nodup_pickTpus (tpuOrder : HashOrder String) (info : List LeaderInfo) :
    (pickTpus tpuOrder info).Nodup :=
  (tpuOrder.perm _).nodup_iff.mpr (List.nodup_dedup _)

end Loop

namespace Balancer

variable {b : Balancer} {env : PublishEnv} {session : SignatureRecord} {signature data : String}
  {p : Published} {picks : List Pick}

/-- The addresses in the envelopes on the channels. -/
def deliveredTpus (delivered : List (ConnId × ResponseMessageEnvelope)) : List String :=
  delivered.flatMap fun d => (d.2.transaction.map Transaction.tpu).getD []

/-- An envelope for a pick: its TPUs, each once. -/
def EnvelopeFor (signature data : String) (pick : Pick) (d : ConnId × ResponseMessageEnvelope) :
    Prop :=
  d.1 = pick.1.tx ∧ ∃ tpus, d.2 = buildTxMessageEnvelope signature data tpus ∧ tpus.Nodup ∧
    ∀ tpu, tpu ∈ tpus ↔ ∃ leader ∈ pick.2, leader.tpu = tpu

/-- What a call leaves behind is what it delivered: the session names the consumers that took it, in
pick order, and the IPs of the TPUs they got, and those that did not take it are flagged. -/
structure RecordsDelivery (b : Balancer) (env : PublishEnv) (signature data : String)
    (picks : List Pick) (p : Published) : Prop where
  envelopes : List.Forall₂ (EnvelopeFor signature data) (acceptedPicks env 0 picks) p.delivered
  consumers : ∀ record ∈ p.watched,
    record.consumers = (acceptedPicks env 0 picks).map fun pick => pick.1.identity
  tpuIps : ∀ record ∈ p.watched,
    {ip | ip ∈ record.tpuIps} = IpAddr.display '' ipsOf (deliveredTpus p.delivered) ∧
      Set.InjOn IpAddr.display (ipsOf (deliveredTpus p.delivered))
  flagged : ∀ identity, p.balancer.txConsumers.lookup identity =
    (b.txConsumers.lookup identity).map fun c =>
      { c with doUnsubscribe := c.doUnsubscribe ||
          decide (∃ pick ∈ failedPicks env 0 picks, pick.1.identity = identity) }

/-- What a call leaves behind, in terms of its picks. -/
theorem publish_eq (hpicks : b.pickConsumers env.order env.rng = .ok picks) (hne : picks ≠ [])
    (h : b.publish env session signature data = .ok p) :
    p.delivered = (acceptedPicks env 0 picks).map (fun pick =>
        (pick.1.tx, buildTxMessageEnvelope signature data (pickTpus env.tpuOrder pick.2))) ∧
      p.watched = (if env.watcherAlive then
        [(publishLoop env signature data 0 picks ⟨b, session, []⟩).session] else []) ∧
      p.balancer = ((failedPicks env 0 picks).map fun pick => pick.1.identity).foldl
        flagUnsubscribe b := by
  rcases publish_cases h with ⟨hnil, -⟩ | ⟨picks', st, hpicks', -, rfl, rfl⟩
  · rw [hpicks] at hnil
    exact absurd (Except.ok.inj hnil) hne
  · obtain rfl := Except.ok.inj (hpicks.symm.trans hpicks')
    refine ⟨?_, rfl, ?_⟩
    · rw [publishLoop_delivered, List.nil_append]
    · rw [publishLoop_balancer, List.foldl_map]

theorem envelopeFor_pickTpus (tpuOrder : HashOrder String) (pick : Pick) :
    EnvelopeFor signature data pick
      (pick.1.tx, buildTxMessageEnvelope signature data (pickTpus tpuOrder pick.2)) :=
  ⟨rfl, _, rfl, nodup_pickTpus _ _, fun _ => mem_pickTpus⟩

theorem deliveredTpus_map (tpuOrder : HashOrder String) (picks : List Pick) :
    deliveredTpus (picks.map fun pick =>
        (pick.1.tx, buildTxMessageEnvelope signature data (pickTpus tpuOrder pick.2))) =
      picks.flatMap fun pick => pickTpus tpuOrder pick.2 := by
  rw [deliveredTpus, List.flatMap_map]
  rfl

section Recorded

variable (hpicks : b.pickConsumers env.order env.rng = .ok picks) (hne : picks ≠ [])
  (hnew : session.consumers = [] ∧ session.tpuIps = ∅)
  (h : b.publish env session signature data = .ok p)

include hpicks hne h

-- the addresses delivered are those of the accepted picks
theorem mem_deliveredTpus (tpu : String) : tpu ∈ deliveredTpus p.delivered ↔
    ∃ pick ∈ acceptedPicks env 0 picks, ∃ leader ∈ pick.2, leader.tpu = tpu := by
  rw [(publish_eq hpicks hne h).1, deliveredTpus_map]
  simp only [List.mem_flatMap, mem_pickTpus]

include hnew

theorem consumers_of_watched : ∀ record ∈ p.watched,
    record.consumers = (acceptedPicks env 0 picks).map fun pick => pick.1.identity := by
  rw [(publish_eq hpicks hne h).2.1]
  split
  · rw [List.forall_mem_singleton, publishLoop_consumers, hnew.1, List.nil_append]
  · simp

theorem tpuIps_of_watched : ∀ record ∈ p.watched,
    {ip | ip ∈ record.tpuIps} = {ip | ip ∈ (deliveredTpus p.delivered).map tpuIp} := by
  obtain ⟨hdelivered, hwatched, -⟩ := publish_eq hpicks hne h
  rw [hwatched, hdelivered, deliveredTpus_map]
  split
  · rw [List.forall_mem_singleton, publishLoop_tpuIps]
    simp [hnew.2]
  · simp

end Recorded

/-- The call records what it delivered exactly if no pick that took the transaction was assigned a
TPU with an IPv6 address; or if there is no watcher to record it for. -/
theorem recordsDelivery_iff (hpicks : b.pickConsumers env.order env.rng = .ok picks)
    (hne : picks ≠ [])
    (haddr : ∀ pick ∈ picks, ∀ leader ∈ pick.2, ∃ addr : SocketAddr, leader.tpu = addr.display)
    (hnew : session.consumers = [] ∧ session.tpuIps = ∅)
    (h : b.publish env session signature data = .ok p) :
    RecordsDelivery b env signature data picks p ↔
      (env.watcherAlive → ∀ pick ∈ acceptedPicks env 0 picks, ∀ leader ∈ pick.2,
        ∀ addr : SocketAddrV6, leader.tpu ≠ addr.display) := by
  obtain ⟨hdelivered, hwatched, hbalancer⟩ := publish_eq hpicks hne h
  have hmem := mem_deliveredTpus hpicks hne h
  have hips := tpuIps_of_watched hpicks hne hnew h
  have haddrs : ∀ tpu ∈ deliveredTpus p.delivered, ∃ addr : SocketAddr, tpu = addr.display := by
    intro tpu htpu
    obtain ⟨pick, hpick, leader, hleader, rfl⟩ := (hmem tpu).mp htpu
    exact haddr pick (mem_of_mem_acceptedPicks hpick) leader hleader
  have hexact := tpuIp_exact_iff haddrs
  constructor
  · intro hrecords hwatcher pick hpick leader hleader addr heq
    have hrecord : ∃ record, record ∈ p.watched := by simp [hwatched, hwatcher]
    obtain ⟨record, hrecord⟩ := hrecord
    have hset := hrecords.tpuIps record hrecord
    rw [hips record hrecord] at hset
    exact hexact.mp hset addr ((hmem _).mpr ⟨pick, hpick, leader, hleader, heq⟩)
  · intro hv6
    refine ⟨?_, consumers_of_watched hpicks hne hnew h, ?_, fun identity => ?_⟩
    · rw [hdelivered, List.forall₂_map_right_iff]
      exact List.forall₂_same.mpr fun pick _ => envelopeFor_pickTpus env.tpuOrder pick
    · intro record hrecord
      by_cases hwatcher : env.watcherAlive
      · rw [hips record hrecord]
        refine hexact.mpr fun addr haddr' => ?_
        obtain ⟨pick, hpick, leader, hleader, heq⟩ := (hmem _).mp haddr'
        exact hv6 hwatcher pick hpick leader hleader addr heq
      · simp [hwatched, hwatcher] at hrecord
    · rw [hbalancer, lookup_foldl_flagUnsubscribe]
      simp only [List.mem_map]

/-! ### One consumer and three leaders -/

def v4At (n : UInt8) : SocketAddrV4 := ⟨⟨10, 0, 0, n⟩, 8009⟩

def v6At (n : UInt16) : SocketAddrV6 := ⟨⟨#v[0x2001, 0xdb8, 0, 0, 0, 0, 0, n]⟩, 8009, 0, 0⟩

def v4Tpus : List String := [1, 2, 3].map fun n => (v4At n).display

def v6Tpus : List String := [1, 2, 3].map fun n => (v6At n).display

def leadersAt (tpus : List String) : List LeaderInfo :=
  tpus.map fun tpu => ⟨"validator at " ++ tpu, tpu, "Prague", false⟩

def balancerAt (tpus : List String) : Balancer :=
  (new.setLeaders (leadersAt tpus)
    (AList.collect ((leadersAt tpus).map fun leader => (leader.identity, leader)))).subscribe
      "A" "token" 0

def acceptingEnv : PublishEnv := ⟨.stored, .const 0, .stored, fun _ _ => true, true⟩

def emptyRecord : SignatureRecord :=
  ⟨0, 0, 0, 0, ⟨.replicate 64 0⟩, .forward, [], ∅, "partner"⟩

-- three picks share the three leaders
def picksOf (tpus : List String) : List Pick :=
  match (balancerAt tpus).pickConsumers acceptingEnv.order acceptingEnv.rng with
  | .ok picks => picks
  | .error _ => []

theorem v4_recordsDelivery : ∃ p,
    (balancerAt v4Tpus).publish acceptingEnv emptyRecord "text" "AA==" = .ok p ∧
    p.watched.map SignatureRecord.tpuIps = [{"10.0.0.1", "10.0.0.2", "10.0.0.3"}] ∧
    RecordsDelivery (balancerAt v4Tpus) acceptingEnv "text" "AA==" (picksOf v4Tpus) p := by
  have hv4 : ∀ pick ∈ picksOf v4Tpus, ∀ leader ∈ pick.2,
      ∃ n, leader.tpu = (v4At n).display := by
    have hmem : ∀ pick ∈ picksOf v4Tpus, ∀ leader ∈ pick.2,
        leader.tpu ∈ v4Tpus := by decide
    intro pick hpick leader hleader
    obtain ⟨n, -, hn⟩ := List.mem_map.mp (hmem pick hpick leader hleader)
    exact ⟨n, hn.symm⟩
  obtain ⟨p, hp, hips⟩ : ∃ p,
      (balancerAt v4Tpus).publish acceptingEnv emptyRecord "text" "AA==" = .ok p ∧
      p.watched.map SignatureRecord.tpuIps = [{"10.0.0.1", "10.0.0.2", "10.0.0.3"}] :=
    ⟨_, rfl, by decide⟩
  refine ⟨p, hp, hips, (recordsDelivery_iff rfl (by decide) ?_ ⟨rfl, rfl⟩ hp).mpr ?_⟩
  · intro pick hpick leader hleader
    obtain ⟨n, hn⟩ := hv4 pick hpick leader hleader
    exact ⟨.v4 (v4At n), hn⟩
  · intro _ pick hpick leader hleader addr
    obtain ⟨n, hn⟩ := hv4 pick (mem_of_mem_acceptedPicks hpick) leader hleader
    rw [hn]
    exact SocketAddr.display_v4_ne_v6 _ addr

/-- Three IPv6 addresses become one entry, which is none of their IPs. -/
theorem v6_merged : ∃ p,
    (balancerAt v6Tpus).publish acceptingEnv emptyRecord "text" "AA==" = .ok p ∧
    p.watched.map SignatureRecord.tpuIps = [{"[2001"}] ∧
    ¬ RecordsDelivery (balancerAt v6Tpus) acceptingEnv "text" "AA==" (picksOf v6Tpus) p := by
  obtain ⟨p, hp, hips⟩ : ∃ p,
      (balancerAt v6Tpus).publish acceptingEnv emptyRecord "text" "AA==" = .ok p ∧
      p.watched.map SignatureRecord.tpuIps = [{"[2001"}] := ⟨_, rfl, by decide⟩
  refine ⟨p, hp, hips, fun h => ?_⟩
  obtain ⟨record, hrecord, heq⟩ := List.mem_map.mp (hips ▸ List.mem_singleton_self _)
  have hentry : "[2001" ∈ {ip | ip ∈ record.tpuIps} := by
    rw [heq]
    exact Finset.mem_singleton_self _
  rw [(h.tpuIps record hrecord).1] at hentry
  obtain ⟨ip, -, hip⟩ := hentry
  exact ip.bracket_notMem_display (hip ▸ by decide)

end Balancer

end Mtransaction
