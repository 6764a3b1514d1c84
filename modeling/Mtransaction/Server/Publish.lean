import Mtransaction.Server.PickConsumers

/-!
# `publish`

One send per pick; the outcome of a send is decided outside, by whether the receiving half of the
consumer's channel is still there when the send is made.
-/

namespace Mtransaction

/-- What a call of `publish` finds around it. -/
structure PublishEnv where
  /-- the order of `tx_consumers` -/
  order : HashOrder (String × TxConsumer)
  rng : Rng
  /-- the order of the set the TPUs are collected into -/
  tpuOrder : HashOrder String
  /-- whether the `k`-th send of the call is accepted on this channel -/
  accepts : ℕ → ConnId → Bool
  watcherAlive : Bool

/-- The loop's variables: the flags set so far are in the balancer. -/
structure PublishState where
  balancer : Balancer
  session : SignatureRecord
  delivered : List (ConnId × ResponseMessageEnvelope)

/-- What a call of `publish` leaves behind: envelopes on consumer channels, records in
`watcher_inbox`, and its result. -/
structure Published where
  balancer : Balancer
  delivered : List (ConnId × ResponseMessageEnvelope)
  watched : List SignatureRecord
  result : Except String Unit

/-- `x.split(':').next()`, which is never `None`. -/
def tpuIp (tpu : String) : String := String.ofList (tpu.toList.takeWhile (· ≠ ':'))

/-- The TPUs of one pick without repetitions, as the hash set yields them. -/
def pickTpus (tpuOrder : HashOrder String) (info : List LeaderInfo) : List String :=
  tpuOrder.arrange (info.map LeaderInfo.tpu).dedup

def publishSend (tpuOrder : HashOrder String) (signature data : String) (accepted : Bool)
    (st : PublishState) (pick : Pick) : PublishState :=
  -- collected into a set and back into a list
  let tpus := pickTpus tpuOrder pick.2
  let tpuIps := tpus.map tpuIp
  if accepted then
    { st with
      session := { st.session with
        consumers := st.session.consumers ++ [pick.1.identity]
        tpuIps := tpuIps.foldl (fun ips ip => insert ip ips) st.session.tpuIps }
      delivered := st.delivered ++ [(pick.1.tx, buildTxMessageEnvelope signature data tpus)] }
  -- the receiver is gone; the entry itself stays until the next flush
  else { st with balancer := st.balancer.flagUnsubscribe pick.1.identity }

/-- The loop over the picks, `k` sends made before. -/
def publishLoop (env : PublishEnv) (signature data : String) :
    ℕ → List Pick → PublishState → PublishState
  | _, [], st => st
  | k, pick :: rest, st =>
    publishLoop env signature data (k + 1) rest
      (publishSend env.tpuOrder signature data (env.accepts k pick.1.tx) st pick)

def Balancer.publish (b : Balancer) (env : PublishEnv) (session : SignatureRecord)
    (signature data : String) : Except Panic Published :=
  match b.pickConsumers env.order env.rng with
  | .error e => .error e
  | .ok [] => .ok ⟨b, [], [], .error "No available clients connected"⟩
  | .ok (pick :: picks) =>
    -- a failed send is only logged: the result is `Ok` even if all of them failed
    let st := publishLoop env signature data 0 (pick :: picks) ⟨b, session, []⟩
    .ok ⟨st.balancer, st.delivered, if env.watcherAlive then [st.session] else [], .ok ()⟩

/-! ## The loop in closed form -/

section Loop

variable (env : PublishEnv) (signature data : String)

/-- The picks whose send is accepted, the first of them being send number `k`. -/
def acceptedPicks : ℕ → List Pick → List Pick
  | _, [] => []
  | k, pick :: rest =>
    if env.accepts k pick.1.tx then pick :: acceptedPicks (k + 1) rest
    else acceptedPicks (k + 1) rest

def failedPicks : ℕ → List Pick → List Pick
  | _, [] => []
  | k, pick :: rest =>
    if env.accepts k pick.1.tx then failedPicks (k + 1) rest
    else pick :: failedPicks (k + 1) rest

-- envelopes go out for the accepted picks, in pick order
theorem publishLoop_delivered (k : ℕ) (picks : List Pick) (st : PublishState) :
    (publishLoop env signature data k picks st).delivered =
      st.delivered ++ (acceptedPicks env k picks).map fun pick =>
        (pick.1.tx, buildTxMessageEnvelope signature data (pickTpus env.tpuOrder pick.2)) := by
  induction picks generalizing k st with
  | nil => simp [publishLoop, acceptedPicks]
  | cons pick rest ih =>
    rw [publishLoop, ih, acceptedPicks]
    cases h : env.accepts k pick.1.tx <;> simp [publishSend]

-- and the record names exactly these
theorem publishLoop_consumers (k : ℕ) (picks : List Pick) (st : PublishState) :
    (publishLoop env signature data k picks st).session.consumers =
      st.session.consumers ++ (acceptedPicks env k picks).map fun pick => pick.1.identity := by
  induction picks generalizing k st with
  | nil => simp [publishLoop, acceptedPicks]
  | cons pick rest ih =>
    rw [publishLoop, ih, acceptedPicks]
    cases h : env.accepts k pick.1.tx <;> simp [publishSend]

theorem publishLoop_signature (k : ℕ) (picks : List Pick) (st : PublishState) :
    (publishLoop env signature data k picks st).session.signature = st.session.signature := by
  induction picks generalizing k st with
  | nil => rfl
  | cons pick rest ih =>
    rw [publishLoop, ih]
    cases h : env.accepts k pick.1.tx <;> simp [publishSend]

-- the rejected picks are flagged
theorem publishLoop_balancer (k : ℕ) (picks : List Pick) (st : PublishState) :
    (publishLoop env signature data k picks st).balancer =
      (failedPicks env k picks).foldl (fun b pick => b.flagUnsubscribe pick.1.identity)
        st.balancer := by
  induction picks generalizing k st with
  | nil => rfl
  | cons pick rest ih =>
    rw [publishLoop, ih, failedPicks]
    cases h : env.accepts k pick.1.tx <;> simp [publishSend]

theorem acceptedPicks_eq_nil_iff (k : ℕ) (picks : List Pick) :
    acceptedPicks env k picks = [] ↔
      ∀ n pick, picks[n]? = some pick → env.accepts (k + n) pick.1.tx = false := by
  induction picks generalizing k with
  | nil => simp [acceptedPicks]
  | cons pick rest ih =>
    rw [acceptedPicks]
    constructor
    · intro h n p hn
      cases hacc : env.accepts k pick.1.tx with
      | true => simp [hacc] at h
      | false =>
        simp only [hacc, Bool.false_eq_true, if_false] at h
        cases n with
        | zero => simpa [← Option.some.inj hn] using hacc
        | succ n =>
          have := (ih (k + 1)).mp h n p (by simpa using hn)
          rwa [Nat.add_right_comm] at this
    · intro h
      have hacc := h 0 pick rfl
      rw [Nat.add_zero] at hacc
      simp only [hacc, Bool.false_eq_true, if_false]
      refine (ih (k + 1)).mpr fun n p hn => ?_
      have := h (n + 1) p (by simpa using hn)
      rwa [Nat.add_right_comm]

variable {env}

theorem mem_of_mem_acceptedPicks {k : ℕ} {picks : List Pick} {pick : Pick}
    (h : pick ∈ acceptedPicks env k picks) : pick ∈ picks := by
  induction picks generalizing k with
  | nil => simp [acceptedPicks] at h
  | cons first rest ih =>
    rw [acceptedPicks] at h
    split at h
    · rcases List.mem_cons.mp h with rfl | h
      · exact List.mem_cons_self
      · exact List.mem_cons_of_mem _ (ih h)
    · exact List.mem_cons_of_mem _ (ih h)

end Loop

/-! ## What `publish` does -/

namespace Balancer

variable {b : Balancer} {env : PublishEnv} {session : SignatureRecord} {signature data : String}
  {p : Published}

/-- The three ways a call can end, with all its effects. -/
theorem publish_cases (h : b.publish env session signature data = .ok p) :
    (b.pickConsumers env.order env.rng = .ok [] ∧
      p = ⟨b, [], [], .error "No available clients connected"⟩) ∨
    ∃ picks st, b.pickConsumers env.order env.rng = .ok picks ∧ picks ≠ [] ∧
      st = publishLoop env signature data 0 picks ⟨b, session, []⟩ ∧
      p = ⟨st.balancer, st.delivered, if env.watcherAlive then [st.session] else [], .ok ()⟩ := by
  unfold publish at h
  split at h
  · simp at h
  next hpick => exact .inl ⟨hpick, (Except.ok.inj h).symm⟩
  next pick picks hpick =>
    exact .inr ⟨pick :: picks, _, hpick, by simp, rfl, (Except.ok.inj h).symm⟩

theorem publish_returns_iff (b : Balancer) (env : PublishEnv) (session : SignatureRecord)
    (signature data : String) :
    (∃ p, b.publish env session signature data = .ok p) ↔
      ∃ picks, b.pickConsumers env.order env.rng = .ok picks := by
  unfold publish
  split
  next e h => simp [h]
  next h => simp [h]
  next h => simp [h]

theorem publish_flags (h : b.publish env session signature data = .ok p) :
    ∃ identities : List String, p.balancer = identities.foldl flagUnsubscribe b := by
  rcases publish_cases h with ⟨-, rfl⟩ | ⟨picks, st, -, -, rfl, rfl⟩
  · exact ⟨[], rfl⟩
  · refine ⟨(failedPicks env 0 picks).map fun pick => pick.1.identity, ?_⟩
    rw [publishLoop_balancer, List.foldl_map]

/-- An envelope on a channel carries the data as they came and the TPUs of one pick. -/
theorem mem_delivered_publish {conn : ConnId} {envelope : ResponseMessageEnvelope}
    (h : b.publish env session signature data = .ok p) (hmem : (conn, envelope) ∈ p.delivered) :
    p.result = .ok () ∧ ∃ picks pick, b.pickConsumers env.order env.rng = .ok picks ∧
      pick ∈ picks ∧
      envelope = buildTxMessageEnvelope signature data (pickTpus env.tpuOrder pick.2) := by
  rcases publish_cases h with ⟨-, rfl⟩ | ⟨picks, st, hpicks, -, hst, rfl⟩
  · exact absurd hmem List.not_mem_nil
  · rw [hst, publishLoop_delivered, List.nil_append] at hmem
    obtain ⟨pick, hpick, heq⟩ := List.mem_map.mp hmem
    exact ⟨rfl, picks, pick, hpicks, mem_of_mem_acceptedPicks hpick, (Prod.mk.inj heq).2.symm⟩

end Balancer

end Mtransaction
