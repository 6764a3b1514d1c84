import Mtransaction.Server.RpcServer

/-!
# What a request must pass

Which requests put something on a channel, what they put there, and how large it may be.
-/

namespace Mtransaction

section Gate

variable {crates : Crates} {b : Balancer} {env : RequestEnv} {state : RpcState} {data : String}
  {config : Option SendPriorityTransactionConfig} {handled : Handled}

/-- The request gets as far as `publish`, under this signature. -/
def Publishes (crates : Crates) (state : RpcState) (data : String)
    (config : Option SendPriorityTransactionConfig) (signature : Signature) : Prop :=
  Admitted crates state data config signature ∧ state.mode = .forward

/-- The answer to a request that publishes is what becomes of `publish`, in every balancer. -/
theorem Publishes.call_eq {signature : Signature} (h : Publishes crates state data config signature)
    (method : Method) (b : Balancer) (env : RequestEnv) :
    ∃ auth, method.call crates b env state data config =
      (b.publish env.publish (newSession env state auth signature)
        (crates.signatureToString signature) data).map
          (.ofPublished (crates.signatureToString signature)) := by
  obtain ⟨⟨⟨auth, hauth⟩, hconfig, hdecodes⟩, hmode⟩ := h
  refine ⟨auth, ?_⟩
  rw [method.call_eq]
  simp only [sendPriorityTransaction, hauth, checkConfig_eq_ok_iff.mpr hconfig,
    decodeSignature_eq_ok_iff.mpr hdecodes, hmode, reduceCtorEq, if_false]
  cases b.publish env.publish (newSession env state auth signature)
    (crates.signatureToString signature) data <;> rfl

theorem early_of_not_publishes {method : Method}
    (hnot : ∀ signature, ¬ Publishes crates state data config signature)
    (h : method.call crates b env state data config = .ok handled) :
    handled = .early b handled.result := by
  rw [method.call_eq] at h
  rcases sendPriorityTransaction_cases h with ⟨err, rfl⟩ | ⟨signature, -, -, rfl⟩ |
    ⟨auth, signature, published, hadmitted, hmode, -, -⟩
  · rfl
  · rfl
  · exact absurd ⟨hadmitted, hmode⟩ (hnot signature)

end Gate

/-- What the clients will send fits into a packet. -/
def PacketSized (crates : Crates) (data : String) : Prop :=
  ∀ wire, crates.base64Decode data = .ok wire → wire.length ≤ packetDataSize

/-- What `bincode` promises under these options, when it reads a value from the first `consumed`
bytes of its input. -/
structure BincodeReads (crates : Crates) (consumed : List UInt8 → ℕ) : Prop where
  /-- `with_limit` -/
  limited : ∀ limit wire tx, crates.deserialize limit wire = .ok tx →
    consumed wire ≤ limit ∧ consumed wire ≤ wire.length
  /-- `allow_trailing_bytes` -/
  trailing : ∀ limit wire rest tx, crates.deserialize limit wire = .ok tx →
    crates.deserialize limit (wire.take (consumed wire) ++ rest) = .ok tx

/-- The deserializer reads the data to its end. -/
def NothingFollows (crates : Crates) (consumed : List UInt8 → ℕ) (data : String) : Prop :=
  ∀ wire, crates.base64Decode data = .ok wire → wire.drop (consumed wire) = []

section PacketSize

variable {crates : Crates} {consumed : List UInt8 → ℕ} {data data' : String}
  {signature : Signature} {wire rest : List UInt8}

/-- A transaction is decoded whatever bytes follow it, and however many. -/
theorem Decodes.followed_by (hreads : BincodeReads crates consumed)
    (h : Decodes crates data signature) (hwire : crates.base64Decode data = .ok wire)
    (hwire' : crates.base64Decode data' = .ok (wire.take (consumed wire) ++ rest)) :
    Decodes crates data' signature := by
  obtain ⟨wire₀, decoded, hwire₀, hdecoded, hsigned⟩ := h
  obtain rfl : wire = wire₀ := Except.ok.inj (hwire.symm.trans hwire₀)
  exact ⟨_, decoded, hwire', hreads.trailing _ _ rest _ hdecoded, hsigned⟩

-- the limit holds for what is read
theorem Decodes.consumed_le (hreads : BincodeReads crates consumed)
    (h : Decodes crates data signature) (hwire : crates.base64Decode data = .ok wire) :
    consumed wire ≤ packetDataSize ∧ consumed wire ≤ wire.length := by
  obtain ⟨wire₀, decoded, hwire₀, hdecoded, -⟩ := h
  obtain rfl : wire = wire₀ := Except.ok.inj (hwire.symm.trans hwire₀)
  exact hreads.limited _ _ _ hdecoded

/-- A request is forwarded in one packet if it is not forwarded at all, or if nothing follows its
transaction.  And nothing else sees to it: with any other bytes after the transaction the request
is published just the same, under the same signature, and is too large as soon as they are more
than the transaction leaves of a packet. -/
theorem packetSized_of_nothingFollows (hreads : BincodeReads crates consumed) (state : RpcState)
    (data : String) (config : Option SendPriorityTransactionConfig) :
    ((∀ signature, ¬ Publishes crates state data config signature) ∨
        NothingFollows crates consumed data →
      ∀ signature, Publishes crates state data config signature → PacketSized crates data) ∧
    ∀ signature wire, Publishes crates state data config signature →
      crates.base64Decode data = .ok wire →
        ∀ rest data', crates.base64Decode data' = .ok (wire.take (consumed wire) ++ rest) →
          Publishes crates state data' config signature ∧
            (PacketSized crates data' ↔ rest.length ≤ packetDataSize - consumed wire) := by
  constructor
  · rintro (hnone | hends) signature hpublishes
    · exact absurd hpublishes (hnone signature)
    · intro wire hwire
      -- what is read is limited, and it is everything
      obtain ⟨hlimit, -⟩ := hpublishes.1.2.2.consumed_le hreads hwire
      exact (List.drop_eq_nil_iff.mp (hends wire hwire)).trans hlimit
  · rintro signature wire ⟨⟨hauth, hconfig, hdecodes⟩, hmode⟩ hwire rest data' hwire'
    obtain ⟨hlimit, hwithin⟩ := hdecodes.consumed_le hreads hwire
    refine ⟨⟨⟨hauth, hconfig, hdecodes.followed_by hreads hwire hwire'⟩, hmode⟩, ?_⟩
    have hlen : (wire.take (consumed wire) ++ rest).length = consumed wire + rest.length := by
      rw [List.length_append, List.length_take, Nat.min_eq_left hwithin]
    constructor
    · intro hsized
      have := hsized _ hwire'
      omega
    · intro hfits wire' hwire''
      obtain rfl := Except.ok.inj (hwire'.symm.trans hwire'')
      omega

end PacketSize

/-! ### A transaction with and without bytes after it -/

theorem length_zeroWire : zeroWire.length = 102 := by
  unfold zeroWire
  rw [List.length_cons, List.length_replicate]

/-- `zeroWire` with 1131 bytes after it: 1233 bytes, one more than a packet holds. -/
@[irreducible] def bulkyWire : List UInt8 := zeroWire ++ List.replicate 1131 0

@[irreducible] def bulkyData : String := String.ofList ('A' :: 'Q' :: List.replicate 1642 'A')

theorem bulkyData_ne_zeroData : bulkyData ≠ zeroData := by
  intro h
  have := congrArg (fun data => data.toList.length) h
  unfold bulkyData zeroData at this
  simp only [String.toList_ofList, List.length_cons, List.length_replicate] at this
  omega

/-- The libraries on these two texts.  The transaction takes 102 bytes; the rest is not looked at. -/
def bulkyCrates : Crates :=
  { sampleCrates with
    base64Decode := fun data =>
      if data = zeroData then .ok zeroWire
      else if data = bulkyData then .ok bulkyWire
      else .error "Invalid byte 33, offset 0."
    deserialize := fun limit wire =>
      if wire.take 102 = zeroWire ∧ 102 ≤ limit then .ok ⟨[zeroSignature]⟩
      else .error "io error: unexpected end of file" }

theorem bincodeReads_bulkyCrates : BincodeReads bulkyCrates fun _ => 102 := by
  have hlen {wire : List UInt8} (hread : wire.take 102 = zeroWire) : 102 ≤ wire.length := by
    have := congrArg List.length hread
    rw [List.length_take, length_zeroWire] at this
    omega
  constructor
  · intro limit wire tx h
    simp only [bulkyCrates] at h
    split at h
    next hread => exact ⟨hread.2, hlen hread.1⟩
    next => simp at h
  · intro limit wire rest tx h
    simp only [bulkyCrates] at h ⊢
    split at h
    next hread =>
      have htake : (wire.take 102 ++ rest).take 102 = zeroWire := by
        rw [List.take_append_of_le_length (by rw [List.length_take]; have := hlen hread.1; omega),
          List.take_take, Nat.min_self, hread.1]
      rw [if_pos ⟨htake, hread.2⟩]
      exact h
    next => simp at h

theorem bulkyCrates_zeroData : bulkyCrates.base64Decode zeroData = .ok zeroWire := by
  simp only [bulkyCrates, if_true]

theorem bulkyCrates_bulkyData : bulkyCrates.base64Decode bulkyData = .ok bulkyWire := by
  simp only [bulkyCrates, if_neg bulkyData_ne_zeroData, if_true]

theorem publishes_zeroData :
    Publishes bulkyCrates zeroState zeroData (some ⟨some true⟩) zeroSignature := by
  refine ⟨⟨⟨_, rfl⟩, rfl, zeroWire, ⟨[zeroSignature]⟩, bulkyCrates_zeroData, ?_, rfl⟩, rfl⟩
  simp only [bulkyCrates]
  rw [List.take_of_length_le (by rw [length_zeroWire]), if_pos ⟨rfl, by decide⟩]

/-- With nothing after it the transaction is well within a packet; what may follow it is 1130
bytes. -/
theorem zeroData_packetSized :
    PacketSized bulkyCrates zeroData ∧
      ∀ rest data', bulkyCrates.base64Decode data' = .ok (zeroWire.take 102 ++ rest) →
        Publishes bulkyCrates zeroState data' (some ⟨some true⟩) zeroSignature ∧
          (PacketSized bulkyCrates data' ↔ rest.length ≤ 1130) := by
  obtain ⟨hsized, hfollowed⟩ := packetSized_of_nothingFollows bincodeReads_bulkyCrates zeroState
    zeroData (some ⟨some true⟩)
  refine ⟨hsized (.inr ?_) zeroSignature publishes_zeroData,
    hfollowed zeroSignature zeroWire publishes_zeroData bulkyCrates_zeroData⟩
  intro wire hwire
  obtain rfl := Except.ok.inj (bulkyCrates_zeroData.symm.trans hwire)
  exact List.drop_eq_nil_of_le length_zeroWire.le

/-- A transaction padded past the size of a packet is published and put on the client's channel. -/
theorem bulkyData_published :
    Publishes bulkyCrates zeroState bulkyData (some ⟨some true⟩) zeroSignature ∧
      ¬ PacketSized bulkyCrates bulkyData ∧
      ∃ handled tpus, sendPriorityTransaction bulkyCrates (Balancer.new.subscribe "A" "token" 0)
          (.drawing .stored (.const 0)) zeroState bulkyData (some ⟨some true⟩) = .ok handled ∧
        (0, buildTxMessageEnvelope (bulkyCrates.signatureToString zeroSignature) bulkyData tpus) ∈
          handled.delivered := by
  have hwire : bulkyCrates.base64Decode bulkyData =
      .ok (zeroWire.take 102 ++ List.replicate 1131 0) := by
    rw [bulkyCrates_bulkyData, List.take_of_length_le length_zeroWire.le]
    unfold bulkyWire
    rfl
  have hdecodes : Decodes bulkyCrates bulkyData zeroSignature :=
    publishes_zeroData.1.2.2.followed_by bincodeReads_bulkyCrates bulkyCrates_zeroData hwire
  refine ⟨⟨⟨⟨_, rfl⟩, rfl, hdecodes⟩, rfl⟩, ?_, ?_⟩
  · intro hsized
    have := hsized _ hwire
    rw [List.length_append, List.length_take, length_zeroWire, List.length_replicate] at this
    exact absurd this (by decide)
  · exact ⟨_, _, sendPriorityTransaction_eq_ok rfl rfl hdecodes rfl rfl, List.mem_cons_self⟩

end Mtransaction
