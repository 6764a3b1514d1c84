import Mtransaction.Server.ChannelOrder
import Mtransaction.Server.Serialization

/-!
# Where the messages on a channel come from

Channels are made for the identity that subscribes.  What a run puts on one is set against the
requests that came in and the leaders that were announced before.
-/

namespace Mtransaction

open Runs

namespace LockedServer

variable {s s' : LockedServer} {event : LockEvent} {tr : List (LockedServer × LockEvent)}

/-- The identity a step makes a channel for. -/
def subscribes : LockedServer × LockEvent → Option String
  | (s, .grant) =>
    match s.waiting with
    | .write (.subscribe identity _) :: _ => some identity
    | _ => none
  | _ => none

/-- Whom the channels are made for, in the order of their numbers. -/
def owners (tr : List (LockedServer × LockEvent)) : List String := tr.filterMap subscribes

/-- The leader was among those given to `set_leaders`. -/
def Announced (tr : List (LockedServer × LockEvent)) (leader : LeaderInfo) : Prop :=
  ∃ t leaderTpus leaders o, (t, .request (.write (.setLeaders leaderTpus leaders o))) ∈ tr ∧
    (leader ∈ leaderTpus ∨ leader ∈ leaders.values)

/-- A call of `publish` that was asked for sends the transaction to the owner of the channel, to be
forwarded to announced leaders. -/
def Attributable (tr : List (LockedServer × LockEvent)) (conn : ConnId)
    (transaction : Transaction) : Prop :=
  ∃ t n call pick rest request, (t, .send n) ∈ tr ∧ t.publishing[n]? = some call ∧
    call.remaining = pick :: rest ∧
    transaction = ⟨call.data, call.signature, pickTpus call.tpuOrder pick.2⟩ ∧
    (owners tr)[conn]? = some pick.1.identity ∧ Requested tr request ∧
    call.data = request.data ∧ call.signature = request.signature ∧
    ∀ leader ∈ pick.2, Announced tr leader

/-- The pick is of the owner of its channel, with announced leaders. -/
structure Owned (tr : List (LockedServer × LockEvent)) (pick : Pick) : Prop where
  owner : (owners tr)[pick.1.tx]? = some pick.1.identity
  leaders : ∀ leader ∈ pick.2, Announced tr leader

/-- The call publishes what was asked for. -/
def Asked (tr : List (LockedServer × LockEvent)) (call : PublishCall) : Prop :=
  ∃ request, Requested tr request ∧ call.signature = request.signature ∧ call.data = request.data

structure Attributed (tr : List (LockedServer × LockEvent)) (s : LockedServer) : Prop where
  channels : (owners tr).length = s.channels.length
  entries : ∀ i c, s.balancer.txConsumers.lookup i = some c → (owners tr)[c.tx]? = some i
  leaders : ∀ leader, leader ∈ s.balancer.leaderTpus ∨ leader ∈ s.balancer.leaders.values →
    Announced tr leader
  waiting : ∀ request ∈ s.waiting, ∃ t, (t, .request request) ∈ tr
  calls : ∀ call ∈ s.publishing, Asked tr call ∧ ∀ pick ∈ call.remaining, Owned tr pick
  messages : ∀ conn message, (conn, message) ∈ tr.filterMap enqueues →
    ∀ transaction ∈ message.transaction, Attributable tr conn transaction

/-! ## A history only grows -/

section Later

variable (x : LockedServer × LockEvent)

theorem getElem?_owners_concat {conn : ConnId} {identity : String}
    (h : (owners tr)[conn]? = some identity) : (owners (tr ++ [x]))[conn]? = some identity := by
  rw [owners, filterMap_concat, List.getElem?_append_left]
  · exact h
  · exact (List.getElem?_eq_some_iff.mp h).1

theorem Announced.later {leader : LeaderInfo} (h : Announced tr leader) :
    Announced (tr ++ [x]) leader := by
  obtain ⟨t, leaderTpus, leaders, o, hmem, hleader⟩ := h
  exact ⟨t, leaderTpus, leaders, o, List.mem_append_left _ hmem, hleader⟩

theorem Owned.later {pick : Pick} (h : Owned tr pick) : Owned (tr ++ [x]) pick :=
  ⟨getElem?_owners_concat x h.owner, fun leader hmem => (h.leaders leader hmem).later x⟩

theorem Asked.later {call : PublishCall} (h : Asked tr call) : Asked (tr ++ [x]) call := by
  obtain ⟨request, hrequest, hcall⟩ := h
  exact ⟨request, hrequest.later x, hcall⟩

theorem Attributable.later {conn : ConnId} {transaction : Transaction}
    (h : Attributable tr conn transaction) : Attributable (tr ++ [x]) conn transaction := by
  obtain ⟨t, n, call, pick, rest, request, hmem, hcall, hnext, htransaction, howner, hrequest,
    hdata, hsignature, hleaders⟩ := h
  exact ⟨t, n, call, pick, rest, request, List.mem_append_left _ hmem, hcall, hnext, htransaction,
    getElem?_owners_concat x howner, hrequest.later x, hdata, hsignature,
    fun leader hleader => (hleaders leader hleader).later x⟩

end Later

/-! ## What a step leaves to account for -/

/-- What has to be seen of a step: a new entry is that of a new channel, and what is there besides
was there before. -/
theorem Attributed.next (h : Attributed tr s)
    (hchannels : s'.channels.length = s.channels.length + (subscribes (s, event)).toList.length)
    (hentries : ∀ i c', s'.balancer.txConsumers.lookup i = some c' →
      (subscribes (s, event) = some i ∧ c'.tx = s.channels.length) ∨
        ∃ c, s.balancer.txConsumers.lookup i = some c ∧ c'.tx = c.tx)
    (hleaders : ∀ leader,
      leader ∈ s'.balancer.leaderTpus ∨ leader ∈ s'.balancer.leaders.values →
        Announced tr leader)
    (hwaiting : ∀ request ∈ s'.waiting, request ∈ s.waiting ∨ event = .request request)
    (hcalls : ∀ call ∈ s'.publishing, Asked tr call ∧ ∀ pick ∈ call.remaining, Owned tr pick)
    (henqueues : ∀ e ∈ enqueues (s, event), ∀ transaction ∈ e.2.transaction,
      Attributable (tr ++ [(s, event)]) e.1 transaction) :
    Attributed (tr ++ [(s, event)]) s' := by
  have howners : owners (tr ++ [(s, event)]) = owners tr ++ (subscribes (s, event)).toList :=
    filterMap_concat _ _ _
  refine ⟨?_, fun i c' hc' => ?_, fun leader hleader => ?_, fun request hrequest => ?_,
    fun call hcall => ?_, fun conn message hmem transaction htransaction => ?_⟩
  · rw [howners, List.length_append, h.channels, hchannels]
  · rcases hentries i c' hc' with ⟨hnew, htx⟩ | ⟨c, hc, htx⟩
    · rw [howners, htx, ← h.channels, hnew]
      simp
    · rw [htx]
      exact getElem?_owners_concat _ (h.entries i c hc)
  · exact (hleaders leader hleader).later _
  · rcases hwaiting request hrequest with hold | rfl
    · obtain ⟨t, ht⟩ := h.waiting request hold
      exact ⟨t, List.mem_append_left _ ht⟩
    · exact ⟨s, List.mem_append_right _ (List.mem_singleton_self _)⟩
  · obtain ⟨hasked, hpicks⟩ := hcalls call hcall
    exact ⟨hasked.later _, fun pick hpick => (hpicks pick hpick).later _⟩
  · rw [filterMap_concat] at hmem
    rcases List.mem_append.mp hmem with hold | hnew
    · exact (h.messages conn message hold transaction htransaction).later _
    · exact henqueues _ (Option.mem_toList.mp hnew) transaction htransaction

theorem Attributed.startPublish (h : Attributed tr s) {request : PublishRequest}
    {rest : List LockRequest} (next : s.waiting = .read request :: rest) :
    ∀ call ∈ ({ s with waiting := rest }.startPublish request).publishing,
      Asked tr call ∧ ∀ pick ∈ call.remaining, Owned tr pick := by
  unfold LockedServer.startPublish
  split
  next picks hpicks =>
    refine List.forall_mem_append.mpr ⟨h.calls, List.forall_mem_singleton.mpr ⟨?_, ?_⟩⟩
    · have hrequested := h.waiting (.read request) (by simp [next])
      exact ⟨request, hrequested, rfl, rfl⟩
    · intro pick hpick
      obtain ⟨i, hi⟩ := AList.mem_values.mp (Balancer.mem_values_of_pick hpicks hpick)
      refine ⟨?_, fun leader hleader => ?_⟩
      · -- consumers are filed under their identity
        rw [s.balancer.keyed i _ hi]
        exact h.entries i _ hi
      · exact h.leaders leader (Balancer.mem_leaders_of_pick hpicks hpick hleader)
  next => exact h.calls

/-- The entries a writer leaves have their channel from before, or are new with a new one. -/
theorem entry_write (s : LockedServer) (op : WriteOp) {i : String} {c' : TxConsumer}
    (hc' : (s.write op).balancer.txConsumers.lookup i = some c') :
    (∃ token, op = .subscribe i token ∧ c'.tx = s.channels.length) ∨
      ∃ c, s.balancer.txConsumers.lookup i = some c ∧ c'.tx = c.tx := by
  cases op with
  | setLeaders leaderTpus leaders o =>
    rw [write, Balancer.lookup_flushUnsubscribes] at hc'
    exact .inr ⟨c', (Option.filter_eq_some_iff.mp hc').1, rfl⟩
  | subscribe identity token =>
    rw [write, Balancer.lookup_subscribe] at hc'
    split at hc'
    next hi =>
      subst hi
      obtain rfl := Option.some.inj hc'
      exact .inl ⟨token, rfl, rfl⟩
    next => exact .inr ⟨c', hc', rfl⟩
  | unsubscribe identity token =>
    rw [write, Balancer.lookup_unsubscribe] at hc'
    exact .inr ⟨c', (Option.filter_eq_some_iff.mp hc').1, rfl⟩
  | updateStakeWeights stakeWeights =>
    rw [write, Balancer.lookup_updateStakeWeights] at hc'
    obtain ⟨c, hc, rfl⟩ := Option.map_eq_some_iff.mp hc'
    exact .inr ⟨c, hc, rfl⟩
  | updateRtt identity value =>
    unfold LockedServer.write at hc'
    dsimp only at hc'
    split at hc'
    next balancer hok =>
      obtain ⟨rttValues, rfl⟩ := s.balancer.updateRtt_eq_ok identity hok
      exact .inr ⟨c', hc', rfl⟩
    next => exact .inr ⟨c', hc', rfl⟩

/-- Only `set_leaders` gives the balancer leaders it did not have. -/
theorem leaders_write (s : LockedServer) (op : WriteOp) {leader : LeaderInfo}
    (hleader : leader ∈ (s.write op).balancer.leaderTpus ∨
      leader ∈ (s.write op).balancer.leaders.values) :
    (∃ leaderTpus leaders o, op = .setLeaders leaderTpus leaders o ∧
      (leader ∈ leaderTpus ∨ leader ∈ leaders.values)) ∨
      leader ∈ s.balancer.leaderTpus ∨ leader ∈ s.balancer.leaders.values := by
  cases op with
  | setLeaders leaderTpus leaders o =>
    have hsame := (s.balancer.setLeaders leaderTpus leaders).sameTables_flushUnsubscribes o
    rw [write, hsame.leaderTpus, hsame.leaders] at hleader
    exact .inl ⟨leaderTpus, leaders, o, rfl, hleader⟩
  | unsubscribe identity token =>
    have hsame := s.balancer.sameTables_unsubscribe identity token
    rw [write, hsame.leaderTpus, hsame.leaders] at hleader
    exact .inr hleader
  | updateRtt identity value =>
    unfold LockedServer.write at hleader
    dsimp only at hleader
    split at hleader
    next balancer hok =>
      obtain ⟨rttValues, rfl⟩ := s.balancer.updateRtt_eq_ok identity hok
      exact .inr hleader
    next => exact .inr hleader
  | subscribe | updateStakeWeights => exact .inr hleader

theorem publishing_write (s : LockedServer) (op : WriteOp) :
    (s.write op).publishing = s.publishing ∧ (s.write op).waiting = s.waiting := by
  cases op with
  | updateRtt identity value =>
    unfold LockedServer.write
    dsimp only
    split <;> exact ⟨rfl, rfl⟩
  | _ => exact ⟨rfl, rfl⟩

theorem Attributed.write (h : Attributed tr s) {op : WriteOp} {rest : List LockRequest}
    (next : s.waiting = .write op :: rest) :
    Attributed (tr ++ [(s, .grant)]) ({ s with waiting := rest }.write op) := by
  obtain ⟨hpublishing, hwaiting⟩ := publishing_write { s with waiting := rest } op
  refine h.next ?_ (fun i c' hc' => ?_) (fun leader hleader => ?_) (fun request hrequest => ?_) ?_
    (by simp [enqueues])
  · cases op with
    | subscribe identity token => simp [subscribes, next, LockedServer.write]
    | updateRtt identity value =>
      simp only [subscribes, next, LockedServer.write, Option.toList_none, List.length_nil]
      split <;> rfl
    | _ => simp [subscribes, next, LockedServer.write]
  · rcases entry_write _ op hc' with ⟨token, rfl, htx⟩ | hold
    · exact .inl ⟨by simp [subscribes, next], htx⟩
    · exact .inr hold
  · rcases leaders_write _ op hleader with ⟨leaderTpus, leaders, o, rfl, hmem⟩ | hold
    · obtain ⟨t, ht⟩ := h.waiting (.write (.setLeaders leaderTpus leaders o)) (by simp [next])
      exact ⟨t, leaderTpus, leaders, o, ht, hmem⟩
    · exact h.leaders leader hold
  · rw [hwaiting] at hrequest
    exact .inl (by simp [next, hrequest])
  · rw [hpublishing]
    exact h.calls

/-- A send may flag an entry, and does nothing else to the balancer. -/
theorem balancer_send (s : LockedServer) (n : ℕ) (call : PublishCall) (pick : Pick)
    (rest : List Pick) : (s.send n call pick rest).balancer = s.balancer ∨
      (s.send n call pick rest).balancer = s.balancer.flagUnsubscribe pick.1.identity := by
  cases haccepts : s.accepts pick.1.tx with
  | true => exact .inl (by simp [LockedServer.send, publishSend, haccepts])
  | false => exact .inr (by simp [LockedServer.send, publishSend, haccepts])

theorem length_channels_send (s : LockedServer) (n : ℕ) (call : PublishCall) (pick : Pick)
    (rest : List Pick) : (s.send n call pick rest).channels.length = s.channels.length := by
  cases haccepts : s.accepts pick.1.tx <;> simp [LockedServer.send, push, haccepts]

theorem Attributed.send (h : Attributed tr s) {n : ℕ} {call : PublishCall} {pick : Pick}
    {rest : List Pick} (hcall : s.publishing[n]? = some call)
    (next : call.remaining = pick :: rest) :
    Attributed (tr ++ [(s, .send n)]) (s.send n call pick rest) := by
  obtain ⟨hasked, hpicks⟩ := h.calls call (List.mem_of_getElem? hcall)
  have howned := hpicks pick (by simp [next])
  refine h.next (length_channels_send s n call pick rest) (fun i c' hc' => .inr ?_)
    (fun leader hleader => h.leaders leader ?_) (fun request hrequest => .inl hrequest) ?_ ?_
  · rcases balancer_send s n call pick rest with heq | heq
    · exact ⟨c', heq ▸ hc', rfl⟩
    · rw [heq, Balancer.lookup_flagUnsubscribe] at hc'
      obtain ⟨c, hc, rfl⟩ := Option.map_eq_some_iff.mp hc'
      exact ⟨c, hc, by split <;> rfl⟩
  · rcases balancer_send s n call pick rest with heq | heq <;> rw [heq] at hleader <;>
      exact hleader
  · refine Interleaving.forall_mem_set n h.calls ⟨hasked, fun pick' hpick' => ?_⟩
    exact hpicks pick' (by simp [next, hpick'])
  · rintro ⟨conn, message⟩ hmem transaction htransaction
    rw [enqueues_send hcall next, Option.mem_def, Option.ite_none_right_eq_some] at hmem
    obtain ⟨-, heq⟩ := hmem
    obtain ⟨rfl, rfl⟩ := Prod.mk.inj (Option.some.inj heq)
    obtain rfl := Option.some.inj htransaction
    obtain ⟨request, hrequest, hsignature, hdata⟩ := hasked
    have hlater := howned.later (s, .send n)
    exact ⟨s, n, call, pick, rest, request, List.mem_append_right _ (List.mem_singleton_self _),
      hcall, next, rfl, hlater.owner, hrequest.later _, hdata, hsignature, hlater.leaders⟩

theorem Attributed.step (h : Attributed tr s) (hs : Step s event s') :
    Attributed (tr ++ [(s, event)]) s' := by
  cases hs with
  | @request request running =>
    refine h.next rfl (fun i c hc => .inr ⟨c, hc, rfl⟩) h.leaders (fun request' hrequest => ?_)
      h.calls (by simp [enqueues])
    rcases List.mem_append.mp hrequest with hold | hnew
    · exact .inl hold
    · exact .inr (by rw [List.mem_singleton.mp hnew])
  | @grantRead request rest running next =>
    have hcalls := h.startPublish next
    have hsame : ({ s with waiting := rest }.startPublish request).balancer = s.balancer ∧
        ({ s with waiting := rest }.startPublish request).channels = s.channels ∧
        ({ s with waiting := rest }.startPublish request).waiting = rest := by
      unfold LockedServer.startPublish
      split <;> exact ⟨rfl, rfl, rfl⟩
    obtain ⟨hbalancer, hchannels, hwaiting⟩ := hsame
    refine h.next (by simp [hchannels, subscribes, next]) ?_ ?_ ?_ hcalls (by simp [enqueues])
    · rw [hbalancer]
      exact fun i c hc => .inr ⟨c, hc, rfl⟩
    · rw [hbalancer]
      exact h.leaders
    · rw [hwaiting]
      exact fun request' hmem => .inl (by simp [next, hmem])
  | grantWrite running next idle => exact h.write next
  | send running hcall next room => exact h.send hcall next
  | finish running hcall done =>
    refine h.next rfl (fun i c hc => .inr ⟨c, hc, rfl⟩) h.leaders (fun _ => .inl)
      (fun call hmem => h.calls call ?_) (by simp [enqueues])
    exact List.mem_of_mem_eraseIdx hmem
  | ping running receiving room =>
    refine h.next (by simp [push, subscribes]) (fun i c hc => .inr ⟨c, hc, rfl⟩) h.leaders
      (fun _ => .inl) h.calls ?_
    -- a ping carries no transaction
    rintro e hmem transaction htransaction
    obtain rfl := Option.some.inj hmem
    simp at htransaction
  | recv | dropReceiver =>
    exact h.next (by simp [subscribes]) (fun i c hc => .inr ⟨c, hc, rfl⟩) h.leaders (fun _ => .inl)
      h.calls (by simp [enqueues])

theorem attributed_of_run (h : Run Step new tr s) : Attributed tr s := by
  induction h with
  | nil => constructor <;> simp [new, Balancer.new, owners, AList.mem_values]
  | snoc _ hs ih => exact ih.step hs

end LockedServer

end Mtransaction
