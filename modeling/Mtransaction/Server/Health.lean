import Mtransaction.Server.RpcServer

/-!
# The health endpoint

`get_health` answers from a gauge of the process, not from the consumer table.  Every operation that
changes the table sets the gauge; so does, once, `init_metrics`, in a task `metrics::spawn` starts
beside everything else.
-/

namespace Mtransaction

open Runs

def Balancer.initMetrics (b : Balancer) : Balancer :=
  { b with gauges := { b.gauges with totalConnectedTxConsumers := 0 } }

/-- The balancer, and whether the task of `metrics::spawn` is still to run `init_metrics`. -/
structure Startup where
  balancer : Balancer
  uninitialized : Bool

inductive StartupEvent
  | op (op : BalancerOp)
  | initMetrics

namespace Startup

def new : Startup := ⟨.new, true⟩

inductive Step : Startup → StartupEvent → Startup → Prop
  | op {s : Startup} {op : BalancerOp} {balancer : Balancer} (ok : s.balancer.step op = .ok balancer) :
      Step s (.op op) { s with balancer }
  | initMetrics {s : Startup} (pending : s.uninitialized) :
      Step s .initMetrics ⟨s.balancer.initMetrics, false⟩

end Startup

/-! ## The gauge and the table -/

namespace Balancer

variable {b b' b'' : Balancer}

/-- Health is reported exactly when somebody is connected. -/
def Truthful (b : Balancer) : Prop := getHealth b.gauges = .ok () ↔ b.txConsumers.entries ≠ []

theorem truthful_iff :
    b.Truthful ↔ (b.gauges.totalConnectedTxConsumers = 0 ↔ b.txConsumers.entries.length = 0) := by
  unfold Truthful getHealth
  rw [List.length_eq_zero_iff]
  split
  next h => simp [h]
  next h => simp [h]

/-- What an operation may do to the gauge: set it to the size of the table, or touch neither. -/
def Gauged (b b' : Balancer) : Prop :=
  b'.gauges.totalConnectedTxConsumers = b'.txConsumers.entries.length ∨
    b'.gauges.totalConnectedTxConsumers = b.gauges.totalConnectedTxConsumers ∧
      b'.txConsumers.entries.length = b.txConsumers.entries.length

theorem Gauged.refl (b : Balancer) : Gauged b b := .inr ⟨rfl, rfl⟩

theorem Gauged.trans (h : Gauged b b') (h' : Gauged b' b'') : Gauged b b'' := by
  unfold Gauged at *
  omega

-- a count that was set is truthful, and one that was not touched stays so
theorem Gauged.truthful (h : Gauged b b') (hb : b.Truthful) : b'.Truthful := by
  rw [truthful_iff] at *
  unfold Gauged at h
  omega

theorem gauged_recalc (b : Balancer) : Gauged b' b.recalcTotalConnectedStake := .inl rfl

theorem gauged_mapConsumers (b : Balancer) (f : String → TxConsumer → TxConsumer)
    (hf : ∀ i c, (f i c).identity = c.identity) : Gauged b (b.mapConsumers f hf) := by
  right
  exact ⟨rfl, List.length_map _⟩

theorem gauged_unsubscribe (b : Balancer) (identity token : String) :
    Gauged b (b.unsubscribe identity token) := by
  rcases b.unsubscribe_cases identity token with ⟨c, -, -, heq⟩ | ⟨-, heq⟩
  · rw [heq]
    exact gauged_recalc _
  · rw [heq]
    exact .refl b

theorem gauged_foldl {α : Type*} {f : Balancer → α → Balancer} (hf : ∀ b a, Gauged b (f b a))
    (l : List α) (b : Balancer) : Gauged b (l.foldl f b) := by
  refine List.foldlRecOn (motive := Gauged b) l f (.refl b) ?_
  intro b' h a _
  exact h.trans (hf b' a)

theorem step_gauged {op : BalancerOp} (h : b.step op = .ok b') : Gauged b b' := by
  cases op with
  | subscribe identity token conn =>
    obtain rfl := Except.ok.inj h
    exact gauged_recalc _
  | unsubscribe identity token =>
    obtain rfl := Except.ok.inj h
    exact b.gauged_unsubscribe identity token
  | updateStakeWeights stakeWeights =>
    obtain rfl := Except.ok.inj h
    exact .inr ⟨rfl, List.length_map _⟩
  | setLeaders leaderTpus leaders =>
    obtain rfl := Except.ok.inj h
    exact .inr ⟨rfl, rfl⟩
  | updateRtt identity value =>
    obtain ⟨rttValues, rfl⟩ := b.updateRtt_eq_ok identity h
    exact .inr ⟨rfl, rfl⟩
  | publish env session signature data =>
    simp only [step] at h
    split at h
    next p hp =>
      obtain rfl := Except.ok.inj h
      obtain ⟨identities, heq⟩ := publish_flags hp
      rw [heq]
      exact gauged_foldl (f := flagUnsubscribe) (fun b _ => b.gauged_mapConsumers _ _) identities b
    next => simp at h
  | flushUnsubscribes o =>
    obtain rfl := Except.ok.inj h
    exact gauged_foldl (f := fun b (entry : String × String) => b.unsubscribe entry.1 entry.2)
      (fun b entry => b.gauged_unsubscribe entry.1 entry.2) _ b

end Balancer

/-! ## Runs from the start of the process -/

namespace Startup

variable {s s' : Startup} {event : StartupEvent} {tr : List (Startup × StartupEvent)}

/-- `init_metrics` finds nobody connected. -/
def Timely (s : Startup) : StartupEvent → Prop
  | .initMetrics => s.balancer.txConsumers.entries = []
  | .op _ => True

theorem step_truthful_iff (hb : s.balancer.Truthful) (h : Step s event s') :
    s'.balancer.Truthful ↔ s.Timely event := by
  cases h with
  | op ok =>
    have htruthful := (Balancer.step_gauged ok).truthful hb
    simp [Timely, htruthful]
  | initMetrics pending =>
    rw [Balancer.truthful_iff, List.length_eq_zero_iff]
    simp [Balancer.initMetrics, Timely]

/-- In every run from the start of the process, health is reported exactly when somebody is
connected, in every state, if and only if `init_metrics` runs while nobody is. -/
theorem health_truthful_iff (h : Run Step new tr s) :
    ((∀ x ∈ tr, x.1.balancer.Truthful) ∧ s.balancer.Truthful) ↔ ∀ x ∈ tr, x.1.Timely x.2 := by
  have hnew : new.balancer.Truthful := by
    rw [Balancer.truthful_iff]
    decide
  exact h.forall_states_iff (P := fun s => s.balancer.Truthful) hnew
    fun _ _ _ hb hs => step_truthful_iff hb hs

/-- `init_metrics` runs first, then a client connects: the server is healthy. -/
theorem healthy_after_init :
    getHealth (Balancer.new.initMetrics.subscribe "A" "token" 0).gauges = .ok () := by
  have hinit : Step new .initMetrics ⟨Balancer.new.initMetrics, false⟩ := .initMetrics rfl
  have hsub : Step ⟨Balancer.new.initMetrics, false⟩ (.op (.subscribe "A" "token" 0))
    ⟨Balancer.new.initMetrics.subscribe "A" "token" 0, false⟩ := .op rfl
  have htruthful := (health_truthful_iff (((Run.nil new).snoc hinit).snoc hsub)).mpr (by
    simp [Timely, new, Balancer.new])
  exact htruthful.2.mpr (by decide)

/-- A client connects before `init_metrics` runs: the server denies having one. -/
theorem unhealthy_with_client :
    Reachable Step new ⟨(Balancer.new.subscribe "A" "token" 0).initMetrics, false⟩ ∧
      (Balancer.new.subscribe "A" "token" 0).initMetrics.txConsumers.entries ≠ [] ∧
      getHealth (Balancer.new.subscribe "A" "token" 0).initMetrics.gauges =
        .error ⟨.serverError 503, "No connected tx consumers"⟩ := by
  have hsub : Step new (.op (.subscribe "A" "token" 0))
    ⟨Balancer.new.subscribe "A" "token" 0, true⟩ := .op rfl
  have hinit : Step ⟨Balancer.new.subscribe "A" "token" 0, true⟩ .initMetrics
    ⟨(Balancer.new.subscribe "A" "token" 0).initMetrics, false⟩ := .initMetrics rfl
  exact ⟨((Reachable.refl new).next hsub).next hinit, by decide, rfl⟩

end Startup

end Mtransaction
