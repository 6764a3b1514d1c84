import Mtransaction.Client.Process

/-!
# Which servers are served

The tasks and connections of the client process, set against the lists it reads: as long as no list
names a URL twice, one task serves each server listed, also while a reload is under way, and what
stays listed is left alone.
-/

namespace Mtransaction

open Runs

/-! ## One connection -/

/-- The feeder of an attempt's metrics outlives the attempt, so the task never leaves its loop. -/
structure ServerConnection.Fed (conn : ServerConnection) : Prop where
  fed : conn.Attempting → conn.metricsClosed = false ∧ conn.feederGone = false
  goesOn : conn.phase ≠ .ended

namespace ServerConnection

variable {conn conn' : ServerConnection} {event : ConnEvent}
  {transactions : List ForwardedTransaction}

theorem fed_new (source : String) : (new source).Fed := ⟨fun _ => ⟨rfl, rfl⟩, by simp [new]⟩

theorem Fed.step (h : conn.Fed) (hs : conn.Step event conn' transactions) : conn'.Fed := by
  have hfails : conn.fail.Fed := by
    refine ⟨fun hattempt => ?_, by simp [fail]⟩
    rcases hattempt with hphase | hphase | hphase | hphase <;> simp [fail] at hphase
  cases hs with
  | tls loading => exact ⟨fun _ => h.fed (.inl loading), by simp⟩
  | tlsFails loading => exact hfails
  | connect connecting => exact ⟨fun _ => h.fed (.inr (.inl connecting)), by simp⟩
  | connectFails connecting => exact hfails
  | call calling => exact ⟨fun _ => h.fed (.inr (.inr (.inl calling))), by simp⟩
  | response streaming => exact ⟨h.fed, h.goesOn⟩
  | closed streaming => exact hfails
  | metrics streaming => exact ⟨h.fed, h.goesOn⟩
  | metricsDropped streaming gone =>
    have hfed := (h.fed (.inr (.inr (.inr streaming)))).2
    simp [hfed] at gone
  | feederEnds closed =>
    refine ⟨fun hattempt => ?_, h.goesOn⟩
    have hopen := (h.fed hattempt).1
    simp [hopen] at closed
  | wake sleeping => exact ⟨fun _ => ⟨rfl, rfl⟩, by simp [again]⟩

theorem fed_aborted (conn : ServerConnection) : Fed { conn with phase := .aborted } := by
  refine ⟨fun hattempt => ?_, by simp⟩
  rcases hattempt with hphase | hphase | hphase | hphase <;> simp at hphase

theorem source_step (hs : conn.Step event conn' transactions) : conn'.source = conn.source := by
  cases hs <;> rfl

/-- Steps of its own neither stop a task nor start it again. -/
theorem aborted_step (hs : conn.Step event conn' transactions) :
    conn'.phase = .aborted ↔ conn.phase = .aborted := by
  cases hs <;> simp_all [fail, again, enqueue]

/-- Transactions are handed over by a task that streams, under its source. -/
theorem streaming_of_handed (hs : conn.Step event conn' transactions) (hsome : transactions ≠ []) :
    conn.phase = .streaming ∧ ∀ tx ∈ transactions, tx.source = conn.source := by
  cases hs with
  | @response taken response streaming =>
    refine ⟨streaming, fun tx htx => ?_⟩
    unfold processUpstreamMessage at htx
    split at htx
    · obtain ⟨transaction, -, rfl⟩ := List.mem_map.mp htx
      rfl
    · simp at htx
  | _ => exact absurd rfl hsome

end ServerConnection

namespace ClientProcess

/-! ## Tasks and connections -/

/-- The URL is listed and, in the middle of a reload, still or already served. -/
def Serving (s : ClientProcess) (url : String) : Prop :=
  url ∈ s.main.connections.grpcUrls ∧
    match s.loop with
    | .receiving => True
    | .aborting urls _ newGrpcUrls => url ∈ urls ∨ url ∈ newGrpcUrls
    | .spawning urls => url ∉ urls

/-- Task `n` was asked to stop and has not yet. -/
def Stopping (s : ClientProcess) (n : TaskId) : Prop :=
  (∃ task ∈ s.main.connections.tasks[n]?, task.aborted) ∧
    ∃ conn ∈ s.client.conns[n]?, conn.phase ≠ .aborted

def Stopped (s : ClientProcess) (n : TaskId) : Prop :=
  ∃ conn ∈ s.client.conns[n]?, conn.phase = .aborted

/-- The process runs, and task `n` keeps a connection to the server up. -/
def Tries (host : String → String) (s : ClientProcess) (n : TaskId) (url : String) : Prop :=
  s.Running ∧ s.main.connections.Live n url ∧
    ∃ conn ∈ s.client.conns[n]?,
      conn.source = host url ∧ conn.phase ≠ .aborted ∧ conn.phase ≠ .ended

/-- What is left of the loop over the URLs that went, and of what comes after it. -/
structure AbortsGone (grpcUrls urls urlsToSpawn newGrpcUrls : List String) : Prop where
  once : urls.Nodup
  went : ∀ url ∈ urls, url ∈ grpcUrls ∧ url ∉ newGrpcUrls
  newOnce : newGrpcUrls.Nodup
  came : urlsToSpawn = newGrpcUrls.filter fun url => url ∉ grpcUrls

structure SpawnsListed (grpcUrls urls : List String) : Prop where
  once : urls.Nodup
  listed : ∀ url ∈ urls, url ∈ grpcUrls

/-- Lists that name no URL twice, and a loop that works on them. -/
def WellFormed (s : ClientProcess) : Prop :=
  match s.loop with
  | .receiving => True
  | .aborting urls urlsToSpawn newGrpcUrls =>
    AbortsGone s.main.connections.grpcUrls urls urlsToSpawn newGrpcUrls
  | .spawning urls => SpawnsListed s.main.connections.grpcUrls urls

/-- Tasks and lists in step, also while a reload is under way. -/
structure InStep (s : ClientProcess) : Prop where
  spawned : ∀ url, s.Serving url → ∃ n, s.main.connections.Live n url
  listed : ∀ n url, s.main.connections.Live n url → s.Serving url
  handled : ∀ n url, s.main.connections.Live n url →
    s.main.connections.allTasks.lookup url = some n
  listedOnce : s.main.connections.grpcUrls.Nodup
  pendingOnce : ∀ urls ∈ s.main.channel ++ s.main.signalled.toList, urls.Nodup
  wellFormed : s.WellFormed

section Tasks

variable {parses : String → Bool} {host : String → String}
variable {SocketAddr : Type} {crates : ForwardCrates SocketAddr}
variable {s₀ s s' : ClientProcess} {event : ProcessEvent} {tr : List (ClientProcess × ProcessEvent)}
variable {forwarder : TransactionForwarder} {throttleParallel : ℕ} {file : UrlsFile}

theorem inStep_started {grpcUrls : List String} (honce : grpcUrls.Nodup) :
    (started grpcUrls forwarder throttleParallel).InStep := by
  refine ⟨fun url hserving => absurd hserving.1 hserving.2, ?_, ?_, honce, by simp [started],
    honce, fun url hurl => hurl⟩
  all_goals simp [started, Connections.idle, Connections.Live]

-- which lists are pending after a step
theorem InStep.pendingOnce_step (h : s.InStep) (hs : Step parses host crates s event s')
    (honce : ∀ urls ∈ readList (s, event), urls.Nodup) :
    ∀ urls ∈ s'.main.channel ++ s'.main.signalled.toList, urls.Nodup := by
  intro urls hurls
  have hmem := List.mem_append_right (takenList (s, event)).toList hurls
  rw [← (lists_step hs).1, List.mem_append] at hmem
  rcases hmem with hold | hnew
  · exact h.pendingOnce urls hold
  · exact honce urls (Option.mem_toList.mp hnew)

/-- Steps that leave tasks, list and loop alone, and those that only move the loop on. -/
theorem InStep.same (h : s.InStep) (hconns : s'.main.connections = s.main.connections)
    (hserving : ∀ url, s'.Serving url ↔ s.Serving url) (hwell : s'.WellFormed)
    (hpending : ∀ urls ∈ s'.main.channel ++ s'.main.signalled.toList, urls.Nodup) : s'.InStep := by
  refine ⟨fun url hurl => ?_, fun n url hlive => ?_, fun n url hlive => ?_, ?_, hpending, hwell⟩
  · rw [hconns]
    exact h.spawned url ((hserving url).mp hurl)
  · rw [hconns] at hlive
    exact (hserving url).mpr (h.listed n url hlive)
  · rw [hconns] at hlive ⊢
    exact h.handled n url hlive
  · rw [hconns]
    exact h.listedOnce

section Loop

variable {url : String} {urls urlsToSpawn newGrpcUrls : List String}

theorem InStep.abortsGone (h : s.InStep)
    (hloop : s.loop = .aborting urls urlsToSpawn newGrpcUrls) :
    AbortsGone s.main.connections.grpcUrls urls urlsToSpawn newGrpcUrls := by
  have hwell := h.wellFormed
  unfold WellFormed at hwell
  rwa [hloop] at hwell

theorem InStep.spawnsListed (h : s.InStep) (hloop : s.loop = .spawning urls) :
    SpawnsListed s.main.connections.grpcUrls urls := by
  have hwell := h.wellFormed
  unfold WellFormed at hwell
  rwa [hloop] at hwell

theorem serving_aborting (hloop : s.loop = .aborting urls urlsToSpawn newGrpcUrls) (url : String) :
    s.Serving url ↔ url ∈ s.main.connections.grpcUrls ∧ (url ∈ urls ∨ url ∈ newGrpcUrls) := by
  unfold Serving
  rw [hloop]

theorem serving_spawning (hloop : s.loop = .spawning urls) (url : String) :
    s.Serving url ↔ url ∈ s.main.connections.grpcUrls ∧ url ∉ urls := by
  unfold Serving
  rw [hloop]

/-- The task of a URL that went is aborted: it is not served any more, and all others are. -/
theorem InStep.abort (h : s.InStep)
    (hloop : s.loop = .aborting (url :: urls) urlsToSpawn newGrpcUrls) :
    InStep { s.setConnections (s.main.connections.abort url) with
      loop := .aborting urls urlsToSpawn newGrpcUrls } := by
  have haborts := h.abortsGone hloop
  obtain ⟨hfresh, hrest⟩ := List.nodup_cons.mp haborts.once
  have hurls := Connections.grpcUrls_abort s.main.connections url
  have hserving (u : String) : Serving { s.setConnections (s.main.connections.abort url) with
      loop := .aborting urls urlsToSpawn newGrpcUrls } u ↔ s.Serving u ∧ u ≠ url := by
    have hleft : (u ∈ urls ∨ u ∈ newGrpcUrls) ↔
        (u ∈ url :: urls ∨ u ∈ newGrpcUrls) ∧ u ≠ url := by
      by_cases hu : u = url
      · have hout := (haborts.went url (List.mem_cons_self ..)).2
        simp [hu, hfresh, hout]
      · simp [hu]
    rw [serving_aborting hloop]
    show u ∈ (s.main.connections.abort url).grpcUrls ∧ (u ∈ urls ∨ u ∈ newGrpcUrls) ↔ _
    rw [hurls, hleft, and_assoc]
  have hlive (n : TaskId) (u : String) : (s.main.connections.abort url).Live n u ↔
      s.main.connections.Live n u ∧ u ≠ url := by
    rw [Connections.live_abort]
    constructor
    · rintro ⟨hold, hother⟩
      refine ⟨hold, fun heq => hother ⟨heq, h.handled n u hold⟩⟩
    · rintro ⟨hold, hne⟩
      exact ⟨hold, fun hgone => hne hgone.1⟩
  refine ⟨fun u hu => ?_, fun n u hn => ?_, fun n u hn => ?_, ?_, h.pendingOnce, ?_⟩
  · obtain ⟨hold, hne⟩ := (hserving u).mp hu
    obtain ⟨n, hn⟩ := h.spawned u hold
    exact ⟨n, (hlive n u).mpr ⟨hn, hne⟩⟩
  · obtain ⟨hold, hne⟩ := (hlive n u).mp hn
    exact (hserving u).mpr ⟨h.listed n u hold, hne⟩
  · obtain ⟨hold, hne⟩ := (hlive n u).mp hn
    show (s.main.connections.abort url).allTasks.lookup u = some n
    rw [Connections.lookup_abort, if_neg hne, h.handled n u hold]
  · show (s.main.connections.abort url).grpcUrls.Nodup
    rw [hurls]
    exact h.listedOnce
  · show AbortsGone (s.main.connections.abort url).grpcUrls urls urlsToSpawn newGrpcUrls
    rw [hurls]
    exact ⟨hrest, fun u hu => haborts.went u (List.mem_cons_of_mem _ hu), haborts.newOnce,
      haborts.came⟩

/-- The task of a URL that came is spawned: it is served from now on. -/
theorem InStep.spawn (h : s.InStep) (hloop : s.loop = .spawning (url :: urls)) (client : Client) :
    InStep { s.setConnections (s.main.connections.spawn url) with
      loop := .spawning urls, client } := by
  have hspawns := h.spawnsListed hloop
  obtain ⟨hfresh, hrest⟩ := List.nodup_cons.mp hspawns.once
  have hold := serving_spawning hloop
  have hserving (u : String) : Serving { s.setConnections (s.main.connections.spawn url) with
      loop := .spawning urls, client } u ↔ s.Serving u ∨ u = url := by
    rw [hold]
    show u ∈ s.main.connections.grpcUrls ∧ u ∉ urls ↔ _
    by_cases hu : u = url
    · simp [hu, hfresh, hspawns.listed url]
    · simp [hu]
  refine ⟨fun u hu => ?_, fun n u hn => ?_, fun n u hn => ?_, h.listedOnce, h.pendingOnce,
    hrest, fun u hu => hspawns.listed u (List.mem_cons_of_mem _ hu)⟩
  · rcases (hserving u).mp hu with hbefore | rfl
    · obtain ⟨n, hn⟩ := h.spawned u hbefore
      exact ⟨n, (Connections.live_spawn _ _ _ _).mpr (.inl hn)⟩
    · exact ⟨_, (Connections.live_spawn _ _ _ _).mpr (.inr ⟨rfl, rfl⟩)⟩
  · rcases (Connections.live_spawn _ _ _ _).mp hn with hbefore | ⟨-, rfl⟩
    · exact (hserving u).mpr (.inl (h.listed n u hbefore))
    · exact (hserving u).mpr (.inr rfl)
  · show (s.main.connections.allTasks.insert url _).lookup u = some n
    rw [AList.lookup_insert_eq_ite]
    rcases (Connections.live_spawn _ _ _ _).mp hn with hbefore | ⟨rfl, rfl⟩
    · have hne : u ≠ url := by
        rintro rfl
        exact ((hold u).mp (h.listed n u hbefore)).2 (List.mem_cons_self ..)
      rw [if_neg hne, h.handled n u hbefore]
    · rw [if_pos rfl]

/-- The list is replaced when nothing is left to abort: the URLs served are those in both lists. -/
theorem InStep.replace (h : s.InStep) (hloop : s.loop = .aborting [] urlsToSpawn newGrpcUrls) :
    InStep { s.setConnections { s.main.connections with grpcUrls := newGrpcUrls } with
      loop := .spawning urlsToSpawn } := by
  have haborts := h.abortsGone hloop
  have hserving (u : String) :
      Serving { s.setConnections { s.main.connections with grpcUrls := newGrpcUrls } with
        loop := .spawning urlsToSpawn } u ↔ s.Serving u := by
    rw [serving_aborting hloop]
    show u ∈ newGrpcUrls ∧ u ∉ urlsToSpawn ↔ _
    rw [haborts.came]
    by_cases hu : u ∈ newGrpcUrls <;> simp [hu]
  refine ⟨fun u hu => h.spawned u ((hserving u).mp hu),
    fun n u hn => (hserving u).mpr (h.listed n u hn), h.handled, haborts.newOnce,
    h.pendingOnce, ?_, fun u hu => ?_⟩
  · rw [haborts.came]
    exact haborts.newOnce.filter _
  · rw [haborts.came] at hu
    exact (List.mem_filter.mp hu).1

end Loop

theorem InStep.step (h : s.InStep) (hs : Step parses host crates s event s')
    (honce : ∀ urls ∈ readList (s, event), urls.Nodup) : s'.InStep := by
  have hpending := h.pendingOnce_step hs honce
  cases hs with
  | sighup running hstep =>
    cases hstep with
    | sighup idle => exact h.same rfl (fun url => Iff.rfl) h.wellFormed hpending
  | send running hstep =>
    cases hstep with
    | send hurls room => exact h.same rfl (fun url => Iff.rfl) h.wellFormed hpending
  | @recv newGrpcUrls rest running receiving next =>
    have hnew : newGrpcUrls.Nodup := h.pendingOnce _ (by simp [next])
    refine h.same rfl (fun url => ?_) ⟨h.listedOnce.filter _, fun url hurl => ?_, hnew, rfl⟩
      hpending
    · unfold Serving
      simp only [receiving, List.mem_filter, decide_eq_true_eq]
      by_cases hurl : url ∈ newGrpcUrls <;> simp [hurl]
    · simpa using hurl
  | abort running aborting => exact h.abort aborting
  | replace running aborting => exact h.replace aborting
  | spawn running spawning parsed hstep => exact h.spawn spawning _
  | built running spawning =>
    refine h.same rfl (fun url => ?_) trivial hpending
    unfold Serving
    simp [spawning]
  | spawnPanics running spawning parsed =>
    exact h.same rfl (fun url => Iff.rfl) h.wellFormed hpending
  | cancel running htask aborted hstep =>
    exact h.same rfl (fun url => Iff.rfl) h.wellFormed hpending
  | conn running hstep => exact h.same rfl (fun url => Iff.rfl) h.wellFormed hpending
  | forward running hstep => exact h.same rfl (fun url => Iff.rfl) h.wellFormed hpending

end Tasks

/-! ## Tasks and their connections -/

section Connected

variable {parses : String → Bool} {host : String → String}
variable {SocketAddr : Type} {crates : ForwardCrates SocketAddr}
variable {s₀ s s' : ClientProcess} {event : ProcessEvent}
  {tr₀ tr : List (ClientProcess × ProcessEvent)}
variable {Keypair IpAddr : Type} {options : OptionCrates Keypair IpAddr} {params : Params}
variable {forwarder : TransactionForwarder} {throttleParallel : ℕ} {file : UrlsFile}

/-- A task and its connection. -/
structure Mirror (host : String → String) (task : Task) (conn : ServerConnection) : Prop where
  source : conn.source = host task.url
  stopped : conn.phase = .aborted → task.aborted
  fed : conn.Fed

structure Mirrors (host : String → String) (s : ClientProcess) : Prop where
  length : s.client.conns.length = s.main.connections.tasks.length
  each : ∀ (n : ℕ) task conn, s.main.connections.tasks[n]? = some task →
    s.client.conns[n]? = some conn → Mirror host task conn

/-- A connection that is replaced by one the task still mirrors. -/
theorem Mirrors.set (h : s.Mirrors host) {n : TaskId} {conn : ServerConnection} {client : Client}
    (hclient : client.conns = s.client.conns.set n conn)
    (hconn : ∀ task, s.main.connections.tasks[n]? = some task → Mirror host task conn) :
    Mirrors host { s with client } := by
  refine ⟨?_, fun m task conn' htask hget => ?_⟩
  · show client.conns.length = _
    rw [hclient, List.length_set]
    exact h.length
  · have hget' : (s.client.conns.set n conn)[m]? = some conn' := hclient ▸ hget
    by_cases hm : n = m
    · subst hm
      have hlt := (List.getElem?_eq_some_iff.mp hget').1
      rw [List.length_set] at hlt
      rw [List.getElem?_set_self hlt] at hget'
      exact Option.some.inj hget' ▸ hconn task htask
    · rw [List.getElem?_set_ne hm] at hget'
      exact h.each m task conn' htask hget'

theorem Mirror.abort {task : Task} {conn : ServerConnection} (h : Mirror host task conn) :
    Mirror host { task with aborted := true } conn := ⟨h.source, fun _ => rfl, h.fed⟩

-- a handle that is used up leaves the task where it is
theorem tasks_abort (c : Connections) (url : String) :
    (c.abort url).tasks = c.tasks ∨ ∃ id, (c.abort url).tasks =
      c.tasks.modify id fun task => { task with aborted := true } := by
  unfold Connections.abort
  split
  · exact .inr ⟨_, rfl⟩
  · exact .inl rfl

theorem Mirrors.abort (h : s.Mirrors host) (url : String) (loop : MainLoop) :
    Mirrors host { s.setConnections (s.main.connections.abort url) with loop } := by
  rcases tasks_abort s.main.connections url with heq | ⟨id, heq⟩
  · refine ⟨h.length.trans (congrArg List.length heq.symm), fun n task conn htask => ?_⟩
    exact h.each n task conn (heq ▸ htask)
  · refine ⟨?_, fun n task conn htask hconn => ?_⟩
    · show s.client.conns.length = (s.main.connections.abort url).tasks.length
      rw [heq, List.length_modify]
      exact h.length
    · have hget : (s.main.connections.tasks.modify id
          fun task => { task with aborted := true })[n]? = some task := heq ▸ htask
      rw [List.getElem?_modify] at hget
      obtain ⟨before, hbefore, rfl⟩ := Option.map_eq_some_iff.mp hget
      have hmirror := h.each n before conn hbefore hconn
      split
      · exact hmirror.abort
      · exact hmirror

theorem Mirrors.spawn (h : s.Mirrors host) (url : String) (loop : MainLoop) {client : Client}
    (hs : s.client.Step crates (.spawn (host url)) client) :
    Mirrors host { s.setConnections (s.main.connections.spawn url) with loop, client } := by
  cases hs with
  | spawn running =>
    refine ⟨?_, fun n task conn htask hconn => ?_⟩
    · show (s.client.conns ++ _).length = (s.main.connections.tasks ++ _).length
      rw [List.length_append, List.length_append, h.length]
      rfl
    · have htask' : (s.main.connections.tasks ++ [⟨url, false⟩])[n]? = some task := htask
      have hconn' : (s.client.conns ++ [ServerConnection.new (host url)])[n]? = some conn := hconn
      by_cases hn : n < s.main.connections.tasks.length
      · rw [List.getElem?_append_left hn] at htask'
        rw [List.getElem?_append_left (h.length ▸ hn)] at hconn'
        exact h.each n task conn htask' hconn'
      · -- the new ones are the last of both lists
        obtain ⟨hlen, rfl⟩ : n = s.main.connections.tasks.length ∧ Task.mk url false = task := by
          rw [List.getElem?_append_right (Nat.le_of_not_lt hn)] at htask'
          obtain ⟨hzero, heq⟩ := List.getElem?_eq_some_iff.mp htask'
          simp only [List.length_singleton] at hzero
          exact ⟨by omega, by simpa using heq⟩
        rw [hlen, ← h.length, List.getElem?_append_right (Nat.le_refl _), Nat.sub_self] at hconn'
        obtain rfl := Option.some.inj hconn'
        exact ⟨rfl, by simp [ServerConnection.new], ServerConnection.fed_new _⟩

theorem Mirrors.step (h : s.Mirrors host) (hs : Step parses host crates s event s') :
    s'.Mirrors host := by
  cases hs with
  | sighup running hstep =>
    cases hstep with
    | sighup idle => exact ⟨h.length, h.each⟩
  | send running hstep =>
    cases hstep with
    | send hurls room => exact ⟨h.length, h.each⟩
  | abort running aborting => exact h.abort _ _
  | spawn running spawning parsed hstep => exact h.spawn _ _ hstep
  | cancel running htask aborted hstep =>
    cases hstep with
    | @abort _ conn running hconn =>
      refine h.set rfl fun task' htask' => ?_
      obtain rfl := Option.some.inj (htask.symm.trans htask')
      have hmirror := h.each _ _ conn htask hconn
      exact ⟨hmirror.source, fun _ => aborted, ServerConnection.fed_aborted conn⟩
  | conn running hstep =>
    cases hstep with
    | conn running hconn hstep =>
      refine h.set rfl fun task htask => ?_
      have hmirror := h.each _ task _ htask hconn
      refine ⟨(ServerConnection.source_step hstep).trans hmirror.source, fun hphase => ?_,
        hmirror.fed.step hstep⟩
      exact hmirror.stopped ((ServerConnection.aborted_step hstep).mp hphase)
    | connPanics running hconn hpanics => exact ⟨h.length, h.each⟩
  | forward running hstep =>
    cases hstep with
    | forward running hstep => exact ⟨h.length, h.each⟩
    | forwardPanics running hpanics => exact ⟨h.length, h.each⟩
  | _ => exact ⟨h.length, h.each⟩

theorem mirrors_started {grpcUrls : List String} :
    (started grpcUrls forwarder throttleParallel).Mirrors host :=
  ⟨rfl, by simp [started, Connections.idle]⟩

/-- A task that was not asked to stop keeps its connection up. -/
theorem Mirrors.tries_iff (h : s.Mirrors host) (hrunning : s.Running) (n : TaskId) (url : String) :
    s.Tries host n url ↔ s.main.connections.Live n url := by
  constructor
  · exact fun htries => htries.2.1
  · intro hlive
    obtain ⟨hlt, -⟩ := List.getElem?_eq_some_iff.mp hlive
    obtain ⟨conn, hconn⟩ : ∃ conn, s.client.conns[n]? = some conn :=
      ⟨_, List.getElem?_eq_getElem (h.length ▸ hlt)⟩
    have hmirror := h.each n _ conn hlive hconn
    refine ⟨hrunning, hlive, conn, hconn, hmirror.source, fun hphase => ?_, hmirror.fed.goesOn⟩
    exact absurd (hmirror.stopped hphase) (by simp)

/-- Whatever is not one of the tasks that go on was asked to stop. -/
theorem Mirrors.others (h : s.Mirrors host) (hrunning : s.Running) {n : TaskId}
    (hn : n < s.client.conns.length) :
    (∃ url, s.Tries host n url) ∨ s.Stopping n ∨ s.Stopped n := by
  obtain ⟨conn, hconn⟩ : ∃ conn, s.client.conns[n]? = some conn := ⟨_, List.getElem?_eq_getElem hn⟩
  obtain ⟨task, htask⟩ : ∃ task, s.main.connections.tasks[n]? = some task :=
    ⟨_, List.getElem?_eq_getElem (h.length ▸ hn)⟩
  cases haborted : task.aborted with
  | true =>
    by_cases hphase : conn.phase = .aborted
    · exact .inr (.inr ⟨conn, hconn, hphase⟩)
    · exact .inr (.inl ⟨⟨task, htask, haborted⟩, conn, hconn, hphase⟩)
  | false =>
    refine .inl ⟨task.url, (h.tries_iff hrunning n task.url).mpr ?_⟩
    show s.main.connections.tasks[n]? = some ⟨task.url, false⟩
    rw [htask, ← haborted]

/-- The process runs, and the servers that are listed are those that are served. -/
structure ServesLists (parses : String → Bool) (host : String → String)
    (crates : ForwardCrates SocketAddr) (s : ClientProcess) : Prop where
  one : ∀ url, s.Serving url → ∃! n, s.Tries host n url
  only : ∀ n url, s.Tries host n url → s.Serving url
  others : ∀ n < s.client.conns.length, (∃ url, s.Tries host n url) ∨ s.Stopping n ∨ s.Stopped n
  stops : ∀ n, s.Stopping n → ∃ s',
    Step parses host crates s (.cancel n) s' ∧ s'.Stopped n

/-- Where the transactions come from that a step of task `n` hands to the forwarder. -/
structure Relays (host : String → String) (s : ClientProcess) (n : TaskId) (s' : ClientProcess)
    (transactions : List ForwardedTransaction) : Prop where
  handed : s'.client.forwarding.queue = s.client.forwarding.queue ++ transactions
  origin : transactions ≠ [] → s.Stopping n ∨ ∃ url, s.Serving url ∧ s.Tries host n url ∧
    ∀ tx ∈ transactions, tx.source = host url

theorem servesLists (hin : s.InStep) (hm : s.Mirrors host) (hrunning : s.Running) :
    s.ServesLists parses host crates := by
  refine ⟨fun url hserving => ?_, fun n url htries => hin.listed n url htries.2.1,
    fun n => hm.others hrunning, fun n hstopping => ?_⟩
  · obtain ⟨n, hlive⟩ := hin.spawned url hserving
    refine ⟨n, (hm.tries_iff hrunning n url).mpr hlive, fun n' htries => ?_⟩
    have hfiled := (hin.handled n url hlive).symm.trans (hin.handled n' url htries.2.1)
    exact (Option.some.inj hfiled).symm
  · obtain ⟨⟨task, htask, haborted⟩, conn, hconn, -⟩ := hstopping
    have hset : (s.client.conns.set n { conn with phase := .aborted })[n]? =
        some { conn with phase := .aborted } :=
      List.getElem?_set_self (List.getElem?_eq_some_iff.mp hconn).1
    exact ⟨_, .cancel hrunning htask haborted (.abort hrunning.2 hconn), _, hset, rfl⟩

theorem relays_of_step (hin : s.InStep) (hm : s.Mirrors host) {n : TaskId} {connEvent : ConnEvent}
    (hs : Step parses host crates s (.conn n connEvent) s') :
    ∃ transactions, Relays host s n s' transactions := by
  cases hs with
  | conn hrunning hstep =>
    cases hstep with
    | @conn _ conn conn' _ transactions running hconn hstep =>
      refine ⟨transactions, rfl, fun hsome => ?_⟩
      obtain ⟨hstreaming, hsource⟩ := ServerConnection.streaming_of_handed hstep hsome
      have hgoes : conn.phase ≠ .aborted := by simp [hstreaming]
      have hlt := (List.getElem?_eq_some_iff.mp hconn).1
      rcases hm.others hrunning hlt with ⟨url, htries⟩ | hstop | hstop
      · refine .inr ⟨url, hin.listed n url htries.2.1, htries, fun tx htx => ?_⟩
        rw [hsource tx htx]
        exact (hm.each n _ conn htries.2.1 hconn).source
      · exact .inl hstop
      · obtain ⟨conn'', hconn'', hphase⟩ := hstop
        obtain rfl := Option.some.inj (hconn.symm.trans hconn'')
        exact absurd hphase hgoes
    | connPanics running hconn hpanics => exact ⟨[], by simp, fun hsome => absurd rfl hsome⟩

/-! ## A server that stays listed -/

/-- Only its own steps change the connection of a task that was not asked to stop. -/
theorem conn_kept (hm : s.Mirrors host) {n : TaskId} {url : String}
    (hlive : s.main.connections.Live n url)
    (hs : Step parses host crates s event s') (hother : ∀ connEvent, event ≠ .conn n connEvent) :
    s'.client.conns[n]? = s.client.conns[n]? := by
  have hlt : n < s.client.conns.length := by
    rw [hm.length]
    exact (List.getElem?_eq_some_iff.mp hlive).1
  cases hs with
  | spawn running spawning parsed hstep =>
    cases hstep with
    | spawn running => exact List.getElem?_append_left hlt
  | @cancel k task client running htask aborted hstep =>
    cases hstep with
    | abort running hconn =>
      refine List.getElem?_set_ne fun heq => ?_
      have hgoesOn := Option.some.inj (htask.symm.trans (heq ▸ hlive))
      simp [hgoesOn] at aborted
  | @conn k connEvent client running hstep =>
    cases hstep with
    | conn running hconn hstep =>
      refine List.getElem?_set_ne fun heq => hother connEvent ?_
      rw [heq]
    | connPanics running hconn hpanics => rfl
  | forward running hstep => cases hstep <;> rfl
  | _ => rfl

theorem live_step (hin : s.InStep) {n : TaskId} {url : String}
    (hlive : s.main.connections.Live n url) (htarget : url ∈ s.target)
    (hs : Step parses host crates s event s') : s'.main.connections.Live n url := by
  cases hs with
  | sighup running hstep => cases hstep with | sighup idle => exact hlive
  | send running hstep => cases hstep with | send hurls room => exact hlive
  | @abort url' urls urlsToSpawn newGrpcUrls running aborting =>
    refine (Connections.live_abort _ _ _ _).mpr ⟨hlive, fun hgone => ?_⟩
    have haborts := hin.abortsGone aborting
    rw [target, aborting] at htarget
    exact (haborts.went url' (List.mem_cons_self ..)).2 (hgone.1 ▸ htarget)
  | spawn running spawning parsed hstep =>
    exact (Connections.live_spawn _ _ _ _).mpr (.inl hlive)
  | _ => exact hlive

/-! ## Every run of the process -/

theorem sound_start (hstart : start options params file = .ok s₀)
    (honce : ∀ grpcUrls, readGrpcUrlsFromFile file = .ok grpcUrls → grpcUrls.Nodup) :
    s₀.InStep ∧ s₀.Mirrors host := by
  obtain ⟨grpcUrls, forwarder, hread, -, rfl⟩ := start_eq_ok hstart
  exact ⟨inStep_started (honce _ hread), mirrors_started⟩

theorem sound_step (h : s.InStep ∧ s.Mirrors host) (hs : Step parses host crates s event s')
    (honce : ∀ urls ∈ readList (s, event), urls.Nodup) : s'.InStep ∧ s'.Mirrors host :=
  ⟨h.1.step hs honce, h.2.step hs⟩

theorem honce_of_mem (honce : ∀ urls ∈ tr.filterMap readList, urls.Nodup)
    (hmem : (s, event) ∈ tr) : ∀ urls ∈ readList (s, event), urls.Nodup :=
  fun urls hurls => honce urls (List.mem_filterMap.mpr ⟨_, hmem, hurls⟩)

/-- While no list names a URL twice, also in the middle of a reload, as long as the process runs. -/
theorem served_of_run (hstart : start options params file = .ok s₀)
    (h : Run (Step parses host crates) s₀ tr s)
    (honce₀ : ∀ grpcUrls, readGrpcUrlsFromFile file = .ok grpcUrls → grpcUrls.Nodup)
    (honce : ∀ urls ∈ tr.filterMap readList, urls.Nodup) :
    (∀ x ∈ tr, x.1.ServesLists parses host crates ∧ ∀ n connEvent s',
      Step parses host crates x.1 (.conn n connEvent) s' →
        ∃ transactions, Relays host x.1 n s' transactions) ∧
    (s.Running → s.ServesLists parses host crates) := by
  have hbegin : s₀.InStep ∧ s₀.Mirrors host := sound_start hstart honce₀
  have hstep (t : ClientProcess) (a : ProcessEvent) (u : ClientProcess) (hmem : (t, a) ∈ tr)
      (ht : t.InStep ∧ t.Mirrors host) (hs : Step parses host crates t a u) :
      u.InStep ∧ u.Mirrors host := sound_step ht hs (honce_of_mem honce hmem)
  constructor
  · intro x hx
    obtain ⟨hin, hm⟩ := h.invariant_mem hbegin hstep x hx
    -- a step is taken by a process that runs
    obtain ⟨u, hs⟩ := h.step_of_mem hx
    exact ⟨servesLists hin hm hs.running, fun n connEvent s' hs => relays_of_step hin hm hs⟩
  · intro hrunning
    obtain ⟨hin, hm⟩ := h.invariant hbegin hstep
    exact servesLists hin hm hrunning

/-- The task of a server keeps its connection, and no step that leaves the process running changes
that connection but its own. -/
structure KeptUp (parses : String → Bool) (host : String → String)
    (crates : ForwardCrates SocketAddr) (n : TaskId) (url : String)
    (tr : List (ClientProcess × ProcessEvent)) (s : ClientProcess) : Prop where
  along : ∀ x ∈ tr, x.1.Tries host n url
  after : s.Tries host n url
  untouched : ∀ x ∈ tr, ∀ s', Step parses host crates x.1 x.2 s' → s'.Running →
    (∀ connEvent, x.2 ≠ .conn n connEvent) → s'.client.conns[n]? = x.1.client.conns[n]?

/-- As long as the process runs and all lists taken name a server, the task that serves it is left
alone.  A panic in any other task ends the process, and this connection with it. -/
theorem keptUp_of_run (hstart : start options params file = .ok s₀)
    (h₀ : Run (Step parses host crates) s₀ tr₀ s) (h : Run (Step parses host crates) s tr s')
    (hrunning : s'.Running)
    (honce₀ : ∀ grpcUrls, readGrpcUrlsFromFile file = .ok grpcUrls → grpcUrls.Nodup)
    (honce : ∀ urls ∈ (tr₀ ++ tr).filterMap readList, urls.Nodup) {n : TaskId} {url : String}
    (htries : s.Tries host n url) (htarget : url ∈ s.target)
    (hlisted : ∀ urls ∈ tr.filterMap takenList, url ∈ urls) :
    KeptUp parses host crates n url tr s' := by
  obtain ⟨hin, hm⟩ := h₀.invariant (P := fun t => t.InStep ∧ t.Mirrors host)
    (sound_start hstart honce₀) fun t a u hmem ht hs =>
      sound_step ht hs (honce_of_mem honce (List.mem_append_left _ hmem))
  have hbegin : (s.InStep ∧ s.Mirrors host) ∧ s.main.connections.Live n url ∧ url ∈ s.target :=
    ⟨⟨hin, hm⟩, htries.2.1, htarget⟩
  have hstep (t : ClientProcess) (a : ProcessEvent) (u : ClientProcess) (hmem : (t, a) ∈ tr)
      (ht : (t.InStep ∧ t.Mirrors host) ∧ t.main.connections.Live n url ∧ url ∈ t.target)
      (hs : Step parses host crates t a u) :
      (u.InStep ∧ u.Mirrors host) ∧ u.main.connections.Live n url ∧ url ∈ u.target := by
    obtain ⟨⟨hin, hm⟩, hlive, htarget⟩ := ht
    refine ⟨sound_step ⟨hin, hm⟩ hs (honce_of_mem honce (List.mem_append_right _ hmem)),
      live_step hin hlive htarget hs, ?_⟩
    rw [(lists_step hs).2]
    cases htaken : takenList (t, a) with
    | none => exact htarget
    | some urls => exact hlisted urls (List.mem_filterMap.mpr ⟨_, hmem, htaken⟩)
  refine ⟨fun x hx => ?_, ?_, fun x hx u hs _ hother => ?_⟩
  · obtain ⟨⟨-, hm⟩, hlive, -⟩ := h.invariant_mem hbegin hstep x hx
    obtain ⟨u, hs⟩ := h.step_of_mem hx
    exact (hm.tries_iff hs.running n url).mpr hlive
  · obtain ⟨⟨-, hm⟩, hlive, -⟩ := h.invariant hbegin hstep
    exact (hm.tries_iff hrunning n url).mpr hlive
  · obtain ⟨⟨-, hm⟩, hlive, -⟩ := h.invariant_mem hbegin hstep x hx
    exact conn_kept hm hlive hs hother

end Connected

/-! ## One server goes and one comes -/

theorem nodup_twoServers (grpcUrls : List String)
    (hread : readGrpcUrlsFromFile (urlsFile ["http://a", "http://b"]) = .ok grpcUrls) :
    grpcUrls.Nodup := by
  rw [readGrpcUrlsFromFile_urlsFile (by decide)] at hread
  obtain rfl := Except.ok.inj hread
  decide

/-- The task of the first server has stopped, and each server of the new list is served. -/
theorem served_reload : ∃ tr s, Run SampleStep startedTwo tr s ∧ s.Quiet ∧ s.Stopped 0 ∧
    s.ServesLists (fun _ => true) sampleHost Client.sampleForwardCrates := by
  obtain ⟨tr₀, h₀, hread₀⟩ := run_servingTwo
  obtain ⟨tr, s, h, hquiet, hread, -, -, hrunning, hstopped⟩ := run_reload
  refine ⟨_, s, h₀.append h, hquiet, hstopped,
    (served_of_run start_twoServers (h₀.append h) nodup_twoServers ?_).2 hrunning⟩
  rw [List.filterMap_append, hread₀, hread]
  decide

/-- The task of the second server has been left alone. -/
theorem keptUp_reload : ∃ tr s, Run SampleStep servingTwo tr s ∧
    s.main.connections.grpcUrls = ["http://b", "http://c"] ∧
    KeptUp (fun _ => true) sampleHost Client.sampleForwardCrates 1 "http://b" tr s := by
  obtain ⟨tr₀, h₀, hread₀⟩ := run_servingTwo
  obtain ⟨tr, s, h, -, hread, htaken, hlist, hrunning, -⟩ := run_reload
  have htries : servingTwo.Tries sampleHost 1 "http://b" :=
    ⟨⟨rfl, rfl⟩, rfl, .new (sampleHost "http://b"), rfl, rfl, by simp [ServerConnection.new]⟩
  refine ⟨tr, s, h, hlist,
    keptUp_of_run start_twoServers h₀ h hrunning nodup_twoServers ?_ htries ?_ ?_⟩
  · rw [List.filterMap_append, hread₀, hread]
    decide
  · simp [target, servingTwo, Main.twoServers, Connections.spawn, Connections.idle]
  · rw [htaken]
    decide

end ClientProcess

end Mtransaction
