import Mtransaction.Server.LockedServer

/-!
# Tasks that wait for the lock

`TxStreams` lets a task do what it does under the lock at once, whenever nobody publishes.  Here
each task asks for the lock, waits in the queue among the publishers, and goes on when its turn
comes; sends wait for room in the channels.  This server refines that one.
-/

namespace Mtransaction

open Runs

/-- Where the task of a connection is. -/
inductive ServerPhase
  /-- in `select!` -/
  | looping
  /-- in `handle_client_request`, waiting for the lock -/
  | reporting
  /-- out of the loop -/
  | stopping
  /-- waiting for the lock -/
  | leaving
  | unsubscribed
  | finished
  deriving DecidableEq, Repr

/-- As `TxStreams` sees it. -/
def ServerPhase.toTaskPhase : ServerPhase → TaskPhase
  | .looping | .reporting => .looping
  | .stopping | .leaving => .stopping
  | .unsubscribed => .unsubscribed
  | .finished => .finished

structure ServerTask where
  identity : String
  token : String
  /-- the client's stream has ended -/
  streamEnded : Bool
  phase : ServerPhase
  /-- a send of `publish` on the channel has failed -/
  sendFailed : Bool
  deriving DecidableEq, Repr

/-- A place in the queue, and who is waiting there. -/
inductive Ticket
  | publish (request : PublishRequest)
  | setLeaders (leaderTpus : List LeaderInfo) (leaders : HashMap String LeaderInfo)
      (o : HashOrder (String × TxConsumer))
  | updateStakeWeights (stakeWeights : HashMap String UInt64)
  /-- `tx_stream` -/
  | subscribe (identity token : String)
  /-- the task of a connection, with a round trip or at its end -/
  | report (id : ConnId) (identity : String) (value : Rtt)
  | leave (id : ConnId) (identity token : String)

def Ticket.request : Ticket → LockRequest
  | .publish request => .read request
  | .setLeaders leaderTpus leaders o => .write (.setLeaders leaderTpus leaders o)
  | .updateStakeWeights stakeWeights => .write (.updateStakeWeights stakeWeights)
  | .subscribe identity token => .write (.subscribe identity token)
  | .report _ identity value => .write (.updateRtt identity value)
  | .leave _ identity token => .write (.unsubscribe identity token)

/-- The connection whose task waits. -/
def Ticket.conn : Ticket → Option ConnId
  | .report id _ _ | .leave id _ _ => some id
  | _ => none

/-- The token of a connection that is still to be subscribed. -/
def Ticket.newToken : Ticket → Option String
  | .subscribe _ token => some token
  | _ => none

structure ServerTasks where
  locked : LockedServer
  tickets : List Ticket
  tasks : List ServerTask

inductive TasksEvent
  | ask (ticket : Ticket)
  /-- the first in the queue gets the lock -/
  | grant
  | send (n : ℕ)
  | finish (n : ℕ)
  | ping (id : ConnId) (text : String)
  | recv (id : ConnId)
  | dropReceiver (id : ConnId)
  | endStream (id : ConnId)
  | stop (id : ConnId)
  | resetClientMetrics (id : ConnId)

def setPhase (tasks : List ServerTask) (id : ConnId) (phase : ServerPhase) : List ServerTask :=
  tasks.modify id fun task => { task with phase }

namespace Ticket

/-- Tokens are drawn at random; they are taken to be distinct. -/
def MayAsk (tickets : List Ticket) (tasks : List ServerTask) : Ticket → Prop
  | .subscribe _ token => token ∉ tasks.map ServerTask.token ∧ token ∉ tickets.filterMap newToken
  | .report id identity _ =>
      ∃ task, tasks[id]? = some task ∧ task.phase = .looping ∧ task.identity = identity
  | .leave id identity token => ∃ task, tasks[id]? = some task ∧ task.phase = .stopping ∧
      task.identity = identity ∧ task.token = token
  | _ => True

/-- The task waits. -/
def asked (tasks : List ServerTask) : Ticket → List ServerTask
  | .report id _ _ => setPhase tasks id .reporting
  | .leave id _ _ => setPhase tasks id .leaving
  | _ => tasks

/-- The task goes on. -/
def granted (tasks : List ServerTask) : Ticket → List ServerTask
  | .subscribe identity token => tasks ++ [⟨identity, token, false, .looping, false⟩]
  | .report id _ _ => setPhase tasks id .looping
  | .leave id _ _ => setPhase tasks id .unsubscribed
  | _ => tasks

end Ticket

namespace ServerTasks

def new : ServerTasks := ⟨.new, [], []⟩

/-- The steps of all tasks; a panic ends the run. -/
inductive Step : ServerTasks → TasksEvent → ServerTasks → Prop
  | ask {s : ServerTasks} {ticket : Ticket} (may : ticket.MayAsk s.tickets s.tasks) :
      Step s (.ask ticket)
        ⟨{ s.locked with waiting := s.locked.waiting ++ [ticket.request] }, s.tickets ++ [ticket],
          ticket.asked s.tasks⟩
  | grant {s : ServerTasks} {ticket : Ticket} {rest : List Ticket} {locked : LockedServer}
      (next : s.tickets = ticket :: rest) (hstep : s.locked.Step .grant locked)
      (alive : locked.exited = none) : Step s .grant ⟨locked, rest, ticket.granted s.tasks⟩
  | send {s : ServerTasks} {n : ℕ} {call : PublishCall} {pick : Pick} {rest : List Pick}
      (hcall : s.locked.publishing[n]? = some call) (next : call.remaining = pick :: rest)
      (room : ¬ s.locked.Full pick.1.tx) :
      Step s (.send n)
        { s with
          locked := s.locked.send n call pick rest
          tasks := if s.locked.accepts pick.1.tx then s.tasks
            else s.tasks.modify pick.1.tx fun task => { task with sendFailed := true } }
  | finish {s : ServerTasks} {n : ℕ} {call : PublishCall}
      (hcall : s.locked.publishing[n]? = some call) (done : call.remaining = []) :
      Step s (.finish n)
        { s with locked := { s.locked with publishing := s.locked.publishing.eraseIdx n } }
  | ping {s : ServerTasks} {id : ConnId} {text : String} {task : ServerTask}
      (htask : s.tasks[id]? = some task) (looping : task.phase = .looping)
      (receiving : s.locked.accepts id) (room : ¬ s.locked.Full id) :
      Step s (.ping id text) { s with locked := s.locked.push id { ping := some ⟨text⟩ } }
  | recv {s : ServerTasks} {id : ConnId} :
      Step s (.recv id)
        { s with locked := { s.locked with channels := s.locked.channels.modify id fun ch =>
            { ch with pending := ch.pending.tail } } }
  | dropReceiver {s : ServerTasks} {id : ConnId} :
      Step s (.dropReceiver id)
        { s with locked := { s.locked with channels := s.locked.channels.modify id fun ch =>
            { ch with receiverDropped := true } } }
  | endStream {s : ServerTasks} {id : ConnId} :
      Step s (.endStream id)
        { s with tasks := s.tasks.modify id fun task => { task with streamEnded := true } }
  | stop {s : ServerTasks} {id : ConnId} {task : ServerTask} {ch : Channel}
      (htask : s.tasks[id]? = some task) (looping : task.phase = .looping)
      (hchannel : s.locked.channels[id]? = some ch)
      (wake : id ∈ s.locked.balancer.signals ∨ task.streamEnded ∨ ch.receiverDropped) :
      Step s (.stop id) { s with tasks := setPhase s.tasks id .stopping }
  | resetClientMetrics {s : ServerTasks} {id : ConnId} {task : ServerTask}
      (htask : s.tasks[id]? = some task) (unsubscribed : task.phase = .unsubscribed) :
      Step s (.resetClientMetrics id)
        { s with
          locked := { s.locked with balancer := s.locked.balancer.resetClientMetrics task.identity }
          tasks := setPhase s.tasks id .finished }

/-! ## What the queue adds -/

/-- The connection as `TxStreams` has it. -/
def conn (task : ServerTask) (ch : Channel) : Conn :=
  ⟨task.identity, task.token, task.streamEnded, ch.receiverDropped, task.phase.toTaskPhase,
    task.sendFailed⟩

/-- The server without the queue and without what is in the channels. -/
def toTxStreams (s : ServerTasks) : TxStreams :=
  ⟨s.locked.balancer, List.zipWith conn s.tasks s.locked.channels, s.locked.publishing⟩

/-- Tokens differ, and a connection waits at most once, where its task says so. -/
structure Ticketed (tickets : List Ticket) (tasks : List ServerTask) : Prop where
  tokens : (tasks.map ServerTask.token ++ tickets.filterMap Ticket.newToken).Nodup
  once : (tickets.filterMap Ticket.conn).Nodup
  reporting : ∀ id identity value, .report id identity value ∈ tickets →
    ∃ task, tasks[id]? = some task ∧ task.phase = .reporting ∧ task.identity = identity
  leaving : ∀ id identity token, .leave id identity token ∈ tickets →
    ∃ task, tasks[id]? = some task ∧ task.phase = .leaving ∧ task.identity = identity ∧
      task.token = token

/-- The queue is that of the tickets, and there is a channel for each task. -/
structure Consistent (s : ServerTasks) : Prop where
  channels : s.tasks.length = s.locked.channels.length
  queue : s.locked.waiting = s.tickets.map Ticket.request
  running : s.locked.exited = none
  ticketed : Ticketed s.tickets s.tasks

variable {s s' : ServerTasks} {event : TasksEvent} {tr : List (ServerTasks × TasksEvent)}

theorem consistent_new : Consistent new := by
  refine ⟨rfl, rfl, rfl, ?_, ?_, ?_, ?_⟩ <;> simp [new]

/-! ### Tasks and channels side by side -/

section Zip

variable {tasks : List ServerTask} {channels : List Channel} {id : ConnId}

-- a change to a task, or to a channel, is one to the connection
theorem zipWith_modify_tasks {f : ServerTask → ServerTask} {g : Conn → Conn}
    (hfg : ∀ task ch, conn (f task) ch = g (conn task ch)) :
    List.zipWith conn (tasks.modify id f) channels =
      (List.zipWith conn tasks channels).modify id g := by
  refine List.ext_getElem? fun k => ?_
  rw [List.getElem?_modify, List.getElem?_zipWith, List.getElem?_zipWith, List.getElem?_modify]
  by_cases hk : id = k
  · cases tasks[k]? <;> cases channels[k]? <;> simp [hk, hfg]
  · cases tasks[k]? <;> cases channels[k]? <;> simp [hk]

theorem zipWith_modify_channels {f : Channel → Channel} {g : Conn → Conn}
    (hfg : ∀ task ch, conn task (f ch) = g (conn task ch)) :
    List.zipWith conn tasks (channels.modify id f) =
      (List.zipWith conn tasks channels).modify id g := by
  refine List.ext_getElem? fun k => ?_
  rw [List.getElem?_modify, List.getElem?_zipWith, List.getElem?_zipWith, List.getElem?_modify]
  by_cases hk : id = k
  · cases tasks[k]? <;> cases channels[k]? <;> simp [hk, hfg]
  · cases tasks[k]? <;> cases channels[k]? <;> simp [hk]

/-- What is in a channel does not show. -/
theorem zipWith_pending {f : Channel → Channel}
    (hf : ∀ ch, (f ch).receiverDropped = ch.receiverDropped) :
    List.zipWith conn tasks (channels.modify id f) = List.zipWith conn tasks channels :=
  (@zipWith_modify_channels tasks channels id f (fun c => c)
    fun task ch => by simp only [conn, hf]).trans (List.modify_id _ _)

theorem getElem?_zipWith_conn {task : ServerTask} (hlength : tasks.length = channels.length)
    (htask : tasks[id]? = some task) :
    ∃ ch, channels[id]? = some ch ∧
      (List.zipWith conn tasks channels)[id]? = some (conn task ch) := by
  obtain ⟨hlt, -⟩ := List.getElem?_eq_some_iff.mp htask
  have hch := List.getElem?_eq_getElem (hlength ▸ hlt)
  exact ⟨_, hch, by rw [List.getElem?_zipWith, htask, hch]⟩

theorem exists_task_of_mem {conn' : Conn} (h : conn' ∈ List.zipWith conn tasks channels) :
    ∃ task ∈ tasks, task.token = conn'.token := by
  obtain ⟨k, hk⟩ := List.mem_iff_getElem?.mp h
  rw [List.getElem?_zipWith] at hk
  cases htask : tasks[k]? with
  | none => simp [htask] at hk
  | some task =>
    cases hch : channels[k]? with
    | none => simp [htask, hch] at hk
    | some ch =>
      obtain rfl : conn task ch = conn' := by simpa [htask, hch] using hk
      exact ⟨task, List.mem_of_getElem? htask, rfl⟩

end Zip

theorem accepts_toTxStreams (h : s.Consistent) (id : ConnId) :
    s.toTxStreams.accepts id = s.locked.accepts id := by
  unfold TxStreams.accepts LockedServer.accepts toTxStreams
  rw [List.getElem?_zipWith]
  cases hch : s.locked.channels[id]? with
  | none =>
    cases s.tasks[id]? <;> rfl
  | some ch =>
    have hlt := (List.getElem?_eq_some_iff.mp hch).1
    rw [← h.channels] at hlt
    rw [List.getElem?_eq_getElem hlt]
    rfl

/-! ### The first in the queue -/

/-- What becomes of the server when a ticket gets the lock, unless that is a panic. -/
inductive Granted (l : LockedServer) (waiting : List LockRequest) : Ticket → LockedServer → Prop
  | publish {request : PublishRequest} {picks : List Pick}
      (picked : l.balancer.pickConsumers request.order request.rng = .ok picks) :
      Granted l waiting (.publish request)
        { l with
          waiting
          publishing := l.publishing ++
            [⟨request.tpuOrder, request.signature, request.data, request.session, [], picks⟩] }
  | setLeaders {leaderTpus : List LeaderInfo} {leaders : HashMap String LeaderInfo}
      {o : HashOrder (String × TxConsumer)} (idle : l.publishing = []) :
      Granted l waiting (.setLeaders leaderTpus leaders o)
        { l with
          waiting
          balancer := (l.balancer.setLeaders leaderTpus leaders).flushUnsubscribes o }
  | updateStakeWeights {stakeWeights : HashMap String UInt64} (idle : l.publishing = []) :
      Granted l waiting (.updateStakeWeights stakeWeights)
        { l with waiting, balancer := l.balancer.updateStakeWeights stakeWeights }
  | subscribe {identity token : String} (idle : l.publishing = []) :
      Granted l waiting (.subscribe identity token)
        { l with
          waiting
          balancer := l.balancer.subscribe identity token l.channels.length
          channels := l.channels ++ [⟨[], false⟩] }
  | report {id : ConnId} {identity : String} {value : Rtt} {balancer : Balancer}
      (idle : l.publishing = []) (ok : l.balancer.updateRtt identity value = .ok balancer) :
      Granted l waiting (.report id identity value) { l with waiting, balancer }
  | leave {id : ConnId} {identity token : String} (idle : l.publishing = []) :
      Granted l waiting (.leave id identity token)
        { l with waiting, balancer := l.balancer.unsubscribe identity token }

theorem Consistent.granted (h : s.Consistent) {ticket : Ticket} {rest : List Ticket}
    {locked : LockedServer} (next : s.tickets = ticket :: rest)
    (hstep : s.locked.Step .grant locked) (alive : locked.exited = none) :
    Granted s.locked (rest.map Ticket.request) ticket locked := by
  have hqueue := h.queue
  rw [next, List.map_cons] at hqueue
  cases hstep with
  | @grantRead request rest' running hnext =>
    obtain ⟨hrequest, rfl⟩ := List.cons.inj (hnext.symm.trans hqueue)
    cases ticket with
    | publish request' =>
      obtain rfl := LockRequest.read.inj hrequest
      unfold LockedServer.startPublish at alive ⊢
      split
      next picks hpicks => exact .publish hpicks
      next panic hpicks => simp [hpicks] at alive
    | _ => simp [Ticket.request] at hrequest
  | @grantWrite op rest' running hnext idle =>
    obtain ⟨hrequest, rfl⟩ := List.cons.inj (hnext.symm.trans hqueue)
    cases ticket with
    | publish => simp [Ticket.request] at hrequest
    | setLeaders =>
      obtain rfl := LockRequest.write.inj hrequest
      exact .setLeaders idle
    | updateStakeWeights =>
      obtain rfl := LockRequest.write.inj hrequest
      exact .updateStakeWeights idle
    | subscribe =>
      obtain rfl := LockRequest.write.inj hrequest
      exact .subscribe idle
    | report id identity value =>
      obtain rfl := LockRequest.write.inj hrequest
      unfold LockedServer.write at alive ⊢
      dsimp only at alive ⊢
      split
      next balancer hok => exact .report idle hok
      next panic hpanic => simp [hpanic] at alive
    | leave =>
      obtain rfl := LockRequest.write.inj hrequest
      exact .leave idle

/-! ### Tickets -/

namespace Ticketed

variable {tickets rest : List Ticket} {tasks : List ServerTask} {ticket : Ticket} {id : ConnId}
  {f : ServerTask → ServerTask}

/-- A task in another phase has no ticket. -/
theorem notMem_conn (h : Ticketed tickets tasks) {task : ServerTask}
    (htask : tasks[id]? = some task) (hreporting : task.phase ≠ .reporting)
    (hleaving : task.phase ≠ .leaving) : id ∉ tickets.filterMap Ticket.conn := by
  intro hmem
  obtain ⟨ticket, hticket, hconn⟩ := List.mem_filterMap.mp hmem
  cases ticket with
  | report id' identity value =>
    obtain rfl := Option.some.inj hconn
    obtain ⟨task', htask', hphase, -⟩ := h.reporting id' identity value hticket
    obtain rfl := Option.some.inj (htask.symm.trans htask')
    exact hreporting hphase
  | leave id' identity token =>
    obtain rfl := Option.some.inj hconn
    obtain ⟨task', htask', hphase, -⟩ := h.leaving id' identity token hticket
    obtain rfl := Option.some.inj (htask.symm.trans htask')
    exact hleaving hphase
  | _ => simp [Ticket.conn] at hconn

theorem modify (h : Ticketed tickets tasks) (hidentity : ∀ task, (f task).identity = task.identity)
    (htoken : ∀ task, (f task).token = task.token)
    (hphase : id ∉ tickets.filterMap Ticket.conn ∨ ∀ task, (f task).phase = task.phase) :
    Ticketed tickets (tasks.modify id f) := by
  have htokens : (tasks.modify id f).map ServerTask.token = tasks.map ServerTask.token := by
    refine List.ext_getElem? fun k => ?_
    rw [List.getElem?_map, List.getElem?_map, List.getElem?_modify]
    cases tasks[k]? with
    | none => rfl
    | some task => by_cases hk : id = k <;> simp [hk, htoken]
  -- the task of a ticket, changed or not
  have htask {id' : ConnId} {task : ServerTask} (hconn : id' ∈ tickets.filterMap Ticket.conn)
      (hget : tasks[id']? = some task) : ∃ task', (tasks.modify id f)[id']? = some task' ∧
        task'.phase = task.phase ∧ task'.identity = task.identity ∧ task'.token = task.token := by
    rw [List.getElem?_modify, hget]
    by_cases hid : id = id'
    · subst hid
      refine ⟨f task, by simp, ?_, hidentity task, htoken task⟩
      exact (hphase.resolve_left fun hnot => hnot hconn) task
    · exact ⟨task, by simp [hid], rfl, rfl, rfl⟩
  refine ⟨by rw [htokens]; exact h.tokens, h.once, fun id' identity value hmem => ?_,
    fun id' identity token hmem => ?_⟩
  · obtain ⟨task, hget, hreporting, rfl⟩ := h.reporting id' identity value hmem
    obtain ⟨task', hget', hphase', hidentity', -⟩ :=
      htask (List.mem_filterMap.mpr ⟨_, hmem, rfl⟩) hget
    exact ⟨task', hget', hphase'.trans hreporting, hidentity'⟩
  · obtain ⟨task, hget, hleaving, rfl, rfl⟩ := h.leaving id' identity token hmem
    obtain ⟨task', hget', hphase', hidentity', htoken'⟩ :=
      htask (List.mem_filterMap.mpr ⟨_, hmem, rfl⟩) hget
    exact ⟨task', hget', hphase'.trans hleaving, hidentity', htoken'⟩

theorem tail (h : Ticketed (ticket :: rest) tasks) : Ticketed rest tasks :=
  ⟨h.tokens.sublist ((List.Sublist.refl _).append ((List.sublist_cons_self _ _).filterMap _)),
    h.once.sublist ((List.sublist_cons_self _ _).filterMap _),
    fun id identity value hmem => h.reporting id identity value (List.mem_cons_of_mem _ hmem),
    fun id identity token hmem => h.leaving id identity token (List.mem_cons_of_mem _ hmem)⟩

theorem append (h : Ticketed tickets tasks)
    (htoken : ∀ token ∈ ticket.newToken,
      token ∉ tasks.map ServerTask.token ∧ token ∉ tickets.filterMap Ticket.newToken)
    (hconn : ∀ id ∈ ticket.conn, id ∉ tickets.filterMap Ticket.conn)
    (hreporting : ∀ id identity value, ticket = .report id identity value →
      ∃ task, tasks[id]? = some task ∧ task.phase = .reporting ∧ task.identity = identity)
    (hleaving : ∀ id identity token, ticket = .leave id identity token →
      ∃ task, tasks[id]? = some task ∧ task.phase = .leaving ∧ task.identity = identity ∧
        task.token = token) : Ticketed (tickets ++ [ticket]) tasks := by
  refine ⟨?_, ?_, fun id identity value hmem => ?_, fun id identity token hmem => ?_⟩
  · rw [filterMap_concat, ← List.append_assoc]
    refine List.nodup_append'.mpr ⟨h.tokens, ?_, fun token hold hnew => ?_⟩
    · cases ticket.newToken <;> simp
    · obtain ⟨htask, hticket⟩ := htoken token (Option.mem_toList.mp hnew)
      exact (List.mem_append.mp hold).elim htask hticket
  · rw [filterMap_concat]
    refine List.nodup_append'.mpr ⟨h.once, ?_, fun id hold hnew => ?_⟩
    · cases ticket.conn <;> simp
    · exact hconn id (Option.mem_toList.mp hnew) hold
  · rcases List.mem_append.mp hmem with hold | hnew
    · exact h.reporting id identity value hold
    · exact hreporting id identity value (List.mem_singleton.mp hnew).symm
  · rcases List.mem_append.mp hmem with hold | hnew
    · exact h.leaving id identity token hold
    · exact hleaving id identity token (List.mem_singleton.mp hnew).symm

theorem ask (h : Ticketed tickets tasks) (may : ticket.MayAsk tickets tasks) :
    Ticketed (tickets ++ [ticket]) (ticket.asked tasks) := by
  cases ticket with
  | subscribe identity token =>
    refine h.append (fun token' htoken => ?_) (by simp [Ticket.conn]) (by simp) (by simp)
    obtain rfl := Option.some.inj htoken
    exact may
  | report id identity value =>
    obtain ⟨task, htask, hlooping, rfl⟩ := may
    have hnot := h.notMem_conn htask (by simp [hlooping]) (by simp [hlooping])
    have hwaiting : Ticketed tickets (setPhase tasks id .reporting) :=
      h.modify (fun _ => rfl) (fun _ => rfl) (.inl hnot)
    refine hwaiting.append (by simp [Ticket.newToken]) (fun id' hid => ?_) ?_ (by simp)
    · obtain rfl := Option.some.inj hid
      exact hnot
    · rintro _ _ _ ⟨⟩
      exact ⟨{ task with phase := .reporting }, by simp [setPhase, htask], rfl, rfl⟩
  | leave id identity token =>
    obtain ⟨task, htask, hstopping, rfl, rfl⟩ := may
    have hnot := h.notMem_conn htask (by simp [hstopping]) (by simp [hstopping])
    have hwaiting : Ticketed tickets (setPhase tasks id .leaving) :=
      h.modify (fun _ => rfl) (fun _ => rfl) (.inl hnot)
    refine hwaiting.append (by simp [Ticket.newToken]) (fun id' hid => ?_) (by simp) ?_
    · obtain rfl := Option.some.inj hid
      exact hnot
    · rintro _ _ _ ⟨⟩
      exact ⟨{ task with phase := .leaving }, by simp [setPhase, htask], rfl, rfl, rfl⟩
  | publish | setLeaders | updateStakeWeights =>
    exact h.append (by simp [Ticket.newToken]) (by simp [Ticket.conn]) (by simp) (by simp)

theorem grant (h : Ticketed (ticket :: rest) tasks) : Ticketed rest (ticket.granted tasks) := by
  cases ticket with
  | subscribe identity token =>
    have hget {id : ConnId} {task : ServerTask} (htask : tasks[id]? = some task) :
        (tasks ++ [⟨identity, token, false, .looping, false⟩])[id]? = some task := by
      rw [List.getElem?_append_left (List.getElem?_eq_some_iff.mp htask).1, htask]
    refine ⟨?_, h.tail.once, fun id identity' value hmem => ?_, fun id identity' token' hmem => ?_⟩
    · have htokens := h.tokens
      rw [Runs.filterMap_cons, ← List.append_assoc] at htokens
      rwa [Ticket.granted, List.map_append]
    · obtain ⟨task, htask, hphase⟩ := h.tail.reporting id identity' value hmem
      exact ⟨task, hget htask, hphase⟩
    · obtain ⟨task, htask, hphase⟩ := h.tail.leaving id identity' token' hmem
      exact ⟨task, hget htask, hphase⟩
  | report id identity value =>
    have honce := h.once
    rw [Runs.filterMap_cons] at honce
    exact h.tail.modify (fun _ => rfl) (fun _ => rfl) (.inl (List.nodup_cons.mp honce).1)
  | leave id identity token =>
    have honce := h.once
    rw [Runs.filterMap_cons] at honce
    exact h.tail.modify (fun _ => rfl) (fun _ => rfl) (.inl (List.nodup_cons.mp honce).1)
  | publish | setLeaders | updateStakeWeights => exact h.tail

end Ticketed

/-! ### One step -/

theorem length_asked (ticket : Ticket) (tasks : List ServerTask) :
    (ticket.asked tasks).length = tasks.length := by
  cases ticket <;> simp [Ticket.asked, setPhase]

theorem Granted.kept {l locked : LockedServer} {waiting : List LockRequest} {ticket : Ticket}
    (h : Granted l waiting ticket locked) (tasks : List ServerTask)
    (hchannels : tasks.length = l.channels.length) :
    locked.waiting = waiting ∧ locked.exited = l.exited ∧
      (ticket.granted tasks).length = locked.channels.length := by
  cases h <;> simp [Ticket.granted, setPhase, hchannels]

theorem Consistent.step (h : s.Consistent) (hs : Step s event s') : s'.Consistent := by
  cases hs with
  | @ask ticket may =>
    refine ⟨(length_asked ticket s.tasks).trans h.channels, ?_, h.running, h.ticketed.ask may⟩
    rw [h.queue, List.map_append, List.map_singleton]
  | @grant ticket rest locked next hstep alive =>
    have hticketed := h.ticketed
    rw [next] at hticketed
    obtain ⟨hwaiting, hexited, hlength⟩ := (h.granted next hstep alive).kept s.tasks h.channels
    exact ⟨hlength, hwaiting, alive, hticketed.grant⟩
  | @send n call pick rest hcall next room =>
    have hlength : (s.locked.send n call pick rest).channels.length = s.locked.channels.length := by
      unfold LockedServer.send LockedServer.push
      dsimp only
      split <;> simp
    refine ⟨?_, h.queue, h.running, ?_⟩
    · rw [hlength, ← h.channels]
      split <;> simp
    · dsimp only
      split
      · exact h.ticketed
      · exact h.ticketed.modify (fun _ => rfl) (fun _ => rfl) (.inr fun _ => rfl)
  | finish hcall done => exact ⟨h.channels, h.queue, h.running, h.ticketed⟩
  | ping htask looping receiving room =>
    refine ⟨?_, h.queue, h.running, h.ticketed⟩
    simpa [LockedServer.push] using h.channels
  | recv =>
    refine ⟨?_, h.queue, h.running, h.ticketed⟩
    simpa using h.channels
  | dropReceiver =>
    refine ⟨?_, h.queue, h.running, h.ticketed⟩
    simpa using h.channels
  | endStream =>
    refine ⟨?_, h.queue, h.running,
      h.ticketed.modify (fun _ => rfl) (fun _ => rfl) (.inr fun _ => rfl)⟩
    simpa using h.channels
  | stop htask looping hchannel wake =>
    refine ⟨?_, h.queue, h.running, h.ticketed.modify (fun _ => rfl) (fun _ => rfl)
      (.inl (h.ticketed.notMem_conn htask (by simp [looping]) (by simp [looping])))⟩
    simpa [setPhase] using h.channels
  | resetClientMetrics htask unsubscribed =>
    refine ⟨?_, h.queue, h.running, h.ticketed.modify (fun _ => rfl) (fun _ => rfl)
      (.inl (h.ticketed.notMem_conn htask (by simp [unsubscribed]) (by simp [unsubscribed])))⟩
    simpa [setPhase] using h.channels

/-- A task that waits looks as it did before. -/
theorem zipWith_setPhase {tasks : List ServerTask} {channels : List Channel} {id : ConnId}
    {task : ServerTask} {phase : ServerPhase} (htask : tasks[id]? = some task)
    (hphase : phase.toTaskPhase = task.phase.toTaskPhase) :
    List.zipWith conn (setPhase tasks id phase) channels = List.zipWith conn tasks channels := by
  refine List.ext_getElem? fun k => ?_
  rw [List.getElem?_zipWith, List.getElem?_zipWith, setPhase, List.getElem?_modify]
  by_cases hk : id = k
  · subst hk
    cases channels[id]? <;> simp [htask, conn, hphase]
  · cases tasks[k]? <;> cases channels[k]? <;> simp [hk]

theorem zipWith_setPhase_modify {tasks : List ServerTask} {channels : List Channel} {id : ConnId}
    {phase : ServerPhase} : List.zipWith conn (setPhase tasks id phase) channels =
      (List.zipWith conn tasks channels).modify id fun conn =>
        { conn with phase := phase.toTaskPhase } :=
  zipWith_modify_tasks fun _ _ => rfl

/-- What a task does in `TxStreams` once it has the lock. -/
def ticketShown (b : Balancer) : Ticket → Option StreamsEvent
  | .publish request => (b.pickConsumers request.order request.rng).toOption.map fun picks =>
      .startPublish ⟨request.tpuOrder, request.signature, request.data, request.session, [], picks⟩
  | .setLeaders leaderTpus leaders o => some (.receiveLeaders leaderTpus leaders o)
  | .updateStakeWeights stakeWeights => some (.updateStakeWeights stakeWeights)
  | .subscribe identity token => some (.txStream identity token)
  | .report id _ value => some (.updateRtt id value)
  | .leave id _ _ => some (.cleanup id)

/-- The step of `TxStreams` that a step is.  Waiting and what is in the channels do not show. -/
def streamsEvent (s : ServerTasks) : TasksEvent → Option StreamsEvent
  | .grant => s.tickets.head?.bind (ticketShown s.locked.balancer)
  | .send n => some (.send n)
  | .finish n => some (.endPublish n)
  | .dropReceiver id => some (.dropReceiver id)
  | .endStream id => some (.endStream id)
  | .stop id => some (.stop id)
  | .resetClientMetrics id => some (.resetClientMetrics id)
  | .ask _ | .ping _ _ | .recv _ => none

/-- The step shows in `TxStreams` as the step it says, or not at all. -/
def Shows (s : ServerTasks) (event : TasksEvent) (s' : ServerTasks) : Prop :=
  StepsOrStays TxStreams.Step s.toTxStreams (s.streamsEvent event) s'.toTxStreams

theorem toTxStreams_congr (hbalancer : s'.locked.balancer = s.locked.balancer)
    (hpublishing : s'.locked.publishing = s.locked.publishing)
    (hconns : List.zipWith conn s'.tasks s'.locked.channels =
      List.zipWith conn s.tasks s.locked.channels) : s'.toTxStreams = s.toTxStreams := by
  simp only [toTxStreams, hbalancer, hpublishing, hconns]

theorem shows_ask {ticket : Ticket} (may : ticket.MayAsk s.tickets s.tasks)
    {waiting : List LockRequest} {tickets : List Ticket} :
    Shows s (.ask ticket) ⟨{ s.locked with waiting }, tickets, ticket.asked s.tasks⟩ := by
  refine toTxStreams_congr rfl rfl ?_
  cases ticket with
  | report id identity value =>
    obtain ⟨task, htask, hlooping, -⟩ := may
    exact zipWith_setPhase htask (by rw [hlooping]; rfl)
  | leave id identity token =>
    obtain ⟨task, htask, hstopping, -⟩ := may
    exact zipWith_setPhase htask (by rw [hstopping]; rfl)
  | _ => rfl

theorem shows_grant (h : s.Consistent) {ticket : Ticket} {rest : List Ticket}
    {locked : LockedServer} (next : s.tickets = ticket :: rest)
    (hgranted : Granted s.locked (rest.map Ticket.request) ticket locked) :
    Shows s .grant ⟨locked, rest, ticket.granted s.tasks⟩ := by
  have hfirst : ticket ∈ s.tickets := next ▸ List.mem_cons_self
  have hevent : s.streamsEvent .grant = ticketShown s.locked.balancer ticket := by
    rw [streamsEvent, next]
    rfl
  rw [Shows, hevent]
  cases hgranted with
  | @publish request picks picked =>
    have hshown : ticketShown s.locked.balancer (.publish request) = some (.startPublish
        ⟨request.tpuOrder, request.signature, request.data, request.session, [], picks⟩) := by
      rw [ticketShown, picked]
      rfl
    rw [hshown]
    exact .startPublish picked rfl
  | setLeaders idle => exact .receiveLeaders idle
  | updateStakeWeights idle => exact .updateStakeWeights idle
  | @subscribe identity token idle =>
    have hfresh : ∀ conn ∈ s.toTxStreams.conns, conn.token ≠ token := by
      rintro conn' hmem rfl
      obtain ⟨task, htask, htoken⟩ := exists_task_of_mem hmem
      have hnew : conn'.token ∈ s.tickets.filterMap Ticket.newToken :=
        List.mem_filterMap.mpr ⟨_, hfirst, rfl⟩
      exact (List.nodup_append'.mp h.ticketed.tokens).2.2 (htoken ▸ List.mem_map_of_mem htask) hnew
    have hlength : s.toTxStreams.conns.length = s.locked.channels.length := by
      simp [toTxStreams, h.channels]
    have hstep := @TxStreams.Step.txStream s.toTxStreams identity token idle hfresh
    rw [TxStreams.txStream, hlength] at hstep
    simp only [toTxStreams, Ticket.granted, List.zipWith_append h.channels, ticketShown,
      StepsOrStays] at hstep ⊢
    exact hstep
  | @report id identity value balancer idle ok =>
    obtain ⟨task, htask, hreporting, rfl⟩ := h.ticketed.reporting id identity value hfirst
    obtain ⟨ch, hch, hconn⟩ := getElem?_zipWith_conn h.channels htask
    have hlooping : (conn task ch).phase = .looping := by
      simp [conn, hreporting, ServerPhase.toTaskPhase]
    have hsame : List.zipWith conn (setPhase s.tasks id .looping) s.locked.channels =
        List.zipWith conn s.tasks s.locked.channels :=
      zipWith_setPhase htask (by rw [hreporting]; rfl)
    have hstep := @TxStreams.Step.updateRtt s.toTxStreams id _ value balancer idle hconn hlooping ok
    simp only [toTxStreams, Ticket.granted, hsame, ticketShown, StepsOrStays] at hstep ⊢
    exact hstep
  | @leave id identity token idle =>
    obtain ⟨task, htask, hleaving, rfl, rfl⟩ := h.ticketed.leaving id identity token hfirst
    obtain ⟨ch, hch, hconn⟩ := getElem?_zipWith_conn h.channels htask
    have hstopping : (conn task ch).phase = .stopping := by
      simp [conn, hleaving, ServerPhase.toTaskPhase]
    have hstep := @TxStreams.Step.cleanup s.toTxStreams id _ idle hconn hstopping
    simp only [toTxStreams, TxStreams.modifyConn, Ticket.granted, zipWith_setPhase_modify,
      ticketShown, StepsOrStays] at hstep ⊢
    exact hstep

theorem shows_send (h : s.Consistent) {n : ℕ} {call : PublishCall} {pick : Pick} {rest : List Pick}
    (hcall : s.locked.publishing[n]? = some call) (next : call.remaining = pick :: rest) :
    Shows s (.send n)
      { s with
        locked := s.locked.send n call pick rest
        tasks := if s.locked.accepts pick.1.tx then s.tasks
          else s.tasks.modify pick.1.tx fun task => { task with sendFailed := true } } := by
  have hstep := @TxStreams.Step.send s.toTxStreams n call pick rest hcall next
  have hpush (message : ResponseMessageEnvelope) :
      List.zipWith conn s.tasks (s.locked.push pick.1.tx message).channels =
        List.zipWith conn s.tasks s.locked.channels := zipWith_pending fun _ => rfl
  have hfail : List.zipWith conn
      (s.tasks.modify pick.1.tx fun task => { task with sendFailed := true }) s.locked.channels =
        (List.zipWith conn s.tasks s.locked.channels).modify pick.1.tx fun conn =>
          { conn with sendFailed := true } := zipWith_modify_tasks fun _ _ => rfl
  rw [TxStreams.send, accepts_toTxStreams h] at hstep
  cases haccepts : s.locked.accepts pick.1.tx with
  | true =>
    simp only [Shows, streamsEvent, StepsOrStays, toTxStreams, LockedServer.send, haccepts,
      if_true, hpush] at hstep ⊢
    exact hstep
  | false =>
    simp only [Shows, streamsEvent, StepsOrStays, toTxStreams, LockedServer.send, haccepts,
      Bool.false_eq_true, if_false, hfail] at hstep ⊢
    exact hstep

theorem Consistent.shows (h : s.Consistent) (hs : Step s event s') : Shows s event s' := by
  cases hs with
  | ask may => exact shows_ask may
  | grant next hstep alive => exact shows_grant h next (h.granted next hstep alive)
  | send hcall next room => exact shows_send h hcall next
  | finish hcall done => exact TxStreams.Step.endPublish hcall done
  | ping | recv => exact toTxStreams_congr rfl rfl (zipWith_pending fun _ => rfl)
  | @dropReceiver id =>
    have hdrop : List.zipWith conn s.tasks (s.locked.channels.modify id fun ch =>
        { ch with receiverDropped := true }) =
          (List.zipWith conn s.tasks s.locked.channels).modify id
            fun conn => { conn with receiverDropped := true } :=
      zipWith_modify_channels fun _ _ => rfl
    have hstep := @TxStreams.Step.dropReceiver s.toTxStreams id
    simp only [Shows, streamsEvent, StepsOrStays, toTxStreams, TxStreams.modifyConn, hdrop]
      at hstep ⊢
    exact hstep
  | @endStream id =>
    have hend : List.zipWith conn (s.tasks.modify id fun task => { task with streamEnded := true })
        s.locked.channels = (List.zipWith conn s.tasks s.locked.channels).modify id fun conn =>
          { conn with streamEnded := true } := zipWith_modify_tasks fun _ _ => rfl
    have hstep := @TxStreams.Step.endStream s.toTxStreams id
    simp only [Shows, streamsEvent, StepsOrStays, toTxStreams, TxStreams.modifyConn, hend]
      at hstep ⊢
    exact hstep
  | @stop id task ch htask looping hchannel wake =>
    obtain ⟨ch', hch', hconn⟩ := getElem?_zipWith_conn h.channels htask
    obtain rfl : ch = ch' := Option.some.inj (hchannel.symm.trans hch')
    have hlooping : (conn task ch).phase = .looping := by
      simp [conn, looping, ServerPhase.toTaskPhase]
    have hstep := @TxStreams.Step.stop s.toTxStreams id _ hconn hlooping wake
    simp only [Shows, streamsEvent, StepsOrStays, toTxStreams, TxStreams.modifyConn,
      zipWith_setPhase_modify] at hstep ⊢
    exact hstep
  | @resetClientMetrics id task htask unsubscribed =>
    obtain ⟨ch, -, hconn⟩ := getElem?_zipWith_conn h.channels htask
    have hphase : (conn task ch).phase = .unsubscribed := by
      simp [conn, unsubscribed, ServerPhase.toTaskPhase]
    have hstep := @TxStreams.Step.resetClientMetrics s.toTxStreams id _ hconn hphase
    simp only [Shows, streamsEvent, StepsOrStays, toTxStreams, TxStreams.modifyConn,
      zipWith_setPhase_modify] at hstep ⊢
    exact hstep

/-! ## Every run -/

/-- An entry is that of the newest connection of its identity, whose task has not got the lock for
its end yet; a connection without one has been signalled; and the queue has at most one place for
each connection, whose task waits there. -/
structure Served (s : ServerTasks) : Prop where
  entries : ∀ identity c, s.locked.balancer.txConsumers.lookup identity = some c →
    ∃ task, s.tasks[c.tx]? = some task ∧ task.identity = identity ∧ task.token = c.token ∧
      task.phase ≠ .unsubscribed ∧ task.phase ≠ .finished ∧
      ∀ id task', c.tx < id → s.tasks[id]? = some task' → task'.identity ≠ identity
  signalled : ∀ id task, s.tasks[id]? = some task →
    (∀ c, s.locked.balancer.txConsumers.lookup task.identity = some c → c.tx ≠ id) →
      id ∈ s.locked.balancer.signals
  queue : Ticketed s.tickets s.tasks

theorem Consistent.served (h : s.Consistent) (hinv : s.toTxStreams.Invariant) : s.Served := by
  have hconn {id : ConnId} {task : ServerTask} (htask : s.tasks[id]? = some task) :
      ∃ ch, s.toTxStreams.conns[id]? = some (conn task ch) := by
    obtain ⟨ch, -, hconn⟩ := getElem?_zipWith_conn h.channels htask
    exact ⟨ch, hconn⟩
  refine ⟨fun identity c hc => ?_, fun id task htask hnone => ?_, h.ticketed⟩
  · obtain ⟨owner, howner⟩ := hinv.owned identity c hc
    have hget := howner.isConn
    rw [toTxStreams, List.getElem?_zipWith] at hget
    cases htask : s.tasks[c.tx]? with
    | none => simp [htask] at hget
    | some task =>
      obtain ⟨ch, hch⟩ := hconn htask
      obtain rfl : owner = conn task ch := Option.some.inj (howner.isConn.symm.trans hch)
      have hlive := howner.live
      refine ⟨task, rfl, howner.identity_eq, howner.token_eq, ?_, ?_, fun id task' hlt htask' => ?_⟩
      · intro hphase
        simp [Conn.live, conn, hphase, ServerPhase.toTaskPhase] at hlive
      · intro hphase
        simp [Conn.live, conn, hphase, ServerPhase.toTaskPhase] at hlive
      · obtain ⟨ch', hch'⟩ := hconn htask'
        exact howner.newest id _ hlt hch'
  · obtain ⟨ch, hch⟩ := hconn htask
    refine (hinv.signalled id _ hch).resolve_left ?_
    rintro ⟨c, hc, htx⟩
    exact hnone c hc htx

/-- However the tasks wait for the lock and for the channels, they do what `TxStreams` does: what
shows of the run there, step by step, is a run. -/
theorem refines_of_run (h : Run Step new tr s) :
    Run TxStreams.Step .new (tr.filterMap (shown toTxStreams streamsEvent)) s.toTxStreams ∧
      s.Served := by
  have hrun : Run TxStreams.Step (toTxStreams new)
      (tr.filterMap (shown toTxStreams streamsEvent)) s.toTxStreams :=
    h.refines toTxStreams streamsEvent consistent_new (fun _ _ _ ht hs => ht.step hs)
      fun _ _ _ ht hs => ht.shows hs
  have hconsistent : s.Consistent := h.invariant consistent_new fun _ _ _ _ ht hs => ht.step hs
  exact ⟨hrun, hconsistent.served (TxStreams.invariant_of_reachable ⟨_, hrun⟩)⟩

/-- A client comes back while its old connection waits for the lock to leave. -/
theorem refines_reconnect : ∃ tr s, Run Step new tr s ∧
    (s.locked.balancer.txConsumers.lookup "A").map TxConsumer.tx = some 1 ∧
    s.tasks.map ServerTask.phase = [.unsubscribed, .looping] ∧
    (tr.filterMap (shown toTxStreams streamsEvent)).map Prod.snd =
      [.txStream "A" "token1", .endStream 0, .stop 0, .cleanup 0, .txStream "A" "token2"] ∧
    Run TxStreams.Step .new (tr.filterMap (shown toTxStreams streamsEvent)) s.toTxStreams ∧
    s.Served := by
  have hopen := ((Run.nil new).snoc (@Step.ask _ (.subscribe "A" "token1")
    ⟨by simp [new], by simp [new]⟩)).snoc
    (@Step.grant _ _ _ _ rfl (@LockedServer.Step.grantWrite _ _ _ rfl rfl rfl) rfl)
  have hleaving := ((hopen.snoc (@Step.endStream _ 0)).snoc
    (@Step.stop _ 0 _ _ rfl rfl rfl (.inr (.inl rfl)))).snoc
    (@Step.ask _ (.leave 0 "A" "token1") ⟨_, rfl, rfl, rfl, rfl⟩)
  have hback := ((hleaving.snoc (@Step.ask _ (.subscribe "A" "token2")
    ⟨by decide, by decide⟩)).snoc
    (@Step.grant _ _ _ _ rfl (@LockedServer.Step.grantWrite _ _ _ rfl rfl rfl) rfl)).snoc
    (@Step.grant _ _ _ _ rfl (@LockedServer.Step.grantWrite _ _ _ rfl rfl rfl) rfl)
  exact ⟨_, _, hback, by decide, rfl, rfl, refines_of_run hback⟩

end ServerTasks

end Mtransaction
