import Mtransaction.Client.GrpcClient
import Mtransaction.Client.Reload

/-!
# The client process

`main` of `client/main.rs` with everything it runs: the task of `handle_signals`, the connection
tasks and the forwarder.  Here the loop of `main` takes a list of servers, goes through the URLs
that went and asks their tasks to stop, replaces its list, and goes through the URLs that came, one
at a time, while all other tasks run on.  A task that was asked to stop does so at an await point
of its own.
-/

namespace Mtransaction

open Runs

/-- The command line options the forwarder is made from. -/
structure Params where
  identity : Option String
  tpuAddr : Option String
  rpcUrl : Option String
  blackhole : Bool
  throttleParallel : ℕ

/-- What `main` uses of other crates for its options. -/
structure OptionCrates (Keypair IpAddr : Type) where
  readKeypairFile : String → Except String Keypair
  /-- `IpAddr::from_str` -/
  parse : String → Except String IpAddr

namespace Params

variable {Keypair IpAddr : Type} (options : OptionCrates Keypair IpAddr)

/-- The forwarder `main` spawns.  An identity without an address counts as none, and so does an
address without an identity. -/
def forwarder (params : Params) : Except String TransactionForwarder :=
  match params.identity, params.tpuAddr with
  | some identity, some tpuAddr => do
    let keypair ← options.readKeypairFile identity
    let ipAddr ← options.parse tpuAddr
    spawnForwarder (some keypair) (some ipAddr) params.rpcUrl params.blackhole
  | _, _ =>
    spawnForwarder (none : Option Keypair) (none : Option IpAddr) params.rpcUrl params.blackhole

/-- What the options have to be for the client to start. -/
def Valid (params : Params) : Prop :=
  ∀ identity ∈ params.identity, ∀ tpuAddr ∈ params.tpuAddr,
    (∃ keypair, options.readKeypairFile identity = .ok keypair) ∧
    (∃ ipAddr, options.parse tpuAddr = .ok ipAddr) ∧
    (params.rpcUrl.isSome → params.blackhole)

theorem exists_forwarder_iff (params : Params) :
    (∃ forwarder, params.forwarder options = .ok forwarder) ↔ params.Valid options := by
  obtain ⟨identity, tpuAddr, rpcUrl, blackhole, throttleParallel⟩ := params
  cases identity with
  | none => cases blackhole <;> cases rpcUrl <;> simp [forwarder, Valid, spawnForwarder]
  | some identity =>
    cases tpuAddr with
    | none => cases blackhole <;> cases rpcUrl <;> simp [forwarder, Valid, spawnForwarder]
    | some tpuAddr =>
      cases hkeypair : options.readKeypairFile identity with
      | error err => simp [forwarder, Valid, hkeypair, bind, Except.bind]
      | ok keypair =>
        cases hipAddr : options.parse tpuAddr with
        | error err => simp [forwarder, Valid, hkeypair, hipAddr, bind, Except.bind]
        | ok ipAddr =>
          cases blackhole <;> cases rpcUrl <;>
            simp [forwarder, Valid, hkeypair, hipAddr, bind, Except.bind, spawnForwarder]

end Params

/-- Where the loop of `main` stands, with what is left of its inner loops. -/
inductive MainLoop
  /-- `grpc_urls_channel_receiver.recv()` -/
  | receiving
  /-- the loop over the URLs that went -/
  | aborting (urls urlsToSpawn newGrpcUrls : List String)
  /-- `build_tasks` -/
  | spawning (urls : List String)
  deriving DecidableEq, Repr

structure ClientProcess where
  main : Main
  loop : MainLoop
  client : Client
  /-- the panic that ended `main` -/
  panicked : Option String

inductive ProcessEvent
  | sighup (file : UrlsFile)
  | send
  | recv
  | abort
  /-- `grpc_urls_from_file` is cleared and filled again -/
  | replace
  | spawn
  | built
  /-- task `n` stops because it was asked to -/
  | cancel (n : TaskId)
  | conn (n : TaskId) (event : ConnEvent)
  | forward (event : ForwardEvent)

namespace ClientProcess

/-- The process as it comes to the first `build_tasks`. -/
def started (grpcUrls : List String) (forwarder : TransactionForwarder) (throttleParallel : ℕ) :
    ClientProcess :=
  ⟨⟨.idle grpcUrls, [], none⟩, .spawning grpcUrls, .new forwarder throttleParallel, none⟩

def start {Keypair IpAddr : Type} (options : OptionCrates Keypair IpAddr) (params : Params)
    (file : UrlsFile) : Except String ClientProcess :=
  match readGrpcUrlsFromFile file with
  | .error _ => .error "failed to read gRPC urls from file"
  | .ok grpcUrls => do
    let forwarder ← params.forwarder options
    pure (started grpcUrls forwarder params.throttleParallel)

section Step

-- Whether `Uri::from_str` accepts a URL, and its `host().unwrap_or("unknown")`.
variable (parses : String → Bool) (host : String → String)
variable {SocketAddr : Type} (crates : ForwardCrates SocketAddr)

def Running (s : ClientProcess) : Prop := s.panicked = none ∧ s.client.exited = none

def setConnections (s : ClientProcess) (connections : Connections) : ClientProcess :=
  { s with main := { s.main with connections } }

inductive Step : ClientProcess → ProcessEvent → ClientProcess → Prop
  | sighup {s : ClientProcess} {file : UrlsFile} {main : Main} (running : s.Running)
      (hstep : Main.Step parses s.main (.sighup file) main) : Step s (.sighup file) { s with main }
  | send {s : ClientProcess} {main : Main} (running : s.Running)
      (hstep : Main.Step parses s.main .send main) : Step s .send { s with main }
  | recv {s : ClientProcess} {newGrpcUrls : List String} {rest : List (List String)}
      (running : s.Running) (receiving : s.loop = .receiving)
      (next : s.main.channel = newGrpcUrls :: rest) :
      Step s .recv
        { s with
          main := { s.main with channel := rest }
          loop := .aborting (s.main.connections.grpcUrls.filter fun url => url ∉ newGrpcUrls)
            (newGrpcUrls.filter fun url => url ∉ s.main.connections.grpcUrls) newGrpcUrls }
  -- only the handle is used up here
  | abort {s : ClientProcess} {url : String} {urls urlsToSpawn newGrpcUrls : List String}
      (running : s.Running) (aborting : s.loop = .aborting (url :: urls) urlsToSpawn newGrpcUrls) :
      Step s .abort
        { s.setConnections (s.main.connections.abort url) with
          loop := .aborting urls urlsToSpawn newGrpcUrls }
  | replace {s : ClientProcess} {urlsToSpawn newGrpcUrls : List String} (running : s.Running)
      (aborting : s.loop = .aborting [] urlsToSpawn newGrpcUrls) :
      Step s .replace
        { s.setConnections { s.main.connections with grpcUrls := newGrpcUrls } with
          loop := .spawning urlsToSpawn }
  | spawn {s : ClientProcess} {url : String} {urls : List String} {client : Client}
      (running : s.Running) (spawning : s.loop = .spawning (url :: urls)) (parsed : parses url)
      (hstep : s.client.Step crates (.spawn (host url)) client) :
      Step s .spawn
        { s.setConnections (s.main.connections.spawn url) with loop := .spawning urls, client }
  | spawnPanics {s : ClientProcess} {url : String} {urls : List String} (running : s.Running)
      (spawning : s.loop = .spawning (url :: urls)) (parsed : ¬ parses url) :
      Step s .spawn { s with panicked := some "failed to parse grpc url" }
  | built {s : ClientProcess} (running : s.Running) (spawning : s.loop = .spawning []) :
      Step s .built { s with loop := .receiving }
  | cancel {s : ClientProcess} {n : TaskId} {task : Task} {client : Client} (running : s.Running)
      (htask : s.main.connections.tasks[n]? = some task) (aborted : task.aborted)
      (hstep : s.client.Step crates (.abort n) client) : Step s (.cancel n) { s with client }
  | conn {s : ClientProcess} {n : TaskId} {event : ConnEvent} {client : Client}
      (running : s.Running) (hstep : s.client.Step crates (.conn n event) client) :
      Step s (.conn n event) { s with client }
  | forward {s : ClientProcess} {event : ForwardEvent} {client : Client} (running : s.Running)
      (hstep : s.client.Step crates (.forward event) client) :
      Step s (.forward event) { s with client }

end Step

theorem Step.running {parses : String → Bool} {host : String → String} {SocketAddr : Type}
    {crates : ForwardCrates SocketAddr} {s s' : ClientProcess} {event : ProcessEvent}
    (hs : Step parses host crates s event s') : s.Running := by
  cases hs <;> assumption

/-! ## Lists of servers -/

/-- The list `handle_signals` gets from the file. -/
def readList (x : ClientProcess × ProcessEvent) : Option (List String) :=
  match x.2 with
  | .sighup file => (readGrpcUrlsFromFile file).toOption
  | _ => none

/-- The list `main` takes from the channel. -/
def takenList (x : ClientProcess × ProcessEvent) : Option (List String) :=
  match x.2 with
  | .recv => x.1.main.channel.head?
  | _ => none

/-- The list `main` has taken last. -/
def target (s : ClientProcess) : List String :=
  match s.loop with
  | .aborting _ _ newGrpcUrls => newGrpcUrls
  | _ => s.main.connections.grpcUrls

/-- What the reload in progress will have made of the connections, if nothing fails. -/
def settled (parses : String → Bool) (s : ClientProcess) : Except String Connections :=
  match s.loop with
  | .receiving => .ok s.main.connections
  | .aborting urls urlsToSpawn newGrpcUrls => Connections.buildTasks parses urlsToSpawn
      { urls.foldl Connections.abort s.main.connections with grpcUrls := newGrpcUrls }
  | .spawning urls => Connections.buildTasks parses urls s.main.connections

/-- The process as if the reload in progress had happened when its list was taken. -/
def inOnePiece (parses : String → Bool) (s : ClientProcess) : Main :=
  match s.settled parses with
  | .ok connections => { s.main with connections }
  | .error _ => s.main

/-- The step of the process whose reloads happen in one piece. -/
def mainEvent : ProcessEvent → Option MainEvent
  | .sighup file => some (.sighup file)
  | .send => some .send
  | .recv => some .recv
  | _ => none

/-- The step of the connections and the forwarder. -/
def clientEvent (parses : String → Bool) (host : String → String) (s : ClientProcess) :
    ProcessEvent → Option ClientEvent
  | .spawn =>
    match s.loop with
    | .spawning (url :: _) => if parses url then some (.spawn (host url)) else none
    | _ => none
  | .cancel n => some (.abort n)
  | .conn n event => some (.conn n event)
  | .forward event => some (.forward event)
  | _ => none

/-- Steps of `main` and of `handle_signals` after a signal. -/
def ofMain (x : ClientProcess × ProcessEvent) : Bool :=
  match x.2 with
  | .send | .recv | .abort | .replace | .spawn | .built => true
  | _ => false

/-- How many steps the reloads for a number of lists take, one after the other. -/
def reloadSteps (grpcUrls : List String) : List (List String) → ℕ
  | [] => 0
  | newGrpcUrls :: rest =>
    (grpcUrls.filter fun url => url ∉ newGrpcUrls).length +
      (newGrpcUrls.filter fun url => url ∉ grpcUrls).length + 3 + reloadSteps newGrpcUrls rest

def loopSteps : MainLoop → ℕ
  | .receiving => 0
  | .aborting urls urlsToSpawn _ => urls.length + urlsToSpawn.length + 2
  | .spawning urls => urls.length + 1

/-- The steps left to take until all lists that were read are in force. -/
def work (s : ClientProcess) : ℕ :=
  loopSteps s.loop + reloadSteps s.target (s.main.channel ++ s.main.signalled.toList) +
    s.main.signalled.toList.length

/-- Nothing is left to do until the next signal. -/
structure Quiet (s : ClientProcess) : Prop where
  receiving : s.loop = .receiving
  channel : s.main.channel = []
  signalled : s.main.signalled = none

section Lists

variable {parses : String → Bool} {host : String → String}
variable {SocketAddr : Type} {crates : ForwardCrates SocketAddr}
variable {s₀ s s' : ClientProcess} {event : ProcessEvent} {tr : List (ClientProcess × ProcessEvent)}
variable {Keypair IpAddr : Type} {options : OptionCrates Keypair IpAddr} {params : Params}
variable {file : UrlsFile}

theorem start_eq_ok (hstart : start options params file = .ok s₀) :
    ∃ grpcUrls forwarder, readGrpcUrlsFromFile file = .ok grpcUrls ∧
      params.forwarder options = .ok forwarder ∧
      s₀ = started grpcUrls forwarder params.throttleParallel := by
  unfold start at hstart
  cases hread : readGrpcUrlsFromFile file with
  | error err => simp [hread] at hstart
  | ok grpcUrls =>
    cases hforwarder : params.forwarder options with
    | error err => simp [hread, hforwarder, bind, Except.bind] at hstart
    | ok forwarder =>
      rw [hread, hforwarder] at hstart
      exact ⟨grpcUrls, forwarder, rfl, rfl, (Except.ok.inj hstart).symm⟩

/-- The process starts exactly with a list of servers and options that go together. -/
theorem exists_start_iff : (∃ s₀, start options params file = .ok s₀) ↔
    (∃ grpcUrls, readGrpcUrlsFromFile file = .ok grpcUrls) ∧ params.Valid options := by
  rw [← params.exists_forwarder_iff options]
  constructor
  · rintro ⟨s₀, hstart⟩
    obtain ⟨grpcUrls, forwarder, hread, hforwarder, -⟩ := start_eq_ok hstart
    exact ⟨⟨grpcUrls, hread⟩, forwarder, hforwarder⟩
  · rintro ⟨⟨grpcUrls, hread⟩, forwarder, hforwarder⟩
    refine ⟨started grpcUrls forwarder params.throttleParallel, ?_⟩
    simp only [start, hread, hforwarder]
    rfl

theorem reload_eq (parses : String → Bool) (c : Connections) (newGrpcUrls : List String) :
    c.reload parses newGrpcUrls =
      Connections.buildTasks parses (newGrpcUrls.filter fun url => url ∉ c.grpcUrls)
        { (c.grpcUrls.filter fun url => url ∉ newGrpcUrls).foldl Connections.abort c with
          grpcUrls := newGrpcUrls } := by
  unfold Connections.reload
  simp only
  split
  next hempty =>
    rw [List.isEmpty_iff.mp hempty]
    rfl
  next => rfl

theorem inOnePiece_eq {c : Connections} (hc : s.settled parses = .ok c) :
    s.inOnePiece parses = { s.main with connections := c } := by
  rw [inOnePiece, hc]

/-- Each step of a process is one of `main` with its reloads in one piece, or does not show there:
a reload counts from the moment its list is taken. -/
theorem settled_step {c' : Connections} (hs : Step parses host crates s event s')
    (hc' : s'.settled parses = .ok c') : ∃ c, s.settled parses = .ok c ∧
      StepsOrStays (Main.Step parses) { s.main with connections := c } (mainEvent event)
        { s'.main with connections := c' } := by
  cases hs with
  | sighup running hstep =>
    cases hstep with
    | sighup idle => exact ⟨c', hc', Main.Step.sighup idle⟩
  | send running hstep =>
    cases hstep with
    | send hurls room => exact ⟨c', hc', Main.Step.send hurls room⟩
  | recv running receiving next =>
    refine ⟨s.main.connections, by rw [settled, receiving], Main.Step.recv next ?_⟩
    rw [reload_eq]
    exact hc'
  | abort running aborting =>
    refine ⟨c', ?_, rfl⟩
    rw [settled, aborting]
    exact hc'
  | replace running aborting =>
    refine ⟨c', ?_, rfl⟩
    rw [settled, aborting]
    exact hc'
  | spawn running spawning parsed hstep =>
    refine ⟨c', ?_, rfl⟩
    rw [settled, spawning]
    simp only [Connections.buildTasks, if_pos parsed]
    exact hc'
  | built running spawning =>
    refine ⟨c', ?_, rfl⟩
    rw [settled, spawning]
    exact hc'
  | _ => exact ⟨c', hc', rfl⟩

/-- Of `send`, `recv` and the steps of the loop one can always be taken: `handle_signals` waits for
room only while `main` has something to do. -/
theorem exists_step (hrunning : s.Running) (hbusy : ¬ s.Quiet) :
    ∃ event s', ofMain (s, event) ∧ Step parses host crates s event s' := by
  cases hloop : s.loop with
  | receiving =>
    cases hchannel : s.main.channel with
    | nil =>
      cases hsignalled : s.main.signalled with
      | none => exact absurd ⟨hloop, hchannel, hsignalled⟩ hbusy
      | some urls =>
        have hroom : s.main.channel.length < 1 := by simp [hchannel]
        exact ⟨.send, _, rfl, .send hrunning (.send hsignalled hroom)⟩
    | cons newGrpcUrls rest => exact ⟨.recv, _, rfl, .recv hrunning hloop hchannel⟩
  | aborting urls urlsToSpawn newGrpcUrls =>
    cases urls with
    | nil => exact ⟨.replace, _, rfl, .replace hrunning hloop⟩
    | cons url urls => exact ⟨.abort, _, rfl, .abort hrunning hloop⟩
  | spawning urls =>
    cases urls with
    | nil => exact ⟨.built, _, rfl, .built hrunning hloop⟩
    | cons url urls =>
      by_cases hparsed : parses url
      · exact ⟨.spawn, _, rfl, .spawn hrunning hloop hparsed (.spawn hrunning.2)⟩
      · exact ⟨.spawn, _, rfl, .spawnPanics hrunning hloop hparsed⟩

/-- Whatever else goes on, every step of `main` is one less to take. -/
theorem work_step (hs : Step parses host crates s event s') (hquiet : ∀ file, event ≠ .sighup file)
    (hrunning : s'.panicked = none) :
    [(s, event)].countP ofMain + s'.work = s.work := by
  rw [List.countP_singleton]
  cases hs with
  | sighup running hstep => exact absurd rfl (hquiet _)
  | send running hstep =>
    cases hstep with
    | send hurls room =>
      simp only [work, target, ofMain, hurls, if_true, Option.toList_some, Option.toList_none,
        List.append_nil, List.length_nil, List.length_singleton]
      omega
  | recv running receiving next =>
    simp only [work, target, ofMain, receiving, next, if_true, loopSteps, List.cons_append,
      reloadSteps]
    omega
  | abort running aborting =>
    simp only [work, target, ofMain, aborting, if_true, loopSteps, List.length_cons,
      setConnections]
    omega
  | replace running aborting =>
    simp only [work, target, ofMain, aborting, if_true, loopSteps, List.length_nil,
      setConnections]
    omega
  | spawn running spawning parsed hstep =>
    simp only [work, target, ofMain, spawning, if_true, loopSteps, List.length_cons,
      setConnections, Connections.spawn]
    omega
  | spawnPanics running spawning parsed => simp at hrunning
  | built running spawning =>
    simp only [work, target, ofMain, spawning, if_true, loopSteps, List.length_nil]
    omega
  | cancel running htask aborted hstep => simp [work, target, ofMain]
  | conn running hstep => simp [work, target, ofMain]
  | forward running hstep => simp [work, target, ofMain]

theorem work_of_run (h : Run (Step parses host crates) s tr s')
    (hquiet : ∀ x ∈ tr, ∀ file, x.2 ≠ .sighup file) (hrunning : s'.panicked = none) :
    tr.countP ofMain + s'.work = s.work := by
  induction h with
  | nil => simp
  | @snoc t u tr event hr hs ih =>
    have hstep := work_step hs (hquiet (t, event) (by simp)) hrunning
    have hbefore := ih (fun x hx => hquiet x (List.mem_append_left _ hx)) hs.running.1
    rw [List.countP_append]
    omega

theorem quiet_of_work (hwork : s.work = 0) : s.Quiet := by
  unfold work at hwork
  have hloop : loopSteps s.loop = 0 := by omega
  have hpending : reloadSteps s.target (s.main.channel ++ s.main.signalled.toList) = 0 := by omega
  have hnone : s.main.channel ++ s.main.signalled.toList = [] := by
    cases hlists : s.main.channel ++ s.main.signalled.toList with
    | nil => rfl
    | cons newGrpcUrls rest =>
      rw [hlists, reloadSteps] at hpending
      omega
  obtain ⟨hchannel, hsignalled⟩ := List.append_eq_nil_iff.mp hnone
  refine ⟨?_, hchannel, by simpa using hsignalled⟩
  cases heq : s.loop with
  | receiving => rfl
  | aborting urls urlsToSpawn newGrpcUrls => simp [heq, loopSteps] at hloop
  | spawning urls => simp [heq, loopSteps] at hloop

/-- What a step does to the lists on their way to `main`, and to the one taken last. -/
theorem lists_step (hs : Step parses host crates s event s') :
    s.main.channel ++ s.main.signalled.toList ++ (readList (s, event)).toList =
        (takenList (s, event)).toList ++ (s'.main.channel ++ s'.main.signalled.toList) ∧
      s'.target = (takenList (s, event)).getD s.target := by
  cases hs with
  | sighup running hstep =>
    cases hstep with
    | sighup idle => simp [readList, takenList, idle, target]
  | send running hstep =>
    cases hstep with
    | send hurls room => simp [readList, takenList, hurls, target]
  | recv running receiving next => simp [readList, takenList, next, target]
  | abort running aborting => simp [readList, takenList, aborting, target, setConnections]
  | replace running aborting => simp [readList, takenList, aborting, target, setConnections]
  | spawn running spawning parsed hstep =>
    simp [readList, takenList, spawning, target, setConnections, Connections.spawn]
  | spawnPanics running spawning parsed => simp [readList, takenList, target]
  | built running spawning => simp [readList, takenList, spawning, target]
  | cancel running htask aborted hstep => simp [readList, takenList, target]
  | conn running hstep => simp [readList, takenList, target]
  | forward running hstep => simp [readList, takenList, target]

/-- No list is lost on its way, whatever comes in between. -/
theorem noneLost_of_run (h : Run (Step parses host crates) s₀ tr s) :
    s₀.main.channel ++ s₀.main.signalled.toList ++ tr.filterMap readList =
      tr.filterMap takenList ++ (s.main.channel ++ s.main.signalled.toList) := by
  induction h with
  | nil => simp
  | snoc hr hs ih =>
    rw [filterMap_concat, filterMap_concat, ← List.append_assoc, ih, List.append_assoc,
      (lists_step hs).1, ← List.append_assoc]

theorem target_of_run (h : Run (Step parses host crates) s₀ tr s) :
    s.target = (tr.filterMap takenList).getLast?.getD s₀.target := by
  induction h with
  | nil => rfl
  | @snoc t u tr event hr hs ih =>
    rw [(lists_step hs).2, filterMap_concat, ih]
    cases takenList (t, event) with
    | none => simp
    | some urls => simp

theorem client_step (hs : Step parses host crates s event s') :
    StepsOrStays (Client.Step crates) s.client (clientEvent parses host s event) s'.client := by
  cases hs with
  | spawn running spawning parsed hstep =>
    simp only [clientEvent, spawning, if_pos parsed, StepsOrStays]
    exact hstep
  | spawnPanics running spawning parsed =>
    simp only [clientEvent, spawning, if_neg parsed, StepsOrStays]
  | cancel running htask aborted hstep => exact hstep
  | conn running hstep => exact hstep
  | forward running hstep => exact hstep
  | _ => rfl

theorem settled_of_run {m₀ : Main}
    (hstart : start options params file = .ok s₀)
    (hmain : Main.start parses file = .ok m₀) (h : Run (Step parses host crates) s₀ tr s)
    {c : Connections} (hc : s.settled parses = .ok c) :
    Run (Main.Step parses) m₀ (tr.filterMap (shown (inOnePiece parses) fun _ => mainEvent))
      { s.main with connections := c } := by
  induction h generalizing c with
  | nil =>
    obtain ⟨grpcUrls, forwarder, hread, -, rfl⟩ := start_eq_ok hstart
    have hbuilt : Connections.buildTasks parses grpcUrls (.idle grpcUrls) = .ok c := hc
    simp only [Main.start, hread, hbuilt] at hmain
    obtain rfl := Except.ok.inj hmain
    exact .nil _
  | snoc hr hs ih =>
    obtain ⟨c₀, hc₀, hstep⟩ := settled_step hs hc
    rw [filterMap_concat, shown, inOnePiece_eq hc₀]
    exact (ih hc₀).extend hstep

/-- How a process follows the lists in its file. -/
structure FollowsLists (parses : String → Bool) (host : String → String)
    (crates : ForwardCrates SocketAddr) (file : UrlsFile) (s₀ : ClientProcess)
    (tr : List (ClientProcess × ProcessEvent)) (s : ClientProcess) : Prop where
  noneLost : tr.filterMap readList =
    tr.filterMap takenList ++ (s.main.channel ++ s.main.signalled.toList)
  latest : s.target = (tr.filterMap takenList).getLast?.getD s₀.target
  goesOn : s.Running → ¬ s.Quiet →
    ∃ event s', ofMain (s, event) ∧ Step parses host crates s event s'
  /-- with no further signal, there are only so many steps of `main` -/
  converges : ∀ tr' s', Run (Step parses host crates) s tr' s' →
    (∀ x ∈ tr', ∀ file, x.2 ≠ .sighup file) → s'.panicked = none →
      tr'.countP ofMain ≤ s.work ∧ (tr'.countP ofMain = s.work → s'.Quiet)
  /-- with nothing under way, the list is the last one that could be read -/
  upToDate : s.Quiet → s.main.connections.grpcUrls =
    (tr.filterMap readList).getLast?.getD s₀.main.connections.grpcUrls
  /-- the reloads might as well happen in one piece, when their lists are taken -/
  atomic : ∀ m₀, Main.start parses file = .ok m₀ → ∀ c, s.settled parses = .ok c →
    Run (Main.Step parses) m₀ (tr.filterMap (shown (inOnePiece parses) fun _ => mainEvent))
      { s.main with connections := c }
  asClient : Run (Client.Step crates) s₀.client
    (tr.filterMap (shown client (clientEvent parses host))) s.client

theorem followsLists_of_run (hstart : start options params file = .ok s₀)
    (h : Run (Step parses host crates) s₀ tr s) :
    FollowsLists parses host crates file s₀ tr s := by
  obtain ⟨grpcUrls, forwarder, -, -, rfl⟩ := start_eq_ok hstart
  have hlost : tr.filterMap readList =
      tr.filterMap takenList ++ (s.main.channel ++ s.main.signalled.toList) := noneLost_of_run h
  have htarget := target_of_run h
  refine ⟨hlost, htarget, exists_step, fun tr' s' h' hsilent hrunning => ?_, fun hquiet => ?_,
    fun m₀ hmain c hc => settled_of_run hstart hmain h hc, ?_⟩
  · have hwork := work_of_run h' hsilent hrunning
    exact ⟨by omega, fun hall => quiet_of_work (by omega)⟩
  · have htaken : tr.filterMap readList = tr.filterMap takenList := by
      simpa [hquiet.channel, hquiet.signalled] using hlost
    have hlist : s.target = s.main.connections.grpcUrls := by rw [target, hquiet.receiving]
    rw [htaken, ← hlist]
    exact htarget
  · exact h.refines client (clientEvent parses host) (P := fun _ => True) trivial
      (fun _ _ _ _ _ => trivial) fun _ _ _ _ hs => client_step hs

end Lists

/-! ## One server goes and one comes -/

/-- `host` of a URL that starts with "http://" and has no port. -/
def sampleHost (url : String) : String := String.ofList (url.toList.drop 7)

abbrev SampleStep := Step (fun _ => true) sampleHost Client.sampleForwardCrates

def startedTwo : ClientProcess := started ["http://a", "http://b"] .quic 1000

/-- Both tasks are spawned. -/
def servingTwo : ClientProcess :=
  ⟨Main.twoServers, .receiving, { Client.new .quic 1000 with
    conns := [.new (sampleHost "http://a"), .new (sampleHost "http://b")] }, none⟩

/-- A file system with no key pair in it. -/
def sampleOptionCrates : OptionCrates String String := ⟨fun _ => .error "No such file", .ok⟩

theorem start_twoServers :
    start sampleOptionCrates ⟨none, none, none, false, 1000⟩
      (urlsFile ["http://a", "http://b"]) = .ok startedTwo := by
  unfold start
  rw [readGrpcUrlsFromFile_urlsFile (by decide)]
  rfl

theorem run_servingTwo : ∃ tr, Run SampleStep startedTwo tr servingTwo ∧
    tr.filterMap readList = [] := by
  have hfirst : Run SampleStep _ _ _ := (Run.nil startedTwo).snoc
    (@Step.spawn _ _ _ _ _ "http://a" _ _ ⟨rfl, rfl⟩ rfl rfl (.spawn rfl))
  have hsecond := hfirst.snoc
    (@Step.spawn _ _ _ _ _ "http://b" _ _ ⟨rfl, rfl⟩ rfl rfl (.spawn rfl))
  exact ⟨_, hsecond.snoc (.built ⟨rfl, rfl⟩ rfl), rfl⟩

/-- On the next signal the file names another server instead of the first one. -/
theorem run_reload : ∃ tr s, Run SampleStep servingTwo tr s ∧ s.Quiet ∧
    tr.filterMap readList = [["http://b", "http://c"]] ∧
    tr.filterMap takenList = [["http://b", "http://c"]] ∧
    s.main.connections.grpcUrls = ["http://b", "http://c"] ∧ s.Running ∧
    ∃ conn ∈ s.client.conns[0]?, conn.phase = .aborted := by
  have hread : (readGrpcUrlsFromFile (urlsFile ["http://b", "http://c"])).toOption =
      some ["http://b", "http://c"] := by
    rw [readGrpcUrlsFromFile_urlsFile (by decide)]
    rfl
  have hsighup : SampleStep servingTwo (.sighup (urlsFile ["http://b", "http://c"]))
      { servingTwo with
        main := { Main.twoServers with signalled := some ["http://b", "http://c"] } } := by
    rw [← hread]
    exact .sighup ⟨rfl, rfl⟩ (.sighup rfl)
  have hsent := ((Run.nil servingTwo).snoc hsighup).snoc
    (.send ⟨rfl, rfl⟩ (.send rfl Nat.zero_lt_one))
  have htaken := hsent.snoc (.recv ⟨rfl, rfl⟩ rfl rfl)
  have haborted := (htaken.snoc (@Step.abort _ _ _ _ _ "http://a" [] _ _ ⟨rfl, rfl⟩ rfl)).snoc
    (.replace ⟨rfl, rfl⟩ rfl)
  have hspawned := haborted.snoc
    (@Step.spawn _ _ _ _ _ "http://c" [] _ ⟨rfl, rfl⟩ rfl rfl (.spawn rfl))
  have hbuilt := hspawned.snoc (.built ⟨rfl, rfl⟩ rfl)
  have hcancelled := hbuilt.snoc (@Step.cancel _ _ _ _ _ 0 _ _ ⟨rfl, rfl⟩ rfl rfl (.abort rfl rfl))
  refine ⟨_, _, hcancelled, ⟨rfl, rfl, rfl⟩, ?_, rfl, rfl, ⟨rfl, rfl⟩, _, rfl, rfl⟩
  simp only [List.nil_append, List.cons_append, List.filterMap_cons, List.filterMap_nil, readList,
    hread]

/-- Once all is quiet again the list is that of the file. -/
theorem followsLists_reload : ∃ tr s, Run SampleStep startedTwo tr s ∧ s.Quiet ∧
    s.main.connections.grpcUrls = ["http://b", "http://c"] ∧
    FollowsLists (fun _ => true) sampleHost Client.sampleForwardCrates
      (urlsFile ["http://a", "http://b"]) startedTwo tr s := by
  obtain ⟨tr₀, h₀, -⟩ := run_servingTwo
  obtain ⟨tr, s, h, hquiet, -, -, hlist, -⟩ := run_reload
  exact ⟨_, s, h₀.append h, hquiet, hlist, followsLists_of_run start_twoServers (h₀.append h)⟩

end ClientProcess

end Mtransaction
