import Mtransaction.Lib.HashMap
import Mtransaction.Lib.Runs
import Mathlib.Data.List.Nodup

/-!
# The client's connection tasks

`client/main.rs` reads the list of servers from a file, at start and on every SIGHUP, and runs one
task per connection.  A task that is not aborted runs on whether or not its handle is kept; it ends
by itself only when the feeder of its metrics is gone, and the feeder stays as long as the task.
-/

namespace Mtransaction

open Runs

/-! ## The file of URLs -/

/-- `serde_yaml::Value`; numbers are kept as they are written. -/
inductive Yaml
  | null
  | bool (value : Bool)
  | number (text : String)
  | string (text : String)
  | sequence (items : List Yaml)
  | mapping (entries : List (Yaml × Yaml))

namespace Yaml

def asStr : Yaml → Option String
  | .string text => some text
  | _ => none

def asSequence : Yaml → Option (List Yaml)
  | .sequence items => some items
  | _ => none

/-- `value[key]`: what is not a mapping, or does not have the key, yields `Null`. -/
def index (key : String) : Yaml → Yaml
  | .mapping entries => ((entries.find? fun e => e.1.asStr = some key).map Prod.snd).getD .null
  | _ => .null

end Yaml

/-- What there is under the path of the file. -/
inductive UrlsFile
  | unreadable
  | malformed (err : String)
  | yaml (content : Yaml)

def readGrpcUrlsFromFile : UrlsFile → Except String (List String)
  | .unreadable => .error "No mtransaction_servers found"
  | .malformed err => .error err
  | .yaml content =>
    match (content.index "mtransaction_servers").asSequence with
    | some result =>
      -- whatever is not a string becomes the empty one, and these are dropped
      let newUrls := result.map fun x => x.asStr.getD ""
      .ok (newUrls.filter fun x => !x.isEmpty)
    | none => .error "No mtransaction_servers found"

def urlsFile (urls : List String) : UrlsFile :=
  .yaml (.mapping [(.string "mtransaction_servers", .sequence (urls.map .string))])

/-- Any list of nonempty strings can be read, in any order and with any repetitions. -/
theorem readGrpcUrlsFromFile_urlsFile {urls : List String} (h : "" ∉ urls) :
    readGrpcUrlsFromFile (urlsFile urls) = .ok urls := by
  have hmap : (urls.map Yaml.string).map (fun x => x.asStr.getD "") = urls := by
    simp [List.map_map, Function.comp_def, Yaml.asStr]
  have hfilter : urls.filter (fun x => !x.isEmpty) = urls := by
    apply List.filter_eq_self.mpr
    intro url hurl
    have hne : url ≠ "" := fun he => h (he ▸ hurl)
    simpa [String.isEmpty_iff] using hne
  show Except.ok (((urls.map Yaml.string).map fun x => x.asStr.getD "").filter
    fun x => !x.isEmpty) = .ok urls
  rw [hmap, hfilter]

/-! ## Tasks and handles -/

abbrev TaskId := ℕ

/-- A task of `spawn_grpc_connection_with_retry`. -/
structure Task where
  url : String
  aborted : Bool
  deriving DecidableEq, Repr

/-- What `main` keeps between two reloads, with every task it has spawned. -/
structure Connections where
  /-- `grpc_urls_from_file` -/
  grpcUrls : List String
  allTasks : HashMap String TaskId
  tasks : List Task
  /-- Handles are filed under the URL of their task. -/
  keyed : ∀ url id, allTasks.lookup url = some id → tasks[id]?.map Task.url = some url

namespace Connections

def idle (grpcUrls : List String) : Connections := ⟨grpcUrls, ∅, [], by simp⟩

/-- `tokio::spawn` and `all_tasks.insert`.  A handle it replaces is dropped, which leaves the task
running. -/
def spawn (c : Connections) (url : String) : Connections where
  grpcUrls := c.grpcUrls
  allTasks := c.allTasks.insert url c.tasks.length
  tasks := c.tasks ++ [⟨url, false⟩]
  keyed := by
    intro url' id h
    rw [AList.lookup_insert_eq_ite] at h
    split at h
    next hurl =>
      obtain rfl := Option.some.inj h
      simp [hurl]
    next =>
      have hold := c.keyed url' id h
      obtain ⟨task, htask, hu⟩ := Option.map_eq_some_iff.mp hold
      have hlt := (List.getElem?_eq_some_iff.mp htask).1
      rw [List.getElem?_append_left hlt, hold]

/-- `all_tasks.remove`, and `abort` on the handle if there was one. -/
def abort (c : Connections) (url : String) : Connections :=
  match c.allTasks.lookup url with
  | some id =>
    { c with
      allTasks := c.allTasks.erase url
      tasks := c.tasks.modify id fun task => { task with aborted := true }
      keyed := by
        intro url' id' h
        rw [AList.lookup_erase_eq_ite] at h
        split at h
        next => simp at h
        next =>
          rw [← c.keyed url' id' h, List.getElem?_modify]
          cases c.tasks[id']? with
          | none => rfl
          | some task =>
            show some (if id = id' then _ else task).url = some task.url
            split <;> rfl }
  | none => c

section Reload

-- Whether `Uri::from_str` accepts a URL.
variable (parses : String → Bool)

/-- Panics at the first URL that does not parse. -/
def buildTasks : List String → Connections → Except String Connections
  | [], c => .ok c
  | url :: rest, c =>
    if parses url then buildTasks rest (c.spawn url) else .error "failed to parse grpc url"

/-- The body of the loop in `main`. -/
def reload (c : Connections) (newGrpcUrls : List String) : Except String Connections :=
  let urlsToSpawn := newGrpcUrls.filter fun url => url ∉ c.grpcUrls
  let kept := (c.grpcUrls.filter fun url => url ∉ newGrpcUrls).foldl abort c
  let c' := { kept with grpcUrls := newGrpcUrls }
  -- `continue`
  if urlsToSpawn.isEmpty then .ok c' else buildTasks parses urlsToSpawn c'

end Reload

def Live (c : Connections) (id : TaskId) (url : String) : Prop := c.tasks[id]? = some ⟨url, false⟩

/-- One running task for each URL listed, none for any other, and a handle for each. -/
structure Reconciled (c : Connections) : Prop where
  exactlyOne : ∀ url ∈ c.grpcUrls, ∃! id, c.Live id url
  listed : ∀ id url, c.Live id url → url ∈ c.grpcUrls
  handled : ∀ id url, c.Live id url → c.allTasks.lookup url = some id

/-- The tasks of URLs listed before and after run on. -/
def Undisturbed (c c' : Connections) : Prop :=
  ∀ id url, c.Live id url → url ∈ c.grpcUrls → url ∈ c'.grpcUrls → c'.Live id url

/-! ## What the loops do -/

section Loops

variable {c c' : Connections} {urls : List String} {id : TaskId} {url : String}

@[simp] theorem grpcUrls_abort (c : Connections) (url : String) :
    (c.abort url).grpcUrls = c.grpcUrls := by
  unfold abort
  split <;> rfl

theorem lookup_abort (c : Connections) (url url' : String) :
    (c.abort url).allTasks.lookup url' = if url' = url then none else c.allTasks.lookup url' := by
  unfold abort
  split
  next => exact AList.lookup_erase_eq_ite url url'
  next h =>
    split
    next hurl => rw [hurl, h]
    next => rfl

/-- Only the task whose handle is filed under the URL is aborted. -/
theorem live_abort (c : Connections) (url url' : String) (id : TaskId) :
    (c.abort url).Live id url' ↔
      c.Live id url' ∧ ¬ (url' = url ∧ c.allTasks.lookup url' = some id) := by
  unfold abort
  split
  next id' h =>
    have hkey := c.keyed url id' h
    unfold Live
    simp only [List.getElem?_modify]
    by_cases hid : id' = id
    · -- the handle's own task: not running any more
      subst hid
      obtain ⟨task, htask, hurl⟩ := Option.map_eq_some_iff.mp hkey
      rw [htask]
      simp only [if_true, Option.map_eq_map, Option.map_some, Option.some.injEq]
      constructor
      · intro habs
        exact absurd (congrArg Task.aborted habs) (by simp)
      · rintro ⟨rfl, hne⟩
        obtain rfl : url' = url := hurl
        exact absurd ⟨rfl, h⟩ hne
    · simp only [hid, if_false, Option.map_eq_map]
      rw [Option.map_id']
      constructor
      · intro hlive
        refine ⟨hlive, ?_⟩
        rintro ⟨rfl, hlook⟩
        exact hid (Option.some.inj (h.symm.trans hlook))
      · exact fun hlive => hlive.1
  next h =>
    constructor
    · intro hlive
      refine ⟨hlive, ?_⟩
      rintro ⟨rfl, hlook⟩
      rw [h] at hlook
      simp at hlook
    · exact fun hlive => hlive.1

theorem foldl_abort (urls : List String) (c : Connections) :
    (urls.foldl abort c).grpcUrls = c.grpcUrls ∧
      (∀ url, (urls.foldl abort c).allTasks.lookup url =
        if url ∈ urls then none else c.allTasks.lookup url) ∧
      ∀ id url, (urls.foldl abort c).Live id url ↔
        c.Live id url ∧ ¬ (url ∈ urls ∧ c.allTasks.lookup url = some id) := by
  induction urls generalizing c with
  | nil => simp
  | cons first rest ih =>
    obtain ⟨hurls, hlookup, hlive⟩ := ih (c.abort first)
    rw [List.foldl_cons]
    refine ⟨by rw [hurls, grpcUrls_abort], fun url => ?_, fun id url => ?_⟩
    · rw [hlookup, lookup_abort]
      by_cases hfirst : url = first <;> by_cases hrest : url ∈ rest <;> simp [hfirst, hrest]
    · rw [hlive, live_abort, lookup_abort]
      -- a URL that comes twice has no handle left the second time
      by_cases hfirst : url = first <;> simp [hfirst]

-- aborting a task does not forget it
theorem length_tasks_foldl_abort (urls : List String) (c : Connections) :
    (urls.foldl abort c).tasks.length = c.tasks.length := by
  induction urls generalizing c with
  | nil => rfl
  | cons first rest ih =>
    rw [List.foldl_cons, ih]
    unfold abort
    split
    · exact List.length_modify _ _ _
    · rfl

theorem live_spawn (c : Connections) (url url' : String) (id : TaskId) :
    (c.spawn url).Live id url' ↔ c.Live id url' ∨ (id = c.tasks.length ∧ url' = url) := by
  show (c.tasks ++ [⟨url, false⟩])[id]? = _ ↔ c.tasks[id]? = _ ∨ _
  rcases Nat.lt_trichotomy id c.tasks.length with hlt | rfl | hgt
  · rw [List.getElem?_append_left hlt]
    simp [Nat.ne_of_lt hlt]
  · simp [eq_comm]
  · have hnone : c.tasks[id]? = none := List.getElem?_eq_none (Nat.le_of_lt hgt)
    have hnone' : (c.tasks ++ [⟨url, false⟩])[id]? = none :=
      List.getElem?_eq_none (by rw [List.length_append]; exact hgt)
    simp [hnone, hnone', Nat.ne_of_gt hgt]

theorem buildTasks_eq_ok {parses : String → Bool} (h : buildTasks parses urls c = .ok c') :
    c' = urls.foldl spawn c := by
  induction urls generalizing c with
  | nil => exact (Except.ok.inj h).symm
  | cons url rest ih =>
    rw [buildTasks] at h
    split at h
    · exact ih h
    · simp at h

/-- The loop over the URLs that came: task number `c.tasks.length + k` is that of the `k`-th. -/
theorem foldl_spawn (urls : List String) (c : Connections) :
    (urls.foldl spawn c).grpcUrls = c.grpcUrls ∧
      (∀ url, url ∉ urls → (urls.foldl spawn c).allTasks.lookup url = c.allTasks.lookup url) ∧
      ∀ id url, (urls.foldl spawn c).Live id url ↔
        c.Live id url ∨ ∃ k, id = c.tasks.length + k ∧ urls[k]? = some url := by
  induction urls generalizing c with
  | nil => simp
  | cons first rest ih =>
    obtain ⟨hurls, hlookup, hlive⟩ := ih (c.spawn first)
    have hlen : (c.spawn first).tasks.length = c.tasks.length + 1 := by simp [spawn]
    rw [List.foldl_cons]
    refine ⟨hurls, fun url hurl => ?_, fun id url => ?_⟩
    · rw [List.mem_cons, not_or] at hurl
      rw [hlookup url hurl.2]
      exact (AList.lookup_insert_eq_ite _ _ _).trans (if_neg hurl.1)
    · rw [hlive, live_spawn, hlen, or_assoc]
      apply or_congr_right
      constructor
      · rintro (⟨rfl, rfl⟩ | ⟨k, rfl, hk⟩)
        · exact ⟨0, rfl, rfl⟩
        · exact ⟨k + 1, Nat.add_right_comm _ 1 k, by simpa using hk⟩
      · rintro ⟨k, rfl, hk⟩
        cases k with
        | zero => exact .inl ⟨rfl, (Option.some.inj hk).symm⟩
        | succ k => exact .inr ⟨k, (Nat.add_right_comm _ 1 k).symm, by simpa using hk⟩

theorem lookup_foldl_spawn (hnodup : urls.Nodup) (c : Connections) {k : ℕ}
    (hk : urls[k]? = some url) :
    (urls.foldl spawn c).allTasks.lookup url = some (c.tasks.length + k) := by
  induction urls generalizing c k with
  | nil => simp at hk
  | cons first rest ih =>
    obtain ⟨hfirst, hrest⟩ := List.nodup_cons.mp hnodup
    rw [List.foldl_cons]
    cases k with
    | zero =>
      obtain rfl := Option.some.inj hk
      rw [(foldl_spawn rest (c.spawn first)).2.1 first hfirst]
      exact AList.lookup_insert _
    | succ k =>
      have hlen : (c.spawn first).tasks.length = c.tasks.length + 1 := by simp [spawn]
      rw [ih hrest (c.spawn first) (by simpa using hk), hlen, Nat.add_right_comm]
      rfl

end Loops

/-! ## One reload -/

section Reload

variable {parses : String → Bool} {c c' : Connections} {newGrpcUrls : List String}

/-- What a reload does: the tasks of URLs that went are aborted, those of URLs that came spawned. -/
theorem reload_eq_ok (h : c.reload parses newGrpcUrls = .ok c') :
    c' = (newGrpcUrls.filter fun url => url ∉ c.grpcUrls).foldl spawn
      { (c.grpcUrls.filter fun url => url ∉ newGrpcUrls).foldl abort c with
        grpcUrls := newGrpcUrls } := by
  unfold reload at h
  simp only at h
  split at h
  next hempty => rw [List.isEmpty_iff.mp hempty, ← Except.ok.inj h, List.foldl_nil]
  next => exact buildTasks_eq_ok h

theorem grpcUrls_reload (h : c.reload parses newGrpcUrls = .ok c') : c'.grpcUrls = newGrpcUrls := by
  rw [reload_eq_ok h, (foldl_spawn _ _).1]

theorem live_reload (h : c.reload parses newGrpcUrls = .ok c') (id : TaskId) (url : String) :
    c'.Live id url ↔
      (c.Live id url ∧
        ¬ ((url ∈ c.grpcUrls ∧ url ∉ newGrpcUrls) ∧ c.allTasks.lookup url = some id)) ∨
      ∃ k, id = c.tasks.length + k ∧
        (newGrpcUrls.filter fun url => url ∉ c.grpcUrls)[k]? = some url := by
  have hlen := length_tasks_foldl_abort (c.grpcUrls.filter fun url => url ∉ newGrpcUrls) c
  rw [reload_eq_ok h, (foldl_spawn _ _).2.2]
  apply or_congr
  · exact ((foldl_abort _ c).2.2 id url).trans (by simp)
  · simp only [hlen]

theorem undisturbed_reload (h : c.reload parses newGrpcUrls = .ok c') : c.Undisturbed c' := by
  intro id url hlive _ hnew
  rw [grpcUrls_reload h] at hnew
  rw [live_reload h]
  exact .inl ⟨hlive, fun hgone => hgone.1.2 hnew⟩

theorem lookup_reload_of_mem {url : String} (h : c.reload parses newGrpcUrls = .ok c')
    (hold : url ∈ c.grpcUrls) (hnew : url ∈ newGrpcUrls) :
    c'.allTasks.lookup url = c.allTasks.lookup url := by
  rw [reload_eq_ok h, (foldl_spawn _ _).2.1 url (by simp [hold])]
  exact ((foldl_abort _ c).2.1 url).trans (if_neg (by simp [hnew]))

theorem lookup_reload_of_spawned {url : String} {k : ℕ} (h : c.reload parses newGrpcUrls = .ok c')
    (hnodup : (newGrpcUrls.filter fun url => url ∉ c.grpcUrls).Nodup)
    (hk : (newGrpcUrls.filter fun url => url ∉ c.grpcUrls)[k]? = some url) :
    c'.allTasks.lookup url = some (c.tasks.length + k) := by
  have hlen := length_tasks_foldl_abort (c.grpcUrls.filter fun url => url ∉ newGrpcUrls) c
  rw [reload_eq_ok h, lookup_foldl_spawn hnodup _ hk]
  simp only [hlen]

/-- A reload keeps tasks and list in step exactly when it spawns no URL twice. -/
theorem mem_of_spawned {k : ℕ} {url : String}
    (hk : (newGrpcUrls.filter fun url => url ∉ c.grpcUrls)[k]? = some url) :
    url ∈ newGrpcUrls ∧ url ∉ c.grpcUrls := by
  simpa using List.mem_of_getElem? hk

-- two places of one URL in the list are two tasks for it
theorem nodup_of_reconciled_reload (h : c.reload parses newGrpcUrls = .ok c')
    (hc' : c'.Reconciled) : (newGrpcUrls.filter fun url => url ∉ c.grpcUrls).Nodup := by
  have hlive := live_reload h
  rw [List.nodup_iff_getElem?_ne_getElem?]
  intro i j hij hj heq
  obtain ⟨url, hjurl⟩ : ∃ url, (newGrpcUrls.filter fun url => url ∉ c.grpcUrls)[j]? = some url :=
    ⟨_, List.getElem?_eq_getElem hj⟩
  have hi : c'.Live (c.tasks.length + i) url :=
    (hlive _ url).mpr (.inr ⟨i, rfl, heq.trans hjurl⟩)
  have hj : c'.Live (c.tasks.length + j) url := (hlive _ url).mpr (.inr ⟨j, rfl, hjurl⟩)
  have hurl : url ∈ c'.grpcUrls := grpcUrls_reload h ▸ (mem_of_spawned hjurl).1
  have huniq := (hc'.exactlyOne url hurl).unique hi hj
  exact Nat.ne_of_lt hij (Nat.add_left_cancel huniq)

theorem Reconciled.exactlyOne_reload (hc : c.Reconciled) (h : c.reload parses newGrpcUrls = .ok c')
    (hnodup : (newGrpcUrls.filter fun url => url ∉ c.grpcUrls).Nodup) {url : String}
    (hurl : url ∈ c'.grpcUrls) : ∃! id, c'.Live id url := by
  have hlive := live_reload h
  have hnew : url ∈ newGrpcUrls := grpcUrls_reload h ▸ hurl
  by_cases hold : url ∈ c.grpcUrls
  · obtain ⟨id, hid, huniq⟩ := hc.exactlyOne url hold
    refine ⟨id, undisturbed_reload h id url hid hold hurl, fun id' hid' => ?_⟩
    rcases (hlive id' url).mp hid' with ⟨hrun, -⟩ | ⟨k, -, hk⟩
    · exact huniq id' hrun
    · exact absurd hold (mem_of_spawned hk).2
  · have hmem : url ∈ newGrpcUrls.filter fun url => url ∉ c.grpcUrls := by
      simp [hnew, hold]
    obtain ⟨k, hk⟩ := List.mem_iff_getElem?.mp hmem
    refine ⟨c.tasks.length + k, (hlive _ url).mpr (.inr ⟨k, rfl, hk⟩), fun id' hid' => ?_⟩
    rcases (hlive id' url).mp hid' with ⟨hrun, -⟩ | ⟨k', rfl, hk'⟩
    · exact absurd (hc.listed id' url hrun) hold
    · have hk'' := lookup_reload_of_spawned h hnodup hk'
      rw [lookup_reload_of_spawned h hnodup hk] at hk''
      exact (Option.some.inj hk'').symm

theorem Reconciled.reload (hc : c.Reconciled) (h : c.reload parses newGrpcUrls = .ok c')
    (hnodup : (newGrpcUrls.filter fun url => url ∉ c.grpcUrls).Nodup) : c'.Reconciled := by
  have hlive := live_reload h
  -- a task that ran before is for a URL listed before; it still runs if the URL is listed still
  have hkept {id : TaskId} {url : String} (hold : c.Live id url)
      (hgone : ¬ ((url ∈ c.grpcUrls ∧ url ∉ newGrpcUrls) ∧ c.allTasks.lookup url = some id)) :
      url ∈ c.grpcUrls ∧ url ∈ newGrpcUrls := by
    have hlisted := hc.listed id url hold
    by_contra hnew
    exact hgone ⟨⟨hlisted, fun hmem => hnew ⟨hlisted, hmem⟩⟩, hc.handled id url hold⟩
  refine ⟨fun url hurl => hc.exactlyOne_reload h hnodup hurl, fun id url hrun => ?_,
    fun id url hrun => ?_⟩
  · rw [grpcUrls_reload h]
    rcases (hlive id url).mp hrun with ⟨hold, hgone⟩ | ⟨k, -, hk⟩
    · exact (hkept hold hgone).2
    · exact (mem_of_spawned hk).1
  · rcases (hlive id url).mp hrun with ⟨hold, hgone⟩ | ⟨k, rfl, hk⟩
    · obtain ⟨hlisted, hnew⟩ := hkept hold hgone
      rw [lookup_reload_of_mem h hlisted hnew, hc.handled id url hold]
    · exact lookup_reload_of_spawned h hnodup hk

theorem reconciled_reload_iff (hc : c.Reconciled) (h : c.reload parses newGrpcUrls = .ok c') :
    c'.Reconciled ↔ (newGrpcUrls.filter fun url => url ∉ c.grpcUrls).Nodup :=
  ⟨nodup_of_reconciled_reload h, hc.reload h⟩

end Reload

end Connections

/-! ## The process -/

/-- `main` with the task of `handle_signals` and the channel between them. -/
structure Main where
  connections : Connections
  /-- `grpc_urls_channel`, of capacity 1 -/
  channel : List (List String)
  /-- the list `handle_signals` has read and not yet sent -/
  signalled : Option (List String)

inductive MainEvent
  | sighup (file : UrlsFile)
  | send
  | recv

namespace Main

variable (parses : String → Bool)

def start (file : UrlsFile) : Except String Main :=
  match readGrpcUrlsFromFile file with
  | .error _ => .error "failed to read gRPC urls from file"
  | .ok grpcUrls =>
    match Connections.buildTasks parses grpcUrls (.idle grpcUrls) with
    | .error panic => .error panic
    | .ok connections => .ok ⟨connections, [], none⟩

inductive Step : Main → MainEvent → Main → Prop
  -- a file that cannot be read is ignored
  | sighup {s : Main} {file : UrlsFile} (idle : s.signalled = none) :
      Step s (.sighup file) { s with signalled := (readGrpcUrlsFromFile file).toOption }
  | send {s : Main} {urls : List String} (hurls : s.signalled = some urls)
      (room : s.channel.length < 1) :
      Step s .send { s with channel := s.channel ++ [urls], signalled := none }
  | recv {s : Main} {newGrpcUrls : List String} {rest : List (List String)}
      {connections : Connections} (next : s.channel = newGrpcUrls :: rest)
      (ok : s.connections.reload parses newGrpcUrls = .ok connections) :
      Step s .recv { s with connections, channel := rest }

/-- The step spawns no URL twice. -/
def SpawnsOnce (s : Main) : MainEvent → Prop
  | .recv => ∀ newGrpcUrls rest, s.channel = newGrpcUrls :: rest →
      (newGrpcUrls.filter fun url => url ∉ s.connections.grpcUrls).Nodup
  | _ => True

/-! ## Every state of every run -/

section Runs

variable {parses : String → Bool} {file : UrlsFile} {s₀ s s' : Main} {event : MainEvent}
  {tr : List (Main × MainEvent)}

theorem reload_idle (parses : String → Bool) (urls : List String) :
    (Connections.idle []).reload parses urls = Connections.buildTasks parses urls (.idle urls) := by
  have hall : urls.filter (fun url => url ∉ (Connections.idle []).grpcUrls) = urls := by
    simp [Connections.idle]
  unfold Connections.reload
  simp only [hall]
  cases urls with
  | nil => rfl
  | cons url rest => rfl

theorem reconciled_idle : (Connections.idle []).Reconciled := by
  constructor <;> simp [Connections.idle, Connections.Live]

theorem reconciled_start_iff (h : start parses file = .ok s₀) :
    s₀.connections.Reconciled ↔ ∀ urls, readGrpcUrlsFromFile file = .ok urls → urls.Nodup := by
  unfold start at h
  split at h
  · simp at h
  next urls hread =>
    split at h
    · simp at h
    next connections hbuild =>
      obtain rfl := Except.ok.inj h
      rw [← reload_idle] at hbuild
      have hiff := Connections.reconciled_reload_iff reconciled_idle hbuild
      rw [hiff]
      simp [Connections.idle, hread]

theorem reconciled_step_iff (hc : s.connections.Reconciled) (hs : Step parses s event s') :
    s'.connections.Reconciled ↔ s.SpawnsOnce event := by
  cases hs with
  | sighup idle => exact iff_of_true hc trivial
  | send hurls room => exact iff_of_true hc trivial
  | recv next ok =>
    rw [Connections.reconciled_reload_iff hc ok]
    constructor
    · intro hnodup newGrpcUrls rest hnext
      obtain ⟨rfl, -⟩ := List.cons.inj (next.symm.trans hnext)
      exact hnodup
    · intro honce
      exact honce _ _ next

theorem undisturbed_step (hs : Step parses s event s') :
    s.connections.Undisturbed s'.connections := by
  cases hs with
  | sighup idle => exact fun _ _ hlive _ _ => hlive
  | send hurls room => exact fun _ _ hlive _ _ => hlive
  | recv next ok => exact Connections.undisturbed_reload ok

/-- In every state of a run there is exactly one running task per URL listed, with its handle, and
no reload disturbs a URL that stays, exactly when neither the start nor any reload spawns a URL
twice. -/
theorem reconciled_iff (hstart : start parses file = .ok s₀) (h : Run (Step parses) s₀ tr s) :
    (((∀ x ∈ tr, x.1.connections.Reconciled) ∧ s.connections.Reconciled) ∧
      ∀ x ∈ tr, ∀ s', Step parses x.1 x.2 s' → x.1.connections.Undisturbed s'.connections) ↔
    (∀ urls, readGrpcUrlsFromFile file = .ok urls → urls.Nodup) ∧
      ∀ x ∈ tr, x.1.SpawnsOnce x.2 := by
  have hkeep : ∀ x ∈ tr, ∀ s', Step parses x.1 x.2 s' →
      x.1.connections.Undisturbed s'.connections := fun x _ s' => undisturbed_step
  rw [and_iff_left hkeep, ← reconciled_start_iff hstart]
  by_cases h₀ : s₀.connections.Reconciled
  · rw [and_iff_right h₀]
    exact h.forall_states_iff (P := fun t => t.connections.Reconciled) h₀
      fun t a u ht hs => reconciled_step_iff ht hs
  · refine iff_of_false ?_ fun hc => h₀ hc.1
    rintro ⟨hall, hend⟩
    -- the start is the first state of the run
    rcases h.start_mem_or_eq with rfl | ⟨a, hmem⟩
    · exact h₀ hend
    · exact h₀ (hall _ hmem)

theorem run_sighup {c c' : Connections} {urls : List String} (hurls : "" ∉ urls)
    (hreload : c.reload parses urls = .ok c') :
    Run (Step parses) ⟨c, [], none⟩
      [(⟨c, [], none⟩, .sighup (urlsFile urls)), (⟨c, [], some urls⟩, .send),
        (⟨c, [urls], none⟩, .recv)] ⟨c', [], none⟩ := by
  have hread : (readGrpcUrlsFromFile (urlsFile urls)).toOption = some urls := by
    rw [readGrpcUrlsFromFile_urlsFile hurls]
    rfl
  have hsignal : Step parses ⟨c, [], none⟩ (.sighup (urlsFile urls)) ⟨c, [], some urls⟩ := by
    rw [← hread]
    exact .sighup rfl
  have hsend : Step parses ⟨c, [], some urls⟩ .send ⟨c, [urls], none⟩ := .send rfl Nat.zero_lt_one
  have hrecv : Step parses ⟨c, [urls], none⟩ .recv ⟨c', [], none⟩ := .recv rfl hreload
  exact (((Run.nil _).snoc hsignal).snoc hsend).snoc hrecv

end Runs

/-! ## Two lists -/

/-- The tasks for "http://a" and "http://b" after the start. -/
def twoServers : Main :=
  ⟨((Connections.idle ["http://a", "http://b"]).spawn "http://a").spawn "http://b", [], none⟩

/-- The first server goes, a third one comes, and the second keeps its task. -/
theorem reconciled_after_sighup :
    ∃ tr s, Run (Step fun _ => true) twoServers tr s ∧
      s.connections.grpcUrls = ["http://b", "http://c"] ∧ s.connections.Reconciled ∧
      twoServers.connections.Live 1 "http://b" ∧ s.connections.Live 1 "http://b" := by
  have hstart : start (fun _ => true) (urlsFile ["http://a", "http://b"]) = .ok twoServers := by
    unfold start
    rw [readGrpcUrlsFromFile_urlsFile (by decide)]
    rfl
  have hrun := @run_sighup (fun _ => true) twoServers.connections _ ["http://b", "http://c"]
    (by decide) rfl
  refine ⟨_, _, hrun, rfl, ((reconciled_iff hstart hrun).mpr ⟨?_, ?_⟩).1.2, rfl, rfl⟩
  · intro urls hread
    rw [readGrpcUrlsFromFile_urlsFile (by decide)] at hread
    obtain rfl := Except.ok.inj hread
    decide
  · simp only [List.forall_mem_cons]
    refine ⟨trivial, trivial, ?_, by simp⟩
    rintro newGrpcUrls rest ⟨⟩
    decide

/-- The tasks of a file that lists one server twice: the first has no handle. -/
def repeatedServer : Main :=
  ⟨((Connections.idle ["http://a", "http://a"]).spawn "http://a").spawn "http://a", [], none⟩

/-- A server listed twice gets two connections; one of them stays when it is listed no more. -/
theorem repeated_server_not_reconciled :
    start (fun _ => true) (urlsFile ["http://a", "http://a"]) = .ok repeatedServer ∧
      repeatedServer.connections.Live 0 "http://a" ∧
      repeatedServer.connections.Live 1 "http://a" ∧ ¬ repeatedServer.connections.Reconciled ∧
      ∃ s, Reachable (Step fun _ => true) repeatedServer s ∧ s.connections.grpcUrls = [] ∧
        s.connections.allTasks.lookup "http://a" = none ∧ s.connections.Live 0 "http://a" := by
  have hstart : start (fun _ => true) (urlsFile ["http://a", "http://a"]) = .ok repeatedServer := by
    unfold start
    rw [readGrpcUrlsFromFile_urlsFile (by decide)]
    rfl
  refine ⟨hstart, rfl, rfl, fun h => ?_, ?_⟩
  · exact absurd (h.handled 0 "http://a" rfl) (by decide)
  · have hrun := @run_sighup (fun _ => true) repeatedServer.connections _ [] (by simp) rfl
    exact ⟨_, ⟨_, hrun⟩, rfl, rfl, rfl⟩

end Main

end Mtransaction
