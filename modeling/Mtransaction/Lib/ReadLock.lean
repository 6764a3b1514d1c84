import Mtransaction.Lib.Counters
import Mtransaction.Lib.Runs

/-!
# Readers that leave marks

Tasks that hold a read lock take turns while they work through what they set out to do, and a writer
has the lock alone.  If what they do commutes, and changes nothing of what a task may set out to do,
they might as well have run one after the other, in the order in which they let go of the lock.
-/

namespace ReadLock

open Runs

/-- Tasks on a state `σ`: a reader with request `ρ` sets out to do some `α`, the outcome `ο` of each
being decided as it is done; a writer does `ω` at once. -/
structure Tasks (σ ρ α ο ω : Type*) where
  plans : ρ → σ → List α → Prop
  act : σ → α × ο → σ
  write : ω → σ → σ → Prop
  act_comm : ∀ s x y, act (act s x) y = act (act s y) x
  plans_act : ∀ r s x todo, plans r (act s x) todo ↔ plans r s todo

/-- A holder of the read lock. -/
structure Reader (ρ α ο : Type*) where
  request : ρ
  done : List (α × ο)
  remaining : List α

inductive Event (ρ α ο ω : Type*)
  | start (request : ρ)
  | act (n : ℕ) (outcome : ο)
  | finish (n : ℕ)
  | write (w : ω)

/-- What has been done once a task lets go of the lock. -/
inductive Commit (ρ α ο ω : Type*)
  | read (request : ρ) (done : List (α × ο))
  | write (w : ω)

variable {σ ρ α ο ω : Type*}

/-- The commit a step makes. -/
def committed : (σ × List (Reader ρ α ο)) × Event ρ α ο ω → Option (Commit ρ α ο ω)
  | ((_, readers), .finish n) => readers[n]?.map fun reader => .read reader.request reader.done
  | (_, .write w) => some (.write w)
  | _ => none

-- a reader commits only what it held the lock for
theorem mem_of_committed {s : σ} {readers : List (Reader ρ α ο)} {event : Event ρ α ο ω}
    {request : ρ} {done : List (α × ο)}
    (h : committed ((s, readers), event) = some (.read request done)) :
    ∃ reader ∈ readers, reader.request = request := by
  cases event with
  | finish n =>
    obtain ⟨reader, hreader, heq⟩ := Option.map_eq_some_iff.mp h
    exact ⟨reader, List.mem_of_getElem? hreader, (Commit.read.inj heq).1⟩
  | _ => simp [committed] at h

namespace Tasks

variable (T : Tasks σ ρ α ο ω)

def replay (s : σ) (done : List (α × ο)) : σ := done.foldl T.act s

/-- Readers in turns, writers alone. -/
inductive Step : σ × List (Reader ρ α ο) → Event ρ α ο ω → σ × List (Reader ρ α ο) → Prop
  | start {s : σ} {readers : List (Reader ρ α ο)} {request : ρ} {todo : List α}
      (planned : T.plans request s todo) :
      Step (s, readers) (.start request) (s, readers ++ [⟨request, [], todo⟩])
  | act {s : σ} {readers : List (Reader ρ α ο)} {n : ℕ} {reader : Reader ρ α ο} {a : α}
      {rest : List α} {outcome : ο} (hreader : readers[n]? = some reader)
      (next : reader.remaining = a :: rest) :
      Step (s, readers) (.act n outcome)
        (T.act s (a, outcome),
          readers.set n ⟨reader.request, reader.done ++ [(a, outcome)], rest⟩)
  | finish {s : σ} {readers : List (Reader ρ α ο)} {n : ℕ} {reader : Reader ρ α ο}
      (hreader : readers[n]? = some reader) (done : reader.remaining = []) :
      Step (s, readers) (.finish n) (s, readers.eraseIdx n)
  | write {s s' : σ} {w : ω} (written : T.write w s s') : Step (s, []) (.write w) (s', [])

/-- One task after the other. -/
def Serial (s : σ) : Commit ρ α ο ω → σ → Prop
  | .read request done, s' => T.plans request s (done.map Prod.fst) ∧ s' = T.replay s done
  | .write w, s' => T.write w s s'

section Replay

variable {T} {s : σ} {done done' : List (α × ο)}

theorem replay_append : T.replay s (done ++ done') = T.replay (T.replay s done) done' :=
  List.foldl_append

theorem replay_perm (h : done.Perm done') : T.replay s done = T.replay s done' :=
  h.foldl_eq' (fun x _ y _ s => T.act_comm s x y) s

theorem plans_replay {request : ρ} {todo : List α} :
    T.plans request (T.replay s done) todo ↔ T.plans request s todo := by
  induction done generalizing s with
  | nil => rfl
  | cons x done ih =>
    rw [← T.plans_act request s x todo]
    exact ih

end Replay

variable {T} {s₀ s : σ} {readers : List (Reader ρ α ο)}
  {tr : List ((σ × List (Reader ρ α ο)) × Event ρ α ο ω)}

/-- What a serial run is behind: the readers that hold the lock and what they have done so far. -/
structure Behind (T : Tasks σ ρ α ο ω) (t s : σ) (readers : List (Reader ρ α ο)) : Prop where
  state_eq : s = T.replay t (readers.flatMap Reader.done)
  planned : ∀ reader ∈ readers,
    T.plans reader.request t (reader.done.map Prod.fst ++ reader.remaining)

theorem Behind.start {t : σ} (h : T.Behind t s readers) {request : ρ} {todo : List α}
    (planned : T.plans request s todo) : T.Behind t s (readers ++ [⟨request, [], todo⟩]) := by
  constructor
  · rw [List.flatMap_append, List.flatMap_singleton, List.append_nil]
    exact h.state_eq
  · refine List.forall_mem_append.mpr ⟨h.planned, List.forall_mem_singleton.mpr ?_⟩
    rw [h.state_eq, plans_replay] at planned
    exact planned

theorem Behind.act {t : σ} (h : T.Behind t s readers) {n : ℕ} {reader : Reader ρ α ο} {a : α}
    {rest : List α} {outcome : ο} (hreader : readers[n]? = some reader)
    (next : reader.remaining = a :: rest) :
    T.Behind t (T.act s (a, outcome))
      (readers.set n ⟨reader.request, reader.done ++ [(a, outcome)], rest⟩) := by
  constructor
  · -- one action more, wherever in the list its reader stands
    have hset := Interleaving.flatMap_set_perm Reader.done
      ⟨reader.request, reader.done ++ [(a, outcome)], rest⟩ hreader
    have hperm : ((readers.set n ⟨reader.request, reader.done ++ [(a, outcome)], rest⟩).flatMap
        Reader.done).Perm (readers.flatMap Reader.done ++ [(a, outcome)]) := by
      rw [List.append_assoc, List.perm_append_left_iff] at hset
      exact hset.trans List.perm_append_comm
    rw [replay_perm hperm, replay_append, ← h.state_eq]
    rfl
  · refine Interleaving.forall_mem_set n h.planned ?_
    have hplanned := h.planned reader (List.mem_of_getElem? hreader)
    rw [next] at hplanned
    simpa using hplanned

/-- The reader that lets go is the next one of the serial run. -/
theorem Behind.finish {t : σ} (h : T.Behind t s readers) {n : ℕ} {reader : Reader ρ α ο}
    (hreader : readers[n]? = some reader) (done : reader.remaining = []) :
    T.Serial t (.read reader.request reader.done) (T.replay t reader.done) ∧
      T.Behind (T.replay t reader.done) s (readers.eraseIdx n) := by
  obtain ⟨hlt, hget⟩ := List.getElem?_eq_some_iff.mp hreader
  refine ⟨⟨?_, rfl⟩, ?_, ?_⟩
  · have hplanned := h.planned reader (List.mem_of_getElem? hreader)
    rwa [done, List.append_nil] at hplanned
  · have hperm : (readers.flatMap Reader.done).Perm
        (reader.done ++ (readers.eraseIdx n).flatMap Reader.done) := by
      rw [← List.flatMap_cons, ← hget]
      exact (List.getElem_cons_eraseIdx_perm hlt).symm.flatMap_right _
    rw [← replay_append, ← replay_perm hperm]
    exact h.state_eq
  · intro reader' hmem
    rw [plans_replay]
    exact h.planned reader' ((List.eraseIdx_sublist _ _).subset hmem)

/-- Any interleaving is behind by its readers only: the tasks that have let go of the lock ran one
after the other in that order. -/
theorem behind_of_run {x : σ × List (Reader ρ α ο)} (h : Run T.Step (s₀, []) tr x) :
    ∃ serial t, Run T.Serial s₀ serial t ∧ serial.map Prod.snd = tr.filterMap committed ∧
      T.Behind t x.1 x.2 := by
  induction h with
  | nil => exact ⟨[], s₀, .nil s₀, rfl, rfl, by simp⟩
  | @snoc _ _ tr event hr hs ih =>
    obtain ⟨serial, t, hserial, hlabels, hbehind⟩ := ih
    rw [filterMap_concat, ← hlabels]
    cases hs with
    | start planned => exact ⟨serial, t, hserial, by simp [committed], hbehind.start planned⟩
    | act hreader next => exact ⟨serial, t, hserial, by simp [committed], hbehind.act hreader next⟩
    | finish hreader done =>
      obtain ⟨hstep, hbehind'⟩ := hbehind.finish hreader done
      exact ⟨_, _, hserial.snoc hstep, by simp [committed, hreader], hbehind'⟩
    | @write s s' w written =>
      -- nobody holds the read lock: the serial run is not behind
      obtain rfl : s = t := hbehind.state_eq
      have hstep : T.Serial s (.write w) s' := written
      exact ⟨_, _, hserial.snoc hstep, by simp [committed], rfl, by simp⟩

end Tasks

end ReadLock
