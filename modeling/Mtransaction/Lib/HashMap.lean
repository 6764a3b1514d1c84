import Mathlib.Data.List.AList
import Mathlib.Data.List.Nodup
import Mathlib.Data.List.Dedup
import Mathlib.Data.Finset.Dedup

/-!
# Hash maps with an unspecified iteration order

A hash map is an association list without repeated keys, for which Mathlib has `lookup`, `insert`
and `erase`.  The order a program sees while iterating is not a function of the contents, so it is
an argument: a `HashOrder` rearranges whatever list it is given.
-/

/-- Finite maps as a program's hash tables hold them. -/
abbrev HashMap (κ ν : Type*) := AList fun _ : κ => ν

/-- One iteration order: the order in which the elements of a hash container come out. -/
structure HashOrder (α : Type*) where
  arrange : List α → List α
  perm : ∀ l, (arrange l).Perm l

namespace HashOrder

variable {α : Type*}

/-- The order of insertion, newest first for `HashMap`. -/
def stored : HashOrder α := ⟨fun l => l, fun _ => .refl _⟩

/-- The order that puts `a` first wherever it occurs. -/
def first [DecidableEq α] (a : α) : HashOrder α where
  arrange l := if a ∈ l then a :: l.erase a else l
  perm l := by
    split
    next h => exact (List.perm_cons_erase h).symm
    next => exact .refl _

theorem arrange_first [DecidableEq α] {a : α} {l : List α} (h : a ∈ l) :
    (first a).arrange l = a :: l.erase a := if_pos h

variable (o : HashOrder α) {l : List α} {a : α}

/-- The other way round. -/
def reversed : HashOrder α :=
  ⟨fun l => (o.arrange l).reverse, fun l => (List.reverse_perm _).trans (o.perm l)⟩

theorem exists_arrange_reversed_first [DecidableEq α] (h : a ∈ l) :
    ∃ pre, (first a).reversed.arrange l = pre ++ [a] := by
  refine ⟨(l.erase a).reverse, ?_⟩
  show ((first a).arrange l).reverse = _
  rw [arrange_first h, List.reverse_cons]

@[simp] theorem mem_arrange : a ∈ o.arrange l ↔ a ∈ l := (o.perm l).mem_iff

@[simp] theorem length_arrange : (o.arrange l).length = l.length := (o.perm l).length_eq

end HashOrder

/-- Finite sets as a program's hash tables hold them.  Two of them are equal to the program when
they have the same elements, that is the same `toFinset`. -/
structure HashSet (α : Type*) where
  elems : List α
  nodup : elems.Nodup

namespace HashSet

variable {α : Type*} [DecidableEq α]

instance : EmptyCollection (HashSet α) := ⟨⟨[], List.nodup_nil⟩⟩

def collect (l : List α) : HashSet α := ⟨l.dedup, l.nodup_dedup⟩

def toFinset (s : HashSet α) : Finset α := s.elems.toFinset

@[simp] theorem mem_toFinset {s : HashSet α} {a : α} : a ∈ s.toFinset ↔ a ∈ s.elems :=
  List.mem_toFinset

@[simp] theorem mem_collect {l : List α} {a : α} : a ∈ (collect l).elems ↔ a ∈ l := List.mem_dedup

end HashSet

namespace AList

variable {κ ν ν' : Type*}

def toPairs (m : AList fun _ : κ => ν) : List (κ × ν) := m.entries.map fun e => (e.1, e.2)

def values (m : AList fun _ : κ => ν) : List ν := m.entries.map Sigma.snd

/-- Replace every value by a function of its key and itself. -/
def mapValues (f : κ → ν → ν') (m : AList fun _ : κ => ν) : AList fun _ : κ => ν' where
  entries := m.entries.map fun e => ⟨e.1, f e.1 e.2⟩
  nodupKeys := by
    have h := m.nodupKeys
    rw [List.NodupKeys, List.keys] at h ⊢
    rwa [List.map_map]

/-- The pairs in the order `o` lets a program see them. -/
def iter (o : HashOrder (κ × ν)) (m : AList fun _ : κ => ν) : List (κ × ν) := o.arrange m.toPairs

variable (m : AList fun _ : κ => ν)

theorem map_snd_toPairs : m.toPairs.map Prod.snd = m.values := by
  simp [toPairs, values]

-- keys never repeat, in whatever order they come out
theorem nodup_fst_toPairs : (m.toPairs.map Prod.fst).Nodup := by
  have h := m.nodupKeys
  rw [List.NodupKeys, List.keys] at h
  rwa [toPairs, List.map_map]

theorem iter_perm (o : HashOrder (κ × ν)) : (m.iter o).Perm m.toPairs := o.perm _

theorem nodup_fst_iter (o : HashOrder (κ × ν)) : ((m.iter o).map Prod.fst).Nodup :=
  ((m.iter_perm o).map _).nodup_iff.mpr m.nodup_fst_toPairs

@[simp] theorem length_toPairs : m.toPairs.length = m.entries.length := by simp [toPairs]

theorem values_mapValues (f : κ → ν → ν') :
    (m.mapValues f).values = m.toPairs.map fun e => f e.1 e.2 := by
  simp [values, mapValues, toPairs]

variable [DecidableEq κ] {m} {k k' : κ} {v : ν}

-- membership in any list of pairs of a map is a lookup
theorem mem_toPairs : (k, v) ∈ m.toPairs ↔ m.lookup k = some v := by
  rw [← Option.mem_def, mem_lookup_iff, toPairs, List.mem_map]
  constructor
  · rintro ⟨⟨k', v'⟩, he, h⟩
    obtain ⟨rfl, rfl⟩ := Prod.mk.inj h
    exact he
  · intro h
    exact ⟨⟨k, v⟩, h, rfl⟩

theorem mem_iter {o : HashOrder (κ × ν)} : (k, v) ∈ m.iter o ↔ m.lookup k = some v := by
  rw [iter, o.mem_arrange, mem_toPairs]

theorem mem_values : v ∈ m.values ↔ ∃ k, m.lookup k = some v := by
  simp only [← m.map_snd_toPairs, List.mem_map, Prod.exists, mem_toPairs]
  exact ⟨fun ⟨k, _, h, hv⟩ => ⟨k, hv ▸ h⟩, fun ⟨k, h⟩ => ⟨k, v, h, rfl⟩⟩

theorem lookup_mapValues (f : κ → ν → ν') (k : κ) :
    (m.mapValues f).lookup k = (m.lookup k).map (f k) := by
  exact List.dlookup_map₂ k

-- one equation for both keys, so that callers need not split first
theorem lookup_insert_eq_ite (k k' : κ) (v : ν) :
    (m.insert k v).lookup k' = if k' = k then some v else m.lookup k' := by
  split
  next h => subst h; exact lookup_insert m
  next h => exact lookup_insert_ne h

theorem lookup_erase_eq_ite (k k' : κ) :
    (m.erase k).lookup k' = if k' = k then none else m.lookup k' := by
  split
  next h => subst h; exact lookup_erase k' m
  next h => exact lookup_erase_ne h

/-- Taking an entry out takes its value out of the values. -/
theorem values_perm_erase (h : m.lookup k = some v) : m.values.Perm (v :: (m.erase k).values) := by
  have hkey : k ∈ m.entries.keys := AList.mem_keys.mp (lookup_isSome.mp (by simp [h]))
  obtain ⟨v', pre, post, hpre, heq, herase⟩ := List.exists_of_kerase hkey
  have hv : v' = v := by
    have hlook : m.entries.dlookup k = some v' := by
      rw [heq, List.dlookup_append, List.dlookup_eq_none.mpr hpre]
      simp
    exact Option.some.inj (hlook.symm.trans h)
  have hentries : (m.erase k).entries = pre ++ post := herase
  rw [values, values, heq, hentries, ← hv]
  simp only [List.map_append, List.map_cons]
  exact List.perm_middle

/-! ## Collecting pairs into a map -/

/-- Collect pairs into a map; of two pairs with one key the later stays. -/
def collect (l : List (κ × ν)) : AList fun _ : κ => ν :=
  l.foldl (fun m e => m.insert e.1 e.2) ∅

-- keys that are not collected keep what they had
theorem lookup_foldl_insert_of_notMem (l : List (κ × ν)) (m : AList fun _ : κ => ν)
    (h : k ∉ l.map Prod.fst) :
    (l.foldl (fun m e => m.insert e.1 e.2) m).lookup k = m.lookup k := by
  induction l generalizing m with
  | nil => rfl
  | cons e l ih =>
    simp only [List.map_cons, List.mem_cons, not_or] at h
    rw [List.foldl_cons, ih _ h.2, lookup_insert_ne h.1]

theorem lookup_collect_eq_none {l : List (κ × ν)} (h : k ∉ l.map Prod.fst) :
    (collect l).lookup k = none := by
  rw [collect, lookup_foldl_insert_of_notMem l ∅ h, lookup_empty]

-- of the pairs with one key the last is in the map, whatever was there before
theorem lookup_foldl_insert_of_mem {l : List (κ × ν)} (hmem : (k, v) ∈ l)
    (hfun : ∀ v', (k, v') ∈ l → v' = v) (m : AList fun _ : κ => ν) :
    (l.foldl (fun m e => m.insert e.1 e.2) m).lookup k = some v := by
  induction l generalizing m with
  | nil => simp at hmem
  | cons e l ih =>
    rw [List.foldl_cons]
    -- a later pair with the key overrides this one, with the same value
    by_cases hk : k ∈ l.map Prod.fst
    · obtain ⟨⟨k', v'⟩, hv', rfl⟩ := List.mem_map.mp hk
      have hvv : v' = v := hfun v' (List.mem_cons_of_mem _ hv')
      exact ih (hvv ▸ hv') (fun w hw => hfun w (List.mem_cons_of_mem _ hw)) _
    · rw [lookup_foldl_insert_of_notMem l _ hk]
      rcases List.mem_cons.mp hmem with rfl | hmem
      · exact lookup_insert m
      · exact absurd (List.mem_map_of_mem (f := Prod.fst) hmem) hk

-- what is in the map was inserted, or was there before
theorem mem_or_lookup_of_lookup_foldl_insert {l : List (κ × ν)} {m : AList fun _ : κ => ν}
    (h : (l.foldl (fun m e => m.insert e.1 e.2) m).lookup k = some v) :
    (k, v) ∈ l ∨ m.lookup k = some v := by
  induction l generalizing m with
  | nil => exact .inr h
  | cons e l ih =>
    rcases ih h with hmem | hlook
    · exact .inl (List.mem_cons_of_mem _ hmem)
    · rw [lookup_insert_eq_ite] at hlook
      split at hlook
      next hk =>
        obtain rfl := Option.some.inj hlook
        exact .inl (hk ▸ List.mem_cons_self)
      next => exact .inr hlook

theorem mem_of_lookup_collect {l : List (κ × ν)} (h : (collect l).lookup k = some v) :
    (k, v) ∈ l := by
  rcases mem_or_lookup_of_lookup_foldl_insert h with hmem | hlook
  · exact hmem
  · simp at hlook

/-- Where all pairs with one key agree on the value, the collected map holds it. -/
theorem lookup_collect {l : List (κ × ν)} (hmem : (k, v) ∈ l)
    (hfun : ∀ v', (k, v') ∈ l → v' = v) : (collect l).lookup k = some v :=
  lookup_foldl_insert_of_mem hmem hfun ∅

theorem lookup_collect_eq_some_iff {l : List (κ × ν)} (hkeys : (l.map Prod.fst).Nodup) :
    (collect l).lookup k = some v ↔ (k, v) ∈ l := by
  have hfun : ∀ w w', (k, w) ∈ l → (k, w') ∈ l → w' = w := by
    intro w w' hw hw'
    have := List.inj_on_of_nodup_map hkeys hw hw' rfl
    exact (Prod.mk.inj this).2.symm
  exact ⟨mem_of_lookup_collect, fun h => lookup_collect h fun v' hv' => hfun v v' h hv'⟩

end AList
