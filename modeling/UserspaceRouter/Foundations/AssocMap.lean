import Mathlib.Algebra.BigOperators.Group.List.Basic
import Mathlib.Data.List.AList
import Mathlib.Data.List.Induction

/-!
# Association maps with `retain`

The finite maps of this development are Mathlib's association lists `AList`, read at a
non-dependent value type: a list of entries whose keys are pairwise distinct, so a map with two
values for one key cannot be built. Mathlib supplies `lookup`, `insert` and `erase`; what a
table that is also *swept* needs on top is `retain`, which keeps the entries a predicate accepts.
`insertAll` fills a map from a list of entries, the later ones replacing the earlier, `mapValues`
replaces the values by their images, and `total` adds up what the values amount to.

The lookup lemmas are stated here in one shape, a conditional on the key being asked for, so that
a proof about several updates of one table is a chain of rewrites and never opens the entry list.
-/

namespace AList

variable {K V : Type*} [DecidableEq K]

/-- Looking up after an insertion: the inserted value at its key, the old answer elsewhere. -/
theorem lookup_insert_ite (m : AList fun _ : K ↦ V) (k k' : K) (v : V) :
    (m.insert k v).lookup k' = if k' = k then some v else m.lookup k' := by
  split_ifs with h
  · subst h
    exact AList.lookup_insert m
  · exact AList.lookup_insert_ne h

/-- Looking up after an erasure: nothing at the erased key, the old answer elsewhere. -/
theorem lookup_erase_ite (m : AList fun _ : K ↦ V) (k k' : K) :
    (m.erase k).lookup k' = if k' = k then none else m.lookup k' := by
  split_ifs with h
  · subst h
    exact AList.lookup_erase _ m
  · exact AList.lookup_erase_ne h

/-- The two updates of a map, read as updates of its lookup function. -/
theorem lookup_insert_eq_update (m : AList fun _ : K ↦ V) (k : K) (v : V) :
    (fun k' ↦ (m.insert k v).lookup k') = Function.update (fun k' ↦ m.lookup k') k (some v) := by
  funext k'
  rw [lookup_insert_ite, Function.update_apply]

theorem lookup_erase_eq_update (m : AList fun _ : K ↦ V) (k : K) :
    (fun k' ↦ (m.erase k).lookup k') = Function.update (fun k' ↦ m.lookup k') k none := by
  funext k'
  rw [lookup_erase_ite, Function.update_apply]

theorem mem_iff_lookup {m : AList fun _ : K ↦ V} {k : K} : k ∈ m ↔ ∃ v, m.lookup k = some v := by
  rw [← AList.lookup_isSome, Option.isSome_iff_exists]

/-- A value no key has is a value of no entry. -/
theorem forall_lookup_ne_iff {m : AList fun _ : K ↦ V} {v : V} :
    (∀ k, m.lookup k ≠ some v) ↔ ∀ e ∈ m.entries, e.2 ≠ v := by
  constructor
  · rintro h ⟨k, v'⟩ he rfl
    exact h k (Option.mem_def.1 (AList.mem_lookup_iff.2 he))
  · intro h k hk
    exact h ⟨k, v⟩ (AList.mem_lookup_iff.1 (Option.mem_def.2 hk)) rfl

/-- What the entries of one key contribute is what its value contributes: there is at most one. -/
theorem flatMap_entries_ite {β : Type*} (m : AList fun _ : K ↦ V) (f : V → List β) (k : K) :
    (m.entries.flatMap fun e ↦ if e.1 = k then f e.2 else []) = ((m.lookup k).map f).getD [] := by
  obtain ⟨l, hl⟩ := m
  show (l.flatMap fun e ↦ if e.1 = k then f e.2 else []) = ((l.dlookup k).map f).getD []
  induction l with
  | nil => rfl
  | cons e l ih =>
    obtain ⟨k', v⟩ := e
    obtain ⟨hnot, hl'⟩ := List.nodupKeys_cons.1 hl
    rw [List.flatMap_cons, ih hl']
    by_cases hk : k' = k
    · subst hk
      have hnone : l.dlookup k' = none := List.dlookup_eq_none.2 hnot
      rw [List.dlookup_cons_eq, hnone]
      simp
    · rw [List.dlookup_cons_ne _ _ (Ne.symm hk), if_neg hk]
      rfl

omit [DecidableEq K] in
/-- The keys of a list of entries that has been filtered, with new values for those kept. -/
theorem nodupKeys_filterMap {l : List (Sigma fun _ : K ↦ V)} (h : l.NodupKeys)
    (f : K → V → Option V) :
    (l.filterMap fun e ↦ (f e.1 e.2).map fun v ↦ (⟨e.1, v⟩ : Sigma fun _ : K ↦ V)).NodupKeys := by
  induction l with
  | nil => exact List.nodupKeys_nil
  | cons e l ih =>
    obtain ⟨hnot, hl⟩ := List.nodupKeys_cons.1 h
    rw [List.filterMap_cons]
    rcases hf : f e.1 e.2 with - | v
    · exact ih hl
    · refine List.nodupKeys_cons.2 ⟨fun hmem ↦ hnot ?_, ih hl⟩
      obtain ⟨e', he', hkey⟩ := List.mem_map.1 hmem
      obtain ⟨e₀, he₀, heq⟩ := List.mem_filterMap.1 he'
      obtain ⟨v', -, rfl⟩ := Option.map_eq_some_iff.1 heq
      exact List.mem_map.2 ⟨e₀, he₀, hkey⟩

omit [DecidableEq K] in
/-- Give every entry a new value, or drop it, in their old order. -/
def retainMap (f : K → V → Option V) (m : AList fun _ : K ↦ V) : AList fun _ : K ↦ V :=
  ⟨m.entries.filterMap fun e ↦ (f e.1 e.2).map fun v ↦ ⟨e.1, v⟩, nodupKeys_filterMap m.nodupKeys f⟩

/-- What is found after `retainMap` is what `f` makes of what was found before. -/
theorem lookup_retainMap (f : K → V → Option V) (m : AList fun _ : K ↦ V) (k : K) :
    (m.retainMap f).lookup k = (m.lookup k).bind (f k) := by
  ext v
  rw [← Option.mem_def, AList.mem_lookup_iff]
  show _ ∈ m.entries.filterMap _ ↔ _
  rw [List.mem_filterMap, Option.bind_eq_some_iff]
  constructor
  · rintro ⟨e, he, heq⟩
    obtain ⟨v', hv', heq⟩ := Option.map_eq_some_iff.1 heq
    obtain ⟨rfl, hv⟩ := Sigma.mk.inj heq
    obtain rfl := eq_of_heq hv
    exact ⟨e.2, Option.mem_def.1 (AList.mem_lookup_iff.2 he), hv'⟩
  · rintro ⟨v', hv', hf⟩
    exact ⟨⟨k, v'⟩, AList.mem_lookup_iff.1 hv', by simp [hf]⟩

omit [DecidableEq K] in
theorem nodupKeys_filter {l : List (Sigma fun _ : K ↦ V)} (h : l.NodupKeys)
    (p : (Sigma fun _ : K ↦ V) → Bool) : (l.filter p).NodupKeys :=
  h.sublist List.filter_sublist

omit [DecidableEq K] in
/-- Keep exactly the entries that `p` accepts, in their old order. -/
def retain (p : K → V → Bool) (m : AList fun _ : K ↦ V) : AList fun _ : K ↦ V :=
  ⟨m.entries.filter fun e ↦ p e.1 e.2, nodupKeys_filter m.nodupKeys _⟩

/-- A retained entry is an old entry that passed the test. Keys being distinct is what makes this
an equation about `lookup`: a rejected entry uncovers no older one. -/
theorem lookup_retain (p : K → V → Bool) (m : AList fun _ : K ↦ V) (k : K) :
    (m.retain p).lookup k = (m.lookup k).filter (p k) := by
  ext v
  rw [← Option.mem_def, AList.mem_lookup_iff]
  show _ ∈ m.entries.filter _ ↔ _
  rw [List.mem_filter, Option.filter_eq_some_iff, ← Option.mem_def, AList.mem_lookup_iff]

/-- Nothing changes if every entry is given the value it has. -/
theorem retainMap_eq_self {f : K → V → Option V} {m : AList fun _ : K ↦ V}
    (h : ∀ k v, m.lookup k = some v → f k v = some v) : m.retainMap f = m := by
  refine AList.ext ?_
  show m.entries.filterMap _ = m.entries
  have hsome : ∀ e ∈ m.entries, (f e.1 e.2).map (fun v ↦ (⟨e.1, v⟩ : Sigma fun _ : K ↦ V)) =
      some e := by
    intro e he
    rw [h e.1 e.2 (Option.mem_def.1 (AList.mem_lookup_iff.2 he))]
    rfl
  rw [List.filterMap_congr hsome, List.filterMap_some]

/-- Nothing changes if every entry is accepted. -/
theorem retain_eq_self {p : K → V → Bool} {m : AList fun _ : K ↦ V}
    (h : ∀ k v, m.lookup k = some v → p k v = true) : m.retain p = m := by
  refine AList.ext ?_
  show m.entries.filter _ = m.entries
  exact List.filter_eq_self.2 fun e he ↦
    h e.1 e.2 (Option.mem_def.1 (AList.mem_lookup_iff.2 he))

/-! ### Filling a map -/

/-- Insert the pairs of a list, one after the other. -/
def insertAll (l : List (K × V)) : AList fun _ : K ↦ V := l.foldl (fun m p ↦ m.insert p.1 p.2) ∅

/-- With keys that differ, what is found is what was inserted. -/
theorem lookup_insertAll_iff {l : List (K × V)} (h : (l.map (·.1)).Nodup) {k : K} {v : V} :
    (insertAll l).lookup k = some v ↔ (k, v) ∈ l := by
  induction l using List.reverseRecOn with
  | nil => simp [insertAll]
  | append_singleton l p ih =>
    rw [List.map_append, List.nodup_append] at h
    obtain ⟨hl, -, hne⟩ := h
    have hnew : insertAll (l ++ [p]) = (insertAll l).insert p.1 p.2 := by
      rw [insertAll, List.foldl_append]
      rfl
    rw [hnew, lookup_insert_ite, List.mem_append, List.mem_singleton]
    split_ifs with hk
    · subst hk
      have hnot : (p.1, v) ∉ l := fun hmem ↦
        hne p.1 (List.mem_map.2 ⟨_, hmem, rfl⟩) p.1 (by simp) rfl
      simp [hnot, Prod.ext_iff, eq_comm]
    · rw [ih hl]
      simp [Prod.ext_iff, hk]

/-! ### New values for old -/

section MapValues

variable {V' : Type*} (g : V → V')

omit [DecidableEq K] in
/-- Replace every value by its image. -/
def mapValues (m : AList fun _ : K ↦ V) : AList fun _ : K ↦ V' :=
  ⟨m.entries.map (.map id fun _ ↦ g), m.nodupKeys.map₂ _ _⟩

theorem lookup_mapValues (m : AList fun _ : K ↦ V) (k : K) :
    (m.mapValues g).lookup k = (m.lookup k).map g := List.dlookup_map₂ k

theorem mapValues_erase (m : AList fun _ : K ↦ V) (k : K) :
    (m.erase k).mapValues g = (m.mapValues g).erase k := by
  obtain ⟨l, hl⟩ := m
  refine AList.ext ?_
  show (l.kerase k).map _ = (l.map _).kerase k
  clear hl
  induction l with
  | nil => rfl
  | cons e l ih =>
    have hkey : (e.map id (fun _ ↦ g) : Sigma fun _ : K ↦ V').1 = e.1 := rfl
    by_cases hk : k = e.1
    · rw [List.kerase_cons_eq hk, List.map_cons, List.kerase_cons_eq (hk.trans hkey.symm)]
    · rw [List.kerase_cons_ne hk, List.map_cons, List.map_cons,
        List.kerase_cons_ne (hkey.symm ▸ hk), ih]

theorem mapValues_insert (m : AList fun _ : K ↦ V) (k : K) (v : V) :
    (m.insert k v).mapValues g = (m.mapValues g).insert k (g v) := by
  refine AList.ext ?_
  rw [AList.entries_insert]
  show ((m.insert k v).entries.map _) = ⟨k, g v⟩ :: ((m.mapValues g).erase k).entries
  rw [AList.entries_insert, List.map_cons, ← mapValues_erase]
  rfl

omit [DecidableEq K] in
/-- What is done to the values one by one can be done to their images. -/
theorem mapValues_retainMap {f : K → V → Option V} {f' : K → V' → Option V'}
    (h : ∀ k v, (f k v).map g = f' k (g v)) (m : AList fun _ : K ↦ V) :
    (m.retainMap f).mapValues g = (m.mapValues g).retainMap f' := by
  refine AList.ext ?_
  show (m.entries.filterMap _).map _ = (m.entries.map _).filterMap _
  rw [List.map_filterMap, List.filterMap_map]
  refine List.filterMap_congr fun e _ ↦ ?_
  show ((f e.1 e.2).map _).map _ = (f' e.1 (g e.2)).map _
  rw [← h, Option.map_map, Option.map_map]
  rfl

end MapValues

/-! ### What the values amount to -/

section Total

variable {M : Type*} [AddCommMonoid M] (f : V → M) {m : AList fun _ : K ↦ V} {k : K} {v : V}

omit [DecidableEq K] in
/-- What the values of a map amount to. -/
def total (m : AList fun _ : K ↦ V) : M := (m.entries.map fun e ↦ f e.2).sum

/-- An entry apart from the rest. -/
theorem entries_perm_of_lookup (h : m.lookup k = some v) :
    m.entries.Perm (⟨k, v⟩ :: (m.erase k).entries) := by
  have hmem : (⟨k, v⟩ : Sigma fun _ : K ↦ V) ∈ m.entries :=
    AList.mem_lookup_iff.1 (Option.mem_def.2 h)
  obtain ⟨v', l₁, l₂, -, hl, herase⟩ := List.exists_of_kerase (List.mem_keys_of_mem hmem)
  have hv : v' = v := by
    have hmem' : (⟨k, v'⟩ : Sigma fun _ : K ↦ V) ∈ m.entries := by simp [hl]
    exact List.NodupKeys.eq_of_mk_mem m.nodupKeys hmem' hmem
  show m.entries.Perm (⟨k, v⟩ :: m.entries.kerase k)
  rw [herase, ← hv]
  nth_rewrite 1 [hl]
  exact List.perm_middle

theorem total_of_lookup (h : m.lookup k = some v) : m.total f = f v + (m.erase k).total f := by
  rw [total, ((entries_perm_of_lookup h).map _).sum_eq, List.map_cons, List.sum_cons]
  rfl

theorem erase_of_lookup_eq_none (h : m.lookup k = none) : m.erase k = m :=
  AList.ext (List.kerase_of_notMem_keys (List.dlookup_eq_none.1 h))

theorem total_insert (m : AList fun _ : K ↦ V) (k : K) (v : V) :
    (m.insert k v).total f = f v + (m.erase k).total f := by
  rw [total, AList.entries_insert, List.map_cons, List.sum_cons]
  rfl

omit [DecidableEq K] in
/-- If the entries are each worth what is made of them and a rest, so are all of them. -/
theorem total_retainMap {g : K → V → Option V} {rest : V → M}
    (h : ∀ k v, f v = ((g k v).map f).getD 0 + rest v) (m : AList fun _ : K ↦ V) :
    m.total f = (m.retainMap g).total f + m.total rest := by
  obtain ⟨l, hl⟩ := m
  show (l.map _).sum = ((l.filterMap _).map _).sum + (l.map _).sum
  clear hl
  induction l with
  | nil => simp
  | cons e l ih =>
    rw [List.map_cons, List.sum_cons, List.map_cons, List.sum_cons, ih, h e.1 e.2,
      List.filterMap_cons]
    rcases g e.1 e.2 with - | v'
    · simp only [Option.map_none, Option.getD_none, zero_add]
      exact add_left_comm _ _ _
    · simp only [Option.map_some, Option.getD_some, List.map_cons, List.sum_cons]
      exact add_add_add_comm _ _ _ _

end Total

end AList
