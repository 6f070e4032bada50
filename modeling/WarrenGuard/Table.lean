/-
Key-value tables with an iteration order.

A table is an association list with distinct keys (Mathlib's `AList`), so that a loop over a hash
map is a loop over `entries`, and a permutation of `entries` is another order of the same map.
Added here is what a hash map offers beyond Mathlib's interface: `retain`, `retainMut`, `mapVal`,
`eraseAll` and `reorder`, each with its `lookup` lemma.
-/
import Mathlib.Data.List.AList

/-- A map from `κ` to `ν`, with the order in which it is iterated. -/
abbrev Table (κ ν : Type*) := AList fun _ : κ => ν

namespace Table

variable {κ ν : Type*}

/-- Keep the entries that satisfy `p`, in order. -/
def retain (p : κ → ν → Bool) (t : Table κ ν) : Table κ ν :=
  ⟨t.entries.filter fun e => p e.1 e.2, t.nodupKeys.sublist List.filter_sublist⟩

private theorem nodupKeys_filterMap (f : κ → ν → Option ν) {l : List (Σ _ : κ, ν)}
    (h : l.NodupKeys) :
    (l.filterMap fun e => (f e.1 e.2).map fun v => (⟨e.1, v⟩ : Σ _ : κ, ν)).NodupKeys := by
  rw [List.nodupKeys_iff_pairwise] at h ⊢
  refine List.Pairwise.filterMap _ ?_ h
  intro a a' hne b hb b' hb'
  obtain ⟨v, -, rfl⟩ := Option.map_eq_some_iff.mp hb
  obtain ⟨v', -, rfl⟩ := Option.map_eq_some_iff.mp hb'
  exact hne

/-- Update every value in place, dropping the entries whose update is `none`. -/
def retainMut (f : κ → ν → Option ν) (t : Table κ ν) : Table κ ν :=
  ⟨t.entries.filterMap fun e => (f e.1 e.2).map fun v => (⟨e.1, v⟩ : Σ _ : κ, ν),
    nodupKeys_filterMap f t.nodupKeys⟩

def mapVal {μ : Type*} (f : ν → μ) (t : Table κ ν) : Table κ μ :=
  ⟨t.entries.map fun e => ⟨e.1, f e.2⟩, by
    rw [List.NodupKeys, List.keys, List.map_map]
    exact t.nodupKeys⟩

def reorder (t : Table κ ν) (entries : List (Σ _ : κ, ν)) (h : t.entries.Perm entries) :
    Table κ ν :=
  ⟨entries, (List.perm_nodupKeys h).mp t.nodupKeys⟩

variable {k : κ} {p : κ → ν → Bool}

@[simp] theorem entries_retain (p) (t : Table κ ν) :
    (retain p t).entries = t.entries.filter fun e => p e.1 e.2 := rfl

theorem entries_mapVal {μ : Type*} (f : ν → μ) (t : Table κ ν) :
    (mapVal f t).entries = t.entries.map fun e => ⟨e.1, f e.2⟩ := rfl

theorem mapVal_retain {μ : Type*} (f : ν → μ) (t : Table κ ν)
    {q : κ → μ → Bool} (h : ∀ k v, q k (f v) = p k v) :
    mapVal f (retain p t) = retain q (mapVal f t) := by
  refine AList.ext ?_
  rw [entries_mapVal, entries_retain, entries_retain, entries_mapVal, List.filter_map]
  refine congrArg _ (List.filter_congr fun e _ => ?_)
  exact (h e.1 e.2).symm

variable [DecidableEq κ]

theorem mem_entries_iff {t : Table κ ν} {v : ν} :
    ⟨k, v⟩ ∈ t.entries ↔ t.lookup k = some v :=
  AList.mem_lookup_iff.symm

theorem lookup_of_mem_entries {t : Table κ ν} {e : Σ _ : κ, ν} (h : e ∈ t.entries) :
    t.lookup e.1 = some e.2 :=
  mem_entries_iff.mp h

theorem mem_map_filter {β : Type*} {t : Table κ ν} {q : (Σ _ : κ, ν) → Bool}
    {f : (Σ _ : κ, ν) → β} {b : β} : b ∈ (t.entries.filter q).map f ↔
      ∃ k v, t.lookup k = some v ∧ q ⟨k, v⟩ = true ∧ f ⟨k, v⟩ = b := by
  simp only [List.mem_map, List.mem_filter, Sigma.exists, mem_entries_iff, and_assoc]

theorem mem_keys_filter {t : Table κ ν} {q : (Σ _ : κ, ν) → Bool} :
    k ∈ (t.entries.filter q).map Sigma.fst ↔ ∃ v, t.lookup k = some v ∧ q ⟨k, v⟩ = true := by
  rw [mem_map_filter]
  constructor
  · rintro ⟨_, v, hl, hq, rfl⟩
    exact ⟨v, hl, hq⟩
  · rintro ⟨v, hl, hq⟩
    exact ⟨k, v, hl, hq, rfl⟩

@[simp] theorem lookup_retain (p) (t : Table κ ν) (k) :
    (retain p t).lookup k = (t.lookup k).filter (p k) := by
  ext v
  rw [← mem_entries_iff, entries_retain, List.mem_filter, mem_entries_iff,
    Option.filter_eq_some_iff]

@[simp] theorem lookup_retainMut (f : κ → ν → Option ν) (t : Table κ ν) (k) :
    (retainMut f t).lookup k = (t.lookup k).bind (f k) := by
  ext v
  rw [← mem_entries_iff, Option.bind_eq_some_iff, retainMut, List.mem_filterMap]
  constructor
  · rintro ⟨⟨k', u⟩, hmem, hu⟩
    obtain ⟨v', hv', heq⟩ := Option.map_eq_some_iff.mp hu
    cases heq
    exact ⟨u, mem_entries_iff.mp hmem, hv'⟩
  · rintro ⟨u, hu, hv⟩
    exact ⟨⟨k, u⟩, mem_entries_iff.mpr hu, by simp [hv]⟩

@[simp] theorem lookup_reorder (t : Table κ ν) (entries : List (Σ _ : κ, ν))
    (h : t.entries.Perm entries) (k) : (t.reorder entries h).lookup k = t.lookup k :=
  (AList.perm_lookup h).symm

theorem lookup_insert' (t : Table κ ν) (k k' : κ) (v : ν) :
    (t.insert k v).lookup k' = if k' = k then some v else t.lookup k' := by
  by_cases h : k' = k
  · rw [if_pos h, h, AList.lookup_insert]
  · rw [if_neg h, AList.lookup_insert_ne h]

theorem lookup_erase' (t : Table κ ν) (k k' : κ) :
    (t.erase k).lookup k' = if k' = k then none else t.lookup k' := by
  by_cases h : k' = k
  · rw [if_pos h, h, AList.lookup_erase]
  · rw [if_neg h, AList.lookup_erase_ne h]

private theorem kerase_eq_filter {l : List (Σ _ : κ, ν)} (h : l.NodupKeys) (k) :
    l.kerase k = l.filter fun e => decide (e.1 ≠ k) := by
  induction l with
  | nil => rfl
  | cons e rest ih =>
    obtain ⟨hnew, hrest⟩ := List.nodupKeys_cons.mp h
    by_cases hk : k = e.1
    · -- the key stands at the head only, so nothing further is filtered out
      subst hk
      rw [List.kerase_cons_eq rfl, List.filter_cons_of_neg (by simp), ← ih hrest,
        List.kerase_of_notMem_keys hnew]
    · rw [List.kerase_cons_ne hk, List.filter_cons_of_pos (by simpa using Ne.symm hk), ih hrest]

/-! ### Mapping the values -/

section MapVal

variable {μ : Type*} (f : ν → μ) (t : Table κ ν)

@[simp] theorem lookup_mapVal (k : κ) : (mapVal f t).lookup k = (t.lookup k).map f := by
  ext v
  rw [← mem_entries_iff, entries_mapVal, List.mem_map, Option.map_eq_some_iff]
  constructor
  · rintro ⟨e, he, heq⟩
    cases heq
    exact ⟨e.2, lookup_of_mem_entries he, rfl⟩
  · rintro ⟨u, hu, rfl⟩
    exact ⟨⟨k, u⟩, mem_entries_iff.mpr hu, rfl⟩

theorem mapVal_insert (k : κ) (v : ν) : mapVal f (t.insert k v) = (mapVal f t).insert k (f v) := by
  refine AList.ext ?_
  rw [entries_mapVal, AList.entries_insert, AList.entries_insert, kerase_eq_filter t.nodupKeys,
    kerase_eq_filter (mapVal f t).nodupKeys, entries_mapVal, List.filter_map]
  rfl

end MapVal

/-! ### Two tables with the same keys -/

section SameKeys

variable {μ : Type*} {t : Table κ ν} {u : Table κ μ}

theorem isSome_lookup_erase (h : ∀ k, (t.lookup k).isSome = (u.lookup k).isSome) (k k' : κ) :
    ((t.erase k).lookup k').isSome = ((u.erase k).lookup k').isSome := by
  rw [lookup_erase', lookup_erase']
  split
  · rfl
  · exact h k'

theorem isSome_lookup_insert (h : ∀ k, (t.lookup k).isSome = (u.lookup k).isSome) (k k' : κ)
    (v : ν) (w : μ) : ((t.insert k v).lookup k').isSome = ((u.insert k w).lookup k').isSome := by
  rw [lookup_insert', lookup_insert']
  split
  · rfl
  · exact h k'

theorem isSome_lookup_insert_of_isSome {k : κ} (h : (t.lookup k).isSome) (v : ν) (k' : κ) :
    ((t.insert k v).lookup k').isSome = (t.lookup k').isSome := by
  rw [lookup_insert']
  split
  · rename_i hk
    rw [hk, h]
    rfl
  · rfl

end SameKeys

/-! ### Removing several keys -/

/-- Remove the keys of a list, one after another. -/
def eraseAll (ks : List κ) (t : Table κ ν) : Table κ ν := ks.foldl (fun t k => t.erase k) t

@[simp] theorem eraseAll_nil (t : Table κ ν) : eraseAll [] t = t := rfl

@[simp] theorem eraseAll_cons (k) (ks : List κ) (t : Table κ ν) :
    eraseAll (k :: ks) t = eraseAll ks (t.erase k) := rfl

theorem lookup_eraseAll (ks : List κ) (t : Table κ ν) (k) :
    (eraseAll ks t).lookup k = if k ∈ ks then none else t.lookup k := by
  induction ks generalizing t with
  | nil => simp
  | cons k' ks ih =>
    rw [eraseAll_cons, ih, lookup_erase']
    by_cases hk : k = k' <;> simp [hk]

end Table
