/-
Pools of resources that are leased, shared by one owner and given back.

A pool has a list of free resources and a book: what each holder holds, and for which owner (a
holder may also have none).  A holder takes a free resource, joins one its own owner already
holds, or gives up what it holds.  A bulk transfer renames an owner.  A pool may also be allowed
to mint resources.

* `Step mints` — one move of a pool;
* `Sound` — free resources are listed once and held by nobody, all holders of a resource have one
  owner, and a holder without owner shares with nobody (`Sound.step`);
* `Covers stock` — free and held are the stock, in a pool that does not mint (`Covers.step`);
* `Step.count` — where a pool mints only with nothing free, they are as many as were ever held at
  once.

The book is a function and the choice of the free resource is left open.  An implementation is
connected to it by showing that each of its operations is a move.
-/
import Mathlib.Data.Finset.Card

namespace LeasePool

open Function

variable {ι α κ : Type*}

/-- Who holds what, and for which owner. -/
abbrev Book (ι α κ : Type*) := ι → Option (α × Option κ)

namespace Book

def Holds (b : Book ι α κ) (i : ι) (a : α) : Prop := ∃ o, b i = some (a, o)

def Vacant (b : Book ι α κ) (a : α) : Prop := ∀ i, ¬ b.Holds i a

variable {a : α} {b : Book ι α κ} {i : ι}

theorem Holds.unique {a a' : α} (h : b.Holds i a) (h' : b.Holds i a') :
    a = a' := by
  obtain ⟨o, ho⟩ := h
  obtain ⟨o', ho'⟩ := h'
  exact congrArg Prod.fst (Option.some.inj (ho.symm.trans ho'))

def renamed [DecidableEq κ] (k k' : κ) (e : α × Option κ) : α × Option κ :=
  (e.1, if e.2 = some k then some k' else e.2)

def transfer [DecidableEq κ] (b : Book ι α κ) (k k' : κ) : Book ι α κ :=
  fun i => (b i).map (renamed k k')

theorem holds_transfer [DecidableEq κ] {k k' : κ} :
    (b.transfer k k').Holds i a ↔ b.Holds i a := by
  constructor
  · rintro ⟨o, ho⟩
    obtain ⟨⟨a', o'⟩, he, hren⟩ := Option.map_eq_some_iff.mp ho
    obtain rfl : a' = a := congrArg Prod.fst hren
    exact ⟨o', he⟩
  · rintro ⟨o, ho⟩
    exact ⟨_, Option.map_eq_some_iff.mpr ⟨(a, o), ho, rfl⟩⟩

variable [DecidableEq ι]

theorem holds_update_some {i j : ι} {a a' : α} {o : Option κ} (hnew : b i = none) :
    (Book.Holds (Function.update b i (some (a, o))) j a') ↔ (j = i ∧ a' = a) ∨ b.Holds j a' := by
  by_cases hj : j = i
  · subst hj
    have hnone : ¬ b.Holds j a' := by rintro ⟨o', ho'⟩; rw [hnew] at ho'; cases ho'
    simp only [Holds, update_self, Option.some.injEq, Prod.mk.injEq, exists_and_left,
      exists_eq', and_true, true_and]
    constructor
    · intro h; exact Or.inl h.symm
    · rintro (h | h)
      · exact h.symm
      · exact absurd h hnone
  · simp [Holds, hj]

theorem holds_update_none {i j : ι} :
    (Book.Holds (Function.update b i none) j a) ↔ j ≠ i ∧ b.Holds j a := by
  by_cases hj : j = i
  · subst hj
    simp [Holds]
  · simp [Holds, hj]

end Book

@[ext]
structure Pool (ι α κ : Type*) where
  free : List α
  book : Book ι α κ

section Moves

variable [DecidableEq ι] [DecidableEq κ]

/-- **The moves of a pool.**  The order of the free list is never fixed. -/
inductive Step (mints : Prop) (p : Pool ι α κ) : Pool ι α κ → Prop
  | shuffle {free : List α} (h : p.free.Perm free) : Step mints p ⟨free, p.book⟩
  | take {free : List α} {a : α} (i : ι) (o : Option κ) (hnew : p.book i = none)
      (h : p.free.Perm (a :: free)) :
      Step mints p ⟨free, Function.update p.book i (some (a, o))⟩
  | mint {free : List α} {a : α} (i : ι) (o : Option κ) (hmints : mints) (hnew : p.book i = none)
      (hvac : p.book.Vacant a) (hfree : a ∉ p.free) (h : p.free.Perm free) :
      Step mints p ⟨free, Function.update p.book i (some (a, o))⟩
  | share {free : List α} {a : α} {k : κ} (i j : ι) (hnew : p.book i = none)
      (hj : p.book j = some (a, some k)) (h : p.free.Perm free) :
      Step mints p ⟨free, Function.update p.book i (some (a, some k))⟩
  | leave {a : α} (i j : ι) (hne : j ≠ i) (hi : p.book.Holds i a) (hj : p.book.Holds j a) :
      Step mints p ⟨p.free, Function.update p.book i none⟩
  | vacate {free : List α} {a : α} (i : ι) (hi : p.book.Holds i a)
      (hlast : ∀ j, j ≠ i → ¬ p.book.Holds j a) (h : (a :: p.free).Perm free) :
      Step mints p ⟨free, Function.update p.book i none⟩
  | transfer (k k' : κ) : Step mints p ⟨p.free, p.book.transfer k k'⟩

end Moves

/-! ### One owner for each resource -/

/-- **No resource is shared by two owners**, and a holder without owner shares
with nobody. -/
structure OneOwner (b : Book ι α κ) : Prop where
  owner : ∀ {i j a o o'}, b i = some (a, o) → b j = some (a, o') → o = o'
  alone : ∀ {i j a o}, b i = some (a, none) → b j = some (a, o) → i = j

theorem OneOwner.empty : OneOwner (fun _ => none : Book ι α κ) where
  owner h := by cases h
  alone h := by cases h

theorem OneOwner.transfer [DecidableEq κ] {b : Book ι α κ} (h : OneOwner b) (k k' : κ) :
    OneOwner (b.transfer k k') := by
  -- an entry after the transfer comes from one of the same resource before it
  have back : ∀ {i a o}, b.transfer k k' i = some (a, o) →
      ∃ o₀, b i = some (a, o₀) ∧ (if o₀ = some k then some k' else o₀) = o := by
    intro i a o hi
    obtain ⟨⟨a₀, o₀⟩, he, hren⟩ := Option.map_eq_some_iff.mp hi
    obtain ⟨rfl, ho⟩ := Prod.mk.injEq .. ▸ hren
    exact ⟨o₀, he, ho⟩
  constructor
  · intro i j a o o' hi hj
    obtain ⟨o₀, hi₀, rfl⟩ := back hi
    obtain ⟨o₁, hj₁, rfl⟩ := back hj
    rw [h.owner hi₀ hj₁]
  · intro i j a o hi hj
    obtain ⟨o₀, hi₀, ho₀⟩ := back hi
    obtain ⟨o₁, hj₁, -⟩ := back hj
    have hnone : o₀ = none := by
      by_cases hk : o₀ = some k
      · rw [if_pos hk] at ho₀; cases ho₀
      · rwa [if_neg hk] at ho₀
    exact h.alone (hnone ▸ hi₀) hj₁

section Updates

variable [DecidableEq ι] {b : Book ι α κ} {i : ι}

private theorem update_some_cases {b : Book ι α κ} {i j : ι} {e : α × Option κ}
    {e' : α × Option κ} (h : Function.update b i (some e) j = some e') :
    (j = i ∧ e' = e) ∨ (j ≠ i ∧ b j = some e') := by
  by_cases hj : j = i
  · subst hj
    rw [update_self] at h
    exact Or.inl ⟨rfl, (Option.some.inj h).symm⟩
  · rw [update_of_ne hj] at h
    exact Or.inr ⟨hj, h⟩

theorem OneOwner.grant {a : α} {o : Option κ} (h : OneOwner b)
    (hsame : ∀ j o', b j = some (a, o') → o' = o) (hkey : o = none → b.Vacant a) :
    OneOwner (Function.update b i (some (a, o))) := by
  constructor
  · intro j j' a' o₁ o₂ hj hj'
    rcases update_some_cases hj with ⟨rfl, he⟩ | ⟨-, hb⟩ <;>
      rcases update_some_cases hj' with ⟨rfl, he'⟩ | ⟨-, hb'⟩
    · exact congrArg Prod.snd (he.trans he'.symm)
    · cases he; exact (hsame _ _ hb').symm
    · cases he'; exact hsame _ _ hb
    · exact h.owner hb hb'
  · intro j j' a' o₁ hj hj'
    rcases update_some_cases hj with ⟨rfl, he⟩ | ⟨-, hb⟩ <;>
      rcases update_some_cases hj' with ⟨rfl, he'⟩ | ⟨-, hb'⟩
    · rfl
    · cases he; exact absurd ⟨_, hb'⟩ (hkey rfl _)
    · -- an old holder without owner: the newcomer then has none either
      cases he'
      exact absurd ⟨_, hb⟩ (hkey (hsame _ _ hb).symm _)
    · exact h.alone hb hb'

theorem OneOwner.drop (h : OneOwner b) : OneOwner (Function.update b i none) := by
  have back : ∀ {j e}, update b i none j = some e → b j = some e := by
    intro j e hj
    by_cases hji : j = i
    · subst hji; rw [update_self] at hj; cases hj
    · rwa [update_of_ne hji] at hj
  exact ⟨fun hj hj' => h.owner (back hj) (back hj'), fun hj hj' => h.alone (back hj) (back hj')⟩

end Updates

/-! ### Invariants of the moves -/

/-- **Free resources are listed once and held by nobody; held ones have one owner.** -/
structure Sound (p : Pool ι α κ) : Prop where
  nodup : p.free.Nodup
  vacant : ∀ a ∈ p.free, p.book.Vacant a
  one : OneOwner p.book

def Covers (stock : α → Prop) (p : Pool ι α κ) : Prop :=
  ∀ a, stock a ↔ a ∈ p.free ∨ ∃ i, p.book.Holds i a

section Invariants

variable [DecidableEq ι] [DecidableEq κ] {mints : Prop} {p q : Pool ι α κ}

theorem Sound.step (h : Sound p) (hs : Step mints p q) : Sound q := by
  cases hs with
  | shuffle hp => exact ⟨hp.nodup_iff.mp h.nodup, fun a ha => h.vacant a (hp.mem_iff.mpr ha), h.one⟩
  | take i o hnew hp =>
    rename_i free a
    obtain ⟨hnot, hnodup⟩ := List.nodup_cons.mp (hp.nodup_iff.mp h.nodup)
    -- a listed resource is held by nobody, so its new holder is the only one
    have hvac : p.book.Vacant a := h.vacant a (hp.mem_iff.mpr List.mem_cons_self)
    refine ⟨hnodup, ?_, h.one.grant (fun j o' hj => absurd ⟨_, hj⟩ (hvac j)) fun _ => hvac⟩
    intro a' ha' j hj
    rcases (Book.holds_update_some hnew).mp hj with ⟨-, rfl⟩ | hj
    · exact hnot ha'
    · exact h.vacant a' (hp.mem_iff.mpr (List.mem_cons_of_mem _ ha')) j hj
  | mint i o _ hnew hvac hfree hp =>
    refine ⟨hp.nodup_iff.mp h.nodup, ?_,
      h.one.grant (fun j o' hj => absurd ⟨_, hj⟩ (hvac j)) fun _ => hvac⟩
    intro a' ha' j hj
    rcases (Book.holds_update_some hnew).mp hj with ⟨-, rfl⟩ | hj
    · exact hfree (hp.mem_iff.mpr ha')
    · exact h.vacant a' (hp.mem_iff.mpr ha') j hj
  | share i j hnew hj hp =>
    refine ⟨hp.nodup_iff.mp h.nodup, ?_,
      h.one.grant (fun j' o' hj' => h.one.owner hj' hj) fun hno => by cases hno⟩
    intro a' ha' j' hj'
    rcases (Book.holds_update_some hnew).mp hj' with ⟨-, rfl⟩ | hj'
    · exact h.vacant a' (hp.mem_iff.mpr ha') j ⟨_, hj⟩
    · exact h.vacant a' (hp.mem_iff.mpr ha') j' hj'
  | leave i j hne hi hj =>
    exact ⟨h.nodup, fun a ha j hj => h.vacant a ha j (Book.holds_update_none.mp hj).2, h.one.drop⟩
  | vacate i hi hlast hp =>
    rename_i free a
    -- it was held until now, so it is not listed yet
    have hnot : a ∉ p.free := fun ha => h.vacant a ha i hi
    refine ⟨hp.nodup_iff.mp (List.nodup_cons.mpr ⟨hnot, h.nodup⟩), ?_, h.one.drop⟩
    intro a' ha' j hj
    obtain ⟨hne, hj⟩ := Book.holds_update_none.mp hj
    rcases List.mem_cons.mp (hp.mem_iff.mpr ha') with rfl | ha'
    · exact hlast j hne hj
    · exact h.vacant a' ha' j hj
  | transfer k k' =>
    exact ⟨h.nodup, fun a ha j hj => h.vacant a ha j (Book.holds_transfer.mp hj),
      h.one.transfer k k'⟩

theorem Step.covered (hs : Step mints p q) {a : α} (h : a ∈ p.free ∨ ∃ i, p.book.Holds i a) :
    a ∈ q.free ∨ ∃ i, q.book.Holds i a := by
  cases hs with
  | shuffle hp => exact h.imp_left hp.mem_iff.mp
  | take i o hnew hp =>
    simp only [Book.holds_update_some hnew]
    rcases h with ha | ⟨j, hj⟩
    · rcases List.mem_cons.mp (hp.mem_iff.mp ha) with rfl | ha
      exacts [Or.inr ⟨i, Or.inl ⟨rfl, rfl⟩⟩, Or.inl ha]
    · exact Or.inr ⟨j, Or.inr hj⟩
  | mint i o hmints hnew hvac hfree hp =>
    simp only [Book.holds_update_some hnew]
    exact h.imp hp.mem_iff.mp fun ⟨j, hj⟩ => ⟨j, Or.inr hj⟩
  | share i j hnew hj hp =>
    simp only [Book.holds_update_some hnew]
    exact h.imp hp.mem_iff.mp fun ⟨j, hj⟩ => ⟨j, Or.inr hj⟩
  | leave i j hne hi hj =>
    simp only [Book.holds_update_none]
    refine h.imp_right fun ⟨j', hj'⟩ => ?_
    by_cases hji : j' = i
    · -- the leaving holder: the other one still holds the same resource
      subst hji
      obtain rfl := hj'.unique hi
      exact ⟨j, hne, hj⟩
    · exact ⟨j', hji, hj'⟩
  | vacate i hi hlast hp =>
    simp only [← hp.mem_iff, List.mem_cons, Book.holds_update_none]
    rcases h with ha | ⟨j', hj'⟩
    · exact Or.inl (Or.inr ha)
    · by_cases hji : j' = i
      · subst hji
        exact Or.inl (Or.inl (hj'.unique hi))
      · exact Or.inr ⟨j', hji, hj'⟩
  | transfer k k' => simpa only [Book.holds_transfer] using h

theorem Step.covered_of (hs : Step False p q) {a : α} (h : a ∈ q.free ∨ ∃ i, q.book.Holds i a) :
    a ∈ p.free ∨ ∃ i, p.book.Holds i a := by
  cases hs with
  | shuffle hp => exact h.imp_left hp.mem_iff.mpr
  | take i o hnew hp =>
    simp only [Book.holds_update_some hnew] at h
    rcases h with ha | ⟨j, ⟨-, rfl⟩ | hj⟩
    exacts [Or.inl (hp.mem_iff.mpr (List.mem_cons_of_mem _ ha)),
      Or.inl (hp.mem_iff.mpr List.mem_cons_self), Or.inr ⟨j, hj⟩]
  | mint i o hmints => exact hmints.elim
  | share i j hnew hj hp =>
    simp only [Book.holds_update_some hnew] at h
    rcases h with ha | ⟨j', ⟨-, rfl⟩ | hj'⟩
    exacts [Or.inl (hp.mem_iff.mpr ha), Or.inr ⟨j, _, hj⟩, Or.inr ⟨j', hj'⟩]
  | leave i j hne hi hj =>
    simp only [Book.holds_update_none] at h
    exact h.imp_right fun ⟨j', _, hj'⟩ => ⟨j', hj'⟩
  | vacate i hi hlast hp =>
    simp only [← hp.mem_iff, List.mem_cons, Book.holds_update_none] at h
    rcases h with (rfl | ha) | ⟨j', -, hj'⟩
    exacts [Or.inr ⟨i, hi⟩, Or.inl ha, Or.inr ⟨j', hj'⟩]
  | transfer k k' => simpa only [Book.holds_transfer] using h

theorem Covers.step {stock : α → Prop} (h : Covers stock p) (hs : Step False p q) :
    Covers stock q := by
  intro a
  rw [h a]
  exact ⟨hs.covered, hs.covered_of⟩

/-! ### Counting -/

def Pool.InUse (p : Pool ι α κ) (held : Finset α) : Prop := ∀ a, a ∈ held ↔ ∃ i, p.book.Holds i a

omit [DecidableEq κ] in
theorem Pool.InUse.card_grant {held held' : Finset α} {free : List α} {i : ι} {o : Option κ} {a : α}
    (hp : p.InUse held) (hq : Pool.InUse ⟨free, Function.update p.book i (some (a, o))⟩ held')
    (hnew : p.book i = none) (hvac : p.book.Vacant a) : held'.card = held.card + 1 := by
  classical
  have hinsert : held' = insert a held := by
    refine Finset.ext fun a' => ?_
    rw [hq a', Finset.mem_insert, hp a']
    simp only [Book.holds_update_some hnew]
    constructor
    · rintro ⟨j, ⟨-, rfl⟩ | hj⟩
      exacts [Or.inl rfl, Or.inr ⟨j, hj⟩]
    · rintro (rfl | ⟨j, hj⟩)
      exacts [⟨i, Or.inl ⟨rfl, rfl⟩⟩, ⟨j, Or.inr hj⟩]
  have hnot : a ∉ held := fun ha => ((hp a).mp ha).elim hvac
  rw [hinsert, Finset.card_insert_of_notMem hnot]

/-- **Held and free are as many as were ever held at once**, in a pool that mints only when nothing
is free. -/
theorem Step.count {held held' : Finset α} (hs : Step (p.free = []) p q) (h : Sound p)
    (hp : p.InUse held) (hq : q.InUse held') :
    held'.card + q.free.length = max (held.card + p.free.length) held'.card := by
  classical
  -- what is kept in number
  have hsame : held' = held → q.free.length = p.free.length →
      held'.card + q.free.length = max (held.card + p.free.length) held'.card := by
    rintro rfl hlen
    omega
  cases hs with
  | shuffle hperm =>
    exact hsame (Finset.ext fun a => (hq a).trans (hp a).symm) hperm.length_eq.symm
  | take i o hnew hperm =>
    rename_i free a
    have hvac := h.vacant a (hperm.mem_iff.mpr List.mem_cons_self)
    have hcard := hp.card_grant hq hnew hvac
    have hlen := hperm.length_eq
    rw [List.length_cons] at hlen
    dsimp only
    omega
  | mint i o hmints hnew hvac hfree hperm =>
    have hcard := hp.card_grant hq hnew hvac
    have hlen := hperm.length_eq
    rw [hmints, List.length_nil] at hlen
    rw [hmints, List.length_nil]
    dsimp only
    omega
  | share i j hnew hj hperm =>
    refine hsame (Finset.ext fun a => ?_) hperm.length_eq.symm
    rw [hq a, hp a]
    simp only [Book.holds_update_some hnew]
    constructor
    · rintro ⟨j', ⟨-, rfl⟩ | hj'⟩
      exacts [⟨j, _, hj⟩, ⟨j', hj'⟩]
    · rintro ⟨j', hj'⟩
      exact ⟨j', Or.inr hj'⟩
  | leave i j hne hi hj =>
    refine hsame (Finset.ext fun a => ?_) rfl
    rw [hq a, hp a]
    simp only [Book.holds_update_none]
    constructor
    · rintro ⟨j', -, hj'⟩
      exact ⟨j', hj'⟩
    · rintro ⟨j', hj'⟩
      by_cases hji : j' = i
      · subst hji
        obtain rfl := hj'.unique hi
        exact ⟨j, hne, hj⟩
      · exact ⟨j', hji, hj'⟩
  | vacate i hi hlast hperm =>
    rename_i free a
    have hcard : held'.card + 1 = held.card := by
      have herase : held' = held.erase a := by
        refine Finset.ext fun a' => ?_
        rw [hq a', Finset.mem_erase, hp a']
        simp only [Book.holds_update_none]
        constructor
        · rintro ⟨j, hji, hj⟩
          refine ⟨?_, j, hj⟩
          rintro rfl
          exact hlast j hji hj
        · rintro ⟨hne, j, hj⟩
          refine ⟨j, ?_, hj⟩
          rintro rfl
          exact hne (hj.unique hi)
      rw [herase]
      exact Finset.card_erase_add_one ((hp a).mpr ⟨i, hi⟩)
    have hlen := hperm.length_eq
    rw [List.length_cons] at hlen
    dsimp only
    omega
  | transfer k k' =>
    refine hsame (Finset.ext fun a => ?_) rfl
    rw [hq a, hp a]
    simp only [Book.holds_transfer]

end Invariants

end LeasePool
