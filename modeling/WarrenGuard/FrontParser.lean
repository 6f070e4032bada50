/-
Parsers that read from the front.

A front parser reads one item from the front of a string and says how long it is.  What it says
depends on the item alone (`FrontParser.front`).  Such parsers are put together from smaller ones
(`seq`, `sized`, `map`).  A reader that gets a string in pieces takes off all items it has:

* `drain` — the items at the front, and what is left;
* `drain_append` — draining a string in two pieces is draining it at once;
* `lt_of_none` — what is left is shorter than the next item.
-/
import Mathlib.Tactic.Common

/-- A parser of one item, with the number of letters it takes up. -/
structure FrontParser (σ α : Type) where
  run : List σ → Option (α × ℕ)
  pos : ∀ {xs v n}, run xs = some (v, n) → 0 < n
  front : ∀ {xs v n} (ys : List σ),
    run xs = some (v, n) ↔ n ≤ xs.length ∧ run (xs ++ ys) = some (v, n)

namespace FrontParser

variable {σ α β : Type}

section One

variable (p : FrontParser σ α) {xs : List σ} {v : α} {n : ℕ}

theorem le_length (h : p.run xs = some (v, n)) : n ≤ xs.length := ((p.front []).mp h).1

theorem append (h : p.run xs = some (v, n)) (ys : List σ) : p.run (xs ++ ys) = some (v, n) :=
  ((p.front ys).mp h).2

theorem run_nil : p.run [] = none := by
  cases h : p.run [] with
  | none => rfl
  | some item =>
    have hpos := p.pos h
    have hle := p.le_length h
    rw [List.length_nil] at hle
    omega

/-- **A string without an item is shorter than the item** that it is the front of. -/
theorem lt_of_none {ys : List σ} (hnone : p.run xs = none) (h : p.run (xs ++ ys) = some (v, n)) :
    xs.length < n := by
  rcases Nat.lt_or_ge xs.length n with hlt | hge
  · exact hlt
  · rw [(p.front ys).mpr ⟨hge, h⟩] at hnone
    cases hnone

end One

/-! ### Parsers from parsers -/

def seq (p : FrontParser σ α) (q : FrontParser σ β) : FrontParser σ (α × β) where
  run xs := (p.run xs).bind fun a => (q.run (xs.drop a.2)).map fun b => ((a.1, b.1), a.2 + b.2)
  pos := by
    intro xs v n h
    obtain ⟨⟨a, i⟩, hp, h⟩ := Option.bind_eq_some_iff.mp h
    obtain ⟨⟨b, j⟩, -, heq⟩ := Option.map_eq_some_iff.mp h
    cases heq
    exact Nat.add_pos_left (p.pos hp) j
  front := by
    intro xs v n ys
    constructor
    · intro h
      obtain ⟨⟨a, i⟩, hp, h⟩ := Option.bind_eq_some_iff.mp h
      obtain ⟨⟨b, j⟩, hq, heq⟩ := Option.map_eq_some_iff.mp h
      cases heq
      have hi := p.le_length hp
      have hj := q.le_length hq
      rw [List.length_drop] at hj
      refine ⟨by dsimp only; omega, ?_⟩
      rw [p.append hp ys, Option.bind_some, List.drop_append_of_le_length hi, q.append hq ys]
      rfl
    · rintro ⟨hn, h⟩
      obtain ⟨⟨a, i⟩, hp, h⟩ := Option.bind_eq_some_iff.mp h
      obtain ⟨⟨b, j⟩, hq, heq⟩ := Option.map_eq_some_iff.mp h
      cases heq
      dsimp only at hn hq
      have hi : i ≤ xs.length := by omega
      rw [List.drop_append_of_le_length hi] at hq
      have hj : j ≤ (xs.drop i).length := by
        rw [List.length_drop]
        omega
      rw [(p.front ys).mpr ⟨hi, hp⟩, Option.bind_some, (q.front ys).mpr ⟨hj, hq⟩]
      rfl

/-- An item that says how many letters follow it, and these. -/
def sized (p : FrontParser σ α) (size : α → ℕ) : FrontParser σ (α × List σ) where
  run xs := (p.run xs).bind fun a =>
    if xs.length < a.2 + size a.1 then none
    else some ((a.1, (xs.drop a.2).take (size a.1)), a.2 + size a.1)
  pos := by
    intro xs v n h
    obtain ⟨⟨a, i⟩, hp, h⟩ := Option.bind_eq_some_iff.mp h
    split at h
    · cases h
    · cases h
      exact Nat.add_pos_left (p.pos hp) _
  front := by
    intro xs v n ys
    constructor
    · intro h
      obtain ⟨⟨a, i⟩, hp, h⟩ := Option.bind_eq_some_iff.mp h
      have hi := p.le_length hp
      split at h
      · cases h
      · rename_i hlen
        cases h
        dsimp only at hlen ⊢
        refine ⟨by omega, ?_⟩
        rw [p.append hp ys, Option.bind_some]
        dsimp only
        rw [if_neg (by rw [List.length_append]; omega), List.drop_append_of_le_length hi,
          List.take_append_of_le_length]
        rw [List.length_drop]
        omega
    · rintro ⟨hn, h⟩
      obtain ⟨⟨a, i⟩, hp, h⟩ := Option.bind_eq_some_iff.mp h
      split at h
      · cases h
      · cases h
        dsimp only at hn
        have hi : i ≤ xs.length := by omega
        rw [(p.front ys).mpr ⟨hi, hp⟩, Option.bind_some]
        dsimp only
        rw [if_neg (by omega), List.drop_append_of_le_length hi, List.take_append_of_le_length]
        rw [List.length_drop]
        omega

def map (p : FrontParser σ α) (f : α → β) : FrontParser σ β where
  run xs := (p.run xs).map fun a => (f a.1, a.2)
  pos := by
    intro xs v n h
    obtain ⟨⟨a, i⟩, hp, heq⟩ := Option.map_eq_some_iff.mp h
    cases heq
    exact p.pos hp
  front := by
    intro xs v n ys
    constructor
    · intro h
      obtain ⟨⟨a, i⟩, hp, heq⟩ := Option.map_eq_some_iff.mp h
      cases heq
      refine ⟨p.le_length hp, ?_⟩
      rw [p.append hp ys]
      rfl
    · rintro ⟨hn, h⟩
      obtain ⟨⟨a, i⟩, hp, heq⟩ := Option.map_eq_some_iff.mp h
      cases heq
      rw [(p.front ys).mpr ⟨hn, hp⟩]
      rfl

/-! ### All items -/

section Drain

variable (p : FrontParser σ α)

/-- The items at the front, each with its length, and what is left. -/
def drain (xs : List σ) : List (α × ℕ) × List σ :=
  match _h : p.run xs with
  | none => ([], xs)
  | some item => (item :: (drain (xs.drop item.2)).1, (drain (xs.drop item.2)).2)
termination_by xs.length
decreasing_by
  all_goals
    have hpos := p.pos _h
    have hle := p.le_length _h
    rw [List.length_drop]
    omega

variable {p} {xs : List σ} {item : α × ℕ}

theorem drain_of_none (h : p.run xs = none) : p.drain xs = ([], xs) := by
  rw [drain]
  split
  · rfl
  · rename_i hsome
    rw [h] at hsome
    cases hsome

theorem drain_of_some (h : p.run xs = some item) :
    p.drain xs = (item :: (p.drain (xs.drop item.2)).1, (p.drain (xs.drop item.2)).2) := by
  rw [drain]
  split
  · rename_i hnone
    rw [h] at hnone
    cases hnone
  · rename_i item' hsome
    rw [h] at hsome
    cases hsome
    rfl

/-- **What is left** has no item at its front. -/
theorem run_drain (xs : List σ) : p.run (p.drain xs).2 = none := by
  induction hn : xs.length using Nat.strongRecOn generalizing xs with
  | _ n ih =>
    cases h : p.run xs with
    | none =>
      rw [drain_of_none h]
      exact h
    | some item =>
      have hpos := p.pos h
      have hle := p.le_length h
      rw [drain_of_some h]
      refine ih (xs.drop item.2).length ?_ _ rfl
      rw [List.length_drop]
      omega

/-- **Draining in two pieces** is draining at once. -/
theorem drain_append (xs ys : List σ) :
    p.drain (xs ++ ys) = ((p.drain xs).1 ++ (p.drain ((p.drain xs).2 ++ ys)).1,
      (p.drain ((p.drain xs).2 ++ ys)).2) := by
  induction hn : xs.length using Nat.strongRecOn generalizing xs with
  | _ n ih =>
    cases h : p.run xs with
    | none =>
      rw [drain_of_none h]
      rfl
    | some item =>
      have hpos := p.pos h
      have hle := p.le_length h
      rw [drain_of_some h, drain_of_some (p.append h ys), List.drop_append_of_le_length hle]
      rw [ih (xs.drop item.2).length (by rw [List.length_drop]; omega) _ rfl]
      rfl

end Drain

end FrontParser
