/-
Growable arrays that do not keep their order.

`swapRemove` moves the last element into the place of the removed one, and `swap` exchanges two
elements.  What they keep is the collection of elements (`perm_cons_swapRemove`, `swap_perm`).
-/
import Mathlib.Data.List.Perm.Basic

namespace VecOps

variable {α : Type*}

/-- Remove position `i`, moving the last element into its place. -/
def swapRemove (l : List α) (i : ℕ) : List α :=
  match l.getLast? with
  | none => []
  | some z => (l.set i z).dropLast

/-- Exchange positions `i` and `j`; positions outside the list leave it alone. -/
def swap (l : List α) (i j : ℕ) : List α :=
  match l[i]?, l[j]? with
  | some x, some y => (l.set i y).set j x
  | _, _ => l

private theorem swapRemove_append (l : List α) (z : α) (i : ℕ) :
    swapRemove (l ++ [z]) i = l.set i z := by
  unfold swapRemove
  rw [List.getLast?_concat]
  show ((l ++ [z]).set i z).dropLast = l.set i z
  rw [List.set_append]
  by_cases hi : i < l.length
  · simp [hi]
  · -- the removed position is the last one (or none at all): only `z` leaves
    have hlen : l.length ≤ i := Nat.le_of_not_lt hi
    cases hk : i - l.length <;> simp [hi, List.set_eq_of_length_le hlen]

/-- **Removal loses one element only.** -/
theorem perm_cons_swapRemove {l : List α} {i : ℕ} {x : α} (h : l[i]? = some x) :
    l.Perm (x :: swapRemove l i) := by
  obtain ⟨hi, hx⟩ := List.getElem?_eq_some_iff.mp h
  rcases List.eq_nil_or_concat l with hl | ⟨init, z, hl⟩
  · subst hl
    exact absurd hi (Nat.not_lt_zero _)
  · rw [List.concat_eq_append] at hl
    subst hl
    rw [swapRemove_append]
    by_cases hin : i < init.length
    · have hx' : init[i] = x := by rw [← hx, List.getElem_append_left hin]
      calc (init ++ [z]).Perm (z :: init) := List.perm_append_singleton z init
        _ |>.Perm (z :: x :: init.eraseIdx i) := by
            rw [← hx']
            exact (List.getElem_cons_eraseIdx_perm hin).symm.cons z
        _ |>.Perm (x :: z :: init.eraseIdx i) := List.Perm.swap x z _
        _ |>.Perm (x :: init.set i z) := (List.set_perm_cons_eraseIdx hin z).symm.cons x
    · have hlen : init.length ≤ i := Nat.le_of_not_lt hin
      have heq : i = init.length := by
        have : i < init.length + 1 := by simpa using hi
        omega
      have hz : x = z := by rw [← hx]; simp [heq]
      rw [List.set_eq_of_length_le hlen, hz]
      exact List.perm_append_singleton z init

theorem swap_perm (l : List α) (i j : ℕ) : (swap l i j).Perm l := by
  unfold swap
  split
  · rename_i x y hx hy
    obtain ⟨hi, rfl⟩ := List.getElem?_eq_some_iff.mp hx
    obtain ⟨hj, rfl⟩ := List.getElem?_eq_some_iff.mp hy
    exact List.set_set_perm hi hj
  · exact List.Perm.refl l

/-- **A draw among the first `n + 1` elements is put behind the first `n`.** -/
theorem take_perm_cons_swap {l : List α} {i n : ℕ} {x : α} (h : l[i]? = some x) (hi : i ≤ n)
    (hn : n < l.length) : (l.take (n + 1)).Perm (x :: (swap l i n).take n) := by
  have hget : (l.take (n + 1))[i]? = some x := by
    rw [List.getElem?_take_of_lt (Nat.lt_succ_of_le hi), h]
  have htake : (swap l i n).take n = swapRemove (l.take (n + 1)) i := by
    rw [List.take_succ_eq_append_getElem hn, swapRemove_append, swap, h,
      List.getElem?_eq_getElem hn]
    dsimp only
    rw [List.take_set_of_le (Nat.le_refl n), List.take_set]
  rw [htake]
  exact perm_cons_swapRemove hget

end VecOps
