/-
A counter whose numbers are drawn first and used later.

`Tickets next hand used` is the invariant of such a counter: numbers in hand and numbers used are
below `next`, and a number in hand is in one hand only and not yet used.  Its rules are
`Tickets.draw`, `Tickets.use`, `Tickets.drawAndUse`, and `Tickets.anti`: hands may be emptied and
uses forgotten.

With 64-bit counters the number drawn is `next` as long as the counter does not run over
(`toNat_add_one`).
-/
import Mathlib.Algebra.Group.Nat.Defs
import Mathlib.Tactic.Common

structure Tickets {ι : Type*} (next : ℕ) (hand : ι → UInt64 → Prop) (used : UInt64 → Prop) :
    Prop where
  used_below : ∀ seq, used seq → seq.toNat < next
  hand_below : ∀ i seq, hand i seq → seq.toNat < next
  hand_unused : ∀ i seq, hand i seq → ¬ used seq
  hand_unique : ∀ i j seq, hand i seq → hand j seq → i = j

namespace Tickets

variable {ι : Type*} {next : ℕ} {hand hand' : ι → UInt64 → Prop} {used used' : UInt64 → Prop}
  {i : ι} {seq : UInt64}

theorem toNat_add_one {n : UInt64} (h : n.toNat + 1 < 2 ^ 64) : (n + 1).toNat = n.toNat + 1 := by
  rw [UInt64.toNat_add]
  exact Nat.mod_eq_of_lt h

theorem anti (h : Tickets next hand used) (hhand : ∀ i seq, hand' i seq → hand i seq)
    (hused : ∀ seq, used' seq → used seq) : Tickets next hand' used' where
  used_below := fun seq hseq => h.used_below seq (hused seq hseq)
  hand_below := fun i seq hi => h.hand_below i seq (hhand i seq hi)
  hand_unused := fun i seq hi hseq => h.hand_unused i seq (hhand i seq hi) (hused seq hseq)
  hand_unique := fun i j seq hi hj => h.hand_unique i j seq (hhand i seq hi) (hhand j seq hj)

/-- **Drawing.** What is in hand afterwards was so before, or is the number drawn. -/
theorem draw (h : Tickets next hand used) (hseq : seq.toNat = next)
    (hhand : ∀ j s, hand' j s → (j = i ∧ s = seq) ∨ hand j s) :
    Tickets (next + 1) hand' used := by
  -- nothing in hand or used so far is the number drawn
  have hnew : ∀ j, ¬ hand j seq := fun j hj => absurd (h.hand_below j seq hj) (by omega)
  refine ⟨fun s hs => Nat.lt_succ_of_lt (h.used_below s hs), ?_, ?_, ?_⟩
  · intro j s hj
    rcases hhand j s hj with ⟨-, rfl⟩ | hold
    · omega
    · exact Nat.lt_succ_of_lt (h.hand_below j s hold)
  · intro j s hj hs
    rcases hhand j s hj with ⟨-, rfl⟩ | hold
    · exact absurd (h.used_below s hs) (by omega)
    · exact h.hand_unused j s hold hs
  · intro j k s hj hk
    rcases hhand j s hj with ⟨rfl, rfl⟩ | hj' <;> rcases hhand k s hk with ⟨rfl, hs⟩ | hk'
    · rfl
    · exact absurd hk' (hnew k)
    · rw [hs] at hj'
      exact absurd hj' (hnew j)
    · exact h.hand_unique j k s hj' hk'

/-- **Using.** The number leaves the hand it was in. -/
theorem use (h : Tickets next hand used) (hi : hand i seq)
    (hhand : ∀ j s, hand' j s → hand j s ∧ (j = i → s ≠ seq))
    (hused : ∀ s, used' s → s = seq ∨ used s) : Tickets next hand' used' := by
  refine ⟨?_, fun j s hj => h.hand_below j s (hhand j s hj).1, ?_, ?_⟩
  · intro s hs
    rcases hused s hs with rfl | hs
    · exact h.hand_below i s hi
    · exact h.used_below s hs
  · intro j s hj hs
    obtain ⟨hold, hne⟩ := hhand j s hj
    rcases hused s hs with rfl | hs
    · exact hne (h.hand_unique j i s hold hi) rfl
    · exact h.hand_unused j s hold hs
  · exact fun j k s hj hk => h.hand_unique j k s (hhand j s hj).1 (hhand k s hk).1

theorem drawAndUse (h : Tickets next hand used) (hseq : seq.toNat = next)
    (hhand : ∀ i s, hand' i s → hand i s) (hused : ∀ s, used' s → s = seq ∨ used s) :
    Tickets (next + 1) hand' used' := by
  refine ⟨?_, fun i s hi => Nat.lt_succ_of_lt (h.hand_below i s (hhand i s hi)), ?_, ?_⟩
  · intro s hs
    rcases hused s hs with rfl | hs
    · omega
    · exact Nat.lt_succ_of_lt (h.used_below s hs)
  · intro i s hi hs
    rcases hused s hs with rfl | hs
    · exact absurd (h.hand_below i s (hhand i s hi)) (by omega)
    · exact h.hand_unused i s (hhand i s hi) hs
  · exact fun i j s hi hj => h.hand_unique i j s (hhand i s hi) (hhand j s hj)

end Tickets
