/-
Accounts that refill.

An account has a level that never exceeds a cap and rises by at most `gain` in a unit of time; an
expense lowers it.  So what is spent in an interval is at most the cap and what the interval
brings in, wherever it lies (`Account`, with its rules `start`, `later`, `spend`).

Design notes: the level may be lowered at will (`Account.later` with no time passing), so an
account that is replaced by one with no higher level is an account still.
-/
import Mathlib.Algebra.BigOperators.Group.List.Basic
import Mathlib.Algebra.Order.Sub.Basic
import Mathlib.Algebra.Ring.Nat

namespace Allowance

structure Expense where
  time : ℕ
  cost : ℕ
deriving DecidableEq

def spentIn (a b : ℕ) (spent : List Expense) : ℕ :=
  ((spent.filter fun e => decide (a ≤ e.time ∧ e.time ≤ b)).map Expense.cost).sum

variable {cap gain clock clock' level level' cost a b b' : ℕ} {spent : List Expense} {e : Expense}

theorem spentIn_nil : spentIn a b [] = 0 := rfl

theorem spentIn_cons :
    spentIn a b (e :: spent)
      = (if a ≤ e.time ∧ e.time ≤ b then e.cost else 0) + spentIn a b spent := by
  unfold spentIn
  rw [List.filter_cons]
  by_cases h : a ≤ e.time ∧ e.time ≤ b
  · rw [if_pos (decide_eq_true h), if_pos h, List.map_cons, List.sum_cons]
  · rw [if_neg (by simpa using h), if_neg h, Nat.zero_add]

theorem spentIn_congr (h : ∀ e ∈ spent, e.time ≤ b ∧ e.time ≤ b') :
    spentIn a b spent = spentIn a b' spent := by
  unfold spentIn
  congr 2
  refine List.filter_congr fun e he => decide_eq_decide.mpr ?_
  obtain ⟨hb, hb'⟩ := h e he
  exact and_congr_right fun _ => iff_of_true hb hb'

theorem spentIn_eq_zero (h : ∀ e ∈ spent, e.time < a) : spentIn a b spent = 0 := by
  unfold spentIn
  rw [List.filter_eq_nil_iff.mpr]
  · rfl
  · intro e he hin
    have hlt := h e he
    have hle := (of_decide_eq_true hin).1
    omega

theorem spentIn_eq_sum (h : ∀ e ∈ spent, a ≤ e.time ∧ e.time ≤ b) :
    spentIn a b spent = (spent.map Expense.cost).sum := by
  unfold spentIn
  rw [List.filter_eq_self.mpr fun e he => decide_eq_true (h e he)]

structure Account (cap gain clock level : ℕ) (spent : List Expense) : Prop where
  past : ∀ e ∈ spent, e.time ≤ clock
  /-- No interval has seen more than the cap and what it brought in. -/
  within : ∀ a b, a ≤ b → spentIn a b spent ≤ cap + gain * (b - a)
  /-- An interval that ends now can still see the level. -/
  now : ∀ a, a ≤ clock → spentIn a clock spent + level ≤ cap + gain * (clock - a)

/-- **A new account.** -/
theorem Account.start (h : level ≤ cap) : Account cap gain clock level [] where
  past := nofun
  within a b _ := by
    rw [spentIn_nil]
    exact Nat.zero_le _
  now a _ := by
    rw [spentIn_nil]
    omega

/-- **Time passes**, and the level rises at the rate, at most to the cap. -/
theorem Account.later (h : Account cap gain clock level spent) (hclock : clock ≤ clock')
    (hlevel : level' ≤ level + gain * (clock' - clock)) (hcap : level' ≤ cap) :
    Account cap gain clock' level' spent where
  past e he := Nat.le_trans (h.past e he) hclock
  within := h.within
  now a ha := by
    rcases Nat.lt_or_ge clock a with hlt | hge
    · -- nothing was spent since `a`
      rw [spentIn_eq_zero fun e he => Nat.lt_of_le_of_lt (h.past e he) hlt]
      omega
    · have hsame : spentIn a clock' spent = spentIn a clock spent :=
        spentIn_congr fun e he => ⟨Nat.le_trans (h.past e he) hclock, h.past e he⟩
      have hnow := h.now a hge
      have hsum : gain * (clock' - a) = gain * (clock - a) + gain * (clock' - clock) := by
        rw [← Nat.mul_add]
        congr 1
        omega
      omega

/-- **An expense** lowers the level by its cost. -/
theorem Account.spend (h : Account cap gain clock level spent) (hcost : level' + cost ≤ level) :
    Account cap gain clock level' (⟨clock, cost⟩ :: spent) := by
  have hnow : ∀ a, a ≤ clock →
      spentIn a clock (⟨clock, cost⟩ :: spent) + level' ≤ cap + gain * (clock - a) := by
    intro a ha
    have hbefore := h.now a ha
    rw [spentIn_cons, if_pos ⟨ha, Nat.le_refl clock⟩]
    dsimp only
    omega
  have hpast : ∀ e ∈ (⟨clock, cost⟩ :: spent : List Expense), e.time ≤ clock := by
    intro e he
    rcases List.mem_cons.mp he with rfl | he
    · exact Nat.le_refl _
    · exact h.past e he
  refine ⟨hpast, fun a b hab => ?_, hnow⟩
  by_cases hin : a ≤ clock ∧ clock ≤ b
  · -- the interval sees the new expense, and so all that has been spent since `a`
    have hsame : spentIn a b (⟨clock, cost⟩ :: spent) = spentIn a clock (⟨clock, cost⟩ :: spent) :=
      spentIn_congr fun e he => ⟨Nat.le_trans (hpast e he) hin.2, hpast e he⟩
    have hbound := hnow a hin.1
    have hmono : gain * (clock - a) ≤ gain * (b - a) := Nat.mul_le_mul_left gain (by omega)
    omega
  · rw [spentIn_cons, if_neg hin, Nat.zero_add]
    exact h.within a b hab

end Allowance
