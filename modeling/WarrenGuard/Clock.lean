/-
Runs whose steps happen at times that never go back.

A `Clocked` state carries the time of the last step.  Where `step now` is what can happen at
`now`, a run from `x` is `Reachable (· = x) (Later step)`:

* `Reachable.clock_le` — the clock of a run never goes back;
* `Reachable.until`, `Reachable.from_now_on` — what every step keeps before a deadline, or at all
  times, holds until then.
-/
import Mathlib.Order.Nat
import WarrenGuard.Transition

namespace Transition

variable {σ : Type*}

structure Clocked (σ : Type*) where
  state : σ
  clock : ℕ

def Later (step : ℕ → σ → σ → Prop) (x y : Clocked σ) : Prop :=
  x.clock ≤ y.clock ∧ step y.clock x.state y.state

variable {step : ℕ → σ → σ → Prop} {x y : Clocked σ}

theorem Reachable.clock_le (h : Reachable (· = x) (Later step) y) : x.clock ≤ y.clock := by
  induction h with
  | start hy => exact (congrArg Clocked.clock hy).ge
  | next _ hs ih => exact ih.trans hs.1

/-- **Until a deadline.**  A property of the start that every step before the
deadline keeps holds in every state reached before the deadline. -/
theorem Reachable.until {P : Clocked σ → Prop} {deadline : ℕ} (h0 : P x)
    (hstep : ∀ y z, P y → Later step y z → z.clock < deadline → P z)
    (h : Reachable (· = x) (Later step) y) (hy : y.clock < deadline) : P y := by
  induction h with
  | start heq => rw [heq]; exact h0
  -- the steps before were no later, so they were before the deadline too
  | next _ hs ih => exact hstep _ _ (ih (hs.1.trans_lt hy)) hs hy

/-- **From now on.**  A property of the start that every step keeps holds in every
state reached. -/
theorem Reachable.from_now_on {P : Clocked σ → Prop} (h0 : P x)
    (hstep : ∀ y z, P y → Later step y z → P z) (h : Reachable (· = x) (Later step) y) : P y := by
  refine h.invariant ?_ hstep
  rintro y rfl
  exact h0

end Transition
