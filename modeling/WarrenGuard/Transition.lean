/-
Runs of a transition system.

`Reachable init step` is the set of states a system can be in.  Where the steps are the actions of
a set of labels, taken only where a guard allows them, the step relation is `Guarded ok act`.  The
rules below are the only inductions over runs in this development:

* `Reachable.invariant` — what holds at the start and is kept by every step holds in every
  reachable state;
* `Reachable.foldl` — a list of actions, each of them a step, is a run;
* `foldl_frame` — what none of the actions changes is as it was after all of them;
* `Reachable.run` — a list of labels that the guard allows one after another (`Allowed`) is a run.
-/
import Mathlib.Tactic.Common

namespace Transition

variable {σ ι : Type*}

/-- The states reachable from `init` by `step`. -/
inductive Reachable (init : σ → Prop) (step : σ → σ → Prop) : σ → Prop
  | start {s : σ} : init s → Reachable init step s
  | next {s s' : σ} : Reachable init step s → step s s' → Reachable init step s'

/-- The steps of the actions `act`, where `ok` allows them. -/
def Guarded (ok : σ → ι → Prop) (act : σ → ι → σ) (s s' : σ) : Prop := ∃ i, ok s i ∧ s' = act s i

variable {init : σ → Prop} {step : σ → σ → Prop} {ok : σ → ι → Prop} {act : σ → ι → σ} {s : σ}

/-- **The invariant rule.** -/
theorem Reachable.invariant {I : σ → Prop} (h0 : ∀ s, init s → I s)
    (hstep : ∀ s s', I s → step s s' → I s') (h : Reachable init step s) : I s := by
  induction h with
  | start hs => exact h0 _ hs
  | next _ hs ih => exact hstep _ _ ih hs

/-- **A list of actions is a run**, if each of them is a step. -/
theorem Reachable.foldl (hstep : ∀ s i, step s (act s i)) (labels : List ι)
    (h : Reachable init step s) : Reachable init step (labels.foldl act s) := by
  induction labels generalizing s with
  | nil => exact h
  | cons i labels ih => exact ih (h.next (hstep s i))

/-- **The frame rule.** -/
theorem foldl_frame {α : Type*} {f : σ → α} {labels : List ι}
    (h : ∀ i ∈ labels, ∀ s, f (act s i) = f s) : f (labels.foldl act s) = f s := by
  induction labels generalizing s with
  | nil => rfl
  | cons i labels ih =>
    rw [List.foldl_cons, ih fun j hj => h j (List.mem_cons_of_mem i hj)]
    exact h i List.mem_cons_self s

/-- The guard allows the labels one after another. -/
def Allowed (ok : σ → ι → Prop) (act : σ → ι → σ) : σ → List ι → Prop
  | _, [] => True
  | s, i :: labels => ok s i ∧ Allowed ok act (act s i) labels

instance Allowed.decidable [∀ s i, Decidable (ok s i)] :
    (s : σ) → (labels : List ι) → Decidable (Allowed ok act s labels)
  | _, [] => inferInstanceAs (Decidable True)
  | s, i :: labels =>
    haveI := Allowed.decidable (act s i) labels
    inferInstanceAs (Decidable (ok s i ∧ Allowed ok act (act s i) labels))

/-- **A list of allowed labels is a run.** -/
theorem Reachable.run (h : Reachable init (Guarded ok act) s) {labels : List ι}
    (hok : Allowed ok act s labels) : Reachable init (Guarded ok act) (labels.foldl act s) := by
  induction labels generalizing s with
  | nil => exact h
  | cons i labels ih => exact ih (h.next ⟨i, hok.1, rfl⟩) hok.2

end Transition
