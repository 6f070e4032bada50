/-
Two runs of services that get the same calls.

* `Alike R` — two answers that are equal, from services that `R` relates afterwards;
* `answers_eq` — all answers of two runs are equal, if under `R` every call is answered alike and
  the moves that either side makes between calls keep `R`.
-/
import WarrenGuard.Transition

namespace SideBySide

variable {σ τ ι α : Type*}

/-- The same answer, from services that stay related. -/
structure Alike (R : σ → τ → Prop) (r : α × σ) (r' : α × τ) : Prop where
  answer : r.1 = r'.1
  next : R r.2 r'.2

theorem Alike.split {R : σ → τ → Prop} {r : α × σ} {r' : α × τ} (h : Alike R r r') :
    ∃ answer s t, r = (answer, s) ∧ r' = (answer, t) ∧ R s t :=
  ⟨r.1, r.2, r'.2, rfl, Prod.ext h.answer.symm rfl, h.next⟩

/-- Two services, and what each of them has answered so far. -/
structure Pair (σ τ α : Type*) where
  left : σ
  right : τ
  leftAnswers : List α
  rightAnswers : List α

def Pair.start (s : σ) (t : τ) : Pair σ τ α := ⟨s, t, [], []⟩

variable (call : ι → σ → α × σ) (call' : ι → τ → α × τ) (quiet : σ → σ → Prop)
  (quiet' : τ → τ → Prop)

def Pair.after (x : Pair σ τ α) (i : ι) : Pair σ τ α where
  left := (call i x.left).2
  right := (call' i x.right).2
  leftAnswers := x.leftAnswers ++ [(call i x.left).1]
  rightAnswers := x.rightAnswers ++ [(call' i x.right).1]

/-- One call to both services, or a move of one of them. -/
inductive Step (x : Pair σ τ α) : Pair σ τ α → Prop
  | call (i : ι) : Step x (x.after call call' i)
  | quietLeft {s : σ} (h : quiet x.left s) : Step x { x with left := s }
  | quietRight {t : τ} (h : quiet' x.right t) : Step x { x with right := t }

variable {call call' quiet quiet'} {R : σ → τ → Prop} {x : Pair σ τ α}

/-- **The rule for two runs.** -/
theorem answers_eq {init : Pair σ τ α → Prop}
    (h0 : ∀ x, init x → R x.left x.right ∧ x.leftAnswers = x.rightAnswers)
    (hcall : ∀ i s t, R s t → Alike R (call i s) (call' i t))
    (hleft : ∀ s s' t, R s t → quiet s s' → R s' t)
    (hright : ∀ s t t', R s t → quiet' t t' → R s t')
    (h : Transition.Reachable init (Step call call' quiet quiet') x) :
    R x.left x.right ∧ x.leftAnswers = x.rightAnswers := by
  refine h.invariant (I := fun x => R x.left x.right ∧ x.leftAnswers = x.rightAnswers) h0 ?_
  rintro x y ⟨hR, hanswers⟩ hstep
  cases hstep with
  | call i =>
    obtain ⟨hanswer, hnext⟩ := hcall i x.left x.right hR
    refine ⟨hnext, ?_⟩
    dsimp only [Pair.after]
    rw [hanswers, hanswer]
  | quietLeft hquiet => exact ⟨hleft _ _ _ hR hquiet, hanswers⟩
  | quietRight hquiet => exact ⟨hright _ _ _ hR hquiet, hanswers⟩

end SideBySide
