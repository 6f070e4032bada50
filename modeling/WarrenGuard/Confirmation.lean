/-
Convictions that need two findings in a row.

Who fails a clean round is a suspect until the next; a suspect that fails the next round too, and
that is clean as well, is convicted, and stays so for as long as every round keeps the conviction
up (`Record.convicted_iff`).
-/
import Mathlib.Tactic.Common

namespace Confirmation

/-- How the marks come about from what the rounds find: `convicted n` and `suspect n` are the
marks before round `n`. -/
structure Record (clean fails keeps convicted suspect : ℕ → Prop) : Prop where
  innocent : ¬ convicted 0
  unsuspected : ¬ suspect 0
  suspect_succ : ∀ n, suspect (n + 1) ↔ clean n ∧ fails n
  convicted_succ : ∀ n, convicted (n + 1) ↔
    (convicted n ∧ keeps n) ∨ (clean n ∧ suspect n ∧ fails n)

/-- Failing rounds `k` and `k + 1`, both of them clean. -/
structure Twice (clean fails : ℕ → Prop) (k : ℕ) : Prop where
  first_clean : clean k
  second_clean : clean (k + 1)
  first_fails : fails k
  second_fails : fails (k + 1)

variable {clean fails keeps convicted suspect : ℕ → Prop}

theorem Record.fresh_iff (h : Record clean fails keeps convicted suspect) (n : ℕ) :
    (clean n ∧ suspect n ∧ fails n) ↔ ∃ k, k + 1 = n ∧ Twice clean fails k := by
  cases n with
  | zero =>
    constructor
    · rintro ⟨-, hsuspect, -⟩
      exact absurd hsuspect h.unsuspected
    · rintro ⟨k, hk, -⟩
      omega
  | succ n =>
    rw [h.suspect_succ]
    constructor
    · rintro ⟨hclean, ⟨hclean', hfails'⟩, hfails⟩
      exact ⟨n, rfl, hclean', hclean, hfails', hfails⟩
    · rintro ⟨k, hk, htwice⟩
      obtain rfl : k = n := by omega
      exact ⟨htwice.second_clean, ⟨htwice.first_clean, htwice.first_fails⟩, htwice.second_fails⟩

/-- **Who is convicted after round `r`**: who failed two clean rounds in a row, the conviction
being kept up by every round from the second of them on. -/
theorem Record.convicted_iff (h : Record clean fails keeps convicted suspect)
    (hkeeps : ∀ n, fails n → keeps n) (r : ℕ) :
    convicted (r + 1) ↔
      ∃ k, k + 1 ≤ r ∧ Twice clean fails k ∧ ∀ j, k + 1 ≤ j → j ≤ r → keeps j := by
  induction r with
  | zero =>
    rw [h.convicted_succ, h.fresh_iff]
    constructor
    · rintro (⟨hconvicted, -⟩ | ⟨k, hk, -⟩)
      · exact absurd hconvicted h.innocent
      · omega
    · rintro ⟨k, hk, -⟩
      omega
  | succ r ih =>
    rw [h.convicted_succ, h.fresh_iff, ih]
    constructor
    · rintro (⟨⟨k, hk, htwice, hkept⟩, hkeep⟩ | ⟨k, hk, htwice⟩)
      · refine ⟨k, by omega, htwice, fun j hlo hhi => ?_⟩
        rcases Nat.lt_or_eq_of_le hhi with hlt | rfl
        · exact hkept j hlo (by omega)
        · exact hkeep
      · refine ⟨k, by omega, htwice, fun j hlo hhi => ?_⟩
        obtain rfl : j = k + 1 := by omega
        exact hkeeps _ htwice.second_fails
    · rintro ⟨k, hk, htwice, hkept⟩
      rcases Nat.lt_or_eq_of_le hk with hlt | heq
      · exact .inl ⟨⟨k, by omega, htwice, fun j hlo hhi => hkept j hlo (by omega)⟩,
          hkept (r + 1) hk (Nat.le_refl _)⟩
      · exact .inr ⟨k, heq, htwice⟩

end Confirmation
