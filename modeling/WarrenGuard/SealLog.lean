/-
Logs of sealed messages, each under a tag and a 64-bit number.

A log with a repeated entry is a reused message key.  The rule that keeps entries apart is that a
number used with a tag is above all used with it before:

* `Below log tag n` — all numbers used with `tag` are below `n`;
* `nodup_cons` — an entry whose number is not below keeps the log free of repeats;
* `Below.cons` — what a new entry leaves of the bound of any tag.
-/
import Mathlib.Data.List.Nodup

namespace SealLog

variable {τ : Type*}

def Below (log : List (τ × UInt64)) (tag : τ) (n : ℕ) : Prop :=
  ∀ e ∈ log, e.1 = tag → e.2.toNat < n

variable {log : List (τ × UInt64)} {tag tag' : τ} {n m : ℕ} {seq : UInt64}

theorem Below.mono (h : Below log tag n) (hnm : n ≤ m) : Below log tag m :=
  fun e he htag => Nat.lt_of_lt_of_le (h e he htag) hnm

theorem below_of_unused (h : ∀ e ∈ log, e.1 ≠ tag) : Below log tag n :=
  fun e he htag => absurd htag (h e he)

theorem Below.cons (h : Below log tag n) (hnew : tag' = tag → seq.toNat < n) :
    Below ((tag', seq) :: log) tag n := by
  intro e he htag
  rcases List.mem_cons.mp he with rfl | he
  · exact hnew htag
  · exact h e he htag

/-- **A number that is not below those used repeats none of them.** -/
theorem nodup_cons (hlog : log.Nodup) (h : Below log tag seq.toNat) :
    ((tag, seq) :: log).Nodup := by
  refine List.nodup_cons.mpr ⟨fun hmem => ?_, hlog⟩
  exact absurd (h _ hmem rfl) (Nat.lt_irrefl _)

instance [DecidableEq τ] (log : List (τ × UInt64)) (tag : τ) (n : ℕ) :
    Decidable (Below log tag n) :=
  inferInstanceAs (Decidable (∀ e ∈ log, e.1 = tag → e.2.toNat < n))

end SealLog
