/-
What a token bucket lets through (`TokenBucket::try_consume_at` of
`warrenguard-ratelimit/src/lib.rs`).

A bucket is refilled when it is asked, for the time since it was last asked.  Callers read the
clock before they take the lock, so a call may bring an earlier time than the one before it.  The
refill is then zero, but the next call is paid for the same stretch of time again.

* `account_serve` — the tokens are an account that a call at a later time draws on;
* `admitted_within` — the bound on what is admitted, where no call brings an earlier time than the
  one before it; `admitted_beyond` — where one does.
-/
import WarrenGuard.RatePolicy
import WarrenGuard.Allowance
import Mathlib.Algebra.BigOperators.Ring.List

namespace WarrenGuard.RateLimit

open Allowance

structure Take where
  bytes : ℕ
  now : ℕ
deriving DecidableEq

/-- A bucket, and the calls that were admitted, newest first. -/
structure Metered where
  bucket : TokenBucket
  admitted : List Take
deriving DecidableEq

namespace Metered

def start (spec : RateSpec) (created : ℕ) : Metered := ⟨.new spec created, []⟩

def serve (m : Metered) (call : Take) : Metered :=
  let (admitted, bucket) := m.bucket.tryConsumeAt call.bytes call.now
  ⟨bucket, if admitted then call :: m.admitted else m.admitted⟩

def bytes (m : Metered) : ℕ := (m.admitted.map Take.bytes).sum

/-- The admitted calls as expenses, in billionths of a byte. -/
def expenses (m : Metered) : List Expense :=
  m.admitted.map fun call => ⟨call.now, nanosPerSec * call.bytes⟩

end Metered

def earliest (calls : List Take) : ℕ := ((calls.map Take.now).min?).getD 0

def latest (calls : List Take) : ℕ := ((calls.map Take.now).max?).getD 0

variable {calls : List Take}

theorem earliest_le {call : Take} (h : call ∈ calls) :
    earliest calls ≤ call.now := by
  unfold earliest
  have hmem : call.now ∈ calls.map Take.now := List.mem_map_of_mem h
  cases hmin : (calls.map Take.now).min? with
  | none =>
    rw [List.min?_eq_none_iff.mp hmin] at hmem
    cases hmem
  | some least => exact (List.min?_eq_some_iff.mp hmin).2 _ hmem

theorem le_latest {call : Take} (h : call ∈ calls) :
    call.now ≤ latest calls := by
  unfold latest
  have hmem : call.now ∈ calls.map Take.now := List.mem_map_of_mem h
  cases hmax : (calls.map Take.now).max? with
  | none =>
    rw [List.max?_eq_none_iff.mp hmax] at hmem
    cases hmem
  | some most => exact (List.max?_eq_some_iff.mp hmax).2 _ hmem

/-! ### One call -/

section Calls

variable {m : Metered} {call : Take} {spec : RateSpec} {level : ℕ}

/-- **What a call does**: the tokens are refilled, and drawn on if they are enough. -/
theorem serve_cases (m : Metered) (call : Take) (level)
    (hlevel : level = min (m.bucket.tokens + (call.now - m.bucket.lastRefill) * m.bucket.rateBps)
      (nanosPerSec * m.bucket.capacityBytes)) :
    (m.serve call).bucket.lastRefill = call.now ∧
    (((m.serve call).bucket.tokens + nanosPerSec * call.bytes = level ∧
        (m.serve call).admitted = call :: m.admitted) ∨
      ((m.serve call).bucket.tokens = level ∧ (m.serve call).admitted = m.admitted)) := by
  refine ⟨rfl, ?_⟩
  unfold Metered.serve TokenBucket.tryConsumeAt
  dsimp only
  rw [← hlevel]
  by_cases h : nanosPerSec * call.bytes ≤ level
  · rw [decide_eq_true h, if_pos h]
    exact .inl ⟨Nat.sub_add_cancel h, rfl⟩
  · rw [decide_eq_false h, if_neg h]
    exact .inr ⟨rfl, rfl⟩

structure Funded (spec : RateSpec) (m : Metered) : Prop where
  builtFrom : m.bucket.BuiltFrom spec
  account : Account (nanosPerSec * spec.capacityBytes) spec.rateBps m.bucket.lastRefill
    m.bucket.tokens m.expenses

theorem funded_serve (hspec : m.bucket.BuiltFrom spec)
    (hlevel : level = min (m.bucket.tokens + (call.now - m.bucket.lastRefill) * m.bucket.rateBps)
      (nanosPerSec * m.bucket.capacityBytes))
    (h : Account (nanosPerSec * spec.capacityBytes) spec.rateBps call.now level m.expenses) :
    Funded spec (m.serve call) := by
  refine ⟨hspec.tryConsumeAt call.bytes call.now, ?_⟩
  obtain ⟨hlast, ⟨htokens, hadmitted⟩ | ⟨htokens, hadmitted⟩⟩ := serve_cases m call level hlevel
  · rw [hlast, Metered.expenses, hadmitted]
    exact h.spend (Nat.le_of_eq htokens)
  · rw [hlast, Metered.expenses, hadmitted, htokens]
    exact h

theorem funded_first (spec) (created : ℕ) (call) :
    Funded spec ((Metered.start spec created).serve call) := by
  refine funded_serve (TokenBucket.builtFrom_new spec created) rfl (Account.start ?_)
  exact Nat.min_le_right _ _

/-- **A call at a later time** draws on the account. -/
theorem account_serve (h : Funded spec m) (hnow : m.bucket.lastRefill ≤ call.now) :
    Funded spec (m.serve call) := by
  obtain ⟨hcapacity, hrate⟩ := h.builtFrom
  refine funded_serve h.builtFrom rfl (h.account.later hnow ?_ ?_)
  · rw [hrate, Nat.mul_comm spec.rateBps]
    exact Nat.min_le_left _ _
  · rw [hcapacity]
    exact Nat.min_le_right _ _

end Calls

/-! ### Runs -/

/-- **A run at times that do not go back** keeps the account. -/
theorem funded_run {spec : RateSpec} {m : Metered} {last : Take}
    (h : Funded spec m) (hlast : m.bucket.lastRefill = last.now)
    (hordered : (last :: calls).IsChain fun call next => call.now ≤ next.now) :
    Funded spec (calls.foldl Metered.serve m) := by
  induction calls generalizing m last with
  | nil => exact h
  | cons call calls ih =>
    obtain ⟨hle, hrest⟩ := List.isChain_cons_cons.mp hordered
    rw [← hlast] at hle
    exact ih (account_serve h hle) rfl hrest

theorem mem_admitted_run {m : Metered} {call : Take}
    (h : call ∈ (calls.foldl Metered.serve m).admitted) : call ∈ m.admitted ∨ call ∈ calls := by
  induction calls generalizing m with
  | nil => exact .inl h
  | cons first calls ih =>
    rcases ih h with hin | hin
    · obtain ⟨-, ⟨-, hadmitted⟩ | ⟨-, hadmitted⟩⟩ := serve_cases m first _ rfl
      · rw [hadmitted] at hin
        rcases List.mem_cons.mp hin with rfl | hin
        · exact .inr List.mem_cons_self
        · exact .inl hin
      · exact .inl (hadmitted ▸ hin)
    · exact .inr (List.mem_cons_of_mem first hin)

theorem sum_expenses (m : Metered) :
    (m.expenses.map Expense.cost).sum = nanosPerSec * m.bytes := by
  rw [Metered.expenses, List.map_map, Metered.bytes, ← List.sum_map_mul_left]
  rfl

/-- **What a bucket admits.**  For every capacity and rate, whenever the bucket was made: if no
call brings an earlier time than the call before it, the bytes admitted are at most the
capacity and what the rate brings in from the earliest to the latest time of the calls. -/
theorem admitted_within (spec : RateSpec) (created : ℕ) (calls : List Take)
    (hordered : calls.IsChain fun call next => call.now ≤ next.now) :
    nanosPerSec * (calls.foldl Metered.serve (.start spec created)).bytes
      ≤ nanosPerSec * spec.capacityBytes + spec.rateBps * (latest calls - earliest calls) := by
  cases calls with
  | nil => exact Nat.zero_le _
  | cons first rest =>
    have hfunded :
        Funded spec (rest.foldl Metered.serve ((Metered.start spec created).serve first)) :=
      funded_run (funded_first spec created first) rfl hordered
    rw [← List.foldl_cons] at hfunded
    have hle : earliest (first :: rest) ≤ latest (first :: rest) :=
      Nat.le_trans (earliest_le List.mem_cons_self) (le_latest List.mem_cons_self)
    generalize hcalls : first :: rest = calls at hfunded hle ⊢
    have hall : ∀ e ∈ (calls.foldl Metered.serve (.start spec created)).expenses,
        earliest calls ≤ e.time ∧ e.time ≤ latest calls := by
      intro e he
      obtain ⟨call, hcall, rfl⟩ := List.mem_map.mp he
      have hmem : call ∈ calls := (mem_admitted_run hcall).resolve_left List.not_mem_nil
      exact ⟨earliest_le hmem, le_latest hmem⟩
    have hbound := hfunded.account.within (earliest calls) (latest calls) hle
    rw [spentIn_eq_sum hall, sum_expenses] at hbound
    exact hbound

def smallSpec : RateSpec := ⟨100, 100, by decide⟩

theorem admitted_within_ordered :
    nanosPerSec * ([⟨100, 0⟩, ⟨100, 1000000000⟩].foldl Metered.serve (.start smallSpec 7)).bytes
      ≤ nanosPerSec * 200 :=
  admitted_within smallSpec 7 [⟨100, 0⟩, ⟨100, 1000000000⟩] (by decide)

/-- Between two calls at one second, a call with the time 0 is refused; the third hundred bytes
are admitted all the same, within one second. -/
theorem admitted_beyond :
    nanosPerSec * ([⟨100, 0⟩, ⟨100, 1000000000⟩, ⟨50, 0⟩, ⟨100, 1000000000⟩].foldl Metered.serve
        (.start smallSpec 0)).bytes = nanosPerSec * 300 ∧
      nanosPerSec * smallSpec.capacityBytes + smallSpec.rateBps *
        (latest [⟨100, 0⟩, ⟨100, 1000000000⟩, ⟨50, 0⟩, ⟨100, 1000000000⟩] -
          earliest [⟨100, 0⟩, ⟨100, 1000000000⟩, ⟨50, 0⟩, ⟨100, 1000000000⟩])
        = nanosPerSec * 200 := by
  decide

end WarrenGuard.RateLimit
