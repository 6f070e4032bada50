/-
A log over a sliding window.

A limiter notes when it let something through, oldest first.  Before it looks at the log it drops
from the front what is older than the window, and it lets nothing more through while the log is
full.  What was ever let through (`all`) is only in the history; `Sound` ties the two together:

* `Sound.later`, `Sound.trim`, `Sound.charge` — it is kept as time passes, as the log is trimmed,
  and by one more entry, if the log was not full;
* `Sound.bounded` — so no closed interval as long as the window holds more entries than the log
  may.
-/
import Mathlib.Data.List.DropRight

namespace SlidingWindow

/-- The log without the entries at its front that are older than the window. -/
def trim (now window : ℕ) (log : List ℕ) : List ℕ :=
  log.dropWhile fun t => decide (window < now - t)

/-- The entries in the closed interval of the window's length that starts at `lo`. -/
def within (lo window : ℕ) (all : List ℕ) : List ℕ :=
  all.filter fun t => decide (lo ≤ t ∧ t ≤ lo + window)

/-- **A log that can be relied on**: what it no longer holds has left the window, it
is not too long, and no interval of the window's length holds too much. -/
structure Sound (window max now : ℕ) (all log : List ℕ) : Prop where
  covers : ∃ old, all = old ++ log ∧ ∀ t ∈ old, t + window < now
  length_le : log.length ≤ max
  bounded : ∀ lo, (within lo window all).length ≤ max

variable {window max now : ℕ} {all log : List ℕ}

theorem trim_suffix (now window : ℕ) (log : List ℕ) : trim now window log <:+ log :=
  List.dropWhile_suffix _

theorem length_trim_lt {t : ℕ} (hhead : log.head? = some t) (hold : window < now - t) :
    (trim now window log).length < log.length := by
  cases log with
  | nil => cases hhead
  | cons t' log =>
    obtain rfl := Option.some.inj hhead
    have hdrop : trim now window (t' :: log) = trim now window log :=
      List.dropWhile_cons_of_pos (p := fun t => decide (window < now - t)) (decide_eq_true hold)
    rw [hdrop, List.length_cons]
    exact Nat.lt_succ_of_le (trim_suffix now window log).length_le

theorem within_append (lo window : ℕ) (all all' : List ℕ) :
    within lo window (all ++ all') = within lo window all ++ within lo window all' :=
  List.filter_append ..

theorem Sound.nil (window max now : ℕ) : Sound window max now [] [] where
  covers := ⟨[], rfl, fun _ h => by cases h⟩
  length_le := Nat.zero_le max
  bounded _ := Nat.zero_le max

theorem Sound.later (h : Sound window max now all log) {now' : ℕ} (hle : now ≤ now') :
    Sound window max now' all log where
  covers := by
    obtain ⟨old, hall, hold⟩ := h.covers
    exact ⟨old, hall, fun t ht => Nat.lt_of_lt_of_le (hold t ht) hle⟩
  length_le := h.length_le
  bounded := h.bounded

theorem Sound.trim (h : Sound window max now all log) :
    Sound window max now all (trim now window log) where
  covers := by
    obtain ⟨old, hall, hold⟩ := h.covers
    refine ⟨old ++ log.takeWhile fun t => decide (window < now - t), ?_, fun t ht => ?_⟩
    · rw [List.append_assoc, SlidingWindow.trim, List.takeWhile_append_dropWhile, hall]
    · rcases List.mem_append.mp ht with ht | ht
      · exact hold t ht
      · have hlt : decide (window < now - t) = true :=
          List.mem_takeWhile_imp (p := fun t => decide (window < now - t)) ht
        have hlt' := of_decide_eq_true hlt
        omega
  length_le := (trim_suffix now window log).length_le.trans h.length_le
  bounded := h.bounded

/-- **One more entry.**  An interval that holds the new entry starts within the window
of it, so whatever else it holds is still in the log. -/
theorem Sound.charge (h : Sound window max now all log) (hlt : log.length < max) :
    Sound window max now (all ++ [now]) (log ++ [now]) where
  covers := by
    obtain ⟨old, hall, hold⟩ := h.covers
    exact ⟨old, by rw [hall, List.append_assoc], hold⟩
  length_le := by
    rw [List.length_append, List.length_singleton]
    exact hlt
  bounded lo := by
    by_cases hin : lo ≤ now ∧ now ≤ lo + window
    · obtain ⟨old, rfl, hold⟩ := h.covers
      have hgone : within lo window old = [] := by
        refine List.filter_eq_nil_iff.mpr fun t ht => ?_
        have hlt' := hold t ht
        simp only [decide_eq_true_eq]
        omega
      calc (within lo window (old ++ log ++ [now])).length
          = (within lo window (log ++ [now])).length := by
            rw [List.append_assoc, within_append, hgone, List.nil_append]
        _ ≤ (log ++ [now]).length := List.length_filter_le _ _
        _ ≤ max := by rw [List.length_append, List.length_singleton]; exact hlt
    · have hout : within lo window [now] = [] := by simpa [within] using hin
      rw [within_append, hout, List.append_nil]
      exact h.bounded lo

end SlidingWindow
