/-
Commands that may fail.

A program runs commands on a system one after the other.  `outcome i` says how the `i`-th command
ends, so that a statement for every `outcome` is about every pattern of failures.  The host keeps
the states after each command:

* `Host.run` — one command, with what it does when it succeeds and when it fails;
* `Through P` — `P` holds after every command from one host to another (`through_run`,
  `Through.trans`, `foldl_through`);
* `Succeeds` — every command from one host to another succeeded.
-/
import Mathlib.Tactic.Common

namespace Commands

variable {σ α : Type*}

/-- A system and the states it was in after each command, the newest first. -/
structure Host (σ : Type*) where
  state : σ
  history : List σ

namespace Host

def new (s : σ) : Host σ := ⟨s, []⟩

def run (outcome : ℕ → Bool) (ok err : σ → σ) (h : Host σ) : Bool × Host σ :=
  let s := if outcome h.history.length then ok h.state else err h.state
  (outcome h.history.length, ⟨s, s :: h.history⟩)

def modify (f : σ → σ) (h : Host σ) : Host σ := { h with state := f h.state }

@[simp] theorem modify_state (f : σ → σ) (h : Host σ) : (h.modify f).state = f h.state := rfl

@[simp] theorem modify_history (f : σ → σ) (h : Host σ) : (h.modify f).history = h.history := rfl

theorem run_state (outcome : ℕ → Bool) (ok err : σ → σ) (h : Host σ) :
    (h.run outcome ok err).2.state
      = if outcome h.history.length then ok h.state else err h.state := rfl

end Host

open Host

variable {P Q : σ → Prop} {h h' h'' : Host σ} {outcome : ℕ → Bool} {ok err : σ → σ}

/-! ### What holds after every command -/

/-- The host `h'` comes from `h` by commands, after each of which `P` holds. -/
def Through (P : σ → Prop) (h h' : Host σ) : Prop :=
  ∃ new, h'.history = new ++ h.history ∧ ∀ s ∈ new, P s

theorem Through.refl (h : Host σ) : Through P h h := ⟨[], rfl, fun _ hs => by cases hs⟩

theorem Through.trans (hp : Through P h h') (hp' : Through P h' h'') : Through P h h'' := by
  obtain ⟨new, hnew, hP⟩ := hp
  obtain ⟨new', hnew', hP'⟩ := hp'
  refine ⟨new' ++ new, by rw [hnew', hnew, List.append_assoc], fun s hs => ?_⟩
  rcases List.mem_append.mp hs with hs | hs
  · exact hP' s hs
  · exact hP s hs

theorem Through.mono (hp : Through P h h') (hPQ : ∀ s, P s → Q s) : Through Q h h' := by
  obtain ⟨new, hnew, hP⟩ := hp
  exact ⟨new, hnew, fun s hs => hPQ s (hP s hs)⟩

theorem Through.of_modify {f : σ → σ} (hp : Through P (h.modify f) h') : Through P h h' := hp

theorem Through.length_le (hp : Through P h h') : h.history.length ≤ h'.history.length := by
  obtain ⟨new, hnew, -⟩ := hp
  rw [hnew, List.length_append]
  exact Nat.le_add_left _ _

theorem Through.forall_mem (hp : Through P h h') (hold : ∀ s ∈ h.history, P s) :
    ∀ s ∈ h'.history, P s := by
  obtain ⟨new, hnew, hP⟩ := hp
  intro s hs
  rw [hnew] at hs
  rcases List.mem_append.mp hs with hs | hs
  · exact hP s hs
  · exact hold s hs

theorem through_run (hP : P (h.run outcome ok err).2.state) :
    Through P h (h.run outcome ok err).2 :=
  ⟨[(h.run outcome ok err).2.state], rfl, fun s hs => by
    rw [List.mem_singleton.mp hs]
    exact hP⟩

variable {body : Host σ → α → Host σ}

/-- **The rule for loops.** -/
theorem foldl_through {I : σ → Prop} {l : List α}
    (hbody : ∀ h, ∀ a ∈ l, I h.state → I (body h a).state ∧ Through P h (body h a))
    (hI : I h.state) : I (l.foldl body h).state ∧ Through P h (l.foldl body h) := by
  induction l generalizing h with
  | nil => exact ⟨hI, .refl h⟩
  | cons a l ih =>
    obtain ⟨hI', hthrough⟩ := hbody h a List.mem_cons_self hI
    obtain ⟨hI'', hthrough'⟩ :=
      ih (fun h b hb => hbody h b (List.mem_cons_of_mem a hb)) hI'
    exact ⟨hI'', hthrough.trans hthrough'⟩

/-! ### Commands that all succeed -/

def Succeeds (outcome : ℕ → Bool) (h h' : Host σ) : Prop :=
  ∀ i, h.history.length ≤ i → i < h'.history.length → outcome i = true

theorem Succeeds.left (hs : Succeeds outcome h h'')
    (hle : h'.history.length ≤ h''.history.length) : Succeeds outcome h h' :=
  fun i hi hi' => hs i hi (Nat.lt_of_lt_of_le hi' hle)

theorem Succeeds.right (hs : Succeeds outcome h h'')
    (hle : h.history.length ≤ h'.history.length) : Succeeds outcome h' h'' :=
  fun i hi hi' => hs i (Nat.le_trans hle hi) hi'

theorem Succeeds.modify (hs : Succeeds outcome h h') (f : σ → σ) :
    Succeeds outcome (h.modify f) h' := hs

theorem Succeeds.run_state (hs : Succeeds outcome h (h.run outcome ok err).2) :
    (h.run outcome ok err).2.state = ok h.state := by
  have htrue : outcome h.history.length = true :=
    hs _ (Nat.le_refl _) (Nat.lt_succ_self h.history.length)
  rw [Host.run_state, if_pos htrue]

theorem length_le_foldl (hmono : ∀ h a, h.history.length ≤ (body h a).history.length) (l : List α)
    (h : Host σ) : h.history.length ≤ (l.foldl body h).history.length := by
  induction l generalizing h with
  | nil => exact Nat.le_refl _
  | cons a l ih => exact Nat.le_trans (hmono h a) (ih (body h a))

/-- **The rule for loops whose commands all succeed.** What holds may speak of the turns that
are still to come. -/
theorem Succeeds.foldl {R : List α → σ → Prop} {l : List α}
    (hmono : ∀ h a, h.history.length ≤ (body h a).history.length)
    (hturn : ∀ h a rest, R (a :: rest) h.state → Succeeds outcome h (body h a) →
      R rest (body h a).state)
    (hs : Succeeds outcome h (l.foldl body h)) (hR : R l h.state) :
    R [] (l.foldl body h).state := by
  induction l generalizing h with
  | nil => exact hR
  | cons a l ih =>
    have hle : (body h a).history.length ≤ (l.foldl body (body h a)).history.length :=
      length_le_foldl hmono l _
    exact ih (hs.right (hmono h a)) (hturn h a l hR (hs.left hle))

end Commands
