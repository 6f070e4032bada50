/-
Streams that arrive in pieces.

One read returns some of what has arrived, at most as much as its buffer holds.  `Arrival` lists
what arrives, and `content` is the stream whatever the pieces are:

* `read_content`, `content_readTimes` — reads take the front of the content and leave the rest;
* `Steady` — streams without errors and silence (`Steady.read_cases`).

A message that ends with a delimiter is complete when the delimiter has arrived: `position` finds
it as soon as it is there (`position_of_append`), where it stays (`position_append`).
-/
import Mathlib.Tactic.Common

namespace SegmentedStream

variable {α : Type}

/-- What comes next on a stream: some of its content, an error, or nothing for as long as a
reader is willing to wait. -/
inductive Arrival (α : Type) where
  | data (chunk : List α)
  | failed
  | silence

inductive Got (α : Type) where
  | bytes (chunk : List α)
  | closed
  | failed
  | elapsed

/-- One read into a buffer for `cap`; a read of nothing is the end of the stream. -/
def read (cap : ℕ) : List (Arrival α) → Got α × List (Arrival α)
  | [] => (.closed, [])
  | .data [] :: s => (.closed, s)
  | .data (x :: xs) :: s =>
    if (x :: xs).length ≤ cap then (.bytes (x :: xs), s)
    else (.bytes ((x :: xs).take cap), .data ((x :: xs).drop cap) :: s)
  | .failed :: s => (.failed, s)
  | .silence :: s => (.elapsed, s)

/-- All that arrives before the end or an error. -/
def content : List (Arrival α) → List α
  | [] => []
  | .data [] :: _ => []
  | .data (x :: xs) :: s => (x :: xs) ++ content s
  | .failed :: _ => []
  | .silence :: s => content s

def broken : List (Arrival α) → Bool
  | [] => false
  | .data [] :: _ => false
  | .data (_ :: _) :: s => broken s
  | .failed :: _ => true
  | .silence :: s => broken s

/-- What a loop of reads goes down on. -/
def weight : List (Arrival α) → ℕ
  | [] => 0
  | .data chunk :: s => chunk.length + 1 + weight s
  | .failed :: s => 1 + weight s
  | .silence :: s => 1 + weight s

variable {cap : ℕ} {s : List (Arrival α)} {ys : List α}

/-- **One read**: it takes some of the content from the front, and the stream gets shorter. -/
theorem read_content (hcap : 0 < cap) {s s' : List (Arrival α)} {chunk : List α}
    (h : read cap s = (.bytes chunk, s')) :
    content s = chunk ++ content s' ∧ chunk ≠ [] ∧ weight s' < weight s := by
  match s with
  | [] => cases h
  | .data [] :: s => cases h
  | .failed :: s => cases h
  | .silence :: s => cases h
  | .data (x :: xs) :: s =>
    rw [read] at h
    split at h
    · cases h
      refine ⟨rfl, List.cons_ne_nil x xs, ?_⟩
      simp only [weight]
      omega
    · rename_i hlong
      have hdrop : ((x :: xs).drop cap).length = (x :: xs).length - cap := List.length_drop
      cases hrest : (x :: xs).drop cap with
      | nil =>
        rw [hrest, List.length_nil] at hdrop
        omega
      | cons y ys =>
        rw [hrest] at h hdrop
        cases h
        refine ⟨?_, ?_, ?_⟩
        · rw [content, content, ← hrest, ← List.append_assoc, List.take_append_drop]
        · intro hnil
          have hlen := congrArg List.length hnil
          rw [List.length_take, List.length_nil, List.length_cons] at hlen
          omega
        · simp only [weight]
          omega

/-- **What a read can find**: data, the end, silence, or an error. -/
theorem read_cases {cap : ℕ} (hcap : 0 < cap) (s : List (Arrival α)) :
    (∃ chunk s', read cap s = (.bytes chunk, s') ∧ chunk ≠ [] ∧ content s = chunk ++ content s' ∧
        broken s' = broken s ∧ chunk.length + weight s' ≤ weight s) ∨
      (∃ s', read cap s = (.closed, s') ∧ content s = []) ∨
      (∃ s', read cap s = (.elapsed, s') ∧ content s' = content s ∧ broken s' = broken s ∧
        weight s' < weight s) ∨
      ∃ s', read cap s = (.failed, s') ∧ broken s = true := by
  match s with
  | [] => exact .inr (.inl ⟨[], rfl, rfl⟩)
  | .data [] :: s => exact .inr (.inl ⟨s, rfl, rfl⟩)
  | .failed :: s => exact .inr (.inr (.inr ⟨s, rfl, rfl⟩))
  | .silence :: s =>
    refine .inr (.inr (.inl ⟨s, rfl, rfl, rfl, ?_⟩))
    rw [weight]
    omega
  | .data (x :: xs) :: s =>
    refine .inl ?_
    rcases hread : read cap (.data (x :: xs) :: s) with ⟨got, s'⟩
    have hgot := hread
    rw [read] at hgot
    split at hgot
    · cases hgot
      obtain ⟨hcontent, hne, -⟩ := read_content hcap hread
      refine ⟨_, _, rfl, hne, hcontent, rfl, ?_⟩
      simp only [weight]
      omega
    · rename_i hlong
      cases hgot
      obtain ⟨hcontent, hne, -⟩ := read_content hcap hread
      refine ⟨_, _, rfl, hne, hcontent, ?_, ?_⟩
      · -- what was not read is not the end
        cases hrest : (x :: xs).drop cap with
        | nil =>
          have hdrop : ((x :: xs).drop cap).length = (x :: xs).length - cap := List.length_drop
          rw [hrest, List.length_nil] at hdrop
          omega
        | cons y ys => rfl
      · simp only [weight]
        rw [List.length_take, List.length_drop]
        omega

theorem read_data {chunk : List α} (hne : chunk ≠ []) (cap s) :
    ∃ s', read cap (.data chunk :: s) = (.bytes (chunk.take cap), s') := by
  cases chunk with
  | nil => exact absurd rfl hne
  | cons x xs =>
    rw [read]
    split
    · rename_i hfits
      exact ⟨s, by rw [List.take_of_length_le hfits]⟩
    · exact ⟨_, rfl⟩

theorem content_data (chunk : List α) : content [.data chunk] = chunk := by
  cases chunk with
  | nil => rfl
  | cons x xs => exact List.append_nil (x :: xs)

/-- `n` reads in a row, as long as they return something. -/
def readTimes (cap : ℕ) : ℕ → List (Arrival α) → List α × List (Arrival α)
  | 0, s => ([], s)
  | n + 1, s =>
    match read cap s with
    | (.bytes chunk, s') => (chunk ++ (readTimes cap n s').1, (readTimes cap n s').2)
    | _ => ([], s)

theorem content_readTimes {cap : ℕ} (hcap : 0 < cap) (n : ℕ) (s : List (Arrival α)) :
    content s = (readTimes cap n s).1 ++ content (readTimes cap n s).2 := by
  induction n generalizing s with
  | zero => rfl
  | succ n ih =>
    rw [readTimes]
    split
    · rename_i chunk s' hread
      rw [(read_content hcap hread).1, List.append_assoc, ← ih s']
    · rfl

/-! ### Streams of nothing but data -/

def Steady (s : List (Arrival α)) : Prop := ∀ a ∈ s, ∃ chunk, a = .data chunk

/-- **A read of a steady stream** returns data, at most as much as asked for, or is at the end. -/
theorem Steady.read_cases (h : Steady s) (cap) :
    ((read cap s).1 = .closed ∧ content s = []) ∨
      ∃ chunk s', read cap s = (.bytes chunk, s') ∧ chunk.length ≤ cap ∧ Steady s' := by
  match s with
  | [] => exact .inl ⟨rfl, rfl⟩
  | .data [] :: s => exact .inl ⟨rfl, rfl⟩
  | .failed :: s =>
    obtain ⟨chunk, hdata⟩ := h _ List.mem_cons_self
    cases hdata
  | .silence :: s =>
    obtain ⟨chunk, hdata⟩ := h _ List.mem_cons_self
    cases hdata
  | .data (x :: xs) :: s =>
    have hrest : Steady s := fun a ha => h a (List.mem_cons_of_mem _ ha)
    rw [read]
    split
    · rename_i hshort
      exact .inr ⟨_, s, rfl, hshort, hrest⟩
    · refine .inr ⟨_, _, rfl, ?_, ?_⟩
      · rw [List.length_take]
        omega
      · intro a ha
        rcases List.mem_cons.mp ha with rfl | ha
        · exact ⟨_, rfl⟩
        · exact hrest a ha

/-! ### Delimiters -/

variable [DecidableEq α] {needle xs : List α} {i : ℕ}

def position (needle : List α) : List α → Option ℕ
  | [] => if needle = [] then some 0 else none
  | x :: xs =>
    if (x :: xs).take needle.length = needle then some 0 else (position needle xs).map (· + 1)

theorem position_add_le (h : position needle xs = some i) : i + needle.length ≤ xs.length := by
  induction xs generalizing i with
  | nil =>
    rw [position] at h
    split at h
    · rename_i hnil
      cases h
      rw [hnil]
      exact Nat.le_refl 0
    · cases h
  | cons x xs ih =>
    rw [position] at h
    split at h
    · rename_i htake
      cases h
      have hlen := congrArg List.length htake
      rw [List.length_take] at hlen
      omega
    · obtain ⟨j, hj, rfl⟩ := Option.map_eq_some_iff.mp h
      have hle := ih hj
      rw [List.length_cons]
      omega

theorem position_append_iff (hlen : i + needle.length ≤ xs.length) :
    position needle (xs ++ ys) = some i ↔ position needle xs = some i := by
  induction xs generalizing i with
  | nil =>
    have hzero : needle.length = 0 := by
      rw [List.length_nil] at hlen
      omega
    obtain rfl := List.length_eq_zero_iff.mp hzero
    cases ys <;> rfl
  | cons x xs ih =>
    -- the needle is no longer than what was there, so the window is the same
    have hwindow : (x :: xs ++ ys).take needle.length = (x :: xs).take needle.length :=
      List.take_append_of_le_length (by omega)
    rw [List.cons_append, position, ← List.cons_append, hwindow, position]
    split
    · rfl
    · rw [Option.map_eq_some_iff, Option.map_eq_some_iff]
      refine exists_congr fun j => and_congr_left ?_
      rintro rfl
      rw [List.length_cons] at hlen
      exact ih (by omega)

/-- **What was found stays** when more arrives. -/
theorem position_append (h : position needle xs = some i) (ys) :
    position needle (xs ++ ys) = some i :=
  (position_append_iff (position_add_le h)).mpr h

/-- **What is found is found early**: as soon as all of the needle has arrived. -/
theorem position_of_append (h : position needle (xs ++ ys) = some i)
    (hlen : i + needle.length ≤ xs.length) : position needle xs = some i :=
  (position_append_iff hlen).mp h

theorem position_skip {a : α} {tail ys : List α} (h : a ∉ xs) :
    position (a :: tail) (xs ++ ys) = (position (a :: tail) ys).map (· + xs.length) := by
  induction xs with
  | nil => exact (Option.map_id' ..).symm
  | cons x xs ih =>
    have hne : (x :: (xs ++ ys)).take (a :: tail).length ≠ a :: tail := by
      intro heq
      rw [List.length_cons, List.take_succ_cons] at heq
      exact h (List.mem_cons.mpr (.inl (List.cons.inj heq).1.symm))
    rw [List.cons_append, position, if_neg hne, ih fun hin => h (List.mem_cons_of_mem x hin),
      Option.map_map]
    rfl

end SegmentedStream
