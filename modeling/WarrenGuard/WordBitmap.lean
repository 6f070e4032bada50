/-
Bitmaps spread over several machine words.

A bitmap is a list of `w`-bit words, lowest word first.  The two loops of a multi-word left shift
move whole words and then carry the sub-word remainder from one word into the next:

* `bitAt_setBit` — setting a bit changes that bit only;
* `bitAt_moveWords`, `bitAt_carryLeft`, `bitAt_carryLeft_moveWords` — what each loop, and both
  together, do to every bit.
-/
import Mathlib.Data.List.GetD
import Mathlib.Tactic.Common

namespace WordBitmap

variable {w : ℕ}

/-- Bit `i` of a list of words; words past the end read as zero. -/
def bitAt (ws : List (BitVec w)) (i : ℕ) : Bool := (ws.getD (i / w) 0#w).getLsbD (i % w)

/-- Set bit `i` by OR-ing its mask into the word that holds it. -/
def setBit (ws : List (BitVec w)) (i : ℕ) : List (BitVec w) :=
  ws.set (i / w) (ws.getD (i / w) 0#w ||| (1#w <<< (i % w)))

/-- Move every word `k` places up, filling the low places with zero. -/
def moveWords (k : ℕ) (ws : List (BitVec w)) : List (BitVec w) :=
  (List.range ws.length).map fun i => if k ≤ i then ws.getD (i - k) 0#w else 0#w

/-- Shift every word left by `r` bits, lowest word first, each word taking the
bits its predecessor pushed out. -/
def carryLeft (r : ℕ) : BitVec w → List (BitVec w) → List (BitVec w)
  | _, [] => []
  | carry, word :: rest => ((word <<< r) ||| carry) :: carryLeft r (word >>> (w - r)) rest

@[simp] theorem length_setBit (ws : List (BitVec w)) (i : ℕ) :
    (setBit ws i).length = ws.length := by
  simp [setBit]

@[simp] theorem length_moveWords (k : ℕ) (ws : List (BitVec w)) :
    (moveWords k ws).length = ws.length := by
  simp [moveWords]

variable {i : ℕ} {ws : List (BitVec w)}

@[simp] theorem length_carryLeft (r : ℕ) (carry : BitVec w) (ws) :
    (carryLeft r carry ws).length = ws.length := by
  induction ws generalizing carry with
  | nil => rfl
  | cons word rest ih => simp [carryLeft, ih]

/-! ### Single bits -/

theorem bitAt_replicate_zero (n i : ℕ) : bitAt (List.replicate n 0#w) i = false := by
  unfold bitAt
  rw [List.getD_eq_getElem?_getD, List.getElem?_replicate]
  split <;> simp

theorem bitAt_of_length_le (h : ws.length ≤ i / w) :
    bitAt ws i = false := by
  unfold bitAt
  rw [List.getD_eq_default _ _ h]
  simp

theorem bitAt_cons_of_lt {word : BitVec w} {rest : List (BitVec w)} (h : i < w) :
    bitAt (word :: rest) i = word.getLsbD i := by
  simp [bitAt, Nat.div_eq_of_lt h, Nat.mod_eq_of_lt h]

theorem bitAt_cons_of_le {word : BitVec w} {rest : List (BitVec w)} (hw : 0 < w)
    (h : w ≤ i) : bitAt (word :: rest) i = bitAt rest (i - w) := by
  obtain ⟨j, rfl⟩ : ∃ j, i = j + w := ⟨i - w, by omega⟩
  simp [bitAt, Nat.add_div_right j hw]

/-- **Setting a bit changes that bit only.** -/
theorem bitAt_setBit (hw : 0 < w) (hi : i / w < ws.length)
    (j : ℕ) : bitAt (setBit ws i) j = (decide (j = i) || bitAt ws j) := by
  by_cases hword : j / w = i / w
  · have hbit : j % w = i % w ↔ j = i := by
      refine ⟨fun hmod => ?_, fun h => by rw [h]⟩
      rw [← Nat.div_add_mod j w, ← Nat.div_add_mod i w, hword, hmod]
    have hget : (setBit ws i).getD (j / w) 0#w
        = ws.getD (i / w) 0#w ||| (1#w <<< (i % w)) := by
      simp [setBit, hword, hi]
    unfold bitAt
    rw [hget, ← hword, BitVec.getLsbD_or, ← BitVec.twoPow_eq, BitVec.getLsbD_twoPow, Bool.or_comm]
    have hmask : (decide (i % w < w) && decide (i % w = j % w)) = decide (j = i) := by
      simp [Nat.mod_lt i hw, ← hbit, eq_comm]
    rw [hmask]
  · have hne : j ≠ i := fun h => hword (by rw [h])
    have hget : (setBit ws i).getD (j / w) 0#w = ws.getD (j / w) 0#w := by
      rw [setBit, List.getD_eq_getElem?_getD, List.getElem?_set_ne (Ne.symm hword),
        ← List.getD_eq_getElem?_getD]
    unfold bitAt
    rw [hget, decide_eq_false hne, Bool.false_or]

/-! ### The two loops of a left shift -/

theorem bitAt_moveWords (hw : 0 < w) (k : ℕ) (ws : List (BitVec w)) (i : ℕ) :
    bitAt (moveWords k ws) i
      = (decide (k * w ≤ i ∧ i < ws.length * w) && bitAt ws (i - k * w)) := by
  have hlow : k * w ≤ i ↔ k ≤ i / w := (Nat.le_div_iff_mul_le hw).symm
  have hhigh : i < ws.length * w ↔ i / w < ws.length := (Nat.div_lt_iff_lt_mul hw).symm
  by_cases hin : i / w < ws.length
  · have hget : (moveWords k ws).getD (i / w) 0#w
        = if k ≤ i / w then ws.getD (i / w - k) 0#w else 0#w := by
      simp [moveWords, hin]
    by_cases hk : k ≤ i / w
    · have hdiv : (i - k * w) / w = i / w - k := by
        rw [Nat.mul_comm k w, Nat.sub_mul_div]
      have hmod : (i - k * w) % w = i % w := by
        rw [Nat.mul_comm k w, Nat.sub_mul_mod]
        rw [Nat.mul_comm]; exact hlow.mpr hk
      unfold bitAt
      rw [hget, if_pos hk, hdiv, hmod]
      simp [hk, hlow, hhigh, hin]
    · unfold bitAt
      rw [hget, if_neg hk]
      simp [hk, hlow]
  · rw [bitAt_of_length_le (by simpa using hin)]
    simp [hhigh, hin]

/-- The carry loop moves every bit up by `r < w`, and the incoming carry becomes
the lowest `r` bits. -/
theorem bitAt_carryLeft {r : ℕ} (hr : r < w) {carry : BitVec w}
    (hc : ∀ j, r ≤ j → carry.getLsbD j = false) (ws i) :
    bitAt (carryLeft r carry ws) i
      = (decide (i < ws.length * w) &&
          if i < r then carry.getLsbD i else bitAt ws (i - r)) := by
  have hw : 0 < w := by omega
  induction ws generalizing carry i with
  | nil => simp [carryLeft, bitAt]
  | cons word rest ih =>
    have hlen : (word :: rest).length * w = rest.length * w + w := by
      rw [List.length_cons, Nat.add_mul, Nat.one_mul]
    by_cases hi : i < w
    · -- the lowest word: its own bits from `r` on, the carry below
      rw [carryLeft, bitAt_cons_of_lt hi, BitVec.getLsbD_or, BitVec.getLsbD_shiftLeft, hlen]
      have hlt : i < rest.length * w + w := by omega
      by_cases hir : i < r
      · simp [hi, hir, hlt]
      · have hsub : i - r < w := by omega
        rw [hc i (by omega), if_neg hir, bitAt_cons_of_lt hsub]
        simp [hi, hir, hlt]
    · -- a higher word: the carry out of `word` is the carry into `rest`
      have hout : ∀ j, r ≤ j → (word >>> (w - r)).getLsbD j = false := by
        intro j hj
        rw [BitVec.getLsbD_ushiftRight]
        exact BitVec.getLsbD_of_ge _ _ (by omega)
      rw [carryLeft, bitAt_cons_of_le hw (by omega), ih hout, hlen]
      have hbound : i - w < rest.length * w ↔ i < rest.length * w + w := by omega
      have hir : ¬ i < r := by omega
      rw [if_neg hir]
      by_cases hcar : i - w < r
      · rw [if_pos hcar, BitVec.getLsbD_ushiftRight, bitAt_cons_of_lt (by omega),
          show w - r + (i - w) = i - r by omega]
        simp [hbound]
      · rw [if_neg hcar, bitAt_cons_of_le hw (by omega),
          show i - w - r = i - r - w by omega]
        simp [hbound]

/-- **The two loops together are a left shift** by `s` bits of the whole bitmap. -/
theorem bitAt_carryLeft_moveWords (hw : 0 < w) (s : ℕ) (ws : List (BitVec w)) (i : ℕ) :
    bitAt (carryLeft (s % w) 0#w (moveWords (s / w) ws)) i
      = (decide (s ≤ i ∧ i < ws.length * w) && bitAt ws (i - s)) := by
  have hr : s % w < w := Nat.mod_lt s hw
  have hs : s = s / w * w + s % w := by
    rw [Nat.mul_comm]; exact (Nat.div_add_mod s w).symm
  rw [bitAt_carryLeft hr (fun j _ => by simp), length_moveWords, bitAt_moveWords hw]
  by_cases hlow : i < s % w
  · have : ¬ s ≤ i := by omega
    simp [hlow, this]
  · rw [if_neg hlow, show i - s % w - s / w * w = i - s by omega]
    have hle : s / w * w ≤ i - s % w ↔ s ≤ i := by omega
    by_cases hin : i < ws.length * w
    · have hin' : i - s % w < ws.length * w := by omega
      simp [hin, hin', hle]
    · simp [hin]

end WordBitmap
