/-
The receiver's anti-replay window (`warrenguard-multihop/src/replay.rs`).

A window keeps the highest accepted sequence number and a 1024-bit map of the numbers just below
it, bit `i` standing for `highest - i`.  The abstract window is the set of the numbers accepted so
far, which admits a number when it is new and less than the window size below the greatest
(`Admits`).  `Represents` relates the two:

* `checkAndRecord_ok_iff` — the code accepts exactly what the set admits;
* `represents_checkAndRecord`, `represents_recordAll` — the relation is kept, over any run from a
  fresh window;
* `recordAll_accepts_iff` — acceptance, spelled out over the numbers accepted so far.
-/
import Mathlib.Data.Finset.Max
import WarrenGuard.WordBitmap

open WordBitmap

namespace WarrenGuard

inductive MultihopError where
  | replay (seq : UInt64) (epoch : UInt32)
deriving DecidableEq, Repr

def windowSize : ℕ := 1024

def bitmapWords : ℕ := 16

/-- The sliding window of one `(exit_id, epoch)`. -/
structure ReplayWindow where
  /-- Highest number accepted so far; `none` while nothing was. -/
  highest : Option UInt64
  /-- Bit `i` stands for `highest - i`. -/
  bitmap : List (BitVec 64)
  /-- The bitmap is an array of fixed length. -/
  bitmap_length : bitmap.length = bitmapWords
deriving DecidableEq

namespace ReplayWindow

def new : ReplayWindow := ⟨none, List.replicate bitmapWords 0#64, List.length_replicate⟩

variable (win : ReplayWindow)

def setBit (offset : ℕ) : ReplayWindow :=
  { win with
    bitmap := WordBitmap.setBit win.bitmap offset
    bitmap_length := by rw [length_setBit, win.bitmap_length] }

def getBit (offset : ℕ) : Bool :=
  ((win.bitmap.getD (offset / 64) 0#64 >>> (offset % 64)) &&& 1#64) == 1#64

def shiftLeft (shift : ℕ) : ReplayWindow :=
  if windowSize ≤ shift then
    -- everything in the old window is now too old
    { win with bitmap := List.replicate bitmapWords 0#64, bitmap_length := List.length_replicate }
  else
    let wordShift := shift / 64
    let bitShift := shift % 64
    let moved := moveWords wordShift win.bitmap
    have hmoved : moved.length = bitmapWords := by
      rw [length_moveWords, win.bitmap_length]
    if bitShift ≠ 0 then
      { win with
        bitmap := carryLeft bitShift 0#64 moved
        bitmap_length := by rw [length_carryLeft, hmoved] }
    else
      { win with bitmap := moved, bitmap_length := hmoved }

/-- `check_and_record`: the verdict on `seq`, and the window afterwards. -/
def checkAndRecord (seq : UInt64) (epoch : UInt32) :
    Except MultihopError Unit × ReplayWindow :=
  match win.highest with
  | none => (.ok (), { win.setBit 0 with highest := some seq })
  | some highest =>
    if highest < seq then
      (.ok (), { (win.shiftLeft (seq - highest).toNat).setBit 0 with highest := some seq })
    else
      let offset := (highest - seq).toNat
      if windowSize ≤ offset then (.error (.replay seq epoch), win)
      else if win.getBit offset then (.error (.replay seq epoch), win)
      else (.ok (), win.setBit offset)

/-- `check`: the same verdict, without recording `seq`. -/
def check (seq : UInt64) (epoch : UInt32) : Except MultihopError Unit :=
  match win.highest with
  | none => .ok ()
  | some highest =>
    if highest < seq then .ok ()
    else
      let offset := (highest - seq).toNat
      if windowSize ≤ offset then .error (.replay seq epoch)
      else if win.getBit offset then .error (.replay seq epoch)
      else .ok ()

/-! ### Bits of the window -/

variable (win : ReplayWindow)

variable {a b : UInt64} {accepted : List UInt64} {i offset : ℕ}

@[simp] theorem highest_setBit (offset) : (win.setBit offset).highest = win.highest := rfl

theorem getBit_eq_bitAt (offset) : win.getBit offset = bitAt win.bitmap offset := by
  rw [getBit, bitAt]
  generalize win.bitmap.getD (offset / 64) 0#64 = word
  have hand : (word >>> (offset % 64)) &&& 1#64
      = if word.getLsbD (offset % 64) then 1#64 else 0#64 := by
    rw [show (1#64 : BitVec 64) = BitVec.twoPow 64 0 from rfl, BitVec.and_twoPow,
      BitVec.getLsbD_ushiftRight, Nat.add_zero]
  rw [hand]
  cases word.getLsbD (offset % 64) <;> decide

theorem bitAt_new (i) : bitAt new.bitmap i = false := bitAt_replicate_zero _ _

theorem bitAt_setBit_window (h : offset < windowSize) (i) :
    bitAt (win.setBit offset).bitmap i = (decide (i = offset) || bitAt win.bitmap i) := by
  refine bitAt_setBit (by decide) ?_ i
  rw [win.bitmap_length]
  simp only [windowSize] at h
  simp only [bitmapWords]
  omega

/-- **`shift_left` shifts the whole bitmap**, whether the distance is a multiple
of the word size, larger than the window, or neither. -/
theorem bitAt_shiftLeft (shift : ℕ) (hi : i < windowSize) :
    bitAt (win.shiftLeft shift).bitmap i
      = (decide (shift ≤ i) && bitAt win.bitmap (i - shift)) := by
  unfold shiftLeft
  by_cases hwipe : windowSize ≤ shift
  · rw [if_pos hwipe, bitAt_replicate_zero]
    have : ¬ shift ≤ i := by omega
    simp [this]
  · rw [if_neg hwipe]
    have hin : i < win.bitmap.length * 64 := by
      rw [win.bitmap_length]
      exact hi
    by_cases hbit : shift % 64 = 0
    · rw [if_neg (not_not_intro hbit)]
      show bitAt (moveWords (shift / 64) win.bitmap) i = _
      have hmul : shift / 64 * 64 = shift := by omega
      rw [bitAt_moveWords (by decide), hmul]
      simp [hin]
    · rw [if_pos hbit]
      show bitAt (carryLeft (shift % 64) 0#64 (moveWords (shift / 64) win.bitmap)) i = _
      rw [bitAt_carryLeft_moveWords (by decide)]
      simp [hin]

/-- **`check` is `check_and_record` without the commit.** -/
theorem check_eq (seq : UInt64) (epoch : UInt32) :
    win.check seq epoch = (win.checkAndRecord seq epoch).1 := by
  unfold check checkAndRecord
  cases win.highest with
  | none => rfl
  | some highest => dsimp only; split_ifs <;> rfl

/-! ### The abstract window -/

/-- A window of size `W` over the set `S` of the numbers accepted so far admits
`n` when it is new and less than `W` below the greatest of them. -/
def Admits (W : ℕ) (S : Set ℕ) (n : ℕ) : Prop := n ∉ S ∧ ∀ h, IsGreatest S h → h < n + W

/-- The code's window stands for the set `S`: `highest` is its greatest element,
and the bits tell which of the `windowSize` numbers up to it belong to `S`. -/
def Represents (win : ReplayWindow) (S : Set ℕ) : Prop :=
  match win.highest with
  | none => S = ∅ ∧ ∀ i, bitAt win.bitmap i = false
  | some highest => IsGreatest S highest.toNat ∧ ∀ i < windowSize,
      (bitAt win.bitmap i = true ↔ i ≤ highest.toNat ∧ highest.toNat - i ∈ S)

variable {win : ReplayWindow} {S : Set ℕ} {seq highest : UInt64} {epoch : UInt32}

theorem represents_new : Represents new ∅ := ⟨rfl, bitAt_new⟩

theorem Represents.none (h : Represents win S) (hn : win.highest = none) :
    S = ∅ ∧ ∀ i, bitAt win.bitmap i = false := by
  unfold Represents at h
  rwa [hn] at h

theorem Represents.some (h : Represents win S) (hs : win.highest = some highest) :
    IsGreatest S highest.toNat ∧ ∀ i < windowSize,
      (bitAt win.bitmap i = true ↔ i ≤ highest.toNat ∧ highest.toNat - i ∈ S) := by
  unfold Represents at h
  rwa [hs] at h

theorem admits_of_gt {W h n : ℕ} (hS : IsGreatest S h) (hlt : h < n) : Admits W S n := by
  refine ⟨fun hn => absurd (hS.2 hn) (by omega), fun h' hh' => ?_⟩
  rw [hh'.unique hS]
  omega

theorem admits_iff_of_le {W h n : ℕ} (hS : IsGreatest S h) (hle : n ≤ h) :
    Admits W S n ↔ h - n < W ∧ n ∉ S := by
  constructor
  · rintro ⟨hnew, hreach⟩
    exact ⟨by have := hreach h hS; omega, hnew⟩
  · rintro ⟨hreach, hnew⟩
    refine ⟨hnew, fun h' hh' => ?_⟩
    rw [hh'.unique hS]
    omega

private theorem toNat_lt : a < b ↔ a.toNat < b.toNat := Iff.rfl

private theorem not_lt_toNat (h : ¬ a < b) : b.toNat ≤ a.toNat :=
  Nat.le_of_not_lt h

private theorem toNat_sub_of_not_lt (h : ¬ a < b) :
    (a - b).toNat = a.toNat - b.toNat :=
  UInt64.toNat_sub_of_le a b (not_lt_toNat h)

/-- **The code accepts exactly the numbers its set admits.** -/
theorem checkAndRecord_ok_iff (h : Represents win S) :
    (win.checkAndRecord seq epoch).1 = .ok () ↔ Admits windowSize S seq.toNat := by
  unfold checkAndRecord
  cases hh : win.highest with
  | none =>
    obtain ⟨rfl, -⟩ := h.none hh
    simp [Admits, IsGreatest]
  | some highest =>
    obtain ⟨hS, hbits⟩ := h.some hh
    dsimp only
    by_cases hgt : highest < seq
    · rw [if_pos hgt]
      simp only [true_iff]
      exact admits_of_gt hS hgt
    · have hle := not_lt_toNat hgt
      rw [if_neg hgt, toNat_sub_of_not_lt hgt, admits_iff_of_le hS hle]
      by_cases hout : windowSize ≤ highest.toNat - seq.toNat
      · rw [if_pos hout]
        simp [Nat.not_lt.mpr hout]
      · rw [if_neg hout, getBit_eq_bitAt]
        have hbit := hbits _ (Nat.lt_of_not_le hout)
        rw [Nat.sub_sub_self hle] at hbit
        by_cases hseen : bitAt win.bitmap (highest.toNat - seq.toNat) = true
        · rw [if_pos hseen]
          simp [(hbit.mp hseen).2]
        · rw [if_neg hseen]
          have hnew : seq.toNat ∉ S := fun hin => hseen (hbit.mpr ⟨Nat.sub_le _ _, hin⟩)
          simp [hnew, Nat.lt_of_not_le hout]

/-- **A refused number leaves the window as it was.** -/
theorem checkAndRecord_of_error (hr : (win.checkAndRecord seq epoch).1 ≠ .ok ()) :
    (win.checkAndRecord seq epoch).2 = win := by
  unfold checkAndRecord at hr ⊢
  cases hh : win.highest with
  | none => simp [hh] at hr
  | some highest =>
    simp only [hh] at hr ⊢
    split_ifs at hr ⊢ <;> first | rfl | exact absurd rfl hr

/-- Recording a number above the highest: the window slides up to it. -/
theorem represents_slide {win' : ReplayWindow} (h : Represents win S)
    (hh : win.highest = some highest) (hgt : highest < seq) (hh' : win'.highest = some seq)
    (hbm : win'.bitmap = ((win.shiftLeft (seq - highest).toNat).setBit 0).bitmap) :
    Represents win' (insert seq.toNat S) := by
  obtain ⟨hS, hbits⟩ := h.some hh
  have hlt : highest.toNat < seq.toNat := hgt
  have hshift : (seq - highest).toNat = seq.toNat - highest.toNat :=
    UInt64.toNat_sub_of_le seq highest hlt.le
  unfold Represents
  rw [hh']
  refine ⟨⟨Set.mem_insert _ _, ?_⟩, fun i hi => ?_⟩
  · rintro n (rfl | hn)
    · exact le_rfl
    · exact (hS.2 hn).trans hlt.le
  · -- bit 0 is the new number; the others are old bits, moved up by the distance
    rw [hbm, bitAt_setBit_window _ (by decide), bitAt_shiftLeft _ _ hi, hshift]
    by_cases hi0 : i = 0
    · simp [hi0]
    · by_cases hle : seq.toNat - highest.toNat ≤ i
      · have hbit := hbits (i - (seq.toNat - highest.toNat)) (by omega)
        have hsub : highest.toNat - (i - (seq.toNat - highest.toNat)) = seq.toNat - i := by omega
        rw [hsub] at hbit
        have hmem : seq.toNat - i ∈ insert seq.toNat S ↔ seq.toNat - i ∈ S := by
          rw [Set.mem_insert_iff, or_iff_right (by omega)]
        have hpos : i - (seq.toNat - highest.toNat) ≤ highest.toNat ↔ i ≤ seq.toNat := by omega
        simp [hi0, hle, hbit, hmem, hpos]
      · -- a number strictly between the two was never accepted
        have hnew : i ≤ seq.toNat → seq.toNat - i ∉ insert seq.toNat S := by
          rintro hiseq (heq | hin)
          · omega
          · have := hS.2 hin
            omega
        simp only [decide_eq_false hi0, decide_eq_false hle, Bool.false_and, Bool.or_self,
          Bool.false_eq_true, false_iff, not_and]
        exact hnew

theorem represents_setBit (h : Represents win S) (hh : win.highest = some highest)
    (hle : seq.toNat ≤ highest.toNat) (hin : highest.toNat - seq.toNat < windowSize) :
    Represents (win.setBit (highest.toNat - seq.toNat)) (insert seq.toNat S) := by
  obtain ⟨hS, hbits⟩ := h.some hh
  unfold Represents
  rw [highest_setBit, hh]
  refine ⟨⟨Set.mem_insert_of_mem _ hS.1, ?_⟩, fun i hi => ?_⟩
  · rintro n (rfl | hn)
    · exact hle
    · exact hS.2 hn
  · rw [bitAt_setBit_window _ hin, Set.mem_insert_iff]
    by_cases hoff : i = highest.toNat - seq.toNat
    · simp [hoff, Nat.sub_sub_self hle]
    · have hne : i ≤ highest.toNat → highest.toNat - i ≠ seq.toNat := by omega
      simp only [decide_eq_false hoff, Bool.false_or, hbits i hi]
      exact and_congr_right fun hiH => (or_iff_right (hne hiH)).symm

/-- **Accepting a number adds it to the set**, and nothing else. -/
theorem represents_checkAndRecord (h : Represents win S)
    (hok : (win.checkAndRecord seq epoch).1 = .ok ()) :
    Represents (win.checkAndRecord seq epoch).2 (insert seq.toNat S) := by
  unfold checkAndRecord at hok ⊢
  cases hh : win.highest with
  | none =>
    obtain ⟨rfl, hbits⟩ := h.none hh
    refine ⟨by simp [IsGreatest, upperBounds], fun i hi => ?_⟩
    rw [show bitAt _ i = _ from bitAt_setBit_window win (by decide) i, hbits i]
    simp only [Bool.or_false, decide_eq_true_eq, Set.mem_insert_iff, Set.mem_empty_iff_false,
      or_false]
    omega
  | some highest =>
    simp only [hh] at hok ⊢
    by_cases hgt : highest < seq
    · rw [if_pos hgt]
      exact represents_slide h hh hgt rfl rfl
    · rw [if_neg hgt] at hok ⊢
      rw [toNat_sub_of_not_lt hgt] at hok ⊢
      by_cases hout : windowSize ≤ highest.toNat - seq.toNat
      · rw [if_pos hout] at hok
        cases hok
      · rw [if_neg hout] at hok ⊢
        by_cases hseen : win.getBit (highest.toNat - seq.toNat) = true
        · rw [if_pos hseen] at hok
          cases hok
        · rw [if_neg hseen]
          exact represents_setBit h hh (not_lt_toNat hgt) (Nat.lt_of_not_le hout)

/-! ### Whole runs -/

/-- Present one frame's number, and keep the list of the accepted ones. -/
def record (run : ReplayWindow × List UInt64) (frame : UInt64 × UInt32) :
    ReplayWindow × List UInt64 :=
  match run.1.checkAndRecord frame.1 frame.2 with
  | (.ok _, win) => (win, run.2 ++ [frame.1])
  | (.error _, win) => (win, run.2)

/-- Present a sequence of frames to a fresh window: the window afterwards and
the numbers it accepted, in order. -/
def recordAll (frames : List (UInt64 × UInt32)) : ReplayWindow × List UInt64 :=
  frames.foldl record (new, [])

def acceptedSet (accepted : List UInt64) : Set ℕ := {n | ∃ a ∈ accepted, a.toNat = n}

theorem mem_acceptedSet :
    seq.toNat ∈ acceptedSet accepted ↔ seq ∈ accepted := by
  refine ⟨?_, fun h => ⟨seq, h, rfl⟩⟩
  rintro ⟨a, ha, heq⟩
  rwa [← UInt64.toNat_inj.mp heq]

theorem acceptedSet_append (accepted) :
    acceptedSet (accepted ++ [seq]) = insert seq.toNat (acceptedSet accepted) := by
  ext n
  simp [acceptedSet, or_and_right, exists_or, eq_comm, or_comm]

theorem represents_record {run : ReplayWindow × List UInt64} (frame : UInt64 × UInt32)
    (h : Represents run.1 (acceptedSet run.2)) :
    Represents (record run frame).1 (acceptedSet (record run frame).2) := by
  have hacc := @represents_checkAndRecord run.1 _ frame.1 frame.2 h
  have hrej := @checkAndRecord_of_error run.1 frame.1 frame.2
  unfold record
  rcases hc : run.1.checkAndRecord frame.1 frame.2 with ⟨verdict, win⟩
  rw [hc] at hacc hrej
  cases verdict with
  | ok u => rw [acceptedSet_append]; exact hacc rfl
  | error e =>
    have hwin : win = run.1 := hrej (by simp)
    rw [hwin]
    exact h

theorem represents_foldl_record {run : ReplayWindow × List UInt64}
    (frames : List (UInt64 × UInt32)) (h : Represents run.1 (acceptedSet run.2)) :
    Represents (frames.foldl record run).1 (acceptedSet (frames.foldl record run).2) := by
  -- the induction is on the frames still to come, from any related run
  induction frames generalizing run with
  | nil => exact h
  | cons frame rest ih => exact ih (represents_record frame h)

/-- **After any run the window stands for the numbers it accepted.** -/
theorem represents_recordAll (frames : List (UInt64 × UInt32)) :
    Represents (recordAll frames).1 (acceptedSet (recordAll frames).2) := by
  refine represents_foldl_record frames ?_
  have hempty : acceptedSet [] = ∅ := by simp [acceptedSet]
  rw [hempty]
  exact represents_new

theorem isGreatest_acceptedSet {highest : UInt64} :
    IsGreatest (acceptedSet accepted) highest.toNat
      ↔ highest ∈ accepted ∧ ∀ a ∈ accepted, a ≤ highest := by
  refine and_congr mem_acceptedSet ⟨fun h a ha => h ⟨a, ha, rfl⟩, ?_⟩
  rintro h n ⟨a, ha, rfl⟩
  exact h a ha

theorem admits_acceptedSet :
    Admits windowSize (acceptedSet accepted) seq.toNat ↔ seq ∉ accepted ∧
      (accepted = [] ∨ ∃ highest ∈ accepted, (∀ a ∈ accepted, a ≤ highest) ∧
        (highest < seq ∨ highest.toNat - seq.toNat < windowSize)) := by
  refine and_congr (not_congr mem_acceptedSet) ⟨fun h => ?_, ?_⟩
  · by_cases hnil : accepted = []
    · exact Or.inl hnil
    · obtain ⟨highest, hmem, hmax⟩ := accepted.toFinset.exists_max_image UInt64.toNat
        (List.toFinset_nonempty_iff accepted |>.mpr hnil)
      simp only [List.mem_toFinset] at hmem hmax
      have hreach := h _ (isGreatest_acceptedSet.mpr ⟨hmem, hmax⟩)
      refine Or.inr ⟨highest, hmem, hmax, ?_⟩
      rw [toNat_lt]
      omega
  · rintro (rfl | ⟨highest, hmem, hmax, hreach⟩) h hh
    · simp [acceptedSet, IsGreatest] at hh
    · rw [hh.unique (isGreatest_acceptedSet.mpr ⟨hmem, hmax⟩)]
      rcases hreach with hlt | hlt
      · have : highest.toNat < seq.toNat := hlt
        omega
      · omega

/-- **The window is exact.**  After any sequence of frames from a fresh window, a
number is accepted if and only if it was never accepted before and nothing was
accepted yet, or it is above the highest accepted number, or less than the
window size below it; a refused number leaves the window unchanged; and `check`
is `Ok` exactly when `check_and_record` would be. -/
theorem recordAll_accepts_iff (frames : List (UInt64 × UInt32)) (seq : UInt64) (epoch : UInt32) :
    (((recordAll frames).1.checkAndRecord seq epoch).1 = .ok () ↔
      seq ∉ (recordAll frames).2 ∧
        ((recordAll frames).2 = [] ∨ ∃ highest ∈ (recordAll frames).2,
          (∀ a ∈ (recordAll frames).2, a ≤ highest) ∧
            (highest < seq ∨ highest.toNat - seq.toNat < windowSize))) ∧
    (((recordAll frames).1.checkAndRecord seq epoch).1 ≠ .ok () →
      ((recordAll frames).1.checkAndRecord seq epoch).2 = (recordAll frames).1) ∧
    ((recordAll frames).1.check seq epoch = .ok () ↔
      ((recordAll frames).1.checkAndRecord seq epoch).1 = .ok ()) := by
  refine ⟨?_, checkAndRecord_of_error, by rw [check_eq]⟩
  rw [checkAndRecord_ok_iff (represents_recordAll frames), admits_acceptedSet]

end ReplayWindow

end WarrenGuard
