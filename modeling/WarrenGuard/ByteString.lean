/-
Byte strings: reading numbers, most significant byte first, and writing in place.

* `slice_of_take`, `byte_of_take` — a read below `n` is a read of the first `n` bytes;
* `take_patch`, `length_patch` — a write keeps the bytes before it, and the length;
* `getElem?_patch`, `slice_patch` — what a read and a window see of a write;
* `beNat_be16`, `beNat_be32`, `patch_self` — round trips.
-/
import Mathlib.Tactic.Common

namespace ByteString

variable {bs bs' new : List UInt8} {i k n : ℕ}

def byte (bs : List UInt8) (i : ℕ) : UInt8 := bs.getD i 0

def slice (bs : List UInt8) (i k : ℕ) : List UInt8 := (bs.drop i).take k

/-- The number that some bytes write, most significant first. -/
def beNat (bs : List UInt8) : ℕ := bs.foldl (fun acc b => 256 * acc + b.toNat) 0

/-- A 16-bit number as two bytes, most significant first. -/
def be16 (n : ℕ) : List UInt8 := [UInt8.ofNat (n / 256), UInt8.ofNat n]

/-- A 32-bit number as four bytes. -/
def be32 (n : ℕ) : List UInt8 := be16 (n / 65536) ++ be16 (n % 65536)

def patch (bs : List UInt8) (i : ℕ) (new : List UInt8) : List UInt8 :=
  bs.take i ++ new ++ bs.drop (i + new.length)

theorem slice_take (h : i + k ≤ n) : slice (bs.take n) i k = slice bs i k := by
  rw [slice, slice, List.drop_take, List.take_take, Nat.min_eq_left (by omega)]

theorem byte_take (h : i < n) : byte (bs.take n) i = byte bs i := by
  simp [byte, List.getD_eq_getElem?_getD, h]

theorem slice_of_take (h : bs'.take n = bs.take n) (hi : i + k ≤ n) :
    slice bs' i k = slice bs i k := by
  rw [← slice_take hi, h, slice_take hi]

theorem byte_of_take (h : bs'.take n = bs.take n) (hi : i < n) : byte bs' i = byte bs i := by
  rw [← byte_take hi, h, byte_take hi]

theorem length_patch (h : i + new.length ≤ bs.length) : (patch bs i new).length = bs.length := by
  simp only [patch, List.length_append, List.length_take, List.length_drop]
  omega

theorem take_patch (hn : n ≤ i) (hi : i ≤ bs.length) : (patch bs i new).take n = bs.take n := by
  have hlen : n ≤ (bs.take i).length := by
    rw [List.length_take]
    omega
  rw [patch, List.append_assoc, List.take_append_of_le_length hlen, List.take_take,
    Nat.min_eq_left hn]

/-! ### Reads and windows of a written string -/

variable {a j : ℕ} {xs ys : List UInt8}

theorem getElem?_slice (bs i k j) :
    (slice bs i k)[j]? = if j < k then bs[i + j]? else none := by
  rw [slice, List.getElem?_take, List.getElem?_drop]

theorem getElem?_patch (h : i + new.length ≤ bs.length) (j) :
    (patch bs i new)[j]?
      = if j < i then bs[j]? else if j < i + new.length then new[j - i]? else bs[j]? := by
  have hlen : (bs.take i).length = i := by
    rw [List.length_take]
    omega
  rw [patch, List.append_assoc, List.getElem?_append, hlen, List.getElem?_take]
  split
  · rfl
  · rename_i hj
    rw [List.getElem?_append]
    split
    · rw [if_pos (by omega)]
    · rw [if_neg (by omega), List.getElem?_drop]
      congr 1
      omega

theorem byte_patch (h : i + new.length ≤ bs.length) (hj : j < i ∨ i + new.length ≤ j) :
    byte (patch bs i new) j = byte bs j := by
  rw [byte, byte, List.getD_eq_getElem?_getD, List.getD_eq_getElem?_getD, getElem?_patch h]
  rcases hj with hj | hj
  · rw [if_pos hj]
  · rw [if_neg (by omega), if_neg (by omega)]

theorem length_slice (h : i + k ≤ bs.length) : (slice bs i k).length = k := by
  rw [slice, List.length_take, List.length_drop]
  omega

theorem byte_slice (h : j < k) : byte (slice bs i k) j = byte bs (i + j) := by
  rw [byte, byte, List.getD_eq_getElem?_getD, List.getD_eq_getElem?_getD, getElem?_slice, if_pos h]

theorem slice_slice (h : j + n ≤ k) : slice (slice bs a k) j n = slice bs (a + j) n := by
  refine List.ext_getElem? fun l => ?_
  rw [getElem?_slice, getElem?_slice, getElem?_slice]
  split
  · rw [if_pos (by omega), Nat.add_assoc]
  · rfl

theorem slice_patch (ha : a ≤ i) (hk : i + new.length ≤ a + k) (hb : a + k ≤ bs.length) :
    slice (patch bs i new) a k = patch (slice bs a k) (i - a) new := by
  have hin : i - a + new.length ≤ (slice bs a k).length := by
    rw [length_slice hb]
    omega
  refine List.ext_getElem? fun j => ?_
  rw [getElem?_slice, getElem?_patch (by omega), getElem?_patch hin, getElem?_slice]
  by_cases hj : j < k
  · rw [if_pos hj, if_pos hj, show a + j - i = j - (i - a) by omega]
    congr 1
    · rw [Nat.lt_sub_iff_add_lt, Nat.add_comm]
    · congr 1
      rw [show i - a + new.length = i + new.length - a by omega, Nat.lt_sub_iff_add_lt,
        Nat.add_comm]
  · rw [if_neg hj, if_neg hj, if_neg (by omega), if_neg (by omega)]

theorem slice_patch_of_disjoint (h : i + new.length ≤ bs.length)
    (ha : a + k ≤ i ∨ i + new.length ≤ a) : slice (patch bs i new) a k = slice bs a k := by
  refine List.ext_getElem? fun j => ?_
  rw [getElem?_slice, getElem?_slice, getElem?_patch h]
  split
  · rcases ha with ha | ha
    · rw [if_pos (by omega)]
    · rw [if_neg (by omega), if_neg (by omega)]
  · rfl

theorem slice_patch_self (h : i + new.length ≤ bs.length) :
    slice (patch bs i new) i new.length = new := by
  refine List.ext_getElem? fun j => ?_
  rw [getElem?_slice, getElem?_patch h]
  split
  · rw [if_neg (by omega), if_pos (by omega), Nat.add_sub_cancel_left]
  · rename_i hj
    rw [List.getElem?_eq_none (by omega)]

/-! ### Strings in parts -/

theorem byte_append_right (hi : xs.length = i) (ys j) :
    byte (xs ++ ys) (i + j) = byte ys j := by
  rw [byte, byte, List.getD_eq_getElem?_getD, List.getD_eq_getElem?_getD,
    List.getElem?_append_right (by omega), hi, Nat.add_sub_cancel_left]

theorem slice_middle {xs ys zs : List UInt8} (hi : xs.length = i) (hk : ys.length = k) :
    slice (xs ++ (ys ++ zs)) i k = ys := by
  rw [slice, List.drop_left' hi, List.take_left' hk]

theorem slice_append_right (hi : xs.length = i) (ys j k) :
    slice (xs ++ ys) (i + j) k = slice ys j k := by
  rw [slice, slice, ← List.drop_drop, List.drop_left' hi]

/-! ### 16-bit numbers -/

theorem slice_two (h : i + 2 ≤ bs.length) : slice bs i 2 = [byte bs i, byte bs (i + 1)] := by
  have hfirst : bs[i]? = some (byte bs i) := by
    rw [byte, List.getD_eq_getElem?_getD, List.getElem?_eq_getElem (by omega), Option.getD_some]
  have hsecond : bs[i + 1]? = some (byte bs (i + 1)) := by
    rw [byte, List.getD_eq_getElem?_getD, List.getElem?_eq_getElem (by omega), Option.getD_some]
  refine List.ext_getElem? fun j => ?_
  rw [getElem?_slice]
  match j with
  | 0 => simpa using hfirst
  | 1 => simpa using hsecond
  | j + 2 =>
    rw [if_neg (by omega)]
    rfl

theorem beNat_two (x y : UInt8) : beNat [x, y] = 256 * x.toNat + y.toNat := by
  simp [beNat]

theorem beNat_be16 (hn : n < 65536) : beNat (be16 n) = n := by
  rw [be16, beNat_two, UInt8.toNat_ofNat', UInt8.toNat_ofNat']
  omega

theorem beNat_append_two (bs) (x y : UInt8) :
    beNat (bs ++ [x, y]) = 65536 * beNat bs + beNat [x, y] := by
  simp only [beNat, List.foldl_append, List.foldl_cons, List.foldl_nil]
  omega

theorem beNat_be32 (hn : n < 4294967296) : beNat (be32 n) = n := by
  have hlow : beNat (be32 n) = 65536 * beNat (be16 (n / 65536)) + beNat (be16 (n % 65536)) :=
    beNat_append_two _ _ _
  rw [hlow, beNat_be16 (by omega), beNat_be16 (by omega)]
  omega

theorem beNat_lt_of_length_four (h : bs.length = 4) : beNat bs < 4294967296 := by
  match bs, h with
  | [a, b, c, d], _ =>
    have ha := a.toNat_lt
    have hb := b.toNat_lt
    have hc := c.toNat_lt
    have hd := d.toNat_lt
    simp only [beNat, List.foldl_cons, List.foldl_nil]
    omega

theorem be16_beNat (x y : UInt8) : be16 (beNat [x, y]) = [x, y] := by
  have hx := x.toNat_lt
  have hy := y.toNat_lt
  have hdiv : (256 * x.toNat + y.toNat) / 256 = x.toNat := by omega
  rw [beNat_two, be16, hdiv]
  congr 1
  · exact UInt8.ofNat_toNat
  · congr 1
    refine UInt8.toNat_inj.mp ?_
    rw [UInt8.toNat_ofNat']
    omega

theorem beNat_slice_two_lt (h : i + 2 ≤ bs.length) : beNat (slice bs i 2) < 65536 := by
  have hx := (byte bs i).toNat_lt
  have hy := (byte bs (i + 1)).toNat_lt
  rw [slice_two h, beNat_two]
  omega

theorem patch_self (h : i + 2 ≤ bs.length) : patch bs i (be16 (beNat (slice bs i 2))) = bs := by
  have hsame : be16 (beNat (slice bs i 2)) = slice bs i 2 := by
    rw [slice_two h, be16_beNat]
  rw [hsame, patch, length_slice h, slice, ← List.drop_drop, List.append_assoc,
    List.take_append_drop, List.take_append_drop]

end ByteString
