/-
Sums of 16-bit words, modulo 65535.

A byte of a message counts 256 times at an even place and once at an odd one (`weigh`).  A 16-bit
number counts as itself at an even place, and as the number with its bytes swapped at an odd one,
which is 256 times the number modulo 65535:

* `weigh_append` — a message in two parts;
* `weigh_patch_add` — what a message weighs after a 16-bit number is written into it;
* `place_mod` — what a number counts at an odd place.
-/
import WarrenGuard.ByteString

namespace OnesComplement

open ByteString

variable {high : Bool} {bs xs ys : List UInt8} {i n : ℕ}

/-- The sum of the 16-bit words of a message. -/
def wordSum : List UInt8 → ℕ
  | a :: b :: rest => (256 * a.toNat + b.toNat) + wordSum rest
  | [a] => 256 * a.toNat
  | [] => 0

/-- The same sum byte by byte, where `high` says whether the next one is the first of a word. -/
def weigh : Bool → List UInt8 → ℕ
  | _, [] => 0
  | true, b :: bs => 256 * b.toNat + weigh false bs
  | false, b :: bs => b.toNat + weigh true bs

theorem wordSum_eq_weigh (bs) : wordSum bs = weigh true bs := by
  induction bs using wordSum.induct with
  | case1 a b rest ih => rw [wordSum, ih, weigh, weigh, Nat.add_assoc]
  | case2 a => rfl
  | case3 => rfl

def turned (high : Bool) (n : ℕ) : Bool := if n % 2 = 0 then high else !high

theorem turned_succ (high n) : turned high (n + 1) = turned (!high) n := by
  rcases Nat.mod_two_eq_zero_or_one n with hn | hn
  · have hsucc : (n + 1) % 2 = 1 := by omega
    simp [turned, hn, hsucc]
  · have hsucc : (n + 1) % 2 = 0 := by omega
    simp [turned, hn, hsucc]

theorem weigh_append (high xs ys) :
    weigh high (xs ++ ys) = weigh high xs + weigh (turned high xs.length) ys := by
  induction xs generalizing high with
  | nil => simp [weigh, turned]
  | cons x xs ih =>
    rw [List.cons_append, List.length_cons, turned_succ]
    cases high with
    | true => rw [weigh, weigh, ih, Nat.add_assoc, Bool.not_true]
    | false => rw [weigh, weigh, ih, Nat.add_assoc, Bool.not_false]

theorem wordSum_append (h : xs.length % 2 = 0) : wordSum (xs ++ ys) = wordSum xs + wordSum ys := by
  have hplace : turned true xs.length = true := by simp [turned, h]
  rw [wordSum_eq_weigh, wordSum_eq_weigh, wordSum_eq_weigh, weigh_append, hplace]

theorem wordSum_le (bs) : wordSum bs ≤ 65535 * bs.length := by
  induction bs using wordSum.induct with
  | case1 a b rest ih =>
    have ha := a.toNat_lt
    have hb := b.toNat_lt
    simp only [wordSum, List.length_cons]
    omega
  | case2 a =>
    have ha := a.toNat_lt
    simp only [wordSum, List.length_cons, List.length_nil]
    omega
  | case3 => exact Nat.le_refl 0

/-- What a 16-bit number counts where its first byte stands at an even or an odd place. -/
def place (high : Bool) (n : ℕ) : ℕ := if high then n else 256 * (n % 256) + n / 256

theorem weigh_be16 (hn : n < 65536) : weigh high (be16 n) = place high n := by
  have hfirst : (UInt8.ofNat (n / 256)).toNat = n / 256 := by
    rw [UInt8.toNat_ofNat']
    omega
  have hsecond : (UInt8.ofNat n).toNat = n % 256 := UInt8.toNat_ofNat'
  cases high with
  | true =>
    simp only [be16, weigh, place, hfirst, hsecond, if_pos]
    omega
  | false =>
    simp only [be16, weigh, place, hfirst, hsecond, Bool.false_eq_true, if_false]
    omega

theorem weigh_patch (hn : n < 65536) (hi : i + 2 ≤ bs.length) :
    weigh high (patch bs i (be16 n))
      = weigh high (bs.take i) + place (turned high i) n
        + weigh (turned high (i + 2)) (bs.drop (i + 2)) := by
  have hlen : (bs.take i).length = i := by
    rw [List.length_take]
    omega
  have hlen' : (bs.take i ++ be16 n).length = i + 2 := by
    rw [List.length_append, hlen]
    rfl
  rw [patch, weigh_append, weigh_append, hlen, hlen', weigh_be16 hn]
  rfl

/-- **What a write changes**: the number that was there counts no more, and the new one does. -/
theorem weigh_patch_add (high) (hn : n < 65536) (hi : i + 2 ≤ bs.length) :
    weigh high (patch bs i (be16 n)) + place (turned high i) (beNat (slice bs i 2))
      = weigh high bs + place (turned high i) n := by
  have hold : weigh high bs = weigh high (bs.take i)
      + place (turned high i) (beNat (slice bs i 2))
      + weigh (turned high (i + 2)) (bs.drop (i + 2)) := by
    rw [← weigh_patch (beNat_slice_two_lt hi) hi, patch_self hi]
  rw [hold, weigh_patch hn hi]
  omega

theorem place_mod (high n) :
    place high n % 65535 = (if high then n else 256 * n) % 65535 := by
  cases high with
  | true => rfl
  | false =>
    simp only [place, Bool.false_eq_true, if_false]
    omega

end OnesComplement
