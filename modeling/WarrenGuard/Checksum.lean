/-
Internet checksums (`warrenguard-transport-core/src/inner_mtu.rs`).

The 16-bit words of a message and of a pseudo-header, added with their carries folded in, give
65535 (`ChecksumValid`).  Folding keeps the sum modulo 65535 and takes only 0 to 0, so validity is
a question of divisibility (`checksumValid_iff`), and a checksum can be computed
(`checksumValid_write`) or carried over a change of one word (`incrementalChecksumUpdate_mod`).
-/
import WarrenGuard.InnerMtu
import WarrenGuard.OnesComplement

namespace WarrenGuard.InnerMtu

open ByteString OnesComplement

theorem foldCarries_mod (n : ℕ) : foldCarries n % 65535 = n % 65535 := by
  fun_induction foldCarries n with
  | case1 n h => rfl
  | case2 n h ih =>
    rw [ih]
    omega

theorem foldCarries_lt (n : ℕ) : foldCarries n < 65536 := by
  fun_induction foldCarries n with
  | case1 n h => omega
  | case2 n h ih => exact ih

theorem foldCarries_eq_zero (n : ℕ) : foldCarries n = 0 ↔ n = 0 := by
  fun_induction foldCarries n with
  | case1 n h => rfl
  | case2 n h ih =>
    rw [ih]
    omega

/-- The words of a message and what is added to them come to 65535. -/
def ChecksumValid (seed : ℕ) (bs : List UInt8) : Prop := foldCarries (seed + wordSum bs) = 65535

instance (seed : ℕ) (bs : List UInt8) : Decidable (ChecksumValid seed bs) :=
  inferInstanceAs (Decidable (foldCarries (seed + wordSum bs) = 65535))

theorem checksumValid_iff {seed : ℕ} {bs : List UInt8} :
    ChecksumValid seed bs ↔ seed + weigh true bs ≠ 0 ∧ (seed + weigh true bs) % 65535 = 0 := by
  unfold ChecksumValid
  rw [wordSum_eq_weigh]
  have hmod := foldCarries_mod (seed + weigh true bs)
  have hlt := foldCarries_lt (seed + weigh true bs)
  have hzero := foldCarries_eq_zero (seed + weigh true bs)
  omega

/-- The checksum of `internet_checksum`, written at an even place where there was zero, makes
the message valid. -/
theorem checksumValid_write {seed i : ℕ} {bs : List UInt8} (hi : i + 2 ≤ bs.length)
    (heven : i % 2 = 0) (hzero : beNat (slice bs i 2) = 0) :
    ChecksumValid seed (patch bs i (be16 (65535 - foldCarries (seed + wordSum bs)))) := by
  have hadd := weigh_patch_add true
    (show 65535 - foldCarries (seed + wordSum bs) < 65536 by omega) hi
  have hplace : turned true i = true := by simp [turned, heven]
  rw [hplace, hzero] at hadd
  simp only [place, if_true, Nat.add_zero, wordSum_eq_weigh] at hadd
  rw [checksumValid_iff, wordSum_eq_weigh, hadd]
  have hmod := foldCarries_mod (seed + weigh true bs)
  have hlt := foldCarries_lt (seed + weigh true bs)
  have hnone := foldCarries_eq_zero (seed + weigh true bs)
  omega

theorem incrementalChecksumUpdate_lt (ck old new : ℕ) :
    incrementalChecksumUpdate ck old new < 65536 := by
  unfold incrementalChecksumUpdate
  omega

theorem incrementalChecksumUpdate_mod {ck old : ℕ} (new : ℕ) (hck : ck < 65536)
    (hold : old < 65536) :
    (incrementalChecksumUpdate ck old new + new) % 65535 = (ck + old) % 65535 := by
  unfold incrementalChecksumUpdate
  have hmod := foldCarries_mod ((65535 - ck) + (65535 - old) + new)
  have hlt := foldCarries_lt ((65535 - ck) + (65535 - old) + new)
  omega

end WarrenGuard.InnerMtu
