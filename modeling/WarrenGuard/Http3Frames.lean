/-
Variable-length integers and HTTP/3 frames (`warrenguard-edge/src/varint.rs` and `http3.rs`).

The first two bits of an integer say how many bytes it has.  A frame is its type, its length and
its payload; a capsule has the same form.  All are front parsers:

* `varint`, `frameHead`, `frame` — what `decode`, `frameHeader` and `readFrame` are
  (`frameHeader_eq`, `readFrame_eq`);
* `frameHeader_lt` — sixteen bytes hold the header of every frame.

Design notes: integers have at most 62 bits, so the additions of lengths that the code checks do
not overflow.
-/
import WarrenGuard.ByteString
import WarrenGuard.FrontParser

namespace WarrenGuard.Http3

open ByteString

/-! ### Integers -/

/-- `varint::decode`: the value, and how many bytes it takes. -/
def decode (input : List UInt8) : Option (ℕ × ℕ) :=
  match input with
  | [] => none
  | first :: _ =>
    let len := 1 <<< (first >>> 6).toNat
    if input.length < len then none
    else some ((slice input 1 (len - 1)).foldl (fun value byte => 256 * value + byte.toNat)
      (first &&& 0x3f).toNat, len)

theorem encodedLen_bounds (first : UInt8) :
    0 < 1 <<< (first >>> 6).toNat ∧ 1 <<< (first >>> 6).toNat ≤ 8 := by
  have htop : (first >>> 6).toNat ≤ 3 := by
    have hlt := first.toNat_lt
    rw [UInt8.toNat_shiftRight, Nat.shiftRight_eq_div_pow]
    exact Nat.le_of_lt_succ (Nat.div_lt_of_lt_mul hlt)
  rw [Nat.one_shiftLeft]
  exact ⟨Nat.two_pow_pos _, Nat.pow_le_pow_right (by decide) htop⟩

variable {first : UInt8} {rest : List UInt8}

theorem decode_cons_of_lt
    (h : (first :: rest).length < 1 <<< (first >>> 6).toNat) : decode (first :: rest) = none :=
  if_pos h

theorem decode_cons_of_le (h : 1 <<< (first >>> 6).toNat ≤ (first :: rest).length) :
    decode (first :: rest)
      = some ((rest.take (1 <<< (first >>> 6).toNat - 1)).foldl
          (fun value byte => 256 * value + byte.toNat) (first &&& 0x3f).toNat,
        1 <<< (first >>> 6).toNat) :=
  if_neg (Nat.not_lt.mpr h)

theorem decode_len {v n : ℕ} (h : decode (first :: rest) = some (v, n)) :
    n = 1 <<< (first >>> 6).toNat ∧ n ≤ (first :: rest).length := by
  rcases Nat.lt_or_ge (first :: rest).length (1 <<< (first >>> 6).toNat) with hlt | hge
  · rw [decode_cons_of_lt hlt] at h
    cases h
  · rw [decode_cons_of_le hge] at h
    cases h
    exact ⟨rfl, hge⟩

def varint : FrontParser UInt8 ℕ where
  run := decode
  pos := by
    intro xs v n h
    cases xs with
    | nil => cases h
    | cons first rest =>
      rw [(decode_len h).1]
      exact (encodedLen_bounds first).1
  front := by
    intro xs v n ys
    cases xs with
    | nil =>
      refine iff_of_false nofun ?_
      rintro ⟨hn, h⟩
      cases ys with
      | nil => cases h
      | cons first rest =>
        have hpos := (encodedLen_bounds first).1
        rw [← (decode_len h).1] at hpos
        exact Nat.lt_irrefl 0 (Nat.lt_of_lt_of_le hpos hn)
    | cons first rest =>
      rw [List.cons_append]
      have hlength : (first :: rest).length ≤ (first :: (rest ++ ys)).length := by
        rw [← List.cons_append, List.length_append]
        exact Nat.le_add_right _ _
      constructor
      · intro h
        obtain ⟨rfl, hle⟩ := decode_len h
        refine ⟨hle, ?_⟩
        rw [← h, decode_cons_of_le hle, decode_cons_of_le (Nat.le_trans hle hlength),
          List.take_append_of_le_length]
        rw [List.length_cons] at hle
        omega
      · rintro ⟨hn, h⟩
        obtain ⟨rfl, -⟩ := decode_len h
        rw [← h, decode_cons_of_le hn, decode_cons_of_le (Nat.le_trans hn hlength),
          List.take_append_of_le_length]
        rw [List.length_cons] at hn
        omega

theorem decode_lt {input : List UInt8} (h : decode input = none) : input.length < 8 := by
  cases input with
  | nil => exact Nat.zero_lt_succ _
  | cons first rest =>
    have hlen := (encodedLen_bounds first).2
    rcases Nat.lt_or_ge (first :: rest).length (1 <<< (first >>> 6).toNat) with hlt | hge
    · omega
    · rw [decode_cons_of_le hge] at h
      cases h

theorem decode_le_eight {input : List UInt8} {v n : ℕ} (h : decode input = some (v, n)) :
    n ≤ 8 := by
  cases input with
  | nil => cases h
  | cons first rest =>
    rw [(decode_len h).1]
    exact (encodedLen_bounds first).2

/-! ### Frames -/

/-- The type and the length of a frame, and how many bytes the two take. -/
def frameHeader (input : List UInt8) : Option ((ℕ × ℕ) × ℕ) :=
  match decode input with
  | none => none
  | some (ty, n1) =>
    match decode (input.drop n1) with
    | none => none
    | some (len, n2) => some ((ty, len), n1 + n2)

structure Frame where
  ty : ℕ
  payload : List UInt8
deriving DecidableEq

def readFrame (input : List UInt8) : Option (Frame × ℕ) :=
  match frameHeader input with
  | none => none
  | some ((ty, len), header) =>
    let stop := header + len
    if input.length < stop then none else some (⟨ty, slice input header len⟩, stop)

def frameHead : FrontParser UInt8 (ℕ × ℕ) := varint.seq varint

def frame : FrontParser UInt8 Frame :=
  (frameHead.sized Prod.snd).map fun read => ⟨read.1.1, read.2⟩

theorem frameHeader_eq : frameHeader = frameHead.run := by
  funext input
  unfold frameHeader frameHead FrontParser.seq varint
  dsimp only
  cases decode input with
  | none => rfl
  | some first =>
    dsimp only [Option.bind_some]
    cases decode (input.drop first.2) with
    | none => rfl
    | some second => rfl

theorem readFrame_eq : readFrame = frame.run := by
  funext input
  unfold readFrame frame FrontParser.map FrontParser.sized
  rw [frameHeader_eq]
  dsimp only
  cases frameHead.run input with
  | none => rfl
  | some head =>
    dsimp only [Option.bind_some]
    split
    · rfl
    · rfl

/-- **Sixteen bytes hold the header of every frame.** -/
theorem frameHeader_lt {input : List UInt8} (h : frameHeader input = none) : input.length < 16 := by
  unfold frameHeader at h
  cases hfirst : decode input with
  | none =>
    have hlt := decode_lt hfirst
    omega
  | some first =>
    obtain ⟨ty, n1⟩ := first
    rw [hfirst] at h
    dsimp only at h
    have hle := decode_le_eight hfirst
    cases hsecond : decode (input.drop n1) with
    | none =>
      have hlt := decode_lt hsecond
      rw [List.length_drop] at hlt
      omega
    | some second =>
      rw [hsecond] at h
      cases h

end WarrenGuard.Http3
