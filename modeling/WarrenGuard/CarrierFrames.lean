/-
The framing of the TCP carrier (`warrenguard-tcp-carrier/src/lib.rs`).

QUIC datagrams travel in one stream, each behind its length in two bytes.  The reader keeps what
has arrived in a buffer with a cursor; the bytes behind the cursor are dropped now and then, at
moments that have nothing to do with where frames end.

* `nextDatagram_eq` — `next_datagram` is the front parser `datagram` on the bytes that are not
  consumed yet (`Deframer.rest`);
* `carrier_delivers` — however the stream is cut and whenever the reader asks.

Design notes: the cursor is within the buffer, which is a field of `Deframer`, so that the
subtraction and the slices of the source do not panic.
-/
import Mathlib.Data.List.Induction
import WarrenGuard.ByteString
import WarrenGuard.FrontParser

namespace WarrenGuard.Carrier

open ByteString FrontParser

def maxDatagramLen : ℕ := 65535

def lenPrefixBytes : ℕ := 2

inductive FramingError where
  | datagramTooLarge (len : ℕ)
deriving DecidableEq

def encodeFrame (out datagram : List UInt8) : Except FramingError (List UInt8) :=
  if maxDatagramLen < datagram.length then .error (.datagramTooLarge datagram.length)
  else .ok (out ++ be16 datagram.length ++ datagram)

structure Deframer where
  buf : List UInt8
  start : ℕ
  start_le : start ≤ buf.length

namespace Deframer

def new : Deframer := ⟨[], 0, Nat.le_refl 0⟩

variable (d : Deframer)

def push (bytes : List UInt8) : Deframer :=
  ⟨d.buf ++ bytes, d.start, by rw [List.length_append]; exact Nat.le_add_right_of_le d.start_le⟩

/-- Drops the consumed bytes once they dominate the buffer. -/
def compact : Deframer :=
  if d.start = 0 then d
  else if d.start = d.buf.length then new
  else if d.buf.length / 2 < d.start then ⟨d.buf.drop d.start, 0, Nat.zero_le _⟩
  else d

def nextDatagram : Option (List UInt8) × Deframer :=
  let available := d.buf.length - d.start
  if available < lenPrefixBytes then (none, d.compact)
  else
    let payloadLen := beNat (slice d.buf d.start 2)
    let frameLen := lenPrefixBytes + payloadLen
    if h : available < frameLen then (none, d.compact)
    else
      let payloadStart := d.start + lenPrefixBytes
      (some (slice d.buf payloadStart payloadLen),
        (⟨d.buf, d.start + frameLen, by have := d.start_le; omega⟩ : Deframer).compact)

def rest : List UInt8 := d.buf.drop d.start

theorem rest_push (bytes : List UInt8) : (d.push bytes).rest = d.rest ++ bytes :=
  List.drop_append_of_le_length d.start_le

theorem rest_compact : d.compact.rest = d.rest := by
  unfold compact
  split
  · rfl
  split
  · rename_i hall
    exact (List.drop_eq_nil_of_le (Nat.le_of_eq hall.symm)).symm
  split <;> rfl

theorem start_compact_le : 2 * d.compact.start ≤ d.compact.buf.length := by
  unfold compact
  split
  · omega
  split
  · exact Nat.le_refl 0
  split
  · exact Nat.zero_le _
  · omega

end Deframer

/-! ### Frames -/

def datagram : FrontParser UInt8 (List UInt8) where
  run xs :=
    if xs.length < lenPrefixBytes + beNat (slice xs 0 2) then none
    else some (slice xs lenPrefixBytes (beNat (slice xs 0 2)),
      lenPrefixBytes + beNat (slice xs 0 2))
  pos := by
    intro xs v n h
    split at h <;> cases h
    exact Nat.add_pos_left Nat.zero_lt_two _
  front := by
    intro xs v n ys
    have hfront (i k : ℕ) (h : i + k ≤ xs.length) : slice (xs ++ ys) i k = slice xs i k := by
      rw [← slice_take h, List.take_left]
    unfold lenPrefixBytes
    rw [List.length_append]
    constructor
    · intro h
      split at h <;> cases h
      rw [hfront 0 2 (by omega), if_neg (by omega), hfront _ _ (by omega)]
      exact ⟨by omega, rfl⟩
    · rintro ⟨hn, h⟩
      split at h <;> cases h
      rw [hfront 0 2 (by omega)] at hn ⊢
      rw [if_neg (by omega), hfront _ _ hn]

def frames (ds : List (List UInt8)) : List UInt8 := ds.flatMap fun d => be16 d.length ++ d

theorem foldlM_encodeFrame (out : List UInt8) {ds : List (List UInt8)}
    (hlen : ∀ d ∈ ds, d.length ≤ maxDatagramLen) :
    ds.foldlM encodeFrame out = .ok (out ++ frames ds) := by
  induction ds generalizing out with
  | nil => exact congrArg Except.ok (List.append_nil out).symm
  | cons d ds ih =>
    obtain ⟨hd, hds⟩ := List.forall_mem_cons.mp hlen
    have hfirst : encodeFrame out d = .ok (out ++ be16 d.length ++ d) := if_neg (Nat.not_lt.mpr hd)
    rw [List.foldlM_cons, hfirst]
    exact (ih _ hds).trans (by simp [frames])

theorem run_frame {d : List UInt8} (hd : d.length ≤ maxDatagramLen) (tail : List UInt8) :
    datagram.run (be16 d.length ++ d ++ tail) = some (d, lenPrefixBytes + d.length) := by
  have hlen : beNat (slice (be16 d.length ++ d ++ tail) 0 2) = d.length :=
    beNat_be16 (Nat.lt_succ_of_le hd)
  have hpayload : slice (be16 d.length ++ d ++ tail) lenPrefixBytes d.length = d := by
    rw [List.append_assoc]
    exact slice_middle rfl rfl
  simp only [datagram, hlen, hpayload]
  exact if_neg (by simp [be16, lenPrefixBytes]; omega)

/-- **All frames are taken off** a stream of frames. -/
theorem drain_frames {ds : List (List UInt8)} (hlen : ∀ d ∈ ds, d.length ≤ maxDatagramLen) :
    (datagram.drain (frames ds)).1.map Prod.fst = ds ∧ (datagram.drain (frames ds)).2 = [] := by
  induction ds with
  | nil => rw [show frames [] = [] from rfl, drain_of_none datagram.run_nil]; simp
  | cons d ds ih =>
    obtain ⟨hd, hds⟩ := List.forall_mem_cons.mp hlen
    have hdrop : (be16 d.length ++ d ++ frames ds).drop (lenPrefixBytes + d.length) = frames ds :=
      List.drop_left' (by simp [be16, lenPrefixBytes]; omega)
    rw [show frames (d :: ds) = be16 d.length ++ d ++ frames ds from List.flatMap_cons,
      drain_of_some (run_frame hd _), hdrop]
    exact ⟨congrArg (d :: ·) (ih hds).1, (ih hds).2⟩

/-- **`next_datagram` is the parser** on what is not consumed yet. -/
theorem nextDatagram_eq (d : Deframer) :
    d.nextDatagram.1 = (datagram.run d.rest).map Prod.fst ∧
      d.nextDatagram.2.rest = d.rest.drop ((datagram.run d.rest).elim 0 Prod.snd) ∧
      2 * d.nextDatagram.2.start ≤ d.nextDatagram.2.buf.length := by
  have hrest : d.rest.length = d.buf.length - d.start := List.length_drop
  have hslice (i k : ℕ) : slice d.rest i k = slice d.buf (d.start + i) k := by
    rw [slice, slice, Deframer.rest, List.drop_drop]
  simp only [datagram, hrest, hslice, Nat.add_zero, Deframer.nextDatagram]
  split
  · rw [if_pos (by omega)]
    exact ⟨rfl, d.rest_compact, d.start_compact_le⟩
  · split
    · exact ⟨rfl, d.rest_compact, d.start_compact_le⟩
    · refine ⟨rfl, ?_, Deframer.start_compact_le _⟩
      rw [Deframer.rest_compact]
      exact (List.drop_drop ..).symm

/-! ### A reader -/

inductive Op where
  | push (bytes : List UInt8)
  | next

def pushed (ops : List Op) : List UInt8 :=
  ops.flatMap fun
    | .push bytes => bytes
    | .next => []

structure Reader where
  deframer : Deframer
  drained : List (List UInt8)

def Reader.step (r : Reader) : Op → Reader
  | .push bytes => { r with deframer := r.deframer.push bytes }
  | .next => ⟨r.deframer.nextDatagram.2, r.drained ++ r.deframer.nextDatagram.1.toList⟩

def Reader.run (ops : List Op) : Reader := ops.foldl step ⟨.new, []⟩

/-- **What was given and what is left** is what has been pushed. -/
theorem drain_pushed (ops : List Op) :
    (datagram.drain (pushed ops)).1.map Prod.fst = (Reader.run ops).drained
        ++ (datagram.drain (Reader.run ops).deframer.rest).1.map Prod.fst ∧
      (datagram.drain (pushed ops)).2 = (datagram.drain (Reader.run ops).deframer.rest).2 := by
  induction ops using List.reverseRecOn with
  | nil => exact ⟨rfl, rfl⟩
  | append_singleton ops op ih =>
    have hrun : Reader.run (ops ++ [op]) = (Reader.run ops).step op := List.foldl_append
    have hpushed : pushed (ops ++ [op]) = pushed ops ++ pushed [op] := List.flatMap_append
    rw [hrun, hpushed, drain_append, ih.2, List.map_append, ih.1]
    generalize Reader.run ops = r
    cases op with
    | push bytes =>
      have hbytes : pushed [.push bytes] = bytes := List.flatMap_singleton ..
      have hrest : (r.step (.push bytes)).deframer.rest = r.deframer.rest ++ bytes :=
        r.deframer.rest_push bytes
      rw [hbytes, hrest, drain_append r.deframer.rest, List.map_append,
        List.append_assoc]
      exact ⟨rfl, rfl⟩
    | next =>
      obtain ⟨hgiven, hleft, -⟩ := nextDatagram_eq r.deframer
      have hnil : pushed [.next] = [] := rfl
      rw [hnil, List.append_nil, drain_of_none (run_drain _)]
      simp only [Reader.step, hgiven, hleft]
      cases hparse : datagram.run r.deframer.rest with
      | none => simp
      | some item => simp [drain_of_some hparse]

/-- **The carrier delivers.**  The sender frames some datagrams of at most 65535 bytes.  For any
pushes and calls of `next_datagram`, as far as the pushes have got with the stream, the reader
was given a prefix of the datagrams; once all is pushed, the next call gives nothing if and only
if it was given all of them; and after the call at most half of the buffer is consumed. -/
theorem carrier_delivers (ds : List (List UInt8)) (hlen : ∀ d ∈ ds, d.length ≤ maxDatagramLen) :
    ∃ stream, ds.foldlM encodeFrame [] = .ok stream ∧ ∀ ops, pushed ops <+: stream →
      (Reader.run ops).drained <+: ds ∧
      (pushed ops = stream → ((Reader.run ops).deframer.nextDatagram.1 = none ↔
        (Reader.run ops).drained = ds)) ∧
      2 * (Reader.run ops).deframer.nextDatagram.2.start
        ≤ (Reader.run ops).deframer.nextDatagram.2.buf.length := by
  refine ⟨frames ds, foldlM_encodeFrame [] hlen, fun ops hpushed => ?_⟩
  obtain ⟨hgiven, -⟩ := drain_pushed ops
  obtain ⟨hnext, -, hhalf⟩ := nextDatagram_eq (Reader.run ops).deframer
  refine ⟨?_, fun hall => ?_, hhalf⟩
  · obtain ⟨more, hmore⟩ := hpushed
    rw [← (drain_frames hlen).1, ← hmore, drain_append, List.map_append, hgiven,
      List.append_assoc]
    exact List.prefix_append _ _
  · rw [hall, (drain_frames hlen).1] at hgiven
    rw [hnext, Option.map_eq_none_iff]
    constructor
    · intro hnone
      rw [drain_of_none hnone] at hgiven
      simpa using hgiven.symm
    · intro hdone
      rw [hdone] at hgiven
      rcases hrun : datagram.run (Reader.run ops).deframer.rest with _ | item
      · rfl
      · rw [drain_of_some hrun] at hgiven
        simp at hgiven

def cutOps : List Op := [.push [0, 3, 1, 2, 3, 0], .next, .push [1, 4], .next]

theorem carrier_delivers_cut : (Reader.run cutOps).drained <+: [[1, 2, 3], [4]] := by
  obtain ⟨stream, hstream, hall⟩ := carrier_delivers [[1, 2, 3], [4]] (by decide)
  obtain rfl : [0, 3, 1, 2, 3, 0, 1, 4] = stream := Except.ok.inj hstream
  exact (hall cutOps (by decide)).1

end WarrenGuard.Carrier
