/-
The ClientHello of a QUIC Initial (`warrenguard-ja4/src/frames.rs`).

The TLS handshake comes in CRYPTO frames, each with the offset of its data, in any order and over
several packets.  The segments are sorted by offset and joined, what is there already left out.

* `cryptoSegments_wire` — the segments of a payload are those of its frames;
* `mergeLoop_covering`, `mergeLoop_ok` — the loop over the sorted segments: they are joined if they
  leave no gap, and only then;
* `client_hello_reassembled` — so it is for payloads of frames, however the message is cut.

Design notes: the loops read from what is left of a payload instead of a position in it, and `fuel`
is the length of the payload.
-/
import Mathlib.Order.Nat
import WarrenGuard.Http3Frames

namespace WarrenGuard.Ja4

open ByteString

inductive Ja4Error where
  | truncated
  | varInt (need got : ℕ)
  | noClientHello
  | malformedClientHello
deriving DecidableEq

structure CryptoSegment where
  offset : ℕ
  data : List UInt8

def CryptoSegment.stop (s : CryptoSegment) : ℕ := s.offset + s.data.length

def decodeVarint (input : List UInt8) : Except Ja4Error (ℕ × ℕ) :=
  match input with
  | [] => .error (.varInt 1 0)
  | first :: _ =>
    let len := 1 <<< (first >>> 6).toNat
    if input.length < len then .error (.varInt len input.length)
    else .ok ((slice input 1 (len - 1)).foldl (fun value byte => 256 * value + byte.toNat)
      (first &&& 0x3f).toNat, len)

def skipVarint (bytes : List UInt8) : Except Ja4Error (List UInt8) := do
  let (_, n) ← decodeVarint bytes
  return bytes.drop n

def skipVarints : ℕ → List UInt8 → Except Ja4Error (List UInt8)
  | 0, bytes => .ok bytes
  | n + 1, bytes => do skipVarints n (← skipVarint bytes)

def skipAck (ecn : Bool) (bytes : List UInt8) : Except Ja4Error (List UInt8) := do
  let bytes ← skipVarints 2 bytes
  let (rangeCount, n) ← decodeVarint bytes
  let bytes ← skipVarint (bytes.drop n)
  let bytes ← skipVarints (2 * rangeCount) bytes
  if ecn then skipVarints 3 bytes else return bytes

def takeCrypto (bytes : List UInt8) : Except Ja4Error (CryptoSegment × List UInt8) := do
  let (offset, a) ← decodeVarint bytes
  let (length, b) ← decodeVarint (bytes.drop a)
  let bytes := (bytes.drop a).drop b
  if bytes.length < length then .error .truncated
  else return (⟨offset, bytes.take length⟩, bytes.drop length)

def cryptoSegmentsLoop : ℕ → List UInt8 → Except Ja4Error (List CryptoSegment)
  | 0, _ => .ok []
  | fuel + 1, bytes =>
    if bytes.isEmpty then .ok []
    else do
      let (frameType, n) ← decodeVarint bytes
      let bytes := bytes.drop n
      if frameType = 0 ∨ frameType = 1 then cryptoSegmentsLoop fuel bytes
      else if frameType = 2 ∨ frameType = 3 then
        cryptoSegmentsLoop fuel (← skipAck (frameType = 3) bytes)
      else if frameType = 6 then
        let (segment, bytes) ← takeCrypto bytes
        return segment :: (← cryptoSegmentsLoop fuel bytes)
      else .error .malformedClientHello

def cryptoSegments (payload : List UInt8) : Except Ja4Error (List CryptoSegment) :=
  cryptoSegmentsLoop payload.length payload

def mergeLoop (expected : ℕ) (out : List UInt8) :
    List CryptoSegment → Except Ja4Error (List UInt8)
  | [] => if out.isEmpty then .error .noClientHello else .ok out
  | s :: segments =>
    if s.stop ≤ expected then mergeLoop expected out segments
    else if expected < s.offset then .error .noClientHello
    else mergeLoop s.stop (out ++ s.data.drop (expected - s.offset)) segments

def reassembleClientHello (payloads : List (List UInt8)) : Except Ja4Error (List UInt8) := do
  let segments ← payloads.mapM cryptoSegments
  mergeLoop 0 [] (segments.flatten.mergeSort fun a b => a.offset ≤ b.offset)

/-! ### Joining -/

/-- Some segment has the byte at `p`. -/
def Covered (segments : List CryptoSegment) (p : ℕ) : Prop :=
  ∃ s ∈ segments, s.offset ≤ p ∧ p < s.stop

/-- The segment has the bytes of the message at its offset. -/
structure CryptoSegment.PartOf (message : List UInt8) (s : CryptoSegment) : Prop where
  stop_le : s.stop ≤ message.length
  data_eq : s.data = slice message s.offset s.data.length

section Merge

variable {message out hello : List UInt8} {expected : ℕ} {segments : List CryptoSegment}

theorem take_append_drop_data {s : CryptoSegment} (h : s.PartOf message)
    (hle : s.offset ≤ expected) (hlt : expected < s.stop) :
    message.take expected ++ s.data.drop (expected - s.offset) = message.take s.stop := by
  have hstop : s.stop = expected + (s.stop - expected) := by omega
  have hdata : s.data.drop (expected - s.offset)
      = (message.drop expected).take (s.stop - expected) := by
    rw [h.data_eq, slice, List.drop_take, List.drop_drop]
    congr 1
    · unfold CryptoSegment.stop
      omega
    · congr 1
      omega
  rw [hdata, hstop, List.take_add, ← hstop]

/-- **Segments of a message are joined to the message**, if they cover what is missing. -/
theorem mergeLoop_covering (hne : message ≠ []) (hpart : ∀ s ∈ segments, s.PartOf message)
    (hsorted : segments.Pairwise fun a b => a.offset ≤ b.offset) (hle : expected ≤ message.length)
    (hcover : ∀ p < message.length, expected ≤ p → Covered segments p) :
    mergeLoop expected (message.take expected) segments = .ok message := by
  induction segments generalizing expected with
  | nil =>
    have hall : expected = message.length := by
      by_contra hlt
      obtain ⟨s, hs, -⟩ := hcover expected (by omega) le_rfl
      cases hs
    rw [hall, List.take_length, mergeLoop, if_neg (by simpa using hne)]
  | cons s segments ih =>
    rw [List.forall_mem_cons] at hpart
    rw [List.pairwise_cons] at hsorted
    -- whatever is not covered by `s` is by one that comes after it
    have hrest {p : ℕ} (hp : p < message.length) (hexp : expected ≤ p) (hs : s.stop ≤ p) :
        Covered segments p := by
      obtain ⟨s', hmem, hin⟩ := hcover p hp hexp
      rcases List.mem_cons.mp hmem with rfl | hmem
      · exact absurd hin.2 (Nat.not_lt.mpr hs)
      · exact ⟨s', hmem, hin⟩
    rw [mergeLoop]
    split_ifs with hold hgap
    · exact ih hpart.2 hsorted.2 hle fun p hp hexp => hrest hp hexp (hold.trans hexp)
    · have hstop := hpart.1.stop_le
      obtain ⟨s', hmem, hin⟩ :=
        hcover expected (by unfold CryptoSegment.stop at hstop; omega) le_rfl
      rcases List.mem_cons.mp hmem with rfl | hmem
      · omega
      · have hafter := hsorted.1 s' hmem
        omega
    · rw [take_append_drop_data hpart.1 (by omega) (by omega)]
      exact ih hpart.2 hsorted.2 hpart.1.stop_le fun p hp hexp => hrest hp (by omega) hexp

/-- **What is joined has no gap.** -/
theorem mergeLoop_ok (h : mergeLoop expected out segments = .ok hello) {s : CryptoSegment}
    (hs : s ∈ segments) {p : ℕ} (hp : p < s.stop) : p < expected ∨ Covered segments p := by
  have hmore {a : CryptoSegment} {segments : List CryptoSegment} (hc : Covered segments p) :
      Covered (a :: segments) p := hc.imp fun _ hc => ⟨List.mem_cons_of_mem a hc.1, hc.2⟩
  induction segments generalizing expected out with
  | nil => cases hs
  | cons a segments ih =>
    rw [mergeLoop] at h
    split_ifs at h with hold hgap
    · rcases List.mem_cons.mp hs with rfl | hs
      · exact .inl (by omega)
      · exact (ih h hs).imp_right hmore
    · have hbefore (hlt : p < a.stop) : p < expected ∨ Covered (a :: segments) p := by
        rcases Nat.lt_or_ge p expected with hpe | hpe
        · exact .inl hpe
        · exact .inr ⟨a, List.mem_cons_self, by omega, hlt⟩
      rcases List.mem_cons.mp hs with rfl | hs
      · exact hbefore hp
      · exact (ih h hs).elim hbefore fun hc => .inr (hmore hc)

end Merge

/-! ### Frames -/

/-- The frames of a payload.  The two numbers of a CRYPTO frame may be written in any length. -/
inductive Frame where
  | padding
  | ping
  | crypto (s : CryptoSegment) (offset length : List UInt8)
    (offset_eq : Http3.decode offset = some (s.offset, offset.length))
    (length_eq : Http3.decode length = some (s.data.length, length.length))

def Frame.bytes : Frame → List UInt8
  | .padding => [0]
  | .ping => [1]
  | .crypto s offset length _ _ => 6 :: (offset ++ (length ++ s.data))

def Frame.segment? : Frame → Option CryptoSegment
  | .crypto s .. => some s
  | _ => none

def wire (frames : List Frame) : List UInt8 := frames.flatMap Frame.bytes

theorem decodeVarint_append {number rest : List UInt8} {v : ℕ}
    (h : Http3.decode number = some (v, number.length)) :
    decodeVarint (number ++ rest) = .ok (v, number.length) := by
  have hall := Http3.varint.append h rest
  cases hbytes : number ++ rest with
  | nil =>
    rw [hbytes] at hall
    cases hall
  | cons first tail =>
    rw [hbytes] at hall
    change Http3.decode (first :: tail) = _ at hall
    unfold Http3.decode at hall
    unfold decodeVarint
    dsimp only at hall ⊢
    split_ifs at hall ⊢
    exact congrArg Except.ok (Option.some.inj hall)

theorem takeCrypto_bytes {s : CryptoSegment} {offset length : List UInt8}
    (ho : Http3.decode offset = some (s.offset, offset.length))
    (hl : Http3.decode length = some (s.data.length, length.length)) (rest : List UInt8) :
    takeCrypto (offset ++ (length ++ (s.data ++ rest))) = .ok (s, rest) := by
  unfold takeCrypto
  rw [decodeVarint_append ho]
  dsimp only [bind, Except.bind]
  rw [List.drop_left, decodeVarint_append hl]
  dsimp only
  rw [List.drop_left, if_neg (by simp), List.take_left, List.drop_left]
  rfl

theorem cryptoSegmentsLoop_wire (frames : List Frame) {fuel : ℕ} (h : (wire frames).length ≤ fuel) :
    cryptoSegmentsLoop fuel (wire frames) = .ok (frames.filterMap Frame.segment?) := by
  induction frames generalizing fuel with
  | nil => cases fuel <;> rfl
  | cons f frames ih =>
    have hwire : wire (f :: frames) = f.bytes ++ wire frames := List.flatMap_cons
    cases fuel with
    | zero =>
      rw [hwire, List.length_append] at h
      cases f <;> simp [Frame.bytes] at h
    | succ fuel =>
      rw [hwire] at h ⊢
      cases f with
      | padding => exact ih (Nat.le_of_succ_le_succ h)
      | ping => exact ih (Nat.le_of_succ_le_succ h)
      | crypto s offset length ho hl =>
        have hstep : cryptoSegmentsLoop (fuel + 1)
            (6 :: (offset ++ (length ++ s.data)) ++ wire frames) = do
              let (segment, bytes) ← takeCrypto (offset ++ (length ++ s.data) ++ wire frames)
              return segment :: (← cryptoSegmentsLoop fuel bytes) := rfl
        refine hstep.trans ?_
        rw [List.append_assoc, List.append_assoc, takeCrypto_bytes ho hl]
        dsimp only [bind, Except.bind]
        rw [ih]
        · rfl
        · simp only [Frame.bytes, List.length_append, List.length_cons] at h
          omega

theorem cryptoSegments_wire (frames : List Frame) :
    cryptoSegments (wire frames) = .ok (frames.filterMap Frame.segment?) :=
  cryptoSegmentsLoop_wire frames le_rfl

def segmentsOf (payloads : List (List Frame)) : List CryptoSegment :=
  (payloads.map (List.filterMap Frame.segment?)).flatten

theorem reassembleClientHello_wire (payloads : List (List Frame)) :
    reassembleClientHello (payloads.map wire)
      = mergeLoop 0 [] ((segmentsOf payloads).mergeSort fun a b => a.offset ≤ b.offset) := by
  have hmap : (payloads.map wire).mapM cryptoSegments
      = .ok (payloads.map (List.filterMap Frame.segment?)) := by
    induction payloads with
    | nil => rfl
    | cons frames payloads ih =>
      rw [List.map_cons, List.mapM_cons, cryptoSegments_wire, ih]
      rfl
  unfold reassembleClientHello
  rw [hmap]
  rfl

theorem covered_mergeSort {segments : List CryptoSegment}
    {le : CryptoSegment → CryptoSegment → Bool} {p : ℕ} :
    Covered (segments.mergeSort le) p ↔ Covered segments p := by
  simp only [Covered, List.mem_mergeSort]

/-- **The ClientHello is reassembled.**  However the segments of a message are spread over payloads,
in any order, overlapping or repeated, with PADDING and PING frames between them: if they cover the
message, reassembly returns it.  And if a byte is not covered that is below a covered one, it
reports an error. -/
theorem client_hello_reassembled (payloads : List (List Frame)) :
    (∀ message, message ≠ [] → (∀ s ∈ segmentsOf payloads, s.PartOf message) →
      (∀ p < message.length, Covered (segmentsOf payloads) p) →
      reassembleClientHello (payloads.map wire) = .ok message) ∧
    ∀ p q, p < q → ¬ Covered (segmentsOf payloads) p → Covered (segmentsOf payloads) q →
      ∃ e, reassembleClientHello (payloads.map wire) = .error e := by
  rw [reassembleClientHello_wire]
  constructor
  · intro message hne hpart hcover
    have hsorted : ((segmentsOf payloads).mergeSort fun a b => a.offset ≤ b.offset).Pairwise
        fun a b => decide (a.offset ≤ b.offset) = true :=
      List.pairwise_mergeSort (by simp; omega) (by simp; omega) (segmentsOf payloads)
    refine mergeLoop_covering hne (fun s hs => hpart s (List.mem_mergeSort.mp hs))
      (by simpa using hsorted) (Nat.zero_le _) fun p hp _ => covered_mergeSort.mpr (hcover p hp)
  · rintro p q hpq hgap ⟨s, hs, hin⟩
    cases h : mergeLoop 0 [] ((segmentsOf payloads).mergeSort fun a b => a.offset ≤ b.offset) with
    | error e => exact ⟨e, rfl⟩
    | ok hello =>
      rcases mergeLoop_ok h (List.mem_mergeSort.mpr hs) (hpq.trans hin.2) with hlt | hc
      · cases hlt
      · exact absurd (covered_mergeSort.mp hc) hgap

def twoPackets : List (List Frame) :=
  [[.crypto ⟨1, [2, 3]⟩ [1] [2] rfl rfl, .padding], [.ping, .crypto ⟨0, [1, 2]⟩ [0] [2] rfl rfl]]

theorem client_hello_reassembled_twoPackets :
    reassembleClientHello (twoPackets.map wire) = .ok [1, 2, 3] := by
  have hsegments : segmentsOf twoPackets = [⟨1, [2, 3]⟩, ⟨0, [1, 2]⟩] := rfl
  refine (client_hello_reassembled twoPackets).1 [1, 2, 3] (by decide) ?_ fun p hp => ?_
  · rw [hsegments, List.forall_mem_cons, List.forall_mem_singleton]
    exact ⟨⟨by decide, rfl⟩, by decide, rfl⟩
  · rw [hsegments]
    rcases Nat.eq_zero_or_pos p with rfl | hpos
    · exact ⟨⟨0, [1, 2]⟩, by simp, le_rfl, by decide⟩
    · exact ⟨⟨1, [2, 3]⟩, by simp, hpos, hp⟩

end WarrenGuard.Ja4
