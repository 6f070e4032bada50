/-
The capsules of a CONNECT-UDP stream (`CapsuleBuffer` of `warrenguard-masque/src/tunnel.rs`).

The DATA frames of the stream carry capsules, cut anywhere.  The buffer takes off all capsules
that are complete, sends the payloads of those that carry a datagram of the UDP context, and keeps
the rest.  A peer that leaves more than 16 KiB unparsed ends the tunnel.

* `drainCapsules_eq` — what a push takes off are the items of the front parser of frames;
* `relay_eq` — the payloads sent and the verdict, from the bytes alone;
* `capsules_chunks` — so it does not matter where the stream is cut, if no complete capsule takes
  more than 16385 bytes; `capsules_cut` — for a longer one it does.
-/
import WarrenGuard.FrameReader
import Mathlib.Data.List.Flatten

namespace WarrenGuard.Masque

open Http3 FrontParser

/-- `MAX_CAPSULE_BUFFER`: what a peer may leave unparsed. -/
def maxCapsuleBuffer : ℕ := maxControlFrameBytes

def capsuleDatagram : ℕ := 0

def connectUdpContextId : ℕ := 0

def udpPayload (capsule : Frame) : Option (List UInt8) :=
  if capsule.ty = capsuleDatagram then
    match decode capsule.payload with
    | none => none
    | some (contextId, n) =>
      if contextId = connectUdpContextId then some (capsule.payload.drop n) else none
  else none

theorem readFrame_shortens {buf : List UInt8} {read : Frame × ℕ} (h : readFrame buf = some read) :
    (buf.drop read.2).length < buf.length := by
  rw [readFrame_eq] at h
  have hpos := frame.pos h
  have hle := frame.le_length h
  rw [List.length_drop]
  omega

/-- The loop of `push`: what is sent, and what is left in the buffer. -/
def drainCapsules (buf : List UInt8) : List (List UInt8) × List UInt8 :=
  match _h : readFrame buf with
  | none => ([], buf)
  | some read =>
    let (sent, rest) := drainCapsules (buf.drop read.2)
    ((udpPayload read.1).toList ++ sent, rest)
termination_by buf.length
decreasing_by exact readFrame_shortens _h

structure Pushed where
  sent : List (List UInt8)
  buf : List UInt8
  ok : Bool
deriving DecidableEq

def push (buf chunk : List UInt8) : Pushed :=
  let (sent, rest) := drainCapsules (buf ++ chunk)
  ⟨sent, rest, decide (rest.length ≤ maxCapsuleBuffer)⟩

inductive Verdict where
  | wellFormed
  | malformed
deriving DecidableEq

/-- The chunks of a stream, pushed one after another until one is refused. -/
def relay : List UInt8 → List (List UInt8) → List (List UInt8) × Verdict
  | _, [] => ([], .wellFormed)
  | buf, chunk :: chunks =>
    let pushed := push buf chunk
    if pushed.ok then
      let (sent, verdict) := relay pushed.buf chunks
      (pushed.sent ++ sent, verdict)
    else (pushed.sent, .malformed)

/-- The capsules of a stream that are complete, each with the bytes it takes, its header
included. -/
def capsules (bytes : List UInt8) : List (Frame × ℕ) := (frame.drain bytes).1

def payloads (read : List (Frame × ℕ)) : List (List UInt8) :=
  read.flatMap fun capsule => (udpPayload capsule.1).toList

/-! ### One push -/

theorem drainCapsules_eq (buf : List UInt8) :
    drainCapsules buf = (payloads (frame.drain buf).1, (frame.drain buf).2) := by
  induction hn : buf.length using Nat.strongRecOn generalizing buf with
  | _ n ih =>
    rw [drainCapsules]
    split
    · rename_i hnone
      rw [readFrame_eq] at hnone
      rw [drain_of_none hnone]
      rfl
    · rename_i read hread
      rw [ih _ (hn ▸ readFrame_shortens hread) _ rfl]
      rw [readFrame_eq] at hread
      rw [drain_of_some hread]
      rfl

theorem push_eq (buf chunk : List UInt8) :
    push buf chunk = ⟨payloads (frame.drain (buf ++ chunk)).1, (frame.drain (buf ++ chunk)).2,
      decide ((frame.drain (buf ++ chunk)).2.length ≤ maxCapsuleBuffer)⟩ := by
  unfold push
  rw [drainCapsules_eq]

/-! ### Streams -/

def judge (bytes : List UInt8) : List (List UInt8) × Verdict :=
  (payloads (frame.drain bytes).1,
    if (frame.drain bytes).2.length ≤ maxCapsuleBuffer then .wellFormed else .malformed)

theorem drain_of_long {rest more : List UInt8} (hrest : frame.run rest = none)
    (hlong : maxCapsuleBuffer < rest.length)
    (hshort : ∀ capsule ∈ capsules (rest ++ more), capsule.2 ≤ maxCapsuleBuffer + 1) :
    frame.drain (rest ++ more) = ([], rest ++ more) := by
  cases h : frame.run (rest ++ more) with
  | none => exact drain_of_none h
  | some read =>
    have hlt := frame.lt_of_none hrest h
    have hle := hshort read (by
      rw [capsules, drain_of_some h]
      exact List.mem_cons_self)
    omega

/-- **The bytes decide**, however they are cut, if no complete capsule is too long. -/
theorem relay_eq {buf : List UInt8} (hbuf : buf.length ≤ maxCapsuleBuffer)
    (hnone : frame.run buf = none) (chunks : List (List UInt8))
    (hshort : ∀ capsule ∈ capsules (buf ++ chunks.flatten), capsule.2 ≤ maxCapsuleBuffer + 1) :
    relay buf chunks = judge (buf ++ chunks.flatten) := by
  induction chunks generalizing buf with
  | nil =>
    rw [List.flatten_nil, List.append_nil, judge, drain_of_none hnone]
    dsimp only
    rw [if_pos hbuf]
    rfl
  | cons chunk chunks ih =>
    rw [List.flatten_cons, ← List.append_assoc, capsules] at hshort
    rw [List.flatten_cons, ← List.append_assoc, relay, push_eq, judge]
    have hrest := run_drain (p := frame) (buf ++ chunk)
    have hsplit := drain_append (p := frame) (buf ++ chunk) chunks.flatten
    rw [hsplit] at hshort ⊢
    generalize frame.drain (buf ++ chunk) = drained at hshort hrest ⊢
    have hlater : ∀ capsule ∈ capsules (drained.2 ++ chunks.flatten),
        capsule.2 ≤ maxCapsuleBuffer + 1 :=
      fun capsule hin => hshort capsule (List.mem_append_right _ hin)
    dsimp only
    by_cases hlen : drained.2.length ≤ maxCapsuleBuffer
    · rw [if_pos (decide_eq_true hlen), ih hlen hrest hlater, judge]
      unfold payloads
      rw [List.flatMap_append]
    · -- the chunk is refused, and nothing that could have been sent follows
      rw [if_neg (by simpa using hlen), drain_of_long hrest (Nat.not_le.mp hlen) hlater,
        List.append_nil, if_neg]
      rw [List.length_append]
      omega

/-- **Capsules and chunks.**  For every two ways of cutting a capsule stream into chunks, the
payloads that are sent and the verdict are the same, if no complete capsule of the stream takes
more than 16385 bytes. -/
theorem capsules_chunks (chunks chunks' : List (List UInt8))
    (hsame : chunks.flatten = chunks'.flatten)
    (hshort : ∀ capsule ∈ capsules chunks.flatten, capsule.2 ≤ maxCapsuleBuffer + 1) :
    relay [] chunks = relay [] chunks' := by
  have hempty : ([] : List UInt8).length ≤ maxCapsuleBuffer := Nat.zero_le _
  rw [relay_eq hempty frame.run_nil chunks hshort,
    relay_eq hempty frame.run_nil chunks' (by rw [← hsame]; exact hshort), hsame]

theorem capsules_chunks_cut :
    relay [] [[0], [3, 0, 7, 8]] = relay [] [[0, 3, 0, 7, 8]] := by
  have hcapsules : capsules [0, 3, 0, 7, 8] = [(⟨0, [0, 7, 8]⟩, 5)] := by
    have hread : frame.run [0, 3, 0, 7, 8] = some (⟨0, [0, 7, 8]⟩, 5) := by decide
    rw [capsules, drain_of_some hread]
    show (_, 5) :: (frame.drain []).1 = _
    rw [drain_of_none frame.run_nil]
  refine capsules_chunks [[0], [3, 0, 7, 8]] [[0, 3, 0, 7, 8]] rfl fun capsule hin => ?_
  obtain rfl := List.mem_singleton.mp (hcapsules ▸ hin)
  decide

/-! ### A longer capsule -/

def longCapsule (n : ℕ) : List UInt8 := [0x00, 0x80, 0x00, 0x40, 0x00] ++ List.replicate n 0

theorem length_longCapsule (n : ℕ) : (longCapsule n).length = n + 5 := by
  rw [longCapsule, List.length_append, List.length_replicate, Nat.add_comm]
  rfl

theorem readFrame_longCapsule (n : ℕ) :
    readFrame (longCapsule n) = if n < 16384 then none
      else some (⟨0, (List.replicate n 0).take 16384⟩, 16389) := by
  have hheader : frameHeader (longCapsule n) = some ((0, 16384), 5) := by
    have hfive : frameHead.run [0x00, 0x80, 0x00, 0x40, 0x00] = some ((0, 16384), 5) := by decide
    rw [frameHeader_eq]
    exact frameHead.append hfive (List.replicate n 0)
  rw [readFrame, hheader]
  dsimp only
  rw [length_longCapsule]
  by_cases hn : n < 16384
  · rw [if_pos hn, if_pos (by omega)]
  · rw [if_neg hn, if_neg (by omega)]
    rfl

theorem drain_longCapsule :
    frame.drain (longCapsule 16384) = ([(⟨0, List.replicate 16384 0⟩, 16389)], []) := by
  have hread : frame.run (longCapsule 16384) = some (⟨0, List.replicate 16384 0⟩, 16389) := by
    rw [← readFrame_eq, readFrame_longCapsule, if_neg (by decide), List.take_of_length_le]
    exact Nat.le_of_eq List.length_replicate
  have hdrop : (longCapsule 16384).drop 16389 = [] :=
    List.drop_eq_nil_of_le (Nat.le_of_eq (length_longCapsule 16384))
  rw [drain_of_some hread]
  dsimp only
  rw [hdrop, drain_of_none frame.run_nil]

theorem udpPayload_context (rest : List UInt8) : udpPayload ⟨0, 0 :: rest⟩ = some rest := by
  have hcontext : decode (0 :: rest) = some (0, 1) := by
    have hzero : varint.run [0] = some (0, 1) := by decide
    exact varint.append hzero rest
  have hdatagram : (0 : ℕ) = capsuleDatagram := rfl
  rw [udpPayload, if_pos hdatagram]
  dsimp only
  rw [hcontext]
  rfl

/-- **Cut, a long capsule is malformed.**  In one chunk it is forwarded; in two, with its last
byte alone, it is over the bound before it is complete. -/
theorem capsules_cut :
    [longCapsule 16383, [0]].flatten = [longCapsule 16384].flatten ∧
      relay [] [longCapsule 16384] = ([List.replicate 16383 0], .wellFormed) ∧
      relay [] [longCapsule 16383, [0]] = ([], .malformed) := by
  refine ⟨?_, ?_, ?_⟩
  · rw [List.flatten_cons, List.flatten_singleton, List.flatten_singleton, longCapsule, longCapsule,
      List.append_assoc, ← List.replicate_succ']
  · rw [relay, push_eq, List.nil_append, drain_longCapsule]
    dsimp only
    rw [if_pos (by decide), payloads, List.flatMap_singleton, List.replicate_succ,
      udpPayload_context]
    rfl
  · have hread : frame.run (longCapsule 16383) = none := by
      rw [← readFrame_eq, readFrame_longCapsule, if_pos (by decide)]
    rw [relay, push_eq, List.nil_append, drain_of_none hread, length_longCapsule]
    rfl

end WarrenGuard.Masque
