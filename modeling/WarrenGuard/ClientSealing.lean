/-
The forward direction of the multi-hop client, one call at a time (`MultiHopClient` of
`warrenguard-transport/src/multihop.rs`).

A frame is sealed under a session key (the encapsulated key of an HPKE setup and its epoch) and a
number of the one counter of forward frames.  A rekey installs a new session key, keeps the old
one for the overlap, and starts the counter over.  On a `/v2` session data goes on under the old
key until the new one is acknowledged, so numbers already used under it come again
(`rekey_repeats_old_epoch`).  Nothing else repeats (`sealed_frames_distinct`).

Design notes: payloads and receive windows are left out: opening a reverse frame is an event that
says which window it matched.  Failures of HPKE setup and of the datagram queue are inputs.  The
lists of session keys and of sealed frames are history.
-/
import WarrenGuard.Basic
import WarrenGuard.SealLog
import WarrenGuard.Tickets
import WarrenGuard.Transition

namespace WarrenGuard.Multihop

open SealLog

structure RekeyPolicy where
  maxFrames : ℕ
  maxAge : ℕ

def pendingOldEpochTtlDefault : ℕ := 5 * nanosPerSec

def pqSetupPingResendInterval : ℕ := nanosPerSec / 5

structure MultiHopClient where
  version : Version
  rekeyPolicy : RekeyPolicy
  pendingOldEpochTtl : ℕ
  /-- The session of the current epoch. -/
  current : SealTag
  /-- The session retained for the overlap after a rekey. -/
  pendingOldEpoch : Option SealTag
  pendingOldEpochAt : Option ℕ
  seqSend : UInt64
  framesInEpoch : ℕ
  lastRekey : ℕ
  pqSetupAcked : Bool
  pqSetupPingLastSent : Option ℕ
  keys : List EncapsulatedKey
  sealed : List (SealTag × UInt64)

namespace MultiHopClient

def connected (version : Version) (rekeyPolicy : RekeyPolicy) (key : EncapsulatedKey) (now : ℕ) :
    MultiHopClient where
  version := version
  rekeyPolicy := rekeyPolicy
  pendingOldEpochTtl := pendingOldEpochTtlDefault
  current := ⟨key, 0⟩
  pendingOldEpoch := none
  pendingOldEpochAt := none
  seqSend := 0
  framesInEpoch := 0
  lastRekey := now
  pqSetupAcked := false
  pqSetupPingLastSent := none
  keys := [key]
  sealed := []

variable (c : MultiHopClient)

/-- Draws the next number (`fetch_add`) and seals a frame with it. -/
def sealUnder (tag : SealTag) : MultiHopClient :=
  { c with seqSend := c.seqSend + 1, sealed := (tag, c.seqSend) :: c.sealed }

/-- The session a data frame is sealed under: while a `/v2` epoch is not acknowledged,
the retained old one if there is one. -/
def dataTag : SealTag :=
  match c.version with
  | .v1 => c.current
  | .v2 => if c.pqSetupAcked then c.current else c.pendingOldEpoch.getD c.current

def sealNextForwardFrame : MultiHopClient := c.sealUnder c.dataTag

/-- The setup request: on `/v2` it carries the epoch's ciphertext itself. -/
def sealSetupStreamRequest : MultiHopClient :=
  match c.version with
  | .v1 => c.sealNextForwardFrame
  | .v2 => c.sealUnder c.current

/-- A reverse frame was opened: `some true` if it matched the window of the retained
epoch, `some false` if that of the current one, `none` if it was rejected. -/
def decodeAndOpenReply (pending : Option Bool) : MultiHopClient :=
  if c.version = .v2 ∧ pending = some false then { c with pqSetupAcked := true } else c

/-- The setup reply came: the request counts, and an opened reply acknowledges. -/
def setupReply (pending : Option Bool) : MultiHopClient :=
  let c := { c with framesInEpoch := c.framesInEpoch + 1 }
  let c := c.decodeAndOpenReply pending
  -- the stream is reliable, so any opened reply acknowledges
  if c.version = .v2 ∧ pending.isSome then { c with pqSetupAcked := true } else c

def sendPqSetupPing (now : ℕ) (sent : Bool) : MultiHopClient :=
  -- only a ping that was taken holds the next one back
  let c := c.sealUnder c.current
  if sent then { c with pqSetupPingLastSent := some now } else c

def maybeResendPqSetupPing (now : ℕ) (sent : Bool) : MultiHopClient :=
  if c.version = .v2 ∧ c.pqSetupAcked = false ∧
      c.pqSetupPingLastSent.all (fun t => now - t ≥ pqSetupPingResendInterval) then
    c.sendPqSetupPing now sent
  else c

def pruneOldEpoch : MultiHopClient :=
  { c with pendingOldEpoch := none, pendingOldEpochAt := none }

def prunePendingOverlapIfExpired (now : ℕ) : MultiHopClient :=
  if c.pendingOldEpochAt.any (fun t => now - t ≥ c.pendingOldEpochTtl) then c.pruneOldEpoch else c

def shouldRekey (now : ℕ) : Bool :=
  decide (c.framesInEpoch ≥ c.rekeyPolicy.maxFrames) ||
    decide (now - c.lastRekey ≥ c.rekeyPolicy.maxAge)

/-- The session moves to `key` and the next epoch; the counter starts over. -/
def startEpoch (key : EncapsulatedKey) (now : ℕ) : MultiHopClient :=
  { c with
    current := ⟨key, c.current.epoch + 1⟩
    pendingOldEpoch := some c.current
    pendingOldEpochAt := some now
    -- one counter for both sessions, and frames of either may follow
    seqSend := 0
    framesInEpoch := 0
    lastRekey := now
    pqSetupAcked := if c.version = .v2 then false else c.pqSetupAcked
    keys := key :: c.keys }

/-- `rekey`; `none` when the setup fails (`key` is none) or the epoch is exhausted.
A `/v2` rekey announces the new epoch on a ping at once. -/
def rekey (key : Option EncapsulatedKey) (now : ℕ) (pingSent : Bool) :
    Option MultiHopClient :=
  match key with
  | none => none
  | some key =>
    if c.current.epoch.toNat + 1 < 2 ^ 32 then
      let c := c.startEpoch key now
      match c.version with
      | .v1 => some c
      -- sealed whether or not the datagram is taken; a failure is ignored
      | .v2 => some (c.sendPqSetupPing now pingSent)
    else none

/-- What the surroundings of one `send_packet` call answer: the clock, the outcome of
a fresh HPKE setup, and whether each datagram was taken. -/
structure SendEnv where
  now : ℕ
  key : Option EncapsulatedKey
  pingSent : Bool
  resendSent : Bool
  sent : Bool

/-- `send_packet` up to the sealing of its payload; `none` when a due rekey fails. -/
def readyToSeal (env : SendEnv) : Option MultiHopClient :=
  let c := c.prunePendingOverlapIfExpired env.now
  let c := if c.shouldRekey env.now then c.rekey env.key env.now env.pingSent else some c
  c.map (·.maybeResendPqSetupPing env.now env.resendSent)

def sendPacket (env : SendEnv) : MultiHopClient :=
  match c.readyToSeal env with
  -- the error of the rekey is returned, and nothing sealed
  | none => c.prunePendingOverlapIfExpired env.now
  | some c =>
    let c := c.sealNextForwardFrame
    if env.sent then { c with framesInEpoch := c.framesInEpoch + 1 } else c

inductive Call where
  | sendPacket (env : SendEnv)
  | setupRequest
  | setupReply (pending : Option Bool)
  | rekey (key : Option EncapsulatedKey) (now : ℕ) (pingSent : Bool)
  | pruneOldEpoch
  | recv (now : ℕ) (pending : Option Bool)
  | setRekeyPolicy (policy : RekeyPolicy)

def step : Call → MultiHopClient
  | .sendPacket env => c.sendPacket env
  | .setupRequest => c.sealSetupStreamRequest
  | .setupReply pending => c.setupReply pending
  | .rekey key now pingSent => (c.rekey key now pingSent).getD c
  | .pruneOldEpoch => c.pruneOldEpoch
  | .recv now pending => (c.prunePendingOverlapIfExpired now).decodeAndOpenReply pending
  | .setRekeyPolicy policy => { c with rekeyPolicy := policy }

def Call.key? : Call → Option EncapsulatedKey
  | .sendPacket env => env.key
  | .rekey key _ _ => key
  | .setupRequest | .setupReply _ | .pruneOldEpoch | .recv _ _ | .setRekeyPolicy _ => none

/-- Encapsulated keys of different setups are distinct. -/
def FreshKey (call : Call) : Prop := ∀ key ∈ call.key?, key ∉ c.keys

/-- A data frame goes under the current session, or its number is above every one
used under the retained session. -/
def SealsAbove : Prop :=
  c.dataTag = c.current ∨ Below c.sealed c.dataTag c.seqSend.toNat

/-- The condition on a call: where it seals a payload, `SealsAbove`; and the counter
has room for the three frames a call seals at most. -/
def NumbersAbove (call : Call) : Prop :=
  c.FreshKey call ∧ c.seqSend.toNat + 3 < 2 ^ 64 ∧
    match call with
    | .sendPacket env => ∀ c' ∈ c.readyToSeal env, c'.SealsAbove
    | _ => True

instance (call : Call) : Decidable (c.FreshKey call) :=
  -- not the instance for all `BitVec`s, which would try every key
  decidable_of_iff (call.key?.all fun key => decide (key ∉ c.keys)) (by
    cases hk : call.key? <;> simp [FreshKey, hk])

instance : Decidable c.SealsAbove :=
  inferInstanceAs (Decidable (_ ∨ _))

instance : (call : Call) → Decidable (c.NumbersAbove call)
  | .sendPacket env => inferInstanceAs (Decidable
      (c.FreshKey (.sendPacket env) ∧ _ ∧ ∀ c' ∈ c.readyToSeal env, c'.SealsAbove))
  | .setupRequest => inferInstanceAs (Decidable (c.FreshKey .setupRequest ∧ _ ∧ True))
  | .setupReply p => inferInstanceAs (Decidable (c.FreshKey (.setupReply p) ∧ _ ∧ True))
  | .rekey key now sent => inferInstanceAs (Decidable (c.FreshKey (.rekey key now sent) ∧ _ ∧ True))
  | .pruneOldEpoch => inferInstanceAs (Decidable (c.FreshKey .pruneOldEpoch ∧ _ ∧ True))
  | .recv now p => inferInstanceAs (Decidable (c.FreshKey (.recv now p) ∧ _ ∧ True))
  | .setRekeyPolicy p => inferInstanceAs (Decidable (c.FreshKey (.setRekeyPolicy p) ∧ _ ∧ True))

def Reachable (ok : MultiHopClient → Call → Prop) : MultiHopClient → Prop :=
  Transition.Reachable (fun c => ∃ v policy key now, c = connected v policy key now)
    (Transition.Guarded ok step)

variable {key : EncapsulatedKey} {now : ℕ}

theorem reachable_of_allowed {ok : MultiHopClient → Call → Prop} {v : Version}
    {policy : RekeyPolicy} {calls : List Call}
    (h : Transition.Allowed ok step (connected v policy key now) calls) :
    Reachable ok (calls.foldl step (connected v policy key now)) := by
  have hstart : Reachable ok (connected v policy key now) := .start ⟨v, policy, key, now, rfl⟩
  exact hstart.run h

/-! ### What one frame leaves -/

/-- No frame is repeated, the counter is above every number used under the current session, and has
room for `n` more frames. -/
structure Unrepeated (n : ℕ) (c : MultiHopClient) : Prop where
  nodup : c.sealed.Nodup
  below : Below c.sealed c.current c.seqSend.toNat
  room : c.seqSend.toNat + n < 2 ^ 64
  sealed_seen : ∀ e ∈ c.sealed, e.1.encapsulatedKey ∈ c.keys
  current_seen : c.current.encapsulatedKey ∈ c.keys
  pending_seen : ∀ old ∈ c.pendingOldEpoch, old.encapsulatedKey ∈ c.keys

variable {c c' : MultiHopClient} {n m : ℕ}

theorem Unrepeated.of_le (h : Unrepeated m c) (hnm : n ≤ m) : Unrepeated n c :=
  { h with room := Nat.lt_of_le_of_lt (Nat.add_le_add_left hnm _) h.room }

theorem unrepeated_connected (v : Version) (policy : RekeyPolicy) (key now) :
    Unrepeated 0 (connected v policy key now) where
  nodup := List.nodup_nil
  below := below_of_unused fun _ he => absurd he List.not_mem_nil
  room := by simp [connected]
  sealed_seen := fun _ he => absurd he List.not_mem_nil
  current_seen := List.mem_cons_self
  pending_seen := fun _ h => absurd h (by simp [connected])

theorem seqSend_sealUnder (c : MultiHopClient) (tag : SealTag)
    (h : c.seqSend.toNat + 1 < 2 ^ 64) :
    (c.sealUnder tag).seqSend.toNat = c.seqSend.toNat + 1 :=
  Tickets.toNat_add_one h

theorem Unrepeated.sealUnder (h : Unrepeated (n + 1) c) {tag : SealTag}
    (hseen : tag.encapsulatedKey ∈ c.keys) (hbelow : Below c.sealed tag c.seqSend.toNat) :
    Unrepeated n (c.sealUnder tag) := by
  have hroom := h.room
  have hseq := seqSend_sealUnder c tag (by omega)
  refine ⟨nodup_cons h.nodup hbelow, ?_, by omega, ?_, h.current_seen, h.pending_seen⟩
  · rw [hseq]
    exact (h.below.mono (Nat.le_succ _)).cons fun _ => Nat.lt_succ_self _
  · intro e he
    rcases List.mem_cons.mp he with rfl | he
    · exact hseen
    · exact h.sealed_seen e he

theorem Unrepeated.sealUnder_current (h : Unrepeated (n + 1) c) :
    Unrepeated n (c.sealUnder c.current) :=
  h.sealUnder h.current_seen h.below

theorem dataTag_seen (h : Unrepeated n c) : c.dataTag.encapsulatedKey ∈ c.keys := by
  unfold dataTag
  split
  · exact h.current_seen
  · split
    · exact h.current_seen
    · cases hp : c.pendingOldEpoch with
      | none => exact h.current_seen
      | some old => exact h.pending_seen old hp

theorem Unrepeated.sealNextForwardFrame (h : Unrepeated (n + 1) c) (hs : c.SealsAbove) :
    Unrepeated n c.sealNextForwardFrame := by
  refine h.sealUnder (dataTag_seen h) ?_
  rcases hs with hcur | hbelow
  · rw [hcur]
    exact h.below
  · exact hbelow

/-! ### What one call leaves -/

theorem Unrepeated.pruneOldEpoch (h : Unrepeated n c) : Unrepeated n c.pruneOldEpoch :=
  { h with pending_seen := fun _ h => absurd h (by simp [MultiHopClient.pruneOldEpoch]) }

theorem Unrepeated.prunePendingOverlapIfExpired (h : Unrepeated n c) (now) :
    Unrepeated n (c.prunePendingOverlapIfExpired now) := by
  unfold MultiHopClient.prunePendingOverlapIfExpired
  split
  · exact h.pruneOldEpoch
  · exact h

theorem keys_prunePendingOverlapIfExpired (c : MultiHopClient) (now) :
    (c.prunePendingOverlapIfExpired now).keys = c.keys := by
  unfold MultiHopClient.prunePendingOverlapIfExpired
  split <;> rfl

theorem Unrepeated.decodeAndOpenReply (h : Unrepeated n c) (pending : Option Bool) :
    Unrepeated n (c.decodeAndOpenReply pending) := by
  unfold MultiHopClient.decodeAndOpenReply
  split
  · exact { h with }
  · exact h

theorem Unrepeated.setupReply (h : Unrepeated n c) (pending : Option Bool) :
    Unrepeated n (c.setupReply pending) := by
  have hcount : Unrepeated n { c with framesInEpoch := c.framesInEpoch + 1 } := { h with }
  have hopen := hcount.decodeAndOpenReply pending
  unfold MultiHopClient.setupReply
  dsimp only
  split
  · exact { hopen with }
  · exact hopen

theorem Unrepeated.sendPqSetupPing (h : Unrepeated (n + 1) c) (now) (sent : Bool) :
    Unrepeated n (c.sendPqSetupPing now sent) := by
  have hping := h.sealUnder_current
  unfold MultiHopClient.sendPqSetupPing
  split
  · exact { hping with }
  · exact hping

theorem Unrepeated.maybeResendPqSetupPing (h : Unrepeated (n + 1) c) (now) (sent : Bool) :
    Unrepeated n (c.maybeResendPqSetupPing now sent) := by
  unfold MultiHopClient.maybeResendPqSetupPing
  split
  · exact h.sendPqSetupPing now sent
  · exact h.of_le (Nat.le_succ n)

/-- A new session has sealed nothing, so the counter may start over. -/
theorem Unrepeated.startEpoch (h : Unrepeated m c) (hkey : key ∉ c.keys) (now)
    (hn : n < 2 ^ 64) : Unrepeated n (c.startEpoch key now) where
  nodup := h.nodup
  below := below_of_unused fun e he heq => hkey (by
    have hseen := h.sealed_seen e he
    rwa [heq] at hseen)
  room := by simpa [MultiHopClient.startEpoch] using hn
  sealed_seen := fun e he => List.mem_cons_of_mem _ (h.sealed_seen e he)
  current_seen := List.mem_cons_self
  pending_seen := by
    rintro old ⟨⟩
    exact List.mem_cons_of_mem _ h.current_seen

theorem Unrepeated.rekey (h : Unrepeated m c) {key : Option EncapsulatedKey}
    (hkey : ∀ k ∈ key, k ∉ c.keys) (now) (pingSent : Bool) (hn : n + 1 < 2 ^ 64)
    (hr : c.rekey key now pingSent = some c') : Unrepeated n c' := by
  unfold MultiHopClient.rekey at hr
  split at hr
  · exact absurd hr (by simp)
  · next k =>
    split at hr
    · have hnew : Unrepeated (n + 1) (c.startEpoch k now) := h.startEpoch (hkey k rfl) now hn
      dsimp only at hr
      split at hr
      · cases hr
        exact hnew.of_le (Nat.le_succ n)
      · cases hr
        exact hnew.sendPqSetupPing now pingSent
    · exact absurd hr (by simp)

/-- `send_packet` comes to its payload with room for it: a rekey and a ping have sealed at most two
frames. -/
theorem Unrepeated.readyToSeal (h : Unrepeated 3 c) (env : SendEnv)
    (hkey : ∀ k ∈ env.key, k ∉ c.keys) (hr : c.readyToSeal env = some c') :
    Unrepeated 1 c' := by
  have hprune := h.prunePendingOverlapIfExpired env.now
  have hkeys := keys_prunePendingOverlapIfExpired c env.now
  obtain ⟨c₁, hc₁, rfl⟩ := Option.map_eq_some_iff.mp hr
  -- a rekey makes room again, and its ping and a resend take one frame each
  suffices hready : Unrepeated 2 c₁ from hready.maybeResendPqSetupPing env.now env.resendSent
  split at hc₁
  · refine hprune.rekey ?_ env.now env.pingSent (by omega) hc₁
    rw [hkeys]
    exact hkey
  · cases hc₁
    exact hprune.of_le (by omega)

theorem Unrepeated.sendPacket (h : Unrepeated 3 c) (env : SendEnv)
    (hkey : ∀ k ∈ env.key, k ∉ c.keys) (hs : ∀ c' ∈ c.readyToSeal env, c'.SealsAbove) :
    Unrepeated 0 (c.sendPacket env) := by
  unfold MultiHopClient.sendPacket
  split
  · exact (h.prunePendingOverlapIfExpired env.now).of_le (by omega)
  · next c' hr =>
    have hsealed := (h.readyToSeal env hkey hr).sealNextForwardFrame (hs c' hr)
    split
    · exact { hsealed with }
    · exact hsealed

theorem Unrepeated.sealSetupStreamRequest (h : Unrepeated (n + 1) c) :
    Unrepeated n c.sealSetupStreamRequest := by
  unfold MultiHopClient.sealSetupStreamRequest
  split
  · next hv =>
    refine h.sealNextForwardFrame (.inl ?_)
    simp only [dataTag, hv]
  · exact h.sealUnder_current

theorem Unrepeated.step (h : Unrepeated 0 c) {call : Call} (hok : c.NumbersAbove call) :
    Unrepeated 0 (c.step call) := by
  obtain ⟨hkey, hroom, hs⟩ := hok
  have h3 : Unrepeated 3 c := { h with room := hroom }
  cases call with
  | sendPacket env => exact h3.sendPacket env hkey hs
  | setupRequest => exact (h3.of_le (by omega)).sealSetupStreamRequest
  | setupReply pending => exact h.setupReply pending
  | rekey key now pingSent =>
    show Unrepeated 0 ((c.rekey key now pingSent).getD c)
    cases hr : c.rekey key now pingSent with
    | none => exact h
    | some c' => exact h.rekey hkey now pingSent (by omega) hr
  | pruneOldEpoch => exact h.pruneOldEpoch
  | recv now pending => exact (h.prunePendingOverlapIfExpired now).decodeAndOpenReply pending
  | setRekeyPolicy policy => exact { h with }

/-! ### Whole runs -/

/-- **No two forward frames share a packet key**, in every run whose calls meet
`NumbersAbove`: a payload goes under the current session, or above every number used
under the retained one, and the counter does not run over. -/
theorem sealed_frames_distinct (h : Reachable NumbersAbove c) : c.sealed.Nodup := by
  have hinv : Unrepeated 0 c := by
    refine Transition.Reachable.invariant ?_ ?_ h
    · rintro _ ⟨v, policy, key, now, rfl⟩
      exact unrepeated_connected v policy key now
    · rintro c₁ c₂ hc ⟨call, hok, rfl⟩
      exact hc.step hok
  exact hinv.nodup

def acknowledgedCalls : List Call :=
  [.setupRequest, .setupReply (some false), .rekey (some 2) 1 true,
    .sendPacket ⟨1, none, true, true, true⟩, .recv 2 (some false),
    .sendPacket ⟨2, none, true, true, true⟩]

theorem sealed_frames_distinct_acknowledged :
    Transition.Allowed NumbersAbove step (connected .v2 ⟨100, 100⟩ 1 0) acknowledgedCalls ∧
      (acknowledgedCalls.foldl step (connected .v2 ⟨100, 100⟩ 1 0)).sealed.length = 4 ∧
      (acknowledgedCalls.foldl step (connected .v2 ⟨100, 100⟩ 1 0)).sealed.Nodup := by
  have hok : Transition.Allowed NumbersAbove step (connected .v2 ⟨100, 100⟩ 1 0)
      acknowledgedCalls := by decide
  exact ⟨hok, by decide, sealed_frames_distinct (reachable_of_allowed hok)⟩

def overlapCalls : List Call :=
  [.setupRequest, .setupReply (some false), .sendPacket ⟨0, none, true, true, true⟩,
    .rekey (some 2) 1 true, .sendPacket ⟨1, none, true, true, true⟩]

/-- **Data sent before a `/v2` rekey is acknowledged repeats the old session's numbers.** -/
theorem rekey_repeats_old_epoch :
    Reachable FreshKey (overlapCalls.foldl step (connected .v2 ⟨100, 100⟩ 1 0)) ∧
      (overlapCalls.foldl step (connected .v2 ⟨100, 100⟩ 1 0)).sealed.count (⟨1, 0⟩, 1) = 2 := by
  have hok : Transition.Allowed FreshKey step (connected .v2 ⟨100, 100⟩ 1 0) overlapCalls := by
    decide
  exact ⟨reachable_of_allowed hok, by decide⟩

end MultiHopClient

end WarrenGuard.Multihop
