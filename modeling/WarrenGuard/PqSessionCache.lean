/-
Whose session a post-quantum cache returns (`PqSessionCache` of
`warrenguard-multihop-server/src/multihop.rs`, `PqExitSession` of
`warrenguard-multihop/src/pq_session.rs`).

A `/v2` session is derived from the encapsulated key and the ML-KEM ciphertext of a setup frame,
which any frame may combine as it likes.  The cache finds sessions by the encapsulated key alone.

* `forget_foldl_step` — after any calls, ages and windows are those of the cache of `SessionCache`;
* `Founded` — an entry holds the session of the ciphertext it was made with (`Founded.step`);
* `establish_returns_own_iff` — when a call gets the session of its own ciphertext;
* `earlier_frame_poisons` — a frame with the key of another sender and a ciphertext of its own
  comes first.

Design notes: X-Wing decapsulation with the secret key of the exit and the AEAD are parameters.
Decapsulation of a ciphertext of the right length need not fail when the ciphertext is not the
sender's (ML-KEM rejects implicitly).  No call reads `founders`.
-/
import WarrenGuard.SessionCache
import WarrenGuard.Transition

namespace WarrenGuard.Multihop

/-! ### Sessions -/

inductive PqError where
  | sessionCreateRateLimited
  | pqKeyLength (field : String) (got expected : ℕ)
  | pqAead
  | exitIdMismatch
  | unsupportedVersion (got expected : UInt8)
deriving DecidableEq

/-- A decoded forward frame; `body` is the ciphertext with its tag. -/
structure PqFrame (Body : Type) where
  version : UInt8
  exitId : ExitId
  epoch : UInt32
  seq : UInt64
  encapsulatedKey : EncapsulatedKey
  pqCt : List UInt8
  body : Body

structure PqExitSession (Secret : Type) where
  ss : Secret
  exitId : ExitId
  encapsulatedKey : EncapsulatedKey
deriving DecidableEq

def xwingMlkemCtLen : ℕ := 1088

/-- The shared secret of an ML-KEM ciphertext and an X25519 one. -/
abbrev Decapsulate (Secret : Type) := List UInt8 → EncapsulatedKey → Option Secret

/-- The AEAD under the packet key of a frame. -/
abbrev ForwardAead (Secret Body Plain : Type) := Secret → ExitId → PqFrame Body → Option Plain

variable {Secret Body Plain : Type}

/-- `PqExitSession::new`, with the length check of `from_wire_parts`. -/
def PqExitSession.new (decapsulate : Decapsulate Secret) (encapsulatedKey : EncapsulatedKey)
    (pqCt : List UInt8) (exitId : ExitId) : Except PqError (PqExitSession Secret) :=
  if pqCt.length ≠ xwingMlkemCtLen then
    .error (.pqKeyLength "mlkem768_ct" pqCt.length xwingMlkemCtLen)
  else match decapsulate pqCt encapsulatedKey with
    | none => .error .pqAead
    | some ss => .ok ⟨ss, exitId, encapsulatedKey⟩

/-- `PqExitSession::open`. -/
def PqExitSession.openForward (aead : ForwardAead Secret Body Plain) (sess : PqExitSession Secret)
    (frame : PqFrame Body) : Except PqError Plain :=
  if frame.exitId ≠ sess.exitId then .error .exitIdMismatch
  else if frame.version ≠ versionByte .v2 then
    .error (.unsupportedVersion frame.version (versionByte .v2))
  else match aead sess.ss sess.exitId frame with
    | none => .error .pqAead
    | some plain => .ok plain

/-! ### The cache -/

structure PqSessionCacheEntry (Secret : Type) where
  session : PqExitSession Secret
  /-- Which of the cache's windows. -/
  replayWindows : ℕ
  lastSeenAt : ℕ

structure PqSessionHandle (Secret : Type) where
  session : PqExitSession Secret
  replayWindows : ℕ

instance : LastSeen (PqSessionCacheEntry Secret) := ⟨PqSessionCacheEntry.lastSeenAt⟩

abbrev PqSessionCache (Secret : Type) := WindowedCache (PqSessionCacheEntry Secret)

variable {entry : PqSessionCacheEntry Secret}

namespace PqSessionCache

variable (c : PqSessionCache Secret)

/-- `live_entry`: the handle of a live entry, which is touched. -/
def liveEntry (key : EncapsulatedKey) (now : ℕ) :
    Option (PqSessionHandle Secret) × PqSessionCache Secret :=
  match c.live key now with
  | some entry =>
    (some ⟨entry.session, entry.replayWindows⟩, c.put key { entry with lastSeenAt := now })
  | none => (none, c)

def insertNew (key : EncapsulatedKey) (session : PqExitSession Secret)
    (now : ℕ) : PqSessionHandle Secret × PqSessionCache Secret :=
  (⟨session, c.windows.length⟩,
    { c.put key ⟨session, c.windows.length, now⟩ with
      windows := c.windows ++ [EpochReplayWindows.empty] })

/-- `establish_or_get_at`; `budget` is the answer of the create bucket. -/
def establishOrGetAt (decapsulate : Decapsulate Secret) (c : PqSessionCache Secret)
    (key : EncapsulatedKey) (pqCt : List UInt8) (exitId : ExitId) (budget : Bool) (now : ℕ) :
    Except PqError (PqSessionHandle Secret) × PqSessionCache Secret :=
  match liveEntry (c.sweepIfDue now) key now with
  | (some handle, c) => (.ok handle, c)
  | (none, c) =>
    if budget then
      match PqExitSession.new decapsulate key pqCt exitId with
      | .error e => (.error e, c)
      | .ok session =>
        let (handle, c) := insertNew c key session now
        (.ok handle, c)
    else (.error .sessionCreateRateLimited, c)

def getAt (key : EncapsulatedKey) (now : ℕ) :
    Option (PqSessionHandle Secret) × PqSessionCache Secret :=
  liveEntry (c.sweepIfDue now) key now

def refreshAt (key : EncapsulatedKey) (now : ℕ) :
    Bool × PqSessionCache Secret :=
  let (handle, c) := liveEntry (c.sweepIfDue now) key now
  (handle.isSome, c)

/-! ### Without the sessions -/

def forgetEntry (entry : PqSessionCacheEntry Secret) : SessionCacheEntry :=
  ⟨entry.replayWindows, entry.lastSeenAt⟩

def forget : SessionCache :=
  ⟨⟨Table.mapVal forgetEntry c.map, c.lastSweep, c.ttl⟩, c.windows⟩

variable {c : PqSessionCache Secret} {key : EncapsulatedKey} {now : ℕ}

variable (c : PqSessionCache Secret)

theorem forget_sweepIfDue (now) :
    forget (c.sweepIfDue now) = (forget c).sweepIfDue now := by
  unfold WindowedCache.sweepIfDue IdleCache.sweepIfDue
  by_cases hsoon : (c.lastSweep.any fun t => decide (now - t < c.ttl)) = true
  · rw [if_pos hsoon]
    exact congrArg (fun cache => WindowedCache.mk cache c.windows) (if_pos hsoon).symm
  · rw [if_neg hsoon]
    have hmap : Table.mapVal forgetEntry
        (c.map.retain fun _ entry => decide (now - entry.lastSeenAt < c.ttl)) =
          (Table.mapVal forgetEntry c.map).retain
            fun _ entry => decide (now - entry.lastSeenAt < c.ttl) :=
      Table.mapVal_retain _ _ fun _ _ => rfl
    refine congrArg (WindowedCache.mk · c.windows) (Eq.trans ?_ (if_neg hsoon).symm)
    exact congrArg (fun map => IdleCache.Cache.mk map (some now) c.ttl) hmap

theorem live_forget (key now) :
    (forget c).live key now = (c.live key now).map forgetEntry := by
  unfold WindowedCache.live IdleCache.live
  rw [show (forget c).map.lookup key = _ from Table.lookup_mapVal _ _ key]
  cases c.map.lookup key with
  | none => rfl
  | some entry =>
    rw [Option.map_some, Option.filter_some, Option.filter_some]
    exact (apply_ite (Option.map forgetEntry) _ (some entry) none).symm

theorem forget_put (key entry) :
    forget (c.put key entry) = (forget c).put key (forgetEntry entry) :=
  congrArg (fun map => WindowedCache.mk ⟨map, c.lastSweep, c.ttl⟩ c.windows)
    (Table.mapVal_insert _ _ key entry)

theorem forget_insertNew (key) (session : PqExitSession Secret) (now) :
    forget (insertNew c key session now).2 = (SessionCache.insertNew (forget c) key now).2 :=
  congrArg (fun map => WindowedCache.mk ⟨map, c.lastSweep, c.ttl⟩
    (c.windows ++ [EpochReplayWindows.empty])) (Table.mapVal_insert _ _ key _)

/-- **What a call comes to**: a hit, a failure, or a session of its own. -/
theorem establishOrGetAt_cases (decapsulate : Decapsulate Secret) (c : PqSessionCache Secret) (key)
    (pqCt : List UInt8) (exitId : ExitId) (budget : Bool) (now) :
    (∃ entry, c.live key now = some entry ∧
      establishOrGetAt decapsulate c key pqCt exitId budget now =
        (.ok ⟨entry.session, entry.replayWindows⟩,
          (c.sweepIfDue now).put key { entry with lastSeenAt := now })) ∨
    c.live key now = none ∧
      ((∃ e, establishOrGetAt decapsulate c key pqCt exitId budget now =
          (.error e, c.sweepIfDue now) ∧
        ¬ (budget = true ∧ (PqExitSession.new decapsulate key pqCt exitId).isOk = true)) ∨
      ∃ session, budget = true ∧ PqExitSession.new decapsulate key pqCt exitId = .ok session ∧
        establishOrGetAt decapsulate c key pqCt exitId budget now =
          (.ok (insertNew (c.sweepIfDue now) key session now).1,
            (insertNew (c.sweepIfDue now) key session now).2)) := by
  have hlive := c.live_sweepIfDue key now
  unfold establishOrGetAt liveEntry
  cases h : c.live key now with
  | some entry =>
    rw [hlive, h]
    exact .inl ⟨entry, rfl, rfl⟩
  | none =>
    rw [hlive, h]
    refine .inr ⟨rfl, ?_⟩
    cases budget with
    | false => exact .inl ⟨_, rfl, fun hboth => absurd hboth.1 Bool.false_ne_true⟩
    | true =>
      cases hnew : PqExitSession.new decapsulate key pqCt exitId with
      | error e => exact .inl ⟨e, rfl, fun hboth => absurd hboth.2 Bool.false_ne_true⟩
      | ok session => exact .inr ⟨session, rfl, rfl, rfl⟩

theorem forget_getAt (key now) :
    SessionCache.getAt (forget c) key now =
      ((c.getAt key now).1.map PqSessionHandle.replayWindows, forget (c.getAt key now).2) := by
  unfold SessionCache.getAt SessionCache.liveEntry getAt liveEntry
  rw [← forget_sweepIfDue, live_forget]
  cases (c.sweepIfDue now).live key now with
  | none => rfl
  | some entry =>
    dsimp only
    rw [forget_put]
    rfl

theorem forget_establishOrGetAt (decapsulate : Decapsulate Secret) (c : PqSessionCache Secret) (key)
    (pqCt : List UInt8) (exitId : ExitId) (budget : Bool) (now) :
    SessionCache.establishOrGetAt (forget c) key budget
        (PqExitSession.new decapsulate key pqCt exitId).isOk now =
      ((establishOrGetAt decapsulate c key pqCt exitId budget now).1.toOption.map
          PqSessionHandle.replayWindows,
        forget (establishOrGetAt decapsulate c key pqCt exitId budget now).2) := by
  have hentry := c.forget_getAt key now
  unfold SessionCache.getAt getAt at hentry
  unfold SessionCache.establishOrGetAt SessionCache.getOrInsertAt establishOrGetAt
  rw [hentry]
  rcases liveEntry (c.sweepIfDue now) key now with ⟨_ | handle, c⟩
  · cases budget with
    | false => rfl
    | true =>
      cases PqExitSession.new decapsulate key pqCt exitId with
      | error e => rfl
      | ok session => exact Prod.ext rfl (forget_insertNew ..).symm
  · rfl

end PqSessionCache

/-! ### Runs -/

/-- An exit's cache with the ciphertexts its sessions were derived from, in the order of
their windows. -/
structure PqExit (Secret : Type) where
  cache : PqSessionCache Secret
  founders : List (List UInt8)

inductive PqCall where
  | establish (key : EncapsulatedKey) (pqCt : List UInt8) (budget : Bool) (now : ℕ)
  | get (key : EncapsulatedKey) (now : ℕ)
  | refresh (key : EncapsulatedKey) (now : ℕ)
  | record (windows : ℕ) (seq : UInt64) (epoch : UInt32)

namespace PqExit

def start : PqExit Secret := ⟨.new, []⟩

variable (decapsulate : Decapsulate Secret) (exitId : ExitId)

def establish (s : PqExit Secret) (key : EncapsulatedKey) (pqCt : List UInt8) (budget : Bool)
    (now : ℕ) : PqExit Secret :=
  let cache := (s.cache.establishOrGetAt decapsulate key pqCt exitId budget now).2
  -- a call that made windows has founded a session
  ⟨cache, if cache.windows.length = s.cache.windows.length then s.founders
    else s.founders ++ [pqCt]⟩

def step (s : PqExit Secret) : PqCall → PqExit Secret
  | .establish key pqCt budget now => s.establish decapsulate exitId key pqCt budget now
  | .get key now => { s with cache := (s.cache.getAt key now).2 }
  | .refresh key now => { s with cache := (s.cache.refreshAt key now).2 }
  | .record windows seq epoch => { s with cache := (s.cache.recordIn windows seq epoch).2 }

/-- The same calls on a cache without sessions. -/
def stepForgotten (c : SessionCache) : PqCall → SessionCache
  | .establish key pqCt budget now =>
    (c.establishOrGetAt key budget (PqExitSession.new decapsulate key pqCt exitId).isOk now).2
  | .get key now => (c.getAt key now).2
  | .refresh key now => (c.refreshAt key now).2
  | .record windows seq epoch => (c.recordIn windows seq epoch).2

theorem forget_step (s : PqExit Secret) (call : PqCall) :
    (s.step decapsulate exitId call).cache.forget =
      stepForgotten decapsulate exitId s.cache.forget call := by
  cases call with
  | establish => exact (congrArg Prod.snd (PqSessionCache.forget_establishOrGetAt ..)).symm
  | get | refresh => exact (congrArg Prod.snd (PqSessionCache.forget_getAt ..)).symm
  | record => rfl

/-- **The windows do not depend on the secrets.**  After any calls, at any times, the ages and
windows are those of a cache without sessions, and a frame is handed the windows it is there. -/
theorem forget_foldl_step (calls : List PqCall) (key now) :
    (calls.foldl (step decapsulate exitId) start).cache.forget =
        calls.foldl (stepForgotten decapsulate exitId) .new ∧
      ((calls.foldl (step decapsulate exitId) start).cache.getAt key now).1.map
          PqSessionHandle.replayWindows =
        ((calls.foldl (stepForgotten decapsulate exitId) .new).getAt key now).1 := by
  have hrun : (calls.foldl (step decapsulate exitId) start).cache.forget =
      calls.foldl (stepForgotten decapsulate exitId) .new :=
    (List.foldl_hom (fun s : PqExit Secret => s.cache.forget)
      fun s call => (forget_step decapsulate exitId s call).symm).symm
  rw [← hrun, PqSessionCache.forget_getAt]
  exact ⟨rfl, rfl⟩

def Reachable : PqExit Secret → Prop :=
  Transition.Reachable (· = start)
    (Transition.Guarded (fun _ _ => True) (step decapsulate exitId))

def founder? (s : PqExit Secret) (key : EncapsulatedKey) (now : ℕ) : Option (List UInt8) :=
  (s.cache.live key now).bind fun entry => s.founders[entry.replayWindows]?

/-- **An entry holds the session of the ciphertext it was made with.** -/
structure Founded (s : PqExit Secret) : Prop where
  aligned : s.founders.length = s.cache.windows.length
  derived : ∀ {key entry}, s.cache.map.lookup key = some entry →
    ∃ pqCt, s.founders[entry.replayWindows]? = some pqCt ∧
      PqExitSession.new decapsulate key pqCt exitId = .ok entry.session

variable {decapsulate exitId} {s : PqExit Secret} {key : EncapsulatedKey} {now : ℕ}

theorem Founded.start : Founded decapsulate exitId (start : PqExit Secret) := ⟨rfl, nofun⟩

namespace Founded

variable (h : Founded decapsulate exitId s)
include h

/-- **The rule for calls that derive no session**: an entry is as before, but for its age. -/
theorem keep {cache : PqSessionCache Secret}
    (hwindows : cache.windows.length = s.cache.windows.length)
    (hmap : ∀ {key entry}, cache.map.lookup key = some entry →
      ∃ old, s.cache.map.lookup key = some old ∧ entry.session = old.session ∧
        entry.replayWindows = old.replayWindows) :
    Founded decapsulate exitId ⟨cache, s.founders⟩ := by
  refine ⟨h.aligned.trans hwindows.symm, fun {key entry} hl => ?_⟩
  obtain ⟨old, hold, hsession, hhandle⟩ := hmap hl
  obtain ⟨pqCt, hpqCt, hnew⟩ := h.derived hold
  exact ⟨pqCt, by rwa [hhandle], by rw [hnew, hsession]⟩

theorem touch (hlive : s.cache.live key now = some entry) :
    Founded decapsulate exitId
      ⟨(s.cache.sweepIfDue now).put key { entry with lastSeenAt := now }, s.founders⟩ := by
  refine h.keep (congrArg List.length (s.cache.windows_sweepIfDue now)) fun {key' entry'} hl => ?_
  rw [WindowedCache.lookup_put] at hl
  split at hl
  · rename_i hkey
    cases hl
    exact ⟨entry, hkey ▸ IdleCache.lookup_of_live hlive, rfl, rfl⟩
  · exact ⟨entry', IdleCache.lookup_of_sweepIfDue hl, rfl, rfl⟩

theorem sweepIfDue (now) : Founded decapsulate exitId ⟨s.cache.sweepIfDue now, s.founders⟩ :=
  h.keep (congrArg List.length (s.cache.windows_sweepIfDue now)) fun hl =>
    ⟨_, IdleCache.lookup_of_sweepIfDue hl, rfl, rfl⟩

theorem liveEntry (key now) :
    Founded decapsulate exitId
      ⟨(PqSessionCache.liveEntry (s.cache.sweepIfDue now) key now).2, s.founders⟩ := by
  unfold PqSessionCache.liveEntry
  rw [WindowedCache.live_sweepIfDue]
  cases hlive : s.cache.live key now with
  | none => exact h.sweepIfDue now
  | some entry => exact h.touch hlive

theorem insertNew {pqCt : List UInt8} {session : PqExitSession Secret}
    (hnew : PqExitSession.new decapsulate key pqCt exitId = .ok session) :
    Founded decapsulate exitId
      ⟨(PqSessionCache.insertNew (s.cache.sweepIfDue now) key session now).2,
        s.founders ++ [pqCt]⟩ := by
  have hwindows := s.cache.windows_sweepIfDue now
  constructor
  · show (s.founders ++ [pqCt]).length = ((s.cache.sweepIfDue now).windows ++ [_]).length
    rw [List.length_append, List.length_append, hwindows, h.aligned]
    rfl
  · intro key' entry hl
    change ((s.cache.sweepIfDue now).put key ⟨session, _, now⟩).map.lookup key' = some entry at hl
    rw [WindowedCache.lookup_put] at hl
    split at hl
    · rename_i hkey
      cases hl
      refine ⟨pqCt, ?_, hkey ▸ hnew⟩
      show (s.founders ++ [pqCt])[(s.cache.sweepIfDue now).windows.length]? = some pqCt
      rw [hwindows, ← h.aligned, List.getElem?_concat_length]
    · obtain ⟨pqCt', hpqCt', hnew'⟩ := h.derived (IdleCache.lookup_of_sweepIfDue hl)
      have hlt := (List.getElem?_eq_some_iff.mp hpqCt').1
      exact ⟨pqCt', by rw [List.getElem?_append_left hlt, hpqCt'], hnew'⟩

theorem establish (key) (pqCt : List UInt8) (budget : Bool) (now) :
    Founded decapsulate exitId (s.establish decapsulate exitId key pqCt budget now) := by
  have hwindows := congrArg List.length (s.cache.windows_sweepIfDue now)
  unfold PqExit.establish
  rcases s.cache.establishOrGetAt_cases decapsulate key pqCt exitId budget now with
    ⟨entry, hlive, heq⟩ | ⟨-, ⟨e, heq, -⟩ | ⟨session, -, hnew, heq⟩⟩
  · rw [heq]
    dsimp only
    rw [if_pos (show ((s.cache.sweepIfDue now).put key _).windows.length = _ from hwindows)]
    exact h.touch hlive
  · rw [heq]
    dsimp only
    rw [if_pos hwindows]
    exact h.sweepIfDue now
  · rw [heq]
    dsimp only
    have hmore :
        (PqSessionCache.insertNew (s.cache.sweepIfDue now) key session now).2.windows.length ≠
        s.cache.windows.length := by
      show ((s.cache.sweepIfDue now).windows ++ [_]).length ≠ _
      rw [List.length_append, hwindows, List.length_singleton]
      omega
    rw [if_neg hmore]
    exact h.insertNew hnew

theorem step (call : PqCall) : Founded decapsulate exitId (s.step decapsulate exitId call) := by
  cases call with
  | establish key pqCt budget now => exact h.establish key pqCt budget now
  | get key now => exact h.liveEntry key now
  | refresh key now => exact h.liveEntry key now
  | record windows seq epoch => exact h.keep List.length_set fun hl => ⟨_, hl, rfl, rfl⟩

end Founded

theorem Reachable.founded (h : s.Reachable decapsulate exitId) : Founded decapsulate exitId s := by
  refine Transition.Reachable.invariant (I := Founded decapsulate exitId) ?_ ?_ h
  · rintro s rfl
    exact .start
  · rintro s s' hs ⟨call, -, rfl⟩
    exact hs.step call

end PqExit

/-- **When a call gets its own session.**  After any calls, a call that succeeds returns the
session `PqExitSession::new` derives from its own key and ciphertext exactly if no live entry
has its key, or the ciphertext behind that entry derives the same session; and then every
frame opens under what is returned as it does under its own session. -/
theorem establish_returns_own_iff {decapsulate : Decapsulate Secret} {exitId : ExitId}
    (aead : ForwardAead Secret Body Plain) {s : PqExit Secret}
    (h : s.Reachable decapsulate exitId) (key : EncapsulatedKey)
    (pqCt : List UInt8) (budget : Bool) (now : ℕ) {handle : PqSessionHandle Secret}
    (hok : (s.cache.establishOrGetAt decapsulate key pqCt exitId budget now).1 = .ok handle) :
    (PqExitSession.new decapsulate key pqCt exitId = .ok handle.session ↔
      ∀ founding, s.founder? key now = some founding →
        PqExitSession.new decapsulate key founding exitId =
          PqExitSession.new decapsulate key pqCt exitId) ∧
    ((∀ founding, s.founder? key now = some founding →
        PqExitSession.new decapsulate key founding exitId =
          PqExitSession.new decapsulate key pqCt exitId) →
      ∀ own, PqExitSession.new decapsulate key pqCt exitId = .ok own →
        ∀ frame, handle.session.openForward aead frame = own.openForward aead frame) := by
  have hiff : PqExitSession.new decapsulate key pqCt exitId = .ok handle.session ↔
      ∀ founding, s.founder? key now = some founding →
        PqExitSession.new decapsulate key founding exitId =
          PqExitSession.new decapsulate key pqCt exitId := by
    rcases s.cache.establishOrGetAt_cases decapsulate key pqCt exitId budget now with
      ⟨entry, hlive, heq⟩ | ⟨hnone, ⟨e, heq, -⟩ | ⟨session, -, hnew, heq⟩⟩
    · -- a hit: the session of the ciphertext behind the entry
      rw [heq] at hok
      cases hok
      obtain ⟨founding, hfounding, hderived⟩ :=
        h.founded.derived (IdleCache.lookup_of_live hlive)
      have hfounder : s.founder? key now = some founding := by
        rw [PqExit.founder?, hlive, Option.bind_some, hfounding]
      constructor
      · intro hown other hother
        rw [hfounder] at hother
        cases hother
        rw [hderived, hown]
      · intro hsame
        rw [← hsame founding hfounder, hderived]
    · rw [heq] at hok
      cases hok
    · rw [heq] at hok
      cases hok
      refine ⟨fun _ founding hfounding => ?_, fun _ => hnew⟩
      rw [PqExit.founder?, hnone] at hfounding
      cases hfounding
  refine ⟨hiff, fun hsame own hown frame => ?_⟩
  rw [hiff.mpr hsame] at hown
  cases hown
  rfl

def firstByte : Decapsulate UInt8 := fun pqCt _ => pqCt.head?

def sameSecret : ForwardAead UInt8 UInt8 Unit := fun ss _ frame =>
  if frame.body = ss then some () else none

def ciphertext (b : UInt8) : List UInt8 := List.replicate xwingMlkemCtLen b

theorem new_ciphertext (b : UInt8) (key : EncapsulatedKey) (exitId : ExitId) :
    PqExitSession.new firstByte key (ciphertext b) exitId = .ok ⟨b, exitId, key⟩ := by
  have hlength : (ciphertext b).length = xwingMlkemCtLen := List.length_replicate
  rw [PqExitSession.new, if_neg (not_not.mpr hlength)]
  rfl

def afterFrame (b : UInt8) : PqExit UInt8 :=
  PqExit.start.establish firstByte 9 5 (ciphertext b) true 0

theorem afterFrame_reachable (b : UInt8) : (afterFrame b).Reachable firstByte 9 :=
  have hstart : PqExit.start.Reachable firstByte 9 := .start rfl
  hstart.next ⟨.establish 5 (ciphertext b) true 0, trivial, rfl⟩

theorem afterFrame_eq (b : UInt8) : afterFrame b =
    ⟨(PqSessionCache.insertNew (WindowedCache.new.sweepIfDue 0) 5 ⟨b, 9, 5⟩ 0).2,
      [ciphertext b]⟩ := by
  unfold afterFrame PqExit.establish PqSessionCache.establishOrGetAt
  rw [new_ciphertext]
  rfl

theorem establish_afterFrame (b b' : UInt8) :
    ((afterFrame b).cache.establishOrGetAt firstByte 5 (ciphertext b') 9 true nanosPerSec).1 =
      .ok ⟨⟨b, 9, 5⟩, 0⟩ := by
  rw [afterFrame_eq]
  rfl

theorem establish_returns_own_again :
    (afterFrame 1).founder? 5 nanosPerSec = some (ciphertext 1) ∧
    PqExitSession.new firstByte 5 (ciphertext 1) 9 = .ok ⟨1, 9, 5⟩ := by
  have hfounder : (afterFrame 1).founder? 5 nanosPerSec = some (ciphertext 1) := by
    rw [afterFrame_eq]
    rfl
  refine ⟨hfounder, (establish_returns_own_iff sameSecret (afterFrame_reachable 1) 5 (ciphertext 1)
    true nanosPerSec (establish_afterFrame 1 1)).1.mpr fun founding hfounding => ?_⟩
  rw [hfounder] at hfounding
  cases hfounding
  rfl

def setupFrame : PqFrame UInt8 := ⟨versionByte .v2, 9, 0, 0, 5, ciphertext 1, 1⟩

/-- **An earlier frame keeps a sender's setup frame from opening**: it has the key of the sender
and another ciphertext, and the session it founded is the one the sender's frame gets. -/
theorem earlier_frame_poisons :
    (afterFrame 0).Reachable firstByte 9 ∧
    PqExitSession.new firstByte setupFrame.encapsulatedKey setupFrame.pqCt 9 = .ok ⟨1, 9, 5⟩ ∧
    PqExitSession.openForward sameSecret ⟨1, 9, 5⟩ setupFrame = .ok () ∧
    ((afterFrame 0).cache.establishOrGetAt firstByte setupFrame.encapsulatedKey setupFrame.pqCt 9
      true nanosPerSec).1 = .ok ⟨⟨0, 9, 5⟩, 0⟩ ∧
    PqExitSession.openForward sameSecret ⟨0, 9, 5⟩ setupFrame = .error .pqAead :=
  ⟨afterFrame_reachable 0, new_ciphertext 1 5 9, rfl, establish_afterFrame 0 1, rfl⟩

end WarrenGuard.Multihop
