/-
The session caches of an exit and their anti-replay windows (`EpochReplayWindows`, `SessionCache`,
`PqSessionCache` of `warrenguard-multihop-server/src/multihop.rs`).

An exit keeps the HPKE sessions it has derived, by encapsulated key, until they have been idle for
a TTL, and with each of them the windows of the sequence numbers accepted under it, one per epoch.

* `getOrInsertAt_cases` — a live session comes with the windows it has; a session idle for the TTL
  is derived again, with new ones;
* `lookup_evictOldest` — only an epoch with enough newer ones is dropped.

Design notes: both kinds of session caches are a `WindowedCache`, walked as an `IdleCache`.  An
entry is its windows and its age here; which session a post-quantum one holds is said in
`PqSessionCache`.  Handles share the windows with the entry and outlive it, so a cache keeps
all the windows it has made and an entry refers to one of them.  Whether the budget has a token,
and whether the key material of the frame decapsulates, are inputs.
-/
import WarrenGuard.Basic
import WarrenGuard.IdleCache
import WarrenGuard.ReplayWindow

namespace WarrenGuard.Multihop

/-! ### Windows by epoch -/

def replayEpochsKept : ℕ := 4

structure EpochReplayWindows where
  windows : Table UInt32 ReplayWindow

namespace EpochReplayWindows

def empty : EpochReplayWindows := ⟨∅⟩

/-- The loop that drops the oldest epochs, for at most `fuel` rounds. -/
def evictOldest : ℕ → Table UInt32 ReplayWindow → Table UInt32 ReplayWindow
  | 0, windows => windows
  | fuel + 1, windows =>
    if windows.entries.length > replayEpochsKept then
      match windows.keys.min? with
      | some oldest => evictOldest fuel (windows.erase oldest)
      | none => windows
    else windows

/-- `check_and_record`: a rejected number leaves the window it was checked against. -/
def checkAndRecord (w : EpochReplayWindows) (seq : UInt64) (epoch : UInt32) :
    Except MultihopError Unit × EpochReplayWindows :=
  -- a first number of an epoch makes its window, before the verdict
  let window := (w.windows.lookup epoch).getD ReplayWindow.new
  match window.checkAndRecord seq epoch with
  | (.error e, window) => (.error e, ⟨w.windows.insert epoch window⟩)
  | (.ok (), window) =>
    let windows := w.windows.insert epoch window
    (.ok (), ⟨evictOldest windows.entries.length windows⟩)

variable {epoch : UInt32} {seq : UInt64} {w : EpochReplayWindows}
  {windows : Table UInt32 ReplayWindow}

/-- **Only an epoch with as many newer ones as are kept is dropped.** -/
theorem lookup_evictOldest (fuel : ℕ) (windows epoch) :
    (evictOldest fuel windows).lookup epoch = windows.lookup epoch ∨
      ((evictOldest fuel windows).lookup epoch = none ∧
        replayEpochsKept ≤ (windows.keys.toFinset.filter (epoch < ·)).card) := by
  induction fuel generalizing windows with
  | zero => exact .inl rfl
  | succ fuel ih =>
    rw [evictOldest]
    split
    · next hlong =>
      split
      · next oldest hmin =>
        have hkeys : (windows.erase oldest).keys.toFinset ⊆ windows.keys.toFinset := by
          intro k hk
          rw [List.mem_toFinset, AList.keys_erase] at hk
          exact List.mem_toFinset.mpr (List.mem_of_mem_erase hk)
        rcases ih (windows.erase oldest) with hsame | ⟨hnone, hmany⟩
        · rw [hsame, Table.lookup_erase']
          split
          · next heq =>
            -- all epochs but the oldest are newer than it
            subst heq
            refine .inr ⟨rfl, ?_⟩
            have hnewer : windows.keys.toFinset.erase epoch ⊆
                windows.keys.toFinset.filter (epoch < ·) := by
              intro k hk
              obtain ⟨hne, hk⟩ := Finset.mem_erase.mp hk
              have hle := (List.le_min?_iff hmin).mp (UInt32.le_refl epoch) k
                (List.mem_toFinset.mp hk)
              exact Finset.mem_filter.mpr ⟨hk, UInt32.lt_of_le_of_ne hle hne.symm⟩
            have hcard : windows.keys.toFinset.card = windows.entries.length :=
              (List.toFinset_card_of_nodup windows.keys_nodup).trans (List.length_map Sigma.fst)
            have herase := Finset.card_erase_of_mem (List.mem_toFinset.mpr (List.min?_mem hmin))
            have hle := Finset.card_le_card hnewer
            omega
          · exact .inl rfl
        · have hle := Finset.card_le_card (Finset.filter_subset_filter (epoch < ·) hkeys)
          exact .inr ⟨hnone, hmany.trans hle⟩
      · exact .inl rfl
    · exact .inl rfl

def windowOf (w : EpochReplayWindows) (epoch : UInt32) : ReplayWindow :=
  (w.windows.lookup epoch).getD ReplayWindow.new

theorem checkAndRecord_cases (w : EpochReplayWindows) (seq epoch) :
    (∃ e window, (w.windowOf epoch).checkAndRecord seq epoch = (.error e, window) ∧
      w.checkAndRecord seq epoch = (.error e, ⟨w.windows.insert epoch window⟩)) ∨
    ∃ window fuel, (w.windowOf epoch).checkAndRecord seq epoch = (.ok (), window) ∧
      w.checkAndRecord seq epoch =
        (.ok (), ⟨evictOldest fuel (w.windows.insert epoch window)⟩) := by
  unfold checkAndRecord
  rw [show (w.windows.lookup epoch).getD ReplayWindow.new = w.windowOf epoch from rfl]
  dsimp only
  generalize (w.windowOf epoch).checkAndRecord seq epoch = answer
  obtain ⟨e | ⟨⟩, window⟩ := answer
  · exact .inl ⟨e, window, rfl, rfl⟩
  · exact .inr ⟨window, _, rfl, rfl⟩

theorem lookup_checkAndRecord_of_error (h : (w.checkAndRecord seq epoch).1 ≠ .ok ()) (e : UInt32) :
    (w.checkAndRecord seq epoch).2.windows.lookup e = w.windows.lookup e := by
  rcases checkAndRecord_cases w seq epoch with ⟨err, window, hwin, hw⟩ | ⟨window, fuel, hwin, hw⟩
  · have hrej : ((w.windowOf epoch).checkAndRecord seq epoch).1 ≠ .ok () := by
      rw [hwin]
      exact nofun
    have hsame := ReplayWindow.checkAndRecord_of_error hrej
    rw [hwin] at hsame
    rw [hw, Table.lookup_insert']
    split
    · next heq =>
      -- a new window rejects nothing, so the epoch has the window that rejected
      subst heq
      cases hl : w.windows.lookup e with
      | none =>
        rw [windowOf, hl] at hrej
        exact absurd rfl hrej
      | some window' =>
        rw [windowOf, hl] at hsame
        exact congrArg some hsame
    · rfl
  · rw [hw] at h
    exact absurd rfl h

end EpochReplayWindows

/-! ### Sessions by encapsulated key -/

/-- Entries know when they were last seen. -/
class LastSeen (ν : Type) where
  lastSeenAt : ν → ℕ

/-- Entries by encapsulated key, and all the windows made so far. -/
structure WindowedCache (ν : Type) extends IdleCache.Cache EncapsulatedKey ν where
  windows : List EpochReplayWindows

def sessionCacheTtl : ℕ := 5 * nanosPerSec

namespace WindowedCache

variable {ν : Type}

def withTtl (ttl : ℕ) : WindowedCache ν := ⟨⟨∅, none, ttl⟩, []⟩

def new : WindowedCache ν := withTtl sessionCacheTtl

variable (c : WindowedCache ν)

def put (key : EncapsulatedKey) (entry : ν) : WindowedCache ν :=
  { c with toCache := IdleCache.put c.toCache key entry }

def windowsAt (windows : ℕ) : EpochReplayWindows :=
  c.windows.getD windows EpochReplayWindows.empty

/-- `check_and_record` on the handle's windows. -/
def recordIn (windows : ℕ) (seq : UInt64) (epoch : UInt32) :
    Except MultihopError Unit × WindowedCache ν :=
  let (verdict, w) := (c.windowsAt windows).checkAndRecord seq epoch
  (verdict, { c with windows := c.windows.set windows w })

theorem lookup_put (key k entry) :
    (c.put key entry).map.lookup k = if k = key then some entry else c.map.lookup k :=
  Table.lookup_insert' _ _ _ _

variable [LastSeen ν]

/-- Drops the idle entries, if the last walk is a TTL ago. -/
def sweepIfDue (now : ℕ) : WindowedCache ν :=
  { c with toCache := IdleCache.sweepIfDue LastSeen.lastSeenAt c.toCache now }

def live (key : EncapsulatedKey) (now : ℕ) : Option ν :=
  IdleCache.live LastSeen.lastSeenAt c.toCache key now

/-- **Walking the map never changes what a lookup finds.** -/
theorem live_sweepIfDue (key now) :
    (c.sweepIfDue now).live key now = c.live key now :=
  IdleCache.live_sweepIfDue c.toCache key le_rfl

theorem windows_sweepIfDue (now) : (c.sweepIfDue now).windows = c.windows :=
  rfl

theorem lookup_sweepIfDue (key now) :
    (c.sweepIfDue now).map.lookup key = c.map.lookup key ∨
      ((c.sweepIfDue now).map.lookup key = none ∧
        ∃ entry, c.map.lookup key = some entry ∧ c.ttl ≤ now - LastSeen.lastSeenAt entry) :=
  IdleCache.lookup_sweepIfDue c.toCache key now

end WindowedCache

structure SessionCacheEntry where
  /-- Which of the cache's windows. -/
  replayWindows : ℕ
  lastSeenAt : ℕ

instance : LastSeen SessionCacheEntry := ⟨SessionCacheEntry.lastSeenAt⟩

abbrev SessionCache := WindowedCache SessionCacheEntry

namespace SessionCache

variable (c : SessionCache)

variable (key : EncapsulatedKey)

/-- `live_entry`: the windows of a live entry, which is touched. -/
def liveEntry (now : ℕ) : Option ℕ × SessionCache :=
  match c.live key now with
  | some entry => (some entry.replayWindows, c.put key { entry with lastSeenAt := now })
  | none => (none, c)

def insertNew (now : ℕ) : ℕ × SessionCache :=
  (c.windows.length,
    { c.put key ⟨c.windows.length, now⟩ with windows := c.windows ++ [EpochReplayWindows.empty] })

/-- `get_or_insert_at`; `budget` is the answer of the create bucket, `builds` whether a
session can be derived. -/
def getOrInsertAt (budget builds : Bool) (now : ℕ) :
    Option ℕ × SessionCache :=
  match liveEntry (c.sweepIfDue now) key now with
  | (some windows, c) => (some windows, c)
  | (none, c) =>
    if budget && builds then
      let (windows, c) := insertNew c key now
      (some windows, c)
    else (none, c)

/-- `PqSessionCache::establish_or_get_at`, for a frame with a ciphertext. -/
def establishOrGetAt (budget builds : Bool) (now : ℕ) :
    Option ℕ × SessionCache :=
  c.getOrInsertAt key budget builds now

/-- `PqSessionCache::get_at`, for a frame without one. -/
def getAt (now : ℕ) : Option ℕ × SessionCache :=
  liveEntry (c.sweepIfDue now) key now

/-- `PqSessionCache::refresh_at`. -/
def refreshAt (now : ℕ) : Bool × SessionCache :=
  let (windows, c) := liveEntry (c.sweepIfDue now) key now
  (windows.isSome, c)

theorem getOrInsertAt_cases (key) (budget builds : Bool) (now) :
    (∃ entry, c.live key now = some entry ∧
      c.getOrInsertAt key budget builds now = (some entry.replayWindows,
        (c.sweepIfDue now).put key { entry with lastSeenAt := now })) ∨
    (c.live key now = none ∧
      (c.getOrInsertAt key budget builds now = (none, c.sweepIfDue now) ∨
        c.getOrInsertAt key budget builds now =
          (some (insertNew (c.sweepIfDue now) key now).1,
            (insertNew (c.sweepIfDue now) key now).2))) := by
  have hlive := c.live_sweepIfDue key now
  unfold getOrInsertAt liveEntry
  cases h : c.live key now with
  | some entry =>
    rw [hlive, h]
    exact .inl ⟨entry, rfl, rfl⟩
  | none =>
    rw [hlive, h]
    dsimp only
    split
    · exact .inr ⟨rfl, .inr rfl⟩
    · exact .inr ⟨rfl, .inl rfl⟩

end SessionCache

end WarrenGuard.Multihop
