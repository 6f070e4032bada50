/-
The session caches serve what caches without expired entries would serve (`sweep_if_due`,
`live_entry`, `SessionCache::get_or_insert_at`, `PqSessionCache` of
`warrenguard-multihop-server/src/multihop.rs`).

A session cache walks its map at most once per TTL, so the map holds entries that have expired.
Beside each cache stands one that drops every expired entry before every call and takes what is
left without looking at its age.

* `Matched` — a cache and its strict twin show the same entries, windows and budget;
  `SessionCache.serve_matched`, `PqSessionCache.serve_matched` — a call leaves them so, with the
  same answer;
* `session_caches_ttl_exact` — so it is for every call of every run.

Design notes: the budget for new sessions is any state machine that answers a time (`TryTake`); as
in the source it is asked only where there is no live entry.  A call of the post-quantum cache
brings the decapsulation with it, so that each call may derive any session or none.  Marking a
number in the windows of a handle has no time.
-/
import WarrenGuard.IdleCache
import WarrenGuard.PqSessionCache

namespace WarrenGuard.Multihop

open Transition IdleCache

/-- `TokenBucket::try_take`, of any bucket. -/
abbrev TryTake (β : Type) := β → ℕ → Bool × β

structure Budgeted (C β : Type) where
  cache : C
  bucket : β

structure Mark where
  windows : ℕ
  seq : UInt64
  epoch : UInt32

/-! ### A cache and its strict twin -/

section Matched

variable {ν β : Type}

def mark (m : Mark) (x : Budgeted (WindowedCache ν) β) : Budgeted (WindowedCache ν) β :=
  { x with cache := (x.cache.recordIn m.windows m.seq m.epoch).2 }

variable [LastSeen ν]

def WindowedCache.dropIdle (c : WindowedCache ν) (now : ℕ) : WindowedCache ν :=
  { c with toCache := IdleCache.dropIdle LastSeen.lastSeenAt c.toCache now }

/-- The two caches of a pair after a call at `now`. -/
structure Matched (ttl now : ℕ) (x y : Budgeted (WindowedCache ν) β) : Prop where
  tracks : Tracks LastSeen.lastSeenAt now x.cache.toCache y.cache.toCache
  recent : 0 < ttl → Recent LastSeen.lastSeenAt now x.cache.toCache
  ttl : x.cache.ttl = ttl
  windows : x.cache.windows = y.cache.windows
  bucket : x.bucket = y.bucket

variable {ttl t now : ℕ} {x y : Budgeted (WindowedCache ν) β}

theorem Matched.swept (h : Matched ttl t x y) (hle : t ≤ now) (bucket : β) :
    Matched ttl now ⟨x.cache.sweepIfDue now, bucket⟩ ⟨y.cache.dropIdle now, bucket⟩ where
  tracks := h.tracks.sweep hle
  recent hpos := (h.recent hpos).sweep hle (h.ttl ▸ hpos)
  ttl := (ttl_sweepIfDue _ _ now).trans h.ttl
  windows := h.windows
  bucket := rfl

theorem Matched.written (h : Matched ttl t x y) (hle : t ≤ now) (key : EncapsulatedKey) {e : ν}
    (he : LastSeen.lastSeenAt e = now) (bucket : β) :
    Matched ttl now ⟨(x.cache.sweepIfDue now).put key e, bucket⟩
      ⟨(y.cache.dropIdle now).put key e, bucket⟩ where
  tracks := (h.tracks.sweep hle).put key e
  recent hpos := (h.recent hpos).put hle (h.ttl ▸ hpos) key he
  ttl := (ttl_sweepIfDue _ _ now).trans h.ttl
  windows := h.windows
  bucket := rfl

/-- A new session comes with new windows. -/
theorem Matched.founded (h : Matched ttl t x y) (hle : t ≤ now) (key : EncapsulatedKey) {e : ν}
    (he : LastSeen.lastSeenAt e = now) (bucket : β) :
    Matched ttl now
      ⟨{ (x.cache.sweepIfDue now).put key e with
          windows := (x.cache.sweepIfDue now).windows ++ [EpochReplayWindows.empty] }, bucket⟩
      ⟨{ (y.cache.dropIdle now).put key e with
          windows := (y.cache.dropIdle now).windows ++ [EpochReplayWindows.empty] }, bucket⟩ :=
  { h.written hle key he bucket with windows := congrArg (· ++ _) h.windows }

theorem Matched.lookup (h : Matched ttl t x y) (hle : t ≤ now) (key : EncapsulatedKey) :
    (y.cache.dropIdle now).map.lookup key = x.cache.live key now :=
  h.tracks.lookup hle key

theorem Matched.mark (h : Matched ttl t x y) (m : Mark) : Matched ttl t (mark m x) (mark m y) :=
  { h with
    windows := by
      simp only [Multihop.mark, WindowedCache.recordIn, WindowedCache.windowsAt, h.windows] }

end Matched

/-! ### The classical cache -/

structure SessionLookup where
  key : EncapsulatedKey
  /-- Whether `build` derives a session. -/
  builds : Bool

namespace SessionCache

variable {β : Type} (tryTake : TryTake β)

/-- `get_or_insert_at` with its bucket. -/
def serve (call : SessionLookup) (now : ℕ) (x : Budgeted SessionCache β) :
    Option ℕ × Budgeted SessionCache β :=
  let (token, bucket) := tryTake x.bucket now
  let (windows, cache) := SessionCache.getOrInsertAt x.cache call.key token call.builds now
  -- the bucket is asked only where there is no live entry
  (windows, ⟨cache, if (x.cache.live call.key now).isSome then x.bucket else bucket⟩)

/-- The same call on a cache that drops its idle entries first. -/
def serveStrict (call : SessionLookup) (now : ℕ) (x : Budgeted SessionCache β) :
    Option ℕ × Budgeted SessionCache β :=
  let c := x.cache.dropIdle now
  match c.map.lookup call.key with
  | some entry =>
    (some entry.replayWindows, ⟨c.put call.key { entry with lastSeenAt := now }, x.bucket⟩)
  | none =>
    let (token, bucket) := tryTake x.bucket now
    if token && call.builds then
      let (windows, c) := insertNew c call.key now
      (some windows, ⟨c, bucket⟩)
    else (none, ⟨c, bucket⟩)

variable {tryTake} {ttl t now : ℕ} {x y : Budgeted SessionCache β}

/-- **A call leaves the caches matched, with the same answer.** -/
theorem serve_matched (h : Matched ttl t x y) (hle : t ≤ now) (call : SessionLookup) :
    (serve tryTake call now x).1 = (serveStrict tryTake call now y).1 ∧
      Matched ttl now (serve tryTake call now x).2 (serveStrict tryTake call now y).2 := by
  unfold serve serveStrict getOrInsertAt liveEntry
  dsimp only
  rw [WindowedCache.live_sweepIfDue, h.lookup hle, h.bucket]
  cases x.cache.live call.key now with
  | some entry => exact ⟨rfl, h.written hle call.key rfl _⟩
  | none =>
    dsimp only
    cases (tryTake y.bucket now).1 && call.builds with
    | false => exact ⟨rfl, h.swept hle _⟩
    | true =>
      have hlength : (y.cache.dropIdle now).windows.length
          = (x.cache.sweepIfDue now).windows.length := congrArg List.length h.windows.symm
      dsimp only [insertNew]
      rw [hlength]
      exact ⟨rfl, h.founded hle call.key rfl _⟩

end SessionCache

/-! ### The post-quantum cache -/

inductive PqLookup (Secret : Type) where
  | establish (decapsulate : Decapsulate Secret) (key : EncapsulatedKey) (pqCt : List UInt8)
      (exitId : ExitId)
  | get (key : EncapsulatedKey)
  | refresh (key : EncapsulatedKey)

inductive PqAnswer (Secret : Type) where
  | established (result : Except PqError (PqSessionHandle Secret))
  | found (handle : Option (PqSessionHandle Secret))
  | refreshed (live : Bool)

namespace PqSessionCache

variable {Secret β : Type} (tryTake : TryTake β)

/-- `establish_or_get_at` with its bucket, `get_at` and `refresh_at`. -/
def serve (call : PqLookup Secret) (now : ℕ) (x : Budgeted (PqSessionCache Secret) β) :
    PqAnswer Secret × Budgeted (PqSessionCache Secret) β :=
  match call with
  | .establish decapsulate key pqCt exitId =>
    let (token, bucket) := tryTake x.bucket now
    let (result, cache) :=
      PqSessionCache.establishOrGetAt decapsulate x.cache key pqCt exitId token now
    -- the bucket is asked only where there is no live entry
    (.established result, ⟨cache, if (x.cache.live key now).isSome then x.bucket else bucket⟩)
  | .get key =>
    let (handle, cache) := PqSessionCache.getAt x.cache key now
    (.found handle, { x with cache })
  | .refresh key =>
    let (live, cache) := PqSessionCache.refreshAt x.cache key now
    (.refreshed live, { x with cache })

/-- The handle of an entry of any age, which is touched. -/
def heldEntry (c : PqSessionCache Secret) (key : EncapsulatedKey) (now : ℕ) :
    Option (PqSessionHandle Secret) × PqSessionCache Secret :=
  match c.map.lookup key with
  | some entry =>
    (some ⟨entry.session, entry.replayWindows⟩, c.put key { entry with lastSeenAt := now })
  | none => (none, c)

/-- The same call on a cache that drops its idle entries first. -/
def serveStrict (call : PqLookup Secret) (now : ℕ) (x : Budgeted (PqSessionCache Secret) β) :
    PqAnswer Secret × Budgeted (PqSessionCache Secret) β :=
  match call with
  | .establish decapsulate key pqCt exitId =>
    match heldEntry (x.cache.dropIdle now) key now with
    | (some handle, c) => (.established (.ok handle), ⟨c, x.bucket⟩)
    | (none, c) =>
      let (token, bucket) := tryTake x.bucket now
      if token then
        match PqExitSession.new decapsulate key pqCt exitId with
        | .error e => (.established (.error e), ⟨c, bucket⟩)
        | .ok session =>
          let (handle, c) := insertNew c key session now
          (.established (.ok handle), ⟨c, bucket⟩)
      else (.established (.error .sessionCreateRateLimited), ⟨c, bucket⟩)
  | .get key =>
    let (handle, cache) := heldEntry (x.cache.dropIdle now) key now
    (.found handle, { x with cache })
  | .refresh key =>
    let (handle, cache) := heldEntry (x.cache.dropIdle now) key now
    (.refreshed handle.isSome, { x with cache })

variable {tryTake} {ttl t now : ℕ} {x y : Budgeted (PqSessionCache Secret) β}

theorem entry_matched (h : Matched ttl t x y) (hle : t ≤ now) (key : EncapsulatedKey) :
    (liveEntry (x.cache.sweepIfDue now) key now).1 =
        (heldEntry (y.cache.dropIdle now) key now).1 ∧
      Matched ttl now ⟨(liveEntry (x.cache.sweepIfDue now) key now).2, x.bucket⟩
        ⟨(heldEntry (y.cache.dropIdle now) key now).2, y.bucket⟩ := by
  unfold liveEntry heldEntry
  rw [WindowedCache.live_sweepIfDue, h.lookup hle, h.bucket]
  cases x.cache.live key now with
  | some entry => exact ⟨rfl, h.written hle key rfl _⟩
  | none => exact ⟨rfl, h.swept hle _⟩

theorem establish_matched (h : Matched ttl t x y) (hle : t ≤ now)
    (decapsulate : Decapsulate Secret) (key : EncapsulatedKey) (pqCt : List UInt8)
    (exitId : ExitId) :
    let call := PqLookup.establish decapsulate key pqCt exitId
    (serve tryTake call now x).1 = (serveStrict tryTake call now y).1 ∧
      Matched ttl now (serve tryTake call now x).2 (serveStrict tryTake call now y).2 := by
  intro call
  unfold serve serveStrict establishOrGetAt liveEntry heldEntry
  dsimp only [call]
  rw [WindowedCache.live_sweepIfDue, h.lookup hle, h.bucket]
  cases x.cache.live key now with
  | some entry => exact ⟨rfl, h.written hle key rfl _⟩
  | none =>
    dsimp only
    cases (tryTake y.bucket now).1 with
    | false => exact ⟨rfl, h.swept hle _⟩
    | true =>
      cases PqExitSession.new decapsulate key pqCt exitId with
      | error e => exact ⟨rfl, h.swept hle _⟩
      | ok session =>
        have hlength : (y.cache.dropIdle now).windows.length
            = (x.cache.sweepIfDue now).windows.length := congrArg List.length h.windows.symm
        dsimp only [insertNew]
        rw [hlength]
        exact ⟨rfl, h.founded hle key rfl _⟩

/-- **A call leaves the caches matched, with the same answer.** -/
theorem serve_matched (h : Matched ttl t x y) (hle : t ≤ now) (call : PqLookup Secret) :
    (serve tryTake call now x).1 = (serveStrict tryTake call now y).1 ∧
      Matched ttl now (serve tryTake call now x).2 (serveStrict tryTake call now y).2 := by
  cases call with
  | establish decapsulate key pqCt exitId =>
    exact establish_matched h hle decapsulate key pqCt exitId
  | get key =>
    obtain ⟨hanswer, hmatched⟩ := entry_matched h hle key
    exact ⟨congrArg PqAnswer.found hanswer, hmatched⟩
  | refresh key =>
    obtain ⟨hanswer, hmatched⟩ := entry_matched h hle key
    exact ⟨congrArg (fun handle => PqAnswer.refreshed (Option.isSome handle)) hanswer, hmatched⟩

end PqSessionCache

/-! ### Runs -/

section Runs

variable {Secret β : Type} (tryTake : TryTake β) (ttl : ℕ) (bucket : β)

/-- A new cache and its strict twin after the same calls, at times that never go back, and
the same marks. -/
def SessionCache.Twins (x : Clocked (Budgeted SessionCache β × Budgeted SessionCache β)) : Prop :=
  Reachable (fun x => x.state = (⟨.withTtl ttl, bucket⟩, ⟨.withTtl ttl, bucket⟩))
    (Lockstep (serve tryTake) (serveStrict tryTake) mark) x

def PqSessionCache.Twins
    (x : Clocked (Budgeted (PqSessionCache Secret) β × Budgeted (PqSessionCache Secret) β)) :
    Prop :=
  Reachable (fun x => x.state = (⟨.withTtl ttl, bucket⟩, ⟨.withTtl ttl, bucket⟩))
    (Lockstep (serve tryTake) (serveStrict tryTake) mark) x

variable {tryTake ttl bucket}

theorem SessionCache.Twins.matched
    {x : Clocked (Budgeted SessionCache β × Budgeted SessionCache β)}
    (h : SessionCache.Twins tryTake ttl bucket x) :
    Matched ttl x.clock x.state.1 x.state.2 := by
  refine lockstep_related ?_ ?_ ?_ h
  · exact fun t => ⟨.refl _, fun _ => ⟨nofun, nofun⟩, rfl, rfl, rfl⟩
  · exact fun call t now a b hab hle => (SessionCache.serve_matched hab hle call).2
  · exact fun m t a b hab => hab.mark m

theorem PqSessionCache.Twins.matched
    {x : Clocked (Budgeted (PqSessionCache Secret) β × Budgeted (PqSessionCache Secret) β)}
    (h : PqSessionCache.Twins tryTake ttl bucket x) :
    Matched ttl x.clock x.state.1 x.state.2 := by
  refine lockstep_related ?_ ?_ ?_ h
  · exact fun t => ⟨.refl _, fun _ => ⟨nofun, nofun⟩, rfl, rfl, rfl⟩
  · exact fun call t now a b hab hle => (PqSessionCache.serve_matched hab hle call).2
  · exact fun m t a b hab => hab.mark m

/-- **The session caches are exact about their TTL.**  Whatever calls came before, at times
that never go back, with whatever sessions derived and whatever budget: the next call finds,
misses, derives or refuses what it would in a cache that drops every entry idle for the TTL
before each call, and the windows of all handles are the same.  After a call no entry left in
the map was last seen two TTLs ago. -/
theorem session_caches_ttl_exact {pqBucket : β}
    {x : Clocked (Budgeted SessionCache β × Budgeted SessionCache β)}
    {y : Clocked (Budgeted (PqSessionCache Secret) β × Budgeted (PqSessionCache Secret) β)}
    (hx : SessionCache.Twins tryTake ttl bucket x)
    (hy : PqSessionCache.Twins tryTake ttl pqBucket y) :
    (SameAnswers (SessionCache.serve tryTake) (SessionCache.serveStrict tryTake) x ∧
      x.state.1.cache.windows = x.state.2.cache.windows ∧
      (0 < ttl → ∀ key entry, x.state.1.cache.map.lookup key = some entry →
        x.clock - entry.lastSeenAt < 2 * ttl)) ∧
    (SameAnswers (PqSessionCache.serve tryTake) (PqSessionCache.serveStrict tryTake) y ∧
      y.state.1.cache.windows = y.state.2.cache.windows ∧
      (0 < ttl → ∀ key entry, y.state.1.cache.map.lookup key = some entry →
        y.clock - entry.lastSeenAt < 2 * ttl)) := by
  have hxa := hx.matched
  have hya := hy.matched
  refine ⟨⟨?_, hxa.windows, ?_⟩, ⟨?_, hya.windows, ?_⟩⟩
  · exact fun call now hle => (SessionCache.serve_matched hxa hle call).1
  · intro hpos key entry hentry
    exact hxa.ttl ▸ (hxa.recent hpos).idle_lt hentry
  · exact fun call now hle => (PqSessionCache.serve_matched hya hle call).1
  · intro hpos key entry hentry
    exact hya.ttl ▸ (hya.recent hpos).idle_lt hentry

end Runs

def countdown : TryTake ℕ := fun n _ => (decide (0 < n), n - 1)

def derives (k : EncapsulatedKey) (now : ℕ)
    (x : Clocked (Budgeted SessionCache ℕ × Budgeted SessionCache ℕ)) :
    Clocked (Budgeted SessionCache ℕ × Budgeted SessionCache ℕ) :=
  ⟨((SessionCache.serve countdown ⟨k, true⟩ now x.state.1).2,
    (SessionCache.serveStrict countdown ⟨k, true⟩ now x.state.2).2), now⟩

theorem SessionCache.Twins.derives {x : Clocked (Budgeted SessionCache ℕ × Budgeted SessionCache ℕ)}
    (h : SessionCache.Twins countdown 5 4 x) (k : EncapsulatedKey) {now : ℕ}
    (hle : x.clock ≤ now) : SessionCache.Twins countdown 5 4 (Multihop.derives k now x) :=
  Reachable.next h (.call (SessionLookup.mk k true) now hle)

/-- The entry of key 2 has expired at 9 and is still in the map, which was walked at 8: the
call at 9 spends the last token on a new session, as it would without the entry. -/
theorem session_caches_ttl_exact_expired :
    let start : Clocked (Budgeted SessionCache ℕ × Budgeted SessionCache ℕ) :=
      ⟨(⟨.withTtl 5, 4⟩, ⟨.withTtl 5, 4⟩), 0⟩
    let x := derives 3 8 (derives 2 4 (derives 1 3 start))
    (x.state.1.cache.map.lookup 2).isSome ∧
      (SessionCache.serve countdown ⟨2, true⟩ 9 x.state.1).1 =
        (SessionCache.serveStrict countdown ⟨2, true⟩ 9 x.state.2).1 := by
  intro start x
  have hstart : SessionCache.Twins countdown 5 4 start := .start rfl
  have hx : SessionCache.Twins countdown 5 4 x :=
    ((hstart.derives 1 (Nat.zero_le 3)).derives 2 (by decide)).derives 3 (by decide)
  let pqStart : Clocked (Budgeted (PqSessionCache Unit) ℕ × Budgeted (PqSessionCache Unit) ℕ) :=
    ⟨(⟨.withTtl 5, 4⟩, ⟨.withTtl 5, 4⟩), 0⟩
  have hy : PqSessionCache.Twins countdown 5 4 pqStart := .start rfl
  exact ⟨by decide, (session_caches_ttl_exact hx hy).1.1 ⟨2, true⟩ 9 (by decide)⟩

end WarrenGuard.Multihop
