/-
Replays across the connections of an exit (`serve_terminating_connection` of
`warrenguard-multihop-server/src/multihop.rs` and the setup before it).

A relay can deliver a sealed frame twice, on one connection or on two.  Every connection looks the
session up in the cache all of them share, opens the frame, and records its number in the windows
of the session, and these steps interleave.  All connections get the same windows for a key as
long as it is looked up again within the TTL, and a window forgets nothing until its epoch is
dropped, which takes four newer ones.

* `Remembers` — what the windows of a key know of the frames accepted under it
  (`Remembers.reject`, `Remembers.accept`);
* `Homed` — a key has one set of windows;
* `accepted_again_after_newer_epochs` — so a frame is accepted again only after four newer epochs.

Design notes: a frame that does not decode or names another exit is left out.  What a frame
decapsulates and authenticates to is part of the frame.
-/
import WarrenGuard.SessionCache
import WarrenGuard.Transition

namespace WarrenGuard.Multihop

open Function

/-! ### Frames and the epochs after them -/

structure FrameId where
  encapsulatedKey : EncapsulatedKey
  epoch : UInt32
  seq : UInt64
deriving DecidableEq

def newerEpochs (f : FrameId) (log : List FrameId) : Finset UInt32 :=
  ((log.filter fun g => g.encapsulatedKey = f.encapsulatedKey ∧ f.epoch < g.epoch).map
    (·.epoch)).toFinset

theorem mem_newerEpochs {f : FrameId} {log : List FrameId} {epoch : UInt32} :
    epoch ∈ newerEpochs f log ↔
      ∃ g ∈ log, g.encapsulatedKey = f.encapsulatedKey ∧ f.epoch < g.epoch ∧ g.epoch = epoch := by
  simp [newerEpochs, and_assoc]

theorem newerEpochs_subset_cons (f g : FrameId) (log : List FrameId) :
    newerEpochs f log ⊆ newerEpochs f (g :: log) := by
  intro epoch he
  obtain ⟨g', hmem, hg'⟩ := mem_newerEpochs.mp he
  exact mem_newerEpochs.mpr ⟨g', List.mem_cons_of_mem _ hmem, hg'⟩

theorem newerEpochs_lt_of_cons {f g : FrameId} {log : List FrameId} {n : ℕ}
    (h : (newerEpochs f (g :: log)).card < n) : (newerEpochs f log).card < n :=
  (Finset.card_le_card (newerEpochs_subset_cons f g log)).trans_lt h

/-- Every frame accepted before was forgotten: as many newer epochs of its key as are kept came in
between. The newest frame comes first. -/
def Once : List FrameId → Prop
  | [] => True
  | f :: earlier =>
    (f ∈ earlier → replayEpochsKept ≤ (newerEpochs f earlier).card) ∧ Once earlier

theorem Once.of_append {later log : List FrameId} (h : Once (later ++ log)) : Once log := by
  induction later with
  | nil => exact h
  | cons f later ih => exact ih h.2

/-! ### What the windows of a key remember -/

/-- **The windows of `key` know the frames accepted under it**, but for those whose epoch
has as many newer ones as are kept. -/
structure Remembers (key : EncapsulatedKey) (log : List FrameId) (w : EpochReplayWindows) :
    Prop where
  known : ∀ epoch window, w.windows.lookup epoch = some window →
    ∃ f ∈ log, f.encapsulatedKey = key ∧ f.epoch = epoch
  kept : ∀ f ∈ log, f.encapsulatedKey = key → (newerEpochs f log).card < replayEpochsKept →
    w.windows.lookup f.epoch ≠ none
  numbers : ∀ epoch window, w.windows.lookup epoch = some window →
    ∃ S, window.Represents S ∧ ∀ f ∈ log, f.encapsulatedKey = key → f.epoch = epoch →
      (newerEpochs f log).card < replayEpochsKept → f.seq.toNat ∈ S

variable {key : EncapsulatedKey} {log : List FrameId} {w w' : EpochReplayWindows} {f : FrameId}

theorem remembers_empty (h : ∀ f ∈ log, f.encapsulatedKey ≠ key) :
    Remembers key log .empty where
  known := fun _ _ hl => nomatch hl
  kept := fun f hf hkey => absurd hkey (h f hf)
  numbers := fun _ _ hl => nomatch hl

namespace Remembers

variable (h : Remembers key log w)
include h

theorem congr
    (hw : ∀ epoch, w'.windows.lookup epoch = w.windows.lookup epoch) : Remembers key log w' := by
  refine ⟨?_, ?_, ?_⟩
  · simpa only [hw] using h.known
  · simpa only [hw] using h.kept
  · simpa only [hw] using h.numbers

theorem other (hne : f.encapsulatedKey ≠ key) : Remembers key (f :: log) w := by
  have hmem (g : FrameId) (hg : g ∈ f :: log) (hkey : g.encapsulatedKey = key) : g ∈ log := by
    rcases List.mem_cons.mp hg with rfl | hg
    · exact absurd hkey hne
    · exact hg
  refine ⟨fun epoch window hl => ?_, fun g hg hkey hlt => ?_, fun epoch window hl => ?_⟩
  · obtain ⟨g, hg, hrest⟩ := h.known epoch window hl
    exact ⟨g, List.mem_cons_of_mem _ hg, hrest⟩
  · exact h.kept g (hmem g hg hkey) hkey (newerEpochs_lt_of_cons hlt)
  · obtain ⟨S, hS, hnumbers⟩ := h.numbers epoch window hl
    exact ⟨S, hS, fun g hg hkey hepoch hlt =>
      hnumbers g (hmem g hg hkey) hkey hepoch (newerEpochs_lt_of_cons hlt)⟩

theorem windowOf (epoch : UInt32) :
    ∃ S, (w.windowOf epoch).Represents S ∧ ∀ f ∈ log, f.encapsulatedKey = key →
      f.epoch = epoch → (newerEpochs f log).card < replayEpochsKept → f.seq.toNat ∈ S := by
  unfold EpochReplayWindows.windowOf
  cases hl : w.windows.lookup epoch with
  | none =>
    refine ⟨∅, ReplayWindow.represents_new, ?_⟩
    rintro f hf hkey rfl hlt
    exact absurd hl (h.kept f hf hkey hlt)
  | some window => exact h.numbers epoch window hl

/-- **A frame that is accepted again was forgotten.** -/
theorem accepted_again (hkey : f.encapsulatedKey = key)
    (hok : (w.checkAndRecord f.seq f.epoch).1 = .ok ()) (hf : f ∈ log) :
    replayEpochsKept ≤ (newerEpochs f log).card := by
  by_contra hlt
  obtain ⟨S, hS, hnumbers⟩ := h.windowOf f.epoch
  have hmem := hnumbers f hf hkey rfl (Nat.lt_of_not_le hlt)
  have hwin : ((w.windowOf f.epoch).checkAndRecord f.seq f.epoch).1 = .ok () := by
    rcases w.checkAndRecord_cases f.seq f.epoch with ⟨e, window, -, hw⟩ | ⟨window, fuel, hwin, -⟩
    · rw [hw] at hok
      cases hok
    · rw [hwin]
  exact ((ReplayWindow.checkAndRecord_ok_iff hS).mp hwin).1 hmem

theorem reject {seq : UInt64} {epoch : UInt32} (hrej : (w.checkAndRecord seq epoch).1 ≠ .ok ()) :
    Remembers key log (w.checkAndRecord seq epoch).2 :=
  h.congr (EpochReplayWindows.lookup_checkAndRecord_of_error hrej)

theorem insert (hkey : f.encapsulatedKey = key) {window : ReplayWindow}
    (hwin : (w.windowOf f.epoch).checkAndRecord f.seq f.epoch = (.ok (), window)) :
    Remembers key (f :: log) ⟨w.windows.insert f.epoch window⟩ := by
  have hlookup (epoch : UInt32) := Table.lookup_insert' w.windows f.epoch epoch window
  refine ⟨fun epoch win hl => ?_, fun g hg hgkey hlt => ?_, fun epoch win hl => ?_⟩
  · rw [hlookup] at hl
    split at hl
    · next heq => exact ⟨f, List.mem_cons_self, hkey, heq.symm⟩
    · obtain ⟨g, hg, hrest⟩ := h.known epoch win hl
      exact ⟨g, List.mem_cons_of_mem _ hg, hrest⟩
  · rw [hlookup]
    split
    · exact nofun
    · next hne =>
      rcases List.mem_cons.mp hg with rfl | hg
      · exact absurd rfl hne
      · exact h.kept g hg hgkey (newerEpochs_lt_of_cons hlt)
  · rw [hlookup] at hl
    split at hl
    · next heq =>
      -- the window of the frame's own epoch now stands for its number, too
      obtain ⟨S, hS, hnumbers⟩ := h.windowOf f.epoch
      have hrep := ReplayWindow.represents_checkAndRecord hS (congrArg Prod.fst hwin)
      rw [hwin, Option.some_inj.mp hl] at hrep
      refine ⟨_, hrep, fun g hg hgkey hepoch hlt => ?_⟩
      rcases List.mem_cons.mp hg with rfl | hg
      · exact Set.mem_insert _ _
      · exact Set.mem_insert_of_mem _
          (hnumbers g hg hgkey (hepoch.trans heq) (newerEpochs_lt_of_cons hlt))
    · next hne =>
      obtain ⟨S, hS, hnumbers⟩ := h.numbers epoch win hl
      refine ⟨S, hS, fun g hg hgkey hepoch hlt => ?_⟩
      rcases List.mem_cons.mp hg with rfl | hg
      · exact absurd hepoch.symm hne
      · exact hnumbers g hg hgkey hepoch (newerEpochs_lt_of_cons hlt)

end Remembers

theorem Remembers.evictOldest {windows : Table UInt32 ReplayWindow}
    (h : Remembers key log ⟨windows⟩) (fuel : ℕ) :
    Remembers key log ⟨EpochReplayWindows.evictOldest fuel windows⟩ := by
  have hsome (epoch : UInt32) (window : ReplayWindow)
      (hl : (EpochReplayWindows.evictOldest fuel windows).lookup epoch = some window) :
      windows.lookup epoch = some window := by
    rcases EpochReplayWindows.lookup_evictOldest fuel windows epoch with hsame | ⟨hnone, -⟩
    · rw [← hsame, hl]
    · rw [hnone] at hl
      cases hl
  refine ⟨fun epoch window hl => h.known epoch window (hsome epoch window hl),
    fun f hf hkey hlt => ?_, fun epoch window hl => h.numbers epoch window (hsome epoch window hl)⟩
  rcases EpochReplayWindows.lookup_evictOldest fuel windows f.epoch with hsame | ⟨-, hmany⟩
  · show (EpochReplayWindows.evictOldest fuel windows).lookup f.epoch ≠ none
    rw [hsame]
    exact h.kept f hf hkey hlt
  · -- the windows that are left are of newer epochs of the log
    refine absurd (hmany.trans (Finset.card_le_card fun epoch he => ?_)) (Nat.not_le.mpr hlt)
    obtain ⟨hmem, hnewer⟩ := Finset.mem_filter.mp he
    obtain ⟨window, hl⟩ := Option.isSome_iff_exists.mp
      (AList.lookup_isSome.mpr (AList.mem_keys.mpr (List.mem_toFinset.mp hmem)))
    obtain ⟨g, hg, hgkey, hgepoch⟩ := h.known epoch window hl
    exact mem_newerEpochs.mpr ⟨g, hg, hgkey.trans hkey.symm, hgepoch ▸ hnewer, hgepoch⟩

theorem Remembers.accept (h : Remembers key log w) (hkey : f.encapsulatedKey = key)
    (hok : (w.checkAndRecord f.seq f.epoch).1 = .ok ()) :
    Remembers key (f :: log) (w.checkAndRecord f.seq f.epoch).2 := by
  rcases w.checkAndRecord_cases f.seq f.epoch with ⟨e, window, -, hw⟩ | ⟨window, fuel, hwin, hw⟩
  · rw [hw] at hok
    cases hok
  · rw [hw]
    exact (h.insert hkey hwin).evictOldest fuel

/-! ### The connections of an exit -/

structure SealedFrame extends FrameId where
  /-- A session can be derived from it. -/
  builds : Bool
  /-- It authenticates under the session of its key. -/
  opens : Bool

/-- Where a connection stands with the frame it handles; `windows` are those of the handle. -/
inductive RxPhase where
  | idle
  | found (frame : SealedFrame) (windows : ℕ)
  | opened (frame : SealedFrame) (windows : ℕ)

def RxPhase.inFlight : RxPhase → Option (SealedFrame × ℕ)
  | .idle => none
  | .found frame windows | .opened frame windows => some (frame, windows)

structure ReceivingExit where
  cache : SessionCache
  conns : ConnId → RxPhase
  /-- The time of the latest lookup. -/
  clock : ℕ
  /-- The time of the latest lookup of each key. -/
  lookedUp : EncapsulatedKey → Option ℕ
  /-- The frames that passed the replay check, the newest first. -/
  accepted : List FrameId

namespace ReceivingExit

def start (ttl : ℕ) : ReceivingExit where
  cache := .withTtl ttl
  conns := fun _ => .idle
  clock := 0
  lookedUp := fun _ => none
  accepted := []

variable (x : ReceivingExit)

def setPhase (c : ConnId) (phase : RxPhase) : ReceivingExit :=
  { x with conns := Function.update x.conns c phase }

def setLookedUp (key : EncapsulatedKey) (now : ℕ) (cache : SessionCache) :
    ReceivingExit :=
  { x with cache, clock := now, lookedUp := Function.update x.lookedUp key (some now) }

/-- An idle connection gets a frame and looks its session up. -/
def lookup (c : ConnId) (frame : SealedFrame) (budget : Bool) (now : ℕ) :
    ReceivingExit :=
  match x.conns c with
  | .idle =>
    match x.cache.getOrInsertAt frame.encapsulatedKey budget frame.builds now with
    | (some windows, cache) =>
      (x.setLookedUp frame.encapsulatedKey now cache).setPhase c (.found frame windows)
    | (none, cache) => x.setLookedUp frame.encapsulatedKey now cache
  | _ => x

/-- The frame is opened, or dropped. -/
def openFrame (c : ConnId) : ReceivingExit :=
  match x.conns c with
  | .found frame windows => x.setPhase c (if frame.opens then .opened frame windows else .idle)
  | _ => x

/-- The opened frame is checked against the windows of its handle. -/
def record (c : ConnId) : ReceivingExit :=
  match x.conns c with
  | .opened frame windows =>
    match x.cache.recordIn windows frame.seq frame.epoch with
    | (.ok (), cache) =>
      { x.setPhase c .idle with cache, accepted := frame.toFrameId :: x.accepted }
    | (.error _, cache) => { x.setPhase c .idle with cache }
  | _ => x

inductive Event where
  | lookup (c : ConnId) (frame : SealedFrame) (budget : Bool) (now : ℕ)
  | openFrame (c : ConnId)
  | record (c : ConnId)
  | hangUp (c : ConnId)

def step : Event → ReceivingExit
  | .lookup c frame budget now => x.lookup c frame budget now
  | .openFrame c => x.openFrame c
  | .record c => x.record c
  | .hangUp c => x.setPhase c .idle

/-- **Lookups come at nondecreasing times, and those of one key less than the TTL apart.** -/
def Timely : Event → Prop
  | .lookup _ frame _ now =>
    x.clock ≤ now ∧ ∀ t ∈ x.lookedUp frame.encapsulatedKey, now - t < x.cache.ttl
  | _ => True

instance : (x : ReceivingExit) → (e : Event) → Decidable (x.Timely e)
  | x, .lookup _ frame _ now =>
    inferInstanceAs (Decidable (x.clock ≤ now ∧
      ∀ t ∈ x.lookedUp frame.encapsulatedKey, now - t < x.cache.ttl))
  | _, .openFrame _ | _, .record _ | _, .hangUp _ => inferInstanceAs (Decidable True)

def Reachable (ttl : ℕ) : ReceivingExit → Prop :=
  Transition.Reachable (· = start ttl) (Transition.Guarded Timely step)

/-! ### One set of windows for a key -/

/-- **A key is at home in one set of windows**: no other key is; its entry refers to it, or the key
has been idle for the TTL; the frames in flight have a handle of it. -/
structure Homed (home : EncapsulatedKey → Option ℕ) (x : ReceivingExit) : Prop where
  apart : ∀ k k' windows, home k = some windows → home k' = some windows → k = k'
  made : ∀ k windows, home k = some windows → windows < x.cache.windows.length
  entry : ∀ k entry, x.cache.map.lookup k = some entry →
    home k = some entry.replayWindows ∧ x.lookedUp k = some entry.lastSeenAt
  gone : ∀ k windows, home k = some windows → x.cache.map.lookup k = none →
    ∃ t ∈ x.lookedUp k, x.cache.ttl ≤ x.clock - t
  inFlight : ∀ c f, (x.conns c).inFlight = some f → home f.1.encapsulatedKey = some f.2

/-- The windows of each key know the frames accepted under it. -/
structure Recorded (home : EncapsulatedKey → Option ℕ) (x : ReceivingExit) : Prop where
  remembers : ∀ k windows, home k = some windows →
    Remembers k x.accepted (x.cache.windowsAt windows)
  homed : ∀ f ∈ x.accepted, home f.encapsulatedKey ≠ none
  once : Once x.accepted

variable {home : EncapsulatedKey → Option ℕ} {x y : ReceivingExit} {c : ConnId} {ttl : ℕ}

theorem conns_setPhase (x : ReceivingExit) (c c' : ConnId) (phase : RxPhase) :
    (x.setPhase c phase).conns c' = if c' = c then phase else x.conns c' :=
  update_apply ..

theorem lookedUp_setLookedUp (x : ReceivingExit) (key k : EncapsulatedKey) (now : ℕ)
    (cache : SessionCache) :
    (x.setLookedUp key now cache).lookedUp k = if k = key then some now else x.lookedUp k :=
  update_apply ..

theorem Homed.setPhase (h : Homed home x) {phase : RxPhase}
    (hphase : ∀ f, phase.inFlight = some f → home f.1.encapsulatedKey = some f.2) :
    Homed home (x.setPhase c phase) := by
  refine ⟨h.apart, h.made, h.entry, h.gone, fun c' f hf => ?_⟩
  rw [conns_setPhase] at hf
  split at hf
  · exact hphase f hf
  · exact h.inFlight c' f hf

/-! ### Looking a session up -/

section Lookup

variable {key : EncapsulatedKey} {now : ℕ}

theorem Homed.live (h : Homed home x) (hclock : x.clock ≤ now)
    (hsoon : ∀ t ∈ x.lookedUp key, now - t < x.cache.ttl) {windows : ℕ}
    (hhome : home key = some windows) :
    ∃ entry, x.cache.live key now = some entry ∧ entry.replayWindows = windows := by
  cases hl : x.cache.map.lookup key with
  | none =>
    -- without it, the key has been idle for the TTL
    obtain ⟨t, ht, hidle⟩ := h.gone key windows hhome hl
    have hlt := hsoon t ht
    omega
  | some entry =>
    obtain ⟨hwindows, hseen⟩ := h.entry key entry hl
    refine ⟨entry, ?_, Option.some_inj.mp (hwindows.symm.trans hhome)⟩
    rw [WindowedCache.live, IdleCache.live, hl, Option.filter_some]
    exact if_pos (decide_eq_true (hsoon _ hseen))

theorem Homed.not_live (h : Homed home x) (hhome : home key = none) :
    x.cache.live key now = none := by
  cases hl : x.cache.map.lookup key with
  | none => rw [WindowedCache.live, IdleCache.live, hl, Option.filter_none]
  | some entry =>
    rw [(h.entry key entry hl).1] at hhome
    cases hhome

/-- What a lookup of `key` may do to the cache, seen from the homes. -/
structure Looked (key : EncapsulatedKey) (now : ℕ) (home home' : EncapsulatedKey → Option ℕ)
    (cache cache' : SessionCache) : Prop where
  ttl : cache'.ttl = cache.ttl
  others : ∀ k, k ≠ key → home' k = home k ∧
    cache'.map.lookup k = (cache.sweepIfDue now).map.lookup k
  stays : ∀ k windows, home k = some windows → home' k = some windows
  entry : ∀ entry, cache'.map.lookup key = some entry →
    home' key = some entry.replayWindows ∧ entry.lastSeenAt = now
  found : home' key ≠ none → cache'.map.lookup key ≠ none

theorem Homed.looked {home' : EncapsulatedKey → Option ℕ} {cache' : SessionCache}
    (h : Homed home x) (hclock : x.clock ≤ now) (hlooked : Looked key now home home' x.cache cache')
    (apart : ∀ k k' windows, home' k = some windows → home' k' = some windows → k = k')
    (made : ∀ k windows, home' k = some windows → windows < cache'.windows.length) :
    Homed home' (x.setLookedUp key now cache') := by
  refine ⟨apart, made, fun k entry hl => ?_, fun k windows hk hl => ?_, fun c f hf => ?_⟩
  · by_cases hkey : k = key
    · subst hkey
      obtain ⟨hwindows, hseen⟩ := hlooked.entry entry hl
      exact ⟨hwindows, by rw [lookedUp_setLookedUp, if_pos rfl, hseen]⟩
    · obtain ⟨hsame, hlookup⟩ := hlooked.others k hkey
      rw [hsame, lookedUp_setLookedUp, if_neg hkey]
      rw [setLookedUp, hlookup] at hl
      rcases x.cache.lookup_sweepIfDue k now with hswept | ⟨hnone, -⟩
      · exact h.entry k entry (hswept ▸ hl)
      · rw [hnone] at hl
        cases hl
  · by_cases hkey : k = key
    · subst hkey
      exact absurd hl (hlooked.found (by rw [hk]; exact nofun))
    · obtain ⟨hsame, hlookup⟩ := hlooked.others k hkey
      rw [lookedUp_setLookedUp, if_neg hkey]
      rw [setLookedUp, hlookup] at hl
      rcases x.cache.lookup_sweepIfDue k now with hswept | ⟨-, entry, hentry, hidle⟩
      · obtain ⟨t, ht, hidle⟩ := h.gone k windows (hsame ▸ hk) (hswept ▸ hl)
        refine ⟨t, ht, ?_⟩
        show cache'.ttl ≤ now - t
        rw [hlooked.ttl]
        omega
      · -- the walk has just dropped it
        exact ⟨entry.lastSeenAt, (h.entry k entry hentry).2, hlooked.ttl.trans_le hidle⟩
  · exact hlooked.stays _ _ (h.inFlight c f hf)

theorem looked_hit {entry : SessionCacheEntry} (cache : SessionCache)
    (hhome : home key = some entry.replayWindows) :
    Looked key now home home cache
      ((cache.sweepIfDue now).put key { entry with lastSeenAt := now }) where
  ttl := IdleCache.ttl_sweepIfDue _ _ now
  others := fun k hne => ⟨rfl, by rw [WindowedCache.lookup_put, if_neg hne]⟩
  stays := fun _ _ => id
  entry := fun e hl => by
    rw [WindowedCache.lookup_put, if_pos rfl] at hl
    obtain rfl := Option.some_inj.mp hl
    exact ⟨hhome, rfl⟩
  found := fun _ => by
    rw [WindowedCache.lookup_put, if_pos rfl]
    exact nofun

theorem Homed.looked_miss (h : Homed home x) (hhome : home key = none) :
    Looked key now home home x.cache (x.cache.sweepIfDue now) where
  ttl := IdleCache.ttl_sweepIfDue _ _ now
  others := fun _ _ => ⟨rfl, rfl⟩
  stays := fun _ _ => id
  entry := fun entry hl => by
    rcases x.cache.lookup_sweepIfDue key now with hswept | ⟨hnone, -⟩
    · rw [(h.entry key entry (hswept ▸ hl)).1] at hhome
      cases hhome
    · rw [hnone] at hl
      cases hl
  found := fun hne => absurd hhome hne

theorem looked_new (cache : SessionCache) (hhome : home key = none) :
    Looked key now home (Function.update home key (some cache.windows.length)) cache
      (SessionCache.insertNew (cache.sweepIfDue now) key now).2 where
  ttl := IdleCache.ttl_sweepIfDue _ _ now
  others := fun k hne => by
    refine ⟨update_of_ne hne _ _, ?_⟩
    exact (WindowedCache.lookup_put ..).trans (if_neg hne)
  stays := fun k windows hk => by
    have hne : k ≠ key := ne_of_apply_ne home (by simp [hk, hhome])
    rw [update_of_ne hne, hk]
  entry := fun e hl => by
    obtain rfl := Option.some_inj.mp
      (((WindowedCache.lookup_put ..).trans (if_pos rfl)).symm.trans hl)
    exact ⟨update_self .., rfl⟩
  found := fun _ hnone =>
    nomatch ((WindowedCache.lookup_put ..).trans (if_pos rfl)).symm.trans hnone

theorem Homed.lookup_hit (h : Homed home x) (hclock : x.clock ≤ now) {entry : SessionCacheEntry}
    (hhome : home key = some entry.replayWindows) :
    Homed home (x.setLookedUp key now
      ((x.cache.sweepIfDue now).put key { entry with lastSeenAt := now })) := by
  refine h.looked hclock (looked_hit x.cache hhome) h.apart fun k windows hk => ?_
  rw [WindowedCache.put, x.cache.windows_sweepIfDue]
  exact h.made k windows hk

theorem Homed.lookup_miss (h : Homed home x) (hclock : x.clock ≤ now) (hhome : home key = none) :
    Homed home (x.setLookedUp key now (x.cache.sweepIfDue now)) := by
  refine h.looked hclock (h.looked_miss hhome) h.apart fun k windows hk => ?_
  rw [x.cache.windows_sweepIfDue]
  exact h.made k windows hk

theorem Homed.lookup_new (h : Homed home x) (hclock : x.clock ≤ now) (hhome : home key = none) :
    Homed (Function.update home key (some x.cache.windows.length))
      (x.setLookedUp key now (SessionCache.insertNew (x.cache.sweepIfDue now) key now).2) := by
  refine h.looked hclock (looked_new x.cache hhome) ?_ ?_
  · intro k k' windows hk hk'
    rw [update_apply] at hk hk'
    split at hk <;> split at hk'
    · next hkey hkey' => rw [hkey, hkey']
    · have hlt := h.made k' windows hk'
      rw [← Option.some_inj.mp hk] at hlt
      exact absurd hlt (Nat.lt_irrefl _)
    · have hlt := h.made k windows hk
      rw [← Option.some_inj.mp hk'] at hlt
      exact absurd hlt (Nat.lt_irrefl _)
    · exact h.apart k k' windows hk hk'
  · intro k windows hk
    show windows < ((x.cache.sweepIfDue now).windows ++ [EpochReplayWindows.empty]).length
    rw [x.cache.windows_sweepIfDue, List.length_append, List.length_singleton]
    rw [update_apply] at hk
    split at hk
    · rw [← Option.some_inj.mp hk]
      exact Nat.lt_succ_self _
    · exact Nat.lt_succ_of_lt (h.made k windows hk)

theorem Recorded.congr (h : Recorded home x) (haccepted : y.accepted = x.accepted)
    (hwindows : y.cache.windows = x.cache.windows) : Recorded home y := by
  refine ⟨fun k windows hk => ?_, ?_, ?_⟩
  · rw [haccepted, WindowedCache.windowsAt, hwindows]
    exact h.remembers k windows hk
  · rw [haccepted]
    exact h.homed
  · rw [haccepted]
    exact h.once

theorem Recorded.lookup_new (h : Recorded home x) (hhomed : Homed home x) (hhome : home key = none)
    (haccepted : y.accepted = x.accepted)
    (hwindows : y.cache.windows = x.cache.windows ++ [EpochReplayWindows.empty]) :
    Recorded (Function.update home key (some x.cache.windows.length)) y := by
  refine ⟨fun k windows hk => ?_, fun f hf => ?_, ?_⟩
  · rw [haccepted, WindowedCache.windowsAt, hwindows]
    rw [update_apply] at hk
    split at hk
    · next heq =>
      obtain rfl := Option.some_inj.mp hk
      rw [List.getD_append_right _ _ _ _ (Nat.le_refl _), Nat.sub_self]
      refine remembers_empty fun f hf hkey => h.homed f hf ?_
      rw [hkey, heq, hhome]
    · rw [List.getD_append _ _ _ _ (hhomed.made k windows hk)]
      exact h.remembers k windows hk
  · rw [haccepted] at hf
    rw [update_apply]
    split
    · exact Option.some_ne_none _
    · exact h.homed f hf
  · rw [haccepted]
    exact h.once

/-- **A lookup in time finds the windows of its key, or makes its first.** -/
theorem lookup_homed {frame : SealedFrame} {budget : Bool} (h : Homed home x)
    (hr : Recorded home x) (ht : x.Timely (.lookup c frame budget now)) :
    ∃ home', Homed home' (x.lookup c frame budget now) ∧
      Recorded home' (x.lookup c frame budget now) := by
  obtain ⟨hclock, hsoon⟩ := ht
  have hcases := x.cache.getOrInsertAt_cases frame.encapsulatedKey budget frame.builds now
  have hswept := x.cache.windows_sweepIfDue now
  have hfound {home' : EncapsulatedKey → Option ℕ} {windows : ℕ}
      (hhome : home' frame.encapsulatedKey = some windows) (f : SealedFrame × ℕ)
      (hf : (RxPhase.found frame windows).inFlight = some f) :
      home' f.1.encapsulatedKey = some f.2 := by
    obtain rfl := Option.some_inj.mp hf
    exact hhome
  unfold lookup
  split
  · cases hhome : home frame.encapsulatedKey with
    | some windows =>
      obtain ⟨entry, hlive, rfl⟩ := h.live hclock hsoon hhome
      rcases hcases with ⟨entry', hlive', hget⟩ | ⟨hnone, -⟩
      · obtain rfl := Option.some_inj.mp (hlive.symm.trans hlive')
        rw [hget]
        exact ⟨home, (h.lookup_hit hclock hhome).setPhase (hfound hhome), hr.congr rfl hswept⟩
      · rw [hlive] at hnone
        cases hnone
    | none =>
      rcases hcases with ⟨entry, hlive, -⟩ | ⟨-, hget | hget⟩
      · rw [h.not_live hhome] at hlive
        cases hlive
      · rw [hget]
        exact ⟨home, h.lookup_miss hclock hhome, hr.congr rfl hswept⟩
      · rw [hget]
        have hnew : update home frame.encapsulatedKey (some x.cache.windows.length)
            frame.encapsulatedKey = some
              (SessionCache.insertNew (x.cache.sweepIfDue now) frame.encapsulatedKey now).1 := by
          rw [update_self, SessionCache.insertNew, hswept]
        refine ⟨_, (h.lookup_new hclock hhome).setPhase (hfound hnew), hr.lookup_new h hhome rfl ?_⟩
        rw [← hswept]
        rfl
  · exact ⟨home, h, hr⟩

end Lookup

/-! ### Recording a number -/

theorem windowsAt_recordIn (cache : SessionCache) {windows : ℕ} (h : windows < cache.windows.length)
    (seq : UInt64) (epoch : UInt32) (i : ℕ) :
    (cache.recordIn windows seq epoch).2.windowsAt i =
      if i = windows then ((cache.windowsAt windows).checkAndRecord seq epoch).2
      else cache.windowsAt i := by
  show (cache.windows.set windows ((cache.windowsAt windows).checkAndRecord seq epoch).2).getD i
    EpochReplayWindows.empty = _
  generalize ((cache.windowsAt windows).checkAndRecord seq epoch).2 = w
  by_cases heq : i = windows
  · rw [if_pos heq, heq, List.getD_eq_getElem?_getD, List.getElem?_set_self h, Option.getD_some]
  · rw [if_neg heq, List.getD_eq_getElem?_getD, List.getElem?_set_ne (Ne.symm heq)]
    exact (List.getD_eq_getElem?_getD ..).symm

theorem Homed.recordIn (h : Homed home x) (windows : ℕ) (seq : UInt64) (epoch : UInt32)
    (accepted : List FrameId) :
    Homed home { x with
      cache := (x.cache.recordIn windows seq epoch).2, accepted := accepted } := by
  refine ⟨h.apart, fun k i hk => ?_, h.entry, h.gone, h.inFlight⟩
  show i < (x.cache.windows.set windows _).length
  rw [List.length_set]
  exact h.made k i hk

section Record

variable {f : FrameId} {windows : ℕ}

theorem Recorded.reject (h : Recorded home x) (hhomed : Homed home x)
    (hhome : home f.encapsulatedKey = some windows)
    (hrej : ((x.cache.windowsAt windows).checkAndRecord f.seq f.epoch).1 ≠ .ok ())
    (haccepted : y.accepted = x.accepted)
    (hcache : y.cache = (x.cache.recordIn windows f.seq f.epoch).2) : Recorded home y := by
  have hlt := hhomed.made _ windows hhome
  refine ⟨fun k i hk => ?_, ?_, ?_⟩
  · rw [haccepted, hcache, windowsAt_recordIn x.cache hlt]
    split
    · next heq =>
      subst heq
      exact (h.remembers k i hk).reject hrej
    · exact h.remembers k i hk
  · rw [haccepted]
    exact h.homed
  · rw [haccepted]
    exact h.once

/-- **An accepted number is remembered by the windows of its key**, and if it was accepted
before, enough newer epochs came in between. -/
theorem Recorded.accept (h : Recorded home x) (hhomed : Homed home x)
    (hhome : home f.encapsulatedKey = some windows)
    (hok : ((x.cache.windowsAt windows).checkAndRecord f.seq f.epoch).1 = .ok ())
    (haccepted : y.accepted = f :: x.accepted)
    (hcache : y.cache = (x.cache.recordIn windows f.seq f.epoch).2) : Recorded home y := by
  have hlt := hhomed.made _ windows hhome
  refine ⟨fun k i hk => ?_, fun g hg => ?_, ?_⟩
  · rw [haccepted, hcache, windowsAt_recordIn x.cache hlt]
    split
    · next heq =>
      subst heq
      exact (h.remembers k i hk).accept (hhomed.apart _ _ i hhome hk) hok
    · next hne =>
      -- other windows are those of another key
      refine (h.remembers k i hk).other fun hkey => hne ?_
      rw [hkey, hk] at hhome
      exact Option.some_inj.mp hhome
  · rw [haccepted] at hg
    rcases List.mem_cons.mp hg with rfl | hg
    · rw [hhome]
      exact nofun
    · exact h.homed g hg
  · rw [haccepted]
    exact ⟨(h.remembers _ windows hhome).accepted_again rfl hok, h.once⟩

theorem Homed.hangUp (h : Homed home x) (c) : Homed home (x.setPhase c .idle) := by
  refine h.setPhase fun f hf => ?_
  cases hf

theorem record_homed (h : Homed home x) (hr : Recorded home x) :
    Homed home (x.record c) ∧ Recorded home (x.record c) := by
  unfold record
  split
  · next frame windows hphase =>
    have hhome : home frame.encapsulatedKey = some windows :=
      h.inFlight c (frame, windows) (by rw [hphase]; rfl)
    have hcache := h.recordIn windows frame.seq frame.epoch
    have hverdict : (x.cache.recordIn windows frame.seq frame.epoch).1 =
      ((x.cache.windowsAt windows).checkAndRecord frame.seq frame.epoch).1 := rfl
    generalize hrec : x.cache.recordIn windows frame.seq frame.epoch = answer at hcache hverdict
    obtain ⟨e | ⟨⟩, cache⟩ := answer
    · have hrej :
          ((x.cache.windowsAt windows).checkAndRecord frame.seq frame.epoch).1 ≠ .ok () := by
        rw [← hverdict]
        exact nofun
      refine ⟨(hcache x.accepted).hangUp c, hr.reject h hhome hrej rfl ?_⟩
      rw [hrec]
    · refine ⟨(hcache (frame.toFrameId :: x.accepted)).hangUp c,
        hr.accept h hhome hverdict.symm rfl ?_⟩
      rw [hrec]
  · exact ⟨h, hr⟩

end Record

/-! ### Runs -/

theorem homed_start (ttl) : Homed (fun _ => none) (start ttl) where
  apart := fun _ _ _ hk => nomatch hk
  made := fun _ _ hk => nomatch hk
  entry := fun _ _ hl => nomatch hl
  gone := fun _ _ hk => nomatch hk
  inFlight := fun _ _ hf => nomatch hf

theorem recorded_start (ttl) : Recorded (fun _ => none) (start ttl) where
  remembers := fun _ _ hk => nomatch hk
  homed := fun _ hf => nomatch hf
  once := trivial

theorem openFrame_homed (h : Homed home x) : Homed home (x.openFrame c) := by
  unfold openFrame
  split
  · next frame windows hphase =>
    have hhome := h.inFlight c (frame, windows) (by rw [hphase]; rfl)
    refine h.setPhase fun f hf => ?_
    split at hf
    · obtain rfl := Option.some_inj.mp hf
      exact hhome
    · cases hf
  · exact h

theorem openFrame_recorded (hr : Recorded home x) : Recorded home (x.openFrame c) := by
  unfold openFrame
  split
  · exact hr.congr rfl rfl
  · exact hr

theorem homed_of_reachable (h : Reachable ttl x) : ∃ home, Homed home x ∧ Recorded home x := by
  refine h.invariant (I := fun x => ∃ home, Homed home x ∧ Recorded home x) ?_ ?_
  · rintro _ rfl
    exact ⟨_, homed_start ttl, recorded_start ttl⟩
  · rintro x _ ⟨home, hhomed, hr⟩ ⟨e, hok, rfl⟩
    cases e with
    | lookup c frame budget now => exact lookup_homed hhomed hr hok
    | openFrame c => exact ⟨home, openFrame_homed hhomed, openFrame_recorded hr⟩
    | record c => exact ⟨home, record_homed hhomed hr⟩
    | hangUp c => exact ⟨home, hhomed.hangUp c, hr.congr rfl rfl⟩

/-- **A frame passes the replay check once.**  In every interleaving of the lookups, opens
and records of the connections of an exit, with lookups at nondecreasing times and
those of one key less than the TTL apart, a frame that passes the replay check again
does so after at least four newer epochs of its key were recorded. -/
theorem accepted_again_after_newer_epochs (h : Reachable ttl x) {f : FrameId}
    {later earlier : List FrameId} (hlog : x.accepted = later ++ f :: earlier)
    (hagain : f ∈ earlier) : 4 ≤ (newerEpochs f earlier).card := by
  obtain ⟨home, -, hr⟩ := homed_of_reachable h
  have honce := hr.once
  rw [hlog] at honce
  exact honce.of_append.1 hagain

/-! ### A replayed frame -/

def genuine (epoch : UInt32) (seq : UInt64) : SealedFrame := ⟨⟨1, epoch, seq⟩, true, true⟩

def handled (c : ConnId) (frame : SealedFrame) (now : ℕ) : List Event :=
  [.lookup c frame true now, .openFrame c, .record c]

def replays : List Event :=
  [.lookup 1 (genuine 1 9) true 0, .lookup 2 (genuine 1 9) true 1, .openFrame 1, .openFrame 2,
      .record 1, .record 2] ++
    handled 1 (genuine 2 0) 2 ++ handled 1 (genuine 3 0) 2 ++ handled 1 (genuine 4 0) 2 ++
    handled 1 (genuine 5 0) 2 ++ handled 2 (genuine 1 9) 3

theorem accepted_again_after_newer_epochs_rekeyed :
    ∃ x : ReceivingExit, ∃ earlier : List FrameId, Reachable 5 x ∧
      x.accepted = [] ++ ⟨1, 1, 9⟩ :: earlier ∧ earlier.count ⟨1, 1, 9⟩ = 1 ∧
      4 ≤ (newerEpochs ⟨1, 1, 9⟩ earlier).card := by
  have hstart : Reachable 5 (start 5) := .start rfl
  have hreach : Reachable 5 (replays.foldl step (start 5)) :=
    hstart.run (by decide : Transition.Allowed Timely step (start 5) replays)
  have hlog : (replays.foldl step (start 5)).accepted =
      [] ++ ⟨1, 1, 9⟩ :: [⟨1, 5, 0⟩, ⟨1, 4, 0⟩, ⟨1, 3, 0⟩, ⟨1, 2, 0⟩, ⟨1, 1, 9⟩] := by decide
  exact ⟨_, _, hreach, hlog, by decide,
    accepted_again_after_newer_epochs hreach hlog (by decide)⟩

end ReceivingExit

end WarrenGuard.Multihop
