/-
Connection attempts, limited per key (`warrenguard-ratelimit/src/connection_limiter.rs`).

Every key has a bucket of `burst` attempts that gets one back per `refill_interval`.  Buckets that
must have refilled are forgotten, by a cleanup or by a walk over a full map, and a key that comes
back starts with a full one.

* `standing` — what a bucket is worth, in nanoseconds of refill; a forgotten key is worth a full
  bucket (`standing_none_le`);
* `refill_worth` — a refill keeps the part of an interval that it does not pay out;
* `attempts_bounded` — the bound on grants and on tracked keys, if no key comes back after more
  than `2 ^ 32 - 1` intervals; `attempts_unbounded` — within `2 ^ 32` it may: the number of
  refills is kept in 32 bits, and the rest of the time is paid out once more.

Design notes: an `Instant` is bounded as the seconds of the clock are.  The limiter reads neither
`touched` nor `grants`.
-/
import WarrenGuard.Allowance
import WarrenGuard.Basic
import WarrenGuard.Table
import WarrenGuard.Transition

namespace WarrenGuard.ConnectionLimit

open Allowance

/-! ### Instants and durations -/

/-- Instants have fewer than `2 ^ 63` seconds. -/
def instantBound : ℕ := 9223372036854775808 * nanosPerSec

structure Instant where
  nanos : ℕ
  bounded : nanos < instantBound
deriving DecidableEq

def Instant.saturatingDurationSince (t earlier : Instant) : ℕ := t.nanos - earlier.nanos

def Instant.checkedAdd (t : Instant) (d : ℕ) : Option Instant :=
  if h : t.nanos + d < instantBound then some ⟨t.nanos + d, h⟩ else none

def durationMax : ℕ := 18446744073709551615 * nanosPerSec + 999999999

def saturatingMul (d n : ℕ) : ℕ := min (d * n) durationMax

def u32Max : ℕ := 4294967295

/-! ### The limiter -/

structure State where
  tokens : ℕ
  lastRefill : Instant
deriving DecidableEq

/-- The configuration; the constructor refuses zeros. -/
structure Limiter where
  burst : ℕ
  refillInterval : ℕ
  maxTracked : ℕ
  burst_pos : 0 < burst
  burst_le : burst ≤ u32Max
  interval_pos : 0 < refillInterval
  tracked_pos : 0 < maxTracked

structure Tracked (K : Type) [DecidableEq K] where
  keys : Table K State
  lastReclaim : Option Instant

def reclaimMinInterval : ℕ := nanosPerSec

def forgetIdle {K : Type} (keys : Table K State) (idle : ℕ) (now : Instant) : Table K State :=
  Table.retain (fun _ st => decide (now.saturatingDurationSince st.lastRefill < idle)) keys

namespace Limiter

variable {K : Type} [DecidableEq K]

variable (lim : Limiter)

/-- The walk over a full map, unless the last one was less than a second ago. -/
def reclaim (t : Tracked K) (now : Instant) : Tracked K :=
  if t.lastReclaim.all fun last =>
      decide (reclaimMinInterval ≤ now.saturatingDurationSince last) then
    let fullRecovery := saturatingMul lim.refillInterval lim.burst
    { keys := forgetIdle t.keys fullRecovery now, lastReclaim := some now }
  else t

/-- The refill of an entry by the whole intervals since the last one. -/
def refill (entry : State) (now : Instant) : State :=
  let elapsed := now.saturatingDurationSince entry.lastRefill
  let refills := min (elapsed / lim.refillInterval) u32Max
  if 0 < refills then
    { tokens := min (min (entry.tokens + refills) u32Max) lim.burst
      lastRefill :=
        (entry.lastRefill.checkedAdd (saturatingMul lim.refillInterval refills)).getD now }
  else entry

def takeToken (entry : State) : Bool × State :=
  if 0 < entry.tokens then (true, { entry with tokens := entry.tokens - 1 }) else (false, entry)

def acquireEntry (t : Tracked K) (key : K) (now : Instant) : Bool × Tracked K :=
  let entry := (t.keys.lookup key).getD ⟨lim.burst, now⟩
  let (granted, entry) := takeToken (lim.refill entry now)
  (granted, { t with keys := t.keys.insert key entry })

def tryAcquireAt (t : Tracked K) (key : K) (now : Instant) : Bool × Tracked K :=
  if key ∉ t.keys ∧ lim.maxTracked ≤ t.keys.keys.length then
    let t := lim.reclaim t now
    if lim.maxTracked ≤ t.keys.keys.length then (false, t) else lim.acquireEntry t key now
  else lim.acquireEntry t key now

end Limiter

def retainActive {K : Type} [DecidableEq K] (t : Tracked K) (idle : ℕ) (now : Instant) :
    Tracked K :=
  { t with keys := forgetIdle t.keys idle now }

/-! ### Runs -/

inductive Op (K : Type) where
  | acquire (key : K) (now : Instant)
  | cleanup (idle : ℕ) (now : Instant)

structure Run (K : Type) [DecidableEq K] where
  tracked : Tracked K
  clock : ℕ
  touched : Table K ℕ
  grants : List (K × ℕ)

section Runs

variable {K : Type} [DecidableEq K]

def Run.start : Run K := ⟨⟨∅, none⟩, 0, ∅, []⟩

variable (lim : Limiter)

def Run.step (s : Run K) : Op K → Run K
  | .acquire key now =>
    let (granted, tracked) := lim.tryAcquireAt s.tracked key now
    { tracked
      clock := now.nanos
      touched := s.touched.insert key now.nanos
      grants := if granted then (key, now.nanos) :: s.grants else s.grants }
  | .cleanup idle now =>
    { s with tracked := retainActive s.tracked idle now, clock := now.nanos }

/-- The clock does not go back, no key comes back after `untouched` nanoseconds or more, and a
cleanup leaves every bucket the time to fill up. -/
def Run.May (untouched : ℕ) (s : Run K) : Op K → Prop
  | .acquire key now => s.clock ≤ now.nanos ∧
      (s.touched.lookup key).all (fun t => decide (now.nanos - t < untouched)) = true
  | .cleanup idle now => s.clock ≤ now.nanos ∧ lim.burst * lim.refillInterval ≤ idle

instance (untouched : ℕ) (s : Run K) : (op : Op K) → Decidable (s.May lim untouched op)
  | .acquire _ _ => inferInstanceAs (Decidable (_ ∧ _))
  | .cleanup _ _ => inferInstanceAs (Decidable (_ ∧ _))

def Reached (untouched : ℕ) : Run K → Prop :=
  Transition.Reachable (· = Run.start) (Transition.Guarded (Run.May lim untouched) (Run.step lim))

def Run.granted (s : Run K) (key : K) (a b : ℕ) : ℕ :=
  s.grants.countP fun g => decide (g.1 = key ∧ a ≤ g.2 ∧ g.2 ≤ b)

end Runs

/-! ### What a bucket is worth -/

section Worth

variable {lim : Limiter} {entry : State} {now : Instant} {clock clock' : ℕ}

def worth (lim : Limiter) (clock : ℕ) (entry : State) : ℕ :=
  entry.tokens * lim.refillInterval + (clock - entry.lastRefill.nanos)

/-- A full bucket and all but a nanosecond of the next attempt. -/
def Limiter.cap (lim : Limiter) : ℕ :=
  lim.burst * lim.refillInterval + (lim.refillInterval - 1)

/-- What a key is worth, tracked or not. -/
def standing (lim : Limiter) (clock : ℕ) : Option State → ℕ
  | none => lim.burst * lim.refillInterval
  | some entry => min (worth lim clock entry) lim.cap

theorem standing_none : standing lim clock none = lim.burst * lim.refillInterval := rfl

theorem standing_some : standing lim clock (some entry) = min (worth lim clock entry) lim.cap := rfl

theorem standing_le_cap (lim clock) (entry : Option State) :
    standing lim clock entry ≤ lim.cap := by
  cases entry with
  | none => exact Nat.le_add_right _ _
  | some entry => exact Nat.min_le_right _ _

theorem standing_later (entry : Option State) (h : clock ≤ clock') :
    standing lim clock' entry ≤ standing lim clock entry + 1 * (clock' - clock) := by
  cases entry with
  | none => exact Nat.le_add_right _ _
  | some entry =>
    rw [standing_some, standing_some, worth, worth]
    omega

/-- **A bucket is forgotten when it is full.** -/
theorem standing_none_le
    (h : lim.burst * lim.refillInterval ≤ clock - entry.lastRefill.nanos) :
    standing lim clock none ≤ standing lim clock (some entry) := by
  rw [standing_none, standing_some, worth, Limiter.cap]
  omega

theorem standing_new (lim now) :
    standing lim now.nanos (some ⟨lim.burst, now⟩) = standing lim now.nanos none := by
  rw [standing_none, standing_some, worth, Limiter.cap]
  dsimp only
  omega

/-- A bucket as it is right after a refill. -/
structure Refilled (lim : Limiter) (now : ℕ) (entry : State) : Prop where
  tokens_le : entry.tokens ≤ lim.burst
  last_le : entry.lastRefill.nanos ≤ now
  unpaid_lt : now - entry.lastRefill.nanos < lim.refillInterval

theorem Refilled.worth_le {now : ℕ} (h : Refilled lim now entry) :
    worth lim now entry ≤ lim.cap := by
  have htokens := Nat.mul_le_mul_right lim.refillInterval h.tokens_le
  have hunpaid := h.unpaid_lt
  rw [worth, Limiter.cap]
  omega

/-- **A refill**: where the number of refills fits in 32 bits, less than an interval is left
unpaid, and the bucket is worth no more than before. -/
theorem refill_worth (lim) (hlast : entry.lastRefill.nanos ≤ now.nanos)
    (htokens : entry.tokens ≤ lim.burst)
    (hfits : now.nanos - entry.lastRefill.nanos < (u32Max + 1) * lim.refillInterval) :
    Refilled lim now.nanos (lim.refill entry now) ∧
      worth lim now.nanos (lim.refill entry now) ≤ worth lim now.nanos entry := by
  have hburst := lim.burst_le
  generalize helapsed : now.nanos - entry.lastRefill.nanos = elapsed at hfits
  have hdiv : elapsed / lim.refillInterval ≤ u32Max :=
    Nat.le_of_lt_succ (Nat.div_lt_of_lt_mul (Nat.mul_comm _ _ ▸ hfits))
  have hmod := Nat.div_add_mod elapsed lim.refillInterval
  have hrem := Nat.mod_lt elapsed lim.interval_pos
  unfold Limiter.refill Instant.saturatingDurationSince
  rw [helapsed]
  dsimp only
  rw [Nat.min_eq_left hdiv]
  generalize elapsed / lim.refillInterval = refills at hdiv hmod ⊢
  split
  · -- the new refill instant is at most `now`, so it is one
    have hbounded := now.bounded
    have hmul : saturatingMul lim.refillInterval refills = lim.refillInterval * refills := by
      refine Nat.min_eq_left ?_
      unfold durationMax
      unfold instantBound at hbounded
      omega
    have hadd : entry.lastRefill.checkedAdd (lim.refillInterval * refills)
        = some ⟨entry.lastRefill.nanos + lim.refillInterval * refills, by omega⟩ :=
      dif_pos (by omega)
    rw [hmul, hadd, Option.getD_some]
    refine ⟨⟨Nat.min_le_right _ _, ?_, ?_⟩, ?_⟩
    · dsimp only
      omega
    · dsimp only
      omega
    · have hpaid : min (min (entry.tokens + refills) u32Max) lim.burst * lim.refillInterval
          ≤ entry.tokens * lim.refillInterval + lim.refillInterval * refills := by
        rw [Nat.mul_comm lim.refillInterval refills, ← Nat.add_mul]
        exact Nat.mul_le_mul_right _ (by omega)
      rw [worth, worth]
      dsimp only
      omega
  · rename_i hnone
    obtain rfl : refills = 0 := by omega
    exact ⟨⟨htokens, hlast, by omega⟩, Nat.le_refl _⟩

/-- **An attempt** costs an interval, if it is granted. -/
theorem takeToken_cases (entry) :
    ((Limiter.takeToken entry).1 = true ∧ (Limiter.takeToken entry).2.tokens + 1 = entry.tokens ∧
        (Limiter.takeToken entry).2.lastRefill = entry.lastRefill) ∨
      Limiter.takeToken entry = (false, entry) := by
  unfold Limiter.takeToken
  split
  · rename_i h
    exact .inl ⟨rfl, Nat.sub_add_cancel h, rfl⟩
  · exact .inr rfl

end Worth

/-! ### What is forgotten -/

section Forgetting

variable {K : Type} [DecidableEq K] {lim : Limiter} {keys keys' : Table K State} {now : Instant}
  {key : K} {clock idle : ℕ} {spent : List Expense}

/-- Some keys are forgotten, all of which must have refilled. -/
structure Thinned (lim : Limiter) (now : Instant) (keys keys' : Table K State) : Prop where
  length_le : keys'.keys.length ≤ keys.keys.length
  lookup_eq : ∀ key, keys'.lookup key = keys.lookup key ∨ keys'.lookup key = none ∧
    ∃ entry, keys.lookup key = some entry ∧
      lim.burst * lim.refillInterval ≤ now.nanos - entry.lastRefill.nanos

theorem Thinned.refl (lim now) (keys : Table K State) :
    Thinned lim now keys keys := ⟨Nat.le_refl _, fun _ => .inl rfl⟩

theorem thinned_forgetIdle (keys : Table K State)
    (hidle : ∀ earlier : Instant, idle ≤ now.nanos - earlier.nanos →
      lim.burst * lim.refillInterval ≤ now.nanos - earlier.nanos) :
    Thinned lim now keys (forgetIdle keys idle now) := by
  refine ⟨?_, fun key => ?_⟩
  · rw [AList.keys, List.keys, List.length_map, AList.keys, List.keys, List.length_map, forgetIdle,
      Table.entries_retain]
    exact List.length_filter_le _ _
  · rw [forgetIdle, Table.lookup_retain]
    cases hentry : keys.lookup key with
    | none => exact .inl rfl
    | some entry =>
      by_cases hactive : now.saturatingDurationSince entry.lastRefill < idle
      · exact .inl (Option.filter_some_pos (decide_eq_true hactive))
      · refine .inr ⟨Option.filter_some_neg (by simpa using hactive), entry, rfl, ?_⟩
        exact hidle entry.lastRefill (Nat.not_lt.mp hactive)

/-- **The walk over a full map** forgets what must have refilled: instants end long before the
longest duration. -/
theorem thinned_reclaim (lim) (t : Tracked K) (now : Instant) :
    Thinned lim now t.keys (lim.reclaim t now).keys := by
  unfold Limiter.reclaim
  split
  · refine thinned_forgetIdle t.keys fun earlier hlong => ?_
    have hbounded := now.bounded
    unfold saturatingMul durationMax at hlong
    unfold instantBound at hbounded
    rw [Nat.mul_comm lim.burst]
    omega
  · exact .refl lim now t.keys

theorem Thinned.lookup_some (h : Thinned lim now keys keys') {entry : State}
    (hentry : keys'.lookup key = some entry) : keys.lookup key = some entry := by
  rcases h.lookup_eq key with hsame | ⟨hnone, -⟩
  · rw [← hsame]
    exact hentry
  · rw [hnone] at hentry
    cases hentry

/-- **Forgetting loses nothing.** -/
theorem Thinned.account (h : Thinned lim now keys keys') (hclock : clock ≤ now.nanos)
    (hacc : Account lim.cap 1 clock (standing lim clock (keys.lookup key)) spent) :
    Account lim.cap 1 now.nanos (standing lim now.nanos (keys'.lookup key)) spent := by
  have hlater : Account lim.cap 1 now.nanos (standing lim now.nanos (keys.lookup key)) spent :=
    hacc.later hclock (standing_later _ hclock) (standing_le_cap ..)
  rcases h.lookup_eq key with hsame | ⟨hnone, entry, hentry, hfull⟩
  · rw [hsame]
    exact hlater
  · rw [hnone]
    rw [hentry] at hlater
    exact hlater.later (Nat.le_refl _) (Nat.le_add_right_of_le (standing_none_le hfull))
      (standing_le_cap ..)

end Forgetting

/-! ### One operation -/

section Steps

variable {K : Type} [DecidableEq K] {lim : Limiter} {s : Run K} {key : K} {now : Instant}

/-- **What an attempt does**: the map may be thinned, and the key is refused for want of room,
or its entry is asked. -/
theorem tryAcquireAt_cases (lim) (t : Tracked K) (key : K) (now) :
    ∃ t', Thinned lim now t.keys t'.keys ∧
      ((t'.keys.lookup key = none ∧ lim.tryAcquireAt t key now = (false, t')) ∨
        ((key ∈ t'.keys ∨ t'.keys.keys.length < lim.maxTracked) ∧
          lim.tryAcquireAt t key now = lim.acquireEntry t' key now)) := by
  unfold Limiter.tryAcquireAt
  split
  · rename_i hfull
    have hthinned := thinned_reclaim lim t now
    refine ⟨lim.reclaim t now, hthinned, ?_⟩
    dsimp only
    split
    · refine .inl ⟨?_, rfl⟩
      rcases hthinned.lookup_eq key with hsame | ⟨hnone, -⟩
      · rw [hsame, AList.lookup_eq_none]
        exact hfull.1
      · exact hnone
    · rename_i hroom
      exact .inr ⟨.inr (Nat.not_le.mp hroom), rfl⟩
  · rename_i hroom
    refine ⟨t, .refl lim now t.keys, .inr ⟨?_, rfl⟩⟩
    by_cases hin : key ∈ t.keys
    · exact .inl hin
    · exact .inr (Nat.not_le.mp fun hle => hroom ⟨hin, hle⟩)

variable {entry : State} {granted : Bool} {tracked : Tracked K}

theorem length_keys_insert_le {keys : Table K State} {cap : ℕ} (entry)
    (hcap : keys.keys.length ≤ cap) (hroom : key ∈ keys ∨ keys.keys.length < cap) :
    (keys.insert key entry).keys.length ≤ cap := by
  rw [AList.keys_insert, List.length_cons]
  rcases hroom with hin | hroom
  · have hpos := List.length_pos_of_mem (AList.mem_keys.mp hin)
    rw [List.length_erase_of_mem (AList.mem_keys.mp hin)]
    omega
  · have hle := List.length_erase_le (a := key) (l := keys.keys)
    omega

/-- **The entry is asked**: it is refilled, and pays for the attempt if it can. -/
theorem acquireEntry_account {t : Tracked K} {spent : List Expense}
    (hacc : Account lim.cap 1 now.nanos (standing lim now.nanos (t.keys.lookup key)) spent)
    (hold : ∀ entry, t.keys.lookup key = some entry → entry.tokens ≤ lim.burst ∧
      entry.lastRefill.nanos ≤ now.nanos ∧
      now.nanos - entry.lastRefill.nanos < (u32Max + 1) * lim.refillInterval) :
    ∃ granted entry,
      lim.acquireEntry t key now = (granted, { t with keys := t.keys.insert key entry }) ∧
      Refilled lim now.nanos entry ∧
      Account lim.cap 1 now.nanos (standing lim now.nanos (some entry))
        (if granted then ⟨now.nanos, lim.refillInterval⟩ :: spent else spent) := by
  set old := (t.keys.lookup key).getD ⟨lim.burst, now⟩ with hold'
  -- a key that is not there gets a full bucket, and that is what it is worth
  have hask : Account lim.cap 1 now.nanos (standing lim now.nanos (some old)) spent ∧
      old.tokens ≤ lim.burst ∧ old.lastRefill.nanos ≤ now.nanos ∧
      now.nanos - old.lastRefill.nanos < (u32Max + 1) * lim.refillInterval := by
    cases hentry : t.keys.lookup key with
    | none =>
      rw [hentry] at hacc hold'
      rw [hold', Option.getD_none, standing_new]
      refine ⟨hacc, Nat.le_refl _, Nat.le_refl _, ?_⟩
      rw [Nat.sub_self]
      exact Nat.mul_pos (Nat.succ_pos _) lim.interval_pos
    | some entry =>
      rw [hentry] at hacc hold'
      rw [hold', Option.getD_some]
      exact ⟨hacc, hold entry hentry⟩
  obtain ⟨hacc, htokens, hlast, hfits⟩ := hask
  obtain ⟨hrefilled, hworth⟩ := refill_worth lim hlast htokens hfits
  have hpays : Account lim.cap 1 now.nanos (worth lim now.nanos (lim.refill old now)) spent := by
    refine hacc.later (Nat.le_refl _) (Nat.le_add_right_of_le ?_) hrefilled.worth_le
    rw [standing_some]
    exact Nat.le_min.mpr ⟨hworth, hrefilled.worth_le⟩
  refine ⟨(Limiter.takeToken (lim.refill old now)).1, (Limiter.takeToken (lim.refill old now)).2,
    rfl, ?_⟩
  rcases takeToken_cases (lim.refill old now) with ⟨hgranted, hone, hsame⟩ | hrefused
  · have hcost : worth lim now.nanos (Limiter.takeToken (lim.refill old now)).2
        + lim.refillInterval = worth lim now.nanos (lim.refill old now) := by
      rw [worth, worth, hsame, ← hone, Nat.add_mul]
      omega
    rw [hgranted, if_pos rfl]
    refine ⟨⟨?_, ?_, ?_⟩, ?_⟩
    · have hle := hrefilled.tokens_le
      omega
    · rw [hsame]
      exact hrefilled.last_le
    · rw [hsame]
      exact hrefilled.unpaid_lt
    · rw [standing_some]
      refine hpays.spend ?_
      omega
  · rw [hrefused]
    refine ⟨hrefilled, ?_⟩
    rw [standing_some, Nat.min_eq_left hrefilled.worth_le]
    exact hpays

def Run.expenses (lim : Limiter) (s : Run K) (key : K) : List Expense :=
  (s.grants.filter fun g => decide (g.1 = key)).map fun g => ⟨g.2, lim.refillInterval⟩

/-- An entry is as its last refill left it, when the key was last asked for. -/
def Tended (lim : Limiter) (s : Run K) (key : K) (entry : State) : Prop :=
  ∃ t, s.touched.lookup key = some t ∧ t ≤ s.clock ∧ Refilled lim t entry

/-- **The invariant**: there is room for the keys, entries are tended, and what every key has
been granted is an account. -/
structure Sound (lim : Limiter) (s : Run K) : Prop where
  room : s.tracked.keys.keys.length ≤ lim.maxTracked
  tended : ∀ key entry, s.tracked.keys.lookup key = some entry → Tended lim s key entry
  account : ∀ key, Account lim.cap 1 s.clock (standing lim s.clock (s.tracked.keys.lookup key))
    (s.expenses lim key)

theorem sound_start (lim) : Sound lim (Run.start : Run K) where
  room := Nat.zero_le _
  tended _ _ h := by cases h
  account _ := Account.start (standing_le_cap ..)

theorem Sound.cleanup (h : Sound lim s) {idle : ℕ} (hclock : s.clock ≤ now.nanos)
    (hidle : lim.burst * lim.refillInterval ≤ idle) :
    Sound lim (s.step lim (.cleanup idle now)) := by
  have hthinned : Thinned lim now s.tracked.keys (forgetIdle s.tracked.keys idle now) :=
    thinned_forgetIdle _ fun _ hlong => Nat.le_trans hidle hlong
  refine ⟨Nat.le_trans hthinned.length_le h.room, fun key entry hentry => ?_,
    fun key => hthinned.account hclock (h.account key)⟩
  obtain ⟨t, htouched, hle, hrefilled⟩ := h.tended key entry (hthinned.lookup_some hentry)
  exact ⟨t, htouched, Nat.le_trans hle hclock, hrefilled⟩

theorem Tended.fits (h : Tended lim s key entry) (hclock : s.clock ≤ now.nanos)
    (hback : (s.touched.lookup key).all
      (fun t => decide (now.nanos - t < u32Max * lim.refillInterval + 1)) = true) :
    entry.tokens ≤ lim.burst ∧ entry.lastRefill.nanos ≤ now.nanos ∧
      now.nanos - entry.lastRefill.nanos < (u32Max + 1) * lim.refillInterval := by
  obtain ⟨t, htouched, hle, hrefilled⟩ := h
  rw [htouched, Option.all_some, decide_eq_true_iff] at hback
  have hlast := hrefilled.last_le
  have hunpaid := hrefilled.unpaid_lt
  refine ⟨hrefilled.tokens_le, by omega, ?_⟩
  rw [Nat.add_mul]
  omega

def Run.asked (s : Run K) (key : K) (now : Instant) (granted : Bool) (tracked : Tracked K) :
    Run K :=
  ⟨tracked, now.nanos, s.touched.insert key now.nanos,
    if granted then (key, now.nanos) :: s.grants else s.grants⟩

theorem step_acquire (h : lim.tryAcquireAt s.tracked key now = (granted, tracked)) :
    s.step lim (.acquire key now) = s.asked key now granted tracked := by
  dsimp only [Run.step]
  rw [h]
  rfl

theorem expenses_asked (granted tracked) (key' : K) :
    (s.asked key now granted tracked).expenses lim key'
      = if granted ∧ key' = key then ⟨now.nanos, lim.refillInterval⟩ :: s.expenses lim key'
        else s.expenses lim key' := by
  unfold Run.asked Run.expenses
  cases granted with
  | false => simp
  | true =>
    by_cases hkey : key' = key
    · simp [hkey]
    · simp [hkey, Ne.symm hkey]

theorem Tended.asked {key' : K} (h : Tended lim s key' entry) (hne : key' ≠ key)
    (hclock : s.clock ≤ now.nanos) (granted tracked) :
    Tended lim (s.asked key now granted tracked) key' entry := by
  obtain ⟨t, htouched, hle, hrefilled⟩ := h
  refine ⟨t, ?_, Nat.le_trans hle hclock, hrefilled⟩
  rw [Run.asked, AList.lookup_insert_ne hne]
  exact htouched

/-- **An attempt keeps the invariant.** -/
theorem Sound.acquire (h : Sound lim s) (hclock : s.clock ≤ now.nanos)
    (hback : (s.touched.lookup key).all
      (fun t => decide (now.nanos - t < u32Max * lim.refillInterval + 1)) = true) :
    Sound lim (s.step lim (.acquire key now)) := by
  obtain ⟨t', hthinned, hcases⟩ := tryAcquireAt_cases lim s.tracked key now
  have haccount := fun key => hthinned.account hclock (h.account key)
  have hlength := Nat.le_trans hthinned.length_le h.room
  rcases hcases with ⟨hnone, hresult⟩ | ⟨hroom, hresult⟩
  · rw [step_acquire hresult]
    refine ⟨hlength, fun key' entry hentry => ?_, fun key' => ?_⟩
    · refine (h.tended key' entry (hthinned.lookup_some hentry)).asked ?_ hclock false t'
      rintro rfl
      exact Option.some_ne_none entry (hentry.symm.trans hnone)
    · rw [expenses_asked]
      exact haccount key'
  · obtain ⟨granted, entry, hentry, hrefilled, hpaid⟩ := acquireEntry_account (haccount key)
      fun entry hentry => (h.tended key entry (hthinned.lookup_some hentry)).fits hclock hback
    rw [step_acquire (hresult.trans hentry)]
    refine ⟨length_keys_insert_le entry hlength hroom, fun key' entry' hentry' => ?_,
      fun key' => ?_⟩
    · by_cases hkey : key' = key
      · subst hkey
        obtain rfl : entry = entry' := Option.some.inj ((AList.lookup_insert _).symm.trans hentry')
        exact ⟨now.nanos, AList.lookup_insert _, Nat.le_refl _, hrefilled⟩
      · refine (h.tended key' entry' (hthinned.lookup_some ?_)).asked hkey hclock granted _
        exact (AList.lookup_insert_ne hkey).symm.trans hentry'
    · rw [expenses_asked]
      dsimp only [Run.asked]
      by_cases hkey : key' = key
      · subst hkey
        rw [AList.lookup_insert]
        simpa using hpaid
      · rw [AList.lookup_insert_ne hkey, if_neg fun h => hkey h.2]
        exact haccount key'

/-- **Every run keeps it.** -/
theorem Reached.sound (h : Reached lim (u32Max * lim.refillInterval + 1) s) : Sound lim s := by
  refine Transition.Reachable.invariant ?_ ?_ h
  · rintro s rfl
    exact sound_start lim
  · rintro s s' hsound ⟨op, hmay, rfl⟩
    cases op with
    | acquire key now => exact hsound.acquire hmay.1 hmay.2
    | cleanup idle now => exact hsound.cleanup hmay.1 hmay.2

end Steps

/-! ### The bounds -/

section Bounds

variable {K : Type} [DecidableEq K]

theorem spentIn_expenses (lim : Limiter) (s : Run K) (key : K) (a b : ℕ) :
    spentIn a b (s.expenses lim key) = s.granted key a b * lim.refillInterval := by
  unfold Run.expenses Run.granted
  induction s.grants with
  | nil => exact (Nat.zero_mul _).symm
  | cons g grants ih =>
    rw [List.countP_cons, Nat.add_mul, ← ih]
    by_cases hkey : g.1 = key
    · rw [List.filter_cons, if_pos (decide_eq_true hkey), List.map_cons, spentIn_cons]
      by_cases hin : a ≤ g.2 ∧ g.2 ≤ b
      · simp [hkey, hin, Nat.add_comm]
      · simp [hkey, hin]
    · rw [List.filter_cons, if_neg (by simpa using hkey)]
      simp [hkey]

/-- **Attempts are bounded.**  For every burst, refill interval and cap, in every run of
attempts and cleanups at times that do not go back, in which every cleanup leaves a bucket the
time to fill up and no key comes back after more than `2 ^ 32 - 1` intervals: every key is
granted at most `burst + T / interval + 1` attempts in every closed interval of length `T`, and
at most as many keys are tracked as the cap allows. -/
theorem attempts_bounded (lim : Limiter) (s : Run K)
    (h : Reached lim (u32Max * lim.refillInterval + 1) s) (key : K) (a T : ℕ) :
    s.granted key a (a + T) ≤ lim.burst + T / lim.refillInterval + 1 ∧
      s.tracked.keys.keys.length ≤ lim.maxTracked := by
  have hsound := Reached.sound h
  refine ⟨?_, hsound.room⟩
  have hpos := lim.interval_pos
  have hspent := (hsound.account key).within a (a + T) (Nat.le_add_right a T)
  rw [spentIn_expenses, Nat.add_sub_cancel_left, Nat.one_mul, Limiter.cap] at hspent
  have hmod := Nat.div_add_mod T lim.refillInterval
  have hrem := Nat.mod_lt T hpos
  have hlt : s.granted key a (a + T) * lim.refillInterval
      < (lim.burst + T / lim.refillInterval + 2) * lim.refillInterval := by
    rw [Nat.add_mul, Nat.add_mul, Nat.mul_comm (T / lim.refillInterval)]
    omega
  exact Nat.le_of_lt_succ (Nat.lt_of_mul_lt_mul_right hlt)

end Bounds

def tight : Limiter := ⟨1, 10, 1, by decide, by decide, by decide, by decide⟩

def attempt (nanos : ℕ) (h : nanos < instantBound) : Op ℕ := .acquire 7 ⟨nanos, h⟩

theorem reached_run {lim : Limiter} {untouched : ℕ} {ops : List (Op ℕ)}
    (h : Transition.Allowed (Run.May lim untouched) (Run.step lim) .start ops) :
    Reached lim untouched (ops.foldl (Run.step lim) .start) := by
  have hstart : Reached lim untouched (Run.start : Run ℕ) := Transition.Reachable.start rfl
  exact Transition.Reachable.run hstart h

def forgotten : List (Op ℕ) :=
  [attempt 0 (by decide), attempt 9 (by decide), .cleanup 10 ⟨12, by decide⟩,
    attempt 15 (by decide)]

theorem attempts_bounded_forgotten :
    (forgotten.foldl (Run.step tight) .start).granted 7 0 15 ≤ 3 :=
  (attempts_bounded tight _ (reached_run (by decide)) 7 0 15).1

def returning : List (Op ℕ) :=
  [attempt 0 (by decide), attempt 9 (by decide), attempt 42949672968 (by decide),
    attempt 42949672968 (by decide), attempt 42949672970 (by decide)]

/-- **Within `2 ^ 32` intervals**, the refill may leave more than an interval unpaid.  Three
attempts are granted within 2 nanoseconds, where two are the bound. -/
theorem attempts_unbounded :
    Reached tight (4294967296 * tight.refillInterval) (returning.foldl (Run.step tight) .start) ∧
      (returning.foldl (Run.step tight) .start).granted 7 42949672968 (42949672968 + 2) = 3 ∧
      tight.burst + 2 / tight.refillInterval + 1 = 2 :=
  ⟨reached_run (by decide), by decide, by decide⟩

end WarrenGuard.ConnectionLimit
