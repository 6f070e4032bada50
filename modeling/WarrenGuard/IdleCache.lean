/-
Caches whose entries expire when they have been idle for a time.

A lazy cache walks its map at most once per TTL and passes over the expired entries it keeps.  A
strict cache drops them before every call.  Nobody who calls can tell the two apart:

* `Tracks` — from a time on, both caches show the same live entries (`Tracks.sweep`,
  `Tracks.put`);
* `Recent` — nothing in the map is older than two TTLs (`Recent.idle_lt`);
* `Lockstep` — two services that get the same calls at times that never go back, and a relation
  that every call keeps (`lockstep_related`).
-/
import WarrenGuard.Clock
import WarrenGuard.Table

namespace IdleCache

/-- A map, the time it was last walked, and how long an entry may be idle. -/
structure Cache (κ ν : Type*) where
  map : Table κ ν
  lastSweep : Option ℕ
  ttl : ℕ

section Expiry

variable {κ ν : Type*} (seen : ν → ℕ)

variable (c : Cache κ ν)

def dropIdle (now : ℕ) : Cache κ ν :=
  { c with map := Table.retain (fun _ e => decide (now - seen e < c.ttl)) c.map }

def sweepIfDue (now : ℕ) : Cache κ ν :=
  if c.lastSweep.any fun t => now - t < c.ttl then c
  else { dropIdle seen c now with lastSweep := some now }

theorem ttl_sweepIfDue (now : ℕ) : (sweepIfDue seen c now).ttl = c.ttl := by
  unfold sweepIfDue
  split <;> rfl

theorem exists_lastSweep {c : Cache κ ν} (hpos : 0 < c.ttl) (now : ℕ) :
    ∃ t, (sweepIfDue seen c now).lastSweep = some t ∧ now < t + c.ttl := by
  unfold sweepIfDue
  split
  · next hrecent =>
    rw [Option.any_eq_true] at hrecent
    obtain ⟨t, ht, hlt⟩ := hrecent
    have hlt := of_decide_eq_true hlt
    exact ⟨t, ht, by omega⟩
  · exact ⟨now, rfl, by omega⟩

variable [DecidableEq κ]

def live (k : κ) (now : ℕ) : Option ν :=
  (c.map.lookup k).filter fun e => decide (now - seen e < c.ttl)

def put (k : κ) (e : ν) : Cache κ ν := { c with map := c.map.insert k e }

variable {seen} {c lazy strict : Cache κ ν} {t now : ℕ}

variable {e : ν} {k : κ}

theorem lookup_dropIdle (c : Cache κ ν) (k now) :
    (dropIdle seen c now).map.lookup k = live seen c k now :=
  Table.lookup_retain _ _ _

theorem live_dropIdle (c : Cache κ ν) (k) (h : t ≤ now) :
    live seen (dropIdle seen c t) k now = live seen c k now := by
  unfold live
  rw [lookup_dropIdle, live, Option.filter_filter]
  refine congrArg (fun p => Option.filter p (c.map.lookup k)) (funext fun e => ?_)
  rw [← Bool.decide_and, decide_eq_decide]
  have hage : now - seen e < c.ttl → t - seen e < c.ttl := by omega
  exact ⟨fun hboth => hboth.2, fun hnow => ⟨hage hnow, hnow⟩⟩

theorem live_sweepIfDue (c : Cache κ ν) (k) (h : t ≤ now) :
    live seen (sweepIfDue seen c t) k now = live seen c k now := by
  unfold sweepIfDue
  split
  · rfl
  · exact live_dropIdle c k h

theorem lookup_of_live (h : live seen c k now = some e) : c.map.lookup k = some e :=
  (Option.filter_eq_some_iff.mp h).1

/-- **A walk drops idle entries only.** -/
theorem lookup_sweepIfDue (c : Cache κ ν) (k now) :
    (sweepIfDue seen c now).map.lookup k = c.map.lookup k ∨
      ((sweepIfDue seen c now).map.lookup k = none ∧
        ∃ e, c.map.lookup k = some e ∧ c.ttl ≤ now - seen e) := by
  unfold sweepIfDue
  split
  · exact .inl rfl
  · rw [show AList.lookup k _ = _ from lookup_dropIdle c k now, live]
    cases hl : c.map.lookup k with
    | none => exact .inl rfl
    | some e =>
      rw [Option.filter_some]
      split
      · exact .inl rfl
      · next hidle => exact .inr ⟨rfl, e, rfl, Nat.not_lt.mp (by simpa using hidle)⟩

theorem lookup_of_sweepIfDue (h : (sweepIfDue seen c now).map.lookup k = some e) :
    c.map.lookup k = some e := by
  rcases lookup_sweepIfDue c k now with hsame | ⟨hnone, -⟩
  · rwa [← hsame]
  · rw [hnone] at h
    cases h

theorem live_put (c) (k k' : κ) (e) :
    live seen (put c k e) k' now =
      if k' = k then (some e).filter fun e => decide (now - seen e < c.ttl)
      else live seen c k' now := by
  unfold live put
  rw [Table.lookup_insert']
  split <;> rfl

/-! ### The lazy cache tracks the strict one -/

/-- From `now` on both caches show the same entries. -/
structure Tracks (seen : ν → ℕ) (now : ℕ) (lazy strict : Cache κ ν) : Prop where
  ttl : lazy.ttl = strict.ttl
  live : ∀ k later, now ≤ later → live seen lazy k later = live seen strict k later

theorem Tracks.refl (c : Cache κ ν) : Tracks seen now c c := ⟨rfl, fun _ _ _ => rfl⟩

theorem Tracks.sweep (h : Tracks seen t lazy strict) (hle : t ≤ now) :
    Tracks seen now (sweepIfDue seen lazy now) (dropIdle seen strict now) := by
  constructor
  · rw [ttl_sweepIfDue]
    exact h.ttl
  · intro k later hlater
    rw [live_sweepIfDue lazy k hlater, live_dropIdle strict k hlater]
    exact h.live k later (hle.trans hlater)

theorem Tracks.put (h : Tracks seen now lazy strict) (k e) :
    Tracks seen now (put lazy k e) (put strict k e) := by
  refine ⟨h.ttl, fun k' later hlater => ?_⟩
  rw [live_put, live_put, h.ttl, h.live k' later hlater]

theorem Tracks.lookup (h : Tracks seen t lazy strict) (hle : t ≤ now) (k : κ) :
    (dropIdle seen strict now).map.lookup k = IdleCache.live seen lazy k now := by
  rw [lookup_dropIdle, h.live k now hle]

/-! ### How old an entry can be -/

/-- What a map holds at the time of a call. -/
structure Recent (seen : ν → ℕ) (now : ℕ) (c : Cache κ ν) : Prop where
  sweep_le : ∀ t, c.lastSweep = some t → t ≤ now
  entries : ∀ k e, c.map.lookup k = some e →
    ∃ t, c.lastSweep = some t ∧ now < t + c.ttl ∧ t < seen e + c.ttl

/-- **Nothing is older than two TTLs.** -/
theorem Recent.idle_lt (h : Recent seen now c) (he : c.map.lookup k = some e) :
    now - seen e < 2 * c.ttl := by
  obtain ⟨t, ht, hnow, hseen⟩ := h.entries k e he
  have hle := h.sweep_le t ht
  omega

theorem Recent.sweep (h : Recent seen t c) (hle : t ≤ now) (hpos : 0 < c.ttl) :
    Recent seen now (sweepIfDue seen c now) := by
  obtain ⟨last, hlast, hnow⟩ := exists_lastSweep seen hpos now
  constructor
  · unfold sweepIfDue
    split
    · exact fun t' ht' => (h.sweep_le t' ht').trans hle
    · exact fun t' ht' => (Option.some.inj ht').ge
  · intro k e he
    refine ⟨last, hlast, by rwa [ttl_sweepIfDue], ?_⟩
    rw [ttl_sweepIfDue]
    unfold sweepIfDue at he hlast
    split at he
    · next hrecent =>
      -- not walked: the entry is as old as it was against the walk before
      rw [if_pos hrecent] at hlast
      obtain ⟨last', hlast', -, hseen⟩ := h.entries k e he
      rw [Option.some.inj (hlast.symm.trans hlast')]
      exact hseen
    · next hdue =>
      rw [if_neg hdue] at hlast
      have hlast : now = last := Option.some.inj hlast
      rw [show AList.lookup k _ = _ from lookup_dropIdle c k now] at he
      have hlive := of_decide_eq_true (Option.filter_eq_some_iff.mp he).2
      omega

theorem Recent.put (h : Recent seen t c) (hle : t ≤ now) (hpos : 0 < c.ttl) (k)
    (he : seen e = now) : Recent seen now (put (sweepIfDue seen c now) k e) := by
  have hswept := h.sweep hle hpos
  refine ⟨hswept.sweep_le, fun k' e' he' => ?_⟩
  rw [IdleCache.put, Table.lookup_insert'] at he'
  split at he'
  · obtain ⟨last, hlast, hnow⟩ := exists_lastSweep seen hpos now
    have hlastle := hswept.sweep_le last hlast
    obtain rfl := Option.some.inj he'
    refine ⟨last, hlast, ?_, ?_⟩
    · rwa [show (IdleCache.put _ k e).ttl = _ from ttl_sweepIfDue seen c now]
    · rw [show (IdleCache.put _ k e).ttl = _ from ttl_sweepIfDue seen c now]
      omega
  · exact hswept.entries k' e' he'

end Expiry

/-! ### Two services side by side -/

section Lockstep

open Transition

variable {σ ι α η : Type*} (first second : ι → ℕ → σ → α × σ) (note : η → σ → σ)

/-- Both services get the same call, at a time no earlier than the last, or the same note,
which is timeless. -/
inductive Lockstep (x : Clocked (σ × σ)) : Clocked (σ × σ) → Prop
  | call (i : ι) (now : ℕ) : x.clock ≤ now →
    Lockstep x ⟨((first i now x.state.1).2, (second i now x.state.2).2), now⟩
  | note (n : η) : Lockstep x ⟨(note n x.state.1, note n x.state.2), x.clock⟩

/-- Whatever call comes next has the same answer from both. -/
def SameAnswers (x : Clocked (σ × σ)) : Prop :=
  ∀ i now, x.clock ≤ now → (first i now x.state.1).1 = (second i now x.state.2).1

variable {first second note} {x : Clocked (σ × σ)} {s : σ}

/-- **A relation that every call and every note keeps holds in every state reached.** -/
theorem lockstep_related {R : ℕ → σ → σ → Prop}
    (h0 : ∀ t, R t s s)
    (hcall : ∀ i t now a b, R t a b → t ≤ now → R now (first i now a).2 (second i now b).2)
    (hnote : ∀ n t a b, R t a b → R t (note n a) (note n b))
    (h : Reachable (fun x => x.state = (s, s)) (Lockstep first second note) x) :
    R x.clock x.state.1 x.state.2 := by
  refine h.invariant (I := fun x => R x.clock x.state.1 x.state.2) ?_ ?_
  · intro x hx
    rw [hx]
    exact h0 x.clock
  · intro x y hx hstep
    cases hstep with
    | call i now hle => exact hcall i _ now _ _ hx hle
    | note n => exact hnote n _ _ _ hx

end Lockstep

end IdleCache
