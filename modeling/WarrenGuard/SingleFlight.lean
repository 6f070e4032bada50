/-
Calls of which a session has one in flight at a time.

The `Gate` of a session keeps the flag that a call is in flight, when the last one started, and
the last request that was answered with its answer: a repeat of that request is answered at once,
and a request is dropped while a call is in flight or too soon after the last (`Gate.submit`,
`Gate.finish`).  The flag is found under a key, and one session follows another under the same
key.

* `Tracked` — a cleared flag means that the session that is there now has no call in flight, and
  no session has two;
* its rules: `Tracked.congr` (flags may go, and a key without flag may change sessions),
  `Tracked.opened`, `Tracked.start`, `Tracked.replace`, `Tracked.finish`.
-/
import Mathlib.Data.List.Count

namespace SingleFlight

/-! ### The gate -/

structure Gate (δ ν : Type*) where
  inFlight : Bool
  lastCall : Option ℕ
  last : Option (δ × ν)

inductive Decision (ν : Type*) where
  /-- Answered as the last time. -/
  | again (answer : ν)
  | throttled
  | call

namespace Gate

variable {δ ν : Type*} [DecidableEq δ]

def new : Gate δ ν := ⟨false, none, none⟩

def answer? (g : Gate δ ν) (digest : δ) : Option ν :=
  g.last.bind fun last => if last.1 = digest then some last.2 else none

def isBusy (g : Gate δ ν) (interval now : ℕ) : Bool :=
  g.inFlight || g.lastCall.any fun start => decide (now - start < interval)

def submit (g : Gate δ ν) (interval : ℕ) (digest : δ) (now : ℕ) : Decision ν × Gate δ ν :=
  match g.answer? digest with
  | some answer => (.again answer, g)
  | none =>
    if g.isBusy interval now then (.throttled, g)
    else (.call, { g with inFlight := true, lastCall := some now })

def finish (g : Gate δ ν) (last : Option (δ × ν)) : Gate δ ν :=
  { g with inFlight := false, last := last }

/-- **What a request comes to**: the gate is as before, or a call starts and none was in
flight. -/
theorem submit_cases (g : Gate δ ν) (interval : ℕ) (digest : δ) (now : ℕ) :
    (∃ answer, g.submit interval digest now = (.again answer, g)) ∨
    g.submit interval digest now = (.throttled, g) ∨
    g.inFlight = false ∧
      g.submit interval digest now
        = (.call, { g with inFlight := true, lastCall := some now }) := by
  unfold submit
  split
  · exact .inl ⟨_, rfl⟩
  · split
    · exact .inr (.inl rfl)
    · rename_i hfree
      have hoff : g.inFlight = false := by
        by_contra hon
        simp [isBusy, hon] at hfree
      exact .inr (.inr ⟨hoff, rfl⟩)

end Gate

/-! ### Calls -/

/-- A call made for the `session`-th session of `key`, and where it stands. -/
structure Call (κ σ : Type*) where
  key : κ
  session : ℕ
  work : σ
deriving DecidableEq

variable {κ σ : Type*} [DecidableEq κ]

def inFlight (calls : List (Call κ σ)) (key : κ) (session : ℕ) : ℕ :=
  calls.countP fun call => decide (call.key = key) && decide (call.session = session)

/-- **A flag is the flag of the session that is there.** -/
structure Tracked (session : κ → ℕ) (flag : κ → Option Bool) (calls : List (Call κ σ)) : Prop where
  own : ∀ {key b}, flag key = some b → ∀ call ∈ calls, call.key = key →
    call.session = session key
  idle : ∀ {key}, flag key = some false → inFlight calls key (session key) = 0
  once : ∀ key n, inFlight calls key n ≤ 1

namespace Tracked

variable {session session' : κ → ℕ} {flag flag' : κ → Option Bool} {calls : List (Call κ σ)}
  {call call' : Call κ σ} {key : κ}

theorem nil : Tracked session flag ([] : List (Call κ σ)) :=
  ⟨fun _ _ h => absurd h List.not_mem_nil, fun _ => rfl, fun _ _ => Nat.zero_le 1⟩

theorem congr (h : Tracked session flag calls)
    (hflag : ∀ key b, flag' key = some b → flag key = some b ∧ session' key = session key) :
    Tracked session' flag' calls := by
  refine ⟨?_, ?_, h.once⟩
  · intro key b hb call hmem hkey
    obtain ⟨hold, hsession⟩ := hflag key b hb
    rw [hsession]
    exact h.own hold call hmem hkey
  · intro key hb
    obtain ⟨hold, hsession⟩ := hflag key false hb
    rw [hsession]
    exact h.idle hold

theorem opened (h : Tracked session flag calls) (hnone : ∀ call ∈ calls, call.key ≠ key)
    (hflag : ∀ k, flag' k = if k = key then some false else flag k) :
    Tracked session flag' calls := by
  refine ⟨?_, ?_, h.once⟩
  · intro k b hb call hmem hkey
    by_cases hk : k = key
    · exact absurd (hkey.trans hk) (hnone call hmem)
    · rw [hflag, if_neg hk] at hb
      exact h.own hb call hmem hkey
  · intro k hb
    by_cases hk : k = key
    · refine List.countP_eq_zero.mpr fun call hmem => ?_
      simp [hk, hnone call hmem]
    · rw [hflag, if_neg hk] at hb
      exact h.idle hb

theorem inFlight_cons (call : Call κ σ) (calls key) (n : ℕ) :
    inFlight (call :: calls) key n =
      inFlight calls key n + if call.key = key ∧ call.session = n then 1 else 0 := by
  rw [inFlight, List.countP_cons]
  simp [inFlight]

theorem start (h : Tracked session flag calls) (hkey : call.key = key)
    (hsession : call.session = session key) (hfree : flag key = some false)
    (hflag : ∀ k, flag' k = if k = key then some true else flag k) :
    Tracked session flag' (call :: calls) := by
  refine ⟨?_, ?_, ?_⟩
  · intro k b hb call' hmem hkey'
    rcases List.mem_cons.mp hmem with rfl | hmem
    · rw [hsession, ← hkey, hkey']
    · by_cases hk : k = key
      · exact hk ▸ h.own hfree call' hmem (hkey'.trans hk)
      · rw [hflag, if_neg hk] at hb
        exact h.own hb call' hmem hkey'
  · intro k hb
    by_cases hk : k = key
    · rw [hflag, if_pos hk] at hb
      cases hb
    · rw [hflag, if_neg hk] at hb
      have hother : ¬ (call.key = k ∧ call.session = session k) :=
        fun hboth => hk (hboth.1.symm.trans hkey)
      rw [inFlight_cons, if_neg hother, h.idle hb]
  · intro k n
    rw [inFlight_cons]
    split
    · -- the session the call is for had none in flight
      rename_i hboth
      have hnone := h.idle hfree
      rw [← hsession, ← hkey, hboth.1, hboth.2] at hnone
      omega
    · exact h.once k n

variable [DecidableEq σ]

theorem inFlight_erase (hmem : call ∈ calls) (key : κ) (n : ℕ) :
    inFlight (calls.erase call) key n + (if call.key = key ∧ call.session = n then 1 else 0) =
      inFlight calls key n := by
  have hperm := (List.perm_cons_erase hmem).countP_eq
    fun call => decide (call.key = key) && decide (call.session = n)
  rw [← inFlight_cons]
  exact hperm.symm

theorem replace (h : Tracked session flag calls) (hmem : call ∈ calls)
    (hkey : call'.key = call.key) (hsession : call'.session = call.session) :
    Tracked session flag (call' :: calls.erase call) := by
  have hcount : ∀ k n, inFlight (call' :: calls.erase call) k n = inFlight calls k n := by
    intro k n
    rw [inFlight_cons, hkey, hsession, inFlight_erase hmem]
  refine ⟨?_, ?_, ?_⟩
  · intro k b hb other hother hk
    rcases List.mem_cons.mp hother with rfl | hother
    · rw [hsession]
      exact h.own hb call hmem (hkey.symm.trans hk)
    · exact h.own hb other (List.mem_of_mem_erase hother) hk
  · intro k hb
    rw [hcount]
    exact h.idle hb
  · intro k n
    rw [hcount]
    exact h.once k n

theorem finish (h : Tracked session flag calls) (hmem : call ∈ calls)
    (hflag : ∀ k, flag' k = if k = call.key then (flag k).map fun _ => false else flag k) :
    Tracked session flag' (calls.erase call) := by
  have hone : ∀ {k}, k = call.key → ∀ {b}, flag' k = some b → ∃ b, flag k = some b := by
    intro k hk b hb
    rw [hflag, if_pos hk] at hb
    obtain ⟨b', hb', -⟩ := Option.map_eq_some_iff.mp hb
    exact ⟨b', hb'⟩
  refine ⟨?_, ?_, ?_⟩
  · intro k b hb other hother hkey
    by_cases hk : k = call.key
    · obtain ⟨b', hb'⟩ := hone hk hb
      exact h.own hb' other (List.mem_of_mem_erase hother) hkey
    · rw [hflag, if_neg hk] at hb
      exact h.own hb other (List.mem_of_mem_erase hother) hkey
  · intro k hb
    by_cases hk : k = call.key
    · -- it was the one call of the session that is there
      obtain ⟨b', hb'⟩ := hone hk hb
      have hself := h.own hb' call hmem hk.symm
      have hcount := inFlight_erase hmem k (session k)
      rw [if_pos ⟨hk.symm, hself⟩] at hcount
      have honce := h.once k (session k)
      omega
    · rw [hflag, if_neg hk] at hb
      have hcount := inFlight_erase hmem k (session k)
      have hidle := h.idle hb
      omega
  · intro k n
    have hcount := inFlight_erase hmem k n
    have honce := h.once k n
    omega

end Tracked

end SingleFlight
