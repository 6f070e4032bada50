/-
When the TCP carrier is dialled first (`warrenguard-tcp-fallback/src/hostility.rs`).

The tracker remembers two counters and two deadlines, which the ends of sessions, timeouts and
dials set, extend and clear.  What it answers is a statement about all that happened:

* `Kind`, `record_eq` — what an event is to the tracker, and what it then does;
* `Recalls` — its four fields, by what happened;
* `carrier_first_evidence` — the carrier is dialled first only on fresh evidence against UDP, and
  never while the carrier itself is known to fail.

Design notes: a history has the newest event first.  Counters are `u32` and saturate.
-/
import Mathlib.Data.List.Basic
import WarrenGuard.Basic

namespace WarrenGuard.Hostility

def postHandshakeKillWindow : ℕ := 60 * nanosPerSec

def killsBeforeCarrierFirst : ℕ := 2

def carrierFirstTtl : ℕ := 15 * 60 * nanosPerSec

def carrierFailuresBeforeCooldown : ℕ := 3

def carrierCooldown : ℕ := 5 * 60 * nanosPerSec

inductive Carrier where
  | udp
  | tcp

structure SessionEnd where
  carrier : Carrier
  lifetime : ℕ
  watchdogForced : Bool

inductive DialPreference where
  | race
  | carrierFirst
deriving DecidableEq

structure UdpHostilityTracker where
  youngUdpKills : ℕ
  carrierFirstUntil : Option ℕ
  carrierFailures : ℕ
  cooldownUntil : Option ℕ

/-- `saturating_add(1)` of a `u32`. -/
def saturatingSucc (n : ℕ) : ℕ := min (n + 1) 4294967295

namespace UdpHostilityTracker

def new : UdpHostilityTracker := ⟨0, none, 0, none⟩

variable (s : UdpHostilityTracker)

def noteCarrierFailure (now : ℕ) : UdpHostilityTracker :=
  let failures := saturatingSucc s.carrierFailures
  if carrierFailuresBeforeCooldown ≤ failures then
    { s with carrierFailures := 0, cooldownUntil := some (now + carrierCooldown) }
  else { s with carrierFailures := failures }

def recordSessionEnd (ended : SessionEnd) (now : ℕ) :
    UdpHostilityTracker :=
  let young := decide (ended.lifetime < postHandshakeKillWindow)
  match ended.carrier with
  | .udp =>
    if !young then { s with youngUdpKills := 0, carrierFirstUntil := none }
    else if ended.watchdogForced then
      let kills := saturatingSucc s.youngUdpKills
      { s with
        youngUdpKills := kills
        carrierFirstUntil := if killsBeforeCarrierFirst ≤ kills then some (now + carrierFirstTtl)
          else s.carrierFirstUntil }
    else s
  | .tcp =>
    if !young then
      { s with
        carrierFailures := 0
        carrierFirstUntil := if s.carrierFirstUntil.isSome then some (now + carrierFirstTtl)
          else s.carrierFirstUntil }
    else if ended.watchdogForced then s.noteCarrierFailure now
    else s

def recordSetupTimeout (carrier : Carrier) (now : ℕ) :
    UdpHostilityTracker :=
  match carrier with
  | .udp =>
    { s with
      youngUdpKills := saturatingSucc s.youngUdpKills
      carrierFirstUntil := some (now + carrierFirstTtl) }
  | .tcp => s.noteCarrierFailure now

def preference (now : ℕ) : DialPreference :=
  if s.cooldownUntil.any fun t => decide (now < t) then .race
  else if s.carrierFirstUntil.any fun t => decide (now < t) then .carrierFirst
  else .race

end UdpHostilityTracker

/-! ### Histories -/

inductive Event where
  | sessionEnd (ended : SessionEnd)
  | setupTimeout (carrier : Carrier)
  | carrierDialFailed
  | carrierDialSucceeded

def UdpHostilityTracker.record (s : UdpHostilityTracker) (e : Event) (now : ℕ) :
    UdpHostilityTracker :=
  match e with
  | .sessionEnd ended => s.recordSessionEnd ended now
  | .setupTimeout carrier => s.recordSetupTimeout carrier now
  | .carrierDialFailed => s.noteCarrierFailure now
  | .carrierDialSucceeded => { s with carrierFailures := 0 }

/-- What an event is: a session that outlived the window or was killed young, a setup that timed
out (over UDP), a failure or a success of the carrier. -/
inductive Kind where
  | udpOutlived
  | udpKilled
  | udpTimedOut
  | tcpOutlived
  | carrierFailed
  | carrierSucceeded
  | other
deriving DecidableEq

def Event.kind : Event → Kind
  | .sessionEnd ⟨.udp, lifetime, forced⟩ =>
    if postHandshakeKillWindow ≤ lifetime then .udpOutlived
    else if forced then .udpKilled else .other
  | .sessionEnd ⟨.tcp, lifetime, forced⟩ =>
    if postHandshakeKillWindow ≤ lifetime then .tcpOutlived
    else if forced then .carrierFailed else .other
  | .setupTimeout .udp => .udpTimedOut
  | .setupTimeout .tcp => .carrierFailed
  | .carrierDialFailed => .carrierFailed
  | .carrierDialSucceeded => .carrierSucceeded

/-- The events with their times, the newest first. -/
abbrev History := List (ℕ × Event)

def tracked : History → UdpHostilityTracker
  | [] => .new
  | (now, e) :: past => (tracked past).record e now

/-- The sessions killed young since a UDP session last outlived the window. -/
def kills : History → ℕ
  | [] => 0
  | e :: past =>
    match e.2.kind with
    | .udpOutlived => 0
    | .udpKilled => kills past + 1
    | _ => kills past

def timeouts : History → ℕ
  | [] => 0
  | e :: past =>
    match e.2.kind with
    | .udpOutlived => 0
    | .udpTimedOut => timeouts past + 1
    | _ => timeouts past

/-- The time of the last of them, or of the last carrier session after it that outlived the
window. -/
def lastSign : History → Option ℕ
  | [] => none
  | e :: past =>
    match e.2.kind with
    | .udpOutlived => none
    | .udpKilled | .udpTimedOut => some e.1
    | .tcpOutlived => (lastSign past).map fun _ => e.1
    | _ => lastSign past

/-- The carrier failures in a row, since the carrier last worked or a cooldown last started. -/
def failuresInRow : History → ℕ
  | [] => 0
  | e :: past =>
    match e.2.kind with
    | .carrierFailed => if failuresInRow past = 2 then 0 else failuresInRow past + 1
    | .tcpOutlived | .carrierSucceeded => 0
    | _ => failuresInRow past

/-- When a carrier failure was the third in a row. -/
def thirdFailures : History → List ℕ
  | [] => []
  | e :: past =>
    if e.2.kind = .carrierFailed ∧ failuresInRow past = 2 then e.1 :: thirdFailures past
    else thirdFailures past

variable {s : UdpHostilityTracker}

/-- **What an event does**, by its kind. -/
theorem record_eq (s : UdpHostilityTracker) (e : Event) (now : ℕ) :
    s.record e now = match e.kind with
      | .udpOutlived => { s with youngUdpKills := 0, carrierFirstUntil := none }
      | .udpKilled =>
        { s with
          youngUdpKills := saturatingSucc s.youngUdpKills
          carrierFirstUntil := if 2 ≤ saturatingSucc s.youngUdpKills then
            some (now + carrierFirstTtl) else s.carrierFirstUntil }
      | .udpTimedOut =>
        { s with
          youngUdpKills := saturatingSucc s.youngUdpKills
          carrierFirstUntil := some (now + carrierFirstTtl) }
      | .tcpOutlived =>
        { s with
          carrierFailures := 0
          carrierFirstUntil := s.carrierFirstUntil.map fun _ => now + carrierFirstTtl }
      | .carrierFailed => s.noteCarrierFailure now
      | .carrierSucceeded => { s with carrierFailures := 0 }
      | .other => s := by
  match e with
  | .setupTimeout .udp | .setupTimeout .tcp | .carrierDialFailed | .carrierDialSucceeded => rfl
  | .sessionEnd ⟨carrier, lifetime, forced⟩ =>
    by_cases hlong : postHandshakeKillWindow ≤ lifetime
    · cases carrier <;> cases hfirst : s.carrierFirstUntil <;>
        simp [UdpHostilityTracker.record, UdpHostilityTracker.recordSessionEnd, Event.kind, hlong,
          hfirst]
    · have hyoung := Nat.lt_of_not_le hlong
      cases carrier <;> cases forced <;>
        simp [UdpHostilityTracker.record, UdpHostilityTracker.recordSessionEnd, Event.kind, hlong,
          hyoung]
      rfl

/-! ### What the tracker recalls -/

/-- The fields of a tracker, by what happened. -/
structure Recalls (past : History) (s : UdpHostilityTracker) : Prop where
  signs : s.youngUdpKills ≤ kills past + timeouts past
  armed : ∀ u, s.carrierFirstUntil = some u → 0 < s.youngUdpKills ∧
    (2 ≤ kills past ∨ 0 < timeouts past) ∧ ∃ t, lastSign past = some t ∧ u = t + carrierFirstTtl
  failures : s.carrierFailures = failuresInRow past
  fewFailures : failuresInRow past ≤ 2
  cooldown : ∀ t ∈ thirdFailures past, ∃ u, s.cooldownUntil = some u ∧ t + carrierCooldown ≤ u

variable {past : History}

theorem mem_of_mem_thirdFailures {t : ℕ} (h : t ∈ thirdFailures past) : ∃ e ∈ past, e.1 = t := by
  induction past with
  | nil => cases h
  | cons e past ih =>
    unfold thirdFailures at h
    split at h
    · rcases List.mem_cons.mp h with rfl | h
      · exact ⟨e, List.mem_cons_self, rfl⟩
      · exact (ih h).imp fun _ => And.imp_left (List.mem_cons_of_mem e)
    · exact (ih h).imp fun _ => And.imp_left (List.mem_cons_of_mem e)

/-- **A carrier failure**: the third in a row starts a cooldown, later than those before. -/
theorem Recalls.carrierFailed {e : ℕ × Event} (h : Recalls past s)
    (hk : e.2.kind = .carrierFailed) (hlast : ∀ x ∈ past, x.1 ≤ e.1) :
    Recalls (e :: past) (s.noteCarrierFailure e.1) := by
  have hfew := h.fewFailures
  have hsucc : saturatingSucc s.carrierFailures = failuresInRow past + 1 := by
    rw [h.failures, saturatingSucc]
    omega
  simp only [UdpHostilityTracker.noteCarrierFailure, hsucc, carrierFailuresBeforeCooldown]
  refine ⟨?_, ?_, ?_, ?_, fun t ht => ?_⟩
  · split_ifs <;> simpa [kills, timeouts, hk] using h.signs
  · split_ifs <;> simpa [kills, timeouts, lastSign, hk] using h.armed
  · simp only [failuresInRow, hk]
    split_ifs <;> first | rfl | omega
  · simp only [failuresInRow, hk]
    split_ifs <;> omega
  · split_ifs with hthird
    · obtain ⟨x, hx, rfl⟩ := mem_of_mem_thirdFailures ht
      refine ⟨_, rfl, Nat.add_le_add_right ?_ _⟩
      rcases List.mem_cons.mp hx with rfl | hx
      · exact Nat.le_refl _
      · exact hlast x hx
    · rw [thirdFailures, if_neg fun hand => hthird (by omega)] at ht
      exact h.cooldown t ht

/-- **One event.** -/
theorem Recalls.record (h : Recalls past s) (e : ℕ × Event)
    (hlast : ∀ x ∈ past, x.1 ≤ e.1) : Recalls (e :: past) (s.record e.2 e.1) := by
  have hsat : saturatingSucc s.youngUdpKills ≤ s.youngUdpKills + 1 := Nat.min_le_left _ _
  have hpos : 0 < saturatingSucc s.youngUdpKills := by unfold saturatingSucc; omega
  have hsigns := h.signs
  rw [record_eq]
  cases hk : e.2.kind
  case carrierFailed => exact h.carrierFailed hk hlast
  all_goals
    refine ⟨?_, fun u hu => ?_, ?_, ?_, ?_⟩
    case refine_1 => simp only [kills, timeouts, hk]; omega
    case refine_3 => simp only [failuresInRow, hk, h.failures]
    case refine_4 => simp only [failuresInRow, hk, h.fewFailures, Nat.zero_le]
    case refine_5 => simpa [thirdFailures, hk] using h.cooldown
    simp only [kills, timeouts, lastSign, hk]
    dsimp only at hu
  case udpOutlived => cases hu
  case udpKilled =>
    split at hu
    · cases hu
      exact ⟨hpos, by omega, _, rfl, rfl⟩
    · -- the counter is not at two yet, and an armed one was at one before
      have harmed := (h.armed u hu).1
      unfold saturatingSucc at *
      omega
  case udpTimedOut =>
    cases hu
    exact ⟨hpos, by omega, _, rfl, rfl⟩
  case tcpOutlived =>
    obtain ⟨u', hu', rfl⟩ := Option.map_eq_some_iff.mp hu
    obtain ⟨hkills, henough, t, ht, -⟩ := h.armed u' hu'
    rw [ht]
    exact ⟨hkills, henough, _, rfl, rfl⟩
  all_goals exact h.armed u hu

theorem recalls_tracked (h : past.Pairwise fun e e' => e'.1 ≤ e.1) :
    Recalls past (tracked past) := by
  induction h with
  | nil => exact ⟨Nat.le_refl 0, nofun, rfl, Nat.zero_le 2, fun _ ht => absurd ht List.not_mem_nil⟩
  | cons hlast _ ih => exact ih.record _ hlast

/-- **The carrier is dialled first on evidence.**  After any events at nondecreasing times, the
preference at `now` is the carrier only if there were two young kills or a setup timeout over UDP
since a UDP session last outlived the window; less than 15 minutes have passed since the last of
these, or since a later carrier session that outlived the window; and no carrier failure that was
the third in a row was less than 5 minutes ago. -/
theorem carrier_first_evidence (hpast : past.Pairwise fun e e' => e'.1 ≤ e.1) {now : ℕ}
    (h : (tracked past).preference now = .carrierFirst) :
    (2 ≤ kills past ∨ 1 ≤ timeouts past) ∧
    (∃ t, lastSign past = some t ∧ now < t + carrierFirstTtl) ∧
    ∀ t ∈ thirdFailures past, t + carrierCooldown ≤ now := by
  have hrecalls := recalls_tracked hpast
  unfold UdpHostilityTracker.preference at h
  split at h
  · cases h
  rename_i hcool
  split at h
  · rename_i hfirst
    rcases hu : (tracked past).carrierFirstUntil with _ | u <;> rw [hu] at hfirst
    · cases hfirst
    have hlt : now < u := by simpa using hfirst
    obtain ⟨-, henough, t, ht, heq⟩ := hrecalls.armed u hu
    refine ⟨henough, ⟨t, ht, heq ▸ hlt⟩, fun t' ht' => ?_⟩
    obtain ⟨u', hu', hle⟩ := hrecalls.cooldown t' ht'
    rw [hu'] at hcool
    have hover : u' ≤ now := by simpa using hcool
    exact Nat.le_trans hle hover
  · cases h

def timedOut : History :=
  [(2, .carrierDialFailed), (1, .setupTimeout .tcp), (0, .setupTimeout .udp)]

theorem carrier_first_evidence_timedOut : (tracked timedOut).preference 3 = .carrierFirst ∧
    1 ≤ timeouts timedOut ∧ ∀ t ∈ thirdFailures timedOut, t + carrierCooldown ≤ 3 := by
  have hfirst : (tracked timedOut).preference 3 = .carrierFirst := by decide
  exact ⟨hfirst, by decide, (carrier_first_evidence (by decide) hfirst).2.2⟩

end WarrenGuard.Hostility
