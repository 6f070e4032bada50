/-
When a client that was limited may come back.

A refusal with `RateLimited` names the seconds until the oldest entry of the client's log leaves
the window, rounded up.  An entry leaves the window once it is older than it, not when it is as
old:

* `lt_add_windowResetSecs` — where the rest of the window is not a whole number of seconds, the
  entry has left the window when the seconds are over, and the client is not limited then
  (`retry_after_is_honest`);
* `whole_seconds_bounce` — where nothing is rounded it is limited again.
-/
import WarrenGuard.PortCharges

namespace WarrenGuard.NatPmp

variable {cfg : AllocatorConfig} {g g' : Inner} {req req' : MapRequest} {c : Ipv4Addr}

/-! ### The logs in every reachable state -/

theorem Op.exists_at (o : Op) : ∃ now, o.At now := by
  cases o with
  | takeForSlot => exact ⟨0, trivial⟩
  | _ => exact ⟨_, rfl⟩

/-- **No log is longer than the limit**, whatever the times of the operations. -/
theorem length_clientLog_le (h : Reachable cfg g) (c : Ipv4Addr) :
    (g.clientLog c).length ≤ cfg.rateLimitMax := by
  refine Transition.Reachable.invariant (I := fun g => (g.clientLog c).length ≤ cfg.rateLimitMax)
    ?_ ?_ h
  · rintro g rfl
    exact Nat.zero_le _
  · rintro g g' hle hstep
    cases hstep with
    | op o =>
      obtain ⟨now, hat⟩ := o.exists_at
      exact (logged_apply cfg g hat c).length_le hle
    | reorder => exact hle

theorem suffix_of_uncharged
    (h : Transition.Reachable (· = g) (StepIf cfg fun g o => o.charge cfg g ≠ some c) g') :
    g'.clientLog c <:+ g.clientLog c := by
  refine h.invariant (I := fun g' => g'.clientLog c <:+ g.clientLog c) ?_ ?_
  · rintro g' rfl
    exact List.suffix_rfl
  · rintro s s' hs hstep
    cases hstep with
    | op o ho =>
      obtain ⟨now, hat⟩ := o.exists_at
      have hlogged := logged_apply cfg s hat c
      have hfree : o.spends cfg s c = false :=
        Bool.eq_false_of_not_eq_true fun hspends => ho (charge_of_spends cfg s hspends)
      rw [hfree] at hlogged
      exact hlogged.suffix.trans hs
    | reorder => exact hs

/-! ### The seconds -/

/-- **Where something was rounded up the entry is older than the window** when the
seconds are over. -/
theorem lt_add_windowResetSecs {window elapsed r : ℕ} (hr : windowResetSecs window elapsed = r)
    (hlt : r < 65535) (hoff : ¬ nanosPerSec ∣ window - elapsed) :
    window < elapsed + r * nanosPerSec := by
  have hceil : (window - elapsed + (nanosPerSec - 1)) / nanosPerSec = r := by
    unfold windowResetSecs at hr
    omega
  have hpos : 0 < nanosPerSec := by decide
  have hmod := Nat.mod_lt (window - elapsed + (nanosPerSec - 1)) hpos
  have hdiv := Nat.div_add_mod (window - elapsed + (nanosPerSec - 1)) nanosPerSec
  rw [hceil, Nat.mul_comm] at hdiv
  have hne : window - elapsed ≠ r * nanosPerSec := by
    intro heq
    exact hoff ⟨r, by rw [heq, Nat.mul_comm]⟩
  omega

theorem full_of_limited {liveWired : Bool} {draws : ℕ → ℕ} {answers : DeployerAnswers} {secs : ℕ}
    (h : (tryAllocate cfg liveWired draws g req answers []).1
      = .done (.error (.rateLimited c secs))) :
    cfg.rateLimitMax ≤ (windowLog cfg g req).length ∧
      secs = (windowLog cfg g req).head?.elim 0 fun t =>
        windowResetSecs cfg.rateLimitWindow (req.now - t) := by
  have hwindow : windowLog cfg (g.sweepExpired req.now cfg.cooldown).1 req =
      windowLog cfg g req := by
    rw [windowLog, clientLog_congr (log_of_records (records_sweepExpired g req.now cfg.cooldown))]
    rfl
  rw [← hwindow]
  exact (decideSwept_log cfg liveWired draws _ req answers _).full h

/-- **Retry-after is honest where it was rounded.**  In every reachable state, let a
request at `now` be refused with `RateLimited` and `r` seconds, below the saturation,
where the client's oldest entry in the window was made no later than `now` and has
not a whole number of seconds left in the window.  Whatever happens then, at whatever
times, as long as the client is not charged: no request of the client at `now` plus
`r` seconds is refused with `RateLimited`. -/
theorem retry_after_is_honest (h : Reachable cfg g) (hmax : 1 ≤ cfg.rateLimitMax)
    {liveWired : Bool} {draws : ℕ → ℕ} {answers : DeployerAnswers} {r : ℕ}
    (hrefused : (tryAllocate cfg liveWired draws g req answers []).1
      = .done (.error (.rateLimited req.clientIp r))) (hr : r < 65535)
    (hoff : ∀ t, (windowLog cfg g req).head? = some t →
      t ≤ req.now ∧ ¬ nanosPerSec ∣ cfg.rateLimitWindow - (req.now - t))
    (hrun : Transition.Reachable (· = (tryAllocate cfg liveWired draws g req answers []).2.1)
      (StepIf cfg fun g o => o.charge cfg g ≠ some req.clientIp) g')
    (hclient : req'.clientIp = req.clientIp) (hnow : req'.now = req.now + r * nanosPerSec)
    (liveWired' : Bool) (draws' : ℕ → ℕ) (answers' : DeployerAnswers) (c : Ipv4Addr) (secs : ℕ) :
    (tryAllocate cfg liveWired' draws' g' req' answers' []).1
      ≠ .done (.error (.rateLimited c secs)) := by
  intro hagain
  obtain ⟨hfull, hsecs⟩ := full_of_limited hrefused
  obtain ⟨hfull', -⟩ := full_of_limited hagain
  have hle := length_clientLog_le h req.clientIp
  -- the refused pass trims the log at most, and so does all that follows
  have hrefusal : (tryAllocate cfg liveWired draws g req answers []).2.1.clientLog req.clientIp
      <:+ g.clientLog req.clientIp := by
    have hlogged := logged_apply cfg g (o := .pass liveWired draws req answers) rfl req.clientIp
    have hfree : (Op.pass liveWired draws req answers).spends cfg g req.clientIp = false := by
      dsimp only [Op.spends]
      rw [hrefused]
      exact Bool.and_false _
    rw [hfree] at hlogged
    exact hlogged.suffix
  have hsuffix := (suffix_of_uncharged hrun).trans hrefusal
  have hwindow := SlidingWindow.trim_suffix req.now cfg.rateLimitWindow (g.clientLog req.clientIp)
  have hwindow' : windowLog cfg g' req'
      = SlidingWindow.trim req'.now cfg.rateLimitWindow (g'.clientLog req.clientIp) := by
    rw [windowLog, hclient]
    rfl
  rw [hwindow'] at hfull'
  -- so all these logs are the full one that the refusal was about
  have hfirst : windowLog cfg g req = g.clientLog req.clientIp :=
    hwindow.eq_of_length (Nat.le_antisymm hwindow.length_le (hle.trans hfull))
  have hlast : g'.clientLog req.clientIp = g.clientLog req.clientIp :=
    hsuffix.eq_of_length (Nat.le_antisymm hsuffix.length_le
      (hle.trans (hfull'.trans (SlidingWindow.trim_suffix _ _ _).length_le)))
  rw [hfirst] at hoff hsecs hfull
  rw [hlast] at hfull'
  cases hhead : (g.clientLog req.clientIp).head? with
  | none =>
    rw [List.head?_eq_none_iff.mp hhead, List.length_nil] at hfull
    omega
  | some t =>
    -- and its oldest entry has left the window
    obtain ⟨hle', hoff'⟩ := hoff t hhead
    rw [hhead, Option.elim_some] at hsecs
    have hold := lt_add_windowResetSecs hsecs.symm hr hoff'
    have hage : cfg.rateLimitWindow < req'.now - t := by
      rw [hnow]
      omega
    have hshort := SlidingWindow.length_trim_lt hhead hage
    omega

def probeAt (now : ℕ) : MapRequest := ⟨1, .tcp, 80, 1, clampLifetime 3600, now⟩

def fullWindow : Inner :=
  (List.replicate 12 (Op.pass false id (probeAt 0) (alone 1))).foldl
    (Op.apply .warrenDefault) Inner.empty

theorem reachable_fullWindow : Reachable .warrenDefault fullWindow :=
  reachable_foldl .warrenDefault _ (.start rfl)

/-- A nanosecond later the client is told to wait a minute, and is not limited then. -/
theorem retry_after_is_honest_fullWindow :
    (tryAllocate .warrenDefault false id fullWindow (probeAt 1) (alone 1) []).1
      = .done (.error (.rateLimited 1 60)) ∧
    ∀ c secs, (tryAllocate .warrenDefault false id
        (tryAllocate .warrenDefault false id fullWindow (probeAt 1) (alone 1) []).2.1
        (probeAt (1 + 60 * nanosPerSec)) (alone 1) []).1
      ≠ .done (.error (.rateLimited c secs)) := by
  have hrefused : (tryAllocate .warrenDefault false id fullWindow (probeAt 1) (alone 1) []).1
      = .done (.error (.rateLimited 1 60)) := by decide +kernel
  have hoff : ∀ t, (windowLog .warrenDefault fullWindow (probeAt 1)).head? = some t →
      t ≤ (probeAt 1).now ∧ ¬ nanosPerSec ∣ AllocatorConfig.warrenDefault.rateLimitWindow
        - ((probeAt 1).now - t) := by
    intro t ht
    obtain rfl : 0 = t := Option.some.inj ht
    decide
  have hclient : (probeAt (1 + 60 * nanosPerSec)).clientIp = (probeAt 1).clientIp := rfl
  exact ⟨hrefused, retry_after_is_honest reachable_fullWindow (by decide) hrefused (by decide) hoff
    (.start rfl) hclient rfl false id (alone 1)⟩

/-- **A whole number of seconds is not enough.**  At time 0 the client is told to wait a
minute, and after exactly a minute it is limited again, although nothing happened
in between: its entries are as old as the window and not older. -/
theorem whole_seconds_bounce : ∃ g req r, Reachable .warrenDefault g ∧
    (tryAllocate .warrenDefault false id g req (alone 1) []).1
      = .done (.error (.rateLimited req.clientIp r)) ∧ r < 65535 ∧
    (tryAllocate .warrenDefault false id
        (tryAllocate .warrenDefault false id g req (alone 1) []).2.1
        { req with now := req.now + r * nanosPerSec } (alone 1) []).1
      = .done (.error (.rateLimited req.clientIp 0)) := by
  refine ⟨fullWindow, probeAt 0, 60, reachable_fullWindow, ?_⟩
  decide +kernel

end WarrenGuard.NatPmp
