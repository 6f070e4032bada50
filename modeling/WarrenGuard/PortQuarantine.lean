/-
A port reported for abuse is out of reach until its quarantine ends.

Several ways to a port never look at the quarantines: the other leg of a port the client holds, a
renewal, a reclaim from a departed peer.  They do not have to: the report takes both legs off the
table, and from then on nothing can put one back (`Quarantined`):

* `Quarantined.revoke` — a report establishes it;
* `Quarantined.not_granted`, `Quarantined.apply` — no pass grants the port meanwhile, and every
  operation but a restore keeps it;
* `quarantined_port_not_granted` — so it is until the deadline of the report.
-/
import WarrenGuard.PortTimers

namespace WarrenGuard.NatPmp

def Op.NoRestore : Op → Prop
  | .restore _ _ => False
  | _ => True

/-- **A port in quarantine** until `deadline`: no leg of it is held, and its
quarantine runs at least that long. -/
structure Quarantined (p deadline : ℕ) (g : Inner) : Prop where
  wf : Wf g
  free : ∀ proto, g.active.lookup (p, proto) = none
  closed : ∃ u, g.timers.quarantine.lookup p = some u ∧ deadline ≤ u

variable {cfg : AllocatorConfig} {g g' s : Inner} {p deadline now : ℕ} {o : Op}
  {draws : ℕ → ℕ} {req : MapRequest} {answers : DeployerAnswers} {reclaim : Bool}
  {a : Allocation} {active : Table Slot Allocation}

theorem Quarantined.owner (h : Quarantined p deadline g) : portOwner g p = none :=
  portOwner_eq_none.mpr ⟨h.free .tcp, h.free .udp⟩

theorem free_of_lookup (h : ∀ proto, g.active.lookup (p, proto) = none)
    (hsub : ∀ slot a, g'.active.lookup slot = some a → g.active.lookup slot = some a)
    (proto : Proto) : g'.active.lookup (p, proto) = none := by
  rcases hl : g'.active.lookup (p, proto) with _ | a
  · rfl
  · have hl' := hsub _ _ hl
    rw [h proto] at hl'
    cases hl'

/-- **No pass grants a port in quarantine**, whichever way it looks for one. -/
theorem Quarantined.not_granted (h : Quarantined p deadline s) (hnow : req.now < deadline)
    (hgrant : Granted cfg draws s req answers reclaim a active) : a.externalPort ≠ p := by
  rintro rfl
  obtain ⟨tenant, htenant⟩ := hgrant.exists_tenant
  have hfree := h.owner
  rcases hgrant.source h.wf htenant with hown | ⟨holder, -, hheld⟩ | ⟨-, hopen⟩
  · rw [hfree] at hown
    cases hown
  · rw [hfree] at hheld
    cases hheld
  · obtain ⟨u, hu, hle⟩ := h.closed
    have hover := hopen.clean u hu
    omega

theorem Quarantined.effectiveSuggestion (h : Quarantined p deadline s) (hnow : req.now < deadline)
    (hsug : req.suggested = p) : effectiveSuggestion s req = 0 := by
  obtain ⟨u, hu, hle⟩ := h.closed
  have hlive : (s.abuseQuarantineUntil.lookup req.suggested).any
      (fun t => decide (req.now < t)) = true := by
    rw [hsug, show s.abuseQuarantineUntil.lookup p = some u from hu, Option.any_some]
    exact decide_eq_true (hnow.trans_le hle)
  exact if_pos hlive

theorem names_true (g) (o : Op) : o.Names (fun _ _ => True) g := by
  cases o with
  | release alloc t => exact fun _ _ => trivial
  | _ => exact trivial

theorem Quarantined.sweepExpired (h : Quarantined p deadline g) (hnow : now < deadline) :
    Quarantined p deadline (g.sweepExpired now cfg.cooldown).1 := by
  have hsteps : Timers.Steps now cfg.cooldown (fun _ _ => True) g.timers
      (g.sweepExpired now cfg.cooldown).1.timers := steps_sweepExpired (fun _ _ _ _ => trivial) ..
  exact ⟨h.wf.sweepExpired now cfg.cooldown,
    free_of_lookup h.free fun slot a hl => h.wf.lookup_of_sweep hl, hsteps.quarantine h.closed hnow⟩

/-- **Every operation but a restore leaves a port in quarantine.** -/
theorem Quarantined.apply (h : Quarantined p deadline g) (hat : o.At now) (ho : o.NoRestore)
    (hnow : now < deadline) : Quarantined p deadline (o.apply cfg g) := by
  have hsteps := steps_apply (fun _ _ _ _ => trivial) cfg hat (names_true g o)
  refine ⟨h.wf.apply cfg o, ?_, hsteps.quarantine h.closed hnow⟩
  rcases o.removes_or with hrem | ⟨liveWired, draws, req, answers, rfl⟩ | ⟨entries, t, rfl⟩
  · exact free_of_lookup h.free (shrinks_apply cfg g hrem).lookup
  · obtain rfl := hat
    have hs : Quarantined p deadline (g.sweepExpired req.now cfg.cooldown).1 :=
      h.sweepExpired hnow
    intro proto
    rcases hl : (Op.apply cfg g (.pass liveWired draws req answers)).active.lookup (p, proto)
      with _ | b
    · rfl
    · -- a leg of the port would have been there before, or been granted
      rcases (tryAllocate_ends cfg liveWired draws g req answers []).lookup hl with
        hold | ⟨reclaim, hgrant, hslot⟩
      · rw [hs.free proto] at hold
        cases hold
      · exact absurd (Prod.mk.inj hslot).1.symm (hs.not_granted hnow hgrant)
  · exact absurd ho id

/-! ### The report -/

theorem lookup_takeSlot (g : Inner) (slot slot' : Slot) (deadline) :
    (g.takeSlot slot deadline).1.active.lookup slot'
      = if slot' = slot then none else g.active.lookup slot' := by
  unfold Inner.takeSlot
  split
  · exact Table.lookup_erase' _ _ _
  · rename_i hnone
    split
    · rename_i heq
      rw [heq, hnone]
    · rfl

theorem lookup_takePort (g) (port deadline : ℕ) (proto : Proto) :
    (takePort g port deadline).1.active.lookup (port, proto) = none := by
  show (((g.takeSlot (port, .tcp) deadline).1.takeSlot (port, .udp) deadline).1.active.lookup
    (port, proto)) = none
  rw [lookup_takeSlot, lookup_takeSlot]
  cases proto with
  | tcp => simp
  | udp => simp

/-- **A report puts its port in quarantine**, for as long as it says but no longer
than a year. -/
theorem Quarantined.revoke (hwf : Wf g) {d t : ℕ} (hd : t < t + min d maxAbuseQuarantine) :
    Quarantined p (t + min d maxAbuseQuarantine) (Op.apply cfg g (.revokeForAbuse p d t)) := by
  refine ⟨hwf.apply cfg _, fun proto => lookup_takePort _ p _ proto, ?_⟩
  -- the report writes the deadline, and taking the legs leaves it
  have htaken := freed_takePort { g with abuseQuarantineUntil :=
    (g.timers.report p (t + min d maxAbuseQuarantine)).quarantine } p (t + cfg.cooldown)
  have hsteps : Timers.Steps t cfg.cooldown (fun _ _ => True) _ _ :=
    Freed.steps (fun _ _ _ _ => trivial) (.refl _) htaken
  exact hsteps.quarantine (Lasts.of_insert_max g.timers.quarantine p _) hd

theorem decideSwept_ne_inUse {liveWired : Bool} {evicted : List Allocation}
    (hzero : effectiveSuggestion s req = 0) (q : ℕ) :
    (decideSwept cfg liveWired draws s req answers evicted).1
      ≠ .done (.error (.suggestedPortInUse q)) := by
  -- the pre-check passes such a request, so the only refusals left are the others
  have hpre : precheck cfg liveWired s req (effectiveSuggestion s req) answers
      = (.pass false, s) := by
    unfold precheck
    rw [if_pos hzero]
  have hpass := decideSwept_pass cfg liveWired draws s req answers evicted
  generalize decideSwept .. = r at hpass ⊢
  rintro h
  cases hpass with
  | asks => cases h
  | refused _ hwhy =>
    cases h
    rw [hpre] at hwhy
    rcases hwhy with hrefuse | ⟨secs, hlimited⟩
    · cases hrefuse
    · cases hlimited
  | dropped _ hwhy =>
    cases h
    rcases hwhy with hquota | hexhausted
    · cases hquota
    · cases hexhausted
  | granted => cases h

theorem Quarantined.step (h : Quarantined p deadline g)
    (hstep : TimedStep cfg (fun _ => Op.NoRestore) now g g') (hnow : now < deadline) :
    Quarantined p deadline g' := by
  cases hstep with
  | op o ho => exact h.apply ho.1 ho.2 hnow
  | reorder entries hperm =>
    have hs := shrinks_reorder g entries hperm
    exact ⟨h.wf.shrink hs, free_of_lookup h.free hs.lookup, h.closed⟩

/-- **Abuse quarantine.**  In every run without a restore, at times that never go
back: after a report on `p` at `t` for the time `d`, whatever else happens and
whatever other reports on `p` come in between, no request made before
`t + min d maxAbuseQuarantine` is granted `p`, and none that suggests `p` is refused
because `p` is in use. -/
theorem quarantined_port_not_granted {x z : Transition.Clocked Inner} {d t : ℕ}
    (hx : Run cfg (fun _ => Op.NoRestore) fresh x)
    (hz : Run cfg (fun _ => Op.NoRestore)
      ⟨Op.apply cfg x.state (.revokeForAbuse p d t), t⟩ z)
    (liveWired : Bool) (draws : ℕ → ℕ) (req : MapRequest) (answers : DeployerAnswers)
    (hclock : z.clock ≤ req.now) (hnow : req.now < t + min d maxAbuseQuarantine) :
    (∀ a, (tryAllocate cfg liveWired draws z.state req answers []).1 = .done (.ok a) →
      a.externalPort ≠ p) ∧
    (req.suggested = p → (tryAllocate cfg liveWired draws z.state req answers []).1
      ≠ .done (.error (.suggestedPortInUse p))) := by
  have hwf : Wf x.state := hx.from_now_on (P := fun y => Wf y.state) Wf.empty
    fun y y' hy hstep => hy.stepIf hstep.2
  have hlasts : t < t + min d maxAbuseQuarantine :=
    (hz.clock_le.trans hclock).trans_lt hnow
  have hz' : Quarantined p (t + min d maxAbuseQuarantine) z.state :=
    hz.until (P := fun y => Quarantined p (t + min d maxAbuseQuarantine) y.state)
      (.revoke hwf hlasts) (fun y y' hy hstep hlt => hy.step hstep.2 hlt) (hclock.trans_lt hnow)
  have hs : Quarantined p (t + min d maxAbuseQuarantine)
      (z.state.sweepExpired req.now cfg.cooldown).1 := hz'.sweepExpired hnow
  refine ⟨fun a ha => ?_, fun hsug => ?_⟩
  · have hends := tryAllocate_ends cfg liveWired draws z.state req answers []
    rw [ha] at hends
    cases hends with
    | granted hpre hgrant => exact hs.not_granted hnow hgrant
  · -- the suggestion is dropped, so the request is served as if it had made none
    exact decideSwept_ne_inUse (hs.effectiveSuggestion hnow hsug) p

/-- A client that asks for a reported port is given another one. -/
theorem quarantined_port_not_granted_report : ∃ a,
    (tryAllocate .warrenDefault false id
      (Op.apply .warrenDefault fresh.state (.revokeForAbuse 49152 nanosPerSec 0))
      ⟨1, .tcp, 80, 49152, clampLifetime 60, 1⟩ ⟨some {1}, some 1, none⟩ []).1 = .done (.ok a) ∧
    a.externalPort ≠ 49152 := by
  have hx : Run .warrenDefault (fun _ => Op.NoRestore) fresh fresh := .start rfl
  have hgranted := (quarantined_port_not_granted (p := 49152) hx (.start rfl) false id
    ⟨1, .tcp, 80, 49152, clampLifetime 60, 1⟩ ⟨some {1}, some 1, none⟩ (Nat.zero_le 1)
    (by decide : 1 < 0 + min nanosPerSec maxAbuseQuarantine)).1
  exact ⟨_, rfl, hgranted _ rfl⟩

end WarrenGuard.NatPmp
