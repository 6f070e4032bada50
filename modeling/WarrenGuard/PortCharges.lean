/-
The rate limit of a client, over whole runs.

A client is to be charged for a port number it does not hold and for a suggestion that is
rejected, and at most `rate_limit_max` times in any interval as long as the window.  The code
charges for a request that is no refresh.

* `Granted.unheld`, `Granted.held` — these are the ports the client does not hold, if every
  refresh keeps a port of its client (`KeepsHeldPort`), in maps whose held ports are in order
  (`Tame`);
* `rate_limit_per_window` — in runs where this is so the limit holds; `moves_escape_rate_limit` —
  a refresh that moves its mapping pays nothing.
-/
import WarrenGuard.PortRateLimit

namespace WarrenGuard.NatPmp

variable {cfg : AllocatorConfig} {g g' s : Inner} {req : MapRequest} {answers : DeployerAnswers}
  {now : ℕ}

/-! ### What the client is charged for -/

/-- Whether a pass on the live maps `s` that ends so charges its client: it is granted a
port number that the client does not hold, or its suggestion is rejected. -/
def Step.charges (s : Inner) (clientIp : Ipv4Addr) : Step → Bool
  | .done (.ok a) => decide (portOwner s a.externalPort ≠ some clientIp)
  | .done (.error (.suggestedPortInUse _)) => true
  | _ => false

/-- The client an operation charges. -/
def Op.charge (cfg : AllocatorConfig) (g : Inner) : Op → Option Ipv4Addr
  | .pass liveWired draws req answers =>
    if (tryAllocate cfg liveWired draws g req answers []).1.charges
        (g.sweepExpired req.now cfg.cooldown).1 req.clientIp then some req.clientIp else none
  | _ => none

section

variable {draws : ℕ → ℕ} {reclaim : Bool} {a : Allocation} {active : Table Slot Allocation}

/-- **What the code charges for is a port the client does not hold.** -/
theorem Granted.unheld (h : Granted cfg draws s req answers reclaim a active)
    (hacq : acquiresNewPort s req (effectiveSuggestion s req) = true) :
    portOwner s a.externalPort ≠ some req.clientIp := by
  unfold acquiresNewPort at hacq
  simp only [Bool.not_not, Bool.and_eq_true, Bool.not_eq_true', Bool.and_eq_false_iff,
    decide_eq_false_iff_not, List.isEmpty_iff] at hacq
  obtain ⟨hnil, hnot⟩ := hacq
  obtain ⟨-, -, -, -, chosen⟩ := h
  rename_i tenant budget port
  show portOwner s port ≠ some req.clientIp
  rcases chosen with ⟨hne, rfl⟩ | ⟨hzero, hpick⟩
  · exact hnot.resolve_left fun h => h hne
  · -- without a mapping to renew there is no port to reuse
    have hlast : lastHeld s req = none := by
      rw [lastHeld, hnil]
      rfl
    rw [hlast, Option.getD_none] at hpick
    obtain ⟨-, ⟨-, hne, -⟩ | heligible⟩ := pickPort_eq_some hpick
    · exact absurd rfl hne
    · have hfree : portOwner s port = none := by
        have howner := portOwner_of_portEligible heligible
        unfold portOwner at howner ⊢
        rwa [dropTuple_of_nil hnil] at howner
      rw [hfree]
      intro hsome
      cases hsome

/-- **A refresh that keeps a port of its client**: it suggests one, or it suggests none
and the port held last can be taken again. -/
def KeepsHeldPort (s : Inner) (req : MapRequest) : Prop :=
  effectiveSuggestion s req ≠ 0 ∧ portOwner s (effectiveSuggestion s req) = some req.clientIp ∨
    effectiveSuggestion s req = 0 ∧ ∃ p, lastHeld s req = some p ∧ p ≠ 0 ∧
      KeepsPort s req.clientIp req.proto p req.now

/-- **Maps whose held ports are in order**: in the range and not under quarantine. -/
structure Tame (cfg : AllocatorConfig) (now : ℕ) (g : Inner) : Prop where
  wf : Wf g
  inRange : ∀ slot a, g.active.lookup slot = some a → portInRange cfg slot.1 = true
  clean : ∀ slot a, g.active.lookup slot = some a →
    ∀ u, g.abuseQuarantineUntil.lookup slot.1 = some u → u ≤ now

/-- What the code does not charge for is a port the client holds, if a refresh keeps its
port. -/
theorem Granted.held (hs : Tame cfg req.now s)
    (h : Granted cfg draws s req answers reclaim a active)
    (hkeeps : sameTuple s req ≠ [] → KeepsHeldPort s req)
    (hacq : acquiresNewPort s req (effectiveSuggestion s req) = false) :
    portOwner s a.externalPort = some req.clientIp := by
  have hown : effectiveSuggestion s req ≠ 0 ∧
      portOwner s (effectiveSuggestion s req) = some req.clientIp →
      portOwner s a.externalPort = some req.clientIp := by
    rintro ⟨hne, howner⟩
    obtain ⟨-, -, -, -, chosen⟩ := h
    obtain ⟨-, rfl⟩ := chosen.resolve_right fun hzero => hne hzero.1
    exact howner
  by_cases hnil : sameTuple s req = []
  · refine hown ?_
    simpa [acquiresNewPort, hnil] using hacq
  · rcases hkeeps hnil with howner | ⟨hzero, p, hlast, hne, hkeep⟩
    · exact hown howner
    · have hmem := mem_sameTuple_of_lastHeld hlast
      obtain ⟨m, hlook, -, hip, -⟩ := mem_sameTuple.mp hmem
      have hport := (h.renews_iff hs.wf hzero hlast hne (hs.inRange _ m hlook)
        (hs.clean _ m hlook)).mpr hkeep
      rw [hport, hs.wf.single p req.proto m hlook, hip]

end

/-! ### The held ports stay in order -/

theorem Tame.mono (h : Tame cfg now g) {now' : ℕ} (hle : now ≤ now') : Tame cfg now' g :=
  ⟨h.wf, h.inRange, fun slot a hl u hu => (h.clean slot a hl u hu).trans hle⟩

theorem Tame.empty (cfg now) : Tame cfg now Inner.empty where
  wf := .empty
  inRange _ _ h := by cases h
  clean _ _ h := by cases h

theorem Tame.of_shrinks (h : Tame cfg now g) (hs : Shrinks g g')
    (hquarantine : ∀ slot a u, g'.active.lookup slot = some a →
      g'.abuseQuarantineUntil.lookup slot.1 = some u →
      g.abuseQuarantineUntil.lookup slot.1 = some u) : Tame cfg now g' where
  wf := h.wf.shrink hs
  inRange slot a hl := h.inRange slot a (hs.lookup slot a hl)
  clean slot a hl u hu := h.clean slot a (hs.lookup slot a hl) u (hquarantine slot a u hl hu)

theorem Tame.sweepExpired (h : Tame cfg now g) :
    Tame cfg now (g.sweepExpired now cfg.cooldown).1 where
  wf := h.wf.sweepExpired now cfg.cooldown
  inRange slot a hl := h.inRange slot a (h.wf.lookup_of_sweep hl)
  clean slot a hl u hu := by
    rw [quarantine_of_records (records_sweepExpired ..)] at hu
    exact h.clean slot a (h.wf.lookup_of_sweep hl) u hu

theorem Tame.owned (h : Tame cfg now g) {p : ℕ} {owner : Ipv4Addr}
    (howner : portOwner g p = some owner) : portInRange cfg p = true ∧
      ∀ u, g.abuseQuarantineUntil.lookup p = some u → u ≤ now := by
  obtain ⟨proto, b, hl, -⟩ := exists_of_portOwner howner
  exact ⟨h.inRange _ b hl, h.clean _ b hl⟩

variable {c : Ipv4Addr} {o : Op}

/-- An operation that only removes mappings brings no held port into quarantine: a
report takes the legs of its port. -/
theorem quarantine_of_removes (cfg g) (ho : o.Removes)
    {slot : Slot} {a : Allocation} {u : ℕ} (hl : (o.apply cfg g).active.lookup slot = some a)
    (hu : (o.apply cfg g).abuseQuarantineUntil.lookup slot.1 = some u) :
    g.abuseQuarantineUntil.lookup slot.1 = some u := by
  cases o with
  | trim t =>
    have hu' := (Table.lookup_retain _ _ slot.1).symm.trans hu
    exact (Option.filter_eq_some_iff.mp hu').1
  | pass => exact absurd ho id
  | restore => exact absurd ho id
  | revokeForAbuse port quarantine t =>
    have hne : slot.1 ≠ port := by
      rintro rfl
      have hnone : (Op.apply cfg g (.revokeForAbuse slot.1 quarantine t)).active.lookup slot
          = none := lookup_takePort _ slot.1 _ slot.2
      rw [hnone] at hl
      cases hl
    change (revokeForAbuseAt cfg g port quarantine t).1.abuseQuarantineUntil.lookup slot.1
      = some u at hu
    unfold revokeForAbuseAt at hu
    dsimp only at hu
    rw [quarantine_of_records (freed_takePort _ port _).records] at hu
    rwa [Table.lookup_insert', if_neg hne] at hu
  | rateLimitStatus clientIp t =>
    change (rateLimitStatusAt cfg g clientIp t).2.abuseQuarantineUntil.lookup slot.1 = some u at hu
    obtain ⟨log, hlog⟩ := rateLimitStatusAt_withLog cfg g clientIp t
    rw [hlog] at hu
    exact hu
  | release | releaseByClient | takeForIp | takeForPort | takeForSlot =>
    rw [quarantine_of_records (records_apply cfg g ?_)] at hu
    · exact hu
    · trivial

/-- **A request for a live tuple keeps a port of its client, and what is restored is in
the range and not under quarantine.** -/
def Op.Steady (cfg : AllocatorConfig) (g : Inner) : Op → Prop
  | .pass _ _ req _ => sameTuple (g.sweepExpired req.now cfg.cooldown).1 req ≠ [] →
      KeepsHeldPort (g.sweepExpired req.now cfg.cooldown).1 req
  | .restore entries t => ∀ e ∈ entries, portInRange cfg e.externalPort = true ∧
      ∀ u, g.abuseQuarantineUntil.lookup e.externalPort = some u → u ≤ t
  | _ => True

theorem Tame.granted {draws : ℕ → ℕ} {reclaim : Bool} {a : Allocation}
    {active : Table Slot Allocation} (h : Tame cfg req.now s)
    (hgrant : Granted cfg draws s req answers reclaim a active) :
    ∀ u, s.abuseQuarantineUntil.lookup a.externalPort = some u → u ≤ req.now := by
  obtain ⟨tenant, htenant⟩ := hgrant.exists_tenant
  rcases hgrant.source h.wf htenant with hown | ⟨holder, -, hheld⟩ | ⟨-, hopen⟩
  · exact (h.owned hown).2
  · exact (h.owned hheld).2
  · exact hopen.clean

theorem Tame.apply (h : Tame cfg now g) (hat : o.At now) (ho : o.Steady cfg g) :
    Tame cfg now (o.apply cfg g) := by
  rcases o.removes_or with hrem | ⟨liveWired, draws, req, answers, rfl⟩ | ⟨entries, t, rfl⟩
  · exact h.of_shrinks (shrinks_apply cfg g hrem) fun slot a u hl hu =>
      quarantine_of_removes cfg g hrem hl hu
  · obtain rfl := hat
    have hs : Tame cfg req.now (g.sweepExpired req.now cfg.cooldown).1 := h.sweepExpired
    have hends := tryAllocate_ends cfg liveWired draws g req answers []
    have hquarantine : (tryAllocate cfg liveWired draws g req answers []).2.1.abuseQuarantineUntil
        = (g.sweepExpired req.now cfg.cooldown).1.abuseQuarantineUntil :=
      congrArg (fun d => d.2.1) (decideSwept_pass cfg liveWired draws _ req answers _).deadlines_eq
    refine ⟨h.wf.apply cfg _, fun slot a hl => ?_, fun slot a hl u hu => ?_⟩
    · rcases hends.lookup hl with hold | ⟨reclaim, hgrant, rfl⟩
      · exact hs.inRange slot a hold
      · exact hgrant.inRange.1
    · change (tryAllocate cfg liveWired draws g req answers []).2.1.abuseQuarantineUntil.lookup
        slot.1 = some u at hu
      rw [hquarantine] at hu
      rcases hends.lookup hl with hold | ⟨reclaim, hgrant, rfl⟩
      · exact hs.clean slot a hold u hu
      · exact hs.granted hgrant u hu
  · obtain rfl := hat
    refine ⟨h.wf.apply cfg _, fun slot a hl => ?_, fun slot a hl u hu => ?_⟩
    · rcases lookup_restoreAt hl with hold | ⟨hmem, rfl, -⟩
      · exact h.inRange slot a hold
      · exact (ho a hmem).1
    · change (restoreAt g entries t).1.abuseQuarantineUntil.lookup slot.1 = some u at hu
      rw [(restoreAt_frame g entries t).1] at hu
      rcases lookup_restoreAt hl with hold | ⟨hmem, rfl, -⟩
      · exact h.clean slot a hold u hu
      · exact (ho a hmem).2 u hu

/-! ### Runs with their charges -/

structure Audited where
  inner : Inner
  charges : List (Ipv4Addr × ℕ)

def chargeTimes (c : Ipv4Addr) (charges : List (Ipv4Addr × ℕ)) : List ℕ :=
  (charges.filter fun e => decide (e.1 = c)).map Prod.snd

def Audited.record (cfg : AllocatorConfig) (now : ℕ) (x : Audited) (o : Op) : Audited :=
  ⟨o.apply cfg x.inner, x.charges ++ ((o.charge cfg x.inner).map (·, now)).toList⟩

/-- A step at `now` whose operation `ok` allows, or another iteration order of the hash
map. -/
inductive AuditStep (cfg : AllocatorConfig) (ok : Inner → Op → Prop) (now : ℕ) (x : Audited) :
    Audited → Prop
  | op (o : Op) (hat : o.At now) (hok : ok x.inner o) :
      AuditStep cfg ok now x (x.record cfg now o)
  | reorder (entries : List (Σ _ : Slot, Allocation)) (h : x.inner.active.entries.Perm entries) :
      AuditStep cfg ok now x
        ⟨x.inner.withActive (Table.reorder x.inner.active entries h), x.charges⟩

def AuditedRun (cfg : AllocatorConfig) (ok : Inner → Op → Prop) :
    Transition.Clocked Audited → Prop :=
  Transition.Reachable (· = ⟨⟨Inner.empty, []⟩, 0⟩) (Transition.Later (AuditStep cfg ok))

theorem chargeTimes_append (c) (charges charges' : List (Ipv4Addr × ℕ)) :
    chargeTimes c (charges ++ charges') = chargeTimes c charges ++ chargeTimes c charges' := by
  simp [chargeTimes]

theorem chargeTimes_charge (c) (charged : Option Ipv4Addr) (now) :
    chargeTimes c (charged.map (·, now)).toList = if charged = some c then [now] else [] := by
  cases charged with
  | none => rfl
  | some c' => by_cases hc : c' = c <;> simp [chargeTimes, hc]

section

variable {liveWired : Bool} {draws : ℕ → ℕ} {step : Step} {active : Table Slot Allocation}

/-- **The code charges for nothing else.** -/
theorem PassEnds.charges_of_spends (h : PassEnds cfg liveWired draws s req answers step active)
    (hspends : step.spends (acquiresNewPort s req (effectiveSuggestion s req)) = true) :
    step.charges s req.clientIp = true := by
  cases h with
  | asks => exact hspends
  | refused error => cases error <;> exact hspends
  | dropped error => cases error <;> exact hspends
  | granted _ hgrant => exact decide_eq_true (hgrant.unheld hspends)

/-- **Where refreshes keep their port the code charges for all that is to be charged.** -/
theorem PassEnds.spends_of_charges (h : PassEnds cfg liveWired draws s req answers step active)
    (hs : Tame cfg req.now s) (hkeeps : sameTuple s req ≠ [] → KeepsHeldPort s req)
    (hcharges : step.charges s req.clientIp = true) :
    step.spends (acquiresNewPort s req (effectiveSuggestion s req)) = true := by
  cases h with
  | asks => exact hcharges
  | refused error => cases error <;> exact hcharges
  | dropped error => cases error <;> exact hcharges
  | granted _ hgrant =>
    by_contra hfree
    exact of_decide_eq_true hcharges (hgrant.held hs hkeeps (Bool.eq_false_of_not_eq_true hfree))

end

theorem charge_of_spends (cfg g) (h : o.spends cfg g c = true) : o.charge cfg g = some c := by
  cases o with
  | pass liveWired draws req answers =>
    obtain ⟨hc, hspends⟩ := (Bool.and_eq_true _ _).mp h
    obtain rfl := of_decide_eq_true hc
    exact if_pos ((tryAllocate_ends cfg liveWired draws g req answers []).charges_of_spends hspends)
  | _ => cases h

theorem Tame.spends_of_charge (h : Tame cfg now g) (hat : o.At now) (ho : o.Steady cfg g)
    (hcharge : o.charge cfg g = some c) :
    o.spends cfg g c = true := by
  cases o with
  | pass liveWired draws req answers =>
    obtain rfl := hat
    obtain ⟨hcharged, hc⟩ := Option.ite_none_right_eq_some.mp hcharge
    obtain rfl := Option.some.inj hc
    have hspends := (tryAllocate_ends cfg liveWired draws g req answers []).spends_of_charges
      h.sweepExpired ho hcharged
    exact Bool.and_eq_true_iff.mpr ⟨decide_eq_true rfl, hspends⟩
  | _ => cases hcharge

/-- **A request on a port of its own**: the renewal of a mapping, on the port it suggests
or without a suggestion, or the other leg of a port that its client holds. -/
def OnOwnPort (s : Inner) (req : MapRequest) : Prop :=
  req.suggested = 0 ∧ sameTuple s req ≠ [] ∨
    req.suggested ≠ 0 ∧ portOwner s req.suggested = some req.clientIp ∧
      (s.active.lookup (req.suggested, req.proto) = none ∨
        (req.suggested, req.proto) ∈ sameTuple s req)

theorem OnOwnPort.passes (hs : Tame cfg req.now s) (h : OnOwnPort s req) (liveWired : Bool)
    (answers) :
    precheck cfg liveWired s req (effectiveSuggestion s req) answers = (.pass false, s) ∧
      acquiresNewPort s req (effectiveSuggestion s req) = false := by
  rcases h with ⟨hzero, hlive⟩ | ⟨hne, howner, hslot⟩
  · have hnone := effectiveSuggestion_of_none s hzero
    refine ⟨by rw [precheck, if_pos hnone], ?_⟩
    simp [acquiresNewPort, hlive]
  · obtain ⟨hin, hclean⟩ := hs.owned howner
    have hsuggested : effectiveSuggestion s req = req.suggested := by
      refine if_neg fun hany => ?_
      rw [Option.any_eq_true] at hany
      obtain ⟨u, hu, hlt⟩ := hany
      have hle := hclean u hu
      have hlt' := of_decide_eq_true hlt
      omega
    have hcheap : cheapGrantable cfg s req req.suggested answers = .ok true := by
      unfold cheapGrantable
      rw [if_pos (by simp [hin, howner])]
      rcases hslot with hfree | hmem
      · rw [hfree]
        simp [howner]
      · obtain ⟨m, hlook, -, hip, hport⟩ := mem_sameTuple.mp hmem
        rw [hlook]
        simp [hip, hport]
    rw [hsuggested]
    refine ⟨?_, by simp [acquiresNewPort, hne, howner]⟩
    rw [precheck, if_neg hne, hcheap]
    dsimp only
    rw [reclaimFromDepartedPeer_of_cheap]
    rfl

/-- **A request on a port of its own is not limited.** -/
theorem OnOwnPort.not_limited (hs : Tame cfg req.now s) (h : OnOwnPort s req) (liveWired : Bool)
    (draws : ℕ → ℕ) (answers) (evicted : List Allocation) (c)
    (secs : ℕ) : (decideSwept cfg liveWired draws s req answers evicted).1
      ≠ .done (.error (.rateLimited c secs)) := by
  obtain ⟨hpre, hacq⟩ := h.passes hs liveWired answers
  rw [decideSwept, hpre]
  dsimp only [decidePassed, decidePaid]
  rw [hacq, Bool.false_and, if_neg Bool.false_ne_true]
  split
  · rename_i tenant budget _ _
    dsimp only
    rcases hgrant : grant cfg draws (trimToPay cfg s req (effectiveSuggestion s req)) req
      (effectiveSuggestion s req) false false tenant budget evicted with ⟨result, g', evicted'⟩
    intro heq
    exact (grant_log (fun _ => rfl) (fun h => by cases h) hgrant).2 c secs (Step.done.inj heq)
  · intro heq
    cases heq

/-! ### The limit -/

structure Audit (cfg : AllocatorConfig) (now : ℕ) (x : Audited) : Prop where
  tame : Tame cfg now x.inner
  sound : ∀ c, SlidingWindow.Sound cfg.rateLimitWindow cfg.rateLimitMax now
    (chargeTimes c x.charges) (x.inner.clientLog c)

theorem Audit.step {x y : Audited} {now' : ℕ} (h : Audit cfg now x) (hle : now ≤ now')
    (hstep : AuditStep cfg (Op.Steady cfg) now' x y) : Audit cfg now' y := by
  have htame := h.tame.mono hle
  cases hstep with
  | op o hat hok =>
    refine ⟨htame.apply hat hok, fun c => ?_⟩
    rw [Audited.record, chargeTimes_append, chargeTimes_charge]
    have hsound := (logged_apply cfg x.inner hat c).sound ((h.sound c).later hle)
    have hiff : o.spends cfg x.inner c = true ↔ o.charge cfg x.inner = some c :=
      ⟨charge_of_spends cfg x.inner, htame.spends_of_charge hat hok⟩
    rwa [if_congr hiff rfl rfl] at hsound
  | reorder entries hperm =>
    have hs := shrinks_reorder x.inner entries hperm
    exact ⟨htame.of_shrinks hs fun _ _ _ _ hu => hu, fun c => (h.sound c).later hle⟩

theorem audit_of_run {x : Transition.Clocked Audited} (h : AuditedRun cfg (Op.Steady cfg) x) :
    Audit cfg x.clock x.state :=
  h.from_now_on (P := fun y => Audit cfg y.clock y.state)
    ⟨.empty cfg 0, fun _ => .nil _ _ _⟩ fun _ _ hy hstep => hy.step hstep.1 hstep.2

/-- **The rate limit.**  In every run at times that never go back, where requests for a
live tuple keep a port of their client and what is restored is in the range and not
under quarantine: in any closed interval as long as the window a client is charged
at most `rate_limit_max` times, and no pass of a request on a port of its own is
refused with `RateLimited`. -/
theorem rate_limit_per_window {x : Transition.Clocked Audited}
    (h : AuditedRun cfg (Op.Steady cfg) x) (c : Ipv4Addr) :
    (∀ lo, (SlidingWindow.within lo cfg.rateLimitWindow (chargeTimes c x.state.charges)).length
      ≤ cfg.rateLimitMax) ∧
    ∀ (liveWired : Bool) (draws : ℕ → ℕ) (req : MapRequest) (answers : DeployerAnswers),
      x.clock ≤ req.now → req.clientIp = c →
      OnOwnPort (x.state.inner.sweepExpired req.now cfg.cooldown).1 req → ∀ secs,
        (tryAllocate cfg liveWired draws x.state.inner req answers []).1
          ≠ .done (.error (.rateLimited c secs)) := by
  have haudit := audit_of_run h
  refine ⟨(haudit.sound c).bounded, fun liveWired draws req answers hclock _ hown secs => ?_⟩
  exact hown.not_limited (haudit.tame.mono hclock).sweepExpired liveWired draws answers _ c secs

def renewedOnce : Audited :=
  [Op.pass false id ⟨1, .tcp, 80, 49152, clampLifetime 3600, 0⟩ (alone 1),
    Op.pass false id ⟨1, .tcp, 80, 49152, clampLifetime 3600, 0⟩ (alone 1)].foldl
      (Audited.record .warrenDefault 0) ⟨Inner.empty, []⟩

theorem auditedRun_renewedOnce :
    AuditedRun .warrenDefault (Op.Steady .warrenDefault) ⟨renewedOnce, 0⟩ := by
  have hfirst : AuditedRun .warrenDefault (Op.Steady .warrenDefault)
      ⟨Audited.record .warrenDefault 0 ⟨Inner.empty, []⟩ (.pass false id
        ⟨1, .tcp, 80, 49152, clampLifetime 3600, 0⟩ (alone 1)), 0⟩ :=
    .next (.start rfl) ⟨le_rfl, .op _ rfl fun hlive => absurd rfl hlive⟩
  refine hfirst.next ⟨le_rfl, .op _ rfl fun _ => .inl ?_⟩
  decide

theorem rate_limit_per_window_renewed :
    (∀ lo, (SlidingWindow.within lo (60 * nanosPerSec)
      (chargeTimes 1 renewedOnce.charges)).length ≤ 12) ∧
    ∀ secs, (tryAllocate .warrenDefault false id renewedOnce.inner
        ⟨1, .tcp, 80, 49152, clampLifetime 3600, 0⟩ (alone 1) []).1
      ≠ .done (.error (.rateLimited 1 secs)) := by
  obtain ⟨hbound, hopen⟩ := rate_limit_per_window auditedRun_renewedOnce 1
  refine ⟨hbound, hopen false id _ _ le_rfl rfl (.inr ?_)⟩
  decide

theorem AuditedRun.foldl {now : ℕ} (ops : List Op) (hat : ∀ o ∈ ops, o.At now) {x : Audited}
    (h : AuditedRun cfg (fun _ _ => True) ⟨x, now⟩) :
    AuditedRun cfg (fun _ _ => True) ⟨ops.foldl (Audited.record cfg now) x, now⟩ := by
  induction ops generalizing x with
  | nil => exact h
  | cons o ops ih =>
    exact ih (fun o' ho' => hat o' (List.mem_cons_of_mem o ho'))
      (h.next ⟨le_rfl, .op o (hat o List.mem_cons_self) trivial⟩)

def movingRequests (n : ℕ) : List Op :=
  (List.range n).map fun i =>
    .pass false id ⟨1, .tcp, 80, 49152 + i, clampLifetime 3600, 0⟩ (alone 1)

/-- **A client that keeps moving its mapping pays once.**  Thirteen requests for one
tuple, all at time 0, each suggesting another free port: every one is granted a
port number the client does not hold, and only the first is in the log. -/
theorem moves_escape_rate_limit : ∃ x, AuditedRun .warrenDefault (fun _ _ => True) x ∧
    ∃ c lo, AllocatorConfig.warrenDefault.rateLimitMax
      < (SlidingWindow.within lo AllocatorConfig.warrenDefault.rateLimitWindow
          (chargeTimes c x.state.charges)).length ∧
      (x.state.inner.clientLog c).length = 1 := by
  have hat : ∀ o ∈ movingRequests 13, o.At 0 := by
    intro o ho
    obtain ⟨i, -, rfl⟩ := List.mem_map.mp ho
    rfl
  refine ⟨_, AuditedRun.foldl (movingRequests 13) hat (.start rfl), 1, 0, ?_⟩
  decide

end WarrenGuard.NatPmp
