/-
Since when a port was held, for an abuse report.

A report on a port returns, with each of its mappings, since when the port has been held.  The
record `held_since` outlives its mapping, until the next request trims it.  So each way to a
mapping has to say whether it goes on with the record or starts one:

* `grantSince` — a grant goes on with it if the port was just held by the tenant;
* `HeldFrom` — the record of a port that a tenant holds is not older than an instant at which the
  tenant did not hold it; every operation keeps this (`HeldFrom.apply`), if what is restored to a
  free port finds no record of it: `held_since_after_unheld`.

A restore goes on with whatever record it finds: `restore_inherits_held_since`.
-/
import WarrenGuard.PortRateLimit

namespace WarrenGuard.NatPmp

variable {ι : Type*} {cfg : AllocatorConfig} {part : Ipv4Addr → ι} {g g' s : Inner}
  {req : MapRequest} {answers : DeployerAnswers} {liveWired : Bool} {draws : ℕ → ℕ}
  {evicted : List Allocation} {p now t : ℕ} {ip : Ipv4Addr}

/-- `ip` is of the tenant that holds a leg of `port`. -/
def Holds (part : Ipv4Addr → ι) (g : Inner) (port : ℕ) (ip : Ipv4Addr) : Prop :=
  ∃ proto a, g.active.lookup (port, proto) = some a ∧ part ip = part a.internalIp

/-! ### The record of a pass -/

theorem heldSince_of_records (h : g'.records = g.records) : g'.heldSince = g.heldSince :=
  congrArg (fun r => r.2.1) h

variable {a : Allocation} {port : ℕ}

theorem Granted.lookup_self {reclaim : Bool} {active : Table Slot Allocation}
    (h : Granted cfg draws s req answers reclaim a active) :
    active.lookup (a.externalPort, req.proto) = some a := by
  obtain ⟨-, -, -, -, -⟩ := h
  exact AList.lookup_insert _

/-- **A grant goes on only with a holding of the tenant**; otherwise it starts one. -/
theorem Granted.since (hwf : Wf s) (hans : AnswersTenant part req.clientIp answers)
    {reclaim : Bool} {active : Table Slot Allocation}
    (h : Granted cfg draws s req answers reclaim a active) :
    grantSince s req (effectiveSuggestion s req) reclaim a.externalPort = req.now ∨
      Holds part s a.externalPort req.clientIp ∧ s.heldSince.lookup a.externalPort
        = some (grantSince s req (effectiveSuggestion s req) reclaim a.externalPort) := by
  unfold grantSince
  cases hrecord : s.heldSince.lookup a.externalPort with
  | none => exact .inl rfl
  | some since =>
    dsimp only
    split
    · rename_i hgoes
      refine .inr ⟨?_, rfl⟩
      simp only [Bool.or_eq_true, decide_eq_true_eq] at hgoes
      rcases hgoes with (hlast | hreclaim) | howner
      · obtain ⟨m, hlook, -, hip, -⟩ := mem_sameTuple.mp (mem_sameTuple_of_lastHeld hlast)
        exact ⟨req.proto, m, hlook, by rw [hip]⟩
      · -- a reclaim takes over from a peer
        subst hreclaim
        obtain ⟨passes, -, -, -, chosen⟩ := h
        cases passes with
        | reclaim hne _ howner _ htenant hmem =>
          obtain ⟨-, rfl⟩ := chosen.resolve_right fun hzero => hne hzero.1
          obtain ⟨proto, m, hlook, rfl⟩ := exists_of_portOwner howner
          exact ⟨proto, m, hlook, ((hans _ htenant _).mp hmem).symm⟩
      · have hs := hwf.owner_of_shrinks
          (shrinks_grantBase s req (effectiveSuggestion s req) reclaim) howner
        obtain ⟨proto, m, hlook, hip⟩ := exists_of_portOwner hs
        exact ⟨proto, m, hlook, by rw [hip]⟩
    · exact .inl rfl

/-! ### The record of a port that a tenant holds -/

/-- **The record is not older than `t`**, as long as the tenant of `ip` holds the port. -/
structure HeldFrom (part : Ipv4Addr → ι) (p t : ℕ) (ip : Ipv4Addr) (g : Inner) : Prop where
  wf : Wf g
  from_le : Holds part g p ip → ∀ since, g.heldSince.lookup p = some since → t ≤ since

theorem Holds.of_shrinks (hs : Shrinks g g') (h : Holds part g' p ip) : Holds part g p ip := by
  obtain ⟨proto, a, hl, hpart⟩ := h
  exact ⟨proto, a, hs.lookup _ a hl, hpart⟩

theorem HeldFrom.of_shrinks (h : HeldFrom part p t ip g) (hs : Shrinks g g')
    (hrecord : ∀ since, g'.heldSince.lookup p = some since → g.heldSince.lookup p = some since) :
    HeldFrom part p t ip g' :=
  ⟨h.wf.shrink hs, fun hheld since hl => h.from_le (hheld.of_shrinks hs) since (hrecord since hl)⟩

theorem HeldFrom.sweepExpired (h : HeldFrom part p t ip g) (now cooldown : ℕ) :
    HeldFrom part p t ip (g.sweepExpired now cooldown).1 := by
  refine ⟨h.wf.sweepExpired now cooldown, ?_⟩
  rintro ⟨proto, a, hl, hpart⟩ since hrecord
  rw [heldSince_of_records (records_sweepExpired g now cooldown)] at hrecord
  exact h.from_le ⟨proto, a, h.wf.lookup_of_sweep hl, hpart⟩ since hrecord

theorem heldSince_revokeForAbuseAt (cfg g) (port quarantine now : ℕ) :
    (revokeForAbuseAt cfg g port quarantine now).1.heldSince = g.heldSince.erase port := by
  unfold revokeForAbuseAt
  dsimp only
  generalize g.abuseQuarantineUntil.insert port _ = quarantined
  rw [heldSince_of_records
    (freed_takePort { g with abuseQuarantineUntil := quarantined } port _).records]

theorem heldSince_of_removes (cfg g) {o : Op} (ho : o.Removes)
    {since : ℕ} (h : (o.apply cfg g).heldSince.lookup p = some since) :
    g.heldSince.lookup p = some since := by
  cases o with
  | trim t =>
    have h' := (Table.lookup_retain _ _ p).symm.trans h
    exact (Option.filter_eq_some_iff.mp h').1
  | pass => exact absurd ho id
  | restore => exact absurd ho id
  | revokeForAbuse port quarantine t =>
    change (revokeForAbuseAt cfg g port quarantine t).1.heldSince.lookup p = some since at h
    rw [heldSince_revokeForAbuseAt, Table.lookup_erase'] at h
    split at h
    · cases h
    · exact h
  | rateLimitStatus clientIp t =>
    change (rateLimitStatusAt cfg g clientIp t).2.heldSince.lookup p = some since at h
    obtain ⟨log, hlog⟩ := rateLimitStatusAt_withLog cfg g clientIp t
    rw [hlog] at h
    exact h
  | release | releaseByClient | takeForIp | takeForPort | takeForSlot =>
    rw [heldSince_of_records (records_apply cfg g ?_)] at h
    · exact h
    · trivial

/-- **A pass keeps it.** -/
theorem HeldFrom.pass (h : HeldFrom part p t ip s) (hle : t ≤ req.now)
    (hans : AnswersTenant part req.clientIp answers) (liveWired draws evicted) :
    HeldFrom part p t ip (decideSwept cfg liveWired draws s req answers evicted).2.1 := by
  have hwf := h.wf.decideSwept cfg liveWired draws req answers evicted
  have hpass := decideSwept_pass cfg liveWired draws s req answers evicted
  generalize decideSwept .. = r at hwf hpass ⊢
  refine ⟨hwf, fun ⟨proto, b, hl, hpart⟩ since hrecord => ?_⟩
  cases hpass with
  | asks => exact h.from_le ⟨proto, b, hl, hpart⟩ since hrecord
  | refused => exact h.from_le ⟨proto, b, hl, hpart⟩ since hrecord
  | dropped => exact h.from_le ⟨proto, b, lookup_of_lookup_dropTuple hl, hpart⟩ since hrecord
  | @granted reclaim a base _ _ hgrant _ _ hheld =>
    change base.heldSince.lookup p = some since at hrecord
    rw [hheld, Table.lookup_insert'] at hrecord
    by_cases hp : p = a.externalPort
    · -- both legs of the port are now the client's
      subst hp
      rw [if_pos rfl] at hrecord
      obtain rfl := Option.some.inj hrecord
      have howner := hwf.single _ proto b hl
      rw [hwf.single _ req.proto a hgrant.lookup_self, hgrant.internalIp] at howner
      rw [← Option.some.inj howner] at hpart
      rcases hgrant.since h.wf hans with hnow | ⟨⟨proto', m, hl', hpart'⟩, hold⟩
      · rw [hnow]
        exact hle
      · exact h.from_le ⟨proto', m, hl', hpart.trans hpart'⟩ _ hold
    · rw [if_neg hp] at hrecord
      rcases hgrant.lookup hl with ⟨hslot, -⟩ | hl'
      · exact absurd (Prod.mk.inj hslot).1 hp
      · exact h.from_le ⟨proto, b, lookup_of_lookup_dropTuple hl', hpart⟩ since hrecord

/-! ### Restoring -/

/-- What is restored to a port that nobody holds finds no record of it. -/
def Op.RestoresUnrecorded (g : Inner) : Op → Prop
  | .restore entries _ => ∀ e ∈ entries, portOwner g e.externalPort = none →
      g.heldSince.lookup e.externalPort = none
  | _ => True

theorem HeldFrom.restoreEntry {acc : Inner × List Allocation} (h : HeldFrom part p t ip acc.1)
    (hle : t ≤ now) {entry : Allocation}
    (hfresh : portOwner acc.1 entry.externalPort = none →
      acc.1.heldSince.lookup entry.externalPort = none) :
    HeldFrom part p t ip (restoreEntry now acc entry).1 := by
  refine ⟨h.wf.restoreEntry now entry, ?_⟩
  rcases restoreEntry_cases now acc entry with heq | ⟨heq, -, -, hown⟩
  · rw [heq]
    exact h.from_le
  · have hwf := h.wf.restoreEntry now entry
    rw [heq] at hwf ⊢
    rintro ⟨proto, b, hl, hpart⟩ since hrecord
    change (acc.1.heldSince.insert entry.externalPort
      ((acc.1.heldSince.lookup entry.externalPort).getD now)).lookup p = some since at hrecord
    rw [Table.lookup_insert'] at hrecord
    by_cases hp : p = entry.externalPort
    · subst hp
      rw [if_pos rfl] at hrecord
      obtain rfl := Option.some.inj hrecord
      cases hold : acc.1.heldSince.lookup entry.externalPort with
      | none => exact hle
      | some since =>
        -- the port is held already, and by the client whose mapping this is
        have howner := hwf.single _ proto b hl
        rw [hwf.single _ entry.proto entry (by rw [lookup_insertActive, if_pos rfl])] at howner
        rw [← Option.some.inj howner] at hpart
        cases hheld : portOwner acc.1 entry.externalPort with
        | none =>
          rw [hfresh hheld] at hold
          cases hold
        | some owner =>
          obtain ⟨proto', m, hl', hip⟩ := exists_of_portOwner hheld
          rw [← hown owner hheld, ← hip] at hpart
          exact h.from_le ⟨proto', m, hl', hpart⟩ since hold
    · rw [if_neg hp] at hrecord
      rw [lookup_insertActive, if_neg fun hslot => hp (Prod.mk.inj hslot).1] at hl
      exact h.from_le ⟨proto, b, hl, hpart⟩ since hrecord

theorem unrecorded_restoreEntry {acc : Inner × List Allocation}
    (h : portOwner acc.1 port = none → acc.1.heldSince.lookup port = none) (entry : Allocation) :
    portOwner (restoreEntry now acc entry).1 port = none →
      (restoreEntry now acc entry).1.heldSince.lookup port = none := by
  rcases restoreEntry_cases now acc entry with heq | ⟨heq, -⟩
  · rw [heq]
    exact h
  · rw [heq]
    intro hfree
    by_cases hp : port = entry.externalPort
    · have htaken : ((acc.1.recordRestored now entry).insertActive entry).active.lookup
          (port, entry.proto) = some entry := by rw [lookup_insertActive, if_pos (by rw [hp])]
      obtain ⟨owner, howner⟩ := exists_portOwner htaken
      rw [hfree] at howner
      cases howner
    · rw [portOwner_insertActive hp] at hfree
      show (acc.1.heldSince.insert entry.externalPort _).lookup port = none
      rw [Table.lookup_insert', if_neg hp]
      exact h hfree

theorem HeldFrom.restoreAt (h : HeldFrom part p t ip g) (hle : t ≤ now) {entries : List Allocation}
    (hfresh : ∀ e ∈ entries, portOwner g e.externalPort = none →
      g.heldSince.lookup e.externalPort = none) :
    HeldFrom part p t ip (restoreAt g entries now).1 := by
  refine (restoreAt_induction (P := fun acc => HeldFrom part p t ip acc.1 ∧
    ∀ e ∈ entries, portOwner acc.1 e.externalPort = none →
      acc.1.heldSince.lookup e.externalPort = none) ⟨h, hfresh⟩ ?_).1
  rintro acc entry hentry ⟨hacc, hfree⟩
  exact ⟨hacc.restoreEntry hle (hfree entry hentry),
    fun e he => unrecorded_restoreEntry (hfree e he) entry⟩

/-! ### Runs -/

/-- Requests are answered with their own tenant, and what is restored to a free port
finds no record of it. -/
def Op.Accountable (part : Ipv4Addr → ι) (g : Inner) (o : Op) : Prop :=
  o.Answered part ∧ o.RestoresUnrecorded g

theorem HeldFrom.apply (h : HeldFrom part p t ip g) {o : Op} (hat : o.At now) (hle : t ≤ now)
    (ho : o.Accountable part g) : HeldFrom part p t ip (o.apply cfg g) := by
  rcases o.removes_or with hrem | ⟨liveWired, draws, req, answers, rfl⟩ | ⟨entries, now', rfl⟩
  · exact h.of_shrinks (shrinks_apply cfg g hrem) fun _ => heldSince_of_removes cfg g hrem
  · obtain rfl := hat
    exact (h.sweepExpired req.now cfg.cooldown).pass hle ho.1 liveWired draws _
  · obtain rfl := hat
    exact h.restoreAt hle ho.2

theorem HeldFrom.step (h : HeldFrom part p t ip g) (hle : t ≤ now)
    (hstep : TimedStep cfg (Op.Accountable part) now g g') : HeldFrom part p t ip g' := by
  cases hstep with
  | op o ho => exact h.apply ho.1 hle ho.2
  | reorder entries hperm => exact h.of_shrinks (shrinks_reorder g entries hperm) fun _ hl => hl

theorem wf_of_run {ok : Inner → Op → Prop} {x : Transition.Clocked Inner}
    (h : Run cfg ok fresh x) : Wf x.state :=
  h.from_now_on (P := fun y => Wf y.state) .empty fun _ _ hy hstep => hy.stepIf hstep.2

theorem mem_takeSlot {slot : Slot} {deadline : ℕ}
    (h : a ∈ (g.takeSlot slot deadline).2) : g.active.lookup slot = some a := by
  unfold Inner.takeSlot at h
  split at h
  · rename_i b hb
    rw [List.mem_singleton.mp h]
    exact hb
  · cases h

theorem mem_takePort {port deadline : ℕ} (h : a ∈ (takePort g port deadline).2) :
    ∃ proto, g.active.lookup (port, proto) = some a := by
  rcases List.mem_append.mp h with htcp | hudp
  · exact ⟨.tcp, mem_takeSlot htcp⟩
  · exact ⟨.udp, (shrinks_takeSlot g (port, .tcp) deadline).lookup _ a (mem_takeSlot hudp)⟩

/-- **What a report returns**: mappings of the port, each with the port's record. -/
theorem mem_revokeForAbuseAt {since quarantine : ℕ}
    (h : (a, since) ∈ (revokeForAbuseAt cfg g p quarantine now).2) :
    (∃ proto, g.active.lookup (p, proto) = some a) ∧
      since = (g.heldSince.lookup p).getD now := by
  unfold revokeForAbuseAt at h
  dsimp only at h
  generalize g.abuseQuarantineUntil.insert p _ = quarantined at h
  have htaken := freed_takePort { g with abuseQuarantineUntil := quarantined } p
  rw [heldSince_of_records (htaken _).records] at h
  obtain ⟨b, hb, heq⟩ := List.mem_map.mp h
  obtain ⟨rfl, rfl⟩ := Prod.mk.inj heq
  obtain ⟨proto, hl⟩ := mem_takePort hb
  exact ⟨⟨proto, hl⟩, rfl⟩

/-- **No report blames an earlier holder's time.**  In every run at times that never go
back, where requests are answered with their own tenant and what is restored to a free
port finds no record of it: at whatever instant before a report a port was not held by
the tenant of a mapping that the report returns, the time returned with the mapping
is not earlier. -/
theorem held_since_after_unheld {x y : Transition.Clocked Inner}
    (hx : Run cfg (Op.Accountable part) fresh x) {a : Allocation} {since quarantine : ℕ}
    (hunheld : ¬ Holds part x.state p a.internalIp) (hy : Run cfg (Op.Accountable part) x y)
    (hnow : y.clock ≤ now)
    (hrevoked : (a, since) ∈ (revokeForAbuseAt cfg y.state p quarantine now).2) :
    x.clock ≤ since := by
  have hstart : HeldFrom part p x.clock a.internalIp x.state :=
    ⟨wf_of_run hx, fun hheld => absurd hheld hunheld⟩
  have hclock := hy.clock_le
  have hfrom : x.clock ≤ y.clock ∧ HeldFrom part p x.clock a.internalIp y.state :=
    hy.from_now_on (P := fun y => x.clock ≤ y.clock ∧
      HeldFrom part p x.clock a.internalIp y.state) ⟨le_rfl, hstart⟩
      fun _ _ hz hstep => ⟨hz.1.trans hstep.1, hz.2.step (hz.1.trans hstep.1) hstep.2⟩
  obtain ⟨⟨proto, hl⟩, rfl⟩ := mem_revokeForAbuseAt hrevoked
  cases hrecord : y.state.heldSince.lookup p with
  | none => exact hclock.trans hnow
  | some since => exact hfrom.2.from_le ⟨proto, a, hl, rfl⟩ since hrecord

theorem Run.idle {ok : Inner → Op → Prop} {x y : Transition.Clocked Inner} (h : Run cfg ok x y)
    (hle : y.clock ≤ now) : Run cfg ok x ⟨y.state, now⟩ :=
  h.next ⟨hle, .reorder y.state.active.entries (List.Perm.refl _)⟩

def mappedLater : Transition.Clocked Inner :=
  ⟨(asks 1 49152 2).apply .warrenDefault Inner.empty, 2⟩

/-- A nanosecond before that the port was free; a report returns the mapping as held
since it was made. -/
theorem held_since_after_unheld_mappedLater :
    (⟨49152, 1, 80, .tcp, 2 + clampLifetime 60⟩, 2)
        ∈ (revokeForAbuseAt .warrenDefault mappedLater.state 49152 0 3).2 ∧ 1 ≤ 2 := by
  have hrevoked : (⟨49152, 1, 80, .tcp, 2 + clampLifetime 60⟩, 2)
      ∈ (revokeForAbuseAt .warrenDefault mappedLater.state 49152 0 3).2 := by decide
  have hx : Run .warrenDefault (Op.Accountable id) fresh ⟨Inner.empty, 1⟩ :=
    Run.idle (.start rfl) (by decide)
  have hy : Run .warrenDefault (Op.Accountable id) ⟨Inner.empty, 1⟩ mappedLater :=
    Run.op (.start rfl) (by decide) rfl ⟨answersTenant_alone 1, trivial⟩
  refine ⟨hrevoked, held_since_after_unheld hx ?_ hy (by decide) hrevoked⟩
  rintro ⟨proto, a, hl, -⟩
  cases hl

def keptMapping : Allocation := ⟨49152, 2, 80, .tcp, clampLifetime 60⟩

/-- **A restore inherits the record of an earlier holder.**  The client at 1 maps the port
49152 at time 0 and releases it at time 1; at time 2 a mapping of the client at 2 on
the port is restored.  A report then returns this mapping as held since time 0,
when the port was held by the client at 1. -/
theorem restore_inherits_held_since : ∃ x y : Transition.Clocked Inner,
    Run .warrenDefault (fun _ => Op.Answered id) fresh x ∧
    Run .warrenDefault (fun _ => Op.Answered id) x y ∧
    ∃ p a since, ¬ Holds id x.state p a.internalIp ∧
      (a, since) ∈ (revokeForAbuseAt .warrenDefault y.state p 0 y.clock).2 ∧
      since < x.clock := by
  have hgranted : Run .warrenDefault (fun _ => Op.Answered id) fresh granted :=
    Run.op (.start rfl) le_rfl rfl (answersTenant_alone 1)
  have hreleased : Run .warrenDefault (fun _ => Op.Answered id) fresh released :=
    hgranted.op (by decide) rfl trivial
  have hrestored : Run .warrenDefault (fun _ => Op.Answered id) released
      ⟨(Op.restore [keptMapping] 2).apply .warrenDefault released.state, 2⟩ :=
    Run.op (.start rfl) (by decide) rfl trivial
  have hfree : ∀ proto, released.state.active.lookup (49152, proto) = none := by
    intro proto
    cases proto <;> decide
  refine ⟨_, _, hreleased, hrestored, 49152, keptMapping, 0, ?_, by decide, by decide⟩
  rintro ⟨proto, a, hl, -⟩
  rw [hfree proto] at hl
  cases hl

end WarrenGuard.NatPmp
