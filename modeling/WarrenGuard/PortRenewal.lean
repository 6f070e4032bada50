/-
When a renewal keeps its port.

A request without a suggestion for a tuple that is already mapped drops the tuple's mapping and
takes its port again, through `pick_port`, "so the public mapping stays stable".  By then the port
looks free, unless its other leg is still mapped, and is judged by its cooldown and by its last
user.  Both are left by whatever was done to the other leg before.

* `KeepsPort` — the other leg is mapped, or nothing bars the client from the port;
* `Granted.renews_iff`, `renewal_keeps_port_iff` — a pass, and a request, grants the port again
  exactly then;
* `released_leg_moves_renewal` — the release of the other leg moves the port.
-/
import WarrenGuard.PortQuestions

namespace WarrenGuard.NatPmp

def Proto.other : Proto → Proto
  | .tcp => .udp
  | .udp => .tcp

/-- **What a renewal of `p` needs**: the other leg of the port is mapped, or the port
does not cool down at `now` and is not remembered as one the client gave up. -/
def KeepsPort (s : Inner) (clientIp : Ipv4Addr) (proto : Proto) (p now : ℕ) : Prop :=
  (s.active.lookup (p, proto.other)).isSome = true ∨
    (∀ t, s.cooldownUntil.lookup p = some t → t ≤ now) ∧
      ∀ last, s.lastUserPerPort.lookup p = some last → last.1 = clientIp → last.2 ≤ now

variable {cfg : AllocatorConfig} {draws : ℕ → ℕ} {g s : Inner} {req : MapRequest} {p : ℕ}
  {answers : DeployerAnswers}

/-! ### The port once the tuple is dropped -/

theorem lookup_dropTuple_legs (h : (p, req.proto) ∈ sameTuple s req) :
    (dropTuple s req).active.lookup (p, req.proto) = none ∧
      (dropTuple s req).active.lookup (p, req.proto.other)
        = s.active.lookup (p, req.proto.other) := by
  refine ⟨by rw [lookup_dropTuple, if_pos h], ?_⟩
  rw [lookup_dropTuple, if_neg]
  intro hmem
  obtain ⟨-, -, hproto, -⟩ := mem_sameTuple.mp hmem
  cases hreq : req.proto <;> rw [hreq] at hproto <;> cases hproto

theorem portOwner_of_leg (proto : Proto) (h : g.active.lookup (p, proto) = none) :
    portOwner g p = (g.active.lookup (p, proto.other)).map Allocation.internalIp := by
  cases proto with
  | tcp =>
    unfold portOwner
    rw [h, Option.none_or]
    rfl
  | udp =>
    unfold portOwner
    rw [h, Option.or_none]
    rfl

theorem reusable_iff (hwf : Wf s) (h : (p, req.proto) ∈ sameTuple s req)
    (hquarantine : ∀ t, s.abuseQuarantineUntil.lookup p = some t → t ≤ req.now) :
    (portOwner (dropTuple s req) p = some req.clientIp ∨
        portEligible (dropTuple s req) p req.clientIp req.now none = true) ↔
      KeepsPort s req.clientIp req.proto p req.now := by
  obtain ⟨hdropped, hother⟩ := lookup_dropTuple_legs h
  have howner := portOwner_of_leg req.proto hdropped
  rw [hother] at howner
  unfold KeepsPort
  cases hleg : s.active.lookup (p, req.proto.other) with
  | some b =>
    -- by the ownership invariant the other leg is the client's
    obtain ⟨a, hlook, -, hip, -⟩ := mem_sameTuple.mp h
    have hsame : b.internalIp = a.internalIp := Option.some.inj
      ((hwf.single p _ b hleg).symm.trans (hwf.single p _ a hlook))
    rw [howner, hleg, Option.map_some, hsame, hip]
    simp
  | none =>
    have hfree : portOwner (dropTuple s req) p = none := by
      rw [howner, hleg]
      rfl
    obtain ⟨htcp, hudp⟩ := portOwner_eq_none.mp hfree
    rw [hfree]
    unfold portEligible
    rw [htcp, hudp]
    have hopen : ((dropTuple s req).abuseQuarantineUntil.lookup p).any
        (fun t => decide (req.now < t)) = false := by
      rw [Option.any_eq_false]
      intro t ht
      simpa using hquarantine t ht
    rw [hopen]
    have hcool : (dropTuple s req).cooldownUntil = s.cooldownUntil := rfl
    have hlast : (dropTuple s req).lastUserPerPort = s.lastUserPerPort := rfl
    simp only [hcool, hlast, Option.isSome_none, Bool.or_self, Bool.false_eq_true, if_false,
      Option.any_none, Bool.and_eq_true, Option.all_eq_true, Bool.or_eq_true, decide_eq_true_eq,
      reduceCtorEq, false_or, Ne, imp_iff_not_or]

theorem pickPort_eq_reuse_iff {proto : Proto} {clientIp : Ipv4Addr} {now q : ℕ} (hne : p ≠ 0)
    (hin : portInRange cfg p = true) (hslot : g.active.lookup (p, proto) = none)
    (h : pickPort cfg draws g proto p clientIp now = some q) :
    q = p ↔ portOwner g p = some clientIp ∨ portEligible g p clientIp now none = true := by
  constructor
  · rintro rfl
    obtain ⟨-, ⟨-, -, howner⟩ | heligible⟩ := pickPort_eq_some h
    · exact .inl howner
    · exact .inr heligible
  · intro hreuse
    unfold pickPort at h
    rw [if_pos] at h
    · exact (Option.some.inj h).symm
    · simpa [hne, hin, hslot] using hreuse

/-! ### A renewal -/

/-- **A pass that renews keeps the port exactly if nothing bars it.** -/
theorem Granted.renews_iff {reclaim : Bool} {a : Allocation} {active : Table Slot Allocation}
    (h : Granted cfg draws s req answers reclaim a active) (hwf : Wf s)
    (hzero : effectiveSuggestion s req = 0) (hheld : lastHeld s req = some p) (hne : p ≠ 0)
    (hin : portInRange cfg p = true)
    (hquarantine : ∀ t, s.abuseQuarantineUntil.lookup p = some t → t ≤ req.now) :
    a.externalPort = p ↔ KeepsPort s req.clientIp req.proto p req.now := by
  obtain ⟨-, -, -, -, chosen⟩ := h
  obtain ⟨-, hpick⟩ := chosen.resolve_left fun h => h.1 hzero
  have hmem := mem_sameTuple_of_lastHeld hheld
  rw [hheld, Option.getD_some] at hpick
  rw [← reusable_iff hwf hmem hquarantine]
  exact pickPort_eq_reuse_iff hne hin (lookup_dropTuple_legs hmem).1 hpick

theorem effectiveSuggestion_of_none (s : Inner) (h : req.suggested = 0) :
    effectiveSuggestion s req = 0 := by
  unfold effectiveSuggestion
  split
  · rfl
  · exact h

theorem lastHeld_of_only (hmem : (p, req.proto) ∈ sameTuple s req)
    (honly : ∀ q, (q, req.proto) ∈ sameTuple s req → q = p) : lastHeld s req = some p := by
  obtain ⟨q, hq⟩ := Option.isSome_iff_exists.mp
    (lastHeld_isSome (List.ne_nil_of_mem hmem))
  rw [hq, honly q (mem_sameTuple_of_lastHeld hq)]

theorem mem_sameTuple_settled (hwf : Wf g) {now q : ℕ} :
    (q, req.proto) ∈ sameTuple (settled cfg g now) req ↔
      ∃ m, g.active.lookup (q, req.proto) = some m ∧ m.internalIp = req.clientIp ∧
        m.internalPort = req.internalPort ∧ now < m.expiresAt := by
  have htrim : Wf (g.trimSideMaps now cfg.rateLimitWindow) := hwf.shrink (.of_eq rfl rfl)
  have hactive : (settled cfg g now).active
      = g.active.retain fun _ a => decide (now < a.expiresAt) := htrim.active_sweep now cfg.cooldown
  rw [mem_sameTuple]
  constructor
  · rintro ⟨m, hlook, -, hip, hport⟩
    rw [hactive, Table.lookup_retain, Option.filter_eq_some_iff] at hlook
    exact ⟨m, hlook.1, hip, hport, of_decide_eq_true hlook.2⟩
  · rintro ⟨m, hlook, hip, hport, hlive⟩
    refine ⟨m, ?_, rfl, hip, hport⟩
    rw [hactive, Table.lookup_retain, Option.filter_eq_some_iff]
    exact ⟨hlook, decide_eq_true hlive⟩

/-- The quarantines, the starts of the holdings and the logs: what only a pass, a
restore, a report and a trim write. -/
def Inner.records (g : Inner) : Table ℕ ℕ × Table ℕ ℕ × Table Ipv4Addr (List ℕ) :=
  (g.abuseQuarantineUntil, g.heldSince, g.rateLimitLog)

variable {g' : Inner}

theorem quarantine_of_records (h : g'.records = g.records) :
    g'.abuseQuarantineUntil = g.abuseQuarantineUntil :=
  congrArg Prod.fst h

theorem log_of_records (h : g'.records = g.records) : g'.rateLimitLog = g.rateLimitLog :=
  congrArg (fun r => r.2.2) h

theorem records_sweepExpired (g : Inner) (now cooldown : ℕ) :
    (g.sweepExpired now cooldown).1.records = g.records := by
  unfold Inner.sweepExpired
  split
  · rfl
  · refine (Transition.foldl_frame (f := Inner.records) fun e _ g' => ?_).trans rfl
    unfold Inner.armExpired
    dsimp only
    split <;> rfl

theorem quarantine_of_settled {now t : ℕ}
    (h : (settled cfg g now).abuseQuarantineUntil.lookup p = some t) :
    g.abuseQuarantineUntil.lookup p = some t := by
  unfold settled at h
  rw [quarantine_of_records (records_sweepExpired ..)] at h
  exact (Option.filter_eq_some_iff.mp ((Table.lookup_retain _ _ p).symm.trans h)).1

/-- **A renewal keeps its port exactly if nothing bars the client from it.**  In every
reachable state, for a tuple whose only live mapping is on the port `p` of the range
(not port 0, which the code reads as none) and not under quarantine: a granted
request for the tuple without a suggestion is granted `p` if and only if, in the
maps once all that ran out is dropped, the other leg of `p` is mapped or `p` neither
cools down nor is remembered as given up by the client. -/
theorem renewal_keeps_port_iff (h : Reachable cfg g) (deployer : Deployer) (draws : ℕ → ℕ)
    {clientIp : Ipv4Addr} {proto : Proto} {internalPort : ℕ} (lifetimeSecs : ℕ) {now : ℕ}
    {m a : Allocation} (hmapped : g.active.lookup (p, proto) = some m)
    (hip : m.internalIp = clientIp) (hport : m.internalPort = internalPort)
    (hlive : now < m.expiresAt) (hin : portInRange cfg p = true)
    (hquarantine : ∀ t, g.abuseQuarantineUntil.lookup p = some t → t ≤ now) (hne : p ≠ 0)
    (honly : ∀ q m', g.active.lookup (q, proto) = some m' → m'.internalIp = clientIp →
      m'.internalPort = internalPort → now < m'.expiresAt → q = p)
    (hgranted : (allocateAtCollecting cfg deployer draws g clientIp proto internalPort 0
      lifetimeSecs now).1.result = .ok a) :
    a.externalPort = p ↔ KeepsPort (settled cfg g now) clientIp proto p now := by
  set req : MapRequest := ⟨clientIp, proto, internalPort, 0, clampLifetime lifetimeSecs, now⟩
  have hwf := reachable_wf h
  have hsettled : Wf (settled cfg g now) :=
    (hwf.shrink (.of_eq rfl rfl) : Wf (g.trimSideMaps now cfg.rateLimitWindow)).sweepExpired now _
  have hheld : lastHeld (settled cfg g now) req = some p := by
    refine lastHeld_of_only ((mem_sameTuple_settled hwf).mpr ⟨m, hmapped, hip, hport, hlive⟩) ?_
    intro q hq
    obtain ⟨m', hlook, hip', hport', hlive'⟩ := (mem_sameTuple_settled hwf).mp hq
    exact honly q m' hlook hip' hport' hlive'
  -- the request ends as the one pass that has every answer, and that pass granted
  have hpass := allocateAtCollecting_eq_one_pass cfg deployer draws g clientIp proto internalPort 0
    lifetimeSecs now
  have hends := tryAllocate_ends cfg deployer.liveSessions.isSome draws
    (g.trimSideMaps now cfg.rateLimitWindow) req
    (deployer.allAnswers cfg (settled cfg g now) req) []
  dsimp only at hpass
  rw [hpass, hgranted] at hends
  cases hends with
  | granted _ hgrant =>
    exact hgrant.renews_iff hsettled (effectiveSuggestion_of_none _ rfl) hheld hne hin
      fun t ht => hquarantine t (quarantine_of_settled ht)

def bothLegs : Inner :=
  [Op.pass false id ⟨1, .tcp, 80, 49152, clampLifetime 3600, 0⟩ (alone 1),
    Op.pass false id ⟨1, .udp, 80, 49152, clampLifetime 3600, 0⟩ (alone 1)].foldl
      (Op.apply .warrenDefault) Inner.empty

theorem reachable_bothLegs : Reachable .warrenDefault bothLegs :=
  reachable_foldl .warrenDefault _ (.start rfl)

def tcpLeg : Allocation := ⟨49152, 1, 80, .tcp, 3600 * nanosPerSec⟩

theorem renewal_keeps_port_iff_bothLegs : ∃ a,
    (allocateAtCollecting .warrenDefault .unwired id bothLegs 1 .tcp 80 0 3600
      halfMinute).1.result = .ok a ∧ a.externalPort = 49152 := by
  have hslots : ∀ e ∈ bothLegs.active.entries, e.1.2 = .tcp → e.1.1 = 49152 := by decide
  have honly : ∀ q m', bothLegs.active.lookup (q, .tcp) = some m' → m'.internalIp = 1 →
      m'.internalPort = 80 → halfMinute < m'.expiresAt → q = 49152 :=
    fun q m' hlook _ _ _ => hslots ⟨(q, .tcp), m'⟩ (Table.mem_entries_iff.mpr hlook) rfl
  have hmapped : bothLegs.active.lookup (49152, .tcp) = some tcpLeg := by decide
  have hgranted : (allocateAtCollecting .warrenDefault .unwired id bothLegs 1 .tcp 80 0 3600
      halfMinute).1.result = .ok ⟨49152, 1, 80, .tcp, halfMinute + 3600 * nanosPerSec⟩ := rfl
  refine ⟨_, hgranted, ?_⟩
  refine (renewal_keeps_port_iff reachable_bothLegs .unwired id 3600 hmapped rfl rfl (by decide)
    (by decide) (fun t ht => by cases ht) (by decide) honly hgranted).mpr (.inl ?_)
  decide

/-- **The release of one leg moves the other.**  The client maps both legs of port
49152, releases the UDP leg and renews the live TCP leg half a minute later, with
no suggestion: it is granted port 49153. -/
theorem released_leg_moves_renewal : ∃ g a, Reachable .warrenDefault g ∧
    g.active.lookup (49152, .tcp) = some tcpLeg ∧ halfMinute < tcpLeg.expiresAt ∧
    g.abuseQuarantineUntil.lookup 49152 = none ∧
    (allocateAtCollecting .warrenDefault .unwired id g 1 .tcp 80 0 3600 halfMinute).1.result
      = .ok a ∧ a.externalPort = 49153 := by
  refine ⟨Op.apply .warrenDefault bothLegs (.releaseByClient 1 80 .udp 0),
    ⟨49153, 1, 80, .tcp, halfMinute + 3600 * nanosPerSec⟩, reachable_bothLegs.next (.op _),
    by decide, by decide, by decide, ?_, rfl⟩
  rfl

end WarrenGuard.NatPmp
