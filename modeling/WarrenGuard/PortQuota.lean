/-
No tenant holds more ports than its budget.

The quota check is skipped for a request that is taken to land on a port its tenant already holds:
the other leg of a port, a renewal, a port taken back from a departed peer.  By then the refreshed
mapping is already off the table.  The proof that no new port number gets in is by the way the
port was chosen:

* a suggestion that is still held, or was held until the drop, is no new port;
* a renewal without a suggestion gets its old port back while the other leg of it is held
  (`pickPort_of_owner`), and otherwise the drop made room for one;
* every other request was counted.

`Metered` is the invariant: besides the count it needs every held port to lie in the range and
port 0, which cannot be suggested, to be held through one leg only.  `reachable_tenantPorts_le` is
the result.
-/
import WarrenGuard.PortRefusal

namespace WarrenGuard.NatPmp

variable {ι : Type*}

/-- A partition of the addresses into tenants, and the ports each may hold. -/
structure Tenancy (ι : Type*) where
  part : Ipv4Addr → ι
  budget : ι → ℕ

def AnswersTenant (part : Ipv4Addr → ι) (clientIp : Ipv4Addr) (answers : DeployerAnswers) : Prop :=
  ∀ tenant, answers.tenant = some tenant → ∀ x, x ∈ tenant ↔ part x = part clientIp

/-- The operations of a run in which nothing is restored and every request is
answered with its own tenant and the tenant's budget. -/
def Tenancy.Allows (t : Tenancy ι) : Op → Prop
  | .pass _ _ req answers => AnswersTenant t.part req.clientIp answers ∧
      ∀ b, answers.budget = some b → b = t.budget (t.part req.clientIp)
  | .restore _ _ => False
  | _ => True

def tenantPorts [DecidableEq ι] (part : Ipv4Addr → ι) (g : Inner) (i : ι) : Finset ℕ :=
  ((g.active.entries.filter fun e => decide (part e.2.internalIp = i)).map
    fun e => e.1.1).toFinset

section

variable [DecidableEq ι] {part : Ipv4Addr → ι} {g g' s : Inner} {i : ι} {p : ℕ}

theorem mem_tenantPorts : p ∈ tenantPorts part g i ↔
    ∃ proto a, g.active.lookup (p, proto) = some a ∧ part a.internalIp = i := by
  simp only [tenantPorts, List.mem_toFinset, Table.mem_map_filter, decide_eq_true_eq]
  constructor
  · rintro ⟨slot, a, hlook, hpart, rfl⟩
    exact ⟨slot.2, a, hlook, hpart⟩
  · rintro ⟨proto, a, hlook, hpart⟩
    exact ⟨(p, proto), a, hlook, hpart, rfl⟩

theorem heldPorts_eq_tenantPorts {tenant : Finset Ipv4Addr}
    (h : ∀ x, x ∈ tenant ↔ part x = i) : heldPorts g tenant = tenantPorts part g i := by
  ext p
  simp only [mem_heldPorts, mem_tenantPorts, h]

theorem tenantPorts_mono
    (h : ∀ slot a, g'.active.lookup slot = some a → g.active.lookup slot = some a) (i) :
    tenantPorts part g' i ⊆ tenantPorts part g i := by
  intro p hp
  obtain ⟨proto, a, hlook, hpart⟩ := mem_tenantPorts.mp hp
  exact mem_tenantPorts.mpr ⟨proto, a, h _ _ hlook, hpart⟩

variable {req : MapRequest}

theorem tenantPorts_dropTuple (s req i) :
    tenantPorts part (dropTuple s req) i ⊆ tenantPorts part s i :=
  tenantPorts_mono (fun _ _ h => lookup_of_lookup_dropTuple h) i

theorem lastHeld_mem_tenantPorts (h : lastHeld s req = some p) :
    p ∈ tenantPorts part s (part req.clientIp) := by
  obtain ⟨a, hlook, -, hip, -⟩ := mem_sameTuple.mp (mem_sameTuple_of_lastHeld h)
  exact mem_tenantPorts.mpr ⟨req.proto, a, hlook, by rw [hip]⟩

theorem card_insert_le_of_freed (hp : p ∈ tenantPorts part s i)
    (hfreed : p ∉ tenantPorts part (dropTuple s req) i) (port : ℕ) :
    (insert port (tenantPorts part (dropTuple s req) i)).card ≤ (tenantPorts part s i).card := by
  have hsub : tenantPorts part (dropTuple s req) i ⊆ (tenantPorts part s i).erase p :=
    fun q hq => Finset.mem_erase.mpr
      ⟨fun heq => hfreed (heq ▸ hq), tenantPorts_dropTuple s req i hq⟩
  calc (insert port (tenantPorts part (dropTuple s req) i)).card
      ≤ (tenantPorts part (dropTuple s req) i).card + 1 := Finset.card_insert_le _ _
    _ ≤ ((tenantPorts part s i).erase p).card + 1 := Nat.succ_le_succ (Finset.card_le_card hsub)
    _ = (tenantPorts part s i).card := Finset.card_erase_add_one hp

end

/-! ### The invariant -/

/-- **Metered maps**: the maps are well-formed, held ports lie in the range, port 0
is held through one leg only, and no tenant is over its budget. -/
structure Metered [DecidableEq ι] (cfg : AllocatorConfig) (t : Tenancy ι) (g : Inner) : Prop where
  wf : Wf g
  inRange : ∀ slot a, g.active.lookup slot = some a → portInRange cfg slot.1 = true
  zero : ∀ proto proto' a b, g.active.lookup (0, proto) = some a →
    g.active.lookup (0, proto') = some b → proto = proto'
  quota : ∀ i, (tenantPorts t.part g i).card ≤ t.budget i

section

variable [DecidableEq ι] {cfg : AllocatorConfig} {t : Tenancy ι} {g g' s : Inner}
  {draws : ℕ → ℕ} {req : MapRequest} {answers : DeployerAnswers} {reclaim : Bool}
  {a : Allocation} {active : Table Slot Allocation}

theorem Metered.empty (cfg : AllocatorConfig) (t : Tenancy ι) : Metered cfg t Inner.empty where
  wf := Wf.empty
  inRange _ _ h := by cases h
  zero _ _ _ _ h := by cases h
  quota _ := Nat.zero_le _

theorem Metered.of_lookup (h : Metered cfg t g) (hwf : Wf g')
    (hsub : ∀ slot a, g'.active.lookup slot = some a → g.active.lookup slot = some a) :
    Metered cfg t g' where
  wf := hwf
  inRange slot a hl := h.inRange slot a (hsub slot a hl)
  zero proto proto' a b ha hb := h.zero proto proto' a b (hsub _ a ha) (hsub _ b hb)
  quota i := (Finset.card_le_card (tenantPorts_mono hsub i)).trans (h.quota i)

theorem Metered.shrink (h : Metered cfg t g) (hs : Shrinks g g') : Metered cfg t g' :=
  h.of_lookup (h.wf.shrink hs) hs.lookup

theorem Metered.sweepExpired (h : Metered cfg t g) (now cooldown : ℕ) :
    Metered cfg t (g.sweepExpired now cooldown).1 := by
  exact h.of_lookup (h.wf.sweepExpired now cooldown) fun slot a hl => h.wf.lookup_of_sweep hl

/-- **A renewal whose other leg is still held gets its port again.** -/
theorem Metered.pickPort_lastHeld (hm : Metered cfg t s) {q : ℕ} (hq : lastHeld s req = some q)
    (hkept : q ∈ tenantPorts t.part (dropTuple s req) (t.part req.clientIp)) :
    pickPort cfg draws (dropTuple s req) req.proto q req.clientIp req.now = some q := by
  obtain ⟨proto, b, hb, -⟩ := mem_tenantPorts.mp hkept
  obtain ⟨c, hc, -, hip, -⟩ := mem_sameTuple.mp (mem_sameTuple_of_lastHeld hq)
  have hslot : (dropTuple s req).active.lookup (q, req.proto) = none := by
    rw [lookup_dropTuple, if_pos (mem_sameTuple_of_lastHeld hq)]
  have hb' := lookup_of_lookup_dropTuple hb
  have howner : portOwner (dropTuple s req) q = some req.clientIp := by
    rw [(hm.wf.shrink (shrinks_dropTuple s req)).single q proto b hb, ← hip]
    exact ((hm.wf.single q proto b hb').symm.trans (hm.wf.single q req.proto c hc))
  -- port 0 has no second leg
  have hne : q ≠ 0 := by
    rintro rfl
    have hproto := hm.zero proto req.proto b c hb' hc
    rw [hproto, hslot] at hb
    cases hb
  exact pickPort_of_owner hne (hm.inRange _ c hc) hslot howner

/-- **A granted port is no new port, or there was room for one.**  The tenant's
ports after the drop, with the granted one, are within the budget. -/
theorem Granted.card_le (hm : Metered cfg t s) (htenant : AnswersTenant t.part req.clientIp answers)
    (hbudget : ∀ b, answers.budget = some b → b = t.budget (t.part req.clientIp))
    (h : Granted cfg draws s req answers reclaim a active) :
    (insert a.externalPort (tenantPorts t.part (dropTuple s req) (t.part req.clientIp))).card
      ≤ t.budget (t.part req.clientIp) := by
  obtain ⟨passes, tenant_eq, budget_eq, quota, chosen⟩ := h
  rename_i tenant budget port
  show (insert port _ : Finset ℕ).card ≤ _
  have hheld : heldPorts (dropTuple s req) tenant
      = tenantPorts t.part (dropTuple s req) (t.part req.clientIp) :=
    heldPorts_eq_tenantPorts (htenant tenant tenant_eq)
  have hdrop : tenantPorts t.part (dropTuple s req) (t.part req.clientIp)
      ⊆ tenantPorts t.part s (t.part req.clientIp) := tenantPorts_dropTuple s req _
  -- a port the tenant already held adds nothing to the count before the drop
  have hown : port ∈ tenantPorts t.part s (t.part req.clientIp) →
      (insert port (tenantPorts t.part (dropTuple s req) (t.part req.clientIp))).card
        ≤ t.budget (t.part req.clientIp) := fun hmem =>
    (Finset.card_le_card (Finset.insert_subset hmem hdrop)).trans (hm.quota _)
  rcases quota with hreuse | hroom
  · by_cases hzero : effectiveSuggestion s req = 0
    · -- a renewal without a suggestion
      obtain ⟨-, hpick⟩ := chosen.resolve_left fun hne => hne.1 hzero
      rw [reusesHeldPort, if_neg (not_not_intro hzero)] at hreuse
      obtain ⟨q, hq⟩ := Option.isSome_iff_exists.mp hreuse
      by_cases hkept : q ∈ tenantPorts t.part (dropTuple s req) (t.part req.clientIp)
      · rw [hq, Option.getD_some, hm.pickPort_lastHeld hq hkept] at hpick
        obtain rfl := Option.some.inj hpick
        exact hown (lastHeld_mem_tenantPorts hq)
      · exact (card_insert_le_of_freed (lastHeld_mem_tenantPorts hq) hkept port).trans (hm.quota _)
    · -- a suggestion the tenant holds, or held until the drop
      obtain ⟨-, rfl⟩ := chosen.resolve_right fun heq => hzero heq.1
      rw [reusesHeldPort, if_pos hzero, hheld, Bool.or_eq_true, decide_eq_true_eq,
        decide_eq_true_eq] at hreuse
      rcases hreuse with hmem | hlast
      · exact hown (hdrop hmem)
      · exact hown (lastHeld_mem_tenantPorts hlast)
  · -- the request was counted
    rw [hheld] at hroom
    obtain rfl := hbudget budget budget_eq
    exact (Finset.card_insert_le _ _).trans hroom

/-- **A grant keeps the maps metered.** -/
theorem Metered.granted (hm : Metered cfg t s) (hwf : Wf g')
    (htenant : AnswersTenant t.part req.clientIp answers)
    (hbudget : ∀ b, answers.budget = some b → b = t.budget (t.part req.clientIp))
    (h : Granted cfg draws s req answers reclaim a g'.active) : Metered cfg t g' := by
  have hdrop : Metered cfg t (dropTuple s req) := hm.shrink (shrinks_dropTuple s req)
  refine ⟨hwf, fun slot b hl => ?_, fun proto proto' b c hb hc => ?_, fun i => ?_⟩
  · rcases h.lookup hl with ⟨rfl, -⟩ | hl'
    · exact h.inRange.1
    · exact hdrop.inRange slot b hl'
  · -- port 0 was free before it was granted
    have hfree : ∀ {q : Proto} {d : Allocation}, a.externalPort = 0 →
        (dropTuple s req).active.lookup (0, q) = some d → False := by
      intro q d heq hd
      obtain ⟨owner, howner⟩ := exists_portOwner hd
      rw [h.inRange.2 heq] at howner
      cases howner
    rcases h.lookup hb with ⟨hbslot, -⟩ | hb'
    · obtain ⟨hzero, rfl⟩ := Prod.mk.inj hbslot
      rcases h.lookup hc with ⟨hcslot, -⟩ | hc'
      · exact (Prod.mk.inj hcslot).2.symm
      · exact (hfree hzero.symm hc').elim
    · rcases h.lookup hc with ⟨hcslot, -⟩ | hc'
      · exact (hfree (Prod.mk.inj hcslot).1.symm hb').elim
      · exact hdrop.zero proto proto' b c hb' hc'
  · by_cases hi : t.part req.clientIp = i
    · -- the tenant of the requester has at most one port more than after the drop
      subst hi
      refine (Finset.card_le_card fun p hp => ?_).trans (h.card_le hm htenant hbudget)
      obtain ⟨proto, b, hb, hpart⟩ := mem_tenantPorts.mp hp
      rcases h.lookup hb with ⟨hslot, -⟩ | hb'
      · rw [(Prod.mk.inj hslot).1]
        exact Finset.mem_insert_self _ _
      · exact Finset.mem_insert_of_mem (mem_tenantPorts.mpr ⟨proto, b, hb', hpart⟩)
    · -- the other tenants have none that they did not have
      refine (Finset.card_le_card fun p hp => ?_).trans (hdrop.quota i)
      obtain ⟨proto, b, hb, hpart⟩ := mem_tenantPorts.mp hp
      rcases h.lookup hb with ⟨-, rfl⟩ | hb'
      · exact absurd (h.internalIp ▸ hpart) hi
      · exact mem_tenantPorts.mpr ⟨proto, b, hb', hpart⟩

/-- **Every allowed operation keeps the maps metered.** -/
theorem Metered.apply (hm : Metered cfg t g) {o : Op} (ho : t.Allows o) :
    Metered cfg t (o.apply cfg g) := by
  have hwf := hm.wf.apply cfg o
  rcases o.removes_or with hrem | ⟨liveWired, draws, req, answers, rfl⟩ | ⟨entries, now, rfl⟩
  · exact hm.shrink (shrinks_apply cfg g hrem)
  · have hs := hm.sweepExpired req.now cfg.cooldown
    obtain hsame | hdropped | ⟨reclaim, a, -, -, hgrant⟩ :=
      (tryAllocate_ends cfg liveWired draws g req answers []).active_cases
    · exact hs.of_lookup hwf fun slot b hl => hsame ▸ hl
    · exact hs.of_lookup hwf fun slot b hl => lookup_of_lookup_dropTuple (hdropped ▸ hl)
    · exact hs.granted hwf ho.1 ho.2 hgrant
  · exact absurd ho id

/-- **No tenant exceeds its budget.**  For every partition of the addresses into
tenants and every budget of a tenant: in every run without a restore in which the
requests are answered so, whatever the order of their passes and of the releases,
takes, revocations and expiries, the addresses of a tenant never hold more
distinct ports than its budget. -/
theorem reachable_tenantPorts_le (t : Tenancy ι)
    (h : Transition.Reachable (· = Inner.empty) (StepIf cfg fun _ => t.Allows) g) (i : ι) :
    (tenantPorts t.part g i).card ≤ t.budget i := by
  have hm : Metered cfg t g := by
    refine Transition.Reachable.invariant ?_ ?_ h
    · rintro g rfl
      exact Metered.empty cfg t
    · rintro g g' hm hstep
      cases hstep with
      | op o ho => exact hm.apply ho
      | reorder entries hperm => exact hm.shrink (shrinks_reorder g entries hperm)
  exact hm.quota i

end

def onePortEach : Tenancy Ipv4Addr := ⟨id, fun _ => 1⟩

theorem onePortEach_allows (liveWired : Bool) (draws : ℕ → ℕ) (req : MapRequest) :
    onePortEach.Allows (.pass liveWired draws req ⟨some {req.clientIp}, some 1, none⟩) := by
  refine ⟨fun tenant htenant x => ?_, fun b hb => ?_⟩
  · obtain rfl := Option.some.inj htenant
    exact Finset.mem_singleton
  · exact (Option.some.inj hb).symm

theorem reachable_tenantPorts_le_pair : ∃ g,
    Transition.Reachable (· = Inner.empty)
      (StepIf .warrenDefault fun _ => onePortEach.Allows) g ∧
    g.active.entries.length = 2 ∧ (tenantPorts onePortEach.part g 1).card = 1 ∧
    (tenantPorts onePortEach.part g 1).card ≤ onePortEach.budget 1 := by
  have hstart : Transition.Reachable (· = Inner.empty)
      (StepIf .warrenDefault fun _ => onePortEach.Allows) Inner.empty := .start rfl
  have htcp := hstart.next (.op _ (onePortEach_allows false id
    ⟨1, .tcp, 80, 0, clampLifetime 60, 0⟩))
  have hudp := htcp.next (.op _ (onePortEach_allows false id
    ⟨1, .udp, 80, 49152, clampLifetime 60, 0⟩))
  exact ⟨_, hudp, by decide, by decide, reachable_tenantPorts_le onePortEach hudp 1⟩

end WarrenGuard.NatPmp
