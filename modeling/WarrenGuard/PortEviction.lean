/-
A request tells exactly which mappings it removed.

One request may sweep expired mappings, drop the mappings of a refreshed tuple and take both legs
of a departed peer's port, and then be granted one of them again or fail.  Whoever mirrors the
table elsewhere gets the list of removed mappings and the result:

* `Evicts` — a table is another one without the mappings of a list (`evicts_sweepExpired`,
  `evicts_dropTuple`, `evicts_removePort`);
* `Leaves`, `Accounted` — what a result and such a list say about the table afterwards and before;
* `allocateAtCollecting_leaves` — every request ends so; `restoreAt_restores` — a restore tells
  which mappings it has put into the table.
-/
import WarrenGuard.PortOwnership

namespace WarrenGuard.NatPmp

def Allocation.slot (a : Allocation) : Slot := (a.externalPort, a.proto)

/-- `t'` is `t` without the mappings of `removed`. -/
def Evicts (t t' : Table Slot Allocation) (removed : List Allocation) : Prop :=
  ∀ slot, t'.lookup slot = if slot ∈ removed.map Allocation.slot then none else t.lookup slot

/-- **What is left of a table** after a request: the mappings it removed are gone,
and the one it was granted is there. -/
inductive Leaves (t : Table Slot Allocation) (removed : List Allocation) :
    Except NatPmpError Allocation → Table Slot Allocation → Prop
  | refused {t' : Table Slot Allocation} (error : NatPmpError) (h : Evicts t t' removed) :
      Leaves t removed (.error error) t'
  | granted {base : Table Slot Allocation} (a : Allocation) (h : Evicts t base removed) :
      Leaves t removed (.ok a) (base.insert a.slot a)

def Present (t : Table Slot Allocation) (removed : List Allocation) : Prop :=
  ∀ a ∈ removed, t.lookup a.slot = some a

/-- **What a request accounts for**: all it removed was in the table, and it puts the
mapping it grants into a slot that was free or that it has emptied. -/
structure Accounted (t : Table Slot Allocation) (removed : List Allocation)
    (result : Except NatPmpError Allocation) : Prop where
  present : Present t removed
  vacant : ∀ a, result = .ok a → a.slot ∈ removed.map Allocation.slot ∨ t.lookup a.slot = none

section

variable {t t' t'' : Table Slot Allocation} {removed removed' : List Allocation}

theorem Present.nil (t) : Present t [] := by
  intro a ha
  cases ha

theorem Present.append (h : Present t removed) (h' : Present t removed') :
    Present t (removed ++ removed') := by
  intro a ha
  rcases List.mem_append.mp ha with ha | ha
  · exact h a ha
  · exact h' a ha

theorem Evicts.lookup (h : Evicts t t' removed) {slot : Slot} {a : Allocation}
    (hl : t'.lookup slot = some a) : t.lookup slot = some a := by
  rw [h slot] at hl
  split at hl
  · cases hl
  · exact hl

theorem Evicts.present (h : Evicts t t' removed) (h' : Present t' removed') :
    Present t removed' :=
  fun a ha => h.lookup (h' a ha)

theorem Evicts.accounted (h : Evicts t t' removed) (hp : Present t removed)
    {result : Except NatPmpError Allocation} (h' : Accounted t' removed' result) :
    Accounted t (removed ++ removed') result := by
  refine ⟨hp.append (h.present h'.present), fun a ha => ?_⟩
  rw [List.map_append, List.mem_append]
  rcases h'.vacant a ha with hmem | hfree
  · exact .inl (.inr hmem)
  · rw [h a.slot] at hfree
    split at hfree
    · rename_i hmem
      exact .inl (.inl hmem)
    · exact .inr hfree

theorem Present.refused (h : Present t removed) (error : NatPmpError) :
    Accounted t removed (.error error) :=
  ⟨h, fun a ha => by cases ha⟩

theorem Evicts.refl (t) : Evicts t t [] := by
  intro slot
  simp

theorem Evicts.trans (h : Evicts t t' removed) (h' : Evicts t' t'' removed') :
    Evicts t t'' (removed ++ removed') := by
  intro slot
  rw [h' slot, h slot, List.map_append]
  by_cases hmem : slot ∈ removed'.map Allocation.slot
  · rw [if_pos hmem, if_pos (List.mem_append_right _ hmem)]
  · simp only [List.mem_append, hmem, or_false, if_false]

theorem Evicts.leaves (h : Evicts t t' removed) {result : Except NatPmpError Allocation}
    (h' : Leaves t' removed' result t'') : Leaves t (removed ++ removed') result t'' := by
  cases h' with
  | refused error hevicts => exact .refused error (h.trans hevicts)
  | granted a hevicts => exact .granted a (h.trans hevicts)

theorem Leaves.evicts {error : NatPmpError} (h : Leaves t removed (.error error) t') :
    Evicts t t' removed := by
  cases h with
  | refused _ hevicts => exact hevicts

theorem Leaves.exists_base {a : Allocation} (h : Leaves t removed (.ok a) t') :
    ∃ base, Evicts t base removed ∧ t' = base.insert a.slot a := by
  cases h with
  | granted _ hevicts => exact ⟨_, hevicts, rfl⟩

end

variable {cfg : AllocatorConfig} {deployer : Deployer} {draws : ℕ → ℕ} {g s : Inner}
  {req : MapRequest}

theorem Wf.map_slot (h : Wf g) (q : (Σ _ : Slot, Allocation) → Bool) :
    ((g.active.entries.filter q).map Sigma.snd).map Allocation.slot
      = (g.active.entries.filter q).map Sigma.fst := by
  rw [List.map_map]
  refine List.map_congr_left fun e he => ?_
  exact (h.keyed e.1 e.2 (Table.lookup_of_mem_entries (List.mem_of_mem_filter he))).symm

variable {answers : DeployerAnswers} {now port suggested : ℕ} {reclaim : Bool}

theorem sweepExpired_snd (cd : ℕ) (h : ¬ (g.nextExpiry.all fun t => decide (now < t)) = true) :
    (g.sweepExpired now cd).2
      = (g.active.entries.filter fun e => !decide (now < e.2.expiresAt)).map Sigma.snd := by
  unfold Inner.sweepExpired
  rw [if_neg h]

theorem evicts_sweepExpired (hwf : Wf g) (now cd : ℕ) :
    Evicts g.active (g.sweepExpired now cd).1.active (g.sweepExpired now cd).2 := by
  by_cases hskip : (g.nextExpiry.all fun t => decide (now < t)) = true
  · rw [sweepExpired_of_skip hskip]
    exact .refl g.active
  intro slot
  rw [hwf.active_sweep, Table.lookup_retain, sweepExpired_snd cd hskip, hwf.map_slot]
  -- a slot is on the list iff what is in it has expired
  have hmem : slot ∈ (g.active.entries.filter fun e => !decide (now < e.2.expiresAt)).map Sigma.fst
      ↔ ∃ a, g.active.lookup slot = some a ∧ a.expiresAt ≤ now := by
    simp only [Table.mem_keys_filter, Bool.not_eq_true', decide_eq_false_iff_not, not_lt]
  rcases hlook : g.active.lookup slot with _ | a
  · rw [ite_self]
    rfl
  · by_cases hlive : now < a.expiresAt
    · rw [if_neg, Option.filter_some, if_pos (decide_eq_true hlive)]
      rintro hin
      obtain ⟨b, hb, hlapsed⟩ := hmem.mp hin
      rw [hlook] at hb
      cases hb
      omega
    · rw [if_pos (hmem.mpr ⟨a, hlook, not_lt.mp hlive⟩), Option.filter_some,
        decide_eq_false hlive]
      rfl

theorem Wf.present_filter (h : Wf g) (q : (Σ _ : Slot, Allocation) → Bool) :
    Present g.active ((g.active.entries.filter q).map Sigma.snd) := by
  intro a ha
  obtain ⟨e, he, rfl⟩ := List.mem_map.mp ha
  have hl := Table.lookup_of_mem_entries (List.mem_of_mem_filter he)
  rw [Allocation.slot, ← h.keyed e.1 e.2 hl, hl]

theorem present_sweepExpired (hwf : Wf g) (now cd : ℕ) :
    Present g.active (g.sweepExpired now cd).2 := by
  by_cases hskip : (g.nextExpiry.all fun t => decide (now < t)) = true
  · rw [sweepExpired_of_skip hskip]
    exact .nil g.active
  · rw [sweepExpired_snd cd hskip]
    exact hwf.present_filter _

theorem evicts_dropTuple (hwf : Wf g) (req) :
    Evicts g.active (dropTuple g req).active (droppedTuple g req) := by
  intro slot
  rw [lookup_dropTuple, droppedTuple, hwf.map_slot]
  rfl

theorem evicts_removePort (hwf : Wf g) (port) :
    Evicts g.active (removePort g port).1.active (removePort g port).2 := by
  intro slot
  rw [lookup_removePort]
  -- the mappings on the list are those found under the two slots of the port
  have hmem : slot ∈ (removePort g port).2.map Allocation.slot ↔
      slot.1 = port ∧ (g.active.lookup slot).isSome := by
    simp only [removePort, List.mem_map, List.mem_append, Option.mem_toList,
      Option.isSome_iff_exists]
    constructor
    · rintro ⟨a, htcp | hudp, rfl⟩
      · rw [Allocation.slot, ← hwf.keyed _ a htcp]
        exact ⟨rfl, a, htcp⟩
      · rw [Allocation.slot, ← hwf.keyed _ a hudp]
        exact ⟨rfl, a, hudp⟩
    · rintro ⟨rfl, a, ha⟩
      refine ⟨a, ?_, (hwf.keyed slot a ha).symm⟩
      obtain ⟨p, proto⟩ := slot
      cases proto with
      | tcp => exact .inl ha
      | udp => exact .inr ha
  by_cases hport : slot.1 = port
  · rw [if_pos hport]
    rcases hlook : g.active.lookup slot with _ | a
    · rw [ite_self]
    · rw [if_pos (hmem.mpr ⟨hport, by rw [hlook]; rfl⟩)]
  · rw [if_neg hport, if_neg fun hin => hport (hmem.mp hin).1]

theorem present_removePort (hwf : Wf g) (port) : Present g.active (removePort g port).2 := by
  intro a ha
  simp only [removePort, List.mem_append, Option.mem_toList] at ha
  rcases ha with htcp | hudp
  · rw [Allocation.slot, ← hwf.keyed _ a htcp]
    exact htcp
  · rw [Allocation.slot, ← hwf.keyed _ a hudp]
    exact hudp

theorem evicts_grantBase (hwf : Wf g) (req suggested reclaim) :
    Evicts g.active (grantBase g req suggested reclaim).active
      (droppedTuple g req ++ reclaimedLegs g req suggested reclaim) := by
  have hdrop := evicts_dropTuple hwf req
  cases reclaim with
  | false => exact hdrop.trans (.refl _)
  | true => exact hdrop.trans (evicts_removePort (hwf.shrink (shrinks_dropTuple g req)) suggested)

theorem present_grantBase (hwf : Wf g) (req suggested reclaim) :
    Present g.active (droppedTuple g req ++ reclaimedLegs g req suggested reclaim) := by
  have hdrop : Present g.active (droppedTuple g req) := hwf.present_filter _
  cases reclaim with
  | false => exact hdrop.append (.nil _)
  | true =>
    have hlegs := present_removePort (hwf.shrink (shrinks_dropTuple g req)) suggested
    exact hdrop.append ((evicts_dropTuple hwf req).present hlegs)

/-! ### The slot of a grant is free -/

theorem cheapGrantable_slot {a : Allocation}
    (h : cheapGrantable cfg g req suggested answers = .ok true)
    (hl : g.active.lookup (suggested, req.proto) = some a) :
    a.internalIp = req.clientIp ∧ a.internalPort = req.internalPort := by
  unfold cheapGrantable at h
  split at h
  · rw [hl] at h
    simpa using h
  · cases h

theorem pickPort_free {proto : Proto} {reuse now p : ℕ} {clientIp : Ipv4Addr}
    (h : pickPort cfg draws g proto reuse clientIp now = some p) :
    g.active.lookup (p, proto) = none := by
  unfold pickPort at h
  split at h
  · rename_i hreuse
    cases h
    simp only [Bool.and_eq_true] at hreuse
    exact Option.isNone_iff_eq_none.mp hreuse.1.2
  · have heligible : portEligible g p clientIp now none = true := by
      rcases Option.or_eq_some_iff.mp h with hdraw | ⟨-, hscan⟩
      · simpa only using List.find?_some hdraw
      · simpa only using List.find?_some hscan
    obtain ⟨htcp, hudp⟩ := portOwner_eq_none.mp (portOwner_of_portEligible heligible)
    cases proto with
    | tcp => exact htcp
    | udp => exact hudp

/-- **A grant fills a free slot**: one case for each way the port was chosen. -/
theorem grantBase_free (hpass : Passes cfg g req suggested answers reclaim)
    (hport : suggested ≠ 0 ∧ port = suggested ∨ suggested = 0 ∧
      pickPort cfg draws (dropTuple g req) req.proto ((lastHeld g req).getD 0) req.clientIp
        req.now = some port) :
    (grantBase g req suggested reclaim).active.lookup (port, req.proto) = none := by
  cases hpass with
  | none hzero =>
    obtain ⟨-, hpick⟩ := hport.resolve_left fun hne => hne.1 hzero
    exact pickPort_free hpick
  | cheap hne hcheap =>
    obtain ⟨-, rfl⟩ := hport.resolve_right fun hzero => hne hzero.1
    show (dropTuple g req).active.lookup (port, req.proto) = none
    rw [lookup_dropTuple]
    split
    · rfl
    · rename_i hnot
      rcases hl : g.active.lookup (port, req.proto) with _ | a
      · rfl
      · obtain ⟨hip, hinternal⟩ := cheapGrantable_slot hcheap hl
        exact absurd (mem_sameTuple.mpr ⟨a, hl, rfl, hip, hinternal⟩) hnot
  | reclaim hne =>
    obtain ⟨-, rfl⟩ := hport.resolve_right fun hzero => hne hzero.1
    show (removePort (dropTuple g req) port).1.active.lookup (port, req.proto) = none
    rw [lookup_removePort, if_pos rfl]

/-- **A pass asks, leaving the table alone, or tells what it has left of it.** -/
theorem decideSwept_leaves (hwf : Wf s) (cfg) (liveWired : Bool) (draws req answers)
    (evicted : List Allocation) :
    (∃ question g', decideSwept cfg liveWired draws s req answers evicted
        = (.ask question, g', evicted) ∧ g'.active = s.active) ∨
    ∃ result g' removed, decideSwept cfg liveWired draws s req answers evicted
        = (.done result, g', evicted ++ removed) ∧ Leaves s.active removed result g'.active ∧
      (∀ a, result = .ok a → a.proto = req.proto) ∧ Accounted s.active removed result := by
  have hpass := decideSwept_pass cfg liveWired draws s req answers evicted
  generalize decideSwept .. = r at hpass ⊢
  cases hpass with
  | asks log => exact .inl ⟨_, _, rfl, rfl⟩
  | @refused error log =>
    refine .inr ⟨.error error, s.withLog log, [], ?_, .refused error (.refl _),
      fun a h => (by cases h), (Present.nil _).refused error⟩
    rw [List.append_nil]
  | dropped log =>
    exact .inr ⟨_, _, _, rfl, .refused _ (evicts_dropTuple hwf req), fun a h => (by cases h),
      Present.refused (hwf.present_filter _) _⟩
  | @granted reclaim a base _ hactive hgrant =>
    have hevicts := evicts_grantBase hwf req (effectiveSuggestion s req) reclaim
    obtain ⟨hpasses, hproto⟩ := hgrant.passes
    refine .inr ⟨_, _, _, rfl, .granted _ ?_, fun a h => by cases h; exact hproto,
      present_grantBase hwf req _ reclaim, fun a h => ?_⟩
    · rw [hactive]
      exact hevicts
    · -- the slot is empty when the mapping goes in, so it was emptied or was free before
      cases h
      have hfree := grantBase_free hpasses hgrant.chosen
      rw [← hproto, hevicts] at hfree
      split at hfree
      · rename_i hmem
        exact .inl hmem
      · exact .inr hfree

theorem allocateLoop_leaves {fuel : ℕ} {evicted : List Allocation}
    {outcome : AllocateOutcome} {g' : Inner} (hwf : Wf g)
    (h : allocateLoop cfg deployer draws req fuel g answers evicted = some (outcome, g')) :
    Wf g' ∧ ∃ removed, outcome.evicted = evicted ++ removed ∧
      Leaves g.active removed outcome.result g'.active ∧
      (∀ a, outcome.result = .ok a → a.proto = req.proto) ∧
      Accounted g.active removed outcome.result := by
  induction fuel generalizing g answers evicted with
  | zero => cases h
  | succ fuel ih =>
    have hs : Wf (g.sweepExpired req.now cfg.cooldown).1 := hwf.sweepExpired req.now cfg.cooldown
    have hsweep := evicts_sweepExpired hwf req.now cfg.cooldown
    have hswept := present_sweepExpired hwf req.now cfg.cooldown
    have hpass := hs.decideSwept cfg deployer.liveSessions.isSome draws req answers
      (evicted ++ (g.sweepExpired req.now cfg.cooldown).2)
    rw [allocateLoop, tryAllocate_eq] at h
    obtain ⟨question, s', heq, hactive⟩ | ⟨result, s', removed, heq, hleaves, hproto, hacc⟩ :=
      decideSwept_leaves hs cfg deployer.liveSessions.isSome draws req answers
        (evicted ++ (g.sweepExpired req.now cfg.cooldown).2)
    · -- the loop goes on from the table the sweep left
      rw [heq] at h hpass
      obtain ⟨hwf', removed, hevicted, hleaves, hproto, hacc⟩ := ih hpass h
      rw [hactive] at hleaves hacc
      exact ⟨hwf', _, by rw [hevicted, List.append_assoc], hsweep.leaves hleaves, hproto,
        hsweep.accounted hswept hacc⟩
    · rw [heq] at h hpass
      cases h
      exact ⟨hpass, _, List.append_assoc .., hsweep.leaves hleaves, hproto,
        hsweep.accounted hswept hacc⟩

/-- **Every request tells what it has left of the table.** -/
theorem allocateAtCollecting_leaves (hwf : Wf g) (cfg deployer draws) (clientIp : Ipv4Addr)
    (proto : Proto)
    (internalPort suggested lifetimeSecs now : ℕ) :
    let r := allocateAtCollecting cfg deployer draws g clientIp proto internalPort suggested
      lifetimeSecs now
    Wf r.2 ∧ Leaves g.active r.1.evicted r.1.result r.2.active ∧
      (∀ a, r.1.result = .ok a → a.proto = proto) ∧
      Accounted g.active r.1.evicted r.1.result := by
  intro r
  have htrim : Wf (g.trimSideMaps now cfg.rateLimitWindow) := hwf.shrink (.of_eq rfl rfl)
  obtain ⟨hwf', removed, hevicted, hleaves, hproto, hacc⟩ :=
    allocateLoop_leaves htrim (Option.some_get _).symm
  rw [List.nil_append] at hevicted
  rw [← hevicted] at hleaves hacc
  exact ⟨hwf', hleaves, hproto, hacc⟩

/-! ### What a restore has put back -/

/-- `t'` is `t` with the mappings of `kept`, each in a slot of its own that was free. -/
structure Restores (t t' : Table Slot Allocation) (kept : List Allocation) : Prop where
  nodup : (kept.map Allocation.slot).Nodup
  free : ∀ a ∈ kept, t.lookup a.slot = none
  restored : ∀ a ∈ kept, t'.lookup a.slot = some a
  others : ∀ slot, slot ∉ kept.map Allocation.slot → t'.lookup slot = t.lookup slot

theorem Restores.nil (t : Table Slot Allocation) : Restores t t [] where
  nodup := List.nodup_nil
  free _ h := by cases h
  restored _ h := by cases h
  others _ _ := rfl

theorem Restores.restoreEntry {t : Table Slot Allocation} {acc : Inner × List Allocation}
    (h : Restores t acc.1.active acc.2) (now) (entry : Allocation) :
    Restores t (restoreEntry now acc entry).1.active (restoreEntry now acc entry).2 := by
  rcases restoreEntry_cases now acc entry with heq | ⟨heq, -, hfree, -⟩
  · rw [heq]
    exact h
  rw [heq]
  -- the slot is free now, so it is none of those filled before
  have hnew : entry.slot ∉ acc.2.map Allocation.slot := by
    intro hmem
    obtain ⟨a, ha, hslot⟩ := List.mem_map.mp hmem
    have hlook := h.restored a ha
    rw [hslot, Allocation.slot, hfree] at hlook
    cases hlook
  have hlook : ∀ slot, ((acc.1.recordRestored now entry).insertActive entry).active.lookup slot
      = if slot = entry.slot then some entry else acc.1.active.lookup slot :=
    lookup_insertActive _ entry
  refine ⟨?_, fun a ha => ?_, fun a ha => ?_, fun slot hnot => ?_⟩
  · rw [List.map_append]
    refine List.nodup_append.mpr ⟨h.nodup, List.nodup_singleton _,
      fun slot hslot slot' hslot' => ?_⟩
    rw [List.map_singleton, List.mem_singleton] at hslot'
    rintro rfl
    exact hnew (hslot' ▸ hslot)
  · rcases List.mem_append.mp ha with hold | hlast
    · exact h.free a hold
    · rw [List.mem_singleton.mp hlast, ← h.others entry.slot hnew]
      exact hfree
  · rcases List.mem_append.mp ha with hold | hlast
    · have hne : a.slot ≠ entry.slot := fun hsame => hnew (hsame ▸ List.mem_map_of_mem hold)
      rw [hlook, if_neg hne, h.restored a hold]
    · rw [List.mem_singleton.mp hlast, hlook, if_pos rfl]
  · rw [List.map_append, List.mem_append, not_or, List.map_singleton, List.mem_singleton] at hnot
    rw [hlook, if_neg hnot.2, h.others slot hnot.1]

/-- **A restore tells what it has put into the table.** -/
theorem restoreAt_restores (g) (entries : List Allocation) (now) :
    Restores g.active (restoreAt g entries now).1.active (restoreAt g entries now).2 := by
  refine restoreAt_induction (P := fun acc => Restores g.active acc.1.active acc.2) (.nil g.active)
    fun acc entry _ hacc => ?_
  exact hacc.restoreEntry now entry

end WarrenGuard.NatPmp
