/-
What a deployer is told of the port table is enough to keep a copy of it.

A deployer keeps something for each mapping, by its external port, protocol and internal address
(`Binding`).  It learns of the mappings it grants and restores, the release observer hears what
the allocator removes on its own decision, and the calls by which the deployer itself takes
mappings away return them (`Report`).  A mapping that a request removes and grants again is not
reported (`reportEvicted`).

* `Balances` — the bindings of a table are those of another, with those granted added and those
  released or taken removed (`Evicts.balances`, `Leaves.balances`, `Restores.balances`);
* `balances_run` — every operation balances; `ledger_is_active_table` — so over every run the sum
  of the reports is the table.
-/
import WarrenGuard.PortEviction

namespace WarrenGuard.NatPmp

abbrev Binding := ℕ × Proto × Ipv4Addr

def Allocation.binding (a : Allocation) : Binding := (a.externalPort, a.proto, a.internalIp)

def bindingsOf (as : List Allocation) : Finset Binding := (as.map Allocation.binding).toFinset

def bindings (t : Table Slot Allocation) : Finset Binding := bindingsOf (t.entries.map Sigma.snd)

/-- `report_evicted`: what the observer is told of a request, which is all it has removed
but the mapping it was granted again. -/
def reportEvicted (evicted : List Allocation) (granted : Option Allocation) : List Allocation :=
  evicted.filter fun e => granted.all fun g => decide (e.binding ≠ g.binding)

/-- What the deployer learns of one operation: the mappings granted or restored, those
reported to the release observer, and those returned by a take or revoke. -/
structure Report where
  granted : List Allocation
  released : List Allocation
  taken : List Allocation

def Report.none : Report := ⟨[], [], []⟩

def Report.removed (r : Report) : List Allocation := r.released ++ r.taken

/-- Enter a report: a mapping is granted before the removals are reported. -/
def Report.enter (r : Report) (ledger : Finset Binding) : Finset Binding :=
  (ledger ∪ bindingsOf r.granted) \ bindingsOf r.removed

/-! ### The operations, one at a time -/

inductive Call where
  | allocate (deployer : Deployer) (draws : ℕ → ℕ) (clientIp : Ipv4Addr) (proto : Proto)
      (internalPort suggested lifetimeSecs now : ℕ)
  | release (alloc : Allocation) (now : ℕ)
  | releaseByClient (clientIp : Ipv4Addr) (internalPort : ℕ) (proto : Proto) (now : ℕ)
  | restore (entries : List Allocation) (now : ℕ)
  | takeForIp (clientIp : Ipv4Addr) (now : ℕ)
  | takeForPort (port now : ℕ)
  | takeForSlot (port : ℕ) (proto : Proto)
  | revokeForAbuse (port quarantine now : ℕ)
  | rateLimitStatus (clientIp : Ipv4Addr) (now : ℕ)

def Call.run (cfg : AllocatorConfig) (g : Inner) : Call → Report × Inner
  | .allocate deployer draws clientIp proto internalPort suggested lifetimeSecs now =>
    let (outcome, g) := allocateAtCollecting cfg deployer draws g clientIp proto internalPort
      suggested lifetimeSecs now
    let granted := outcome.result.toOption
    (⟨granted.toList, reportEvicted outcome.evicted granted, []⟩, g)
  | .release alloc now =>
    -- what is reported is what was in the slot, not what the caller names
    (⟨[], (g.active.lookup alloc.slot).toList, []⟩, releaseAt cfg g alloc now)
  | .releaseByClient clientIp internalPort proto now =>
    let (released, g) := releaseByClientAt cfg g clientIp internalPort proto now
    (⟨[], released.toList, []⟩, g)
  | .restore entries now =>
    let (g, kept) := restoreAt g entries now
    (⟨kept, [], []⟩, g)
  | .takeForIp clientIp now =>
    let (g, taken) := takeActiveForIpAt cfg g clientIp now
    (⟨[], [], taken⟩, g)
  | .takeForPort port now =>
    let (g, taken) := takeActiveForPortAt cfg g port now
    (⟨[], [], taken⟩, g)
  | .takeForSlot port proto =>
    let (taken, g) := takeActiveForSlot g port proto
    (⟨[], [], taken.toList⟩, g)
  | .revokeForAbuse port quarantine now =>
    let (g, taken) := revokeForAbuseAt cfg g port quarantine now
    (⟨[], [], taken.map Prod.fst⟩, g)
  | .rateLimitStatus clientIp now => (.none, (rateLimitStatusAt cfg g clientIp now).2)

structure Ledgered where
  inner : Inner
  ledger : Finset Binding

def Ledgered.empty : Ledgered := ⟨Inner.empty, ∅⟩

def Ledgered.call (cfg : AllocatorConfig) (s : Ledgered) (c : Call) : Ledgered :=
  ⟨(c.run cfg s.inner).2, (c.run cfg s.inner).1.enter s.ledger⟩

/-- One step: an operation, or another iteration order of the hash map. -/
inductive LedgerStep (cfg : AllocatorConfig) (s : Ledgered) : Ledgered → Prop
  | call (c : Call) : LedgerStep cfg s (s.call cfg c)
  | reorder (entries : List (Σ _ : Slot, Allocation)) (h : s.inner.active.entries.Perm entries) :
      LedgerStep cfg s
        { s with inner := s.inner.withActive (Table.reorder s.inner.active entries h) }

/-! ### Bindings -/

section Bindings

variable {t t' : Table Slot Allocation} {granted removed : List Allocation} {b : Binding}

theorem mem_bindingsOf : b ∈ bindingsOf removed ↔ ∃ a ∈ removed, a.binding = b := by
  simp [bindingsOf]

theorem mem_bindings : b ∈ bindings t ↔ ∃ slot a, t.lookup slot = some a ∧ a.binding = b := by
  simp only [bindings, mem_bindingsOf, List.mem_map]
  constructor
  · rintro ⟨a, ⟨e, he, rfl⟩, rfl⟩
    exact ⟨e.1, e.2, Table.lookup_of_mem_entries he, rfl⟩
  · rintro ⟨slot, a, hl, rfl⟩
    exact ⟨a, ⟨⟨slot, a⟩, Table.mem_entries_iff.mpr hl, rfl⟩, rfl⟩

theorem slot_eq_of_binding {a a' : Allocation} (h : a.binding = a'.binding) : a.slot = a'.slot :=
  congrArg (fun b : Binding => (b.1, b.2.1)) h

/-- **The reports add up**: the bindings of `t'` are those of `t` and of what was granted,
without those of what was removed. -/
def Balances (t t' : Table Slot Allocation) (granted removed : List Allocation) : Prop :=
  bindings t' = (bindings t ∪ bindingsOf granted) \ bindingsOf removed

theorem balances_iff : Balances t t' granted removed ↔ ∀ b, b ∈ bindings t' ↔
    (b ∈ bindings t ∨ b ∈ bindingsOf granted) ∧ b ∉ bindingsOf removed := by
  simp only [Balances, Finset.ext_iff, Finset.mem_sdiff, Finset.mem_union]

theorem Evicts.balances (h : Evicts t t' removed) (hp : Present t removed) (hkey : Keyed t) :
    Balances t t' [] removed := by
  refine balances_iff.mpr fun b => ?_
  constructor
  · intro hb
    obtain ⟨slot, a, hl, rfl⟩ := mem_bindings.mp hb
    refine ⟨.inl (mem_bindings.mpr ⟨slot, a, h.lookup hl, rfl⟩), fun hmem => ?_⟩
    obtain ⟨a', ha', hsame⟩ := mem_bindingsOf.mp hmem
    -- a mapping on the list has its slot emptied
    have hslot : slot ∈ removed.map Allocation.slot := by
      rw [show slot = a.slot from hkey slot a (h.lookup hl), ← slot_eq_of_binding hsame]
      exact List.mem_map_of_mem ha'
    rw [h slot, if_pos hslot] at hl
    cases hl
  · rintro ⟨hb | hb, hnot⟩
    · obtain ⟨slot, a, hl, rfl⟩ := mem_bindings.mp hb
      refine mem_bindings.mpr ⟨slot, a, ?_, rfl⟩
      rw [h slot, if_neg, hl]
      intro hslot
      obtain ⟨a', ha', rfl⟩ := List.mem_map.mp hslot
      -- what was in an emptied slot is on the list
      rw [hp a' ha'] at hl
      cases hl
      exact hnot (mem_bindingsOf.mpr ⟨_, ha', rfl⟩)
    · exact absurd hb (by simp [bindingsOf])

theorem mem_bindings_insert {a : Allocation} (hfree : t.lookup a.slot = none) :
    b ∈ bindings (t.insert a.slot a) ↔ b ∈ bindings t ∨ a.binding = b := by
  simp only [mem_bindings, Table.lookup_insert']
  constructor
  · rintro ⟨slot, a', hl, rfl⟩
    split at hl
    · cases hl
      exact .inr rfl
    · exact .inl ⟨slot, a', hl, rfl⟩
  · rintro (⟨slot, a', hl, rfl⟩ | rfl)
    · refine ⟨slot, a', ?_, rfl⟩
      rw [if_neg, hl]
      rintro rfl
      rw [hfree] at hl
      cases hl
    · exact ⟨a.slot, a, by rw [if_pos rfl], rfl⟩

theorem mem_reportEvicted {evicted : List Allocation} {g : Option Allocation} {a : Allocation} :
    a ∈ reportEvicted evicted g ↔ a ∈ evicted ∧ ∀ a' ∈ g, a.binding ≠ a'.binding := by
  cases g <;> simp [reportEvicted]

/-- **A request balances**, refused or granted: what it was granted again is neither new
nor gone. -/
theorem Leaves.balances {result : Except NatPmpError Allocation}
    (h : Leaves t removed result t') (hacc : Accounted t removed result) (hkey : Keyed t) :
    Balances t t' result.toOption.toList (reportEvicted removed result.toOption) := by
  cases h with
  | refused error hevicts =>
    have hall : reportEvicted removed none = removed := by simp [reportEvicted]
    exact hall.symm ▸ hevicts.balances hacc.present hkey
  | @granted base a hevicts =>
    have hbase := balances_iff.mp (hevicts.balances hacc.present hkey)
    have hfree : base.lookup a.slot = none := by
      rw [hevicts a.slot]
      split
      · rfl
      · rename_i hnot
        exact (hacc.vacant a rfl).resolve_left hnot
    refine balances_iff.mpr fun b => ?_
    rw [mem_bindings_insert hfree, hbase]
    simp only [mem_bindingsOf, mem_reportEvicted, Except.toOption, Option.toList_some,
      List.mem_singleton, List.not_mem_nil, Option.mem_def, Option.some.injEq]
    constructor
    · rintro (⟨hb | ⟨-, hno, -⟩, hnot⟩ | rfl)
      · exact ⟨.inl hb, fun ⟨a', ha', hsame⟩ => hnot ⟨a', ha'.1, hsame⟩⟩
      · exact absurd hno id
      · exact ⟨.inr ⟨a, rfl, rfl⟩, fun ⟨a', ha', hsame⟩ => ha'.2 a rfl hsame⟩
    · rintro ⟨hb | ⟨a', rfl, rfl⟩, hnot⟩
      · by_cases hsame : a.binding = b
        · exact .inr hsame
        · refine .inl ⟨.inl hb, fun ⟨a', ha', heq⟩ => hnot ⟨a', ⟨ha', ?_⟩, heq⟩⟩
          rintro a'' rfl
          rw [heq]
          exact Ne.symm hsame
      · exact .inr rfl

theorem Restores.balances (h : Restores t t' granted) : Balances t t' granted [] := by
  refine balances_iff.mpr fun b => ?_
  simp only [mem_bindings, mem_bindingsOf, List.not_mem_nil, false_and, exists_false,
    not_false_eq_true, and_true]
  constructor
  · rintro ⟨slot, a, hl, rfl⟩
    by_cases hslot : slot ∈ granted.map Allocation.slot
    · obtain ⟨a', ha', rfl⟩ := List.mem_map.mp hslot
      rw [h.restored a' ha'] at hl
      cases hl
      exact .inr ⟨_, ha', rfl⟩
    · rw [h.others slot hslot] at hl
      exact .inl ⟨slot, a, hl, rfl⟩
  · rintro (⟨slot, a, hl, rfl⟩ | ⟨a, ha, rfl⟩)
    · refine ⟨slot, a, ?_, rfl⟩
      rw [h.others slot, hl]
      intro hslot
      obtain ⟨a', ha', rfl⟩ := List.mem_map.mp hslot
      rw [h.free a' ha'] at hl
      cases hl
    · exact ⟨a.slot, a, h.restored a ha, rfl⟩

end Bindings

/-! ### Every operation balances -/

variable {cfg : AllocatorConfig} {g g' : Inner}

structure Takes (t t' : Table Slot Allocation) (removed : List Allocation) : Prop where
  evicts : Evicts t t' removed
  present : Present t removed

theorem Takes.refl (t : Table Slot Allocation) : Takes t t [] := ⟨.refl t, .nil t⟩

theorem Takes.trans {t t' t'' : Table Slot Allocation} {removed removed' : List Allocation}
    (h : Takes t t' removed) (h' : Takes t' t'' removed') : Takes t t'' (removed ++ removed') :=
  ⟨h.evicts.trans h'.evicts, h.present.append (h.evicts.present h'.present)⟩

theorem takes_erase {t : Table Slot Allocation} (hkey : Keyed t) (slot : Slot) :
    Takes t (t.erase slot) (t.lookup slot).toList := by
  rcases hl : t.lookup slot with _ | a
  · refine ⟨fun slot' => ?_, .nil t⟩
    rw [Table.lookup_erase']
    by_cases hs : slot' = slot
    · rw [if_pos hs, hs, hl]
      simp
    · rw [if_neg hs]
      simp
  · have hslot : slot = a.slot := hkey slot a hl
    refine ⟨fun slot' => ?_, fun b hb => ?_⟩
    · rw [Table.lookup_erase']
      simp [← hslot]
    · rw [List.mem_singleton.mp hb, ← hslot, hl]

theorem takes_takeSlot (hkey : Keyed g.active) (slot : Slot) (deadline : ℕ) :
    Takes g.active (g.takeSlot slot deadline).1.active (g.takeSlot slot deadline).2 := by
  have herase := takes_erase hkey slot
  unfold Inner.takeSlot
  rcases hl : g.active.lookup slot with _ | a
  · exact .refl g.active
  · rw [hl] at herase
    exact herase

theorem Keyed.shrink (h : Keyed g.active) (hs : Shrinks g g') : Keyed g'.active :=
  fun slot a hl => h slot a (hs.lookup slot a hl)

section

variable (hkey : Keyed g.active)
include hkey

theorem takes_takePort (port deadline : ℕ) :
    Takes g.active (takePort g port deadline).1.active (takePort g port deadline).2 :=
  (takes_takeSlot hkey (port, .tcp) deadline).trans
    (takes_takeSlot (hkey.shrink (shrinks_takeSlot g (port, .tcp) deadline)) (port, .udp) deadline)

theorem takes_takeActiveForIpAt (cfg) (clientIp : Ipv4Addr) (now : ℕ) :
    Takes g.active (takeActiveForIpAt cfg g clientIp now).1.active
      (takeActiveForIpAt cfg g clientIp now).2 := by
  refine (takeActiveForIpAt_induction (P := fun acc => Keyed acc.1.active ∧
    Takes g.active acc.1.active acc.2) clientIp ⟨hkey, .refl _⟩ ?_).2
  rintro acc slot ⟨hkey', htakes⟩
  exact ⟨hkey'.shrink (shrinks_takeSlot acc.1 slot _), htakes.trans (takes_takeSlot hkey' slot _)⟩

theorem takes_revokeForAbuseAt (cfg) (port quarantine now : ℕ) :
    Takes g.active (revokeForAbuseAt cfg g port quarantine now).1.active
      ((revokeForAbuseAt cfg g port quarantine now).2.map Prod.fst) := by
  unfold revokeForAbuseAt
  dsimp only
  generalize g.abuseQuarantineUntil.insert port _ = quarantined
  have htakes := takes_takePort (g := { g with abuseQuarantineUntil := quarantined }) hkey port
    (now + cfg.cooldown)
  rw [List.map_map, show (Prod.fst ∘ fun alloc : Allocation => _) = id from rfl, List.map_id]
  exact htakes

theorem takes_releaseAt (cfg) (alloc : Allocation) (now : ℕ) :
    Takes g.active (releaseAt cfg g alloc now).active (g.active.lookup alloc.slot).toList := by
  have herase := takes_erase hkey alloc.slot
  unfold releaseAt
  rcases hl : g.active.lookup alloc.slot with _ | a
  · rw [show g.active.lookup (alloc.externalPort, alloc.proto) = none from hl]
    exact .refl g.active
  · rw [show g.active.lookup (alloc.externalPort, alloc.proto) = some a from hl]
    rw [hl] at herase
    exact herase

theorem takes_releaseByClientAt (cfg)
    (clientIp : Ipv4Addr) (internalPort : ℕ) (proto : Proto) (now : ℕ) :
    Takes g.active (releaseByClientAt cfg g clientIp internalPort proto now).2.active
      (releaseByClientAt cfg g clientIp internalPort proto now).1.toList := by
  unfold releaseByClientAt
  rcases hfind : g.active.entries.find? (isSameTuple clientIp internalPort proto) with _ | e
  · exact .refl g.active
  · have herase := takes_erase hkey e.1
    rw [Table.lookup_of_mem_entries (List.mem_of_find?_eq_some hfind)] at herase
    exact herase

end

/-- **Every operation balances.** -/
theorem balances_run (hwf : Wf g) (cfg) (c : Call) :
    Balances g.active (c.run cfg g).2.active (c.run cfg g).1.granted
      (c.run cfg g).1.removed := by
  have hkey : Keyed g.active := hwf.keyed
  have htake : ∀ {t' removed}, Takes g.active t' removed → Balances g.active t' [] removed :=
    fun h => h.evicts.balances h.present hkey
  cases c with
  | allocate deployer draws clientIp proto internalPort suggested lifetimeSecs now =>
    obtain ⟨-, hleaves, -, hacc⟩ := allocateAtCollecting_leaves hwf cfg deployer draws clientIp
      proto internalPort suggested lifetimeSecs now
    have hbal := hleaves.balances hacc hkey
    rw [← List.append_nil (reportEvicted _ _)] at hbal
    exact hbal
  | release alloc now =>
    have hbal := htake (takes_releaseAt hkey cfg alloc now)
    rw [← List.append_nil (Option.toList _)] at hbal
    exact hbal
  | releaseByClient clientIp internalPort proto now =>
    have hbal := htake (takes_releaseByClientAt hkey cfg clientIp internalPort proto now)
    rw [← List.append_nil (Option.toList _)] at hbal
    exact hbal
  | restore entries now => exact (restoreAt_restores g entries now).balances
  | takeForIp clientIp now => exact htake (takes_takeActiveForIpAt hkey cfg clientIp now)
  | takeForPort port now => exact htake (takes_takePort hkey port _)
  | takeForSlot port proto => exact htake (takes_erase hkey (port, proto))
  | revokeForAbuse port quarantine now =>
    exact htake (takes_revokeForAbuseAt hkey cfg port quarantine now)
  | rateLimitStatus clientIp now =>
    obtain ⟨log, hlog⟩ := rateLimitStatusAt_withLog cfg g clientIp now
    show Balances g.active (rateLimitStatusAt cfg g clientIp now).2.active [] []
    rw [hlog]
    exact htake (.refl _)

/-- The maps stay well-formed: but for a request, an operation here is one of the steps
of the allocator, and a request is several of them. -/
theorem Wf.run (hwf : Wf g) (cfg) (c : Call) : Wf (c.run cfg g).2 := by
  cases c with
  | allocate deployer draws clientIp proto internalPort suggested lifetimeSecs now =>
    exact (allocateAtCollecting_leaves hwf cfg deployer draws clientIp proto internalPort suggested
      lifetimeSecs now).1
  | release alloc now => exact hwf.apply cfg (.release alloc now)
  | releaseByClient clientIp internalPort proto now =>
    exact hwf.apply cfg (.releaseByClient clientIp internalPort proto now)
  | restore entries now => exact hwf.apply cfg (.restore entries now)
  | takeForIp clientIp now => exact hwf.apply cfg (.takeForIp clientIp now)
  | takeForPort port now => exact hwf.apply cfg (.takeForPort port now)
  | takeForSlot port proto => exact hwf.apply cfg (.takeForSlot port proto)
  | revokeForAbuse port quarantine now => exact hwf.apply cfg (.revokeForAbuse port quarantine now)
  | rateLimitStatus clientIp now => exact hwf.apply cfg (.rateLimitStatus clientIp now)

/-! ### Over a run -/

theorem bindings_reorder (t : Table Slot Allocation) (entries : List (Σ _ : Slot, Allocation))
    (h : t.entries.Perm entries) : bindings (t.reorder entries h) = bindings t := by
  ext b
  simp only [mem_bindings, Table.lookup_reorder]

/-- **The ledger is the table.**  However the operations follow each other, what the
deployer has entered are the bindings of the active table; and no binding is reported to
the release observer that is active after the operation. -/
theorem ledger_is_active_table {s : Ledgered}
    (h : Transition.Reachable (· = Ledgered.empty) (LedgerStep cfg) s) :
    s.ledger = bindings s.inner.active ∧
      ∀ (c : Call), ∀ a ∈ (c.run cfg s.inner).1.released,
        a.binding ∉ bindings (c.run cfg s.inner).2.active := by
  have hinv : Wf s.inner ∧ s.ledger = bindings s.inner.active := by
    refine h.invariant (I := fun s => Wf s.inner ∧ s.ledger = bindings s.inner.active) ?_ ?_
    · rintro s rfl
      exact ⟨.empty, rfl⟩
    · rintro s s' ⟨hwf, hledger⟩ hstep
      cases hstep with
      | call c =>
        have hbal : bindings _ = _ := balances_run hwf cfg c
        refine ⟨hwf.run cfg c, ?_⟩
        show (c.run cfg s.inner).1.enter s.ledger = bindings (c.run cfg s.inner).2.active
        rw [hbal, Report.enter, hledger]
      | reorder entries hperm =>
        refine ⟨hwf.shrink (shrinks_reorder s.inner entries hperm), ?_⟩
        show s.ledger = bindings (Table.reorder s.inner.active entries hperm)
        rw [bindings_reorder, hledger]
  refine ⟨hinv.2, fun c a ha hmem => ?_⟩
  have hb := (balances_iff.mp (balances_run hinv.1 cfg c) a.binding).mp hmem
  exact hb.2 (mem_bindingsOf.mpr ⟨a, List.mem_append_left _ ha, rfl⟩)

/-- Port 80 of a client is mapped, renewed in place and moved to port 50000; its mapping
is then restored on the port it left, and port 50000 is taken away. -/
def renewals : List Call :=
  [.allocate .unwired id 1 .tcp 80 0 60 0, .allocate .unwired id 1 .tcp 80 0 60 0,
    .allocate .unwired id 1 .tcp 80 50000 60 0,
    .restore [⟨49152, 1, 80, .tcp, 60 * nanosPerSec⟩] 0, .takeForPort 50000 0]

theorem ledger_is_active_table_renewals : ∃ s,
    Transition.Reachable (· = Ledgered.empty) (LedgerStep .warrenDefault) s ∧
    s.ledger = {(49152, .tcp, 1)} ∧ s.ledger = bindings s.inner.active := by
  have hreach : Transition.Reachable (· = Ledgered.empty) (LedgerStep .warrenDefault)
      (renewals.foldl (Ledgered.call .warrenDefault) .empty) :=
    Transition.Reachable.foldl (fun _ c => .call c) renewals (.start rfl)
  exact ⟨_, hreach, by decide, (ledger_is_active_table hreach).1⟩

end WarrenGuard.NatPmp
