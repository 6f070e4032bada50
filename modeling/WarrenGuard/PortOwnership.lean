/-
Every external port belongs to one client.

The allocator's table holds a TCP and a UDP slot for each port.  Whichever way a slot is filled,
the other slot of the port is empty or belongs to the same address.  The invariant `Wf` says so,
together with the bound that lets a request skip the expiry sweep:

* `Wf.shrink`, `shrinks_apply` — removing mappings keeps it, and most operations do no other;
* `Wf.insertActive` — so does a mapping for the owner of its port, and so do the two operations
  that insert (`Wf.decideSwept`, `Wf.restoreAt`);
* `reachable_legs_share_owner` — both slots of a port belong to one address;
* `sweep_equals_scan` — the bound loses no expired mapping.
-/
import WarrenGuard.PortPass
import WarrenGuard.Transition

namespace WarrenGuard.NatPmp

/-! ### The system: operations in any order, at any times -/

/-- The operations on the maps, each with what it is given.  A request is a
sequence of passes: other operations may come between two of them. -/
inductive Op where
  | trim (now : ℕ)
  | pass (liveWired : Bool) (draws : ℕ → ℕ) (req : MapRequest) (answers : DeployerAnswers)
  | release (alloc : Allocation) (now : ℕ)
  | releaseByClient (clientIp : Ipv4Addr) (internalPort : ℕ) (proto : Proto) (now : ℕ)
  | restore (entries : List Allocation) (now : ℕ)
  | takeForIp (clientIp : Ipv4Addr) (now : ℕ)
  | takeForPort (port now : ℕ)
  | takeForSlot (port : ℕ) (proto : Proto)
  | revokeForAbuse (port quarantine now : ℕ)
  | rateLimitStatus (clientIp : Ipv4Addr) (now : ℕ)

def Op.apply (cfg : AllocatorConfig) (g : Inner) : Op → Inner
  | .trim now => g.trimSideMaps now cfg.rateLimitWindow
  | .pass liveWired draws req answers => (tryAllocate cfg liveWired draws g req answers []).2.1
  | .release alloc now => releaseAt cfg g alloc now
  | .releaseByClient clientIp internalPort proto now =>
    (releaseByClientAt cfg g clientIp internalPort proto now).2
  | .restore entries now => (restoreAt g entries now).1
  | .takeForIp clientIp now => (takeActiveForIpAt cfg g clientIp now).1
  | .takeForPort port now => (takeActiveForPortAt cfg g port now).1
  | .takeForSlot port proto => (takeActiveForSlot g port proto).2
  | .revokeForAbuse port quarantine now => (revokeForAbuseAt cfg g port quarantine now).1
  | .rateLimitStatus clientIp now => (rateLimitStatusAt cfg g clientIp now).2

/-- One step: an operation, or another iteration order of the hash map. -/
inductive AllocatorStep (cfg : AllocatorConfig) (g : Inner) : Inner → Prop
  | op (o : Op) : AllocatorStep cfg g (o.apply cfg g)
  | reorder (entries : List (Σ _ : Slot, Allocation)) (h : g.active.entries.Perm entries) :
      AllocatorStep cfg g (g.withActive (Table.reorder g.active entries h))

inductive StepIf (cfg : AllocatorConfig) (ok : Inner → Op → Prop) (g : Inner) : Inner → Prop
  | op (o : Op) (h : ok g o) : StepIf cfg ok g (o.apply cfg g)
  | reorder (entries : List (Σ _ : Slot, Allocation)) (h : g.active.entries.Perm entries) :
      StepIf cfg ok g (g.withActive (Table.reorder g.active entries h))

def Reachable (cfg : AllocatorConfig) : Inner → Prop :=
  Transition.Reachable (· = Inner.empty) (AllocatorStep cfg)

/-! ### The invariant -/

/-- Every mapping sits in its own slot. -/
def Keyed (t : Table Slot Allocation) : Prop :=
  ∀ slot a, t.lookup slot = some a → slot = (a.externalPort, a.proto)

/-- **Well-formed maps**: a mapping sits in its own slot, both slots of a port
belong to one address, and `nextExpiry` is never later than a lease's end. -/
structure Wf (g : Inner) : Prop where
  keyed : Keyed g.active
  single : ∀ p proto a, g.active.lookup (p, proto) = some a → portOwner g p = some a.internalIp
  bounded : ∀ slot a, g.active.lookup slot = some a →
    ∃ t, g.nextExpiry = some t ∧ t ≤ a.expiresAt

variable {cfg : AllocatorConfig} {g g' g'' : Inner}

variable {owner : Ipv4Addr} {a : Allocation}

variable {clientIp : Ipv4Addr} {cooldown now p port : ℕ} {req : MapRequest} {slot : Slot}

theorem exists_of_portOwner (h : portOwner g p = some owner) :
    ∃ proto a, g.active.lookup (p, proto) = some a ∧ a.internalIp = owner := by
  obtain ⟨a, hor, hip⟩ := Option.map_eq_some_iff.mp h
  rcases Option.or_eq_some_iff.mp hor with htcp | ⟨-, hudp⟩
  · exact ⟨.tcp, a, htcp, hip⟩
  · exact ⟨.udp, a, hudp, hip⟩

theorem exists_portOwner {proto : Proto} (h : g.active.lookup (p, proto) = some a) :
    ∃ owner, portOwner g p = some owner := by
  by_contra hno
  have hnone : portOwner g p = none := by
    rcases howner : portOwner g p with _ | owner
    · rfl
    · exact absurd ⟨owner, howner⟩ hno
  obtain ⟨htcp, hudp⟩ := portOwner_eq_none.mp hnone
  cases proto with
  | tcp => rw [htcp] at h; cases h
  | udp => rw [hudp] at h; cases h

theorem portOwner_eq_of_forall {proto : Proto} (h : g.active.lookup (p, proto) = some a)
    (hall : ∀ proto' a', g.active.lookup (p, proto') = some a' → a'.internalIp = owner) :
    portOwner g p = some owner := by
  obtain ⟨owner', howner'⟩ := exists_portOwner h
  obtain ⟨proto', a', hlook, hip⟩ := exists_of_portOwner howner'
  rw [howner', ← hip, hall proto' a' hlook]

structure Shrinks (g g' : Inner) : Prop where
  lookup : ∀ slot a, g'.active.lookup slot = some a → g.active.lookup slot = some a
  nextExpiry : g'.nextExpiry = g.nextExpiry

theorem Shrinks.refl (g) : Shrinks g g := ⟨fun _ _ h => h, rfl⟩

theorem Shrinks.of_eq (hactive : g'.active = g.active) (hexp : g'.nextExpiry = g.nextExpiry) :
    Shrinks g g' :=
  ⟨fun _ _ h => by rwa [hactive] at h, hexp⟩

theorem Shrinks.trans (h : Shrinks g g') (h' : Shrinks g' g'') : Shrinks g g'' :=
  ⟨fun slot a hl => h.lookup slot a (h'.lookup slot a hl), h'.nextExpiry.trans h.nextExpiry⟩

theorem Shrinks.of_erase (slot) (hactive : g'.active = g.active.erase slot)
    (hexp : g'.nextExpiry = g.nextExpiry) : Shrinks g g' := by
  refine ⟨fun slot' a hl => ?_, hexp⟩
  rw [hactive, Table.lookup_erase'] at hl
  split at hl
  · cases hl
  · exact hl

theorem Wf.empty : Wf Inner.empty where
  keyed _ _ h := by cases h
  single _ _ _ h := by cases h
  bounded _ _ h := by cases h

/-- **Removing mappings keeps the maps well-formed.** -/
theorem Wf.shrink (h : Wf g) (hs : Shrinks g g') : Wf g' where
  keyed slot a hl := h.keyed slot a (hs.lookup slot a hl)
  single p proto a hl := by
    refine portOwner_eq_of_forall hl fun proto' a' hl' => ?_
    have howner := h.single p proto a (hs.lookup _ _ hl)
    rw [h.single p proto' a' (hs.lookup _ _ hl')] at howner
    exact Option.some.inj howner
  bounded slot a hl := by
    rw [hs.nextExpiry]
    exact h.bounded slot a (hs.lookup slot a hl)

theorem earlier_le (next : Option ℕ) (t : ℕ) : ∃ u, earlier next t = some u ∧ u ≤ t ∧
    ∀ u', next = some u' → u ≤ u' := by
  cases next with
  | none => exact ⟨t, rfl, le_rfl, fun u' h => by cases h⟩
  | some v =>
    refine ⟨min v t, rfl, min_le_right v t, fun u' h => ?_⟩
    cases h
    exact min_le_left v t

theorem lookup_insertActive (g : Inner) (a : Allocation) (slot) :
    (g.insertActive a).active.lookup slot
      = if slot = (a.externalPort, a.proto) then some a else g.active.lookup slot :=
  Table.lookup_insert' _ _ _ _

theorem portOwner_insertActive {p : ℕ} (hp : p ≠ a.externalPort) :
    portOwner (g.insertActive a) p = portOwner g p := by
  have hsame : ∀ proto, (g.insertActive a).active.lookup (p, proto)
      = g.active.lookup (p, proto) := by
    intro proto
    rw [lookup_insertActive, if_neg fun heq => hp (congrArg Prod.fst heq)]
  rw [portOwner, hsame, hsame]
  rfl

/-- **A mapping for the owner of its port keeps the maps well-formed.** -/
theorem Wf.insertActive (h : Wf g) (a)
    (hown : ∀ owner, portOwner g a.externalPort = some owner → owner = a.internalIp) :
    Wf (g.insertActive a) := by
  refine ⟨fun slot b hl => ?_, fun p proto b hl => ?_, fun slot b hl => ?_⟩
  · rw [lookup_insertActive] at hl
    split at hl
    · cases hl
      assumption
    · exact h.keyed slot b hl
  · -- a slot of the new mapping's port is the mapping itself or one of its owner's
    have hip : p = a.externalPort → ∀ proto' b',
        (g.insertActive a).active.lookup (p, proto') = some b' → b'.internalIp = a.internalIp := by
      intro hp proto' b' hb'
      rw [lookup_insertActive] at hb'
      split at hb'
      · cases hb'
        rfl
      · exact hown _ (hp ▸ h.single p proto' b' hb')
    by_cases hp : p = a.externalPort
    · rw [hip hp proto b hl]
      exact portOwner_eq_of_forall hl (hip hp)
    · rw [lookup_insertActive, if_neg fun heq => hp (congrArg Prod.fst heq)] at hl
      rw [portOwner_insertActive hp]
      exact h.single p proto b hl
  -- the new deadline bounds the new mapping and leaves the old bounds
  · obtain ⟨u, hu, hle, hmin⟩ := earlier_le g.nextExpiry a.expiresAt
    rw [lookup_insertActive] at hl
    split at hl
    · cases hl
      exact ⟨u, hu, hle⟩
    · obtain ⟨t, ht, hta⟩ := h.bounded slot b hl
      exact ⟨u, hu, (hmin t ht).trans hta⟩

/-! ### The expiry sweep -/

theorem active_armExpired (now cooldown) (g : Inner) (e : Σ _ : Slot, Allocation) :
    (g.armExpired now cooldown e).active = g.active ∧
      (g.armExpired now cooldown e).nextExpiry = g.nextExpiry := by
  unfold Inner.armExpired
  dsimp only
  split <;> exact ⟨rfl, rfl⟩

theorem active_foldl_armExpired (now cooldown) (es : List (Σ _ : Slot, Allocation)) (g) :
    (es.foldl (Inner.armExpired now cooldown) g).active = g.active ∧
      (es.foldl (Inner.armExpired now cooldown) g).nextExpiry = g.nextExpiry := by
  induction es generalizing g with
  | nil => exact ⟨rfl, rfl⟩
  | cons e es ih =>
    obtain ⟨hactive, hexp⟩ := active_armExpired now cooldown g e
    obtain ⟨hactive', hexp'⟩ := ih (g.armExpired now cooldown e)
    exact ⟨hactive'.trans hactive, hexp'.trans hexp⟩

theorem foldl_earlier_le (es : List (Σ _ : Slot, Allocation)) (next : Option ℕ) (t : ℕ)
    (h : next = some t ∨ ∃ e ∈ es, e.2.expiresAt = t) :
    ∃ u, es.foldl (fun next e => earlier next e.2.expiresAt) next = some u ∧ u ≤ t := by
  induction es generalizing next t with
  | nil =>
    rcases h with h | ⟨e, he, -⟩
    · exact ⟨t, h, le_rfl⟩
    · cases he
  | cons e es ih =>
    obtain ⟨u, hu, hle, hmin⟩ := earlier_le next e.2.expiresAt
    rw [List.foldl_cons]
    rcases h with h | ⟨e', he', rfl⟩
    · obtain ⟨v, hv, hvu⟩ := ih (earlier next e.2.expiresAt) u (.inl hu)
      exact ⟨v, hv, hvu.trans (hmin t h)⟩
    · rcases List.mem_cons.mp he' with rfl | hmem
      · obtain ⟨v, hv, hvu⟩ := ih (earlier next e'.2.expiresAt) u (.inl hu)
        exact ⟨v, hv, hvu.trans hle⟩
      · exact ih (earlier next e.2.expiresAt) e'.2.expiresAt (.inr ⟨e', hmem, rfl⟩)

theorem sweepExpired_of_skip (h : (g.nextExpiry.all fun t => decide (now < t)) = true) :
    g.sweepExpired now cooldown = (g, []) := by
  unfold Inner.sweepExpired
  rw [if_pos h]

theorem active_sweepExpired (cooldown) (h : ¬ (g.nextExpiry.all fun t => decide (now < t)) = true) :
    (g.sweepExpired now cooldown).1.active
        = g.active.retain (fun _ a => decide (now < a.expiresAt)) ∧
      (g.sweepExpired now cooldown).1.nextExpiry
        = (g.active.retain fun _ a => decide (now < a.expiresAt)).entries.foldl
            (fun next e => earlier next e.2.expiresAt) none := by
  unfold Inner.sweepExpired
  rw [if_neg h]
  exact active_foldl_armExpired now cooldown _ _

theorem Wf.unexpired (h : Wf g)
    (hskip : (g.nextExpiry.all fun t => decide (now < t)) = true) {e : Σ _ : Slot, Allocation}
    (he : e ∈ g.active.entries) : now < e.2.expiresAt := by
  obtain ⟨t, ht, hle⟩ := h.bounded e.1 e.2 (Table.lookup_of_mem_entries he)
  rw [ht] at hskip
  exact (show now < t by simpa using hskip).trans_le hle

/-- **The sweep removes exactly the mappings expired at `now`.** -/
theorem Wf.active_sweep (h : Wf g) (now cooldown) :
    (g.sweepExpired now cooldown).1.active
      = g.active.retain fun _ a => decide (now < a.expiresAt) := by
  by_cases hskip : (g.nextExpiry.all fun t => decide (now < t)) = true
  · rw [sweepExpired_of_skip hskip]
    exact AList.ext (List.filter_eq_self.mpr fun e he => decide_eq_true (h.unexpired hskip he)).symm
  · exact (active_sweepExpired cooldown hskip).1

theorem Wf.lookup_of_sweep (h : Wf g)
    (hl : (g.sweepExpired now cooldown).1.active.lookup slot = some a) :
    g.active.lookup slot = some a := by
  rw [h.active_sweep, Table.lookup_retain] at hl
  exact (Option.filter_eq_some_iff.mp hl).1

theorem Wf.sweepExpired (h : Wf g) (now cooldown) : Wf (g.sweepExpired now cooldown).1 := by
  by_cases hskip : (g.nextExpiry.all fun t => decide (now < t)) = true
  · rw [sweepExpired_of_skip hskip]
    exact h
  obtain ⟨hactive, hexp⟩ := active_sweepExpired cooldown hskip
  have hsub : Shrinks g (g.withActive (g.active.retain fun _ a => decide (now < a.expiresAt))) := by
    refine ⟨fun slot a hl => ?_, rfl⟩
    have hl' : (g.active.retain fun _ a => decide (now < a.expiresAt)).lookup slot = some a := hl
    rw [Table.lookup_retain] at hl'
    exact (Option.filter_eq_some_iff.mp hl').1
  have hwf := h.shrink hsub
  refine ⟨fun slot a hl => ?_, fun p proto a hl => ?_, fun slot a hl => ?_⟩
  · rw [hactive] at hl
    exact hwf.keyed slot a hl
  · rw [hactive] at hl
    have howner := hwf.single p proto a hl
    unfold portOwner at howner ⊢
    rw [hactive]
    exact howner
  · rw [hactive] at hl
    rw [hexp]
    exact foldl_earlier_le _ none a.expiresAt
      (.inr ⟨⟨slot, a⟩, Table.mem_entries_iff.mpr hl, rfl⟩)

/-! ### The operations that insert -/

theorem shrinks_dropTuple (g req) : Shrinks g (dropTuple g req) :=
  ⟨fun _ _ h => lookup_of_lookup_dropTuple h, rfl⟩

theorem portOwner_removePort (g port) :
    portOwner (removePort g port).1 port = none := by
  rw [portOwner_eq_none, lookup_removePort, lookup_removePort]
  exact ⟨if_pos rfl, if_pos rfl⟩

theorem shrinks_removePort (g port) : Shrinks g (removePort g port).1 :=
  ⟨fun _ _ h => lookup_of_lookup_removePort h, rfl⟩

theorem Wf.owner_of_shrinks (h : Wf g) (hs : Shrinks g g')
    (howner : portOwner g' p = some owner) : portOwner g p = some owner := by
  obtain ⟨proto, a, hlook, rfl⟩ := exists_of_portOwner howner
  exact h.single p proto a (hs.lookup _ _ hlook)

/-- **A grant only fills a slot of a port that is free or the client's own**:
one case for each way the port was chosen. -/
theorem Wf.grant_owner (h : Wf g) {suggested port : ℕ}
    {answers : DeployerAnswers} {reclaim : Bool} {draws : ℕ → ℕ}
    (hpass : Passes cfg g req suggested answers reclaim)
    (hport : suggested ≠ 0 ∧ port = suggested ∨ suggested = 0 ∧
      pickPort cfg draws (dropTuple g req) req.proto ((lastHeld g req).getD 0) req.clientIp
        req.now = some port)
    (howner : portOwner (grantBase g req suggested reclaim) port = some owner) :
    owner = req.clientIp := by
  cases hpass with
  | none hzero =>
    obtain ⟨-, hpick⟩ := hport.resolve_left fun hne => hne.1 hzero
    change portOwner (dropTuple g req) port = some owner at howner
    rcases pickPort_owner hpick with hfree | hmine
    · rw [hfree] at howner
      cases howner
    · rw [hmine] at howner
      exact (Option.some.inj howner).symm
  | cheap hne hcheap =>
    obtain ⟨-, rfl⟩ := hport.resolve_right fun hzero => hne hzero.1
    exact (cheapGrantable_true hcheap).2 owner
      (h.owner_of_shrinks (shrinks_dropTuple g req) howner)
  | reclaim hne =>
    obtain ⟨-, rfl⟩ := hport.resolve_right fun hzero => hne hzero.1
    change portOwner (removePort (dropTuple g req) port).1 port = some owner at howner
    rw [portOwner_removePort] at howner
    cases howner

theorem shrinks_grantBase (g req) (suggested : ℕ) (reclaim : Bool) :
    Shrinks g (grantBase g req suggested reclaim) := by
  cases reclaim with
  | false => exact shrinks_dropTuple g req
  | true => exact (shrinks_dropTuple g req).trans (shrinks_removePort _ suggested)

/-- **A pass keeps the maps well-formed**, whatever the deployer answered. -/
theorem Wf.decideSwept (h : Wf g) (cfg) (liveWired : Bool) (draws : ℕ → ℕ) (req)
    (answers : DeployerAnswers) (evicted : List Allocation) :
    Wf (decideSwept cfg liveWired draws g req answers evicted).2.1 := by
  have hpass := decideSwept_pass cfg liveWired draws g req answers evicted
  generalize NatPmp.decideSwept .. = r at hpass ⊢
  cases hpass with
  | asks => exact h.shrink (.of_eq rfl rfl)
  | refused => exact h.shrink (.of_eq rfl rfl)
  | dropped => exact (h.shrink (shrinks_dropTuple _ _)).shrink (.of_eq rfl rfl)
  | @granted reclaim a base _ hactive hgrant hexpiry =>
    have hbase : Shrinks g base :=
      (shrinks_grantBase g req (effectiveSuggestion g req) reclaim).trans
        (.of_eq hactive (hexpiry.trans (shrinks_grantBase _ _ _ _).nextExpiry.symm))
    refine (h.shrink hbase).insertActive _ fun owner howner => ?_
    rw [portOwner, hactive] at howner
    rw [hgrant.internalIp]
    exact h.grant_owner hgrant.passes.1 hgrant.chosen howner

/-! ### Restoring saved mappings -/

/-- **What a restore does with a mapping**: it passes over it, or puts it into its
slot, which was free, of a port that was free or its client's. -/
theorem restoreEntry_cases (now) (acc : Inner × List Allocation) (entry : Allocation) :
    restoreEntry now acc entry = acc ∨
      restoreEntry now acc entry
          = ((acc.1.recordRestored now entry).insertActive entry, acc.2 ++ [entry]) ∧
        now < entry.expiresAt ∧
        acc.1.active.lookup (entry.externalPort, entry.proto) = none ∧
        ∀ owner, portOwner acc.1 entry.externalPort = some owner → owner = entry.internalIp := by
  unfold NatPmp.restoreEntry
  dsimp only
  split
  · exact .inl rfl
  · rename_i hcond
    simp only [Bool.or_eq_true, decide_eq_true_eq, not_or, not_le, Option.not_isSome_iff_eq_none]
      at hcond
    obtain ⟨⟨hlive, hfree⟩, hother⟩ := hcond
    refine .inr ⟨rfl, hlive, hfree, fun owner howner => ?_⟩
    rw [howner] at hother
    simpa using hother

theorem Wf.restoreEntry (now) {acc : Inner × List Allocation} (h : Wf acc.1)
    (entry : Allocation) : Wf (restoreEntry now acc entry).1 := by
  rcases restoreEntry_cases now acc entry with heq | ⟨heq, -, -, hown⟩
  · rw [heq]
    exact h
  · rw [heq]
    have hrecorded : Wf (acc.1.recordRestored now entry) := h.shrink (.of_eq rfl rfl)
    exact hrecorded.insertActive entry hown

variable {entries : List Allocation} {o : Op}

/-- **What every entry keeps, a restore keeps**: entry by entry, each against the table the
ones before it left. -/
theorem restoreAt_induction {P : Inner × List Allocation → Prop} (h0 : P (g, []))
    (hstep : ∀ acc, ∀ entry ∈ entries, P acc → P (restoreEntry now acc entry)) :
    P (restoreAt g entries now) :=
  List.foldlRecOn entries (restoreEntry now) h0 fun acc hacc entry hmem => hstep acc entry hmem hacc

theorem Wf.restoreAt (h : Wf g) (entries) (now) :
    Wf (restoreAt g entries now).1 := by
  refine restoreAt_induction (P := fun acc => Wf acc.1) h fun acc entry _ hacc => ?_
  exact hacc.restoreEntry now entry

theorem lookup_restoreAt {now : ℕ} {slot : Slot}
    (h : (restoreAt g entries now).1.active.lookup slot = some a) :
    g.active.lookup slot = some a ∨
      a ∈ entries ∧ slot = (a.externalPort, a.proto) ∧ now < a.expiresAt := by
  revert h
  refine restoreAt_induction (P := fun acc => acc.1.active.lookup slot = some a → _) .inl
    fun acc entry hentry hacc hl => ?_
  rcases restoreEntry_cases now acc entry with heq | ⟨heq, hlive, -⟩
  · rw [heq] at hl
    exact hacc hl
  · rw [heq, lookup_insertActive] at hl
    split at hl
    · rename_i hslot
      cases hl
      exact .inr ⟨hentry, hslot, hlive⟩
    · exact hacc hl

/-! ### The operations that remove -/

theorem shrinks_takeSlot (g slot) (deadline : ℕ) :
    Shrinks g (g.takeSlot slot deadline).1 := by
  unfold Inner.takeSlot
  split
  · exact .of_erase slot rfl rfl
  · exact .refl g

/-- Legs of `g` were taken, one after the other, and the cooldown of each ends at `deadline`. -/
inductive Freed (deadline : ℕ) (g : Inner) : Inner → Prop
  | refl : Freed deadline g g
  | take {g' : Inner} (h : Freed deadline g g') (slot : Slot) :
      Freed deadline g (g'.takeSlot slot deadline).1

theorem Freed.shrinks {deadline : ℕ} (h : Freed deadline g g') : Shrinks g g' := by
  induction h with
  | refl => exact .refl g
  | take _ slot ih => exact ih.trans (shrinks_takeSlot _ slot deadline)

theorem freed_takePort (g) (port deadline : ℕ) : Freed deadline g (takePort g port deadline).1 :=
  .take (.take .refl (port, .tcp)) (port, .udp)

theorem shrinks_revokeForAbuseAt (cfg g) (port quarantine now : ℕ) :
    Shrinks g (revokeForAbuseAt cfg g port quarantine now).1 := by
  unfold revokeForAbuseAt
  dsimp only
  generalize g.abuseQuarantineUntil.insert port _ = quarantined
  have harmed : Shrinks g { g with abuseQuarantineUntil := quarantined } := .of_eq rfl rfl
  exact (harmed.trans (freed_takePort _ port _).shrinks).trans (.of_eq rfl rfl)

theorem takeActiveForIpAt_induction {P : Inner × List Allocation → Prop} {cfg : AllocatorConfig}
    (clientIp) (h0 : P (g, []))
    (hstep : ∀ acc slot, P acc → P ((acc.1.takeSlot slot (now + cfg.cooldown)).1,
        acc.2 ++ (acc.1.takeSlot slot (now + cfg.cooldown)).2)) :
    P (takeActiveForIpAt cfg g clientIp now) :=
  List.foldlRecOn _ _ h0 fun acc hacc slot _ => hstep acc slot hacc

theorem freed_takeActiveForIpAt (cfg g clientIp now) :
    Freed (now + cfg.cooldown) g (takeActiveForIpAt cfg g clientIp now).1 :=
  takeActiveForIpAt_induction (P := fun acc => Freed (now + cfg.cooldown) g acc.1) clientIp .refl
    fun _ slot h => h.take slot

theorem freed_releaseByClientAt (cfg g clientIp) (internalPort : ℕ) (proto : Proto) (now) :
    Freed (now + cfg.cooldown) g
      (releaseByClientAt cfg g clientIp internalPort proto now).2 := by
  unfold releaseByClientAt
  split
  · exact .refl
  · rename_i e he
    have htaken : Freed (now + cfg.cooldown) g (g.takeSlot e.1 (now + cfg.cooldown)).1 :=
      .take .refl e.1
    unfold Inner.takeSlot at htaken
    rwa [Table.lookup_of_mem_entries (List.mem_of_find?_eq_some he)] at htaken

theorem rateLimitStatusAt_withLog (cfg g clientIp now) :
    ∃ log, (rateLimitStatusAt cfg g clientIp now).2 = g.withLog log := by
  unfold rateLimitStatusAt
  cases g.rateLimitLog.lookup clientIp with
  | none => exact ⟨g.rateLimitLog, rfl⟩
  | some log => exact ⟨_, rfl⟩

theorem shrinks_rateLimitStatusAt (cfg g clientIp now) :
    Shrinks g (rateLimitStatusAt cfg g clientIp now).2 := by
  obtain ⟨log, hlog⟩ := rateLimitStatusAt_withLog cfg g clientIp now
  rw [hlog]
  exact .of_eq rfl rfl

def Op.Removes : Op → Prop
  | .pass .. => False
  | .restore .. => False
  | _ => True

theorem Op.removes_or (o : Op) : o.Removes ∨
    (∃ liveWired draws req answers, o = .pass liveWired draws req answers) ∨
    ∃ entries now, o = .restore entries now := by
  cases o with
  | pass liveWired draws req answers => exact .inr (.inl ⟨liveWired, draws, req, answers, rfl⟩)
  | restore entries now => exact .inr (.inr ⟨entries, now, rfl⟩)
  | _ => exact .inl trivial

/-- **What is neither a pass nor a restore only removes mappings.** -/
theorem shrinks_apply (cfg g) (ho : o.Removes) :
    Shrinks g (o.apply cfg g) := by
  cases o with
  | trim now => exact .of_eq rfl rfl
  | pass => exact absurd ho id
  | release alloc now =>
    show Shrinks g (releaseAt cfg g alloc now)
    unfold releaseAt
    split
    · exact .refl g
    · exact .of_erase (alloc.externalPort, alloc.proto) rfl rfl
  | releaseByClient clientIp internalPort proto now =>
    exact (freed_releaseByClientAt cfg g clientIp internalPort proto now).shrinks
  | restore => exact absurd ho id
  | takeForIp clientIp now => exact (freed_takeActiveForIpAt cfg g clientIp now).shrinks
  | takeForPort port now => exact (freed_takePort g port _).shrinks
  | takeForSlot port proto => exact .of_erase (port, proto) rfl rfl
  | revokeForAbuse port quarantine now => exact shrinks_revokeForAbuseAt cfg g port quarantine now
  | rateLimitStatus clientIp now => exact shrinks_rateLimitStatusAt cfg g clientIp now

/-- **Every operation keeps the maps well-formed.** -/
theorem Wf.apply (h : Wf g) (cfg) (o : Op) : Wf (o.apply cfg g) := by
  rcases o.removes_or with hrem | ⟨liveWired, draws, req, answers, rfl⟩ | ⟨entries, now, rfl⟩
  · exact h.shrink (shrinks_apply cfg g hrem)
  · exact (h.sweepExpired req.now cfg.cooldown).decideSwept cfg liveWired draws req answers _
  · exact h.restoreAt entries now

theorem shrinks_reorder (g) (entries : List (Σ _ : Slot, Allocation))
    (h : g.active.entries.Perm entries) :
    Shrinks g (g.withActive (Table.reorder g.active entries h)) := by
  refine ⟨fun slot a hl => ?_, rfl⟩
  have hl' : (Table.reorder g.active entries h).lookup slot = some a := hl
  rwa [Table.lookup_reorder] at hl'

theorem Wf.stepIf {ok : Inner → Op → Prop} (h : Wf g) (hstep : StepIf cfg ok g g') : Wf g' := by
  cases hstep with
  | op o => exact h.apply cfg o
  | reorder entries hperm => exact h.shrink (shrinks_reorder g entries hperm)

/-- **Reachable maps are well-formed.** -/
theorem reachable_wf (h : Reachable cfg g) : Wf g := by
  refine Transition.Reachable.invariant ?_ ?_ h
  · rintro g rfl
    exact Wf.empty
  · rintro g g' hwf hstep
    cases hstep with
    | op o => exact hwf.apply cfg o
    | reorder entries hperm => exact hwf.shrink (shrinks_reorder g entries hperm)

/-- **One port, one client.**  In every reachable state, if both the TCP and the
UDP slot of an external port are taken, they belong to the same address. -/
theorem reachable_legs_share_owner {p : ℕ} {a b : Allocation} (h : Reachable cfg g)
    (htcp : g.active.lookup (p, .tcp) = some a) (hudp : g.active.lookup (p, .udp) = some b) :
    a.internalIp = b.internalIp := by
  have hwf := reachable_wf h
  have howner := hwf.single p .tcp a htcp
  rw [hwf.single p .udp b hudp] at howner
  exact (Option.some.inj howner).symm

/-- The first port of the range, mapped for TCP and then for UDP: two passes of
one client, the second suggesting the port the first was granted. -/
def pairOps : List Op :=
  [.pass false id ⟨1, .tcp, 80, 0, clampLifetime 60, 0⟩ ⟨some {1}, some 1, none⟩,
    .pass false id ⟨1, .udp, 80, 49152, clampLifetime 60, 0⟩ ⟨some {1}, some 1, none⟩]

theorem reachable_foldl (cfg) (ops : List Op) (h : Reachable cfg g) :
    Reachable cfg (ops.foldl (Op.apply cfg) g) :=
  Transition.Reachable.foldl (fun _ o => .op o) ops h

/-- The pair is reachable and both of its slots are taken. -/
theorem reachable_legs_share_owner_pair : ∃ g a b, Reachable .warrenDefault g ∧
    g.active.lookup (49152, .tcp) = some a ∧ g.active.lookup (49152, .udp) = some b ∧
      a.internalIp = b.internalIp := by
  have hreach : Reachable .warrenDefault (pairOps.foldl (Op.apply .warrenDefault) Inner.empty) :=
    reachable_foldl _ _ (.start rfl)
  have htcp : (pairOps.foldl (Op.apply .warrenDefault) Inner.empty).active.lookup (49152, .tcp)
      = some ⟨49152, 1, 80, .tcp, 60 * nanosPerSec⟩ := by decide
  have hudp : (pairOps.foldl (Op.apply .warrenDefault) Inner.empty).active.lookup (49152, .udp)
      = some ⟨49152, 1, 80, .udp, 60 * nanosPerSec⟩ := by decide
  exact ⟨_, _, _, hreach, htcp, hudp, reachable_legs_share_owner hreach htcp hudp⟩

/-! ### The sweep and its early exit -/

/-- The sweep as it would be without the bound: every mapping is looked at. -/
def Inner.scanExpired (g : Inner) (now cooldown : ℕ) : Inner × List Allocation :=
  { g with nextExpiry := some 0 }.sweepExpired now cooldown

/-- **The early exit misses nothing.**  In every reachable state `nextExpiry` is absent only
if there is no mapping, and else no later than the end of any; so at any time the sweep
returns what a scan of the whole table returns, and leaves the same maps. -/
theorem sweep_equals_scan (h : Reachable cfg g) :
    (g.nextExpiry = none → g.active.entries = []) ∧
    (∀ t, g.nextExpiry = some t → ∀ e ∈ g.active.entries, t ≤ e.2.expiresAt) ∧
    ∀ now cooldown, (g.sweepExpired now cooldown).2 = (g.scanExpired now cooldown).2 ∧
      { (g.sweepExpired now cooldown).1 with nextExpiry := none }
        = { (g.scanExpired now cooldown).1 with nextExpiry := none } := by
  have hwf := reachable_wf h
  have hbounded : ∀ e ∈ g.active.entries, ∃ t, g.nextExpiry = some t ∧ t ≤ e.2.expiresAt :=
    fun e he => hwf.bounded e.1 e.2 (Table.lookup_of_mem_entries he)
  refine ⟨fun hnone => List.eq_nil_iff_forall_not_mem.mpr fun e he => ?_,
    fun t ht e he => ?_, fun now cooldown => ?_⟩
  · obtain ⟨t, ht, -⟩ := hbounded e he
    exact absurd (hnone.symm.trans ht) (Option.some_ne_none t).symm
  · obtain ⟨t', ht', hle⟩ := hbounded e he
    rwa [Option.some.inj (ht.symm.trans ht')]
  · by_cases hskip : (g.nextExpiry.all fun t => decide (now < t)) = true
    · -- a scan keeps every mapping and arms nothing
      have hlive := fun e he => decide_eq_true (hwf.unexpired hskip (e := e) he)
      have hkept : (g.active.retain fun _ a => decide (now < a.expiresAt)) = g.active :=
        AList.ext (List.filter_eq_self.mpr hlive)
      have hexpired : g.active.entries.filter (fun e => !decide (now < e.2.expiresAt)) = [] :=
        List.filter_eq_nil_iff.mpr fun e he => by simp [hlive e he]
      rw [sweepExpired_of_skip hskip, Inner.scanExpired, Inner.sweepExpired,
        if_neg (by simp), hkept, hexpired]
      exact ⟨rfl, rfl⟩
    · unfold Inner.scanExpired Inner.sweepExpired
      rw [if_neg hskip, if_neg (by simp)]
      exact ⟨rfl, rfl⟩

/-- The pair has a bound, and a scan when it has run out returns both mappings. -/
theorem sweep_equals_scan_pair : ∃ g, Reachable .warrenDefault g ∧
    (g.sweepExpired (60 * nanosPerSec) 1).2.length = 2 ∧
      (g.sweepExpired (60 * nanosPerSec) 1).2 = (g.scanExpired (60 * nanosPerSec) 1).2 := by
  have hreach : Reachable .warrenDefault (pairOps.foldl (Op.apply .warrenDefault) Inner.empty) :=
    reachable_foldl _ _ (.start rfl)
  exact ⟨_, hreach, by decide, ((sweep_equals_scan hreach).2.2 _ _).1⟩

end WarrenGuard.NatPmp
