/-
One mapping per client tuple.

A client names a mapping by the tuple of its address, its internal port and the protocol, while
the table is keyed by external port and protocol.  A request drops every mapping of its tuple
before it is granted one:

* `OneMapping.pass` — so requests never leave two;
* `OneMapping.restoreAt` — nor does a restore, if the saved mappings of a tuple, and those the
  table has, are all for one external port;
* `one_mapping_per_tuple` — so in every run whose restores are such; `restore_doubles_tuple` — a
  client that is granted another port before the restore has two mappings afterwards.
-/
import WarrenGuard.PortOwnership

namespace WarrenGuard.NatPmp

def Allocation.tuple (a : Allocation) : Ipv4Addr × ℕ × Proto :=
  (a.internalIp, a.internalPort, a.proto)

def OneMapping (g : Inner) : Prop :=
  ∀ slot slot' a a', g.active.lookup slot = some a → g.active.lookup slot' = some a' →
    a.tuple = a'.tuple → slot = slot'

def OnlyAt (g : Inner) (entry : Allocation) : Prop :=
  ∀ e ∈ g.active.entries, e.2.tuple = entry.tuple → e.2.externalPort = entry.externalPort

/-- The condition on an operation: if it is a restore, the mappings it saved and the table
has for a tuple are all for one external port.  Those that have run out do not count. -/
def Op.RestoresOnce (g : Inner) : Op → Prop
  | .restore entries now => ∀ entry ∈ entries, now < entry.expiresAt →
      OnlyAt g entry ∧ ∀ entry' ∈ entries, now < entry'.expiresAt →
        entry'.tuple = entry.tuple → entry'.externalPort = entry.externalPort
  | _ => True

variable {cfg : AllocatorConfig} {g g' : Inner}

theorem OneMapping.empty : OneMapping Inner.empty := by
  intro slot slot' a a' h
  cases h

theorem OneMapping.shrink (h : OneMapping g) (hs : Shrinks g g') : OneMapping g' := by
  intro slot slot' a a' ha ha' htuple
  exact h slot slot' a a' (hs.lookup _ _ ha) (hs.lookup _ _ ha') htuple

variable {a : Allocation} {req : MapRequest}

theorem tuple_ne_of_lookup_dropTuple (hwf : Wf g) {slot : Slot}
    (h : (dropTuple g req).active.lookup slot = some a) :
    a.tuple ≠ (req.clientIp, req.internalPort, req.proto) := by
  intro heq
  obtain ⟨hip, hport, hproto⟩ : a.internalIp = req.clientIp ∧ a.internalPort = req.internalPort ∧
      a.proto = req.proto := by simpa [Allocation.tuple] using heq
  have hl := lookup_of_lookup_dropTuple h
  have hmem : slot ∈ sameTuple g req := by
    refine mem_sameTuple.mpr ⟨a, hl, ?_, hip, hport⟩
    rw [hwf.keyed slot a hl]
    exact hproto
  rw [lookup_dropTuple, if_pos hmem] at h
  cases h

theorem Granted.tuple {draws : ℕ → ℕ} {answers : DeployerAnswers}
    {reclaim : Bool} {active : Table Slot Allocation}
    (h : Granted cfg draws g req answers reclaim a active) :
    a.tuple = (req.clientIp, req.internalPort, req.proto) := by
  obtain ⟨⟩ := h
  rfl

/-- **A pass leaves no tuple with two mappings**: the tuple it grants was dropped before. -/
theorem OneMapping.pass (h : OneMapping g) (hwf : Wf g) (cfg) (liveWired : Bool)
    (draws : ℕ → ℕ) (req) (answers : DeployerAnswers) (evicted : List Allocation) :
    OneMapping (tryAllocate cfg liveWired draws g req answers evicted).2.1 := by
  have hs := hwf.sweepExpired req.now cfg.cooldown
  have hone : OneMapping (g.sweepExpired req.now cfg.cooldown).1 := by
    intro slot slot' a a' ha ha'
    exact h slot slot' a a' (hwf.lookup_of_sweep ha) (hwf.lookup_of_sweep ha')
  have hends := tryAllocate_ends cfg liveWired draws g req answers evicted
  revert hends
  generalize tryAllocate cfg liveWired draws g req answers evicted = pass
  intro hends slot slot' a a' ha ha' htuple
  obtain hsame | hdrop | ⟨reclaim, b, -, -, hgrant⟩ := hends.active_cases
  · rw [hsame] at ha ha'
    exact hone slot slot' a a' ha ha' htuple
  · rw [hdrop] at ha ha'
    exact hone slot slot' a a' (lookup_of_lookup_dropTuple ha) (lookup_of_lookup_dropTuple ha')
      htuple
  -- the new mapping has the tuple of the request, and what the drop left has not
  · have hb := hgrant.tuple
    rcases hgrant.lookup ha with ⟨rfl, rfl⟩ | hold
    · rcases hgrant.lookup ha' with ⟨rfl, -⟩ | hold'
      · rfl
      · exact absurd (htuple.symm.trans hb) (tuple_ne_of_lookup_dropTuple hs hold')
    · rcases hgrant.lookup ha' with ⟨rfl, rfl⟩ | hold'
      · exact absurd (htuple.trans hb) (tuple_ne_of_lookup_dropTuple hs hold)
      · exact hone slot slot' a a' (lookup_of_lookup_dropTuple hold)
          (lookup_of_lookup_dropTuple hold') htuple

theorem OneMapping.restoreAt (h : OneMapping g) (hwf : Wf g) {entries : List Allocation} {now : ℕ}
    (hok : Op.RestoresOnce g (.restore entries now)) : OneMapping (restoreAt g entries now).1 := by
  have hwf' := hwf.restoreAt entries now
  intro slot slot' a a' ha ha' htuple
  -- the protocol is part of the tuple, so only the external ports can differ
  have hslots : a'.externalPort = a.externalPort → slot = slot' := by
    intro hport
    rw [hwf'.keyed slot a ha, hwf'.keyed slot' a' ha', hport,
      show a.proto = a'.proto from congrArg (fun t => t.2.2) htuple]
  rcases lookup_restoreAt ha with hold | ⟨hmem, -, hlive⟩
  · rcases lookup_restoreAt ha' with hold' | ⟨hmem', -, hlive'⟩
    · exact h slot slot' a a' hold hold' htuple
    · exact hslots ((hok a' hmem' hlive').1 _ (Table.mem_entries_iff.mpr hold) htuple).symm
  · rcases lookup_restoreAt ha' with hold' | ⟨hmem', -, hlive'⟩
    · exact hslots ((hok a hmem hlive).1 _ (Table.mem_entries_iff.mpr hold') htuple.symm)
    · exact hslots ((hok a hmem hlive).2 a' hmem' hlive' htuple.symm)

theorem OneMapping.apply (h : OneMapping g) (hwf : Wf g) (cfg) {o : Op}
    (hok : o.RestoresOnce g) : OneMapping (o.apply cfg g) := by
  rcases o.removes_or with hrem | ⟨liveWired, draws, req, answers, rfl⟩ | ⟨entries, now, rfl⟩
  · exact h.shrink (shrinks_apply cfg g hrem)
  · exact h.pass hwf cfg liveWired draws req answers []
  · exact h.restoreAt hwf hok

/-- **The release of a tuple leaves no mapping of it**, if it had at most one. -/
theorem OneMapping.releaseByClientAt (h : OneMapping g) (hwf : Wf g) (cfg)
    (clientIp : Ipv4Addr) (internalPort : ℕ) (proto : Proto) (now : ℕ) {slot : Slot}
    (hl : (releaseByClientAt cfg g clientIp internalPort proto now).2.active.lookup slot = some a) :
    a.tuple ≠ (clientIp, internalPort, proto) := by
  have htuple : ∀ slot' b, g.active.lookup slot' = some b →
      (isSameTuple clientIp internalPort proto ⟨slot', b⟩ = true ↔
        b.tuple = (clientIp, internalPort, proto)) := by
    intro slot' b hb
    have hkey := hwf.keyed slot' b hb
    simp only [isSameTuple, Allocation.tuple, hkey, Bool.and_eq_true, decide_eq_true_eq,
      Prod.mk.injEq]
    tauto
  intro heq
  unfold NatPmp.releaseByClientAt at hl
  split at hl
  · rename_i hnone
    have hsame := (htuple slot a hl).mpr heq
    exact List.find?_eq_none.mp hnone ⟨slot, a⟩ (Table.mem_entries_iff.mpr hl) hsame
  · rename_i e hfind
    have he := Table.lookup_of_mem_entries (List.mem_of_find?_eq_some hfind)
    have hsame := (htuple e.1 e.2 he).mp (List.find?_some hfind)
    -- what is left stands in another slot, so it is of another tuple
    change (g.active.erase e.1).lookup slot = some a at hl
    rw [Table.lookup_erase'] at hl
    split at hl
    · cases hl
    · rename_i hne
      exact hne (h slot e.1 a e.2 hl he (heq.trans hsame.symm))

/-- **One mapping per tuple.**  In every run whose restores meet the condition no tuple has
two mappings, and so a release by tuple leaves none of it. -/
theorem one_mapping_per_tuple
    (h : Transition.Reachable (· = Inner.empty) (StepIf cfg fun g o => o.RestoresOnce g) g) :
    OneMapping g ∧ ∀ clientIp internalPort proto now slot a,
      (releaseByClientAt cfg g clientIp internalPort proto now).2.active.lookup slot = some a →
      a.tuple ≠ (clientIp, internalPort, proto) := by
  have hinv : Wf g ∧ OneMapping g := by
    refine h.invariant (I := fun g => Wf g ∧ OneMapping g) ?_ ?_
    · rintro g rfl
      exact ⟨.empty, .empty⟩
    · rintro g g' ⟨hwf, hone⟩ hstep
      refine ⟨hwf.stepIf hstep, ?_⟩
      cases hstep with
      | op o hok => exact hone.apply hwf cfg hok
      | reorder entries hperm => exact hone.shrink (shrinks_reorder g entries hperm)
  refine ⟨hinv.2, fun clientIp internalPort proto now slot a hl => ?_⟩
  exact hinv.2.releaseByClientAt hinv.1 cfg clientIp internalPort proto now hl

/-! ### A restore that doubles a tuple -/

def savedMapping : Allocation := ⟨50000, 1, 80, .tcp, 3600 * nanosPerSec⟩

def remapOp : Op :=
  .pass false id ⟨1, .tcp, 80, 0, clampLifetime 3600, 0⟩ ⟨some {1}, some 5, none⟩

theorem one_mapping_per_tuple_renewed : ∃ g,
    Transition.Reachable (· = Inner.empty)
      (StepIf .warrenDefault fun g o => o.RestoresOnce g) g ∧
    g.active.entries.map Sigma.fst = [(50000, .tcp)] ∧ OneMapping g := by
  have hrestore : Op.RestoresOnce Inner.empty (.restore [savedMapping] 0) := by
    rintro entry hentry -
    refine ⟨fun e he => absurd he List.not_mem_nil, ?_⟩
    rintro entry' hentry' - -
    rw [List.mem_singleton.mp hentry, List.mem_singleton.mp hentry']
  have hstart : Transition.Reachable (· = Inner.empty)
      (StepIf .warrenDefault fun g o => o.RestoresOnce g) Inner.empty := .start rfl
  have hreach := (hstart.next (.op (.restore [savedMapping] 0) hrestore)).next (.op remapOp trivial)
  exact ⟨_, hreach, by decide, (one_mapping_per_tuple hreach).1⟩

/-- **Restored after the client was granted another port, the tuple has two mappings**, and
the release of the tuple leaves one of them. -/
theorem restore_doubles_tuple : ∃ g, Reachable .warrenDefault g ∧
    g = [remapOp, .restore [savedMapping] 0].foldl (Op.apply .warrenDefault) Inner.empty ∧
    (g.active.lookup (49152, .tcp)).map Allocation.tuple = some (1, 80, .tcp) ∧
    (g.active.lookup (50000, .tcp)).map Allocation.tuple = some (1, 80, .tcp) ∧
    ¬ OneMapping g ∧
    ∃ slot a, (releaseByClientAt .warrenDefault g 1 80 .tcp 0).2.active.lookup slot = some a ∧
      a.tuple = (1, 80, .tcp) := by
  refine ⟨_, reachable_foldl _ _ (.start rfl), rfl, by decide, by decide, fun hone => ?_, ?_⟩
  · exact absurd (hone (49152, .tcp) (50000, .tcp) ⟨49152, 1, 80, .tcp, 3600 * nanosPerSec⟩
      savedMapping (by decide) (by decide) rfl) (by decide)
  · exact ⟨(49152, .tcp), ⟨49152, 1, 80, .tcp, 3600 * nanosPerSec⟩, by decide, rfl⟩

end WarrenGuard.NatPmp
