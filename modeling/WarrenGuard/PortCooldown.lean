/-
Nobody inherits a port before its cooldown is over.

When the last leg of a port leaves a tenant, no other tenant may be granted it for a while.  A
tenant may take its own port back at once, if the last user on record is one of its addresses.

* `Orderly` — what makes the records trustworthy: a last user still remembered is backed by a
  cooldown as long, and while a port is held it is of the holder's tenant;
* `Barred` — a port no stranger can be granted; `Departs.barred` — a port that leaves a tenant is
  barred, and stays so until the deadline (`Barred.apply`): `no_inheritance_after_release`.

Three operations can undo a bar, or keep one from being set up (`port_is_inherited`): a restore of
the port to another tenant, a release of one of its legs in the name of another tenant, and
`take_active_for_slot`, if it takes a lapsed leg before a sweep has found it.  And a request that
moves its mapping to another port frees the old one without any cooldown
(`moved_port_is_inherited`, `no_inheritance_after_move`).
-/
import WarrenGuard.PortQuarantine

namespace WarrenGuard.NatPmp

variable {ι : Type*}

variable (part : Ipv4Addr → ι)

/-- A request is answered with its own tenant. -/
def Op.Answered : Op → Prop
  | .pass _ _ req answers => AnswersTenant part req.clientIp answers
  | _ => True

/-- `ip` can be named as one that has left `port`: if that is `p`, somebody holds it, and `ip` is
of the tenant `i` if the holder is. -/
def Left (i : ι) (p : ℕ) (g : Inner) (port : ℕ) (ip : Ipv4Addr) : Prop :=
  port = p → ∃ owner, portOwner g p = some owner ∧ (part owner = i → part ip = i)

/-- What an operation is told about the tenants is true: a request is answered with its own, and
no release names a stranger for a leg of `p` that the tenant `i` holds. -/
def Op.Truthful (i : ι) (p : ℕ) (g : Inner) (o : Op) : Prop :=
  o.Names (Left part i p g) g ∧ o.Answered part

def Op.RestoresWithin (i : ι) (p : ℕ) : Op → Prop
  | .restore entries _ => ∀ entry ∈ entries, entry.externalPort = p → part entry.internalIp = i
  | _ => True

/-! ### The records are trustworthy -/

/-- While the tenant `i` holds `p`, the last user of `p` is of the tenant or forgotten. -/
def LastOfHolder (i : ι) (p now : ℕ) (g : Inner) : Prop :=
  ∀ ip e owner, g.timers.last.lookup p = some (ip, e) → portOwner g p = some owner →
    part owner = i → part ip = i ∨ e ≤ now

/-- **Orderly maps**: well-formed, with records of last users that can be trusted. -/
structure Orderly (part : Ipv4Addr → ι) (i : ι) (p now : ℕ) (g : Inner) : Prop where
  wf : Wf g
  backed : g.timers.Backed now
  last : LastOfHolder part i p now g

variable {cfg : AllocatorConfig} {part : Ipv4Addr → ι} {i : ι} {g g' s : Inner}
  {p now now' deadline : ℕ} {o : Op} {draws : ℕ → ℕ} {req : MapRequest} {answers : DeployerAnswers}
  {reclaim : Bool} {a : Allocation} {active : Table Slot Allocation}

theorem Orderly.empty (part : Ipv4Addr → ι) (i p) : Orderly part i p 0 Inner.empty where
  wf := Wf.empty
  backed _ _ _ h := by cases h
  last _ _ _ h := by cases h

theorem Orderly.mono (h : Orderly part i p now g) (hle : now ≤ now') :
    Orderly part i p now' g where
  wf := h.wf
  backed q ip e hl := (h.backed q ip e hl).imp_left fun hold => hold.trans hle
  last ip e owner hl ho hi := (h.last ip e owner hl ho hi).imp_right fun hold => hold.trans hle

theorem left_of_leg (hwf : Wf g) (port proto a) (h : g.active.lookup (port, proto) = some a) :
    Left part i p g port a.internalIp := by
  rintro rfl
  exact ⟨a.internalIp, hwf.single port proto a h, id⟩

theorem LastOfHolder.steps (h : LastOfHolder part i p now g) {t : Timers}
    (hsteps : Timers.Steps now cfg.cooldown (Left part i p g) g.timers t) {ip owner : Ipv4Addr}
    {e : ℕ} (hl : t.last.lookup p = some (ip, e)) (howner : portOwner g p = some owner)
    (hi : part owner = i) : part ip = i ∨ e ≤ now := by
  rcases hsteps.last hl with hold | hleft | hover
  · exact h ip e owner hold howner hi
  · obtain ⟨holder, hholder, hpart⟩ := hleft rfl
    rw [hholder] at howner
    exact .inl (hpart (Option.some.inj howner ▸ hi))
  · exact .inr hover

theorem portOwner_sweepExpired (hwf : Wf g) (now cd : ℕ) {owner : Ipv4Addr}
    (h : portOwner (g.sweepExpired now cd).1 p = some owner) : portOwner g p = some owner := by
  obtain ⟨proto, a, hlook, rfl⟩ := exists_of_portOwner h
  exact hwf.single p proto a (hwf.lookup_of_sweep hlook)

theorem Orderly.sweepExpired (h : Orderly part i p now g) :
    Orderly part i p now (g.sweepExpired now cfg.cooldown).1 := by
  have hsteps : Timers.Steps now cfg.cooldown (Left part i p g) g.timers
      (g.sweepExpired now cfg.cooldown).1.timers := steps_sweepExpired (left_of_leg h.wf) ..
  exact ⟨h.wf.sweepExpired now cfg.cooldown, hsteps.backed h.backed, fun ip e owner hl howner =>
    h.last.steps hsteps hl (portOwner_sweepExpired h.wf now _ howner)⟩

/-- **A port is granted to its last user's tenant, or its last user is forgotten.** -/
theorem Orderly.granted (h : Orderly part i a.externalPort req.now s)
    (hans : AnswersTenant part req.clientIp answers) (hi : part req.clientIp = i)
    (hgrant : Granted cfg draws s req answers reclaim a active) {ip : Ipv4Addr} {e : ℕ}
    (hl : s.timers.last.lookup a.externalPort = some (ip, e)) : part ip = i ∨ e ≤ req.now := by
  obtain ⟨tenant, htenant⟩ := hgrant.exists_tenant
  have hmem := hans tenant htenant
  rcases hgrant.source h.wf htenant with hown | ⟨holder, hpeer, hheld⟩ | ⟨-, hopen⟩
  · exact h.last ip e _ hl hown hi
  · exact h.last ip e holder hl hheld (((hmem holder).mp hpeer).trans hi)
  · rcases hopen.cooled with ⟨ip', e', hlast, hpeer, -⟩ | hcooled
    · -- the cooldown was lifted for the tenant
      obtain ⟨rfl, rfl⟩ := Prod.mk.inj (Option.some.inj (hl.symm.trans hlast))
      exact .inl (((hmem ip).mp hpeer).trans hi)
    · -- the cooldown is over, and with it the record
      rcases h.backed _ ip e hl with hover | ⟨u, hu, hle⟩
      · exact .inr hover
      · exact .inr (hle.trans (hcooled u hu))

theorem timers_tryAllocate (cfg) (liveWired : Bool) (draws g req answers) :
    (tryAllocate cfg liveWired draws g req answers []).2.1.timers
      = (g.sweepExpired req.now cfg.cooldown).1.timers :=
  timers_of_deadlines (decideSwept_pass ..).deadlines_eq

theorem LastOfHolder.restoreEntry {acc : Inner × List Allocation}
    (h : LastOfHolder part i p now acc.1) (entry : Allocation) :
    LastOfHolder part i p now (restoreEntry now acc entry).1 := by
  rcases restoreEntry_cases now acc entry with heq | ⟨heq, -⟩
  · rw [heq]
    exact h
  · rw [heq]
    intro ip e owner hl howner
    change (acc.1.timers.restore entry.externalPort entry.internalIp now).last.lookup p
      = some (ip, e) at hl
    rw [last_restore] at hl
    split at hl
    · -- the record of a restored port has run out already
      cases hl
      exact fun _ => .inr le_rfl
    · rename_i hp
      rw [portOwner_insertActive hp] at howner
      exact h ip e owner hl howner

theorem LastOfHolder.restoreAt (h : LastOfHolder part i p now g) (entries : List Allocation) :
    LastOfHolder part i p now (restoreAt g entries now).1 := by
  refine restoreAt_induction (P := fun acc => LastOfHolder part i p now acc.1) h
    fun acc entry _ hacc => ?_
  exact hacc.restoreEntry entry

/-- **Every truthful operation keeps the maps orderly.** -/
theorem Orderly.apply (h : Orderly part i p now g) (hat : o.At now) (ho : o.Truthful part i p g) :
    Orderly part i p now (o.apply cfg g) := by
  have hsteps := steps_apply (left_of_leg h.wf) cfg hat ho.1
  refine ⟨h.wf.apply cfg o, hsteps.backed h.backed, ?_⟩
  rcases o.removes_or with hrem | ⟨liveWired, draws, req, answers, rfl⟩ | ⟨entries, t, rfl⟩
  · exact fun ip e owner hl howner => h.last.steps hsteps hl
      (h.wf.owner_of_shrinks (shrinks_apply cfg g hrem) howner)
  · obtain rfl := hat
    have hs : Orderly part i p req.now (g.sweepExpired req.now cfg.cooldown).1 := h.sweepExpired
    intro ip e owner hl howner hi
    change (tryAllocate cfg liveWired draws g req answers []).2.1.timers.last.lookup p
      = some (ip, e) at hl
    rw [timers_tryAllocate] at hl
    obtain ⟨proto, a, hlook, rfl⟩ := exists_of_portOwner howner
    -- the leg was there before the pass, or the pass granted it
    rcases (tryAllocate_ends cfg liveWired draws g req answers []).lookup hlook with
      hold | ⟨reclaim, hgrant, hslot⟩
    · exact hs.last ip e _ hl (hs.wf.single p proto a hold) hi
    · obtain rfl := (Prod.mk.inj hslot).1
      exact hs.granted ho.2 (hgrant.internalIp ▸ hi) hgrant hl
  · obtain rfl := hat
    exact h.last.restoreAt entries

theorem Orderly.step (h : Orderly part i p now g)
    (hstep : TimedStep cfg (Op.Truthful part i p) now g g') : Orderly part i p now g' := by
  cases hstep with
  | op o ho => exact h.apply ho.1 ho.2
  | reorder entries hperm =>
    have hs := shrinks_reorder g entries hperm
    exact ⟨h.wf.shrink hs, h.backed, fun ip e owner hl howner =>
      h.last ip e owner hl (h.wf.owner_of_shrinks hs howner)⟩

/-- **In a run of truthful operations the maps are orderly.** -/
theorem orderly_of_run {x : Transition.Clocked Inner}
    (h : Run cfg (Op.Truthful part i p) fresh x) : Orderly part i p x.clock x.state :=
  h.from_now_on (P := fun y => Orderly part i p y.clock y.state) (.empty part i p)
    fun _ _ hy hstep => (hy.mono hstep.1).step hstep.2

/-! ### A port barred to strangers -/

/-- **A port barred to strangers** of the tenant `i` until `deadline`. -/
structure Barred (part : Ipv4Addr → ι) (i : ι) (p deadline now : ℕ) (g : Inner) : Prop where
  wf : Wf g
  owned : ∀ proto a, g.active.lookup (p, proto) = some a → part a.internalIp = i
  armed : ∃ u, g.timers.cooldown.lookup p = some u ∧ deadline ≤ u
  last : ∀ ip e, g.timers.last.lookup p = some (ip, e) → part ip = i ∨ e ≤ now

theorem Barred.mono (h : Barred part i p deadline now g) (hle : now ≤ now') :
    Barred part i p deadline now' g where
  wf := h.wf
  owned := h.owned
  armed := h.armed
  last ip e hl := (h.last ip e hl).imp_right fun hold => hold.trans hle

theorem Barred.owner (h : Barred part i p deadline now g) {owner : Ipv4Addr}
    (howner : portOwner g p = some owner) : part owner = i := by
  obtain ⟨proto, a, hlook, rfl⟩ := exists_of_portOwner howner
  exact h.owned proto a hlook

/-- **No pass grants a barred port to a stranger**, by suggestion or by random pick. -/
theorem Barred.not_granted (h : Barred part i p deadline req.now s) (hnow : req.now < deadline)
    (hans : AnswersTenant part req.clientIp answers) (hstranger : part req.clientIp ≠ i)
    (hgrant : Granted cfg draws s req answers reclaim a active) : a.externalPort ≠ p := by
  rintro rfl
  obtain ⟨tenant, htenant⟩ := hgrant.exists_tenant
  have hmem := hans tenant htenant
  rcases hgrant.source h.wf htenant with hown | ⟨holder, hpeer, hheld⟩ | ⟨-, hopen⟩
  · exact hstranger (h.owner hown)
  · exact hstranger (((hmem holder).mp hpeer).symm.trans (h.owner hheld))
  · rcases hopen.cooled with ⟨ip, e, hlast, hpeer, hlive⟩ | hcooled
    · -- the cooldown is lifted only for the tenant of the last user
      rcases h.last ip e hlast with hpart | hover
      · exact hstranger (((hmem ip).mp hpeer).symm.trans hpart)
      · omega
    · obtain ⟨u, hu, hle⟩ := h.armed
      have hover := hcooled u hu
      omega

section

variable (hnow : now < deadline) (hmax : deadline ≤ now + cfg.cooldown)
include hnow hmax

theorem Barred.of_steps (h : Barred part i p deadline now g)
    (hsteps : Timers.Steps now cfg.cooldown (Left part i p g) g.timers g'.timers) (hwf : Wf g')
    (howned : ∀ proto a, g'.active.lookup (p, proto) = some a → part a.internalIp = i) :
    Barred part i p deadline now g' := by
  refine ⟨hwf, howned, hsteps.cooldown h.armed hnow hmax, fun ip e hl => ?_⟩
  rcases hsteps.last hl with hold | hleft | hover
  · exact h.last ip e hold
  · obtain ⟨owner, howner, hpart⟩ := hleft rfl
    exact .inl (hpart (h.owner howner))
  · exact .inr hover

end

theorem Barred.pass {liveWired : Bool}
    (hs : Barred part i p deadline req.now (g.sweepExpired req.now cfg.cooldown).1)
    (hnow : req.now < deadline) (hans : AnswersTenant part req.clientIp answers) :
    Barred part i p deadline req.now (tryAllocate cfg liveWired draws g req answers []).2.1 := by
  have htimers := timers_tryAllocate cfg liveWired draws g req answers
  refine ⟨hs.wf.decideSwept cfg liveWired draws req answers _, fun proto a hl => ?_, ?_, ?_⟩
  · rcases (tryAllocate_ends cfg liveWired draws g req answers []).lookup hl with
      hold | ⟨reclaim, hgrant, hslot⟩
    · exact hs.owned proto a hold
    · -- whoever was granted the port is of the tenant
      by_contra hstranger
      rw [hgrant.internalIp] at hstranger
      exact hs.not_granted hnow hans hstranger hgrant (Prod.mk.inj hslot).1.symm
  · rw [htimers]
    exact hs.armed
  · rw [htimers]
    exact hs.last

section

variable (hnow : now < deadline) (hmax : deadline ≤ now + cfg.cooldown)
include hnow hmax

theorem Barred.sweepExpired (h : Barred part i p deadline now g) :
    Barred part i p deadline now (g.sweepExpired now cfg.cooldown).1 := by
  exact h.of_steps hnow hmax (steps_sweepExpired (left_of_leg h.wf) now cfg.cooldown)
    (h.wf.sweepExpired now cfg.cooldown) fun proto a hl =>
      h.owned proto a (h.wf.lookup_of_sweep hl)

/-- **A barred port stays barred** until the deadline. -/
theorem Barred.apply (h : Barred part i p deadline now g) (hat : o.At now)
    (ho : o.Truthful part i p g) (hrestore : o.RestoresWithin part i p) :
    Barred part i p deadline now (o.apply cfg g) := by
  refine h.of_steps hnow hmax (steps_apply (left_of_leg h.wf) cfg hat ho.1)
    (h.wf.apply cfg o) fun proto a hl => ?_
  rcases o.removes_or with hrem | ⟨liveWired, draws, req, answers, rfl⟩ | ⟨entries, t, rfl⟩
  · exact h.owned proto a ((shrinks_apply cfg g hrem).lookup _ _ hl)
  · obtain rfl := hat
    have hs : Barred part i p deadline req.now (g.sweepExpired req.now cfg.cooldown).1 :=
      h.sweepExpired hnow hmax
    exact (hs.pass hnow ho.2).owned proto a hl
  · rcases lookup_restoreAt hl with hold | ⟨hmem, hslot, -⟩
    · exact h.owned proto a hold
    · exact hrestore a hmem (Prod.mk.inj hslot).1.symm

end

def Respects (part : Ipv4Addr → ι) (i : ι) (p : ℕ) (g : Inner) (o : Op) : Prop :=
  o.Truthful part i p g ∧ o.RestoresWithin part i p

theorem Barred.step (h : Barred part i p deadline now g)
    (hstep : TimedStep cfg (Respects part i p) now g g') (hnow : now < deadline)
    (hmax : deadline ≤ now + cfg.cooldown) : Barred part i p deadline now g' := by
  cases hstep with
  | op o ho => exact h.apply hnow hmax ho.1 ho.2.1 ho.2.2
  | reorder entries hperm =>
    have hs := shrinks_reorder g entries hperm
    exact ⟨h.wf.shrink hs, fun proto a hl => h.owned proto a (hs.lookup _ _ hl), h.armed, h.last⟩

/-- **From a bar on**: in every run that leaves it alone, no stranger's request made
before the deadline is granted the port. -/
theorem Barred.run {y z : Transition.Clocked Inner}
    (h : Barred part i p deadline y.clock y.state) (hmax : deadline ≤ y.clock + cfg.cooldown)
    (hz : Run cfg (Respects part i p) y z) (liveWired : Bool)
    (hans : AnswersTenant part req.clientIp answers) (hstranger : part req.clientIp ≠ i)
    (hclock : z.clock ≤ req.now) (hnow : req.now < deadline)
    (ha : (tryAllocate cfg liveWired draws z.state req answers []).1 = .done (.ok a)) :
    a.externalPort ≠ p := by
  have hyz := hz.clock_le
  have hbarred : y.clock ≤ z.clock ∧ Barred part i p deadline z.clock z.state := by
    refine hz.until (P := fun w => y.clock ≤ w.clock ∧ Barred part i p deadline w.clock w.state)
      ⟨le_rfl, h⟩ (fun w w' hw hstep hlt => ⟨hw.1.trans hstep.1, ?_⟩) (hclock.trans_lt hnow)
    have hle := hw.1.trans hstep.1
    exact (hw.2.mono hstep.1).step hstep.2 hlt (by omega)
  have hs : Barred part i p deadline req.now (z.state.sweepExpired req.now cfg.cooldown).1 :=
    (hbarred.2.mono hclock).sweepExpired hnow (by omega)
  have hends := tryAllocate_ends cfg liveWired draws z.state req answers []
  rw [ha] at hends
  cases hends with
  | granted _ hgrant => exact hs.not_granted hnow hans hstranger hgrant

/-! ### How a port is given up -/

/-- Every leg that `g'` lacks has left its port with a cooldown until `deadline`. -/
structure Arms (deadline : ℕ) (g g' : Inner) : Prop where
  removed : ∀ p proto a, g.active.lookup (p, proto) = some a →
    g'.active.lookup (p, proto) = none → g'.timers.cooldown.lookup p = some deadline
  kept : ∀ p, g.timers.cooldown.lookup p = some deadline →
    g'.timers.cooldown.lookup p = some deadline

theorem Arms.of_active (hactive : g'.active = g.active)
    (hcooldown : g'.timers.cooldown = g.timers.cooldown) : Arms deadline g g' where
  removed p proto a hl hgone := by
    rw [hactive, hl] at hgone
    cases hgone
  kept p hp := by rw [hcooldown, hp]

theorem Arms.trans {g'' : Inner} (h : Arms deadline g g') (h' : Arms deadline g' g'') :
    Arms deadline g g'' where
  removed p proto a hl hgone := by
    rcases hmid : g'.active.lookup (p, proto) with _ | b
    · exact h'.kept p (h.removed p proto a hl hmid)
    · exact h'.removed p proto b hmid hgone
  kept p hp := h'.kept p (h.kept p hp)

theorem arms_erase (g) (slot : Slot) (ip : Ipv4Addr) (deadline) :
    Arms deadline g ({ g with active := g.active.erase slot }.armRelease slot.1 ip deadline) := by
  have hcooldown : ∀ q, ({ g with active := g.active.erase slot }.armRelease slot.1 ip
      deadline).timers.cooldown.lookup q
        = if q = slot.1 then some deadline else g.timers.cooldown.lookup q :=
    fun q => cooldown_release g.timers slot.1 q deadline ip
  refine ⟨fun q proto a hl hgone => ?_, fun q hq => ?_⟩
  · change (g.active.erase slot).lookup (q, proto) = none at hgone
    rw [Table.lookup_erase'] at hgone
    split at hgone
    · rename_i heq
      rw [hcooldown, if_pos (congrArg Prod.fst heq)]
    · rw [hl] at hgone
      cases hgone
  · rw [hcooldown, hq, ite_self]

theorem arms_takeSlot (g) (slot : Slot) (deadline) :
    Arms deadline g (g.takeSlot slot deadline).1 := by
  unfold Inner.takeSlot
  split
  · exact arms_erase g slot _ deadline
  · exact .of_active rfl rfl

theorem Freed.arms {deadline : ℕ} (h : Freed deadline g g') : Arms deadline g g' := by
  induction h with
  | refl => exact .of_active rfl rfl
  | take _ slot ih => exact ih.trans (arms_takeSlot _ slot deadline)

/-- The operations that give ports up. -/
def Op.Frees : Op → Prop
  | .release .. => True
  | .releaseByClient .. => True
  | .takeForIp .. => True
  | .takeForPort .. => True
  | .revokeForAbuse .. => True
  | _ => False

/-- **They start the cooldown of every leg they remove.** -/
theorem arms_apply (ho : o.Frees) (hat : o.At now) :
    Arms (now + cfg.cooldown) g (o.apply cfg g) := by
  cases o with
  | release alloc t =>
    obtain rfl := hat
    show Arms (t + cfg.cooldown) g (releaseAt cfg g alloc t)
    unfold releaseAt
    split
    · exact .of_active rfl rfl
    · exact arms_erase g (alloc.externalPort, alloc.proto) alloc.internalIp _
  | releaseByClient clientIp internalPort proto t =>
    obtain rfl := hat
    exact (freed_releaseByClientAt cfg g clientIp internalPort proto t).arms
  | takeForIp clientIp t =>
    obtain rfl := hat
    exact (freed_takeActiveForIpAt cfg g clientIp t).arms
  | takeForPort port t =>
    obtain rfl := hat
    exact (freed_takePort g port _).arms
  | revokeForAbuse port quarantine t =>
    obtain rfl := hat
    show Arms (t + cfg.cooldown) g (revokeForAbuseAt cfg g port quarantine t).1
    unfold revokeForAbuseAt
    dsimp only
    generalize g.abuseQuarantineUntil.insert port _ = quarantined
    have hreport : Arms (t + cfg.cooldown) g { g with abuseQuarantineUntil := quarantined } :=
      .of_active rfl rfl
    exact (hreport.trans (freed_takePort _ port _).arms).trans (.of_active rfl rfl)
  | _ => exact absurd ho id

theorem cooldown_foldl_armExpired {es : List (Σ _ : Slot, Allocation)}
    {e : Σ _ : Slot, Allocation} (he : e ∈ es) (cd : ℕ) (hlapsed : e.2.expiresAt ≤ now)
    (hnow : now < e.2.expiresAt + cd) (g) :
    Lasts (es.foldl (Inner.armExpired now cd) g).timers.cooldown e.1.1 (e.2.expiresAt + cd) := by
  induction es generalizing g with
  | nil => cases he
  | cons e' es ih =>
    rcases List.mem_cons.mp he with rfl | hmem
    · -- the lease itself; those after it cut nothing short
      have harmed : (g.armExpired now cd e).timers
          = g.timers.expire e.1.1 e.2.internalIp (e.2.expiresAt + cd) := by
        unfold Inner.armExpired
        rw [if_pos hnow]
        rfl
      have hsteps : Timers.Steps now cd (fun _ _ => True) (g.armExpired now cd e).timers
          (es.foldl (Inner.armExpired now cd) (g.armExpired now cd e)).timers :=
        steps_foldl_armExpired cd es (fun _ _ => trivial) _ rfl
      exact hsteps.cooldown (harmed ▸ Lasts.of_insert_max ..) hnow (by omega)
    · exact ih hmem (g.armExpired now cd e')

/-- **The sweep starts the cooldown of every lapsed lease** at the lease's end. -/
theorem cooldown_sweepExpired (hwf : Wf g) {proto : Proto}
    (hl : g.active.lookup (p, proto) = some a) (hlapsed : a.expiresAt ≤ now)
    (hnow : now < a.expiresAt + cfg.cooldown) :
    ∃ u, (g.sweepExpired now cfg.cooldown).1.timers.cooldown.lookup p = some u ∧
      a.expiresAt + cfg.cooldown ≤ u := by
  -- the lease is due, so the sweep does walk the table
  have hdue : ¬ (g.nextExpiry.all fun t => decide (now < t)) = true := by
    obtain ⟨t, ht, hle⟩ := hwf.bounded _ a hl
    rw [ht, Option.all_some, decide_eq_true_eq]
    omega
  unfold Inner.sweepExpired
  rw [if_neg hdue]
  have hmem : (⟨(p, proto), a⟩ : Σ _ : Slot, Allocation)
      ∈ g.active.entries.filter fun e => !decide (now < e.2.expiresAt) := by
    refine List.mem_filter.mpr ⟨Table.mem_entries_iff.mpr hl, ?_⟩
    rw [decide_eq_false hlapsed.not_gt]
    rfl
  exact cooldown_foldl_armExpired hmem cfg.cooldown hlapsed hnow _

/-- A pass sweeps first: it does the same on the maps swept at its time. -/
theorem tryAllocate_swept (cfg) (liveWired : Bool) (draws g req answers)
    (evicted : List Allocation) :
    tryAllocate cfg liveWired draws g req answers evicted
      = tryAllocate cfg liveWired draws (g.sweepExpired req.now cfg.cooldown).1 req answers
          (evicted ++ (g.sweepExpired req.now cfg.cooldown).2) := by
  rw [tryAllocate_eq, tryAllocate_eq, sweepExpired_of_skip (sweepExpired_skips g req.now _),
    List.append_nil]

/-- **A leg of `p` leaves the tenant `i` at `t`**, taken by an operation or because
its lease ended at `t`.  A lease is found ended by the sweep of some later pass;
the sweep is a step of its own here (`tryAllocate_swept`), so that the request that
sweeps is one of those that come after. -/
inductive Departs (cfg : AllocatorConfig) (part : Ipv4Addr → ι) (i : ι) (p : ℕ)
    (x : Transition.Clocked Inner) (t : ℕ) : Transition.Clocked Inner → Prop
  | op {o : Op} {proto : Proto} {a : Allocation} (hclock : x.clock ≤ t) (hat : o.At t)
      (hfrees : o.Frees) (htruthful : o.Truthful part i p x.state)
      (hleg : x.state.active.lookup (p, proto) = some a) (htenant : part a.internalIp = i)
      (hgone : (o.apply cfg x.state).active.lookup (p, proto) = none) :
      Departs cfg part i p x t ⟨o.apply cfg x.state, t⟩
  | lapse {now : ℕ} {proto : Proto} {a : Allocation} (hclock : x.clock ≤ now)
      (hleg : x.state.active.lookup (p, proto) = some a) (htenant : part a.internalIp = i)
      (hend : a.expiresAt = t) (hlapsed : t ≤ now) :
      Departs cfg part i p x t ⟨(x.state.sweepExpired now cfg.cooldown).1, now⟩

variable {x y z : Transition.Clocked Inner} {t : ℕ}

theorem Orderly.barred (cfg : AllocatorConfig) (h : Orderly part i p now g) {proto : Proto}
    (hleg : g.active.lookup (p, proto) = some a) (htenant : part a.internalIp = i)
    (hsteps : Timers.Steps now cfg.cooldown (Left part i p g) g.timers g'.timers) (hwf : Wf g')
    (hsub : ∀ slot b, g'.active.lookup slot = some b → g.active.lookup slot = some b)
    (harmed : ∃ u, g'.timers.cooldown.lookup p = some u ∧ deadline ≤ u) :
    Barred part i p deadline now g' := by
  have howner := h.wf.single p proto a hleg
  refine ⟨hwf, fun proto' b hb => ?_, harmed, fun ip e hl => ?_⟩
  · rw [h.wf.single p proto' b (hsub _ b hb)] at howner
    rw [Option.some.inj howner, htenant]
  · exact h.last.steps hsteps hl howner htenant

/-- **What departs leaves a barred port behind**, unless the cooldown is over when
the lapsed lease is found. -/
theorem Departs.barred (h : Departs cfg part i p x t y) (hx : Orderly part i p x.clock x.state)
    (hnow : y.clock < t + cfg.cooldown) :
    Barred part i p (t + cfg.cooldown) y.clock y.state ∧ t ≤ y.clock := by
  cases h with
  | op hclock hat hfrees htruthful hleg htenant hgone =>
    rename_i o proto a
    have harms : Arms (t + cfg.cooldown) x.state (o.apply cfg x.state) := arms_apply hfrees hat
    have hrem : o.Removes := by
      cases o with
      | pass => exact hfrees
      | restore => exact hfrees
      | _ => exact trivial
    exact ⟨(hx.mono hclock).barred cfg hleg htenant
      (steps_apply (left_of_leg hx.wf) cfg hat htruthful.1) (hx.wf.apply cfg o)
      (shrinks_apply cfg x.state hrem).lookup
      ⟨_, harms.removed p proto a hleg hgone, le_rfl⟩, le_rfl⟩
  | lapse hclock hleg htenant hend hlapsed =>
    rename_i now proto a
    subst hend
    exact ⟨(hx.mono hclock).barred cfg hleg htenant
      (steps_sweepExpired (left_of_leg hx.wf) now cfg.cooldown)
      (hx.wf.sweepExpired now cfg.cooldown)
      (fun slot b hb => hx.wf.lookup_of_sweep hb)
      (cooldown_sweepExpired hx.wf hleg hlapsed hnow), hlapsed⟩

/-- **No inheritance after a release.**  In every run at times that never go back, in which no
release names a stranger for a leg of `p` that the tenant `i` holds: once a leg of `p` has left the
tenant at `t`, no request of an address outside the tenant made before `t + cooldown` is granted
`p`, whatever else happens in between short of a restore of `p` to another tenant. -/
theorem no_inheritance_after_release (hx : Run cfg (Op.Truthful part i p) fresh x)
    (hdeparts : Departs cfg part i p x t y) (hz : Run cfg (Respects part i p) y z)
    (liveWired : Bool) (draws : ℕ → ℕ) (req : MapRequest) (answers : DeployerAnswers)
    (hans : AnswersTenant part req.clientIp answers) (hstranger : part req.clientIp ≠ i)
    (hclock : z.clock ≤ req.now) (hnow : req.now < t + cfg.cooldown) (a : Allocation)
    (ha : (tryAllocate cfg liveWired draws z.state req answers []).1 = .done (.ok a)) :
    a.externalPort ≠ p := by
  have hlive : y.clock < t + cfg.cooldown := (hz.clock_le.trans hclock).trans_lt hnow
  obtain ⟨hbarred, hle⟩ := hdeparts.barred (orderly_of_run hx) hlive
  exact hbarred.run (by omega) hz liveWired hans hstranger hclock hnow ha

theorem Run.op {ok : Inner → Op → Prop} (h : Run cfg ok x y) (hclock : y.clock ≤ t)
    (hat : o.At t) (ho : ok y.state o) : Run cfg ok x ⟨o.apply cfg y.state, t⟩ :=
  .next h ⟨hclock, .op o ⟨hat, ho⟩⟩

/-- The client at `ip` asks for `suggested` for its internal port 80; every client
is a tenant of its own. -/
def askFor (ip : Ipv4Addr) (suggested now : ℕ) : MapRequest :=
  ⟨ip, .tcp, 80, suggested, clampLifetime 60, now⟩

def alone (ip : Ipv4Addr) : DeployerAnswers := ⟨some {ip}, some 1, none⟩

theorem answersTenant_alone (ip : Ipv4Addr) : AnswersTenant id ip (alone ip) := by
  rintro tenant htenant x
  cases htenant
  exact Finset.mem_singleton

def asks (ip : Ipv4Addr) (suggested now : ℕ) : Op :=
  .pass false id (askFor ip suggested now) (alone ip)

theorem truthful_asks (g) (ip : Ipv4Addr) (suggested now : ℕ) :
    (asks ip suggested now).Truthful id 1 49152 g :=
  ⟨trivial, answersTenant_alone ip⟩

def granted : Transition.Clocked Inner := ⟨(asks 1 49152 0).apply .warrenDefault fresh.state, 0⟩

theorem run_granted : Run .warrenDefault (Op.Truthful id 1 49152) fresh granted :=
  Run.op (.start rfl) le_rfl rfl (truthful_asks _ 1 49152 0)

def released : Transition.Clocked Inner :=
  ⟨(Op.releaseByClient 1 80 .tcp 1).apply .warrenDefault granted.state, 1⟩

theorem departs_released : Departs .warrenDefault id 1 49152 granted 1 released := by
  have hleg : granted.state.active.lookup (49152, .tcp)
      = some ⟨49152, 1, 80, .tcp, 60 * nanosPerSec⟩ := by decide
  have hgone : released.state.active.lookup (49152, .tcp) = none := by decide
  exact .op (Nat.zero_le 1) rfl trivial ⟨trivial, trivial⟩ hleg rfl hgone

/-- A stranger that takes any port is given the next one. -/
theorem no_inheritance_after_release_next : ∃ a,
    (tryAllocate .warrenDefault false id released.state (askFor 2 0 2) (alone 2) []).1
      = .done (.ok a) ∧ a.externalPort ≠ 49152 := by
  have hnext := no_inheritance_after_release run_granted departs_released (.start rfl) false id
    (askFor 2 0 2) (alone 2) (answersTenant_alone 2) (by decide) (by decide) (by decide)
  exact ⟨_, rfl, hnext _ rfl⟩

/-- The port is restored to the client at 2. -/
def restored : Transition.Clocked Inner :=
  ⟨(Op.restore [⟨49152, 2, 80, .tcp, 60 * nanosPerSec⟩] 2).apply .warrenDefault released.state, 2⟩

def grantedBoth : Transition.Clocked Inner :=
  ⟨(Op.pass false id ⟨1, .udp, 80, 49152, clampLifetime 60, 0⟩ (alone 1)).apply .warrenDefault
    granted.state, 0⟩

/-- When both leases end, the TCP mapping is released in the name of the client at 2. -/
def misnamed : Transition.Clocked Inner :=
  ⟨(Op.release ⟨49152, 2, 80, .tcp, 60 * nanosPerSec⟩ (60 * nanosPerSec)).apply .warrenDefault
    grantedBoth.state, 60 * nanosPerSec⟩

/-- The UDP lease is found to have ended. -/
def misnamedSwept : Transition.Clocked Inner :=
  ⟨(misnamed.state.sweepExpired (100 * nanosPerSec) AllocatorConfig.warrenDefault.cooldown).1,
    100 * nanosPerSec⟩

/-- The lease has ended, and its leg is taken before a sweep. -/
def slotTaken : Transition.Clocked Inner :=
  ⟨(Op.takeForSlot 49152 .tcp).apply .warrenDefault granted.state, 61 * nanosPerSec⟩

/-- The client at 2 asks for the port at `now`, and is granted it. -/
def Inherits (z : Transition.Clocked Inner) (now : ℕ) : Prop :=
  AnswersTenant id 2 (alone 2) ∧ z.clock ≤ now ∧
    ∃ a, (tryAllocate .warrenDefault false id z.state (askFor 2 49152 now) (alone 2) []).1
      = .done (.ok a) ∧ a.externalPort = 49152

/-- **Three ways to inherit a port** long before the cooldown of 300 s is over: it is restored to
the stranger, who renews it; a leg is released in the stranger's name; the lapsed leg is taken by
`take_active_for_slot`, which starts no cooldown. -/
theorem port_is_inherited :
    (Run .warrenDefault (Op.Truthful id 1 49152) fresh granted ∧
      Departs .warrenDefault id 1 49152 granted 1 released ∧
      Run .warrenDefault (Op.Truthful id 1 49152) released restored ∧ Inherits restored 3) ∧
    (Run .warrenDefault (fun _ o => o.Answered id) fresh misnamed ∧
      Departs .warrenDefault id 1 49152 misnamed (60 * nanosPerSec) misnamedSwept ∧
      Inherits misnamedSwept (100 * nanosPerSec)) ∧
    (granted.state.active.lookup (49152, .tcp) = some ⟨49152, 1, 80, .tcp, 60 * nanosPerSec⟩ ∧
      Run .warrenDefault (Respects id 1 49152) granted slotTaken ∧
      Inherits slotTaken (62 * nanosPerSec)) ∧
    3 < 1 + AllocatorConfig.warrenDefault.cooldown ∧
      100 * nanosPerSec < 60 * nanosPerSec + AllocatorConfig.warrenDefault.cooldown := by
  have hrestored : Run .warrenDefault (Op.Truthful id 1 49152) released restored :=
    Run.op (.start rfl) (by decide) rfl ⟨trivial, trivial⟩
  have hgranted : Run .warrenDefault (fun _ o => o.Answered id) fresh granted :=
    Run.op (.start rfl) le_rfl rfl (answersTenant_alone 1)
  have hboth : Run .warrenDefault (fun _ o => o.Answered id) fresh grantedBoth :=
    hgranted.op le_rfl rfl (answersTenant_alone 1)
  have hmisnamed : Run .warrenDefault (fun _ o => o.Answered id) fresh misnamed :=
    hboth.op (Nat.zero_le _) rfl trivial
  have hleg : misnamed.state.active.lookup (49152, .udp)
      = some ⟨49152, 1, 80, .udp, 60 * nanosPerSec⟩ := by decide
  have htaken : Run .warrenDefault (Respects id 1 49152) granted slotTaken :=
    Run.op (.start rfl) (Nat.zero_le _) trivial ⟨⟨trivial, trivial⟩, trivial⟩
  have hasks := answersTenant_alone 2
  exact ⟨⟨run_granted, departs_released, hrestored, hasks, by decide, _, rfl, rfl⟩,
    ⟨hmisnamed, .lapse (by decide) hleg rfl rfl (by decide), hasks, le_rfl, _, rfl, rfl⟩,
    ⟨by decide, htaken, hasks, by decide, _, rfl, rfl⟩, by decide, by decide⟩

/-! ### A mapping that moves to another port -/

/-- **A granted request of the tenant `i` moves its mapping off `p`**: its tuple had
a leg of `p` when the pass began, and afterwards no address of the tenant has one. -/
structure Moves (cfg : AllocatorConfig) (part : Ipv4Addr → ι) (i : ι) (p : ℕ)
    (x : Transition.Clocked Inner) (liveWired : Bool) (draws : ℕ → ℕ) (req : MapRequest)
    (answers : DeployerAnswers) : Prop where
  clock : x.clock ≤ req.now
  tenant : part req.clientIp = i
  answered : AnswersTenant part req.clientIp answers
  granted : ∃ a, (tryAllocate cfg liveWired draws x.state req answers []).1 = .done (.ok a)
  served : (p, req.proto) ∈ sameTuple (x.state.sweepExpired req.now cfg.cooldown).1 req
  gone : ∀ proto b, (tryAllocate cfg liveWired draws x.state req answers []).2.1.active.lookup
    (p, proto) = some b → part b.internalIp ≠ i

/-- **No inheritance after a move**, if the port is cooling down already.  In every
run of truthful operations at times that never go back: if a granted request made at
`t` moves its mapping off `p`, and the cooldown of `p` then runs to `t + cooldown`
at least, no request of an address outside the tenant made before that is granted
`p`, short of a restore of `p` to another tenant. -/
theorem no_inheritance_after_move {liveWired : Bool}
    (hx : Run cfg (Op.Truthful part i p) fresh x)
    (hmove : Moves cfg part i p x liveWired draws req answers)
    (hcooling : ∃ u, (x.state.sweepExpired req.now cfg.cooldown).1.cooldownUntil.lookup p = some u ∧
      req.now + cfg.cooldown ≤ u)
    (hz : Run cfg (Respects part i p)
      ⟨(tryAllocate cfg liveWired draws x.state req answers []).2.1, req.now⟩ z)
    (liveWired' : Bool) (draws' : ℕ → ℕ) (req' : MapRequest) (answers' : DeployerAnswers)
    (hans : AnswersTenant part req'.clientIp answers') (hstranger : part req'.clientIp ≠ i)
    (hclock : z.clock ≤ req'.now) (hnow : req'.now < req.now + cfg.cooldown) (a : Allocation)
    (ha : (tryAllocate cfg liveWired' draws' z.state req' answers' []).1 = .done (.ok a)) :
    a.externalPort ≠ p := by
  have hlive : req.now < req.now + cfg.cooldown := (hz.clock_le.trans hclock).trans_lt hnow
  have hs : Orderly part i p req.now (x.state.sweepExpired req.now cfg.cooldown).1 :=
    ((orderly_of_run hx).mono hmove.clock).sweepExpired
  obtain ⟨b, hleg, -, hip, -⟩ := mem_sameTuple.mp hmove.served
  have htenant : part b.internalIp = i := by rw [hip, hmove.tenant]
  -- the port is barred once the pass has swept, and the pass leaves it so
  have hswept : Barred part i p (req.now + cfg.cooldown) req.now
      (x.state.sweepExpired req.now cfg.cooldown).1 :=
    hs.barred cfg hleg htenant .refl hs.wf (fun _ _ hl => hl) hcooling
  exact (hswept.pass hlive hmove.answered).run le_rfl hz liveWired' hans hstranger hclock hnow ha

def takenBack : Transition.Clocked Inner :=
  ⟨(asks 1 49152 1).apply .warrenDefault released.state, 1⟩

theorem run_takenBack : Run .warrenDefault (Op.Truthful id 1 49152) fresh takenBack :=
  (run_granted.op (Nat.zero_le 1) (o := .releaseByClient 1 80 .tcp 1) rfl ⟨trivial, trivial⟩).op
    le_rfl rfl (truthful_asks _ 1 49152 1)

theorem moves_takenBack :
    Moves .warrenDefault id 1 49152 takenBack false id (askFor 1 49153 1) (alone 1) where
  clock := le_rfl
  tenant := rfl
  answered := answersTenant_alone 1
  granted := ⟨_, rfl⟩
  served := by decide
  gone proto b h := by
    cases proto with
    | tcp => cases h
    | udp => cases h

/-- After a release the port is cooling down, so a move at the same instant leaves it
so: a stranger that takes any port is given another one. -/
theorem no_inheritance_after_move_takenBack : ∃ a,
    (tryAllocate .warrenDefault false id
      (tryAllocate .warrenDefault false id takenBack.state (askFor 1 49153 1) (alone 1) []).2.1
      (askFor 2 0 2) (alone 2) []).1 = .done (.ok a) ∧ a.externalPort ≠ 49152 := by
  have hcooling : ∃ u, (takenBack.state.sweepExpired 1
      AllocatorConfig.warrenDefault.cooldown).1.cooldownUntil.lookup 49152 = some u ∧
        1 + AllocatorConfig.warrenDefault.cooldown ≤ u := ⟨_, rfl, le_rfl⟩
  have hnext := no_inheritance_after_move run_takenBack moves_takenBack hcooling (.start rfl)
    false id (askFor 2 0 2) (alone 2) (answersTenant_alone 2) (by decide) (by decide) (by decide)
  exact ⟨_, rfl, hnext _ rfl⟩

theorem moves_granted :
    Moves .warrenDefault id 1 49152 granted false id (askFor 1 49153 1) (alone 1) where
  clock := Nat.zero_le 1
  tenant := rfl
  answered := answersTenant_alone 1
  granted := ⟨_, rfl⟩
  served := by decide
  gone proto b h := by
    cases proto with
    | tcp => cases h
    | udp => cases h

/-- **A port that was moved away from is inherited at once.**  The client at 1 asks
for the next port at 1, and the client at 2 is granted the first one at 2. -/
theorem moved_port_is_inherited : ∃ a,
    Run .warrenDefault (Op.Truthful id 1 49152) fresh granted ∧
    Moves .warrenDefault id 1 49152 granted false id (askFor 1 49153 1) (alone 1) ∧
    AnswersTenant id (askFor 2 49152 2).clientIp (alone 2) ∧ (askFor 2 49152 2).clientIp ≠ 1 ∧
    2 < 1 + AllocatorConfig.warrenDefault.cooldown ∧
    (tryAllocate .warrenDefault false id
      (tryAllocate .warrenDefault false id granted.state (askFor 1 49153 1) (alone 1) []).2.1
      (askFor 2 49152 2) (alone 2) []).1 = .done (.ok a) ∧ a.externalPort = 49152 :=
  ⟨_, run_granted, moves_granted, answersTenant_alone 2, by decide, by decide, rfl, rfl⟩

end WarrenGuard.NatPmp
