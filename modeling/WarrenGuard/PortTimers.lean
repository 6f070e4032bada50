/-
What the operations do to the deadlines of a port, and who a port is granted to.

Three maps keep a port from a stranger after its holder has gone: the cooldowns, the last users,
for whom the cooldown is lifted, and the quarantines after an abuse report.  They are written on
six paths and trimmed lazily:

* `Timers.Step` — the five ways an entry changes; `steps_apply` — every operation is a sequence of
  them;
* `Timers.Steps.last`, `Timers.Steps.cooldown`, `Timers.Steps.quarantine`, `Timers.Steps.backed` —
  what such a sequence keeps;
* `Granted.source` — a granted port was the requester's, a peer's, or free, out of quarantine and
  out of its cooldown or last used by the tenant.
-/
import WarrenGuard.Clock
import WarrenGuard.PortQuota

namespace WarrenGuard.NatPmp

/-! ### Operations in time -/

/-- The operation can happen at `now`: it is made at that time, or at any. -/
def Op.At (now : ℕ) : Op → Prop
  | .trim t => t = now
  | .pass _ _ req _ => req.now = now
  | .release _ t => t = now
  | .releaseByClient _ _ _ t => t = now
  | .restore _ t => t = now
  | .takeForIp _ t => t = now
  | .takeForPort _ t => t = now
  | .takeForSlot _ _ => True
  | .revokeForAbuse _ _ t => t = now
  | .rateLimitStatus _ t => t = now

def TimedStep (cfg : AllocatorConfig) (ok : Inner → Op → Prop) (now : ℕ) : Inner → Inner → Prop :=
  StepIf cfg fun g o => o.At now ∧ ok g o

/-- The runs from `x` whose operations `ok` allows, at times that never go back. -/
def Run (cfg : AllocatorConfig) (ok : Inner → Op → Prop) (x : Transition.Clocked Inner) :
    Transition.Clocked Inner → Prop :=
  Transition.Reachable (· = x) (Transition.Later (TimedStep cfg ok))

def fresh : Transition.Clocked Inner := ⟨Inner.empty, 0⟩

/-! ### The deadlines of ports -/

/-- The cooldowns, the quarantines and the last users. -/
structure Timers where
  cooldown : Table ℕ ℕ
  quarantine : Table ℕ ℕ
  last : Table ℕ (Ipv4Addr × ℕ)

def Inner.timers (g : Inner) : Timers :=
  ⟨g.cooldownUntil, g.abuseQuarantineUntil, g.lastUserPerPort⟩

def Timers.trim (t : Timers) (now : ℕ) : Timers :=
  ⟨t.cooldown.retain fun _ expiry => decide (now < expiry),
    t.quarantine.retain fun _ expiry => decide (now < expiry),
    t.last.retain fun _ last => decide (now < last.2)⟩

/-- `ip` gave up `port`: both entries are overwritten. -/
def Timers.release (t : Timers) (port : ℕ) (ip : Ipv4Addr) (deadline : ℕ) : Timers :=
  { t with
    cooldown := t.cooldown.insert port deadline
    last := t.last.insert port (ip, deadline) }

/-- The lease of `ip` on `port` lapsed: the later deadline is kept. -/
def Timers.expire (t : Timers) (port : ℕ) (ip : Ipv4Addr) (deadline : ℕ) : Timers :=
  { t with
    cooldown := t.cooldown.insert port (max ((t.cooldown.lookup port).getD deadline) deadline)
    last := t.last.insert port
      (if ((t.last.lookup port).getD (ip, deadline)).2 < deadline then (ip, deadline)
        else (t.last.lookup port).getD (ip, deadline)) }

def Timers.restore (t : Timers) (port : ℕ) (ip : Ipv4Addr) (now : ℕ) : Timers :=
  { t with last := t.last.insert port (ip, now) }

/-- `port` was reported for abuse: the later deadline is kept. -/
def Timers.report (t : Timers) (port deadline : ℕ) : Timers :=
  { t with
    quarantine :=
      t.quarantine.insert port (max ((t.quarantine.lookup port).getD deadline) deadline) }

/-- The entry of `p` lasts until `deadline`. -/
abbrev Lasts (m : Table ℕ ℕ) (p deadline : ℕ) : Prop := ∃ u, m.lookup p = some u ∧ deadline ≤ u

section

variable {m : Table ℕ ℕ} {p deadline now port : ℕ} (h : Lasts m p deadline)

include h

theorem Lasts.retain (hnow : now < deadline) :
    Lasts (m.retain fun _ expiry => decide (now < expiry)) p deadline := by
  obtain ⟨u, hu, hle⟩ := h
  refine ⟨u, ?_, hle⟩
  rw [Table.lookup_retain, hu, Option.filter_some, if_pos (decide_eq_true (hnow.trans_le hle))]

theorem Lasts.insert {v : ℕ} (hv : p = port → deadline ≤ v) :
    Lasts (m.insert port v) p deadline := by
  unfold Lasts
  rw [Table.lookup_insert']
  split
  · rename_i hp
    exact ⟨v, rfl, hv hp⟩
  · exact h

theorem Lasts.insert_max (port d : ℕ) :
    Lasts (m.insert port (max ((m.lookup port).getD d) d)) p deadline := by
  refine h.insert fun hp => ?_
  obtain ⟨u, hu, hle⟩ := h
  rw [← hp, hu]
  exact hle.trans (le_max_left u d)

end

theorem Lasts.of_insert_max (m : Table ℕ ℕ) (p d : ℕ) :
    Lasts (m.insert p (max ((m.lookup p).getD d) d)) p d :=
  ⟨_, AList.lookup_insert m, le_max_right _ _⟩

section

variable (t : Timers) (port p now deadline : ℕ) (ip : Ipv4Addr)

theorem last_trim : (t.trim now).last.lookup p
    = (t.last.lookup p).filter fun last => decide (now < last.2) :=
  Table.lookup_retain _ _ _

theorem cooldown_release : (t.release port ip deadline).cooldown.lookup p
    = if p = port then some deadline else t.cooldown.lookup p :=
  Table.lookup_insert' _ _ _ _

theorem last_release : (t.release port ip deadline).last.lookup p
    = if p = port then some (ip, deadline) else t.last.lookup p :=
  Table.lookup_insert' _ _ _ _

theorem last_expire : (t.expire port ip deadline).last.lookup p
    = if p = port then
        some (if ((t.last.lookup port).getD (ip, deadline)).2 < deadline then (ip, deadline)
          else (t.last.lookup port).getD (ip, deadline))
      else t.last.lookup p :=
  Table.lookup_insert' _ _ _ _

theorem last_restore : (t.restore port ip now).last.lookup p
    = if p = port then some (ip, now) else t.last.lookup p :=
  Table.lookup_insert' _ _ _ _

theorem last_expire_self {ip' : Ipv4Addr} {e : ℕ}
    (h : (t.expire port ip deadline).last.lookup port = some (ip', e)) :
    (ip', e) = (ip, deadline) ∨ t.last.lookup port = some (ip', e) := by
  rw [last_expire, if_pos rfl] at h
  have hentry := Option.some.inj h
  split at hentry
  · exact .inl hentry.symm
  · rcases hold : t.last.lookup port with _ | old
    · rw [hold] at hentry
      exact .inl hentry.symm
    · rw [hold, Option.getD_some] at hentry
      exact .inr (congrArg some hentry)

end

/-- **How an entry changes** at `now`; `left port ip` says that `ip` may be named
as one that has left `port`. -/
inductive Timers.Step (now cooldown : ℕ) (left : ℕ → Ipv4Addr → Prop) (t : Timers) : Timers → Prop
  | trim : Step now cooldown left t (t.trim now)
  | release {port : ℕ} {ip : Ipv4Addr} (h : left port ip) :
      Step now cooldown left t (t.release port ip (now + cooldown))
  | expire {port : ℕ} {ip : Ipv4Addr} {deadline : ℕ} (h : left port ip) (hd : now < deadline) :
      Step now cooldown left t (t.expire port ip deadline)
  | restore (port : ℕ) (ip : Ipv4Addr) : Step now cooldown left t (t.restore port ip now)
  | report (port deadline : ℕ) : Step now cooldown left t (t.report port deadline)

def Timers.Steps (now cooldown : ℕ) (left : ℕ → Ipv4Addr → Prop) : Timers → Timers → Prop :=
  Relation.ReflTransGen (Timers.Step now cooldown left)

/-- Every last user that is still remembered is backed by a cooldown as long. -/
def Timers.Backed (now : ℕ) (t : Timers) : Prop :=
  ∀ p ip e, t.last.lookup p = some (ip, e) → e ≤ now ∨ ∃ u, t.cooldown.lookup p = some u ∧ e ≤ u

section

variable {now cd : ℕ} {left : ℕ → Ipv4Addr → Prop} {t t' : Timers}

variable {deadline p : ℕ}

/-- **A last user was there before, has left the port, or is not remembered.** -/
theorem Timers.Step.last (h : Step now cd left t t') {ip : Ipv4Addr} {e : ℕ}
    (hl : t'.last.lookup p = some (ip, e)) :
    t.last.lookup p = some (ip, e) ∨ left p ip ∨ e ≤ now := by
  cases h with
  | trim =>
    rw [last_trim] at hl
    exact .inl (Option.filter_eq_some_iff.mp hl).1
  | release hleft =>
    rw [last_release] at hl
    split at hl
    · rename_i hp
      cases hl
      exact .inr (.inl (hp ▸ hleft))
    · exact .inl hl
  | expire hleft hd =>
    rename_i port ip' deadline
    by_cases hp : p = port
    · subst hp
      rcases last_expire_self t p deadline ip' hl with heq | hold
      · cases heq
        exact .inr (.inl hleft)
      · exact .inl hold
    · rw [last_expire, if_neg hp] at hl
      exact .inl hl
  | restore port ip' =>
    rw [last_restore] at hl
    split at hl
    · cases hl
      exact .inr (.inr le_rfl)
    · exact .inl hl
  | report => exact .inl hl

/-- **A cooldown is not cut short** while it runs, below the cooldown of a release
made now. -/
theorem Timers.Step.cooldown (h : Step now cd left t t')
    (hl : Lasts t.cooldown p deadline) (hnow : now < deadline) (hmax : deadline ≤ now + cd) :
    Lasts t'.cooldown p deadline := by
  cases h with
  | trim => exact hl.retain hnow
  | release => exact hl.insert fun _ => hmax
  | expire => exact hl.insert_max ..
  | restore => exact hl
  | report => exact hl

/-- **A quarantine is not cut short** while it runs. -/
theorem Timers.Step.quarantine (h : Step now cd left t t')
    (hl : Lasts t.quarantine p deadline) (hnow : now < deadline) :
    Lasts t'.quarantine p deadline := by
  cases h with
  | trim => exact hl.retain hnow
  | release => exact hl
  | expire => exact hl
  | restore => exact hl
  | report => exact hl.insert_max ..

/-- **Both maps are armed together**, so that no last user outlives its cooldown. -/
theorem Timers.Step.backed (h : Step now cd left t t') (hb : t.Backed now) :
    t'.Backed now := by
  intro p ip e hl
  cases h with
  | trim =>
    rw [last_trim] at hl
    obtain ⟨hl', hlive⟩ := Option.filter_eq_some_iff.mp hl
    exact (hb p ip e hl').imp_right fun hlasts => Lasts.retain hlasts (of_decide_eq_true hlive)
  | release hleft =>
    rename_i port ip'
    rw [last_release] at hl
    rw [cooldown_release]
    by_cases hp : p = port
    · rw [if_pos hp] at hl ⊢
      cases hl
      exact .inr ⟨now + cd, rfl, le_rfl⟩
    · rw [if_neg hp] at hl ⊢
      exact hb p ip e hl
  | expire hleft hd =>
    rename_i port ip' dl
    have hkept (hold : t.last.lookup p = some (ip, e)) := (hb p ip e hold).imp_right
      fun hlasts : Lasts t.cooldown p e => hlasts.insert_max port dl
    by_cases hp : p = port
    · subst hp
      rcases last_expire_self t p dl ip' hl with heq | hold
      · cases heq
        exact .inr (Lasts.of_insert_max t.cooldown p e)
      · exact hkept hold
    · rw [last_expire, if_neg hp] at hl
      exact hkept hl
  | restore port ip' =>
    rw [last_restore] at hl
    split at hl
    · cases hl
      exact .inl le_rfl
    · exact hb p ip e hl
  | report => exact hb p ip e hl

theorem Timers.Steps.last (h : Steps now cd left t t') {ip : Ipv4Addr} {e : ℕ}
    (hl : t'.last.lookup p = some (ip, e)) :
    t.last.lookup p = some (ip, e) ∨ left p ip ∨ e ≤ now := by
  induction h with
  | refl => exact .inl hl
  | tail _ hstep ih =>
    rcases hstep.last hl with hl' | hright
    · exact ih hl'
    · exact .inr hright

theorem Timers.Steps.cooldown (h : Steps now cd left t t')
    (hl : Lasts t.cooldown p deadline) (hnow : now < deadline) (hmax : deadline ≤ now + cd) :
    Lasts t'.cooldown p deadline := by
  induction h with
  | refl => exact hl
  | tail _ hstep ih => exact hstep.cooldown ih hnow hmax

theorem Timers.Steps.quarantine (h : Steps now cd left t t')
    (hl : Lasts t.quarantine p deadline) (hnow : now < deadline) :
    Lasts t'.quarantine p deadline := by
  induction h with
  | refl => exact hl
  | tail _ hstep ih => exact hstep.quarantine ih hnow

theorem Timers.Steps.backed (h : Steps now cd left t t') (hb : t.Backed now) :
    t'.Backed now := by
  induction h with
  | refl => exact hb
  | tail _ hstep ih => exact hstep.backed ih

end

/-! ### Every operation is a sequence of such changes -/

/-- A release of a mapping that is in its slot names an address that `left` allows. -/
def Op.Names (left : ℕ → Ipv4Addr → Prop) (g : Inner) : Op → Prop
  | .release alloc _ => ∀ b, g.active.lookup (alloc.externalPort, alloc.proto) = some b →
      left alloc.externalPort alloc.internalIp
  | _ => True

section

variable {cfg : AllocatorConfig} {g g' : Inner} {now : ℕ} {left : ℕ → Ipv4Addr → Prop}

theorem timers_of_deadlines {g g' : Inner} (h : g'.deadlines = g.deadlines) :
    g'.timers = g.timers :=
  congrArg (fun d => (⟨d.1, d.2.1, d.2.2⟩ : Timers)) h

theorem steps_foldl_armExpired (cd : ℕ)
    (es : List (Σ _ : Slot, Allocation)) (h : ∀ e ∈ es, left e.1.1 e.2.internalIp) (g)
    {t : Timers} (ht : g.timers = t) :
    Timers.Steps now cd left t (es.foldl (Inner.armExpired now cd) g).timers := by
  subst ht
  induction es generalizing g with
  | nil => exact .refl
  | cons e es ih =>
    refine .trans ?_ (ih (fun e' he' => h e' (List.mem_cons_of_mem e he')) (g.armExpired now cd e))
    unfold Inner.armExpired
    dsimp only
    split
    · rename_i hd
      exact .single (.expire (h e List.mem_cons_self) hd)
    · exact .refl

theorem steps_restoreAt (cd : ℕ) (g) (entries : List Allocation) :
    Timers.Steps now cd left g.timers (restoreAt g entries now).1.timers := by
  refine restoreAt_induction (P := fun acc => Timers.Steps now cd left g.timers acc.1.timers) .refl
    fun acc entry _ hacc => hacc.trans ?_
  rcases restoreEntry_cases now acc entry with heq | ⟨heq, -⟩
  · rw [heq]
  · rw [heq]
    exact .single (.restore entry.externalPort entry.internalIp)

-- whoever holds a leg of a port may be named as one that has left it
variable (hleft : ∀ port proto a, g.active.lookup (port, proto) = some a → left port a.internalIp)

include hleft

theorem steps_sweepExpired (now cd : ℕ) :
    Timers.Steps now cd left g.timers (g.sweepExpired now cd).1.timers := by
  unfold Inner.sweepExpired
  split
  · exact .refl
  · dsimp only
    exact steps_foldl_armExpired cd _
      (fun e he => hleft e.1.1 e.1.2 e.2 (Table.lookup_of_mem_entries (List.mem_of_mem_filter he)))
      _ rfl

theorem steps_takeSlot (hs : Shrinks g g') (slot : Slot) :
    Timers.Steps now cfg.cooldown left g'.timers
      (g'.takeSlot slot (now + cfg.cooldown)).1.timers := by
  unfold Inner.takeSlot
  split
  · rename_i a ha
    exact .single (.release (hleft slot.1 slot.2 a (hs.lookup slot a ha)))
  · exact .refl

theorem Freed.steps {g₁ : Inner} (hs : Shrinks g g₁) (h : Freed (now + cfg.cooldown) g₁ g') :
    Timers.Steps now cfg.cooldown left g₁.timers g'.timers := by
  induction h with
  | refl => exact .refl
  | take hprev slot ih => exact ih.trans (steps_takeSlot hleft (hs.trans hprev.shrinks) slot)

/-- **Every operation changes the deadlines by such steps.** -/
theorem steps_apply (cfg : AllocatorConfig) {o : Op} (hat : o.At now) (hnames : o.Names left g) :
    Timers.Steps now cfg.cooldown left g.timers (o.apply cfg g).timers := by
  cases o with
  | trim t =>
    obtain rfl := hat
    exact .single .trim
  | pass liveWired draws req answers =>
    obtain rfl := hat
    show Timers.Steps req.now cfg.cooldown left g.timers
      (decideSwept cfg liveWired draws (g.sweepExpired req.now cfg.cooldown).1 req answers
        ([] ++ (g.sweepExpired req.now cfg.cooldown).2)).2.1.timers
    rw [timers_of_deadlines (decideSwept_pass ..).deadlines_eq]
    exact steps_sweepExpired hleft req.now cfg.cooldown
  | release alloc t =>
    obtain rfl := hat
    show Timers.Steps t cfg.cooldown left g.timers (releaseAt cfg g alloc t).timers
    unfold releaseAt
    split
    · exact .refl
    · rename_i b hb
      exact .single (.release (hnames b hb))
  | releaseByClient clientIp internalPort proto t =>
    obtain rfl := hat
    exact Freed.steps hleft (.refl g) (freed_releaseByClientAt cfg g clientIp internalPort proto t)
  | restore entries t =>
    obtain rfl := hat
    exact steps_restoreAt cfg.cooldown g entries
  | takeForIp clientIp t =>
    obtain rfl := hat
    exact Freed.steps hleft (.refl g) (freed_takeActiveForIpAt cfg g clientIp t)
  | takeForPort port t =>
    obtain rfl := hat
    exact Freed.steps hleft (.refl g) (freed_takePort g port _)
  | takeForSlot port proto => exact .refl
  | revokeForAbuse port quarantine t =>
    obtain rfl := hat
    -- the report first, then both legs are taken
    have hreport : Timers.Steps t cfg.cooldown left g.timers
        (g.timers.report port (t + min quarantine maxAbuseQuarantine)) := .single (.report port _)
    have hs : Shrinks g { g with
        abuseQuarantineUntil := g.abuseQuarantineUntil.insert port
          (max ((g.abuseQuarantineUntil.lookup port).getD (t + min quarantine maxAbuseQuarantine))
            (t + min quarantine maxAbuseQuarantine)) } := .of_eq rfl rfl
    have htaken := Freed.steps hleft hs (freed_takePort _ port (t + cfg.cooldown))
    exact hreport.trans htaken
  | rateLimitStatus clientIp t =>
    show Timers.Steps now cfg.cooldown left g.timers
      (rateLimitStatusAt cfg g clientIp t).2.timers
    obtain ⟨log, hlog⟩ := rateLimitStatusAt_withLog cfg g clientIp t
    rw [hlog]
    exact .refl

end

/-! ### Who a port is granted to -/

/-- A free port is open to a tenant at `now`: it is out of quarantine, and out of
its cooldown unless the tenant used it last. -/
structure Open (g : Inner) (p now : ℕ) (tenant : Finset Ipv4Addr) : Prop where
  clean : ∀ u, g.abuseQuarantineUntil.lookup p = some u → u ≤ now
  cooled : (∃ ip e, g.lastUserPerPort.lookup p = some (ip, e) ∧ ip ∈ tenant ∧ now < e) ∨
    ∀ u, g.cooldownUntil.lookup p = some u → u ≤ now

section

variable {cfg : AllocatorConfig} {draws : ℕ → ℕ} {s : Inner} {req : MapRequest}
  {answers : DeployerAnswers} {reclaim : Bool} {a : Allocation} {active : Table Slot Allocation}
  {tenant : Finset Ipv4Addr}

theorem open_of_portEligible {g : Inner} {p now : ℕ} {clientIp : Ipv4Addr}
    {reclaim : Option (Finset Ipv4Addr)} (h : portEligible g p clientIp now reclaim = true)
    (hr : ∀ peers, reclaim = some peers → peers = tenant) : Open g p now tenant := by
  unfold portEligible at h
  split at h
  · cases h
  split at h
  · cases h
  rename_i hquarantine
  have hclean : ∀ u, g.abuseQuarantineUntil.lookup p = some u → u ≤ now := by
    intro u hu
    rw [hu] at hquarantine
    simpa using hquarantine
  split at h
  · rename_i hbypass
    rcases reclaim with _ | peers
    · cases hbypass
    · rcases hlook : g.lastUserPerPort.lookup p with _ | ⟨ip, e⟩
      · rw [hlook] at hbypass
        cases hbypass
      · rw [hlook, Option.any_some, Option.any_some, Bool.and_eq_true, decide_eq_true_eq,
          decide_eq_true_eq] at hbypass
        exact ⟨hclean, .inl ⟨ip, e, hlook, hr peers rfl ▸ hbypass.1, hbypass.2⟩⟩
  · refine ⟨hclean, .inr fun u hu => ?_⟩
    rw [Bool.and_eq_true, hu] at h
    simpa using h.1

/-- **Where a granted port comes from**: the requester held it, a peer held it, or
it was free and open to the tenant. -/
theorem Granted.source (hwf : Wf s) (h : Granted cfg draws s req answers reclaim a active)
    (htenant : answers.tenant = some tenant) :
    portOwner s a.externalPort = some req.clientIp ∨
      (∃ holder ∈ tenant, portOwner s a.externalPort = some holder) ∨
      portOwner s a.externalPort = none ∧ Open s a.externalPort req.now tenant := by
  obtain ⟨passes, tenant_eq, -, -, chosen⟩ := h
  rename_i tenant' budget port
  obtain rfl : tenant' = tenant := Option.some.inj (tenant_eq.symm.trans htenant)
  show portOwner s port = some req.clientIp ∨ (∃ holder ∈ tenant', portOwner s port = some holder) ∨
    portOwner s port = none ∧ Open s port req.now tenant'
  cases passes with
  | none hzero =>
    obtain ⟨-, hpick⟩ := chosen.resolve_left fun hne => hne.1 hzero
    obtain ⟨-, ⟨rfl, -, howner⟩ | heligible⟩ := pickPort_eq_some hpick
    · exact .inl (hwf.owner_of_shrinks (shrinks_dropTuple s req) howner)
    · -- free after the drop: it was free before, or the tuple held it
      have hopen : Open (dropTuple s req) port req.now tenant' :=
        open_of_portEligible heligible fun _ hpeers => by cases hpeers
      rcases howner : portOwner s port with _ | owner
      · exact .inr (.inr ⟨rfl, hopen.clean, hopen.cooled⟩)
      · obtain ⟨proto, b, hb, rfl⟩ := exists_of_portOwner howner
        by_cases hmem : (port, proto) ∈ sameTuple s req
        · obtain ⟨c, hc, -, hip, -⟩ := mem_sameTuple.mp hmem
          rw [hb] at hc
          cases hc
          exact .inl (congrArg some hip)
        · have hkept : (dropTuple s req).active.lookup (port, proto) = some b := by
            rw [lookup_dropTuple, if_neg hmem, hb]
          obtain ⟨owner, hown⟩ := exists_portOwner hkept
          rw [portOwner_of_portEligible heligible] at hown
          cases hown
  | cheap hne hcheap =>
    obtain ⟨-, rfl⟩ := chosen.resolve_right fun heq => hne heq.1
    rcases howner : portOwner s (effectiveSuggestion s req) with _ | owner
    · refine .inr (.inr ⟨rfl, open_of_portEligible
        (portEligible_of_cheapGrantable hcheap howner htenant) fun peers hpeers => ?_⟩)
      split at hpeers
      · exact (Option.some.inj hpeers).symm
      · cases hpeers
    · exact .inl (congrArg some ((cheapGrantable_true hcheap).2 owner howner))
  | reclaim hne _ howner _ htenant' hmem =>
    obtain ⟨-, rfl⟩ := chosen.resolve_right fun heq => hne heq.1
    obtain rfl := Option.some.inj (htenant'.symm.trans htenant)
    exact .inr (.inl ⟨_, hmem, howner⟩)

end

end WarrenGuard.NatPmp
