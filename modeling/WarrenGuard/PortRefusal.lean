/-
What a refused port request costs.

A request drops the mappings of its own tuple before it checks the quota and before it looks for a
port.  A refusal after that point leaves the client without the mapping it asked to renew or to
move:

* `Loses` — exactly when: a change to a free port over a full budget, or a renewal without a
  preference whose port cannot be had again while the range is full;
* `decideSwept_outcome` — one pass ends as `Loses` says, whichever answers it already has;
* `allocate_error_keeps_active_iff` — and so does a request; `quota_refusal_drops_mapping` — one
  that loses.
-/
import WarrenGuard.PortOwnership

namespace WarrenGuard.NatPmp

/-- The maps once everything that has run out at `now` is dropped. -/
def settled (cfg : AllocatorConfig) (g : Inner) (now : ℕ) : Inner :=
  ((g.trimSideMaps now cfg.rateLimitWindow).sweepExpired now cfg.cooldown).1

/-- **When a refused request loses its mapping.**  A mapping of the request's
tuple is live, and either

* the suggested port is free and grantable, or it is one of several mappings of
  the tuple (not the last one iterated) with no other leg, and the tenant's other
  ports fill its budget; or
* nothing is suggested, the client holds no other leg of the port it held last,
  and no port of the range is eligible. -/
def Loses (cfg : AllocatorConfig) (tenant : Finset Ipv4Addr) (budget : ℕ) (s : Inner)
    (req : MapRequest) : Prop :=
  sameTuple s req ≠ [] ∧
  ((effectiveSuggestion s req ≠ 0 ∧ portInRange cfg (effectiveSuggestion s req) = true ∧
      (portEligible s (effectiveSuggestion s req) req.clientIp req.now
          (if lastUserLive s (effectiveSuggestion s req) req.now then some tenant else none)
          = true ∨
        (effectiveSuggestion s req, req.proto) ∈ sameTuple s req ∧
          lastHeld s req ≠ some (effectiveSuggestion s req) ∧
          portOwner (dropTuple s req) (effectiveSuggestion s req) = none) ∧
      budget ≤ (heldPorts (dropTuple s req) tenant).card) ∨
    (effectiveSuggestion s req = 0 ∧
      (∀ p, lastHeld s req = some p → p ≠ 0 → portInRange cfg p = true →
        portOwner (dropTuple s req) p ≠ some req.clientIp) ∧
      ∀ p, portInRange cfg p = true →
        portEligible (dropTuple s req) p req.clientIp req.now none = false))

variable {cfg : AllocatorConfig} {deployer : Deployer} {draws : ℕ → ℕ} {g s : Inner}
  {req : MapRequest} {answers : DeployerAnswers} {evicted : List Allocation}
  {tenant : Finset Ipv4Addr} {budget : ℕ}

/-! ### The sweep is idempotent -/

theorem foldl_earlier_gt (now : ℕ) (es : List (Σ _ : Slot, Allocation)) (next : Option ℕ)
    (hnext : ∀ t, next = some t → now < t) (hes : ∀ e ∈ es, now < e.2.expiresAt) :
    ∀ t, es.foldl (fun next e => earlier next e.2.expiresAt) next = some t → now < t := by
  induction es generalizing next with
  | nil => exact hnext
  | cons e es ih =>
    refine ih (earlier next e.2.expiresAt) ?_ fun e' he' => hes e' (List.mem_cons_of_mem e he')
    intro t ht
    have he := hes e List.mem_cons_self
    cases next with
    | none =>
      cases ht
      exact he
    | some u =>
      cases ht
      exact lt_min (hnext u rfl) he

theorem sweepExpired_skips (g : Inner) (now cooldown : ℕ) :
    ((g.sweepExpired now cooldown).1.nextExpiry.all fun t => decide (now < t)) = true := by
  by_cases hskip : (g.nextExpiry.all fun t => decide (now < t)) = true
  · rw [sweepExpired_of_skip hskip]
    exact hskip
  rw [(active_sweepExpired cooldown hskip).2, Option.all_eq_true]
  intro t ht
  refine decide_eq_true (foldl_earlier_gt now _ none (fun u hu => by cases hu) ?_ t ht)
  intro e he
  exact of_decide_eq_true (List.mem_filter.mp he).2

/-! ### Ports held, last and by the tenant -/

variable {clientIp : Ipv4Addr} {p : ℕ}

theorem mem_heldPorts : p ∈ heldPorts g tenant ↔
    ∃ proto a, g.active.lookup (p, proto) = some a ∧ a.internalIp ∈ tenant := by
  simp only [heldPorts, List.mem_toFinset, Table.mem_map_filter, decide_eq_true_eq]
  constructor
  · rintro ⟨slot, a, hlook, hip, rfl⟩
    exact ⟨slot.2, a, hlook, hip⟩
  · rintro ⟨proto, a, hlook, hip⟩
    exact ⟨(p, proto), a, hlook, hip, rfl⟩

theorem not_mem_heldPorts_of_owner_none (h : portOwner g p = none) :
    p ∉ heldPorts g tenant := by
  intro hmem
  obtain ⟨proto, a, hlook, -⟩ := mem_heldPorts.mp hmem
  obtain ⟨owner, howner⟩ := exists_portOwner hlook
  rw [h] at howner
  cases howner

theorem lastHeld_isSome (h : sameTuple g req ≠ []) : (lastHeld g req).isSome = true := by
  rw [lastHeld, Option.isSome_map, List.getLast?_isSome]
  exact h

theorem mem_sameTuple_of_lastHeld (h : lastHeld g req = some p) :
    (p, req.proto) ∈ sameTuple g req := by
  obtain ⟨slot, hslot, rfl⟩ := Option.map_eq_some_iff.mp h
  have hmem := List.mem_of_getLast? hslot
  obtain ⟨_, _, hproto, -⟩ := mem_sameTuple.mp hmem
  rw [← hproto]
  exact hmem

theorem dropTuple_of_nil (h : sameTuple g req = []) : (dropTuple g req).active = g.active := by
  show Table.eraseAll (sameTuple g req) g.active = g.active
  rw [h, Table.eraseAll_nil]

/-- No port is picked exactly when none is eligible and the port to reuse is not
the client's through its other leg. -/
theorem pickPort_eq_none {proto : Proto} {reuse now : ℕ}
    (hslot : g.active.lookup (reuse, proto) = none) :
    pickPort cfg draws g proto reuse clientIp now = none ↔
      (reuse ≠ 0 → portInRange cfg reuse = true → portOwner g reuse ≠ some clientIp) ∧
        ∀ p, portInRange cfg p = true → portEligible g p clientIp now none = false := by
  unfold pickPort
  constructor
  · intro h
    split at h
    · cases h
    · rename_i hreuse
      rw [Option.or_eq_none_iff] at h
      refine ⟨fun hne hin howner => hreuse ?_, fun p hp => ?_⟩
      · simp [hne, hin, howner, hslot]
      · simpa using List.find?_eq_none.mp h.2 p (portInRange_iff_mem_range'.mp hp)
  · rintro ⟨hown, hfull⟩
    rw [if_neg, Option.or_eq_none_iff]
    · refine ⟨List.find?_eq_none.mpr fun p hp => ?_, List.find?_eq_none.mpr fun p hp => ?_⟩
      · obtain ⟨i, -, rfl⟩ := List.mem_map.mp hp
        simp [hfull _ (portInRange_draw cfg _)]
      · simp [hfull p (portInRange_iff_mem_range'.mpr hp)]
    · simp only [Bool.and_eq_true, Bool.or_eq_true, decide_eq_true_eq, not_and, not_or]
      rintro ⟨⟨hne, hin⟩, -⟩
      exact ⟨hown hne hin, by simp [hfull reuse hin]⟩

theorem lookup_dropTuple_lastHeld (h : sameTuple g req ≠ []) :
    (dropTuple g req).active.lookup ((lastHeld g req).getD 0, req.proto) = none := by
  obtain ⟨p, hp⟩ := Option.isSome_iff_exists.mp (lastHeld_isSome h)
  rw [hp, Option.getD_some, lookup_dropTuple, if_pos (mem_sameTuple_of_lastHeld hp)]

/-- What makes a free suggestion grantable: its port is eligible, for the tenant
when its last user is still remembered. -/
theorem portEligible_of_cheapGrantable {suggested : ℕ}
    (h : cheapGrantable cfg s req suggested answers = .ok true)
    (hfree : portOwner s suggested = none)
    (htenant : answers.tenant = some tenant) :
    portEligible s suggested req.clientIp req.now
      (if lastUserLive s suggested req.now then some tenant else none) = true := by
  have hslot : s.active.lookup (suggested, req.proto) = none := by
    obtain ⟨htcp, hudp⟩ := portOwner_eq_none.mp hfree
    cases req.proto with
    | tcp => exact htcp
    | udp => exact hudp
  unfold cheapGrantable at h
  rw [hslot, hfree, htenant] at h
  split at h
  · simp only [Option.isSome_none, Bool.false_eq_true, if_false] at h
    split at h
    · rename_i hlive
      rw [if_pos hlive]
      injection h
    · rename_i hlive
      rw [if_neg hlive]
      injection h
  · cases h

/-! ### A grant that fails -/

/-- A request over a full budget is refused, whether its port is free or one of
several mappings of its tuple. -/
theorem reusesHeldPort_eq_false (hwf : Wf s) (hne : effectiveSuggestion s req ≠ 0)
    (h : portEligible s (effectiveSuggestion s req) req.clientIp req.now
          (if lastUserLive s (effectiveSuggestion s req) req.now then some tenant else none)
          = true ∨
        (effectiveSuggestion s req, req.proto) ∈ sameTuple s req ∧
          lastHeld s req ≠ some (effectiveSuggestion s req) ∧
          portOwner (dropTuple s req) (effectiveSuggestion s req) = none) :
    reusesHeldPort s req (effectiveSuggestion s req) tenant = false := by
  have hfree : portOwner (dropTuple s req) (effectiveSuggestion s req) = none ∧
      lastHeld s req ≠ some (effectiveSuggestion s req) := by
    rcases h with heligible | ⟨-, hlast, howner⟩
    · have howner := portOwner_of_portEligible heligible
      constructor
      · by_contra hsome
        obtain ⟨owner, hown⟩ := Option.ne_none_iff_exists'.mp hsome
        have hown' := hwf.owner_of_shrinks (shrinks_dropTuple s req) hown
        rw [howner] at hown'
        cases hown'
      · intro hlast
        obtain ⟨a, hlook, -⟩ := mem_sameTuple.mp (mem_sameTuple_of_lastHeld hlast)
        obtain ⟨owner, hown⟩ := exists_portOwner hlook
        rw [howner] at hown
        cases hown
    · exact ⟨howner, hlast⟩
  rw [reusesHeldPort, if_pos hne, decide_eq_false (not_mem_heldPorts_of_owner_none hfree.1),
    decide_eq_false hfree.2, Bool.or_self]

/-- **A losing grant fails, with the tuple already dropped.** -/
theorem grant_of_loses (draws) (hwf : Wf s) (hl : Loses cfg tenant budget s req)
    (acquires : Bool) (evicted) : ∃ error evicted',
    grant cfg draws s req (effectiveSuggestion s req) false acquires tenant budget evicted
      = (.error error, dropTuple s req, evicted') := by
  have hr : effectiveSuggestion s req = 0 → false = false := fun _ => rfl
  obtain ⟨htuple, ⟨hne, -, hfree, hbudget⟩ | ⟨hzero, hlast, hfull⟩⟩ := hl
  · -- the quota check refuses: the port is new to the tenant and the budget is used up
    have hreuse := reusesHeldPort_eq_false hwf hne hfree
    obtain ⟨heq, -⟩ | ⟨hok, -⟩ :=
      grant_cases cfg draws s req acquires tenant budget evicted hr
    · exact ⟨_, _, heq⟩
    · rcases hok with hreuse' | hlt
      · rw [hreuse] at hreuse'
        cases hreuse'
      · exact absurd hbudget (Nat.not_le.mpr hlt)
  · -- the quota check passes a renewal, and then no port is left to pick
    have hpick : pickPort cfg draws (dropTuple s req) req.proto ((lastHeld s req).getD 0)
        req.clientIp req.now = none := by
      refine (pickPort_eq_none (lookup_dropTuple_lastHeld htuple)).mpr ⟨fun hne hin => ?_, hfull⟩
      obtain ⟨p, hp⟩ := Option.isSome_iff_exists.mp (lastHeld_isSome htuple)
      rw [hp, Option.getD_some] at hne hin ⊢
      exact hlast p hp hne hin
    obtain ⟨heq, -⟩ | ⟨-, ⟨heq, -⟩ | ⟨port, base, -, -, -, -, hport⟩⟩ :=
      grant_cases cfg draws s req acquires tenant budget evicted hr
    · exact ⟨_, _, heq⟩
    · exact ⟨_, _, heq⟩
    · obtain ⟨-, hsome⟩ := hport.resolve_left fun hne => hne.1 hzero
      rw [hpick] at hsome
      cases hsome

theorem mem_sameTuple_of_not_held (hnotheld : p ∉ heldPorts (dropTuple s req) tenant)
    {proto : Proto} {a : Allocation} (hlook : s.active.lookup (p, proto) = some a)
    (hip : a.internalIp ∈ tenant) : (p, proto) ∈ sameTuple s req := by
  by_contra hkept
  refine hnotheld (mem_heldPorts.mpr ⟨proto, a, ?_, hip⟩)
  rw [lookup_dropTuple, if_neg hkept, hlook]

/-- When the drop frees a port of the client, the requested slot is of the tuple, and no
leg of the port is left. -/
theorem own_port_of_not_held (hwf : Wf s) (hclient : req.clientIp ∈ tenant)
    (hown : portOwner s p = some req.clientIp) (hnotheld : p ∉ heldPorts (dropTuple s req) tenant) :
    (p, req.proto) ∈ sameTuple s req ∧ portOwner (dropTuple s req) p = none := by
  have hall : ∀ proto a, s.active.lookup (p, proto) = some a → (p, proto) ∈ sameTuple s req := by
    intro proto a hlook
    refine mem_sameTuple_of_not_held hnotheld hlook ?_
    rw [hwf.single _ proto a hlook] at hown
    rwa [Option.some.inj hown]
  obtain ⟨proto, a, hlook, -⟩ := exists_of_portOwner hown
  have hmem := hall proto a hlook
  obtain ⟨_, _, hproto, -⟩ := mem_sameTuple.mp hmem
  refine ⟨hproto ▸ hmem, ?_⟩
  by_contra hsome
  obtain ⟨owner', hown'⟩ := Option.ne_none_iff_exists'.mp hsome
  obtain ⟨proto', a', hlook', -⟩ := exists_of_portOwner hown'
  rw [lookup_dropTuple] at hlook'
  split at hlook'
  · cases hlook'
  · next hkept => exact hkept (hall proto' a' hlook')

theorem loses_of_quota_full (hwf : Wf s) {reclaim : Bool}
    (hpass : Passes cfg s req (effectiveSuggestion s req) answers reclaim)
    (htenant : answers.tenant = some tenant) (hclient : req.clientIp ∈ tenant)
    (htuple : sameTuple s req ≠ [])
    (hreuse : reusesHeldPort s req (effectiveSuggestion s req) tenant = false)
    (hbudget : budget ≤ (heldPorts (dropTuple s req) tenant).card) :
    Loses cfg tenant budget s req := by
  -- a renewal without a preference always reuses its port
  have hne : effectiveSuggestion s req ≠ 0 := by
    intro hzero
    rw [reusesHeldPort, if_neg (not_not_intro hzero), lastHeld_isSome htuple] at hreuse
    cases hreuse
  rw [reusesHeldPort, if_pos hne, Bool.or_eq_false_iff, decide_eq_false_iff_not,
    decide_eq_false_iff_not] at hreuse
  obtain ⟨hnotheld, hlast⟩ := hreuse
  cases hpass with
  | none hzero => exact absurd hzero hne
  | reclaim _ _ howner hother htenant' hmem =>
    -- a reclaimed port has a leg of a peer, which no drop of the client's tuple frees
    obtain rfl : _ = tenant := Option.some.inj (htenant'.symm.trans htenant)
    obtain ⟨proto, a, hlook, rfl⟩ := exists_of_portOwner howner
    obtain ⟨b, hb, -, hip, -⟩ := mem_sameTuple.mp (mem_sameTuple_of_not_held hnotheld hlook hmem)
    rw [hlook] at hb
    cases hb
    exact absurd hip hother
  | cheap _ hcheap =>
    obtain ⟨hrange, howner⟩ := cheapGrantable_true hcheap
    refine ⟨htuple, .inl ⟨hne, hrange, ?_, hbudget⟩⟩
    by_cases hfree : portOwner s (effectiveSuggestion s req) = none
    · exact .inl (portEligible_of_cheapGrantable hcheap hfree htenant)
    · obtain ⟨owner, hown⟩ := Option.ne_none_iff_exists'.mp hfree
      obtain rfl := howner owner hown
      obtain ⟨hmem, hnone⟩ := own_port_of_not_held hwf hclient hown hnotheld
      exact .inr ⟨hmem, hlast, hnone⟩

/-- **A refusal after the tuple is dropped loses it, or there was none.** -/
theorem loses_of_grant_error (hwf : Wf s) {reclaim acquires : Bool}
    (hpass : Passes cfg s req (effectiveSuggestion s req) answers reclaim)
    (htenant : answers.tenant = some tenant) (hclient : req.clientIp ∈ tenant)
    {error : NatPmpError} {g' : Inner} {evicted' : List Allocation}
    (heq : grant cfg draws s req (effectiveSuggestion s req) reclaim acquires tenant budget evicted
      = (.error error, g', evicted')) :
    g' = dropTuple s req ∧ (sameTuple s req = [] ∨ Loses cfg tenant budget s req) := by
  obtain ⟨hg, hreuse, hbudget⟩ | ⟨-, ⟨hg, hzero, hpick⟩ | ⟨port, base, hg, -⟩⟩ :=
    grant_cases cfg draws s req acquires tenant budget evicted hpass.reclaim_false
  · rw [heq] at hg
    refine ⟨congrArg (fun r => r.2.1) hg, ?_⟩
    by_cases htuple : sameTuple s req = []
    · exact .inl htuple
    · exact .inr (loses_of_quota_full hwf hpass htenant hclient htuple hreuse hbudget)
  · rw [heq] at hg
    refine ⟨congrArg (fun r => r.2.1) hg, ?_⟩
    by_cases htuple : sameTuple s req = []
    · exact .inl htuple
    obtain ⟨hown, hfull⟩ := (pickPort_eq_none (lookup_dropTuple_lastHeld htuple)).mp hpick
    refine .inr ⟨htuple, .inr ⟨hzero, fun p hp hne hin => ?_, hfull⟩⟩
    rw [hp, Option.getD_some] at hown
    exact hown hne hin
  · -- a grant is no refusal
    rw [heq] at hg
    cases congrArg Prod.fst hg

/-! ### The pass and the request -/

theorem cheapGrantable_of_loses {suggested : ℕ} (hwf : Wf s)
    (hrange : portInRange cfg suggested = true)
    (hfree : portEligible s suggested req.clientIp req.now
        (if lastUserLive s suggested req.now then some tenant else none) = true ∨
      (suggested, req.proto) ∈ sameTuple s req)
    (htenant : ∀ t, answers.tenant = some t → t = tenant) :
    cheapGrantable cfg s req suggested answers = .ok true ∨
      cheapGrantable cfg s req suggested answers = .error .tenant := by
  unfold cheapGrantable
  rcases hfree with heligible | hmem
  · have howner := portOwner_of_portEligible heligible
    have hslot : s.active.lookup (suggested, req.proto) = none := by
      obtain ⟨htcp, hudp⟩ := portOwner_eq_none.mp howner
      cases req.proto with
      | tcp => exact htcp
      | udp => exact hudp
    rw [hslot, howner, hrange]
    by_cases hlive : lastUserLive s suggested req.now = true
    · rw [if_pos hlive] at heligible
      rcases hans : answers.tenant with _ | t
      · exact .inr (by simp [hlive])
      · left
        rw [htenant t hans]
        simp [hlive, heligible]
    · rw [if_neg hlive] at heligible
      exact .inl (by simp [hlive, heligible])
  · obtain ⟨a, hlook, -, hip, hport⟩ := mem_sameTuple.mp hmem
    left
    rw [hlook, hwf.single suggested req.proto a hlook, hrange, hip]
    simp [hport, hip]

/-- **A losing pass asks, or fails with the tuple dropped**: neither the
pre-check nor the rate limit refuses it. -/
theorem decideSwept_of_loses (draws) (hwf : Wf s) (hl : Loses cfg tenant budget s req)
    (htenant : ∀ t, answers.tenant = some t → t = tenant)
    (hbudget : ∀ b, answers.budget = some b → b = budget) (liveWired : Bool) (evicted) :
    (∃ question, (decideSwept cfg liveWired draws s req answers evicted).1 = .ask question) ∨
    ∃ error evicted', decideSwept cfg liveWired draws s req answers evicted
      = (.done (.error error), dropTuple s req, evicted') := by
  have hpre : precheck cfg liveWired s req (effectiveSuggestion s req) answers = (.pass false, s) ∨
      precheck cfg liveWired s req (effectiveSuggestion s req) answers = (.ask .tenant, s) := by
    obtain ⟨-, ⟨hne, hrange, hfree, -⟩ | ⟨hzero, -⟩⟩ := hl
    · unfold precheck
      rw [if_neg hne]
      rcases cheapGrantable_of_loses hwf hrange (hfree.imp_right And.left) htenant with hc | hc
      · rw [hc]
        dsimp only
        rw [reclaimFromDepartedPeer_of_cheap]
        exact .inl rfl
      · rw [hc]
        exact .inr rfl
    · unfold precheck
      rw [if_pos hzero]
      exact .inl rfl
  unfold decideSwept
  dsimp only
  rcases hpre with hpre | hpre
  · have hrefresh : (sameTuple s req).isEmpty = false := by
      simpa using hl.1
    rw [hpre]
    simp only [decidePassed, decidePaid, trimToPay, acquiresNewPort, hrefresh, Bool.not_false,
      Bool.not_true, Bool.false_and, Bool.false_eq_true, if_false]
    split
    · rename_i t b ht hb
      obtain rfl := htenant t ht
      obtain rfl := hbudget b hb
      obtain ⟨error, evicted', heq⟩ := grant_of_loses draws hwf hl false evicted
      rw [heq]
      exact .inr ⟨error, evicted', rfl⟩
    · exact .inl ⟨_, rfl⟩
  · rw [hpre]
    exact .inl ⟨_, rfl⟩

/-- How a request ends that starts from the maps `s`. -/
structure EndsAs (cfg : AllocatorConfig) (tenant : Finset Ipv4Addr) (budget : ℕ) (s : Inner)
    (req : MapRequest) (result : Except NatPmpError Allocation) (g : Inner) : Prop where
  loses : Loses cfg tenant budget s req →
    (∃ error, result = .error error) ∧ g.active = (dropTuple s req).active
  keeps : ¬ Loses cfg tenant budget s req → ∀ error, result = .error error → g.active = s.active

/-- **A pass asks, or it ends as `Loses` says.** -/
theorem decideSwept_outcome (draws) (hwf : Wf s)
    (htenant : ∀ t, answers.tenant = some t → t = tenant)
    (hbudget : ∀ b, answers.budget = some b → b = budget) (hclient : req.clientIp ∈ tenant)
    (liveWired : Bool) (evicted) :
    (∃ question log, decideSwept cfg liveWired draws s req answers evicted
        = (.ask question, s.withLog log, evicted)) ∨
    ∃ result g evicted', decideSwept cfg liveWired draws s req answers evicted
        = (.done result, g, evicted') ∧ EndsAs cfg tenant budget s req result g := by
  obtain ⟨log, ⟨question, heq, -⟩ | ⟨error, heq, -⟩ | ⟨reclaim, acquires, t, b, hpass, -, ht, hb,
    result, g, evicted', heq, hgrant⟩⟩ :=
      decideSwept_cases cfg liveWired draws s req answers evicted
  · exact .inl ⟨question, log, heq⟩
  · -- refused with nothing dropped: a losing request never is
    refine .inr ⟨_, _, _, heq, fun hl => ?_, fun _ _ _ => rfl⟩
    obtain ⟨question, hask⟩ | ⟨error', evicted', hlost⟩ :=
      decideSwept_of_loses draws hwf hl htenant hbudget liveWired evicted
    · rw [heq] at hask
      cases hask
    · rw [heq] at hlost
      exact ⟨⟨error, rfl⟩, congrArg (fun r => r.2.1.active) hlost⟩
  · obtain rfl := htenant t ht
    obtain rfl := hbudget b hb
    refine .inr ⟨result, g, evicted', heq, fun hl => ?_, fun hl error herr => ?_⟩
    · obtain ⟨question, hask⟩ | ⟨error, evicted'', hlost⟩ :=
        decideSwept_of_loses draws hwf hl htenant hbudget liveWired evicted
      · rw [heq] at hask
        cases hask
      · rw [heq] at hlost
        cases hlost
        exact ⟨⟨error, rfl⟩, rfl⟩
    · subst herr
      have hlog : Wf (s.withLog log) := hwf.shrink (.of_eq rfl rfl)
      obtain ⟨rfl, hnil | hlost⟩ := loses_of_grant_error hlog (hpass.withLog log) ht hclient hgrant
      · exact dropTuple_of_nil hnil
      · exact absurd hlost hl

/-- The answers gathered so far are the deployer's. -/
structure Faithful (cfg : AllocatorConfig) (deployer : Deployer) (clientIp : Ipv4Addr)
    (answers : DeployerAnswers) : Prop where
  tenant : ∀ t, answers.tenant = some t → t = deployer.tenantOf clientIp
  budget : ∀ b, answers.budget = some b → b = deployer.budgetOf cfg clientIp

theorem faithful_unasked (cfg deployer clientIp) :
    Faithful cfg deployer clientIp (deployer.unasked cfg clientIp) := by
  refine ⟨fun t ht => ?_, fun b hb => ?_⟩
  · unfold Deployer.unasked at ht
    split at ht
    · rename_i hnone
      rw [Option.isNone_iff_eq_none] at hnone
      rw [Deployer.tenantOf, hnone]
      exact (Option.some.inj ht).symm
    · cases ht
  · unfold Deployer.unasked at hb
    dsimp only at hb
    split at hb
    · rename_i hnone
      rw [Option.isNone_iff_eq_none] at hnone
      rw [Deployer.budgetOf, hnone]
      exact (Option.some.inj hb).symm
    · cases hb

theorem Faithful.ask (h : Faithful cfg deployer clientIp answers) (question : Question) :
    Faithful cfg deployer clientIp (deployer.ask cfg clientIp answers question) := by
  cases question with
  | tenant => exact ⟨fun t ht => (Option.some.inj ht).symm, h.budget⟩
  | quotaInputs =>
    refine ⟨fun t ht => ?_, fun b hb => ?_⟩
    · rcases htenant : answers.tenant with _ | t'
      · rw [Deployer.ask, htenant] at ht
        exact (Option.some.inj ht).symm
      · rw [Deployer.ask, htenant] at ht
        exact (Option.some.inj ht).symm.trans (h.tenant t' htenant)
    · rcases hbudget : answers.budget with _ | b'
      · rw [Deployer.ask, hbudget] at hb
        exact (Option.some.inj hb).symm
      · rw [Deployer.ask, hbudget] at hb
        exact (Option.some.inj hb).symm.trans (h.budget b' hbudget)
  | holderLive holder => exact ⟨h.tenant, h.budget⟩

theorem client_mem_tenantOf (deployer : Deployer) (clientIp) :
    clientIp ∈ deployer.tenantOf clientIp := by
  unfold Deployer.tenantOf
  split <;> simp

/-- **However many passes a request takes, it ends as `Loses` says** of the maps
its first pass swept. -/
theorem allocateLoop_endsAs (hwf : Wf s)
    (hskip : (s.nextExpiry.all fun t => decide (req.now < t)) = true) {fuel : ℕ}
    {answers : DeployerAnswers} (hf : Faithful cfg deployer req.clientIp answers)
    (log : Table Ipv4Addr (List ℕ)) {outcome : AllocateOutcome} {g' : Inner}
    (h : allocateLoop cfg deployer draws req fuel (s.withLog log) answers evicted
      = some (outcome, g')) :
    EndsAs cfg (deployer.tenantOf req.clientIp) (deployer.budgetOf cfg req.clientIp) s req
      outcome.result g' := by
  induction fuel generalizing answers log evicted with
  | zero => cases h
  | succ fuel ih =>
    have hsweep : (s.withLog log).sweepExpired req.now cfg.cooldown = (s.withLog log, []) :=
      sweepExpired_of_skip hskip
    rw [allocateLoop, tryAllocate_eq, hsweep] at h
    have hlog : Wf (s.withLog log) := hwf.shrink (.of_eq rfl rfl)
    obtain ⟨question, log', heq⟩ | ⟨result, g, evicted', heq, hend⟩ :=
      decideSwept_outcome draws hlog hf.tenant hf.budget
        (client_mem_tenantOf deployer req.clientIp) deployer.liveSessions.isSome (evicted ++ [])
    · rw [heq] at h
      exact ih (hf.ask question) log' h
    · rw [heq] at h
      cases h
      exact ⟨hend.loses, hend.keeps⟩

/-- The first pass of a request sweeps, and the loop goes on as if it had started
from the swept maps. -/
theorem allocateLoop_sweep (fuel : ℕ) (g answers evicted) :
    allocateLoop cfg deployer draws req (fuel + 1) g answers evicted
      = allocateLoop cfg deployer draws req (fuel + 1)
          (g.sweepExpired req.now cfg.cooldown).1 answers
          (evicted ++ (g.sweepExpired req.now cfg.cooldown).2) := by
  rw [allocateLoop, allocateLoop, tryAllocate_eq, tryAllocate_eq,
    sweepExpired_of_skip (sweepExpired_skips g req.now cfg.cooldown), List.append_nil]

/-- **A refused request keeps every live mapping, unless it loses its own.**  In
every reachable state and for every request, deployer and draw: if the request
is refused the active table is the one before without the mappings expired at
`now`, if and only if `Loses` does not hold of the settled maps. -/
theorem allocate_error_keeps_active_iff (h : Reachable cfg g) (deployer : Deployer)
    (draws : ℕ → ℕ) (clientIp : Ipv4Addr) (proto : Proto)
    (internalPort suggested lifetimeSecs now : ℕ) :
    (∀ error,
      (allocateAtCollecting cfg deployer draws g clientIp proto internalPort suggested
          lifetimeSecs now).1.result = .error error →
        (allocateAtCollecting cfg deployer draws g clientIp proto internalPort suggested
          lifetimeSecs now).2.active = g.active.retain fun _ a => decide (now < a.expiresAt)) ↔
    ¬ Loses cfg (deployer.tenantOf clientIp) (deployer.budgetOf cfg clientIp)
        (settled cfg g now)
        ⟨clientIp, proto, internalPort, suggested, clampLifetime lifetimeSecs, now⟩ := by
  set req : MapRequest :=
    ⟨clientIp, proto, internalPort, suggested, clampLifetime lifetimeSecs, now⟩ with hreq
  have htrim : Wf (g.trimSideMaps now cfg.rateLimitWindow) :=
    (reachable_wf h).shrink (.of_eq rfl rfl)
  have hactive : (settled cfg g now).active
      = g.active.retain fun _ a => decide (now < a.expiresAt) := htrim.active_sweep now cfg.cooldown
  rcases hrun : allocateAtCollecting cfg deployer draws g clientIp proto internalPort suggested
    lifetimeSecs now with ⟨outcome, g'⟩
  have hend : EndsAs cfg (deployer.tenantOf clientIp) (deployer.budgetOf cfg clientIp)
      (settled cfg g now) req outcome.result g' := by
    have hloop := (Option.some_get _).symm.trans (congrArg some hrun)
    rw [allocateLoop_sweep] at hloop
    exact allocateLoop_endsAs (htrim.sweepExpired now cfg.cooldown)
      (sweepExpired_skips _ now cfg.cooldown) (faithful_unasked cfg deployer clientIp) _ hloop
  rw [← hactive]
  constructor
  · intro hkeep hl
    -- the tuple is gone, but the live table still has it
    obtain ⟨⟨error, herr⟩, hdrop⟩ := hend.loses hl
    have hsame := (hkeep error herr).symm.trans hdrop
    obtain ⟨slot, hslot⟩ := List.exists_mem_of_ne_nil _ hl.1
    obtain ⟨a, hlook, -⟩ := mem_sameTuple.mp hslot
    have hgone : (dropTuple (settled cfg g now) req).active.lookup slot = none := by
      rw [lookup_dropTuple, if_pos hslot]
    rw [← hsame, hlook] at hgone
    cases hgone
  · exact fun hl error herr => hend.keeps hl error herr

/-! ### A refused port change -/

def onePort : Deployer := ⟨none, some fun _ => some 1, none⟩

def halfMinute : ℕ := 30 * nanosPerSec

/-- **A refused port change drops the mapping.**  The client holds port 49152 for
TCP and UDP, which is its whole budget, and asks to move the TCP forward to the
free port 49153.  The request is refused over the quota, and the live TCP mapping
is gone. -/
theorem quota_refusal_drops_mapping : ∃ g a, Reachable .warrenDefault g ∧
    g.active.lookup (49152, .tcp) = some a ∧ halfMinute < a.expiresAt ∧
    (allocateAtCollecting .warrenDefault onePort id g 1 .tcp 80 49153 3600 halfMinute).1.result
      = .error (.quotaExceeded 1) ∧
    (allocateAtCollecting .warrenDefault onePort id g 1 .tcp 80 49153 3600
      halfMinute).2.active.lookup (49152, .tcp) = none := by
  have hreach : Reachable .warrenDefault (pairOps.foldl (Op.apply .warrenDefault) Inner.empty) :=
    reachable_foldl _ _ (.start rfl)
  refine ⟨_, ⟨49152, 1, 80, .tcp, 60 * nanosPerSec⟩, hreach, ?_⟩
  decide

/-- The same client asks for a port outside the range: refused, and both of its
mappings stay. -/
theorem allocate_error_keeps_active_out_of_range : ∃ g, Reachable .warrenDefault g ∧
    (allocateAtCollecting .warrenDefault onePort id g 1 .tcp 80 70 3600 halfMinute).1.result
      = .error (.suggestedPortInUse 70) ∧
    (allocateAtCollecting .warrenDefault onePort id g 1 .tcp 80 70 3600 halfMinute).2.active
      = g.active.retain fun _ a => decide (halfMinute < a.expiresAt) := by
  set g := pairOps.foldl (Op.apply .warrenDefault) Inner.empty
  have hreach : Reachable .warrenDefault g := reachable_foldl _ _ (.start rfl)
  have hrefused : (allocateAtCollecting .warrenDefault onePort id g 1 .tcp 80 70 3600
      halfMinute).1.result = .error (.suggestedPortInUse 70) := by decide
  refine ⟨g, hreach, hrefused, ?_⟩
  refine (allocate_error_keeps_active_iff hreach onePort id 1 .tcp 80 70 3600 halfMinute).mpr ?_ _
    hrefused
  rintro ⟨-, ⟨-, hrange, -⟩ | ⟨hzero, -⟩⟩
  · exact absurd hrange (by decide)
  · exact absurd hzero (by decide)

end WarrenGuard.NatPmp
