/-
What one pass of a port request can do.

Each helper of `PortAllocator` gets one lemma that says all that its callers need, so that no
later proof unfolds a pass again:

* `precheck_cases` — the pre-check of a suggestion;
* `dropSlots_sameTuple` — a refresh drops exactly the mappings of its tuple;
* `grant_cases`, `grant_ok` — how a grant ends, and what a new mapping costs;
* `decideSwept_cases`, `decideSwept_pass` — how a pass ends, and what it leaves;
* `allocateLoop_isSome` — four passes are always enough.
-/
import WarrenGuard.PortAllocator

namespace WarrenGuard.NatPmp

def Inner.withLog (g : Inner) (log : Table Ipv4Addr (List ℕ)) : Inner :=
  { g with rateLimitLog := log }

def Inner.withActive (g : Inner) (active : Table Slot Allocation) : Inner :=
  { g with active := active }

/-- The deadlines of ports: the cooldowns, the quarantines and the last users. -/
def Inner.deadlines (g : Inner) : Table ℕ ℕ × Table ℕ ℕ × Table ℕ (Ipv4Addr × ℕ) :=
  (g.cooldownUntil, g.abuseQuarantineUntil, g.lastUserPerPort)

section Log

variable (g : Inner) (log : Table Ipv4Addr (List ℕ))

@[simp] theorem withLog_withLog (log' : Table Ipv4Addr (List ℕ)) :
    (g.withLog log).withLog log' = g.withLog log' := rfl

theorem withLog_self : g.withLog g.rateLimitLog = g := rfl

end Log

/-- The answer a question is about has not been given yet. -/
def DeployerAnswers.Lacks (answers : DeployerAnswers) : Question → Prop
  | .tenant => answers.tenant = none
  | .quotaInputs => answers.tenant = none ∨ answers.budget = none
  | .holderLive _ => answers.holderLive = none

variable {cfg : AllocatorConfig} {liveWired : Bool} {draws : ℕ → ℕ} {g : Inner}
  {req : MapRequest} {suggested : ℕ} {answers : DeployerAnswers} {evicted : List Allocation}

/-! ### The pre-check of a suggestion -/

variable {cheap : Bool} {now p port : ℕ} {proto : Proto} {question : Question}

theorem cheapGrantable_error (h : cheapGrantable cfg g req suggested answers = .error question) :
    question = .tenant ∧ answers.tenant = none := by
  unfold cheapGrantable at h
  split at h
  · split at h
    · cases h
    · split at h
      · cases h
      · split at h
        · split at h
          · rename_i hnone
            cases h
            exact ⟨rfl, hnone⟩
          · cases h
        · cases h
  · cases h

theorem cheapGrantable_true (h : cheapGrantable cfg g req suggested answers = .ok true) :
    portInRange cfg suggested = true ∧
      ∀ owner, portOwner g suggested = some owner → owner = req.clientIp := by
  unfold cheapGrantable at h
  split at h
  · rename_i hcond
    rw [Bool.and_eq_true] at hcond
    refine ⟨hcond.1, fun owner howner => ?_⟩
    have hall := hcond.2
    rw [howner] at hall
    simpa using hall
  · cases h

/-- What the answers say of taking the port back from `holder`. -/
def reclaimVerdict (answers : DeployerAnswers) (holder : Ipv4Addr) : Except Question Bool :=
  match answers.holderLive with
  | none => .error (.holderLive holder)
  | some (asked, live) =>
    if decide (asked = holder) && !live then
      match answers.tenant with
      | none => .error .tenant
      | some tenant => .ok (decide (holder ∈ tenant))
    else .ok false

/-- The address a reclaim would be from, and whether the requester has a slot left
in its rate window: what the maps say before any answer is read. -/
def reclaimHolder (cfg : AllocatorConfig) (liveWired : Bool) (g : Inner) (req : MapRequest)
    (suggested : ℕ) (cheap : Bool) : Option (Ipv4Addr × Bool) :=
  (portOwner g suggested).bind fun holder =>
    if !cheap && portInRange cfg suggested && decide (holder ≠ req.clientIp) && liveWired then
      some (holder, (withinRateBudget cfg g req.clientIp req.now).1)
    else none

theorem reclaimFromDepartedPeer_eq (cfg liveWired g req suggested answers cheap) :
    reclaimFromDepartedPeer cfg liveWired g req suggested answers cheap
      = match reclaimHolder cfg liveWired g req suggested cheap with
        | none => (.ok false, g)
        | some (holder, true) =>
          (reclaimVerdict answers holder, g.trimClientLog cfg req.clientIp req.now)
        | some (_, false) => (.ok false, g.trimClientLog cfg req.clientIp req.now) := by
  unfold reclaimFromDepartedPeer reclaimHolder
  cases portOwner g suggested with
  | none => rfl
  | some holder =>
    rw [Option.bind_some]
    dsimp only
    split
    · have hsnd : (withinRateBudget cfg g req.clientIp req.now).2
          = g.trimClientLog cfg req.clientIp req.now := rfl
      rcases hbudget : withinRateBudget cfg g req.clientIp req.now with ⟨within, g'⟩
      rw [hbudget] at hsnd
      cases within with
      | false => exact Prod.ext rfl hsnd
      | true =>
        dsimp only [reclaimVerdict] at hsnd ⊢
        subst hsnd
        cases answers.holderLive with
        | none => rfl
        | some told =>
          dsimp only
          split
          · cases answers.tenant <;> rfl
          · rfl
    · rfl

theorem reclaimHolder_some {cheap within : Bool} {holder : Ipv4Addr}
    (h : reclaimHolder cfg liveWired g req suggested cheap = some (holder, within)) :
    portOwner g suggested = some holder ∧ portInRange cfg suggested = true ∧
      holder ≠ req.clientIp := by
  obtain ⟨owner, howner, hif⟩ := Option.bind_eq_some_iff.mp h
  split at hif
  · rename_i hcond
    simp only [Bool.and_eq_true, decide_eq_true_eq] at hcond
    cases hif
    exact ⟨howner, hcond.1.1.2, hcond.1.2⟩
  · cases hif

theorem reclaimFromDepartedPeer_snd (cfg liveWired g req suggested answers cheap) :
    ∃ log, (reclaimFromDepartedPeer cfg liveWired g req suggested answers cheap).2
      = g.withLog log := by
  rw [reclaimFromDepartedPeer_eq]
  split
  · exact ⟨_, (withLog_self g).symm⟩
  · exact ⟨_, rfl⟩
  · exact ⟨_, rfl⟩

theorem reclaimFromDepartedPeer_error
    (h : (reclaimFromDepartedPeer cfg liveWired g req suggested answers cheap).1
      = .error question) : answers.Lacks question := by
  rw [reclaimFromDepartedPeer_eq] at h
  split at h
  · cases h
  · dsimp only [reclaimVerdict] at h
    split at h
    · rename_i hnone
      cases h
      exact hnone
    · split at h
      · split at h
        · rename_i hnone
          cases h
          exact hnone
        · cases h
      · cases h
  · cases h

/-- A port is only reclaimed from another address of the requester's tenant, and
only if the deployer said of that address that it has no live session. -/
theorem reclaimFromDepartedPeer_true
    (h : (reclaimFromDepartedPeer cfg liveWired g req suggested answers cheap).1 = .ok true) :
    portInRange cfg suggested = true ∧ ∃ holder tenant,
      portOwner g suggested = some holder ∧ holder ≠ req.clientIp ∧
        answers.holderLive = some (holder, false) ∧ answers.tenant = some tenant ∧
        holder ∈ tenant := by
  rw [reclaimFromDepartedPeer_eq] at h
  split at h
  · cases h
  · rename_i holder hholder
    obtain ⟨howner, hrange, hother⟩ := reclaimHolder_some hholder
    refine ⟨hrange, holder, ?_⟩
    dsimp only [reclaimVerdict] at h
    split at h
    · cases h
    · rename_i asked live hlive
      split at h
      · rename_i hasked
        simp only [Bool.and_eq_true, Bool.not_eq_true', decide_eq_true_eq] at hasked
        obtain ⟨rfl, rfl⟩ := hasked
        split at h
        · cases h
        · rename_i tenant htenant
          have hmem : decide (asked ∈ tenant) = true := by
            injection h
          exact ⟨tenant, howner, hother, hlive, htenant, of_decide_eq_true hmem⟩
      · cases h
  · cases h

theorem reclaimFromDepartedPeer_of_cheap :
    reclaimFromDepartedPeer cfg liveWired g req suggested answers true = (.ok false, g) := by
  unfold reclaimFromDepartedPeer
  cases portOwner g suggested <;> rfl

/-- How a suggestion passed: none was made, the maps grant it, or its port is
taken back from a departed address of the tenant. -/
inductive Passes (cfg : AllocatorConfig) (g : Inner) (req : MapRequest) (suggested : ℕ)
    (answers : DeployerAnswers) : Bool → Prop
  | none : suggested = 0 → Passes cfg g req suggested answers false
  | cheap : suggested ≠ 0 → cheapGrantable cfg g req suggested answers = .ok true →
      Passes cfg g req suggested answers false
  | reclaim {holder : Ipv4Addr} {tenant : Finset Ipv4Addr} : suggested ≠ 0 →
      portInRange cfg suggested = true → portOwner g suggested = some holder →
      holder ≠ req.clientIp → answers.tenant = some tenant → holder ∈ tenant →
      Passes cfg g req suggested answers true

theorem Passes.withLog {reclaim : Bool} (h : Passes cfg g req suggested answers reclaim)
    (log : Table Ipv4Addr (List ℕ)) : Passes cfg (g.withLog log) req suggested answers reclaim := by
  cases h with
  | none hzero => exact .none hzero
  | cheap hne hcheap => exact .cheap hne hcheap
  | reclaim hne hrange howner hother htenant hmem =>
    exact .reclaim hne hrange howner hother htenant hmem

theorem Passes.reclaim_false {reclaim : Bool} (h : Passes cfg g req suggested answers reclaim)
    (hzero : suggested = 0) : reclaim = false := by
  cases h with
  | none => rfl
  | cheap => rfl
  | reclaim hne => exact absurd hzero hne

theorem refuseSuggestion_snd (cfg g req suggested) :
    ∃ log, (refuseSuggestion cfg g req suggested).2 = g.withLog log := by
  unfold refuseSuggestion
  dsimp only
  split <;> exact ⟨_, rfl⟩

/-- **The pre-check asks, refuses or passes**, and only touches the logs. -/
theorem precheck_cases (cfg liveWired g req suggested answers) : ∃ log,
    (∃ question, precheck cfg liveWired g req suggested answers = (.ask question, g.withLog log) ∧
      answers.Lacks question) ∨
    (∃ error, precheck cfg liveWired g req suggested answers = (.refuse error, g.withLog log)) ∨
    (∃ reclaim, precheck cfg liveWired g req suggested answers = (.pass reclaim, g.withLog log) ∧
      Passes cfg g req suggested answers reclaim) := by
  unfold precheck
  by_cases hzero : suggested = 0
  · exact ⟨_, .inr (.inr ⟨false, by rw [if_pos hzero, withLog_self], .none hzero⟩)⟩
  rw [if_neg hzero]
  cases hcheap : cheapGrantable cfg g req suggested answers with
  | error question =>
    obtain ⟨rfl, hnone⟩ := cheapGrantable_error hcheap
    exact ⟨g.rateLimitLog, .inl ⟨.tenant, rfl, hnone⟩⟩
  | ok cheap =>
    dsimp only
    obtain ⟨log, hlog⟩ :=
      reclaimFromDepartedPeer_snd cfg liveWired g req suggested answers cheap
    rcases hrec : reclaimFromDepartedPeer cfg liveWired g req suggested answers cheap with ⟨r, g'⟩
    rw [hrec] at hlog
    have hg' : g' = g.withLog log := hlog
    subst hg'
    cases r with
    | error question =>
      exact ⟨log, .inl ⟨question, rfl, reclaimFromDepartedPeer_error (by rw [hrec])⟩⟩
    | ok reclaim =>
      dsimp only
      cases reclaim with
      | true =>
        obtain ⟨hrange, holder, tenant, howner, hother, -, htenant, hmem⟩ :=
          reclaimFromDepartedPeer_true (by rw [hrec])
        refine ⟨log, .inr (.inr ⟨true, ?_, .reclaim hzero hrange howner hother htenant hmem⟩)⟩
        rw [Bool.or_true, if_pos rfl]
      | false =>
        cases cheap with
        | true => exact ⟨log, .inr (.inr ⟨false, rfl, .cheap hzero hcheap⟩)⟩
        | false =>
          obtain ⟨log', hlog'⟩ := refuseSuggestion_snd cfg (g.withLog log) req suggested
          refine ⟨log', .inr (.inl ⟨(refuseSuggestion cfg (g.withLog log) req suggested).1, ?_⟩)⟩
          rw [withLog_withLog] at hlog'
          rw [← hlog']
          rfl

/-- **What a reclaim rests on**: the deployer's two answers about the holder. -/
theorem precheck_reclaim (h : (precheck cfg liveWired g req suggested answers).1 = .pass true) :
    ∃ holder tenant, portOwner g suggested = some holder ∧
      answers.holderLive = some (holder, false) ∧ answers.tenant = some tenant ∧
      holder ∈ tenant := by
  unfold precheck at h
  split at h
  · cases h
  · split at h
    · cases h
    · rename_i cheap hcheap
      rcases hrec : reclaimFromDepartedPeer cfg liveWired g req suggested answers cheap with ⟨r, g'⟩
      rw [hrec] at h
      cases r with
      | error question => cases h
      | ok reclaim =>
        dsimp only at h
        split at h
        · obtain rfl : reclaim = true := by injection h
          obtain ⟨-, holder, tenant, howner, -, hlive, htenant, hmem⟩ :=
            reclaimFromDepartedPeer_true (by rw [hrec])
          exact ⟨holder, tenant, howner, hlive, htenant, hmem⟩
        · cases h

/-! ### Dropping the refreshed tuple -/

def dropTuple (g : Inner) (req : MapRequest) : Inner :=
  g.withActive (Table.eraseAll (sameTuple g req) g.active)

/-- The port of the last mapping of the request's tuple, in iteration order. -/
def lastHeld (g : Inner) (req : MapRequest) : Option ℕ :=
  (sameTuple g req).getLast?.map Prod.fst

theorem dropSlots_eq (es : List (Σ _ : Slot, Allocation)) (g) (held : Option ℕ) (evicted)
    (hnd : (es.map Sigma.fst).Nodup) (hin : ∀ e ∈ es, g.active.lookup e.1 = some e.2) :
    dropSlots (es.map Sigma.fst) g held evicted
      = (g.withActive (Table.eraseAll (es.map Sigma.fst) g.active),
        ((es.map Sigma.fst).getLast?.map Prod.fst).or held, evicted ++ es.map Sigma.snd) := by
  induction es generalizing g held evicted with
  | nil => simp [dropSlots, Inner.withActive]
  | cons e es ih =>
    obtain ⟨hnew, hnd'⟩ := List.nodup_cons.mp hnd
    have hin' : ∀ e' ∈ es, (g.active.erase e.1).lookup e'.1 = some e'.2 := by
      intro e' he'
      rw [AList.lookup_erase_ne, hin e' (List.mem_cons_of_mem e he')]
      rintro heq
      exact hnew (heq ▸ List.mem_map_of_mem he')
    rw [List.map_cons, dropSlots, hin e List.mem_cons_self]
    dsimp only
    rw [ih _ _ _ hnd' hin', List.getLast?_cons]
    refine Prod.ext rfl (Prod.ext ?_ (by simp))
    cases (es.map Sigma.fst).getLast? <;> rfl

/-- **A refresh drops exactly the mappings of its tuple.** -/
theorem dropSlots_sameTuple (g req evicted) :
    dropSlots (sameTuple g req) g none evicted
      = (dropTuple g req, lastHeld g req, evicted ++
          (g.active.entries.filter
            (isSameTuple req.clientIp req.internalPort req.proto)).map Sigma.snd) := by
  unfold sameTuple
  rw [dropSlots_eq]
  · rw [Option.or_none]
    rfl
  · exact (List.filter_sublist.map _).nodup g.active.nodupKeys
  · intro e he
    exact Table.lookup_of_mem_entries (List.mem_of_mem_filter he)

variable {clientIp : Ipv4Addr} {slot : Slot}

theorem mem_sameTuple : slot ∈ sameTuple g req ↔
    ∃ a, g.active.lookup slot = some a ∧ slot.2 = req.proto ∧ a.internalIp = req.clientIp ∧
      a.internalPort = req.internalPort := by
  simp only [sameTuple, Table.mem_keys_filter, isSameTuple, Bool.and_eq_true, decide_eq_true_eq,
    and_assoc]

theorem lookup_dropTuple (slot) : (dropTuple g req).active.lookup slot
    = if slot ∈ sameTuple g req then none else g.active.lookup slot := by
  show (Table.eraseAll (sameTuple g req) g.active).lookup slot = _
  rw [Table.lookup_eraseAll]
  by_cases h : slot ∈ sameTuple g req <;> simp only [h, if_true, if_false]

theorem lookup_of_lookup_dropTuple {a : Allocation}
    (h : (dropTuple g req).active.lookup slot = some a) : g.active.lookup slot = some a := by
  rw [lookup_dropTuple] at h
  split at h
  · cases h
  · exact h

theorem lookup_dropTuple_of_other {a : Allocation} (h : g.active.lookup slot = some a)
    (hother : a.internalIp ≠ req.clientIp) : (dropTuple g req).active.lookup slot = some a := by
  rw [lookup_dropTuple, if_neg, h]
  intro hmem
  obtain ⟨b, hb, -, hip, -⟩ := mem_sameTuple.mp hmem
  rw [h] at hb
  exact hother (Option.some.inj hb ▸ hip)

/-! ### The port of a grant -/

theorem portOwner_eq_none : portOwner g p = none ↔
    g.active.lookup (p, .tcp) = none ∧ g.active.lookup (p, .udp) = none := by
  simp [portOwner]

theorem portOwner_of_portEligible {reclaim : Option (Finset Ipv4Addr)}
    (h : portEligible g p clientIp now reclaim = true) : portOwner g p = none := by
  unfold portEligible at h
  split at h
  · cases h
  · rename_i hfree
    simpa [portOwner_eq_none] using hfree

theorem portInRange_draw (cfg) (n : ℕ) :
    portInRange cfg (cfg.rangeLow + n % (cfg.rangeHigh - cfg.rangeLow + 1)) = true := by
  have hlt : n % (cfg.rangeHigh - cfg.rangeLow + 1) < cfg.rangeHigh - cfg.rangeLow + 1 :=
    Nat.mod_lt _ (Nat.succ_pos _)
  have hle := cfg.range_nonempty
  simp only [portInRange, Bool.and_eq_true, decide_eq_true_eq]
  omega

theorem portInRange_iff_mem_range' : portInRange cfg p = true ↔
    p ∈ List.range' cfg.rangeLow (cfg.rangeHigh - cfg.rangeLow + 1) := by
  have hle := cfg.range_nonempty
  simp only [portInRange, Bool.and_eq_true, decide_eq_true_eq, List.mem_range'_1]
  omega

/-- **A picked port lies in the range**; it is the port to reuse, whose other slot
the client holds, or an eligible one. -/
theorem pickPort_eq_some {reuse now p : ℕ}
    (h : pickPort cfg draws g proto reuse clientIp now = some p) :
    portInRange cfg p = true ∧
      (p = reuse ∧ reuse ≠ 0 ∧ portOwner g reuse = some clientIp ∨
        portEligible g p clientIp now none = true) := by
  unfold pickPort at h
  split at h
  · rename_i hreuse
    cases h
    simp only [Bool.and_eq_true, Bool.or_eq_true, decide_eq_true_eq] at hreuse
    obtain ⟨⟨⟨hne, hin⟩, -⟩, howner | heligible⟩ := hreuse
    · exact ⟨hin, .inl ⟨rfl, hne, howner⟩⟩
    · exact ⟨hin, .inr heligible⟩
  · -- both searches look at ports of the range and return eligible ones
    rcases Option.or_eq_some_iff.mp h with hdraw | ⟨-, hscan⟩
    · obtain ⟨i, -, rfl⟩ := List.mem_map.mp (List.mem_of_find?_eq_some hdraw)
      exact ⟨portInRange_draw cfg _, .inr (by simpa only using List.find?_some hdraw)⟩
    · exact ⟨portInRange_iff_mem_range'.mpr (List.mem_of_find?_eq_some hscan),
        .inr (by simpa only using List.find?_some hscan)⟩

theorem pickPort_owner {reuse now p : ℕ}
    (h : pickPort cfg draws g proto reuse clientIp now = some p) :
    portOwner g p = none ∨ portOwner g p = some clientIp := by
  obtain ⟨-, ⟨rfl, -, howner⟩ | heligible⟩ := pickPort_eq_some h
  · exact .inr howner
  · exact .inl (portOwner_of_portEligible heligible)

theorem pickPort_of_owner {reuse now : ℕ} (hne : reuse ≠ 0)
    (hin : portInRange cfg reuse = true) (hslot : g.active.lookup (reuse, proto) = none)
    (howner : portOwner g reuse = some clientIp) :
    pickPort cfg draws g proto reuse clientIp now = some reuse := by
  unfold pickPort
  rw [if_pos]
  simp [hne, hin, hslot, howner]

/-- Whether the request lands on a port its tenant already held. -/
def reusesHeldPort (g : Inner) (req : MapRequest) (suggested : ℕ) (tenant : Finset Ipv4Addr) :
    Bool :=
  if suggested ≠ 0 then
    decide (suggested ∈ heldPorts (dropTuple g req) tenant) ||
      decide (lastHeld g req = some suggested)
  else (lastHeld g req).isSome

/-- The maps a grant inserts its mapping into: the tuple is dropped, and so are
both slots of a reclaimed port. -/
def grantBase (g : Inner) (req : MapRequest) (suggested : ℕ) (reclaim : Bool) : Inner :=
  if reclaim then (removePort (dropTuple g req) suggested).1 else dropTuple g req

def droppedTuple (g : Inner) (req : MapRequest) : List Allocation :=
  (g.active.entries.filter (isSameTuple req.clientIp req.internalPort req.proto)).map Sigma.snd

def reclaimedLegs (g : Inner) (req : MapRequest) (suggested : ℕ) (reclaim : Bool) :
    List Allocation :=
  if reclaim then (removePort (dropTuple g req) suggested).2 else []

/-- **A grant ends in one of three ways**: the quota is full, the range is full,
or the mapping is made; and each time it tells what it has removed. -/
theorem grant_cases (cfg draws g req)
    {suggested : ℕ} {reclaim : Bool} (acquiresNewPort : Bool) (tenant : Finset Ipv4Addr)
    (budget : ℕ) (evicted) (hr : suggested = 0 → reclaim = false) :
    (grant cfg draws g req suggested reclaim acquiresNewPort tenant budget evicted
        = (.error (.quotaExceeded req.clientIp), dropTuple g req, evicted ++ droppedTuple g req) ∧
      reusesHeldPort g req suggested tenant = false ∧
      budget ≤ (heldPorts (dropTuple g req) tenant).card) ∨
    (reusesHeldPort g req suggested tenant = true ∨
        (heldPorts (dropTuple g req) tenant).card < budget) ∧
      ((grant cfg draws g req suggested reclaim acquiresNewPort tenant budget evicted
          = (.error .exhausted, dropTuple g req, evicted ++ droppedTuple g req) ∧ suggested = 0 ∧
        pickPort cfg draws (dropTuple g req) req.proto ((lastHeld g req).getD 0) req.clientIp
          req.now = none) ∨
      (∃ port base,
        grant cfg draws g req suggested reclaim acquiresNewPort tenant budget evicted
          = (.ok ⟨port, req.clientIp, req.internalPort, req.proto, req.now + req.lifetime⟩,
            Inner.insertActive base
              ⟨port, req.clientIp, req.internalPort, req.proto, req.now + req.lifetime⟩,
            evicted ++ droppedTuple g req ++ reclaimedLegs g req suggested reclaim) ∧
        base.active = (grantBase g req suggested reclaim).active ∧
        base.nextExpiry = g.nextExpiry ∧ base.deadlines = g.deadlines ∧
        (suggested ≠ 0 ∧ port = suggested ∨ suggested = 0 ∧
          pickPort cfg draws (dropTuple g req) req.proto ((lastHeld g req).getD 0) req.clientIp
            req.now = some port))) := by
  unfold grant
  rw [dropSlots_sameTuple]
  dsimp only
  -- the three ends of a grant, in the order the code comes to them
  by_cases hquota : reusesHeldPort g req suggested tenant = false ∧
      budget ≤ (heldPorts (dropTuple g req) tenant).card
  · left
    refine ⟨if_pos ?_, hquota.1, hquota.2⟩
    rw [Bool.and_eq_true, Bool.not_eq_true', decide_eq_true_eq]
    exact hquota
  right
  have hfree : reusesHeldPort g req suggested tenant = true ∨
      (heldPorts (dropTuple g req) tenant).card < budget := by
    rw [not_and_or, Bool.not_eq_false, Nat.not_le] at hquota
    exact hquota
  refine ⟨hfree, ?_⟩
  rw [if_neg (by rw [Bool.and_eq_true, Bool.not_eq_true', decide_eq_true_eq]; exact hquota)]
  by_cases hzero : suggested = 0
  · obtain rfl := hr hzero
    simp only [hzero, ne_eq, not_true_eq_false, if_false, Bool.false_eq_true, reclaimedLegs,
      List.append_nil]
    cases hpick : pickPort cfg draws (dropTuple g req) req.proto ((lastHeld g req).getD 0)
        req.clientIp req.now with
    | none => exact .inl ⟨rfl, trivial, rfl⟩
    | some port =>
      refine .inr ⟨port, _, rfl, ?_, ?_, ?_, .inr ⟨trivial, rfl⟩⟩
      · cases acquiresNewPort <;> rfl
      · cases acquiresNewPort <;> rfl
      · cases acquiresNewPort <;> rfl
  · simp only [ne_eq, hzero, not_false_eq_true, if_true]
    cases reclaim with
    | false =>
      refine .inr ⟨suggested, _, rfl, ?_, ?_, ?_, .inl ⟨trivial, rfl⟩⟩
      · cases acquiresNewPort <;> rfl
      · cases acquiresNewPort <;> rfl
      · cases acquiresNewPort <;> rfl
    | true =>
      refine .inr ⟨suggested, _, rfl, ?_, ?_, ?_, .inl ⟨trivial, rfl⟩⟩
      · cases acquiresNewPort <;> rfl
      · cases acquiresNewPort <;> rfl
      · cases acquiresNewPort <;> rfl

theorem heldSince_grantBase (g req suggested) (reclaim : Bool) :
    (grantBase g req suggested reclaim).heldSince = g.heldSince := by
  cases reclaim <;> rfl

theorem rateLimitLog_grantBase (g req suggested) (reclaim : Bool) :
    (grantBase g req suggested reclaim).rateLimitLog = g.rateLimitLog := by
  cases reclaim <;> rfl

/-- Since when a granted port counts as held: a holding that goes on keeps its start. -/
def grantSince (g : Inner) (req : MapRequest) (suggested : ℕ) (reclaim : Bool) (port : ℕ) : ℕ :=
  match g.heldSince.lookup port with
  | some since =>
    if decide (lastHeld g req = some port) || reclaim ||
      decide (portOwner (grantBase g req suggested reclaim) port = some req.clientIp) then since
    else req.now
  | none => req.now

/-- **The side maps of a grant**: who is charged, and since when the port is held. -/
theorem grant_ok {g' : Inner} {reclaim acquires : Bool} {tenant : Finset Ipv4Addr} {budget : ℕ}
    {evicted' : List Allocation} {a : Allocation}
    (h : grant cfg draws g req suggested reclaim acquires tenant budget evicted
      = (.ok a, g', evicted')) :
    g'.rateLimitLog
        = (if acquires then g.chargeClientLog req.clientIp req.now else g).rateLimitLog ∧
      g'.heldSince = g.heldSince.insert a.externalPort
        (grantSince g req suggested reclaim a.externalPort) := by
  unfold grant at h
  rw [dropSlots_sameTuple] at h
  dsimp only at h
  by_cases hquota : (!(if suggested ≠ 0 then
      decide (suggested ∈ heldPorts (dropTuple g req) tenant) ||
        decide (lastHeld g req = some suggested)
      else (lastHeld g req).isSome) && decide (budget ≤ (heldPorts (dropTuple g req) tenant).card))
        = true
  · rw [if_pos hquota] at h
    cases h
  rw [if_neg hquota] at h
  have hbase : (if reclaim = true then removePort (dropTuple g req) suggested
      else (dropTuple g req, [])).1 = grantBase g req suggested reclaim := by
    cases reclaim <;> rfl
  rw [hbase] at h
  generalize (if suggested ≠ 0 then some suggested else _) = chosen at h
  cases chosen with
  | none => cases h
  | some port =>
    cases h
    have hheld : (if acquires = true then
        (grantBase g req suggested reclaim).chargeClientLog req.clientIp req.now
        else grantBase g req suggested reclaim).heldSince = g.heldSince := by
      cases acquires <;> exact heldSince_grantBase g req suggested reclaim
    have howner : portOwner (if acquires = true then
        (grantBase g req suggested reclaim).chargeClientLog req.clientIp req.now
        else grantBase g req suggested reclaim) port
          = portOwner (grantBase g req suggested reclaim) port := by
      cases acquires <;> rfl
    refine ⟨?_, ?_⟩
    · cases acquires with
      | false => exact rateLimitLog_grantBase g req suggested reclaim
      | true =>
        show (grantBase g req suggested reclaim).rateLimitLog.insert req.clientIp _ = _
        unfold Inner.clientLog
        rw [rateLimitLog_grantBase]
        rfl
    · dsimp only [Inner.insertActive]
      rw [hheld, howner]
      rfl
/-! ### One pass -/

/-- **A pass asks, is refused before anything is dropped, or ends in a grant.** -/
theorem decideSwept_cases (cfg liveWired draws g req answers evicted) : ∃ log,
    (∃ question, decideSwept cfg liveWired draws g req answers evicted
        = (.ask question, g.withLog log, evicted) ∧ answers.Lacks question) ∨
    (∃ error, decideSwept cfg liveWired draws g req answers evicted
        = (.done (.error error), g.withLog log, evicted) ∧
      ((precheck cfg liveWired g req (effectiveSuggestion g req) answers).1 = .refuse error ∨
        ∃ secs, error = .rateLimited req.clientIp secs)) ∨
    (∃ reclaim acquiresNewPort tenant budget,
      Passes cfg g req (effectiveSuggestion g req) answers reclaim ∧
      (precheck cfg liveWired g req (effectiveSuggestion g req) answers).1 = .pass reclaim ∧
      answers.tenant = some tenant ∧ answers.budget = some budget ∧
      ∃ result g' evicted', decideSwept cfg liveWired draws g req answers evicted
          = (.done result, g', evicted') ∧
        grant cfg draws (g.withLog log) req (effectiveSuggestion g req) reclaim acquiresNewPort
          tenant budget evicted = (result, g', evicted')) := by
  unfold decideSwept
  dsimp only
  obtain ⟨log, ⟨question, hpre, hlacks⟩ | ⟨error, hpre⟩ | ⟨reclaim, hpre, hpass⟩⟩ :=
    precheck_cases cfg liveWired g req (effectiveSuggestion g req) answers
  · rw [hpre]
    exact ⟨log, .inl ⟨question, rfl, hlacks⟩⟩
  · rw [hpre]
    exact ⟨log, .inr (.inl ⟨error, rfl, .inl rfl⟩)⟩
  rw [hpre]
  dsimp only
  -- whether or not the log is trimmed, only the log changes
  obtain ⟨log', hlog'⟩ : ∃ log', trimToPay cfg (g.withLog log) req (effectiveSuggestion g req)
      = g.withLog log' := by
    unfold trimToPay
    split
    · exact ⟨_, rfl⟩
    · exact ⟨log, rfl⟩
  unfold decidePassed decidePaid
  rw [hlog']
  dsimp only
  split
  · exact ⟨log', .inr (.inl ⟨_, rfl, .inr ⟨_, rfl⟩⟩)⟩
  · split
    · rename_i tenant budget htenant hbudget
      exact ⟨log', .inr (.inr ⟨reclaim, _, tenant, budget, hpass, rfl, htenant, hbudget,
        _, _, _, rfl, rfl⟩)⟩
    · rename_i hmissing
      refine ⟨log', .inl ⟨.quotaInputs, rfl, ?_⟩⟩
      rcases htenant : answers.tenant with _ | tenant
      · exact .inl htenant
      · rcases hbudget : answers.budget with _ | budget
        · exact .inr hbudget
        · exact absurd hbudget (hmissing tenant budget htenant)

theorem tryAllocate_eq (cfg liveWired draws g req answers evicted) :
    tryAllocate cfg liveWired draws g req answers evicted
      = decideSwept cfg liveWired draws (g.sweepExpired req.now cfg.cooldown).1 req answers
          (evicted ++ (g.sweepExpired req.now cfg.cooldown).2) := rfl

/-- **A pass that grants** the mapping `a` from the swept maps `s`, and the table
it leaves: the suggestion passed the pre-check, the quota had room or was not
asked, and the port was the suggested one or was picked. -/
inductive Granted (cfg : AllocatorConfig) (draws : ℕ → ℕ) (s : Inner) (req : MapRequest)
    (answers : DeployerAnswers) (reclaim : Bool) : Allocation → Table Slot Allocation → Prop
  | intro {tenant : Finset Ipv4Addr} {budget port : ℕ}
      (passes : Passes cfg s req (effectiveSuggestion s req) answers reclaim)
      (tenant_eq : answers.tenant = some tenant) (budget_eq : answers.budget = some budget)
      (quota : reusesHeldPort s req (effectiveSuggestion s req) tenant = true ∨
        (heldPorts (dropTuple s req) tenant).card < budget)
      (chosen : effectiveSuggestion s req ≠ 0 ∧ port = effectiveSuggestion s req ∨
        effectiveSuggestion s req = 0 ∧
          pickPort cfg draws (dropTuple s req) req.proto ((lastHeld s req).getD 0) req.clientIp
            req.now = some port) :
      Granted cfg draws s req answers reclaim
        ⟨port, req.clientIp, req.internalPort, req.proto, req.now + req.lifetime⟩
        ((grantBase s req (effectiveSuggestion s req) reclaim).active.insert (port, req.proto)
          ⟨port, req.clientIp, req.internalPort, req.proto, req.now + req.lifetime⟩)

theorem lookup_removePort (g port slot) :
    (removePort g port).1.active.lookup slot
      = if slot.1 = port then none else g.active.lookup slot := by
  show ((g.active.erase (port, .tcp)).erase (port, .udp)).lookup slot = _
  obtain ⟨p, proto⟩ := slot
  rw [Table.lookup_erase', Table.lookup_erase']
  by_cases hp : p = port <;> cases proto <;> simp [hp]

theorem lookup_of_lookup_removePort {a : Allocation}
    (h : (removePort g port).1.active.lookup slot = some a) : g.active.lookup slot = some a := by
  rw [lookup_removePort] at h
  split at h
  · cases h
  · exact h

namespace Granted

variable {reclaim : Bool} {a : Allocation} {active : Table Slot Allocation}
  (h : Granted cfg draws g req answers reclaim a active)
include h

theorem exists_tenant : ∃ tenant, answers.tenant = some tenant := by
  obtain ⟨_, htenant, _, _, _⟩ := h
  exact ⟨_, htenant⟩

theorem internalIp : a.internalIp = req.clientIp := by
  obtain ⟨⟩ := h
  rfl

theorem chosen :
    effectiveSuggestion g req ≠ 0 ∧ a.externalPort = effectiveSuggestion g req ∨
      effectiveSuggestion g req = 0 ∧ pickPort cfg draws (dropTuple g req) req.proto
        ((lastHeld g req).getD 0) req.clientIp req.now = some a.externalPort := by
  obtain ⟨-, -, -, -, hchosen⟩ := h
  exact hchosen

theorem passes :
    Passes cfg g req (effectiveSuggestion g req) answers reclaim ∧ a.proto = req.proto := by
  obtain ⟨hpasses, -, -, -, -⟩ := h
  exact ⟨hpasses, rfl⟩

theorem lookup {b : Allocation} (hl : active.lookup slot = some b) :
    slot = (a.externalPort, req.proto) ∧ b = a ∨ (dropTuple g req).active.lookup slot = some b := by
  obtain ⟨passes, -, -, -, -⟩ := h
  rw [Table.lookup_insert'] at hl
  split at hl
  · cases hl
    exact .inl ⟨by assumption, rfl⟩
  · refine .inr ?_
    cases reclaim with
    | false => exact hl
    | true => exact lookup_of_lookup_removePort hl

theorem inRange :
    portInRange cfg a.externalPort = true ∧
      (a.externalPort = 0 → portOwner (dropTuple g req) 0 = none) := by
  obtain ⟨passes, -, -, -, chosen⟩ := h
  rename_i tenant budget port
  show portInRange cfg port = true ∧ (port = 0 → _)
  by_cases hzero : effectiveSuggestion g req = 0
  · obtain ⟨-, hpick⟩ := chosen.resolve_left fun hne => hne.1 hzero
    obtain ⟨hin, ⟨rfl, hne, -⟩ | heligible⟩ := pickPort_eq_some hpick
    · exact ⟨hin, fun heq => absurd heq hne⟩
    · exact ⟨hin, fun heq => heq ▸ portOwner_of_portEligible heligible⟩
  · obtain ⟨-, rfl⟩ := chosen.resolve_right fun heq => hzero heq.1
    refine ⟨?_, fun heq => absurd heq hzero⟩
    cases passes with
    | none hz => exact absurd hz hzero
    | cheap _ hcheap => exact (cheapGrantable_true hcheap).1
    | reclaim _ hin => exact hin

end Granted

/-- How a pass ends, and the table it leaves of the swept maps `s`. -/
inductive PassEnds (cfg : AllocatorConfig) (liveWired : Bool) (draws : ℕ → ℕ) (s : Inner)
    (req : MapRequest) (answers : DeployerAnswers) : Step → Table Slot Allocation → Prop
  | asks (question : Question) : PassEnds cfg liveWired draws s req answers (.ask question) s.active
  | refused (error : NatPmpError) :
      PassEnds cfg liveWired draws s req answers (.done (.error error)) s.active
  | dropped (error : NatPmpError) :
      PassEnds cfg liveWired draws s req answers (.done (.error error)) (dropTuple s req).active
  | granted {reclaim : Bool} {a : Allocation} {active : Table Slot Allocation}
      (precheck_eq : (precheck cfg liveWired s req (effectiveSuggestion s req) answers).1
        = .pass reclaim) (h : Granted cfg draws s req answers reclaim a active) :
      PassEnds cfg liveWired draws s req answers (.done (.ok a)) active

theorem PassEnds.active_cases {step : Step} {active : Table Slot Allocation}
    (h : PassEnds cfg liveWired draws g req answers step active) :
    active = g.active ∨ active = (dropTuple g req).active ∨
      ∃ reclaim a, step = .done (.ok a) ∧
        (precheck cfg liveWired g req (effectiveSuggestion g req) answers).1 = .pass reclaim ∧
        Granted cfg draws g req answers reclaim a active := by
  cases h with
  | asks => exact .inl rfl
  | refused => exact .inl rfl
  | dropped => exact .inr (.inl rfl)
  | granted hpre hgrant => exact .inr (.inr ⟨_, _, rfl, hpre, hgrant⟩)

theorem PassEnds.lookup {step : Step} {active : Table Slot Allocation}
    (h : PassEnds cfg liveWired draws g req answers step active) {b : Allocation}
    (hl : active.lookup slot = some b) :
    g.active.lookup slot = some b ∨
      ∃ reclaim, Granted cfg draws g req answers reclaim b active ∧
        slot = (b.externalPort, req.proto) := by
  obtain rfl | rfl | ⟨reclaim, a, -, -, hgrant⟩ := h.active_cases
  · exact .inl hl
  · exact .inl (lookup_of_lookup_dropTuple hl)
  · rcases hgrant.lookup hl with ⟨rfl, rfl⟩ | hl'
    · exact .inr ⟨reclaim, hgrant, rfl⟩
    · exact .inl (lookup_of_lookup_dropTuple hl')

/-- **All that a pass leaves** of the swept maps `s`: it asks or is refused with nothing dropped,
is refused by the quota or the range, or grants. -/
inductive Pass (cfg : AllocatorConfig) (liveWired : Bool) (draws : ℕ → ℕ) (s : Inner)
    (req : MapRequest) (answers : DeployerAnswers) (evicted : List Allocation) :
    Step × Inner × List Allocation → Prop
  | asks {question : Question} (log : Table Ipv4Addr (List ℕ)) (lacks : answers.Lacks question) :
      Pass cfg liveWired draws s req answers evicted (.ask question, s.withLog log, evicted)
  | refused {error : NatPmpError} (log : Table Ipv4Addr (List ℕ))
      (why : (precheck cfg liveWired s req (effectiveSuggestion s req) answers).1 = .refuse error ∨
        ∃ secs, error = .rateLimited req.clientIp secs) :
      Pass cfg liveWired draws s req answers evicted
        (.done (.error error), s.withLog log, evicted)
  | dropped {error : NatPmpError} (log : Table Ipv4Addr (List ℕ))
      (why : error = .quotaExceeded req.clientIp ∨ error = .exhausted) :
      Pass cfg liveWired draws s req answers evicted
        (.done (.error error), (dropTuple s req).withLog log, evicted ++ droppedTuple s req)
  | granted {reclaim : Bool} {a : Allocation} {base : Inner}
      (precheck_eq : (precheck cfg liveWired s req (effectiveSuggestion s req) answers).1
        = .pass reclaim)
      (active : base.active = (grantBase s req (effectiveSuggestion s req) reclaim).active)
      (grant : Granted cfg draws s req answers reclaim a (base.insertActive a).active)
      (nextExpiry : base.nextExpiry = s.nextExpiry) (deadlines : base.deadlines = s.deadlines)
      (heldSince : base.heldSince = s.heldSince.insert a.externalPort
        (grantSince s req (effectiveSuggestion s req) reclaim a.externalPort)) :
      Pass cfg liveWired draws s req answers evicted (.done (.ok a), base.insertActive a,
        evicted ++ (droppedTuple s req ++ reclaimedLegs s req (effectiveSuggestion s req) reclaim))

theorem grantSince_withLog (log : Table Ipv4Addr (List ℕ)) (suggested) (reclaim : Bool) (port) :
    grantSince (g.withLog log) req suggested reclaim port
      = grantSince g req suggested reclaim port := by
  cases reclaim <;> rfl

/-- **Every pass ends so.** -/
theorem decideSwept_pass (cfg liveWired draws) (s : Inner) (req answers evicted) :
    Pass cfg liveWired draws s req answers evicted
      (decideSwept cfg liveWired draws s req answers evicted) := by
  obtain ⟨log, ⟨question, heq, hlacks⟩ | ⟨error, heq, hwhy⟩ |
    ⟨reclaim, acquires, tenant, budget, hpass, hpre, htenant, hbudget, result, g', evicted', heq,
      hgrant⟩⟩ :=
    decideSwept_cases cfg liveWired draws s req answers evicted
  · rw [heq]
    exact .asks log hlacks
  · rw [heq]
    exact .refused log hwhy
  rw [heq]
  obtain ⟨hg, -⟩ | ⟨hquota, ⟨hg, -⟩ | ⟨port, base, hg, hactive, hexpiry, hdeadlines, hport⟩⟩ :=
    grant_cases cfg draws (s.withLog log) req acquires tenant budget evicted hpass.reclaim_false
  · rw [hgrant] at hg
    cases hg
    exact .dropped log (.inl rfl)
  · rw [hgrant] at hg
    cases hg
    exact .dropped log (.inr rfl)
  · have hactive' : base.active = (grantBase s req (effectiveSuggestion s req) reclaim).active := by
      cases reclaim <;> exact hactive
    rw [hgrant, List.append_assoc] at hg
    obtain ⟨rfl, hrest⟩ := Prod.mk.inj hg
    obtain ⟨rfl, rfl⟩ := Prod.mk.inj hrest
    refine .granted hpre hactive' ?_ hexpiry hdeadlines ?_
    · show Granted cfg draws s req answers reclaim _ (base.active.insert (port, req.proto) _)
      rw [hactive']
      exact .intro hpass htenant hbudget hquota hport
    · exact (grant_ok hgrant).2.trans (by rw [grantSince_withLog]; rfl)

section Pass

variable {s : Inner} {evicted : List Allocation} {r : Step × Inner × List Allocation}

theorem Pass.ends (h : Pass cfg liveWired draws s req answers evicted r) :
    PassEnds cfg liveWired draws s req answers r.1 r.2.1.active := by
  cases h with
  | asks => exact .asks _
  | refused => exact .refused _
  | dropped => exact .dropped _
  | granted hpre _ hgrant => exact .granted hpre hgrant

theorem Pass.deadlines_eq (h : Pass cfg liveWired draws s req answers evicted r) :
    r.2.1.deadlines = s.deadlines := by
  cases h with
  | asks => rfl
  | refused => rfl
  | dropped => rfl
  | granted _ _ _ _ hdeadlines => exact hdeadlines

end Pass

theorem tryAllocate_ends (cfg liveWired draws g req answers evicted) :
    PassEnds cfg liveWired draws (g.sweepExpired req.now cfg.cooldown).1 req answers
      (tryAllocate cfg liveWired draws g req answers evicted).1
      (tryAllocate cfg liveWired draws g req answers evicted).2.1.active :=
  (decideSwept_pass cfg liveWired draws _ req answers _).ends

/-! ### The whole request -/

theorem missing_ask_lt (cfg) (deployer : Deployer) (clientIp)
    {answers : DeployerAnswers} (h : answers.Lacks question) :
    (deployer.ask cfg clientIp answers question).missing < answers.missing := by
  cases question with
  | tenant =>
    have hnone : answers.tenant = none := h
    simp only [Deployer.ask, DeployerAnswers.missing, hnone, Option.isNone_some,
      Option.isNone_none, Bool.toNat_false, Bool.toNat_true]
    omega
  | quotaInputs =>
    simp only [Deployer.ask, DeployerAnswers.missing, Option.isNone_some, Bool.toNat_false]
    rcases h with hnone | hnone
    · simp only [hnone, Option.isNone_none, Bool.toNat_true]
      omega
    · simp only [hnone, Option.isNone_none, Bool.toNat_true]
      omega
  | holderLive holder =>
    have hnone : answers.holderLive = none := h
    simp only [Deployer.ask, DeployerAnswers.missing, hnone, Option.isNone_some,
      Option.isNone_none, Bool.toNat_false, Bool.toNat_true]
    omega

theorem missing_le (answers : DeployerAnswers) : answers.missing ≤ 3 := by
  have h1 := answers.tenant.isNone.toNat_le
  have h2 := answers.budget.isNone.toNat_le
  have h3 := answers.holderLive.isNone.toNat_le
  unfold DeployerAnswers.missing
  omega

/-- **Each question is asked at most once**, so a request that may take one pass
more than it lacks answers comes to a result. -/
theorem allocateLoop_isSome (cfg) (deployer : Deployer) (draws req) {fuel : ℕ}
    {answers : DeployerAnswers} (h : answers.missing < fuel) (g evicted) :
    (allocateLoop cfg deployer draws req fuel g answers evicted).isSome = true := by
  induction fuel generalizing g answers evicted with
  | zero => omega
  | succ fuel ih =>
    rw [allocateLoop, tryAllocate_eq]
    have hpass := decideSwept_pass cfg deployer.liveSessions.isSome draws
      (g.sweepExpired req.now cfg.cooldown).1 req answers
      (evicted ++ (g.sweepExpired req.now cfg.cooldown).2)
    generalize decideSwept .. = r at hpass ⊢
    cases hpass with
    | asks _ hlacks =>
      have hfewer := missing_ask_lt cfg deployer req.clientIp hlacks
      exact ih (by omega) _ _
    | refused => rfl
    | dropped => rfl
    | granted => rfl

/-- `allocate_at_collecting`: the outcome of a request, and the maps afterwards. -/
def allocateAtCollecting (cfg : AllocatorConfig) (deployer : Deployer) (draws : ℕ → ℕ) (g : Inner)
    (clientIp : Ipv4Addr) (proto : Proto) (internalPort suggested lifetimeSecs now : ℕ) :
    AllocateOutcome × Inner :=
  let req : MapRequest :=
    ⟨clientIp, proto, internalPort, suggested, clampLifetime lifetimeSecs, now⟩
  let answers := deployer.unasked cfg clientIp
  -- the first of the passes trims the side maps; four passes are enough
  (allocateLoop cfg deployer draws req 4 (g.trimSideMaps now cfg.rateLimitWindow) answers []).get
    (allocateLoop_isSome cfg deployer draws req (Nat.lt_succ_of_le (missing_le answers)) _ _)

end WarrenGuard.NatPmp
