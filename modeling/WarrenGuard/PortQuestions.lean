/-
The passes of a port request decide as one pass would.

A pass that needs an answer of the deployer leaves, asks and starts over.  What it changes before
it asks is the sweep of the expired mappings and the trim of the requester's rate window, and
doing these once more changes nothing:

* `decideSwept_of_agrees` — a pass that asks nothing ends alike under any answers that agree with
  its own;
* `decideSwept_of_asks` — on the maps a pass leaves when it asks, the pass that lacks no answer
  ends as on the maps it began with;
* `questions_equal_one_pass` — so the loop ends as the one pass that has every answer from the
  start.

Between two passes the lock is free, so the second half is about `LoopState`, the loop as a state
that other operations may change between its passes.
-/
import Mathlib.Data.List.DropRight
import WarrenGuard.PortCooldown
import WarrenGuard.PortTheft

namespace WarrenGuard.NatPmp

open Deployer

variable {cfg : AllocatorConfig} {liveWired : Bool} {draws : ℕ → ℕ} {g g' : Inner}
  {req : MapRequest} {suggested : ℕ} {answers full : DeployerAnswers}
  {evicted : List Allocation} {question : Question}

/-! ### Trimming the rate window twice -/

theorem trimLog_trimLog (now window : ℕ) (log : List ℕ) :
    trimLog now window (trimLog now window log) = trimLog now window log :=
  List.dropWhile_idempotent _ _

theorem clientLog_trimClientLog (cfg : AllocatorConfig) (g : Inner) (clientIp)
    (now : ℕ) : (g.trimClientLog cfg clientIp now).clientLog clientIp
      = trimLog now cfg.rateLimitWindow (g.clientLog clientIp) := by
  show ((g.rateLimitLog.insert clientIp _).lookup clientIp).getD [] = _
  rw [AList.lookup_insert]
  rfl

@[simp] theorem trimClientLog_trimClientLog (cfg) (g : Inner) (clientIp) (now : ℕ) :
    (g.trimClientLog cfg clientIp now).trimClientLog cfg clientIp now
      = g.trimClientLog cfg clientIp now := by
  show g.withLog ((g.rateLimitLog.insert clientIp _).insert clientIp (trimLog now
    cfg.rateLimitWindow ((g.trimClientLog cfg clientIp now).clientLog clientIp))) = g.withLog _
  rw [AList.insert_insert, clientLog_trimClientLog, trimLog_trimLog]

/-! ### Answers that agree -/

structure Agrees (answers full : DeployerAnswers) : Prop where
  tenant : ∀ t, answers.tenant = some t → full.tenant = some t
  budget : ∀ b, answers.budget = some b → full.budget = some b
  holderLive : ∀ h, answers.holderLive = some h → full.holderLive = some h

variable {cheap reclaim : Bool} {deployer : Deployer}

theorem cheapGrantable_of_agrees (hagree : Agrees answers full)
    (h : cheapGrantable cfg g req suggested answers = .ok cheap) :
    cheapGrantable cfg g req suggested full = .ok cheap := by
  unfold cheapGrantable at h ⊢
  cases htenant : answers.tenant with
  | some tenant => rwa [hagree.tenant tenant htenant, ← htenant]
  | none =>
    -- the tenant was not read, or the pre-check would have asked for it
    rw [htenant] at h
    split at h
    · rename_i hcond
      rw [if_pos hcond]
      split at h
      · exact h
      · split at h
        · rename_i howner
          rw [if_pos howner]
          exact h
        · rename_i howner
          rw [if_neg howner]
          split at h
          · cases h
          · rename_i hlive
            rw [if_neg hlive]
            exact h
    · rename_i hcond
      rw [if_neg hcond]
      exact h

theorem reclaimHolder_trimClientLog (cfg liveWired g req suggested cheap) :
    reclaimHolder cfg liveWired (g.trimClientLog cfg req.clientIp req.now) req suggested cheap
      = reclaimHolder cfg liveWired g req suggested cheap := by
  unfold reclaimHolder withinRateBudget
  rw [trimClientLog_trimClientLog]
  rfl

variable {holder : Ipv4Addr} {evicted' : List Allocation}

theorem reclaimVerdict_of_agrees (hagree : Agrees answers full) {r : Bool}
    (h : reclaimVerdict answers holder = .ok r) : reclaimVerdict full holder = .ok r := by
  unfold reclaimVerdict at h ⊢
  cases hlive : answers.holderLive with
  | none =>
    rw [hlive] at h
    cases h
  | some told =>
    rw [hlive] at h
    rw [hagree.holderLive told hlive]
    dsimp only at h ⊢
    split at h
    · rename_i hgone
      rw [if_pos hgone]
      cases htenant : answers.tenant with
      | none =>
        rw [htenant] at h
        cases h
      | some tenant =>
        rw [htenant] at h
        rw [hagree.tenant tenant htenant]
        exact h
    · rename_i hgone
      rw [if_neg hgone]
      exact h

theorem reclaimFromDepartedPeer_of_agrees (hagree : Agrees answers full) {cheap r : Bool}
    (h : reclaimFromDepartedPeer cfg liveWired g req suggested answers cheap = (.ok r, g')) :
    reclaimFromDepartedPeer cfg liveWired g req suggested full cheap = (.ok r, g') := by
  rw [reclaimFromDepartedPeer_eq] at h ⊢
  split at h
  · exact h
  · obtain ⟨hverdict, hg⟩ := Prod.mk.inj h
    rw [reclaimVerdict_of_agrees hagree hverdict, hg]
  · exact h

/-- The reclaim that asks has trimmed the window, and goes on from there as it
would have from the maps it began with. -/
theorem reclaimFromDepartedPeer_of_asks {cheap : Bool}
    (h : reclaimFromDepartedPeer cfg liveWired g req suggested answers cheap
      = (.error question, g')) (full) :
    reclaimFromDepartedPeer cfg liveWired g' req suggested full cheap
      = reclaimFromDepartedPeer cfg liveWired g req suggested full cheap := by
  rw [reclaimFromDepartedPeer_eq] at h
  split at h
  · cases h
  · rename_i holder hholder
    obtain rfl : g.trimClientLog cfg req.clientIp req.now = g' := congrArg Prod.snd h
    rw [reclaimFromDepartedPeer_eq, reclaimFromDepartedPeer_eq, reclaimHolder_trimClientLog,
      hholder, trimClientLog_trimClientLog]
  · cases h

theorem reclaimFromDepartedPeer_trim (cfg liveWired g req suggested answers cheap) :
    ((reclaimFromDepartedPeer cfg liveWired g req suggested answers cheap).2 = g ∨
      (reclaimFromDepartedPeer cfg liveWired g req suggested answers cheap).2
        = g.trimClientLog cfg req.clientIp req.now) ∧
    reclaimFromDepartedPeer cfg liveWired (g.trimClientLog cfg req.clientIp req.now) req suggested
        answers cheap
      = ((reclaimFromDepartedPeer cfg liveWired g req suggested answers cheap).1,
        g.trimClientLog cfg req.clientIp req.now) := by
  rw [reclaimFromDepartedPeer_eq, reclaimFromDepartedPeer_eq, reclaimHolder_trimClientLog,
    trimClientLog_trimClientLog]
  split
  · exact ⟨.inl rfl, rfl⟩
  · exact ⟨.inr rfl, rfl⟩
  · exact ⟨.inr rfl, rfl⟩

theorem portOwner_of_reclaim_asks
    (h : (reclaimFromDepartedPeer cfg liveWired g req suggested answers cheap).1
      = .error (.holderLive holder)) :
    portOwner g suggested = some holder := by
  rw [reclaimFromDepartedPeer_eq] at h
  split at h
  · cases h
  · rename_i asked hasked
    obtain rfl : asked = holder := by
      dsimp only [reclaimVerdict] at h
      split at h
      · injection h with heq
        injection heq
      · split at h
        · split at h <;> cases h
        · cases h
    exact (reclaimHolder_some hasked).1
  · cases h

/-! ### The pre-check -/

theorem precheck_of_agrees (hagree : Agrees answers full) {p : Precheck}
    (h : precheck cfg liveWired g req suggested answers = (p, g'))
    (hask : ∀ question, p ≠ .ask question) :
    precheck cfg liveWired g req suggested full = (p, g') := by
  unfold precheck at h ⊢
  split at h
  · rename_i hzero
    rw [if_pos hzero]
    exact h
  · rename_i hzero
    rw [if_neg hzero]
    cases hcheap : cheapGrantable cfg g req suggested answers with
    | error question =>
      rw [hcheap] at h
      exact absurd (congrArg Prod.fst h).symm (hask question)
    | ok cheap =>
      rw [hcheap] at h
      rw [cheapGrantable_of_agrees hagree hcheap]
      dsimp only at h ⊢
      rcases hrec : reclaimFromDepartedPeer cfg liveWired g req suggested answers cheap
        with ⟨r, g''⟩
      rw [hrec] at h
      cases r with
      | error question => exact absurd (congrArg Prod.fst h).symm (hask question)
      | ok r =>
        rw [reclaimFromDepartedPeer_of_agrees hagree hrec]
        exact h

theorem precheck_of_asks (hagree : Agrees answers full)
    (h : precheck cfg liveWired g req suggested answers = (.ask question, g')) :
    precheck cfg liveWired g' req suggested full = precheck cfg liveWired g req suggested full := by
  unfold precheck at h
  split at h
  · cases h
  · rename_i hzero
    cases hcheap : cheapGrantable cfg g req suggested answers with
    | error question =>
      rw [hcheap] at h
      obtain rfl : g = g' := congrArg Prod.snd h
      rfl
    | ok cheap =>
      rw [hcheap] at h
      dsimp only at h
      obtain ⟨log, hlog⟩ :=
        reclaimFromDepartedPeer_snd cfg liveWired g req suggested answers cheap
      rcases hrec : reclaimFromDepartedPeer cfg liveWired g req suggested answers cheap
        with ⟨r, g''⟩
      rw [hrec] at h hlog
      cases r with
      | error question =>
        obtain rfl : g'' = g' := congrArg Prod.snd h
        -- the maps differ in the logs only, which the cheap part does not read
        have hfull := cheapGrantable_of_agrees hagree hcheap
        have hfull' : cheapGrantable cfg g'' req suggested full = .ok cheap := by
          rw [show g'' = g.withLog log from hlog]
          exact hfull
        unfold precheck
        rw [if_neg hzero, if_neg hzero, hfull, hfull']
        dsimp only
        rw [reclaimFromDepartedPeer_of_asks hrec full]
      | ok r =>
        dsimp only at h
        split at h <;> cases h

/-- A suggestion that passed has the requester's window trimmed or untouched, and
passes from the trimmed window too. -/
theorem precheck_trim (h : precheck cfg liveWired g req suggested answers = (.pass reclaim, g')) :
    (g' = g ∨ g' = g.trimClientLog cfg req.clientIp req.now) ∧
      precheck cfg liveWired (g.trimClientLog cfg req.clientIp req.now) req suggested answers
        = (.pass reclaim, g.trimClientLog cfg req.clientIp req.now) := by
  unfold precheck at h ⊢
  split at h
  · rename_i hzero
    cases h
    exact ⟨.inl rfl, if_pos hzero⟩
  · rename_i hzero
    rw [if_neg hzero]
    have hsame : cheapGrantable cfg (g.trimClientLog cfg req.clientIp req.now) req suggested answers
        = cheapGrantable cfg g req suggested answers := rfl
    rw [hsame]
    cases hcheap : cheapGrantable cfg g req suggested answers with
    | error question =>
      rw [hcheap] at h
      cases h
    | ok cheap =>
      rw [hcheap] at h
      dsimp only at h ⊢
      obtain ⟨hsnd, htrim⟩ :=
        reclaimFromDepartedPeer_trim cfg liveWired g req suggested answers cheap
      rw [htrim]
      rcases hrec : reclaimFromDepartedPeer cfg liveWired g req suggested answers cheap
        with ⟨r, g''⟩
      rw [hrec] at h hsnd
      cases r with
      | error question => cases h
      | ok r =>
        dsimp only at h ⊢
        split at h
        · rename_i hgrant
          cases h
          exact ⟨hsnd, if_pos hgrant⟩
        · cases h

theorem portOwner_of_precheck_asks
    (h : (precheck cfg liveWired g req suggested answers).1 = .ask (.holderLive holder)) :
    portOwner g suggested = some holder := by
  unfold precheck at h
  split at h
  · cases h
  · split at h
    · rename_i question hcheap
      obtain ⟨rfl, -⟩ := cheapGrantable_error hcheap
      cases h
    · rename_i cheap hcheap
      split at h
      · rename_i question g'' hrec
        injection h with hq
        exact portOwner_of_reclaim_asks (by rw [hrec, hq])
      · split at h <;> cases h

/-! ### One pass -/

theorem decidePaid_of_agrees (hagree : Agrees answers full) {reclaim acquires : Bool}
    {result : Except NatPmpError Allocation}
    (h : decidePaid cfg draws g req suggested reclaim acquires answers evicted
      = (.done result, g', evicted')) :
    decidePaid cfg draws g req suggested reclaim acquires full evicted
      = (.done result, g', evicted') := by
  unfold decidePaid at h ⊢
  dsimp only at h ⊢
  split at h
  · rename_i hlimited
    rw [if_pos hlimited]
    exact h
  · rename_i hlimited
    rw [if_neg hlimited]
    split at h
    · rename_i tenant budget htenant hbudget
      rw [hagree.tenant tenant htenant, hagree.budget budget hbudget]
      exact h
    · cases h

theorem decidePaid_of_asks {reclaim acquires : Bool}
    (h : decidePaid cfg draws g req suggested reclaim acquires answers evicted
      = (.ask question, g', evicted')) :
    question = .quotaInputs ∧ g' = g := by
  unfold decidePaid at h
  dsimp only at h
  split at h
  · cases h
  · split at h
    · cases h
    · cases h
      exact ⟨rfl, rfl⟩

theorem trimToPay_trimToPay (cfg g req suggested) :
    trimToPay cfg (trimToPay cfg g req suggested) req suggested = trimToPay cfg g req suggested ∧
      acquiresNewPort (trimToPay cfg g req suggested) req suggested
        = acquiresNewPort g req suggested := by
  by_cases hacquires : acquiresNewPort g req suggested = true
  · have hsame : acquiresNewPort (g.trimClientLog cfg req.clientIp req.now) req suggested
        = acquiresNewPort g req suggested := rfl
    have htrim : trimToPay cfg g req suggested = g.trimClientLog cfg req.clientIp req.now :=
      if_pos hacquires
    rw [htrim]
    refine ⟨?_, hsame⟩
    unfold trimToPay
    rw [hsame, if_pos hacquires, trimClientLog_trimClientLog]
  · have htrim : trimToPay cfg g req suggested = g := if_neg hacquires
    rw [htrim]
    exact ⟨htrim, rfl⟩

theorem trimToPay_eq (cfg g req suggested) :
    trimToPay cfg g req suggested = g ∨
      trimToPay cfg g req suggested = g.trimClientLog cfg req.clientIp req.now := by
  unfold trimToPay
  split
  · exact .inr rfl
  · exact .inl rfl

/-- A pass that asks for the quota inputs has trimmed the window for what it has to
pay, and goes on from there as from where it began. -/
theorem decidePassed_of_asks (h : decidePassed cfg draws g req suggested reclaim answers evicted
      = (.ask question, g', evicted')) :
    question = .quotaInputs ∧ g' = trimToPay cfg g req suggested ∧
      ∀ full, decidePassed cfg draws g' req suggested reclaim full evicted
        = decidePassed cfg draws g req suggested reclaim full evicted := by
  obtain ⟨hq, rfl⟩ := decidePaid_of_asks h
  refine ⟨hq, rfl, fun full => ?_⟩
  obtain ⟨htrim, hacquires⟩ := trimToPay_trimToPay cfg g req suggested
  unfold decidePassed
  rw [htrim, hacquires]

theorem decideSwept_asks
    (h : decideSwept cfg liveWired draws g req answers evicted = (.ask question, g', evicted')) :
    ∃ log, g' = g.withLog log ∧ evicted' = evicted ∧ answers.Lacks question := by
  have hpass := decideSwept_pass cfg liveWired draws g req answers evicted
  rw [h] at hpass
  cases hpass with
  | asks log hlacks => exact ⟨log, rfl, rfl, hlacks⟩

/-- **A pass that asks nothing ends alike** under answers that agree with its own. -/
theorem decideSwept_of_agrees (hagree : Agrees answers full)
    {result : Except NatPmpError Allocation}
    (h : decideSwept cfg liveWired draws g req answers evicted = (.done result, g', evicted')) :
    decideSwept cfg liveWired draws g req full evicted = (.done result, g', evicted') := by
  rw [decideSwept] at h ⊢
  rcases hpre : precheck cfg liveWired g req (effectiveSuggestion g req) answers with ⟨p, g₁⟩
  rw [hpre] at h
  cases p with
  | ask question => cases h
  | refuse error =>
    rw [precheck_of_agrees hagree hpre nofun]
    exact h
  | pass reclaim =>
    rw [precheck_of_agrees hagree hpre nofun]
    exact decidePaid_of_agrees hagree h

/-- **A pass that asks has lost nothing**: from the maps it leaves, the pass with
the answers goes on as from the maps it began with. -/
theorem decideSwept_of_asks (hagree : Agrees answers full)
    (h : decideSwept cfg liveWired draws g req answers evicted = (.ask question, g', evicted')) :
    decideSwept cfg liveWired draws g' req full evicted
      = decideSwept cfg liveWired draws g req full evicted := by
  obtain ⟨log, hlog, -, -⟩ := decideSwept_asks h
  have hsugg : effectiveSuggestion g' req = effectiveSuggestion g req := by
    rw [hlog]
    rfl
  rw [decideSwept] at h
  rcases hpre : precheck cfg liveWired g req (effectiveSuggestion g req) answers with ⟨p, g₁⟩
  rw [hpre] at h
  cases p with
  | refuse error => cases h
  | ask question' =>
    obtain rfl : g₁ = g' := (Prod.mk.inj (Prod.mk.inj h).2).1
    rw [decideSwept, decideSwept, hsugg, precheck_of_asks hagree hpre]
  | pass reclaim =>
    have hfull := precheck_of_agrees hagree hpre nofun
    obtain ⟨-, hpaid, hrest⟩ := decidePassed_of_asks h
    obtain ⟨hg₁, htrim⟩ := precheck_trim hfull
    -- either nothing was trimmed, or the pass starts over from the trimmed window
    have hg' : g' = g ∧ g₁ = g ∨ g' = g.trimClientLog cfg req.clientIp req.now := by
      rcases trimToPay_eq cfg g₁ req (effectiveSuggestion g req) with heq | heq
      · rw [hpaid, heq]
        exact hg₁.imp_left fun h => ⟨h, h⟩
      · rw [hpaid, heq]
        rcases hg₁ with rfl | rfl
        · exact .inr rfl
        · exact .inr (trimClientLog_trimClientLog _ _ _ _)
    have hpre' : precheck cfg liveWired g' req (effectiveSuggestion g req) full
        = (.pass reclaim, g') := by
      rcases hg' with ⟨rfl, rfl⟩ | rfl
      · exact hfull
      · exact htrim
    rw [decideSwept, decideSwept, hsugg, hpre', hfull]
    exact hrest full

theorem portOwner_of_asks
    (h : (decideSwept cfg liveWired draws g req answers evicted).1 = .ask (.holderLive holder)) :
    portOwner g (effectiveSuggestion g req) = some holder := by
  rw [decideSwept] at h
  rcases hpre : precheck cfg liveWired g req (effectiveSuggestion g req) answers with ⟨p, g₁⟩
  rw [hpre] at h
  cases p with
  | refuse error => cases h
  | ask question =>
    injection h with hq
    exact portOwner_of_precheck_asks (by rw [hpre, hq])
  | pass reclaim =>
    rcases hrest : decidePassed cfg draws g₁ req (effectiveSuggestion g req) reclaim answers evicted
      with ⟨step, g₂, evicted'⟩
    dsimp only at h
    rw [hrest] at h
    obtain rfl : step = .ask (.holderLive holder) := h
    cases (decidePassed_of_asks hrest).1

/-! ### The loop -/

/-- Every answer a pass may ask for, on the swept maps `s`: the tenant and the budget
of the requester, and whether the owner of the suggested port has a live session. -/
def Deployer.allAnswers (cfg : AllocatorConfig) (deployer : Deployer) (s : Inner)
    (req : MapRequest) : DeployerAnswers where
  tenant := some (deployer.tenantOf req.clientIp)
  budget := some (deployer.budgetOf cfg req.clientIp)
  holderLive := (portOwner s (effectiveSuggestion s req)).map fun holder =>
    (holder, deployer.liveSessions.all fun hasLive => hasLive holder)

theorem agrees_unasked (cfg) (deployer : Deployer) (s : Inner) (req) :
    Agrees (deployer.unasked cfg req.clientIp) (deployer.allAnswers cfg s req) := by
  refine ⟨fun t ht => ?_, fun b hb => ?_, fun h hh => ?_⟩
  · cases hpeers : deployer.quotaPeers with
    | none =>
      simp only [unasked, hpeers, Option.isNone_none, if_true] at ht
      simp only [allAnswers, tenantOf, hpeers]
      exact ht
    | some peers =>
      simp only [unasked, hpeers, Option.isNone_some, Bool.false_eq_true, if_false] at ht
      cases ht
  · cases hbudget : deployer.portBudget with
    | none =>
      simp only [unasked, hbudget, Option.isNone_none, if_true] at hb
      simp only [allAnswers, budgetOf, hbudget, Option.bind_none,
        Option.getD_none]
      exact hb
    | some budget =>
      simp only [unasked, hbudget, Option.isNone_some, Bool.false_eq_true, if_false] at hb
      cases hb
  · cases hh

theorem Agrees.ask {s : Inner} (h : Agrees answers (deployer.allAnswers cfg s req))
    (hask : (decideSwept cfg liveWired draws s req answers evicted).1 = .ask question) :
    Agrees (deployer.ask cfg req.clientIp answers question) (deployer.allAnswers cfg s req) := by
  cases question with
  | tenant => exact ⟨fun t ht => ht, h.budget, h.holderLive⟩
  | quotaInputs =>
    refine ⟨fun t ht => ?_, fun b hb => ?_, h.holderLive⟩
    · cases htenant : answers.tenant with
      | none =>
        rw [ask, htenant] at ht
        exact ht
      | some known =>
        rw [ask, htenant] at ht
        exact h.tenant t (htenant.trans ht)
    · cases hbudget : answers.budget with
      | none =>
        rw [ask, hbudget] at hb
        exact hb
      | some known =>
        rw [ask, hbudget] at hb
        exact h.budget b (hbudget.trans hb)
  | holderLive holder =>
    refine ⟨h.tenant, h.budget, fun told htold => ?_⟩
    simp only [allAnswers, portOwner_of_asks hask]
    exact htold

/-- **The loop ends as one pass would** that lacks no answer. -/
theorem allocateLoop_eq_one_pass {fuel : ℕ} {outcome : AllocateOutcome}
    (hagree : Agrees answers (deployer.allAnswers cfg (g.sweepExpired req.now cfg.cooldown).1 req))
    (h : allocateLoop cfg deployer draws req fuel g answers evicted = some (outcome, g')) :
    tryAllocate cfg deployer.liveSessions.isSome draws g req
        (deployer.allAnswers cfg (g.sweepExpired req.now cfg.cooldown).1 req) evicted
      = (.done outcome.result, g', outcome.evicted) := by
  induction fuel generalizing g answers evicted with
  | zero => cases h
  | succ fuel ih =>
    rw [allocateLoop, tryAllocate_eq] at h
    rw [tryAllocate_eq]
    set s := (g.sweepExpired req.now cfg.cooldown).1 with hs
    rcases hpass : decideSwept cfg deployer.liveSessions.isSome draws s req answers
      (evicted ++ (g.sweepExpired req.now cfg.cooldown).2) with ⟨step, g₁, evicted₁⟩
    rw [hpass] at h
    cases step with
    | done result =>
      cases h
      exact decideSwept_of_agrees hagree hpass
    | ask question =>
      obtain ⟨log, hlog, hev, -⟩ := decideSwept_asks hpass
      -- the next pass finds nothing to sweep and the same owner to ask about
      have hskip : g₁.sweepExpired req.now cfg.cooldown = (g₁, []) := by
        refine sweepExpired_of_skip ?_
        rw [hlog]
        exact sweepExpired_skips g req.now cfg.cooldown
      have hsame : deployer.allAnswers cfg g₁ req = deployer.allAnswers cfg s req := by
        rw [hlog]
        rfl
      have hnext := ih (g := g₁) (by
        rw [hskip, hsame]
        exact hagree.ask (by rw [hpass])) h
      rw [tryAllocate_eq, hskip, hsame, List.append_nil, hev] at hnext
      rw [← decideSwept_of_asks hagree hpass]
      exact hnext

theorem allocateLoop_allocateAtCollecting (cfg deployer draws g) (clientIp) (proto : Proto)
    (internalPort suggested lifetimeSecs now : ℕ) :
    allocateLoop cfg deployer draws
        ⟨clientIp, proto, internalPort, suggested, clampLifetime lifetimeSecs, now⟩ 4
        (g.trimSideMaps now cfg.rateLimitWindow) (deployer.unasked cfg clientIp) []
      = some (allocateAtCollecting cfg deployer draws g clientIp proto internalPort suggested
          lifetimeSecs now) :=
  (Option.some_get _).symm

/-- **A whole request ends as one pass** that has every answer from the start. -/
theorem allocateAtCollecting_eq_one_pass (cfg deployer draws g clientIp) (proto : Proto)
    (internalPort suggested lifetimeSecs now : ℕ) :
    let req : MapRequest :=
      ⟨clientIp, proto, internalPort, suggested, clampLifetime lifetimeSecs, now⟩
    let ended := allocateAtCollecting cfg deployer draws g clientIp proto internalPort suggested
      lifetimeSecs now
    tryAllocate cfg deployer.liveSessions.isSome draws (g.trimSideMaps now cfg.rateLimitWindow) req
        (deployer.allAnswers cfg (settled cfg g now) req) []
      = (.done ended.1.result, ended.2, ended.1.evicted) := by
  intro req ended
  exact allocateLoop_eq_one_pass (agrees_unasked cfg deployer _ req)
    (allocateLoop_allocateAtCollecting cfg deployer draws g clientIp proto internalPort suggested
      lifetimeSecs now)

/-! ### Other operations between the passes -/

inductive Callback where
  | quotaPeers
  | portBudget
  | liveSessions
deriving DecidableEq

def Callback.Answered (answers : DeployerAnswers) : Callback → Prop
  | .quotaPeers => answers.tenant.isSome = true
  | .portBudget => answers.budget.isSome = true
  | .liveSessions => answers.holderLive.isSome = true

def Callback.calledIf (needed : Bool) (c : Callback) : List Callback := if needed then [c] else []

@[simp] theorem mem_calledIf {needed : Bool} {c c' : Callback} :
    c ∈ c'.calledIf needed ↔ needed = true ∧ c = c' := by
  cases needed <;> simp [Callback.calledIf]

@[simp] theorem nodup_calledIf (needed : Bool) (c : Callback) : (c.calledIf needed).Nodup := by
  cases needed <;> simp [Callback.calledIf]

/-- The callbacks that `ask` calls: those that are wired and whose answer it needs. -/
def Deployer.calls (deployer : Deployer) (answers : DeployerAnswers) : Question → List Callback
  | .tenant => Callback.quotaPeers.calledIf deployer.quotaPeers.isSome
  | .quotaInputs =>
    Callback.quotaPeers.calledIf (answers.tenant.isNone && deployer.quotaPeers.isSome) ++
      Callback.portBudget.calledIf (answers.budget.isNone && deployer.portBudget.isSome)
  | .holderLive _ => Callback.liveSessions.calledIf deployer.liveSessions.isSome

/-- The loop of `allocate_at_collecting` between two of its passes, with the passes
it made and the callbacks it called so far. -/
structure LoopState where
  inner : Inner
  answers : DeployerAnswers
  evicted : List Allocation
  passes : ℕ
  calls : List Callback
  outcome : Option AllocateOutcome

def LoopState.begin (g : Inner) (answers : DeployerAnswers) : LoopState :=
  ⟨g, answers, [], 0, [], none⟩

/-- The body of the loop: a pass under the lock, the first of them after the trim of
the side maps, and the question it may end in. -/
def LoopState.pass (cfg : AllocatorConfig) (liveWired : Bool) (deployer : Deployer)
    (draws : ℕ → ℕ) (req : MapRequest) (f : LoopState) : LoopState :=
  let g := if f.passes = 0 then f.inner.trimSideMaps req.now cfg.rateLimitWindow else f.inner
  match tryAllocate cfg liveWired draws g req f.answers f.evicted with
  | (.done result, g, evicted) =>
    { f with
      inner := g
      evicted := evicted
      passes := f.passes + 1
      outcome := some ⟨result, evicted⟩ }
  | (.ask question, g, evicted) =>
    { f with
      inner := g
      evicted := evicted
      passes := f.passes + 1
      answers := deployer.ask cfg req.clientIp f.answers question
      calls := f.calls ++ deployer.calls f.answers question }

/-- What may happen while a request is decided: another operation on the maps, or
the next pass.  The callbacks may be wired at any time, so a pass and its question
may find others than the one before. -/
inductive LoopStep (cfg : AllocatorConfig) (req : MapRequest) (f : LoopState) : LoopState → Prop
  | other {g : Inner} (h : AllocatorStep cfg f.inner g) : LoopStep cfg req f { f with inner := g }
  | pass (liveWired : Bool) (deployer : Deployer) (draws : ℕ → ℕ) (h : f.outcome = none) :
      LoopStep cfg req f (f.pass cfg liveWired deployer draws req)

/-- A request that is being decided, or was. -/
def InLoop (cfg : AllocatorConfig) (req : MapRequest) : LoopState → Prop :=
  Transition.Reachable
    (fun f => ∃ g deployer, f = .begin g (Deployer.unasked cfg deployer req.clientIp))
    (LoopStep cfg req)

/-- **Each answer is asked for once**: a loop that goes on has made no more passes
than it has answers, and no callback was called whose answer is not there. -/
structure AsksOnce (f : LoopState) : Prop where
  going : f.outcome = none → f.passes + f.answers.missing ≤ 3
  ended : f.passes ≤ 4
  nodup : f.calls.Nodup
  known : ∀ c ∈ f.calls, c.Answered f.answers

theorem calls_nodup (deployer : Deployer) (h : answers.Lacks question) :
    (deployer.calls answers question).Nodup ∧
      ∀ c ∈ deployer.calls answers question, ¬ c.Answered answers := by
  cases question with
  | quotaInputs =>
    refine ⟨List.nodup_append.mpr ⟨nodup_calledIf _ _, nodup_calledIf _ _, ?_⟩, fun c hc => ?_⟩
    · intro c hc c' hc' heq
      rw [(mem_calledIf.mp hc).2, (mem_calledIf.mp hc').2] at heq
      cases heq
    · rcases List.mem_append.mp hc with hc | hc
      all_goals
        obtain ⟨hneeded, rfl⟩ := mem_calledIf.mp hc
        simp only [Bool.and_eq_true, Option.isNone_iff_eq_none] at hneeded
        simp [Callback.Answered, hneeded.1]
  | tenant | holderLive =>
    refine ⟨nodup_calledIf _ _, fun c hc => ?_⟩
    obtain ⟨-, rfl⟩ := mem_calledIf.mp hc
    simpa [Callback.Answered, DeployerAnswers.Lacks] using h

theorem answered_ask (cfg) (deployer : Deployer) (clientIp answers question)
    (h : c.Answered answers ∨ c ∈ deployer.calls answers question) :
    c.Answered (deployer.ask cfg clientIp answers question) := by
  cases question with
  | tenant =>
    cases c with
    | quotaPeers => rfl
    | portBudget => exact h.resolve_right (by simp [calls])
    | liveSessions => exact h.resolve_right (by simp [calls])
  | quotaInputs =>
    cases c with
    | quotaPeers => rfl
    | portBudget => rfl
    | liveSessions => exact h.resolve_right (by simp [calls])
  | holderLive holder =>
    cases c with
    | quotaPeers => exact h.resolve_right (by simp [calls])
    | portBudget => exact h.resolve_right (by simp [calls])
    | liveSessions => rfl

theorem AsksOnce.pass (h : AsksOnce f) (hgoing : f.outcome = none) (liveWired deployer draws req) :
    AsksOnce (f.pass cfg liveWired deployer draws req) := by
  have hpasses := h.going hgoing
  unfold LoopState.pass
  dsimp only
  rw [tryAllocate_eq]
  set g := if f.passes = 0 then f.inner.trimSideMaps req.now cfg.rateLimitWindow else f.inner
  rcases hpass : decideSwept cfg liveWired draws (g.sweepExpired req.now cfg.cooldown).1 req
    f.answers (f.evicted ++ (g.sweepExpired req.now cfg.cooldown).2) with ⟨step, g₁, evicted₁⟩
  cases step with
  | done result =>
    refine ⟨fun hnone => ?_, ?_, h.nodup, h.known⟩
    · cases hnone
    · show f.passes + 1 ≤ 4
      omega
  | ask question =>
    obtain ⟨-, -, -, hlacks⟩ := decideSwept_asks hpass
    have hfewer := missing_ask_lt cfg deployer req.clientIp hlacks
    obtain ⟨hnodup, hunknown⟩ := calls_nodup deployer hlacks
    refine ⟨fun _ => ?_, ?_, ?_, fun c hc => ?_⟩
    · show f.passes + 1 + (deployer.ask cfg req.clientIp f.answers question).missing ≤ 3
      omega
    · show f.passes + 1 ≤ 4
      omega
    · -- what was called before is answered, what is called now was not
      refine List.nodup_append.mpr ⟨h.nodup, hnodup, fun c hc c' hc' heq => ?_⟩
      exact hunknown c' hc' (heq ▸ h.known c hc)
    · refine answered_ask cfg deployer req.clientIp f.answers question ?_
      exact (List.mem_append.mp hc).imp_left (h.known c)

theorem InLoop.asksOnce (h : InLoop cfg req f) : AsksOnce f := by
  refine Transition.Reachable.invariant ?_ ?_ h
  · rintro f ⟨g, deployer, rfl⟩
    have hle := missing_le (deployer.unasked cfg req.clientIp)
    refine ⟨fun _ => ?_, Nat.zero_le 4, List.nodup_nil, fun c hc => by cases hc⟩
    show 0 + (deployer.unasked cfg req.clientIp).missing ≤ 3
    omega
  · rintro f f' hf hstep
    cases hstep with
    | other => exact ⟨hf.going, hf.ended, hf.nodup, hf.known⟩
    | pass liveWired deployer draws hgoing => exact hf.pass hgoing liveWired deployer draws req

/-- The loop alone, with no other operation, is one of these runs. -/
theorem InLoop.allocateLoop (hf : InLoop cfg req f) (hgoing : f.outcome = none)
    (hg : (if f.passes = 0 then f.inner.trimSideMaps req.now cfg.rateLimitWindow else f.inner) = g)
    {fuel : ℕ} {outcome : AllocateOutcome}
    (h : allocateLoop cfg deployer draws req fuel g f.answers f.evicted = some (outcome, g')) :
    ∃ f', InLoop cfg req f' ∧ f'.outcome = some outcome ∧ f'.inner = g' := by
  induction fuel generalizing f g with
  | zero => cases h
  | succ fuel ih =>
    have hnext := hf.next (.pass deployer.liveSessions.isSome deployer draws hgoing)
    unfold LoopState.pass at hnext
    dsimp only at hnext
    rw [hg] at hnext
    rw [NatPmp.allocateLoop] at h
    rcases hpass : tryAllocate cfg deployer.liveSessions.isSome draws g req f.answers f.evicted
      with ⟨step, g₁, evicted₁⟩
    rw [hpass] at h hnext
    cases step with
    | done result =>
      cases h
      exact ⟨_, hnext, rfl, rfl⟩
    | ask question => exact ih hnext hgoing (if_neg (Nat.succ_ne_zero _)) h

/-- **The question loop equals one pass.**  With no other operation in between, the
loop ends with the result, the evicted list and the maps of the one pass that has
every answer from the start, for all maps, requests, callbacks and draws.  With any
operations between its passes (with none of them it is the loop above) it
makes at most four, the fourth of which ends it, and calls each callback at most
once. -/
theorem questions_equal_one_pass (cfg : AllocatorConfig) (deployer : Deployer) (draws : ℕ → ℕ)
    (g : Inner) (clientIp : Ipv4Addr) (proto : Proto)
    (internalPort suggested lifetimeSecs now : ℕ) :
    let req : MapRequest :=
      ⟨clientIp, proto, internalPort, suggested, clampLifetime lifetimeSecs, now⟩
    let ended := allocateAtCollecting cfg deployer draws g clientIp proto internalPort suggested
      lifetimeSecs now
    tryAllocate cfg deployer.liveSessions.isSome draws (g.trimSideMaps now cfg.rateLimitWindow) req
        (deployer.allAnswers cfg (settled cfg g now) req) []
      = (.done ended.1.result, ended.2, ended.1.evicted) ∧
    (∃ f, InLoop cfg req f ∧ f.outcome = some ended.1 ∧ f.inner = ended.2) ∧
    ∀ f, InLoop cfg req f →
      f.passes ≤ 4 ∧ (f.passes = 4 → f.outcome.isSome = true) ∧ f.calls.Nodup := by
  intro req ended
  have hloop := allocateLoop_allocateAtCollecting cfg deployer draws g clientIp proto internalPort
    suggested lifetimeSecs now
  refine ⟨allocateLoop_eq_one_pass (agrees_unasked cfg deployer _ req) hloop, ?_, fun f hf => ?_⟩
  · have hstart : InLoop cfg req (.begin g (deployer.unasked cfg clientIp)) :=
      .start ⟨g, deployer, rfl⟩
    exact hstart.allocateLoop rfl (if_pos rfl) hloop
  · have hinv := hf.asksOnce
    refine ⟨hinv.ended, fun hfour => ?_, hinv.nodup⟩
    cases houtcome : f.outcome with
    | none =>
      have hlt := hinv.going houtcome
      omega
    | some outcome => rfl

def departedPeerBudget : Deployer := { departedPeer with portBudget := some fun _ => some 3 }

def takeBackLoop : LoopState :=
  (List.replicate 4 ()).foldl
    (fun f _ => f.pass .warrenDefault true departedPeerBudget id takeBack)
    (.begin departedHolds (departedPeerBudget.unasked .warrenDefault 2))

theorem inLoop_takeBackLoop : InLoop .warrenDefault takeBack takeBackLoop := by
  have hstart : InLoop .warrenDefault takeBack
      (.begin departedHolds (departedPeerBudget.unasked .warrenDefault 2)) :=
    .start ⟨_, departedPeerBudget, rfl⟩
  have hone := hstart.next (.pass true departedPeerBudget id rfl)
  have htwo := hone.next (.pass true departedPeerBudget id rfl)
  have hthree := htwo.next (.pass true departedPeerBudget id rfl)
  exact hthree.next (.pass true departedPeerBudget id rfl)

/-- All three callbacks are called, and the fourth pass grants the port. -/
theorem questions_equal_one_pass_takeBack :
    takeBackLoop.passes = 4 ∧ takeBackLoop.outcome.isSome = true ∧ takeBackLoop.calls.length = 3 ∧
      takeBackLoop.calls.Nodup := by
  have hfour : takeBackLoop.passes = 4 := rfl
  obtain ⟨-, -, hloop⟩ := questions_equal_one_pass .warrenDefault departedPeerBudget id
    departedHolds
    2 .tcp 80 49152 60 0
  obtain ⟨-, hended, hnodup⟩ := hloop takeBackLoop inLoop_takeBackLoop
  exact ⟨hfour, hended hfour, rfl, hnodup⟩

end WarrenGuard.NatPmp
