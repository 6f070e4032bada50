/-
What the operations do to the rate-limit log of a client.

The charges of a client are entries of a log that is trimmed when it is looked at, on four paths
of the allocator, and charged on two:

* `Logged` — at one time a log stays as it is, is trimmed, or is trimmed, found short enough and
  charged;
* `decideSwept_log` — a pass does no other, and refuses with `RateLimited` only when the trimmed
  log is full; `logged_apply` — so does every operation.
-/
import WarrenGuard.PortRenewal
import WarrenGuard.SlidingWindow

namespace WarrenGuard.NatPmp

variable {cfg : AllocatorConfig} {g g' g'' s : Inner} {req : MapRequest} {answers : DeployerAnswers}
  {clientIp : Ipv4Addr} {now : ℕ} {charged : Bool}

/-! ### One log at one time -/

/-- **How a log changes** at `now`, and whether it is charged. -/
inductive Logged (cfg : AllocatorConfig) (now : ℕ) (log : List ℕ) : Bool → List ℕ → Prop
  | kept : Logged cfg now log false log
  | trimmed : Logged cfg now log false (trimLog now cfg.rateLimitWindow log)
  | charged (h : (trimLog now cfg.rateLimitWindow log).length < cfg.rateLimitMax) :
      Logged cfg now log true (trimLog now cfg.rateLimitWindow log ++ [now])

variable {c : Ipv4Addr} {draws : ℕ → ℕ} {evicted : List Allocation} {log log' : List ℕ}
  {suggested : ℕ}

theorem Logged.trans {log log' log'' : List ℕ} (h : Logged cfg now log false log')
    (h' : Logged cfg now log' charged log'') : Logged cfg now log charged log'' := by
  cases h with
  | kept => exact h'
  | trimmed =>
    cases h' with
    | kept => exact .trimmed
    | trimmed =>
      rw [trimLog_trimLog]
      exact .trimmed
    | charged hlt =>
      rw [trimLog_trimLog] at hlt ⊢
      exact .charged hlt

theorem Logged.trimLog_eq (h : Logged cfg now log false log') :
    trimLog now cfg.rateLimitWindow log' = trimLog now cfg.rateLimitWindow log := by
  cases h with
  | kept => rfl
  | trimmed => exact trimLog_trimLog now cfg.rateLimitWindow log

theorem Logged.sound {log log' all : List ℕ} (h : Logged cfg now log charged log')
    (hs : SlidingWindow.Sound cfg.rateLimitWindow cfg.rateLimitMax now all log) :
    SlidingWindow.Sound cfg.rateLimitWindow cfg.rateLimitMax now
      (all ++ if charged then [now] else []) log' := by
  cases h with
  | kept =>
    rw [if_neg Bool.false_ne_true, List.append_nil]
    exact hs
  | trimmed =>
    rw [if_neg Bool.false_ne_true, List.append_nil]
    exact hs.trim
  | charged hlt => exact hs.trim.charge hlt

theorem Logged.suffix (h : Logged cfg now log false log') : log' <:+ log := by
  cases h with
  | kept => exact List.suffix_rfl
  | trimmed => exact SlidingWindow.trim_suffix now cfg.rateLimitWindow log

theorem Logged.length_le (h : Logged cfg now log charged log')
    (hle : log.length ≤ cfg.rateLimitMax) : log'.length ≤ cfg.rateLimitMax := by
  cases h with
  | kept => exact hle
  | trimmed => exact (SlidingWindow.trim_suffix now cfg.rateLimitWindow log).length_le.trans hle
  | charged hlt =>
    rw [List.length_append, List.length_singleton]
    exact hlt

/-! ### The logs of all clients -/

/-- Only the log of `clientIp` changes, as a log can. -/
structure Spends (cfg : AllocatorConfig) (now : ℕ) (clientIp : Ipv4Addr) (g : Inner)
    (charged : Bool) (g' : Inner) : Prop where
  others : ∀ c, c ≠ clientIp → g'.clientLog c = g.clientLog c
  own : Logged cfg now (g.clientLog clientIp) charged (g'.clientLog clientIp)

theorem clientLog_congr (h : g'.rateLimitLog = g.rateLimitLog) (c) :
    g'.clientLog c = g.clientLog c := by
  rw [Inner.clientLog, h, Inner.clientLog]

theorem clientLog_trimClientLog_of_ne (h : c ≠ clientIp) :
    (g.trimClientLog cfg clientIp now).clientLog c = g.clientLog c := by
  show ((g.rateLimitLog.insert clientIp _).lookup c).getD [] = _
  rw [Table.lookup_insert', if_neg h]
  rfl

theorem clientLog_chargeClientLog (g : Inner) (c) :
    (g.chargeClientLog clientIp now).clientLog c
      = if c = clientIp then g.clientLog c ++ [now] else g.clientLog c := by
  show ((g.rateLimitLog.insert clientIp _).lookup c).getD [] = _
  rw [Table.lookup_insert']
  split
  · rename_i heq
    rw [heq]
    rfl
  · rfl

theorem Spends.of_eq (h : g'.rateLimitLog = g.rateLimitLog) :
    Spends cfg now clientIp g false g' where
  others c _ := clientLog_congr h c
  own := by
    rw [clientLog_congr h]
    exact .kept

theorem Spends.trans (h : Spends cfg now clientIp g false g')
    (h' : Spends cfg now clientIp g' charged g'') : Spends cfg now clientIp g charged g'' where
  others c hc := (h'.others c hc).trans (h.others c hc)
  own := h.own.trans h'.own

theorem Spends.trimClientLog (g) :
    Spends cfg now clientIp g false (g.trimClientLog cfg clientIp now) where
  others _ hc := clientLog_trimClientLog_of_ne hc
  own := by
    rw [clientLog_trimClientLog]
    exact .trimmed

theorem Spends.logged (h : Spends cfg now clientIp g charged g') (c) :
    Logged cfg now (g.clientLog c) (decide (c = clientIp) && charged) (g'.clientLog c) := by
  by_cases hc : c = clientIp
  · subst hc
    simpa using h.own
  · rw [h.others c hc, decide_eq_false hc, Bool.false_and]
    exact .kept

theorem Spends.charge
    (htrim : trimLog now cfg.rateLimitWindow (g.clientLog clientIp) = g.clientLog clientIp)
    (hroom : (g.clientLog clientIp).length < cfg.rateLimitMax)
    (hlog : g'.rateLimitLog = (g.chargeClientLog clientIp now).rateLimitLog) :
    Spends cfg now clientIp g true g' where
  others c hc := by rw [clientLog_congr hlog, clientLog_chargeClientLog, if_neg hc]
  own := by
    rw [clientLog_congr hlog, clientLog_chargeClientLog, if_pos rfl]
    have hcharged : Logged cfg now (g.clientLog clientIp) true
        (trimLog now cfg.rateLimitWindow (g.clientLog clientIp) ++ [now]) :=
      .charged (by rwa [htrim])
    rwa [htrim] at hcharged

/-! ### The log and the pre-check of a suggestion -/

def windowLog (cfg : AllocatorConfig) (g : Inner) (req : MapRequest) : List ℕ :=
  trimLog req.now cfg.rateLimitWindow (g.clientLog req.clientIp)

/-- How the pre-check of a suggestion ends, and what it does to the client's log. -/
inductive PrecheckLog (cfg : AllocatorConfig) (g : Inner) (req : MapRequest) :
    Precheck × Inner → Prop
  | asks {g' : Inner} {question : Question} (h : Spends cfg req.now req.clientIp g false g') :
      PrecheckLog cfg g req (.ask question, g')
  | passes {g' : Inner} {reclaim : Bool} (h : Spends cfg req.now req.clientIp g false g') :
      PrecheckLog cfg g req (.pass reclaim, g')
  | limited {g' : Inner} (hfull : cfg.rateLimitMax ≤ (windowLog cfg g req).length)
      (h : Spends cfg req.now req.clientIp g false g') :
      PrecheckLog cfg g req
        (.refuse (rateLimitedError cfg req.clientIp req.now (windowLog cfg g req)), g')
  | refused {g' : Inner} {p : ℕ} (h : Spends cfg req.now req.clientIp g true g') :
      PrecheckLog cfg g req (.refuse (.suggestedPortInUse p), g')

theorem refuseSuggestion_log (g req suggested) :
    PrecheckLog cfg g req (.refuse (refuseSuggestion cfg g req suggested).1,
      (refuseSuggestion cfg g req suggested).2) := by
  have hlog := clientLog_trimClientLog cfg g req.clientIp req.now
  unfold refuseSuggestion
  dsimp only
  split
  · rename_i hfull
    rw [hlog] at hfull ⊢
    exact .limited hfull (.trimClientLog g)
  · rename_i hroom
    refine .refused ((Spends.trimClientLog g).trans (.charge ?_ (Nat.not_le.mp hroom) rfl))
    rw [hlog, trimLog_trimLog]

theorem PrecheckLog.of_spends {out : Precheck × Inner}
    (h : Spends cfg req.now req.clientIp g false g') (h' : PrecheckLog cfg g' req out) :
    PrecheckLog cfg g req out := by
  have hwindow : windowLog cfg g' req = windowLog cfg g req := h.own.trimLog_eq
  cases h' with
  | asks hout => exact .asks (h.trans hout)
  | passes hout => exact .passes (h.trans hout)
  | limited hfull hout =>
    rw [hwindow] at hfull ⊢
    exact .limited hfull (h.trans hout)
  | refused hout => exact .refused (h.trans hout)

theorem precheck_log (cfg) (liveWired : Bool) (g req suggested answers) :
    PrecheckLog cfg g req (precheck cfg liveWired g req suggested answers) := by
  unfold precheck
  split
  · exact .passes (.of_eq rfl)
  · split
    · exact .asks (.of_eq rfl)
    · rename_i cheap _
      have hreclaim : Spends cfg req.now req.clientIp g false
          (reclaimFromDepartedPeer cfg liveWired g req suggested answers cheap).2 := by
        rcases (reclaimFromDepartedPeer_trim cfg liveWired g req suggested answers cheap).1 with
          heq | heq
        · rw [heq]
          exact .of_eq rfl
        · rw [heq]
          exact .trimClientLog g
      rcases hrec : reclaimFromDepartedPeer cfg liveWired g req suggested answers cheap
        with ⟨r, g'⟩
      rw [hrec] at hreclaim
      cases r with
      | error question => exact .asks hreclaim
      | ok reclaim =>
        dsimp only
        split
        · exact .passes hreclaim
        · exact .of_spends hreclaim (refuseSuggestion_log g' req suggested)

/-! ### The log and the rest of a pass -/

def Step.spends (acquires : Bool) : Step → Bool
  | .done (.ok _) => acquires
  | .done (.error (.suggestedPortInUse _)) => true
  | _ => false

/-- How a pass ends, and what it does to the client's log. -/
inductive PassLog (cfg : AllocatorConfig) (s : Inner) (req : MapRequest) : Step → Inner → Prop
  | quiet {step : Step} {g' : Inner} (h : Spends cfg req.now req.clientIp s
        (step.spends (acquiresNewPort s req (effectiveSuggestion s req))) g')
      (hopen : ∀ c secs, step ≠ .done (.error (.rateLimited c secs))) : PassLog cfg s req step g'
  | limited {g' : Inner} (hfull : cfg.rateLimitMax ≤ (windowLog cfg s req).length)
      (h : Spends cfg req.now req.clientIp s false g') :
      PassLog cfg s req (.done (.error
        (rateLimitedError cfg req.clientIp req.now (windowLog cfg s req)))) g'

theorem grant_log {reclaim acquires : Bool}
    {tenant : Finset Ipv4Addr} {budget : ℕ} {evicted evicted' : List Allocation}
    {result : Except NatPmpError Allocation} (hr : suggested = 0 → reclaim = false)
    (hpays : acquires = true → windowLog cfg g req = g.clientLog req.clientIp ∧
      (g.clientLog req.clientIp).length < cfg.rateLimitMax)
    (h : grant cfg draws g req suggested reclaim acquires tenant budget evicted
      = (result, g', evicted')) :
    Spends cfg req.now req.clientIp g ((Step.done result).spends acquires) g' ∧
      ∀ c secs, result ≠ .error (.rateLimited c secs) := by
  obtain ⟨hg, -⟩ | ⟨-, ⟨hg, -⟩ | ⟨port, base, hg, -⟩⟩ :=
    grant_cases cfg draws g req acquires tenant budget evicted hr
  · rw [h] at hg
    cases hg
    exact ⟨.of_eq rfl, fun c secs heq => by cases heq⟩
  · rw [h] at hg
    cases hg
    exact ⟨.of_eq rfl, fun c secs heq => by cases heq⟩
  · rw [h] at hg
    obtain ⟨rfl, -⟩ := Prod.mk.inj hg
    refine ⟨?_, fun c secs heq => by cases heq⟩
    have hlog := (grant_ok h).1
    cases acquires with
    | false => exact .of_eq hlog
    | true =>
      obtain ⟨htrim, hroom⟩ := hpays rfl
      exact .charge htrim hroom hlog

theorem trimToPay_spends (g req suggested) :
    Spends cfg req.now req.clientIp g false (trimToPay cfg g req suggested) := by
  unfold trimToPay
  split
  · exact .trimClientLog g
  · exact .of_eq rfl

theorem clientLog_trimToPay (h : Spends cfg req.now req.clientIp s false g)
    (hacq : acquiresNewPort g req suggested = true) :
    (trimToPay cfg g req suggested).clientLog req.clientIp = windowLog cfg s req := by
  rw [trimToPay, if_pos hacq, clientLog_trimClientLog]
  exact h.own.trimLog_eq

theorem decidePassed_log {reclaim : Bool} {log : Table Ipv4Addr (List ℕ)}
    (hr : effectiveSuggestion s req = 0 → reclaim = false)
    (h : Spends cfg req.now req.clientIp s false (s.withLog log)) (answers evicted) :
    PassLog cfg s req
      (decidePassed cfg draws (s.withLog log) req (effectiveSuggestion s req) reclaim answers
        evicted).1
      (decidePassed cfg draws (s.withLog log) req (effectiveSuggestion s req) reclaim answers
        evicted).2.1 := by
  have hpaid := h.trans (trimToPay_spends (s.withLog log) req (effectiveSuggestion s req))
  have hacq : acquiresNewPort (s.withLog log) req (effectiveSuggestion s req)
      = acquiresNewPort s req (effectiveSuggestion s req) := rfl
  have hwindow : acquiresNewPort (s.withLog log) req (effectiveSuggestion s req) = true →
      (trimToPay cfg (s.withLog log) req (effectiveSuggestion s req)).clientLog req.clientIp
        = windowLog cfg s req := clientLog_trimToPay h
  rw [hacq] at hwindow
  unfold decidePassed decidePaid
  rw [hacq]
  generalize trimToPay cfg (s.withLog log) req (effectiveSuggestion s req) = paid at hpaid hwindow ⊢
  dsimp only
  split
  · rename_i hlimited
    rw [Bool.and_eq_true, decide_eq_true_eq] at hlimited
    rw [hwindow hlimited.1] at hlimited ⊢
    exact .limited hlimited.2 hpaid
  · rename_i hfree
    split
    · rename_i tenant budget _ _
      rcases hgrant : grant cfg draws paid req (effectiveSuggestion s req) reclaim
        (acquiresNewPort s req (effectiveSuggestion s req)) tenant budget evicted
          with ⟨result, g', evicted'⟩
      have hpays : acquiresNewPort s req (effectiveSuggestion s req) = true →
          windowLog cfg paid req = paid.clientLog req.clientIp ∧
            (paid.clientLog req.clientIp).length < cfg.rateLimitMax := by
        intro hacq'
        rw [hacq', Bool.true_and, decide_eq_true_eq, Nat.not_le] at hfree
        refine ⟨?_, hfree⟩
        rw [hwindow hacq']
        exact hpaid.own.trimLog_eq
      obtain ⟨hspent, hopen⟩ := grant_log hr hpays hgrant
      exact .quiet (hpaid.trans hspent) fun c secs heq => hopen c secs (Step.done.inj heq)
    · exact .quiet hpaid fun c secs heq => by cases heq

/-- **A pass and the client's log.**  A pass that is charged is charged on a window that
was not full, and a pass is limited only if the window is full. -/
theorem decideSwept_log (cfg) (liveWired : Bool) (draws s req answers evicted) :
    PassLog cfg s req (decideSwept cfg liveWired draws s req answers evicted).1
      (decideSwept cfg liveWired draws s req answers evicted).2.1 := by
  have hpre := precheck_log cfg liveWired s req (effectiveSuggestion s req) answers
  rw [decideSwept]
  obtain ⟨log, ⟨question, heq, -⟩ | ⟨error, heq⟩ | ⟨reclaim, heq, hpass⟩⟩ :=
    precheck_cases cfg liveWired s req (effectiveSuggestion s req) answers
  · rw [heq] at hpre ⊢
    cases hpre with
    | asks h => exact .quiet h fun c secs h => by cases h
  · rw [heq] at hpre ⊢
    cases hpre with
    | limited hfull h => exact .limited hfull h
    | refused h => exact .quiet h fun c secs h => by cases h
  · rw [heq] at hpre ⊢
    cases hpre with
    | passes hspent => exact decidePassed_log hpass.reclaim_false hspent answers evicted

theorem PassLog.spends {step : Step} (h : PassLog cfg s req step g') :
    Spends cfg req.now req.clientIp s
      (step.spends (acquiresNewPort s req (effectiveSuggestion s req))) g' := by
  cases h with
  | quiet h _ => exact h
  | limited _ h => exact h

/-- **A pass is limited only if the window is full**, and then told of its oldest entry. -/
theorem PassLog.full {step : Step} (h : PassLog cfg s req step g') {secs : ℕ}
    (hstep : step = .done (.error (.rateLimited c secs))) :
    cfg.rateLimitMax ≤ (windowLog cfg s req).length ∧
      secs = (windowLog cfg s req).head?.elim 0 fun t =>
        windowResetSecs cfg.rateLimitWindow (req.now - t) := by
  cases h with
  | quiet _ hopen => exact absurd hstep (hopen c secs)
  | limited hfull _ =>
    injection hstep with herror
    injection herror with hlimited
    injection hlimited with _ hsecs
    exact ⟨hfull, hsecs.symm⟩

/-! ### Every operation -/

theorem records_takeSlot (g : Inner) (slot : Slot) (deadline : ℕ) :
    (g.takeSlot slot deadline).1.records = g.records := by
  unfold Inner.takeSlot
  split <;> rfl

theorem Freed.records {deadline : ℕ} (h : Freed deadline g g') : g'.records = g.records := by
  induction h with
  | refl => rfl
  | take _ slot ih => exact (records_takeSlot _ slot deadline).trans ih

/-- The operations that write no record. -/
def Op.KeepsRecords : Op → Prop
  | .release _ _ => True
  | .releaseByClient _ _ _ _ => True
  | .takeForIp _ _ => True
  | .takeForPort _ _ => True
  | .takeForSlot _ _ => True
  | _ => False

theorem records_apply (cfg g) {o : Op} (h : o.KeepsRecords) :
    (o.apply cfg g).records = g.records := by
  cases o with
  | release alloc t =>
    show (releaseAt cfg g alloc t).records = g.records
    unfold releaseAt
    split <;> rfl
  | releaseByClient clientIp internalPort proto t =>
    exact (freed_releaseByClientAt cfg g clientIp internalPort proto t).records
  | takeForIp clientIp t => exact (freed_takeActiveForIpAt cfg g clientIp t).records
  | takeForPort port t => exact (freed_takePort g port _).records
  | takeForSlot port proto => rfl
  | trim | pass | restore | revokeForAbuse | rateLimitStatus => exact absurd h id

theorem logged_of_keepsRecords (cfg g) {o : Op} (h : o.KeepsRecords) (c) :
    Logged cfg now (g.clientLog c) false ((o.apply cfg g).clientLog c) := by
  rw [clientLog_congr (log_of_records (records_apply cfg g h))]
  exact .kept

theorem restoreAt_frame (g) (entries : List Allocation) (now) :
    (restoreAt g entries now).1.abuseQuarantineUntil = g.abuseQuarantineUntil ∧
      (restoreAt g entries now).1.rateLimitLog = g.rateLimitLog := by
  refine restoreAt_induction (P := fun acc =>
    acc.1.abuseQuarantineUntil = g.abuseQuarantineUntil ∧ acc.1.rateLimitLog = g.rateLimitLog)
      ⟨rfl, rfl⟩ fun acc entry _ hacc => ?_
  rcases restoreEntry_cases now acc entry with heq | ⟨heq, -⟩
  · rwa [heq]
  · rw [heq]
    exact hacc

theorem rateLimitLog_revokeForAbuseAt (cfg g) (port quarantine now : ℕ) :
    (revokeForAbuseAt cfg g port quarantine now).1.rateLimitLog = g.rateLimitLog := by
  unfold revokeForAbuseAt
  dsimp only
  generalize g.abuseQuarantineUntil.insert port _ = quarantined
  exact (log_of_records (freed_takePort { g with abuseQuarantineUntil := quarantined } port
    (now + cfg.cooldown)).records).trans rfl

theorem clientLog_trimSideMaps (g : Inner) (now window : ℕ) (c) :
    (g.trimSideMaps now window).clientLog c = trimLog now window (g.clientLog c) := by
  show ((g.rateLimitLog.retainMut _).lookup c).getD [] = _
  rw [Table.lookup_retainMut, Inner.clientLog]
  cases g.rateLimitLog.lookup c with
  | none => rfl
  | some log =>
    rw [Option.bind_some, Option.getD_some]
    dsimp only
    split
    · rename_i hnil
      rw [List.isEmpty_iff.mp hnil]
      rfl
    · rfl

def Op.spends (cfg : AllocatorConfig) (g : Inner) (c : Ipv4Addr) : Op → Bool
  | .pass liveWired draws req answers =>
    let s := (g.sweepExpired req.now cfg.cooldown).1
    decide (c = req.clientIp) && (tryAllocate cfg liveWired draws g req answers []).1.spends
      (acquiresNewPort s req (effectiveSuggestion s req))
  | _ => false

/-- **Every operation does to a log what can be done to a log.** -/
theorem logged_apply (cfg g) {o : Op} (hat : o.At now) (c) :
    Logged cfg now (g.clientLog c) (o.spends cfg g c) ((o.apply cfg g).clientLog c) := by
  cases o with
  | trim t =>
    obtain rfl := hat
    show Logged cfg t (g.clientLog c) false ((g.trimSideMaps t cfg.rateLimitWindow).clientLog c)
    rw [clientLog_trimSideMaps]
    exact .trimmed
  | pass liveWired draws req answers =>
    obtain rfl := hat
    rw [← clientLog_congr (log_of_records (records_sweepExpired g req.now cfg.cooldown)) c]
    exact (decideSwept_log cfg liveWired draws _ req answers _).spends.logged c
  | restore entries t =>
    show Logged cfg now (g.clientLog c) false ((restoreAt g entries t).1.clientLog c)
    rw [clientLog_congr (restoreAt_frame g entries t).2]
    exact .kept
  | revokeForAbuse port quarantine t =>
    show Logged cfg now (g.clientLog c) false
      ((revokeForAbuseAt cfg g port quarantine t).1.clientLog c)
    rw [clientLog_congr (rateLimitLog_revokeForAbuseAt cfg g port quarantine t)]
    exact .kept
  | rateLimitStatus clientIp t =>
    obtain rfl := hat
    show Logged cfg t (g.clientLog c) false ((rateLimitStatusAt cfg g clientIp t).2.clientLog c)
    unfold rateLimitStatusAt
    cases g.rateLimitLog.lookup clientIp with
    | none => exact .kept
    | some log =>
      have hlogged : Logged cfg t (g.clientLog c) (decide (c = clientIp) && false)
          ((g.trimClientLog cfg clientIp t).clientLog c) := (Spends.trimClientLog g).logged c
      rwa [Bool.and_false] at hlogged
  | release | releaseByClient | takeForIp | takeForPort | takeForSlot =>
    refine logged_of_keepsRecords cfg g ?_ c
    trivial

end WarrenGuard.NatPmp
