/-
A request takes a live port from another address only with the deployer's leave.

The deployer is asked with the lock released, so any operation may come between the question and
the pass that uses the answer.  An `InFlight` request carries what it was answered and, beside it,
the questions that were put for it:

* `Heard` — every answer a request acts on was given to it, by the callbacks of that moment;
* `PassEnds.removes` — a pass removes a mapping of another address only to take over its whole
  port, after both answers about exactly that address;
* `removes_only_from_departed_peer` — the two together, over every interleaving.

The holder may have changed since it was asked about.  The pass compares the address it was told
about with the owner of the port, and by the ownership invariant that one address holds every leg
of it.
-/
import WarrenGuard.PortOwnership

namespace WarrenGuard.NatPmp

/-! ### A request between its passes -/

/-- A request that is under way: the maps, the answers it has, and the questions
put for it with the callbacks that answered them. -/
structure InFlight where
  inner : Inner
  answers : DeployerAnswers
  asked : List (Question × Deployer)

/-- What happens until the last pass of a request: another operation, or a pass
that ends in a question, which the deployer then answers. -/
inductive RequestStep (cfg : AllocatorConfig) (req : MapRequest) (f : InFlight) : InFlight → Prop
  | other {g : Inner} (h : AllocatorStep cfg f.inner g) :
      RequestStep cfg req f { f with inner := g }
  | ask (liveWired : Bool) (draws : ℕ → ℕ) (deployer : Deployer) {question : Question}
      (h : (tryAllocate cfg liveWired draws f.inner req f.answers []).1 = .ask question) :
      RequestStep cfg req f
        ⟨(tryAllocate cfg liveWired draws f.inner req f.answers []).2.1,
          deployer.ask cfg req.clientIp f.answers question, (question, deployer) :: f.asked⟩

/-- A request that was made in a reachable state and has not ended. -/
def UnderWay (cfg : AllocatorConfig) (req : MapRequest) : InFlight → Prop :=
  Transition.Reachable
    (fun f => Reachable cfg f.inner ∧ f.asked = [] ∧
      ∃ deployer : Deployer, f.answers = deployer.unasked cfg req.clientIp)
    (RequestStep cfg req)

def ToldPeer (asked : List (Question × Deployer)) (clientIp x : Ipv4Addr) : Prop :=
  ∃ question deployer, (question, deployer) ∈ asked ∧
    (question = .tenant ∨ question = .quotaInputs) ∧ x ∈ Deployer.tenantOf deployer clientIp

def ToldDeparted (asked : List (Question × Deployer)) (holder : Ipv4Addr) : Prop :=
  ∃ deployer hasLive, (Question.holderLive holder, deployer) ∈ asked ∧
    Deployer.liveSessions deployer = some hasLive ∧ hasLive holder = false

theorem ToldPeer.mono {asked : List (Question × Deployer)} {clientIp x : Ipv4Addr}
    (h : ToldPeer asked clientIp x) (e : Question × Deployer) :
    ToldPeer (e :: asked) clientIp x := by
  obtain ⟨question, deployer, hmem, hq, hx⟩ := h
  exact ⟨question, deployer, List.mem_cons_of_mem e hmem, hq, hx⟩

theorem ToldDeparted.mono {asked : List (Question × Deployer)} {holder : Ipv4Addr}
    (h : ToldDeparted asked holder) (e : Question × Deployer) :
    ToldDeparted (e :: asked) holder := by
  obtain ⟨deployer, hasLive, hmem, hwired, hlive⟩ := h
  exact ⟨deployer, hasLive, List.mem_cons_of_mem e hmem, hwired, hlive⟩

/-- **Every answer was given**: the maps are reachable, a peer in the answers was
named by the deployer, and so was a holder that has left. -/
structure Heard (cfg : AllocatorConfig) (clientIp : Ipv4Addr) (f : InFlight) : Prop where
  reachable : Reachable cfg f.inner
  peer : ∀ tenant x, f.answers.tenant = some tenant → x ∈ tenant → x ≠ clientIp →
    ToldPeer f.asked clientIp x
  departed : ∀ holder, f.answers.holderLive = some (holder, false) → ToldDeparted f.asked holder

variable {cfg : AllocatorConfig} {req : MapRequest} {f f' : InFlight}

theorem heard_unasked {g : Inner} (h : Reachable cfg g) (deployer : Deployer)
    (clientIp : Ipv4Addr) : Heard cfg clientIp ⟨g, deployer.unasked cfg clientIp, []⟩ := by
  refine ⟨h, fun tenant x htenant hx hne => ?_, fun holder hlive => ?_⟩
  · unfold Deployer.unasked at htenant
    dsimp only at htenant
    split at htenant
    · obtain rfl := Option.some.inj htenant
      exact absurd (Finset.mem_singleton.mp hx) hne
    · cases htenant
  · cases hlive

theorem Heard.ask {clientIp : Ipv4Addr} (h : Heard cfg clientIp f) {g : Inner}
    (hg : Reachable cfg g) (deployer : Deployer) (question : Question) :
    Heard cfg clientIp
      ⟨g, deployer.ask cfg clientIp f.answers question, (question, deployer) :: f.asked⟩ := by
  have hpeer : ∀ tenant x, f.answers.tenant = some tenant → x ∈ tenant → x ≠ clientIp →
      ToldPeer ((question, deployer) :: f.asked) clientIp x :=
    fun tenant x ht hx hne => (h.peer tenant x ht hx hne).mono _
  have hdeparted : ∀ holder, f.answers.holderLive = some (holder, false) →
      ToldDeparted ((question, deployer) :: f.asked) holder :=
    fun holder hlive => (h.departed holder hlive).mono _
  cases question with
  | tenant =>
    refine ⟨hg, fun tenant x htenant hx _ => ?_, hdeparted⟩
    obtain rfl := Option.some.inj htenant
    exact ⟨.tenant, deployer, List.mem_cons_self, .inl rfl, hx⟩
  | quotaInputs =>
    refine ⟨hg, fun tenant x htenant hx hne => ?_, hdeparted⟩
    -- a tenant that was known before is not asked for again
    rcases hknown : f.answers.tenant with _ | known
    · rw [Deployer.ask, hknown] at htenant
      obtain rfl := Option.some.inj htenant
      exact ⟨.quotaInputs, deployer, List.mem_cons_self, .inr rfl, hx⟩
    · rw [Deployer.ask, hknown] at htenant
      obtain rfl := Option.some.inj htenant
      exact hpeer known x hknown hx hne
  | holderLive holder =>
    refine ⟨hg, hpeer, fun holder' hlive => ?_⟩
    obtain ⟨rfl, hall⟩ := Prod.mk.inj (Option.some.inj hlive)
    rcases hwired : deployer.liveSessions with _ | hasLive
    · rw [hwired] at hall
      cases hall
    · rw [hwired] at hall
      exact ⟨deployer, hasLive, List.mem_cons_self, hwired, hall⟩

/-- **A request acts on nothing it was not told.** -/
theorem UnderWay.heard (h : UnderWay cfg req f) : Heard cfg req.clientIp f := by
  refine Transition.Reachable.invariant ?_ ?_ h
  · rintro ⟨g, answers, asked⟩ ⟨hg, rfl, deployer, rfl⟩
    exact heard_unasked hg deployer req.clientIp
  · rintro f f' hf hstep
    cases hstep with
    | other hstep => exact ⟨hf.reachable.next hstep, hf.peer, hf.departed⟩
    | ask liveWired draws deployer hask =>
      exact hf.ask (hf.reachable.next (.op (.pass liveWired draws req f.answers))) deployer _

/-! ### What a pass removes -/

variable {liveWired : Bool} {draws : ℕ → ℕ} {answers : DeployerAnswers} {s : Inner} {step : Step}
  {active : Table Slot Allocation}

/-- **A pass removes a mapping of another address only to take over its port**,
after both answers about exactly that address; and then nothing of the port is
left but the granted mapping. -/
theorem PassEnds.removes (hwf : Wf s)
    (hends : PassEnds cfg liveWired draws s req answers step active) {slot : Slot} {a : Allocation}
    (hlook : s.active.lookup slot = some a) (hother : a.internalIp ≠ req.clientIp)
    (hgone : active.lookup slot ≠ some a) :
    answers.holderLive = some (a.internalIp, false) ∧
      (∃ tenant, answers.tenant = some tenant ∧ a.internalIp ∈ tenant) ∧
      ∃ b, step = .done (.ok b) ∧ b.externalPort = slot.1 ∧
        ∀ proto b', active.lookup (slot.1, proto) = some b' → b' = b := by
  have hkept : (dropTuple s req).active.lookup slot = some a :=
    lookup_dropTuple_of_other hlook hother
  obtain hsame | hdropped | ⟨reclaim, b, hstep, hpre, hgrant⟩ := hends.active_cases
  · exact absurd (hsame ▸ hlook) hgone
  · exact absurd (hdropped ▸ hkept) hgone
  obtain ⟨hpass, -, -, -, hport⟩ := hgrant
  rename_i tenant budget port
  have hslot := Table.lookup_insert' (grantBase s req (effectiveSuggestion s req) reclaim).active
    (port, req.proto)
  cases reclaim with
  | false =>
    -- without a reclaim the granted slot was free or the requester's own
    exfalso
    rw [hslot] at hgone
    by_cases heq : slot = (port, req.proto)
    · subst heq
      have howner := (hwf.shrink (shrinks_dropTuple s req)).single port req.proto a hkept
      exact hother (hwf.grant_owner hpass hport howner)
    · rw [if_neg heq] at hgone
      exact hgone hkept
  | true =>
    cases hpass with
    | reclaim hne =>
      obtain ⟨-, rfl⟩ := hport.resolve_right fun hzero => hne hzero.1
      have hbase := lookup_removePort (dropTuple s req) (effectiveSuggestion s req)
      change ∀ slot, (grantBase s req (effectiveSuggestion s req) true).active.lookup slot = _
        at hbase
      -- only the two slots of the reclaimed port are taken off the table
      have hslot1 : slot.1 = effectiveSuggestion s req := by
        by_contra hne'
        refine hgone ?_
        rw [hslot, if_neg fun heq => hne' (congrArg Prod.fst heq), hbase, if_neg hne', hkept]
      obtain ⟨holder, tenant', howner, hlive, htenant, hmem⟩ := precheck_reclaim hpre
      obtain rfl : holder = a.internalIp := by
        have hown := hwf.single slot.1 slot.2 a hlook
        rw [hslot1, howner] at hown
        exact Option.some.inj hown
      refine ⟨hlive, ⟨tenant', htenant, hmem⟩, _, hstep, hslot1.symm, fun proto b' hb' => ?_⟩
      rw [hslot1, hslot] at hb'
      split at hb'
      · exact (Option.some.inj hb').symm
      · -- the other slot of the port is free
        rw [hbase, if_pos rfl] at hb'
        cases hb'

/-- **No port theft.**  For every reachable state, every request of an address and
every interleaving of other operations with its passes: if a pass removes an
unexpired mapping of another address, the deployer had answered in this request
that this address is of the requester's tenant, and that exactly this address has
no live session; and then the pass ends in the grant of that port, and no other
leg of the port is left. -/
theorem removes_only_from_departed_peer (h : UnderWay cfg req f) (liveWired : Bool)
    (draws : ℕ → ℕ) {slot : Slot} {a : Allocation} (hlook : f.inner.active.lookup slot = some a)
    (hother : a.internalIp ≠ req.clientIp) (hlive : req.now < a.expiresAt)
    (hgone : (tryAllocate cfg liveWired draws f.inner req f.answers []).2.1.active.lookup slot
      ≠ some a) :
    ToldPeer f.asked req.clientIp a.internalIp ∧ ToldDeparted f.asked a.internalIp ∧
      ∃ b, (tryAllocate cfg liveWired draws f.inner req f.answers []).1 = .done (.ok b) ∧
        b.externalPort = slot.1 ∧
        ∀ proto b', (tryAllocate cfg liveWired draws f.inner req f.answers []).2.1.active.lookup
          (slot.1, proto) = some b' → b' = b := by
  have hheard := h.heard
  have hwf := reachable_wf hheard.reachable
  -- the sweep leaves what has not expired
  have hswept : (f.inner.sweepExpired req.now cfg.cooldown).1.active.lookup slot = some a := by
    rw [hwf.active_sweep, Table.lookup_retain, hlook]
    simp [hlive]
  obtain ⟨hdeparted, ⟨tenant, htenant, hmem⟩, hgrant⟩ :=
    (tryAllocate_ends cfg liveWired draws f.inner req f.answers []).removes
      (hwf.sweepExpired req.now cfg.cooldown) hswept hother hgone
  exact ⟨hheard.peer tenant _ htenant hmem hother, hheard.departed _ hdeparted, hgrant⟩

/-! ### A port taken back from a departed address -/

def departedPeer : Deployer :=
  ⟨some fun _ => [1, 2], none, some fun ip => decide (ip ≠ 1)⟩

def takeBack : MapRequest := ⟨2, .tcp, 80, 49152, clampLifetime 60, 0⟩

def departedHolds : Inner :=
  Op.apply .warrenDefault Inner.empty
    (.pass false id ⟨1, .tcp, 80, 49152, clampLifetime 60, 0⟩ ⟨some {1}, some 1, none⟩)

/-- The request after its two questions: is address 1 live, and who is the tenant. -/
def takeBackAsked : InFlight :=
  ⟨(tryAllocate .warrenDefault true id
      (tryAllocate .warrenDefault true id departedHolds takeBack
        (departedPeer.unasked .warrenDefault 2) []).2.1 takeBack
      (departedPeer.ask .warrenDefault 2 (departedPeer.unasked .warrenDefault 2) (.holderLive 1))
      []).2.1,
    departedPeer.ask .warrenDefault 2
      (departedPeer.ask .warrenDefault 2 (departedPeer.unasked .warrenDefault 2) (.holderLive 1))
      .tenant,
    [(.tenant, departedPeer), (.holderLive 1, departedPeer)]⟩

theorem underWay_takeBackAsked : UnderWay .warrenDefault takeBack takeBackAsked := by
  have hreach : Reachable .warrenDefault departedHolds := .next (.start rfl) (.op _)
  have hstart : UnderWay .warrenDefault takeBack
      ⟨departedHolds, departedPeer.unasked .warrenDefault 2, []⟩ :=
    .start ⟨hreach, rfl, departedPeer, rfl⟩
  have hlive := hstart.next (.ask true id departedPeer rfl)
  exact hlive.next (.ask true id departedPeer rfl)

theorem removes_only_from_departed_peer_takeBack :
    takeBackAsked.inner.active.lookup (49152, .tcp)
      = some ⟨49152, 1, 80, .tcp, 60 * nanosPerSec⟩ ∧
    ToldPeer takeBackAsked.asked 2 1 ∧ ToldDeparted takeBackAsked.asked 1 ∧
    ∃ b, (tryAllocate .warrenDefault true id takeBackAsked.inner takeBack takeBackAsked.answers
      []).1 = .done (.ok b) ∧ b.externalPort = 49152 := by
  have hlook : takeBackAsked.inner.active.lookup (49152, .tcp)
      = some ⟨49152, 1, 80, .tcp, 60 * nanosPerSec⟩ := by decide
  obtain ⟨hpeer, hdeparted, b, hb, hport, -⟩ :=
    removes_only_from_departed_peer underWay_takeBackAsked true id hlook (by decide) (by decide)
      (by decide)
  exact ⟨hlook, hpeer, hdeparted, b, hb, hport⟩

end WarrenGuard.NatPmp
