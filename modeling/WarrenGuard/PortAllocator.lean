/-
The NAT-PMP port allocator (`warrenguard-natpmp-server/src/allocator.rs`).

The state of the allocator is one lock's worth of maps: the active mappings, the cooldowns and
quarantines of ports, and the per-client rate-limit logs.  A request is decided in passes
(`tryAllocate`); a pass that needs an answer of the deployer releases the lock, asks, and starts
over (`allocateAtCollecting`).

Design notes: `duration_since` saturates at zero, which is subtraction of naturals.  Ports are
naturals (no port arithmetic of the source leaves its configured range).  The random draws of
`pick_port` are a stream of numbers, each reduced into the range.  The metrics counters and the
release observer are left out: no decision reads them.
-/
import Mathlib.Data.Finset.Card
import WarrenGuard.Basic
import WarrenGuard.Table

namespace WarrenGuard

namespace NatPmp

inductive Proto where
  | tcp
  | udp
deriving DecidableEq, Repr

/-- The result codes of the protocol, which the server and the client share. -/
inductive ResultCode where
  | success
  | unsupportedVersion
  | notAuthorized
  | networkFailure
  | outOfResources
  | unsupportedOpcode
  | suggestedPortUnavailable
  | rateLimited
deriving DecidableEq

/-- The name that `{:?}` prints. -/
def ResultCode.name : ResultCode → String
  | .success => "Success"
  | .unsupportedVersion => "UnsupportedVersion"
  | .notAuthorized => "NotAuthorized"
  | .networkFailure => "NetworkFailure"
  | .outOfResources => "OutOfResources"
  | .unsupportedOpcode => "UnsupportedOpcode"
  | .suggestedPortUnavailable => "SuggestedPortUnavailable"
  | .rateLimited => "RateLimited"

abbrev Slot := ℕ × Proto

structure Allocation where
  externalPort : ℕ
  internalIp : Ipv4Addr
  internalPort : ℕ
  proto : Proto
  expiresAt : ℕ
deriving DecidableEq, Repr

inductive NatPmpError where
  | rateLimited (client : Ipv4Addr) (retryAfterSecs : ℕ)
  | exhausted
  | quotaExceeded (client : Ipv4Addr)
  | suggestedPortInUse (port : ℕ)
deriving DecidableEq, Repr

/-- `AllocatorConfig`; the constructor asserts that the range is not empty. -/
structure AllocatorConfig where
  rangeLow : ℕ
  rangeHigh : ℕ
  cooldown : ℕ
  rateLimitMax : ℕ
  rateLimitWindow : ℕ
  quotaPerClient : ℕ
  range_nonempty : rangeLow ≤ rangeHigh
  range_u16 : rangeHigh < 65536

def AllocatorConfig.warrenDefault : AllocatorConfig where
  rangeLow := 49152
  rangeHigh := 65535
  cooldown := 300 * nanosPerSec
  rateLimitMax := 12
  rateLimitWindow := 60 * nanosPerSec
  quotaPerClient := 5
  range_nonempty := by decide
  range_u16 := by decide

/-- The maps behind the allocator's lock. -/
structure Inner where
  active : Table Slot Allocation
  nextExpiry : Option ℕ
  cooldownUntil : Table ℕ ℕ
  abuseQuarantineUntil : Table ℕ ℕ
  heldSince : Table ℕ ℕ
  lastUserPerPort : Table ℕ (Ipv4Addr × ℕ)
  rateLimitLog : Table Ipv4Addr (List ℕ)
deriving DecidableEq

def Inner.empty : Inner := ⟨∅, none, ∅, ∅, ∅, ∅, ∅⟩

structure MapRequest where
  clientIp : Ipv4Addr
  proto : Proto
  internalPort : ℕ
  suggested : ℕ
  lifetime : ℕ
  now : ℕ

/-- What the deployer answered so far; `none` is "not asked yet". -/
structure DeployerAnswers where
  tenant : Option (Finset Ipv4Addr)
  budget : Option ℕ
  holderLive : Option (Ipv4Addr × Bool)

inductive Question where
  | tenant
  | quotaInputs
  | holderLive (holder : Ipv4Addr)
deriving DecidableEq

inductive Step where
  | done (result : Except NatPmpError Allocation)
  | ask (question : Question)
deriving DecidableEq

/-! ### Helpers of the allocator -/

/-- `next_expiry.map_or(t, |u| u.min(t))`. -/
def earlier (next : Option ℕ) (t : ℕ) : Option ℕ := some (next.elim t fun u => min u t)

variable (cfg : AllocatorConfig) (g : Inner)

def Inner.insertActive (alloc : Allocation) : Inner :=
  { g with
    nextExpiry := earlier g.nextExpiry alloc.expiresAt
    active := g.active.insert (alloc.externalPort, alloc.proto) alloc }

/-- The cooldown of one lapsed lease, armed from its expiry. -/
def Inner.armExpired (now cooldown : ℕ) (g : Inner) (e : Σ _ : Slot, Allocation) : Inner :=
  let ext := e.1.1
  let deadline := e.2.expiresAt + cooldown
  if now < deadline then
    let slot := (g.cooldownUntil.lookup ext).getD deadline
    let last := (g.lastUserPerPort.lookup ext).getD (e.2.internalIp, deadline)
    { g with
      cooldownUntil := g.cooldownUntil.insert ext (max slot deadline)
      lastUserPerPort := g.lastUserPerPort.insert ext
        (if last.2 < deadline then (e.2.internalIp, deadline) else last) }
  else g

/-- `sweep_expired`: the maps without the mappings expired at `now`, whose ports
now cool down, and those mappings. -/
def Inner.sweepExpired (now cooldown : ℕ) : Inner × List Allocation :=
  -- nothing is due before the earliest deadline: the table is not walked
  if g.nextExpiry.all fun t => decide (now < t) then (g, [])
  else
    let kept := g.active.retain fun _ a => decide (now < a.expiresAt)
    let expired := g.active.entries.filter fun e => !decide (now < e.2.expiresAt)
    let swept :=
      { g with
        active := kept
        nextExpiry := kept.entries.foldl (fun next e => earlier next e.2.expiresAt) none }
    (expired.foldl (Inner.armExpired now cooldown) swept, expired.map Sigma.snd)

def trimLog (now window : ℕ) (log : List ℕ) : List ℕ :=
  log.dropWhile fun t => decide (window < now - t)

def Inner.trimSideMaps (now rateWindow : ℕ) : Inner :=
  { g with
    cooldownUntil := g.cooldownUntil.retain fun _ expiry => decide (now < expiry)
    abuseQuarantineUntil := g.abuseQuarantineUntil.retain fun _ expiry => decide (now < expiry)
    heldSince := g.heldSince.retain fun port _ =>
      (g.active.lookup (port, .tcp)).isSome || (g.active.lookup (port, .udp)).isSome
    lastUserPerPort := g.lastUserPerPort.retain fun _ last => decide (now < last.2)
    rateLimitLog := g.rateLimitLog.retainMut fun _ log =>
      let trimmed := trimLog now rateWindow log
      if trimmed.isEmpty then none else some trimmed }

def portInRange (p : ℕ) : Bool :=
  decide (cfg.rangeLow ≤ p) && decide (p ≤ cfg.rangeHigh)

def portOwner (p : ℕ) : Option Ipv4Addr :=
  ((g.active.lookup (p, .tcp)).or (g.active.lookup (p, .udp))).map Allocation.internalIp

/-- Whether `p` may be granted to `clientIp`; `reclaim` is the requester's
tenant on the path of an explicit suggestion. -/
def portEligible (p : ℕ) (clientIp : Ipv4Addr) (now : ℕ)
    (reclaim : Option (Finset Ipv4Addr)) : Bool :=
  if (g.active.lookup (p, .tcp)).isSome || (g.active.lookup (p, .udp)).isSome then false
  else if (g.abuseQuarantineUntil.lookup p).any fun t => decide (now < t) then false
  -- the tenant takes back a port it used last, cooldown or not
  else if reclaim.any fun tenant =>
      (g.lastUserPerPort.lookup p).any fun last =>
        decide (last.1 ∈ tenant) && decide (now < last.2) then true
  else
    ((g.cooldownUntil.lookup p).all fun t => decide (t ≤ now)) &&
      (g.lastUserPerPort.lookup p).all fun last =>
        decide (last.1 ≠ clientIp) || decide (last.2 ≤ now)

def pickPortRandomTries : ℕ := 256

/-- `pick_port`: the port to reuse, else one of the random draws, else the first
eligible port of the range. -/
def pickPort (draws : ℕ → ℕ) (g : Inner) (proto : Proto) (reuse : ℕ)
    (clientIp : Ipv4Addr) (now : ℕ) : Option ℕ :=
  if decide (reuse ≠ 0) && portInRange cfg reuse && (g.active.lookup (reuse, proto)).isNone &&
      (decide (portOwner g reuse = some clientIp) || portEligible g reuse clientIp now none) then
    some reuse
  else
    -- random draws first, then the whole range, so that no eligible port is missed
    let rangeSize := cfg.rangeHigh - cfg.rangeLow + 1
    let tries := min rangeSize pickPortRandomTries
    (((List.range tries).map fun i => cfg.rangeLow + draws i % rangeSize).find? fun p =>
        portEligible g p clientIp now none).or
      ((List.range' cfg.rangeLow rangeSize).find? fun p => portEligible g p clientIp now none)

/-- `window_reset_secs`: whole seconds, rounded up, saturating at `u16::MAX`. -/
def windowResetSecs (window elapsedSinceOldest : ℕ) : ℕ :=
  min ((window - elapsedSinceOldest + (nanosPerSec - 1)) / nanosPerSec) 65535

/-- `clamp_lifetime`, to between a minute and an hour. -/
def clampLifetime (requestedSecs : ℕ) : ℕ := max 60 (min requestedSecs 3600) * nanosPerSec

/-! ### The rate limit -/

def Inner.clientLog (clientIp : Ipv4Addr) : List ℕ :=
  (g.rateLimitLog.lookup clientIp).getD []

/-- Trim the log of `clientIp` to the window, creating it if need be. -/
def Inner.trimClientLog (clientIp : Ipv4Addr) (now : ℕ) :
    Inner :=
  { g with rateLimitLog :=
      g.rateLimitLog.insert clientIp (trimLog now cfg.rateLimitWindow (g.clientLog clientIp)) }

def Inner.chargeClientLog (clientIp : Ipv4Addr) (now : ℕ) : Inner :=
  { g with rateLimitLog := g.rateLimitLog.insert clientIp (g.clientLog clientIp ++ [now]) }

/-- `within_rate_budget`: whether a slot is left, trimming the window on the way. -/
def withinRateBudget (g : Inner) (clientIp : Ipv4Addr) (now : ℕ) :
    Bool × Inner :=
  let g := g.trimClientLog cfg clientIp now
  (decide ((g.clientLog clientIp).length < cfg.rateLimitMax), g)

/-- `RateLimited`, with the seconds until the oldest entry leaves the window. -/
def rateLimitedError (clientIp : Ipv4Addr) (now : ℕ) (log : List ℕ) :
    NatPmpError :=
  .rateLimited clientIp
    (log.head?.elim 0 fun t => windowResetSecs cfg.rateLimitWindow (now - t))

/-! ### One pass of a request -/

/-- The suggestion a request is served with: a quarantined one is dropped. -/
def effectiveSuggestion (g : Inner) (req : MapRequest) : ℕ :=
  if (g.abuseQuarantineUntil.lookup req.suggested).any fun t => decide (req.now < t) then 0
  else req.suggested

def lastUserLive (g : Inner) (p now : ℕ) : Bool :=
  (g.lastUserPerPort.lookup p).any fun last => decide (now < last.2)

/-- `cheap_grantable`: what the allocator's own maps say about a suggestion. -/
def cheapGrantable (g : Inner) (req : MapRequest) (suggested : ℕ)
    (answers : DeployerAnswers) : Except Question Bool :=
  if portInRange cfg suggested &&
      (portOwner g suggested).all fun owner => decide (owner = req.clientIp) then
    match g.active.lookup (suggested, req.proto) with
    | some a =>
      .ok (decide (a.internalIp = req.clientIp) && decide (a.internalPort = req.internalPort))
    | none =>
      -- the other leg of a port the client already holds
      if (portOwner g suggested).isSome then .ok true
      else if lastUserLive g suggested req.now then
        match answers.tenant with
        | none => .error .tenant
        | some tenant => .ok (portEligible g suggested req.clientIp req.now (some tenant))
      else .ok (portEligible g suggested req.clientIp req.now none)
  else .ok false

/-- `reclaim_from_departed_peer`: whether the suggested port is held by another
address of the requester's tenant that has no live session. -/
def reclaimFromDepartedPeer (liveWired : Bool) (g : Inner)
    (req : MapRequest) (suggested : ℕ) (answers : DeployerAnswers) (cheap : Bool) :
    Except Question Bool × Inner :=
  match portOwner g suggested with
  | none => (.ok false, g)
  | some holder =>
    if !cheap && portInRange cfg suggested && decide (holder ≠ req.clientIp) && liveWired then
      -- a client over its rate limit makes the deployer answer nothing
      match withinRateBudget cfg g req.clientIp req.now with
      | (false, g) => (.ok false, g)
      | (true, g) =>
        match answers.holderLive with
        | none => (.error (.holderLive holder), g)
        | some (asked, live) =>
          if decide (asked = holder) && !live then
            match answers.tenant with
            | none => (.error .tenant, g)
            | some tenant => (.ok (decide (holder ∈ tenant)), g)
          else (.ok false, g)
    else (.ok false, g)

/-- The refusal of a suggestion, charged against the rate limit. -/
def refuseSuggestion (g : Inner) (req : MapRequest) (suggested : ℕ) :
    NatPmpError × Inner :=
  let g := g.trimClientLog cfg req.clientIp req.now
  let log := g.clientLog req.clientIp
  if cfg.rateLimitMax ≤ log.length then (rateLimitedError cfg req.clientIp req.now log, g)
  else (.suggestedPortInUse suggested, g.chargeClientLog req.clientIp req.now)

inductive Precheck where
  | ask (question : Question)
  | refuse (error : NatPmpError)
  | pass (reclaim : Bool)

/-- The strict pre-check of an explicit suggestion. -/
def precheck (liveWired : Bool) (g : Inner) (req : MapRequest)
    (suggested : ℕ) (answers : DeployerAnswers) : Precheck × Inner :=
  if suggested = 0 then (.pass false, g)
  else
    match cheapGrantable cfg g req suggested answers with
    | .error question => (.ask question, g)
    | .ok cheap =>
      match reclaimFromDepartedPeer cfg liveWired g req suggested answers cheap with
      | (.error question, g) => (.ask question, g)
      | (.ok reclaim, g) =>
        if cheap || reclaim then (.pass reclaim, g)
        else
          let (error, g) := refuseSuggestion cfg g req suggested
          (.refuse error, g)

def isSameTuple (clientIp : Ipv4Addr) (internalPort : ℕ) (proto : Proto)
    (e : Σ _ : Slot, Allocation) : Bool :=
  decide (e.1.2 = proto) && decide (e.2.internalIp = clientIp) &&
    decide (e.2.internalPort = internalPort)

def sameTuple (req : MapRequest) : List Slot :=
  (g.active.entries.filter (isSameTuple req.clientIp req.internalPort req.proto)).map Sigma.fst

/-- Drop the slots of a refreshed tuple: the maps, the port of the last slot
dropped, and the mappings dropped. -/
def dropSlots : List Slot → Inner → Option ℕ → List Allocation →
    Inner × Option ℕ × List Allocation
  | [], g, held, evicted => (g, held, evicted)
  | key :: keys, g, held, evicted =>
    match g.active.lookup key with
    | some removed =>
      dropSlots keys { g with active := g.active.erase key } (some key.1) (evicted ++ [removed])
    | none => dropSlots keys g held evicted

def heldPorts (tenant : Finset Ipv4Addr) : Finset ℕ :=
  ((g.active.entries.filter fun e => decide (e.2.internalIp ∈ tenant)).map
    fun e => e.1.1).toFinset

def removePort (port : ℕ) : Inner × List Allocation :=
  ({ g with active := (g.active.erase (port, .tcp)).erase (port, .udp) },
    (g.active.lookup (port, .tcp)).toList ++ (g.active.lookup (port, .udp)).toList)

/-- The rest of a pass once nothing is left to ask: the refreshed tuple is
dropped, the quota is checked, the port is chosen and granted. -/
def grant (draws : ℕ → ℕ) (g : Inner) (req : MapRequest)
    (suggested : ℕ) (reclaim acquiresNewPort : Bool) (tenant : Finset Ipv4Addr) (budget : ℕ)
    (evicted : List Allocation) : Except NatPmpError Allocation × Inner × List Allocation :=
  -- dropped before the quota is checked and a port is found, and not put back by a refusal
  let (g, previouslyHeld, evicted) := dropSlots (sameTuple g req) g none evicted
  let held := heldPorts g tenant
  let reusesHeldPort :=
    if suggested ≠ 0 then decide (suggested ∈ held) || decide (previouslyHeld = some suggested)
    else previouslyHeld.isSome
  if !reusesHeldPort && decide (budget ≤ held.card) then
    (.error (.quotaExceeded req.clientIp), g, evicted)
  else
    let (g, reclaimed) := if reclaim then removePort g suggested else (g, [])
    let evicted := evicted ++ reclaimed
    match (if suggested ≠ 0 then some suggested
      else pickPort cfg draws g req.proto (previouslyHeld.getD 0) req.clientIp req.now) with
    | none => (.error .exhausted, g, evicted)
    | some port =>
      let g := if acquiresNewPort then g.chargeClientLog req.clientIp req.now else g
      -- a holding that goes on keeps its start, for the abuse records
      let holdingGoesOn := decide (previouslyHeld = some port) || reclaim ||
        decide (portOwner g port = some req.clientIp)
      let since := match g.heldSince.lookup port with
        | some since => if holdingGoesOn then since else req.now
        | none => req.now
      let alloc : Allocation := ⟨port, req.clientIp, req.internalPort, req.proto,
        req.now + req.lifetime⟩
      (.ok alloc, { g with heldSince := g.heldSince.insert port since }.insertActive alloc, evicted)

def acquiresNewPort (req : MapRequest) (suggested : ℕ) : Bool :=
  !!(sameTuple g req).isEmpty && !(decide (suggested ≠ 0) &&
    decide (portOwner g suggested = some req.clientIp))

/-- The maps with the requester's window trimmed, if the request has to pay for it. -/
def trimToPay (req : MapRequest) (suggested : ℕ) : Inner :=
  if acquiresNewPort g req suggested then g.trimClientLog cfg req.clientIp req.now else g

/-- What a pass does on the maps `g` once the pre-check has let the suggestion pass
and the window is trimmed. -/
def decidePaid (draws : ℕ → ℕ) (g : Inner) (req : MapRequest) (suggested : ℕ)
    (reclaim acquires : Bool) (answers : DeployerAnswers) (evicted : List Allocation) :
    Step × Inner × List Allocation :=
  let log := g.clientLog req.clientIp
  if acquires && decide (cfg.rateLimitMax ≤ log.length) then
    (.done (.error (rateLimitedError cfg req.clientIp req.now log)), g, evicted)
  else
    match answers.tenant, answers.budget with
    | some tenant, some budget =>
      let (result, g, evicted) :=
        grant cfg draws g req suggested reclaim acquires tenant budget evicted
      (.done result, g, evicted)
    -- nothing is dropped while an answer is missing
    | _, _ => (.ask .quotaInputs, g, evicted)

/-- The rest of a pass once the pre-check has let the suggestion pass. -/
def decidePassed (draws : ℕ → ℕ) (g : Inner) (req : MapRequest) (suggested : ℕ) (reclaim : Bool)
    (answers : DeployerAnswers) (evicted : List Allocation) : Step × Inner × List Allocation :=
  decidePaid cfg draws (trimToPay cfg g req suggested) req suggested reclaim
    (acquiresNewPort g req suggested) answers evicted

/-- What `try_allocate` decides once the expired mappings are swept. -/
def decideSwept (liveWired : Bool) (draws : ℕ → ℕ) (g : Inner)
    (req : MapRequest) (answers : DeployerAnswers) (evicted : List Allocation) :
    Step × Inner × List Allocation :=
  let suggested := effectiveSuggestion g req
  match precheck cfg liveWired g req suggested answers with
  | (.ask question, g) => (.ask question, g, evicted)
  | (.refuse error, g) => (.done (.error error), g, evicted)
  | (.pass reclaim, g) => decidePassed cfg draws g req suggested reclaim answers evicted

/-- `try_allocate`: one pass of the decision under the lock. -/
def tryAllocate (liveWired : Bool) (draws : ℕ → ℕ) (g : Inner)
    (req : MapRequest) (answers : DeployerAnswers) (evicted : List Allocation) :
    Step × Inner × List Allocation :=
  let (g, expired) := g.sweepExpired req.now cfg.cooldown
  decideSwept cfg liveWired draws g req answers (evicted ++ expired)

/-! ### A whole request -/

structure Deployer where
  quotaPeers : Option (Ipv4Addr → List Ipv4Addr)
  portBudget : Option (Ipv4Addr → Option ℕ)
  liveSessions : Option (Ipv4Addr → Bool)

def Deployer.unwired : Deployer := ⟨none, none, none⟩

/-- Every address of the requester's tenant, the requester included. -/
def Deployer.tenantOf (deployer : Deployer) (clientIp : Ipv4Addr) : Finset Ipv4Addr :=
  match deployer.quotaPeers with
  | some peers => (peers clientIp ++ [clientIp]).toFinset
  | none => {clientIp}

def Deployer.budgetOf (deployer : Deployer) (clientIp : Ipv4Addr) : ℕ :=
  (deployer.portBudget.bind fun budget => budget clientIp).getD cfg.quotaPerClient

/-- `unasked`: the callbacks that are not wired are answered by their defaults. -/
def Deployer.unasked (deployer : Deployer) (clientIp : Ipv4Addr) :
    DeployerAnswers where
  tenant := if deployer.quotaPeers.isNone then some {clientIp} else none
  budget := if deployer.portBudget.isNone then some cfg.quotaPerClient else none
  holderLive := none

/-- `ask`: put a question to the deployer. -/
def Deployer.ask (deployer : Deployer) (clientIp : Ipv4Addr)
    (answers : DeployerAnswers) : Question → DeployerAnswers
  | .tenant => { answers with tenant := some (deployer.tenantOf clientIp) }
  | .quotaInputs =>
    { answers with
      tenant := some (answers.tenant.getD (deployer.tenantOf clientIp))
      budget := some (answers.budget.getD (deployer.budgetOf cfg clientIp)) }
  | .holderLive holder =>
    { answers with
      holderLive := some (holder, deployer.liveSessions.all fun hasLive => hasLive holder) }

structure AllocateOutcome where
  result : Except NatPmpError Allocation
  evicted : List Allocation

/-- The loop of `allocate_at_collecting`, for at most `fuel` passes. -/
def allocateLoop (cfg : AllocatorConfig) (deployer : Deployer) (draws : ℕ → ℕ) (req : MapRequest) :
    ℕ → Inner → DeployerAnswers → List Allocation → Option (AllocateOutcome × Inner)
  | 0, _, _, _ => none
  | fuel + 1, g, answers, evicted =>
    match tryAllocate cfg deployer.liveSessions.isSome draws g req answers evicted with
    | (.done result, g, evicted) => some (⟨result, evicted⟩, g)
    | (.ask question, g, evicted) =>
      allocateLoop cfg deployer draws req fuel g
        (deployer.ask cfg req.clientIp answers question) evicted

def DeployerAnswers.missing (answers : DeployerAnswers) : ℕ :=
  answers.tenant.isNone.toNat + answers.budget.isNone.toNat + answers.holderLive.isNone.toNat

/-! ### The other operations -/

/-- Start the cooldown of a port that `clientIp` gave up. -/
def Inner.armRelease (port : ℕ) (clientIp : Ipv4Addr) (deadline : ℕ) : Inner :=
  { g with
    cooldownUntil := g.cooldownUntil.insert port deadline
    lastUserPerPort := g.lastUserPerPort.insert port (clientIp, deadline) }

/-- Remove one slot, if it is taken, and start the cooldown of its port. -/
def Inner.takeSlot (slot : Slot) (deadline : ℕ) : Inner × List Allocation :=
  match g.active.lookup slot with
  | some alloc =>
    ({ g with active := g.active.erase slot }.armRelease slot.1 alloc.internalIp deadline, [alloc])
  | none => (g, [])

/-- `release_at`: the address remembered as the last user is the one the caller
names, not the one in the slot. -/
def releaseAt (alloc : Allocation) (now : ℕ) : Inner :=
  match g.active.lookup (alloc.externalPort, alloc.proto) with
  | none => g
  | some _ =>
    { g with active := g.active.erase (alloc.externalPort, alloc.proto) }.armRelease
      alloc.externalPort alloc.internalIp (now + cfg.cooldown)

def releaseByClientAt (clientIp : Ipv4Addr)
    (internalPort : ℕ) (proto : Proto) (now : ℕ) : Option Allocation × Inner :=
  match g.active.entries.find? (isSameTuple clientIp internalPort proto) with
  | none => (none, g)
  | some e =>
    (some e.2, { g with active := g.active.erase e.1 }.armRelease e.1.1 e.2.internalIp
      (now + cfg.cooldown))

/-- The side maps once a mapping is restored: its address is the last user of the
port, with a record that has run out already. -/
def Inner.recordRestored (g : Inner) (now : ℕ) (entry : Allocation) : Inner :=
  { g with
    lastUserPerPort := g.lastUserPerPort.insert entry.externalPort (entry.internalIp, now)
    heldSince := g.heldSince.insert entry.externalPort
      ((g.heldSince.lookup entry.externalPort).getD now) }

/-- One entry of `restore_at`: the mapping goes back into the table unless it
has expired, its slot is taken or its port belongs to another client. -/
def restoreEntry (now : ℕ) (acc : Inner × List Allocation) (entry : Allocation) :
    Inner × List Allocation :=
  let (g, kept) := acc
  if decide (entry.expiresAt ≤ now) ||
      (g.active.lookup (entry.externalPort, entry.proto)).isSome ||
      (portOwner g entry.externalPort).any fun owner => decide (owner ≠ entry.internalIp) then
    (g, kept)
  else ((g.recordRestored now entry).insertActive entry, kept ++ [entry])

def restoreAt (entries : List Allocation) (now : ℕ) : Inner × List Allocation :=
  entries.foldl (restoreEntry now) (g, [])

/-- `take_port`: remove both legs of a port. -/
def takePort (port deadline : ℕ) : Inner × List Allocation :=
  let (g, tcp) := g.takeSlot (port, .tcp) deadline
  let (g, udp) := g.takeSlot (port, .udp) deadline
  (g, tcp ++ udp)

def takeActiveForPortAt (port now : ℕ) :
    Inner × List Allocation :=
  takePort g port (now + cfg.cooldown)

def maxAbuseQuarantine : ℕ := 365 * 24 * 3600 * nanosPerSec

/-- `revoke_for_abuse_at`: the removed mappings, and since when the port was held. -/
def revokeForAbuseAt (port quarantine now : ℕ) :
    Inner × List (Allocation × ℕ) :=
  let until_ := now + min quarantine maxAbuseQuarantine
  let slot := (g.abuseQuarantineUntil.lookup port).getD until_
  let g := { g with abuseQuarantineUntil := g.abuseQuarantineUntil.insert port (max slot until_) }
  let (g, removed) := takePort g port (now + cfg.cooldown)
  let heldSince := (g.heldSince.lookup port).getD now
  ({ g with heldSince := g.heldSince.erase port }, removed.map fun alloc => (alloc, heldSince))

def takeActiveForSlot (port : ℕ) (proto : Proto) : Option Allocation × Inner :=
  (g.active.lookup (port, proto), { g with active := g.active.erase (port, proto) })

/-- `take_active_for_ip_at`: remove every mapping of an address. -/
def takeActiveForIpAt (clientIp : Ipv4Addr) (now : ℕ) :
    Inner × List Allocation :=
  let keys := (g.active.entries.filter fun e => decide (e.2.internalIp = clientIp)).map Sigma.fst
  keys.foldl (fun acc key =>
    let (g, taken) := acc.1.takeSlot key (now + cfg.cooldown)
    (g, acc.2 ++ taken)) (g, [])

/-- `rate_limit_status_at`: the attempts left and the seconds until the oldest
one leaves the window. -/
def rateLimitStatusAt (clientIp : Ipv4Addr) (now : ℕ) :
    (ℕ × ℕ) × Inner :=
  let (log, g) := match g.rateLimitLog.lookup clientIp with
    | some _ =>
      let g := g.trimClientLog cfg clientIp now
      (g.clientLog clientIp, g)
    | none => ([], g)
  ((min (cfg.rateLimitMax - log.length) 255,
    log.head?.elim 0 fun t => windowResetSecs cfg.rateLimitWindow (now - t)), g)

end NatPmp

end WarrenGuard
