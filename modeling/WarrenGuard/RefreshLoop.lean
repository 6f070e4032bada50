/-
The refresh loop of a port-forward rule (`warrenguard-natpmp-client/src/refresh.rs`).

Each cycle asks for the UDP leg and then for the TCP leg on the port that the UDP leg got, and
sleeps until the mappings are to be renewed.  Before the loop ends with an error, it releases the
legs it was granted in the cycle that failed, "so the user never ends up with a half-forwarded
port".  Legs that an earlier cycle was granted are still there.

* `Sound` — the legs before the one that is asked for were granted in this cycle;
* `Sound.step_failed` — where the loop fails, and what the server holds then;
* `foldl_held`, `Kept` — until then it holds what it was granted, the UDP leg with the TCP leg;
* `failed_whole_iff` — exactly when a pair is not left half forwarded; `failed_half` — a renewed
  UDP leg and a refused TCP leg leave the TCP leg behind.

Design notes: the server is the set of legs that it holds.  It grants a leg while that is asked
for, and the answer may get lost afterwards.
-/
import WarrenGuard.PortAllocator
import WarrenGuard.Transition

namespace WarrenGuard.NatPmpClient

open NatPmp (Proto ResultCode)

/-! ### Answers and events -/

structure RateLimitInfo where
  attemptsRemaining : UInt8
  windowResetSecs : UInt16
deriving DecidableEq

/-- The fields of a mapping that the loop reads. -/
structure NatPmpMapping where
  externalPort : ℕ
  lifetimeSecs : ℕ
  epochSecs : ℕ
  rateLimit : Option RateLimitInfo
deriving DecidableEq

inductive NatPmpClientError where
  | io (text : String)
  | timeout
  | parse (text : String)
  | server (code : ResultCode)
  | rateLimited (retryAfterSecs : ℕ)
  | unexpectedOpcode
deriving DecidableEq

def NatPmpClientError.toText : NatPmpClientError → String
  | .io text => "io: " ++ text
  | .timeout => "timeout waiting for NAT-PMP response"
  | .parse text => "invalid response: " ++ text
  | .server code => "server returned error: " ++ code.name
  | .rateLimited retryAfterSecs =>
    "rate limited by exit; retry after " ++ toString retryAfterSecs ++ "s"
  | .unexpectedOpcode => "unexpected response opcode (expected map mapping)"

inductive NatPmpFailureReason where
  | suggestedPortInUse
  | outOfResources
  | notAuthorized
  | other
deriving DecidableEq

def NatPmpFailureReason.fromClientError : NatPmpClientError → NatPmpFailureReason
  | .server .suggestedPortUnavailable => .suggestedPortInUse
  | .server .outOfResources => .outOfResources
  | .server .notAuthorized => .notAuthorized
  | _ => .other

inductive NatPmpEvent where
  | mapped (externalPort lifetimeSecs : ℕ) (attemptsRemaining : Option UInt8)
      (windowResetSecs : UInt16)
  | renewed (externalPort lifetimeSecs : ℕ) (attemptsRemaining : Option UInt8)
      (windowResetSecs : UInt16)
  | rateLimited (retryAfterSecs : ℕ)
  | failed (error : String) (reason : NatPmpFailureReason)
  | cancelled
deriving DecidableEq

/-! ### The rule -/

inductive SuggestionKind where
  | pinned
  | sticky
deriving DecidableEq

inductive ForwardProtos where
  | udp
  | tcp
  | both
deriving DecidableEq

def ForwardProtos.legs : ForwardProtos → List Proto
  | .udp => [.udp]
  | .tcp => [.tcp]
  | .both => [.udp, .tcp]

structure RefreshLoopConfig where
  protos : ForwardProtos
  internalPort : ℕ
  suggestedExternalPort : ℕ
  lifetimeSecs : ℕ
  suggestion : SuggestionKind
  /-- What the provider of credentials returns when it is consulted for the `n`-th time. -/
  credential : Option (ℕ → Option (List UInt8))

def minLifetimeForRefresh : ℕ := 2

def initialBackoffSecs : ℕ := 5

def maxBackoffSecs : ℕ := 60

def maxInitialMapAttempts : ℕ := 3

def pinnedConflictRetryWindowSecs : ℕ := 600

def pinnedConflictMaxBackoffSecs : ℕ := 30

/-- How long to wait for a pinned port that is taken, unless that has been long enough. -/
def pinnedConflictRetryDelay (waitedSecs : ℕ) : Option ℕ :=
  if waitedSecs < pinnedConflictRetryWindowSecs then
    some (max 1 (min waitedSecs pinnedConflictMaxBackoffSecs))
  else none

def epochIndicatesRestart (prevEpochSecs newEpochSecs : ℕ) : Bool :=
  decide (newEpochSecs < prevEpochSecs)

/-! ### The loop -/

/-- The variables that live from cycle to cycle. -/
structure Vars where
  suggestedExternalPort : ℕ
  isFirst : Bool
  initialTransientFailures : ℕ
  backoffSecs : ℕ
  pinnedConflictWaited : ℕ
  lastEpochSecs : Option ℕ
  /-- How many cycles have begun. -/
  cycles : ℕ
deriving DecidableEq

def Vars.new (config : RefreshLoopConfig) : Vars :=
  ⟨config.suggestedExternalPort, true, 0, initialBackoffSecs, 0, none, 0⟩

structure Cycle where
  legIndex : ℕ
  grantedThisCycle : List Proto
  pairPort : ℕ
  minLifetime : ℕ
  externalPort : ℕ
  rateLimit : Option RateLimitInfo
  epochSecs : ℕ
  credential : Option (List UInt8)
deriving DecidableEq

def Cycle.new (config : RefreshLoopConfig) (vars : Vars) : Cycle :=
  ⟨0, [], vars.suggestedExternalPort, 2 ^ 32 - 1, 0, none, 0,
    config.credential.bind fun provider => provider vars.cycles⟩

/-- What the task waits for, or how it ended. -/
inductive Phase where
  | requesting (cycle : Cycle)
  /-- A sleep, and how much of it counts as waiting for a pinned port. -/
  | sleeping (secs waitedSecs : ℕ)
  | failed
  | cancelled
  /-- Nobody listens to the events any more. -/
  | unobserved
deriving DecidableEq

structure RefreshLoop where
  vars : Vars
  phase : Phase
  held : Finset Proto
  listening : Bool
  events : List NatPmpEvent
deriving DecidableEq

inductive Input where
  /-- The server maps the leg that is asked for. -/
  | grant
  | answer (result : Except NatPmpClientError NatPmpMapping)
  | elapsed
  | cancel
  /-- The receiver of the events is dropped. -/
  | hangUp

inductive Reaction where
  | waitForSlot (retryAfterSecs : ℕ)
  | serverPick
  | waitForPort (delaySecs : ℕ)
  /-- The pinned port did not come back. -/
  | portTaken
  | refused
  | noAnswer
  | backOff
deriving DecidableEq

def react (config : RefreshLoopConfig) (vars : Vars) (legIndex : ℕ)
    (error : NatPmpClientError) : Reaction :=
  match error with
  | .rateLimited retryAfterSecs => .waitForSlot retryAfterSecs
  | error =>
    if error = .server .suggestedPortUnavailable ∧ legIndex = 0 ∧
        config.suggestion = .sticky ∧ vars.suggestedExternalPort ≠ 0 then .serverPick
    else if error = .server .suggestedPortUnavailable ∧ legIndex = 0 ∧
        config.suggestion = .pinned ∧ vars.suggestedExternalPort ≠ 0 then
      match pinnedConflictRetryDelay vars.pinnedConflictWaited with
      | none => .portTaken
      | some delaySecs => .waitForPort delaySecs
    else if .fromClientError error ≠ NatPmpFailureReason.other then .refused
    else if vars.isFirst ∧ maxInitialMapAttempts ≤ vars.initialTransientFailures + 1 then .noAnswer
    else .backOff

namespace RefreshLoop

def send (s : RefreshLoop) (event : NatPmpEvent) : RefreshLoop :=
  if s.listening then { s with events := s.events ++ [event] } else s

/-- `send_release` of each leg, which the server follows. -/
def sendReleases (s : RefreshLoop) (granted : List Proto) : RefreshLoop :=
  { s with held := granted.foldl Finset.erase s.held }

variable (config : RefreshLoopConfig)

/-- `continue 'cycle`. -/
def beginCycle (s : RefreshLoop) : RefreshLoop :=
  { s with
    vars := { s.vars with cycles := s.vars.cycles + 1 }
    phase := .requesting (.new config s.vars) }

def fail (s : RefreshLoop) (error : NatPmpClientError) : RefreshLoop :=
  { s.send (.failed error.toText (.fromClientError error)) with phase := .failed }

def endCycle (s : RefreshLoop) (cycle : Cycle) : RefreshLoop :=
  let attemptsRemaining := cycle.rateLimit.map RateLimitInfo.attemptsRemaining
  let windowResetSecs := (cycle.rateLimit.map RateLimitInfo.windowResetSecs).getD 0
  let restart := s.vars.lastEpochSecs.any fun prev => epochIndicatesRestart prev cycle.epochSecs
  let event :=
    if s.vars.isFirst || restart then
      NatPmpEvent.mapped cycle.externalPort cycle.minLifetime attemptsRemaining windowResetSecs
    else .renewed cycle.externalPort cycle.minLifetime attemptsRemaining windowResetSecs
  let s := { s with vars := { s.vars with lastEpochSecs := some cycle.epochSecs } }
  if s.listening then
    { s.send event with
      vars := { s.vars with isFirst := false }
      phase := .sleeping (max cycle.minLifetime minLifetimeForRefresh / 2) 0 }
  else { s with phase := .unobserved }

def onMapped (s : RefreshLoop) (cycle : Cycle) (proto : Proto)
    (mapping : NatPmpMapping) : RefreshLoop :=
  let s := { s with
    vars := { s.vars with backoffSecs := initialBackoffSecs, pinnedConflictWaited := 0 } }
  let cycle := { cycle with
    pairPort := mapping.externalPort
    externalPort := mapping.externalPort
    minLifetime := min cycle.minLifetime mapping.lifetimeSecs
    rateLimit := mapping.rateLimit.or cycle.rateLimit
    epochSecs := mapping.epochSecs
    grantedThisCycle := cycle.grantedThisCycle ++ [proto]
    legIndex := cycle.legIndex + 1 }
  if cycle.legIndex < config.protos.legs.length then { s with phase := .requesting cycle }
  else s.endCycle cycle

def onError (s : RefreshLoop) (cycle : Cycle)
    (error : NatPmpClientError) : RefreshLoop :=
  match react config s.vars cycle.legIndex error with
  | .waitForSlot retryAfterSecs =>
    { s.send (.rateLimited retryAfterSecs) with
      phase := .sleeping (max 1 (min retryAfterSecs 120)) 0 }
  | .serverPick => beginCycle config { s with vars := { s.vars with suggestedExternalPort := 0 } }
  | .waitForPort delaySecs => { s with phase := .sleeping delaySecs delaySecs }
  | .portTaken => s.fail error
  | .refused => (s.sendReleases cycle.grantedThisCycle).fail error
  | .noAnswer => (s.sendReleases cycle.grantedThisCycle).fail error
  | .backOff =>
    { s with
      vars := { s.vars with
        initialTransientFailures :=
          if s.vars.isFirst then s.vars.initialTransientFailures + 1
          else s.vars.initialTransientFailures
        backoffSecs := min (s.vars.backoffSecs * 2) maxBackoffSecs }
      phase := .sleeping s.vars.backoffSecs 0 }

def asked (s : RefreshLoop) : Option Proto :=
  match s.phase with
  | .requesting cycle => config.protos.legs[cycle.legIndex]?
  | _ => none

def step (s : RefreshLoop) : Input → RefreshLoop
  | .grant =>
    match s.asked config with
    | some proto => { s with held := insert proto s.held }
    | none => s
  | .answer result =>
    match s.phase with
    | .requesting cycle =>
      match config.protos.legs[cycle.legIndex]?, result with
      | some proto, .ok mapping => onMapped config s cycle proto mapping
      | some _, .error error => onError config s cycle error
      | none, _ => s
    | _ => s
  | .elapsed =>
    match s.phase with
    | .sleeping _ waitedSecs =>
      beginCycle config { s with
        vars := { s.vars with
          -- `saturating_add`
          pinnedConflictWaited := min (s.vars.pinnedConflictWaited + waitedSecs) (2 ^ 32 - 1) } }
    | _ => s
  | .cancel =>
    match s.phase with
    | .requesting _ | .sleeping _ _ => { s.send .cancelled with phase := .cancelled }
    | _ => s
  | .hangUp => { s with listening := false }

def Possible (s : RefreshLoop) : Input → Prop
  | .answer (.ok _) => ∃ proto ∈ s.asked config, proto ∈ s.held
  | _ => True

instance (s : RefreshLoop) :
    (input : Input) → Decidable (Possible config s input)
  | .answer (.ok _) => inferInstanceAs (Decidable (∃ proto ∈ s.asked config, proto ∈ s.held))
  | .answer (.error _) => inferInstanceAs (Decidable True)
  | .grant => inferInstanceAs (Decidable True)
  | .elapsed => inferInstanceAs (Decidable True)
  | .cancel => inferInstanceAs (Decidable True)
  | .hangUp => inferInstanceAs (Decidable True)

def start : RefreshLoop :=
  ⟨{ Vars.new config with cycles := 1 }, .requesting (.new config (.new config)), ∅, true, []⟩

def Reached : RefreshLoop → Prop :=
  Transition.Reachable (· = start config) (Transition.Guarded (Possible config) (step config))

variable {config : RefreshLoopConfig} {s : RefreshLoop}

variable {cycle : Cycle} {error : NatPmpClientError} {input : Input}

theorem asked_eq (hphase : s.phase = .requesting cycle) :
    s.asked config = config.protos.legs[cycle.legIndex]? := by
  rw [asked, hphase]

/-- **What a step does.** -/
theorem step_cases (config s input) :
    (∃ proto, s.asked config = some proto ∧
        step config s input = { s with held := insert proto s.held }) ∨
      (∃ cycle proto mapping, input = .answer (.ok mapping) ∧ s.phase = .requesting cycle ∧
        config.protos.legs[cycle.legIndex]? = some proto ∧
        step config s input = s.onMapped config cycle proto mapping) ∨
      (∃ cycle error, s.phase = .requesting cycle ∧
        step config s input = s.onError config cycle error) ∨
      (∃ vars, step config s input = beginCycle config { s with vars := vars }) ∨
      step config s input = { s.send .cancelled with phase := .cancelled } ∨
      step config s input = { s with listening := false } ∨ step config s input = s := by
  unfold step
  cases input with
  | grant =>
    dsimp only
    split
    · rename_i proto hasked
      exact .inl ⟨proto, hasked, rfl⟩
    · simp
  | answer result =>
    dsimp only
    split
    · rename_i cycle hphase
      split
      · rename_i proto mapping hleg
        exact .inr (.inl ⟨cycle, proto, mapping, rfl, hphase, hleg, rfl⟩)
      · exact .inr (.inr (.inl ⟨cycle, _, hphase, rfl⟩))
      · simp
    · simp
  | elapsed =>
    dsimp only
    split
    · exact .inr (.inr (.inr (.inl ⟨_, rfl⟩)))
    · simp
  | cancel =>
    dsimp only
    split
    · simp
    · simp
    · simp
  | hangUp => simp

/-! ### What holds in every state -/

/-- **The legs before the one that is asked for were granted in this cycle.** -/
def Sound (config : RefreshLoopConfig) (s : RefreshLoop) : Prop :=
  ∀ cycle, s.phase = .requesting cycle → cycle.legIndex < config.protos.legs.length ∧
    cycle.grantedThisCycle = config.protos.legs.take cycle.legIndex

theorem legs_pos (protos : ForwardProtos) : 0 < protos.legs.length := by
  cases protos <;> decide

theorem send_held (event : NatPmpEvent) : (s.send event).held = s.held := by
  unfold send
  split <;> rfl

theorem onMapped_requesting {proto : Proto} {mapping : NatPmpMapping} {next : Cycle}
    (h : (s.onMapped config cycle proto mapping).phase = .requesting next) :
    next.legIndex = cycle.legIndex + 1 ∧ next.legIndex < config.protos.legs.length
      ∧ next.grantedThisCycle = cycle.grantedThisCycle ++ [proto] := by
  unfold onMapped endCycle at h
  dsimp only at h
  split at h
  · rename_i hnext
    cases h
    exact ⟨rfl, hnext, rfl⟩
  · split at h
    · cases h
    · cases h

/-- After an error the next request is for the first leg. -/
theorem onError_requesting {next : Cycle}
    (h : (s.onError config cycle error).phase = .requesting next) :
    next.legIndex = 0 ∧ next.grantedThisCycle = [] := by
  unfold onError at h
  split at h
  case h_2 =>
    cases h
    exact ⟨rfl, rfl⟩
  all_goals cases h

theorem Sound.step (h : Sound config s) (input) : Sound config (step config s input) := by
  intro next hnext
  rcases step_cases config s input with ⟨proto, -, hstep⟩ |
    ⟨cycle, proto, mapping, -, hphase, hleg, hstep⟩ | ⟨cycle, error, -, hstep⟩ |
      ⟨vars, hstep⟩ | hstep | hstep | hstep
  all_goals rw [hstep] at hnext
  · exact h next hnext
  · obtain ⟨hindex, hlt, hgranted⟩ := onMapped_requesting hnext
    refine ⟨hlt, ?_⟩
    rw [hgranted, hindex, (h cycle hphase).2, List.take_add_one, hleg]
    rfl
  · obtain ⟨hindex, hgranted⟩ := onError_requesting hnext
    rw [hindex, hgranted]
    exact ⟨legs_pos _, rfl⟩
  · cases hnext
    exact ⟨legs_pos _, rfl⟩
  · cases hnext
  · exact h next hnext
  · exact h next hnext

theorem Reached.sound (h : Reached config s) : Sound config s := by
  refine Transition.Reachable.invariant ?_ ?_ h
  · rintro _ rfl cycle hphase
    cases hphase
    exact ⟨legs_pos _, rfl⟩
  · rintro s _ hsound ⟨input, -, rfl⟩
    exact hsound.step input

/-! ### How the loop fails -/

theorem onMapped_phase (s : RefreshLoop) (cycle) (proto : Proto) (mapping : NatPmpMapping) :
    (s.onMapped config cycle proto mapping).phase ≠ .failed := by
  unfold onMapped endCycle
  dsimp only
  split
  · exact nofun
  · split
    · exact nofun
    · exact nofun

/-- A pinned port is given up on the first leg. -/
theorem react_portTaken {vars : Vars} {legIndex : ℕ}
    (h : react config vars legIndex error = .portTaken) : legIndex = 0 := by
  unfold react at h
  split at h
  · cases h
  split at h
  · cases h
  split at h
  · rename_i hpinned
    exact hpinned.2.1
  split at h
  · cases h
  split at h
  · cases h
  · cases h

theorem Sound.onError_failed (h : Sound config s)
    (hphase : s.phase = .requesting cycle)
    (hfail : (s.onError config cycle error).phase = .failed) :
    (s.onError config cycle error).held
      = (config.protos.legs.take cycle.legIndex).foldl Finset.erase s.held := by
  obtain ⟨-, hgranted⟩ := h cycle hphase
  rw [← hgranted]
  unfold RefreshLoop.onError at hfail ⊢
  split at hfail
  · cases hfail
  · cases hfail
  · cases hfail
  · rename_i hreact
    -- the pinned port is given up on the first leg, where nothing has been granted
    rw [hgranted, react_portTaken hreact]
    exact send_held _
  · exact send_held _
  · exact send_held _
  · cases hfail

/-- **The loop fails** on an error, and leaves what was not granted in the last cycle. -/
theorem Sound.step_failed (h : Sound config s) (hrunning : s.phase ≠ .failed)
    (hfail : (RefreshLoop.step config s input).phase = .failed) :
    ∃ cycle, s.phase = .requesting cycle ∧ cycle.legIndex < config.protos.legs.length ∧
      (RefreshLoop.step config s input).held
        = (config.protos.legs.take cycle.legIndex).foldl Finset.erase s.held := by
  rcases step_cases config s input with ⟨proto, -, hstep⟩ |
    ⟨cycle, proto, mapping, -, -, -, hstep⟩ |
    ⟨cycle, error, hphase, hstep⟩ | ⟨vars, hstep⟩ | hstep | hstep | hstep
  all_goals rw [hstep] at hfail
  · exact absurd hfail hrunning
  · exact absurd hfail (onMapped_phase s cycle proto mapping)
  · rw [hstep]
    exact ⟨cycle, hphase, (h cycle hphase).1, h.onError_failed hphase hfail⟩
  · cases hfail
  · cases hfail
  · exact absurd hfail hrunning
  · exact absurd hfail hrunning

/-! ### What the server holds -/

/-- The leg that an input grants. -/
def granted (config : RefreshLoopConfig) (s : RefreshLoop) : Input → Option Proto
  | .grant => s.asked config
  | _ => none

/-- The legs that are granted along the inputs, each while it is asked for. -/
def grants (config : RefreshLoopConfig) : RefreshLoop → List Input → List Proto
  | _, [] => []
  | s, input :: inputs =>
    (granted config s input).toList ++ grants config (step config s input) inputs

theorem onMapped_held (s : RefreshLoop) (cycle) (proto : Proto) (mapping : NatPmpMapping) :
    (s.onMapped config cycle proto mapping).held = s.held := by
  unfold onMapped endCycle
  dsimp only
  split
  · rfl
  · split
    · exact send_held _
    · rfl

/-- An error that does not end the loop releases nothing. -/
theorem onError_held (hrunning : (s.onError config cycle error).phase ≠ .failed) :
    (s.onError config cycle error).held = s.held := by
  revert hrunning
  unfold RefreshLoop.onError
  split
  · exact fun _ => send_held _
  · exact fun _ => rfl
  · exact fun _ => rfl
  · exact fun hrunning => absurd rfl hrunning
  · exact fun hrunning => absurd rfl hrunning
  · exact fun hrunning => absurd rfl hrunning
  · exact fun _ => rfl

theorem step_failed_stays (h : s.phase = .failed) (input) :
    (step config s input).phase = .failed := by
  cases input with
  | grant => simp only [step, asked, h]
  | answer | elapsed | cancel => simp only [step, h]
  | hangUp => exact h

theorem foldl_failed (h : s.phase = .failed) (inputs : List Input) :
    (inputs.foldl (step config) s).phase = .failed := by
  induction inputs generalizing s with
  | nil => exact h
  | cons input inputs ih => exact ih (step_failed_stays h input)

/-- **One step of a running loop** adds what it grants to what the server holds. -/
theorem step_held (hrunning : (step config s input).phase ≠ .failed) (proto : Proto) :
    proto ∈ (step config s input).held ↔ proto ∈ s.held ∨ granted config s input = some proto := by
  cases input with
  | grant =>
    cases hasked : s.asked config with
    | some leg => simp [step, granted, hasked, or_comm, eq_comm]
    | none => simp [step, granted, hasked]
  | answer result =>
    suffices hheld : (step config s (.answer result)).held = s.held by
      rw [hheld]
      exact (or_iff_left nofun).symm
    cases hphase : s.phase with
    | requesting cycle =>
      cases hleg : config.protos.legs[cycle.legIndex]? with
      | none => simp only [step, hphase, hleg]
      | some leg =>
        cases result with
        | ok mapping =>
          simp only [step, hphase, hleg]
          exact onMapped_held s cycle leg mapping
        | error error =>
          simp only [step, hphase, hleg] at hrunning ⊢
          exact onError_held hrunning
    | sleeping | failed | cancelled | unobserved => simp only [step, hphase]
  | elapsed =>
    cases hphase : s.phase <;> simp [step, granted, hphase, beginCycle]
  | cancel =>
    cases hphase : s.phase <;> simp [step, granted, hphase, send_held]
  | hangUp => simp [step, granted]

/-- **A running loop has released nothing**: the server holds what it was granted on the way. -/
theorem foldl_held {inputs : List Input}
    (hrunning : (inputs.foldl (step config) s).phase ≠ .failed) (proto : Proto) :
    proto ∈ (inputs.foldl (step config) s).held
      ↔ proto ∈ s.held ∨ proto ∈ grants config s inputs := by
  induction inputs generalizing s with
  | nil => simp [grants]
  | cons input inputs ih =>
    have hstep : (step config s input).phase ≠ .failed := fun hfailed =>
      hrunning (foldl_failed hfailed inputs)
    rw [List.foldl_cons, ih hrunning, step_held hstep, grants, List.mem_append, Option.mem_toList,
      or_assoc]

/-- What the server holds while the loop runs: the legs granted in this cycle, and with the TCP
leg the UDP leg, since that one is asked for first. -/
structure Kept (s : RefreshLoop) : Prop where
  current : ∀ cycle, s.phase = .requesting cycle → ∀ proto ∈ cycle.grantedThisCycle, proto ∈ s.held
  pair : .tcp ∈ s.held → .udp ∈ s.held

theorem Kept.step (h : Kept s) (hboth : config.protos = .both) (hsound : Sound config s)
    (hpossible : Possible config s input)
    (hrunning : (RefreshLoop.step config s input).phase ≠ .failed) :
    Kept (RefreshLoop.step config s input) := by
  have hheld := step_held hrunning
  have hkeep : ∀ proto ∈ s.held, proto ∈ (RefreshLoop.step config s input).held :=
    fun proto hproto => (hheld proto).mpr (.inl hproto)
  constructor
  · intro next hnext proto hproto
    rcases step_cases config s input with ⟨leg, -, hstep⟩ |
      ⟨cycle, leg, mapping, rfl, hphase, hleg, hstep⟩ | ⟨cycle, error, -, hstep⟩ |
        ⟨vars, hstep⟩ | hstep | hstep | hstep
    all_goals rw [hstep] at hnext
    · exact hkeep proto (h.current next hnext proto hproto)
    · -- the leg just mapped is held, and those before it are
      obtain ⟨leg', hasked, hin⟩ := hpossible
      rw [asked_eq hphase, hleg, Option.mem_some_iff] at hasked
      subst hasked
      rw [(onMapped_requesting hnext).2.2] at hproto
      rcases List.mem_append.mp hproto with hbefore | hthis
      · exact hkeep proto (h.current cycle hphase proto hbefore)
      · rw [List.mem_singleton.mp hthis]
        exact hkeep leg hin
    · rw [(onError_requesting hnext).2] at hproto
      cases hproto
    · cases hnext
      cases hproto
    · cases hnext
    · exact hkeep proto (h.current next hnext proto hproto)
    · exact hkeep proto (h.current next hnext proto hproto)
  · intro htcp
    rcases (hheld .tcp).mp htcp with hin | hgranted
    · exact hkeep .udp (h.pair hin)
    -- the TCP leg is asked for after the UDP leg was granted in the same cycle
    cases input with
    | grant =>
      cases hphase : s.phase with
      | requesting cycle =>
        obtain ⟨-, htaken⟩ := hsound cycle hphase
        rw [granted, asked_eq hphase, hboth] at hgranted
        refine hkeep .udp (h.current cycle hphase .udp ?_)
        rw [htaken, hboth]
        match cycle.legIndex, hgranted with
        | 1, _ => exact List.mem_singleton.mpr rfl
      | sleeping | failed | cancelled | unobserved =>
        rw [granted, asked, hphase] at hgranted
        cases hgranted
    | answer | elapsed | cancel | hangUp => cases hgranted

/-- **A running pair** is granted in order: with the TCP leg the server holds the UDP leg. -/
theorem Reached.kept (h : Reached config s) (hboth : config.protos = .both)
    (hrunning : s.phase ≠ .failed) : Kept s := by
  have hinv : Sound config s ∧ (s.phase ≠ .failed → Kept s) := by
    refine Transition.Reachable.invariant
      (I := fun s => Sound config s ∧ (s.phase ≠ .failed → Kept s)) ?_ ?_ h
    · rintro s rfl
      refine ⟨Reached.sound (.start rfl), fun _ => ⟨fun cycle hphase proto hproto => ?_, ?_⟩⟩
      · cases hphase
        cases hproto
      · exact fun htcp => absurd htcp (Finset.notMem_empty _)
    · rintro s _ ⟨hsound, hkept⟩ ⟨input, hpossible, rfl⟩
      refine ⟨hsound.step input, fun hrun => ?_⟩
      exact (hkept fun hfailed => hrun (step_failed_stays hfailed input)).step hboth hsound
        hpossible hrun
  exact hinv.2 hrunning

def HalfForwarded (s : RefreshLoop) : Prop := Xor (.udp ∈ s.held) (.tcp ∈ s.held)

instance (s : RefreshLoop) : Decidable (HalfForwarded s) :=
  inferInstanceAs (Decidable ((_ ∧ ¬ _) ∨ (_ ∧ ¬ _)))

/-- The loop after the inputs. -/
def after (config : RefreshLoopConfig) (inputs : List Input) : RefreshLoop :=
  inputs.foldl (step config) (start config)

/-- **When a pair is not left half forwarded.**  In every run of the loop of a rule of both
protocols that ends in failure, the server holds both legs or none then, exactly if the loop gives
up on the TCP leg and no earlier request for that one was granted, or on the UDP leg and no earlier
request for that one was granted or one for the TCP leg was. -/
theorem failed_whole_iff (hboth : config.protos = .both) {inputs : List Input} {input : Input}
    (hallowed : Transition.Allowed (Possible config) (step config) (start config) inputs)
    (hrunning : (after config inputs).phase ≠ .failed)
    (hfail : (step config (after config inputs) input).phase = .failed) :
    ¬ HalfForwarded (step config (after config inputs) input) ↔
      ((after config inputs).asked config = some .tcp ∧
          .tcp ∉ grants config (start config) inputs) ∨
        ((after config inputs).asked config = some .udp ∧
          (.udp ∉ grants config (start config) inputs ∨
            .tcp ∈ grants config (start config) inputs)) := by
  have hreached : Reached config (after config inputs) :=
    (show Reached config (start config) from .start rfl).run hallowed
  have hheld : ∀ proto, proto ∈ (after config inputs).held
      ↔ proto ∈ grants config (start config) inputs := fun proto =>
    (foldl_held hrunning proto).trans (or_iff_right (Finset.notMem_empty proto))
  have hpair := (hreached.kept hboth hrunning).pair
  rw [hheld, hheld] at hpair
  generalize after config inputs = s at *
  obtain ⟨cycle, hphase, hlt, hafter⟩ := hreached.sound.step_failed hrunning hfail
  have hasked : s.asked config = _ := asked_eq hphase
  rw [hboth] at hlt hafter hasked
  rw [HalfForwarded, hafter, hasked]
  have hindex : cycle.legIndex = 0 ∨ cycle.legIndex = 1 := by
    change cycle.legIndex < 2 at hlt
    omega
  rcases hindex with hzero | hone
  · rw [hzero]
    have hwhole : ¬ Xor (.udp ∈ s.held) (.tcp ∈ s.held)
        ↔ (.udp ∉ grants config (start config) inputs
          ∨ .tcp ∈ grants config (start config) inputs) := by
      rw [xor_iff_not_iff, not_not, hheld, hheld]
      tauto
    simpa [ForwardProtos.legs] using hwhole
  · rw [hone]
    simp [ForwardProtos.legs, xor_iff_not_iff, hheld]

def pairRule : RefreshLoopConfig := ⟨.both, 27015, 0, 3600, .pinned, none⟩

def hourMapping : NatPmpMapping := ⟨49152, 3600, 0, none⟩

/-- The first cycle is granted the UDP leg and then refused the TCP leg. -/
theorem failed_whole_iff_firstCycle :
    let s := [.grant, .answer (.ok hourMapping)].foldl (step pairRule) (start pairRule)
    let refusal : Input := .answer (.error (.server .notAuthorized))
    s.asked pairRule = some .tcp ∧ .udp ∈ s.held ∧ (step pairRule s refusal).phase = .failed ∧
      ¬ HalfForwarded (step pairRule s refusal) := by
  refine ⟨by decide, by decide, by decide, ?_⟩
  exact (failed_whole_iff rfl (by decide) (by decide) (by decide)).mpr (.inl (by decide))

/-- **A pair is left half forwarded**: both legs are granted, the UDP leg is renewed and the TCP
leg is refused.  The loop releases the UDP leg and leaves the TCP leg. -/
theorem failed_half : ∃ s, Reached pairRule s ∧ s.phase = .failed ∧ HalfForwarded s := by
  have hstart : Reached pairRule (start pairRule) := Transition.Reachable.start rfl
  have hreached : Reached pairRule _ :=
    Transition.Reachable.run hstart
      (show Transition.Allowed _ _ _ [.grant, .answer (.ok hourMapping), .grant,
        .answer (.ok hourMapping), .elapsed, .answer (.ok hourMapping),
        .answer (.error (.server .notAuthorized))] by decide)
  exact ⟨_, hreached, by decide, by decide⟩

end RefreshLoop

end WarrenGuard.NatPmpClient
