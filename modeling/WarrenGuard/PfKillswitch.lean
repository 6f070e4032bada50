/-
The macOS killswitch (`warrenguard-killswitch-os/src/macos.rs`).

An install loads its rules into an anchor of pf, turns pf on, and then kills the connection states
that the rules do not provably pass; it returns a guard only if none of them is left.  Each
operation on pf may fail, and a failed one changes nothing.  `PfRun` holds how every operation of
one install ends, and `Pf` keeps the rules of this install apart from those the anchor held
before.

* `guard_accounts` — what a guard stands for, and what its uninstall gives back;
* `installRules_exits` — what an error leaves behind: none of the rules, and pf on or off as
  before, unless pf was off, `enable` turned it on, and the rules could not be loaded:
  `apply_rules` has no way back for that.
-/
import WarrenGuard.Basic

namespace WarrenGuard.MacosKillswitch

/-! ### Options, rules and flows -/

abbrev IpAddr := WarrenGuard.IpAddr Ipv4Addr Ipv6Addr

def IpAddr.isIpv6 : IpAddr → Bool
  | .v4 _ => false
  | .v6 _ => true

def IpAddr.isLoopback : IpAddr → Bool
  | .v4 addr => addr >>> 24 = 127#32
  | .v6 addr => addr = 1#128

inductive IpNetwork where
  | v4 (addr : Ipv4Addr) (len : ℕ)
  | v6 (addr : Ipv6Addr) (len : ℕ)
deriving DecidableEq

structure KillswitchOpts where
  exitAddrs : List IpAddr
  tunName : String
  allowLan : Bool
  allowDhcp : Bool
  physIface : Option String
  carrierUid : Option ℕ

inductive InputFault where
  | tunNameLength (len : ℕ)
  | tunNameCharacters (name : String)
  | physIfaceNone
  | carrierUidNone
deriving DecidableEq

inductive KillswitchError where
  | invalidInput (fault : InputFault)
  | pf (message : String)
  | unconfirmedStates (count : ℕ)
deriving DecidableEq

def validateTunName (name : String) : Option KillswitchError :=
  if name.isEmpty ∨ 15 < name.utf8ByteSize then
    some (.invalidInput (.tunNameLength name.utf8ByteSize))
  else if ¬ name.toList.all fun c => c.isAlphanum || c == '_' || c == '-' then
    some (.invalidInput (.tunNameCharacters name))
  else none

variable (opts : KillswitchOpts)

def KillswitchOpts.validateMacosCarrierScope : Option KillswitchError :=
  if opts.physIface = none then some (.invalidInput .physIfaceNone)
  else if opts.carrierUid = none then some (.invalidInput .carrierUidNone)
  else none

inductive PfDest where
  | net (network : IpNetwork)
  | anyPort (port : ℕ)
deriving DecidableEq

structure PfRuleSpec where
  pass : Bool
  quick : Bool
  iface : Option String
  udp : Bool
  v6 : Bool
  dest : Option PfDest
  uid : Option ℕ
deriving DecidableEq

/-- The rules without an owner: everything but the block and the carrier. -/
def passSpec (iface : Option String) (udp v6 : Bool) (dest : Option PfDest) : PfRuleSpec :=
  ⟨true, true, iface, udp, v6, dest, none⟩

def blockSpec : PfRuleSpec := ⟨false, false, none, false, false, none, none⟩

def IpAddr.host : IpAddr → IpNetwork
  | .v4 addr => .v4 addr 32
  | .v6 addr => .v6 addr 128

def carrierSpec (addr : IpAddr) : PfRuleSpec :=
  ⟨true, true, opts.physIface, true, addr.isIpv6, some (.net addr.host), opts.carrierUid⟩

/-- `10.0.0.0/8`, `172.16.0.0/12`, `192.168.0.0/16`. -/
def lanV4 : List IpNetwork := [.v4 0x0a000000#32 8, .v4 0xac100000#32 12, .v4 0xc0a80000#32 16]

/-- `fc00::/7`, `fe80::/10`. -/
def lanV6 : List IpNetwork := [.v6 (0xfc00#128 <<< 112) 7, .v6 (0xfe80#128 <<< 112) 10]

def pfRuleSpecs : List PfRuleSpec :=
  [blockSpec, passSpec (some "lo0") false false none,
    passSpec (some opts.tunName) false false none]
  ++ opts.exitAddrs.map (carrierSpec opts)
  ++ (if opts.allowLan then
      lanV4.map (fun net => passSpec none false false (some (.net net)))
      ++ lanV6.map (fun net => passSpec none false true (some (.net net)))
    else [])
  ++ (if opts.allowDhcp then
      [67, 68].map (fun port => passSpec none true false (some (.anyPort port)))
    else [])

inductive RuleAction where
  | pass
  | dropReturn
deriving DecidableEq

/-- A rule as pf takes it; every one of them is for outbound packets. -/
structure FilterRule where
  quick : Bool
  action : RuleAction
  interface : Option String
  udp : Bool
  ipv6 : Bool
  user : Option ℕ
  /-- The network and the port of the destination. -/
  destination : Option (Option IpNetwork × Option ℕ)
deriving DecidableEq

def specToFilterRule (spec : PfRuleSpec) : FilterRule where
  quick := spec.quick
  action := if spec.pass then .pass else .dropReturn
  interface := spec.iface
  udp := spec.udp
  ipv6 := spec.v6
  user := spec.uid
  destination := spec.dest.map fun
    | .net network => (some network, none)
    | .anyPort port => (none, some port)

def buildPfRules : List FilterRule :=
  (pfRuleSpecs opts).map specToFilterRule

inductive Proto where
  | any
  | udp
  | other (number : ℕ)
deriving DecidableEq

/-- The fields of a state entry that the purge reads. -/
structure StateView where
  localIp : IpAddr
  remoteIp : IpAddr
  remotePort : ℕ
  proto : Proto
deriving DecidableEq

def StateView.isLoopbackOnly (view : StateView) : Bool :=
  view.localIp.isLoopback && view.remoteIp.isLoopback

structure PermittedFlow where
  udpOnly : Bool
  v6Only : Bool
  dest : Option IpNetwork
  destPort : Option ℕ
  ifaceScoped : Bool
deriving DecidableEq

-- `IpNetwork::contains`, of the crate `ipnetwork`
variable (contains : IpNetwork → IpAddr → Bool)

def PermittedFlow.matches (flow : PermittedFlow) (view : StateView) : Bool :=
  (!flow.v6Only || view.remoteIp.isIpv6)
    && (!flow.udpOnly || view.proto == .udp)
    && flow.dest.all (contains · view.remoteIp)
    && flow.destPort.all (· == view.remotePort)

def PermittedFlow.matchesProvably (flow : PermittedFlow) (view : StateView) : Bool :=
  !flow.ifaceScoped && flow.matches contains view

/-- `PermittedFlows::from_opts`, for one rule. -/
def PfRuleSpec.permitted (spec : PfRuleSpec) : Option PermittedFlow :=
  if spec.pass then
    match spec.dest with
    | some (.net network) => some ⟨spec.udp, spec.v6, some network, none, spec.iface.isSome⟩
    | some (.anyPort port) => some ⟨spec.udp, spec.v6, none, some port, spec.iface.isSome⟩
    | none => none
  else none

def permittedFlows : List PermittedFlow :=
  (pfRuleSpecs opts).filterMap PfRuleSpec.permitted

def permits (permitted : List PermittedFlow) (view : StateView) : Bool :=
  permitted.any (·.matchesProvably contains view)

def stateIsPermitted (view : StateView) (permitted : List PermittedFlow) : Bool :=
  view.isLoopbackOnly || permits contains permitted view

def stateMustBeKilled (view : StateView) (permitted : List PermittedFlow) : Bool :=
  !stateIsPermitted contains view permitted

/-- What the install needs of its options before it touches pf. -/
def prepare :
    Except KillswitchError (List FilterRule × List PermittedFlow) :=
  match validateTunName opts.tunName with
  | some e => .error e
  | none =>
    match opts.validateMacosCarrierScope with
    | some e => .error e
    | none => .ok (buildPfRules opts, permittedFlows opts)

/-! ### The purge of the state table -/

/-- An entry of the state table; `none` is one whose fields cannot be read. -/
abbrev StateEntry := Option StateView

structure PurgeReport where
  killed : ℕ
  survivors : List StateEntry

/-- An entry that cannot be read cannot be shown to be permitted. -/
def entryIsABypass (permitted : List PermittedFlow) (entry : StateEntry) : Bool :=
  entry.all fun view => stateMustBeKilled contains view permitted

def bypassSurvivors (report : PurgeReport) (permitted : List PermittedFlow) : Option ℕ :=
  let count := (report.survivors.filter (entryIsABypass contains permitted)).length
  if 0 < count then some count else none

def verifyPurge (report : PurgeReport) (permitted : List PermittedFlow) : Option KillswitchError :=
  (bypassSurvivors contains report permitted).map fun bypasses =>
    .pf (toString bypasses ++ " surviving connection state(s) are covered by no provable pass " ++
      "rule of the new policy. Off-tunnel traffic would keep flowing through them past the block.")

/-! ### pf and its operations -/

/-- pf as the killswitch sees it: whether it is on, whether the anchor is registered, and the
rules of the anchor, those from before this install ahead of those it loaded. -/
structure Pf where
  enabled : Bool
  anchored : Bool
  earlier : List FilterRule
  loaded : List FilterRule

/-- How the operations of one install end: `none` for success.  `flush` is the one before the
rules are loaded, `rollbackFlush` the one of a rollback. -/
structure PfRun where
  isEnabled : Option KillswitchError
  preflight : Except KillswitchError PurgeReport
  enable : Option KillswitchError
  addAnchor : Option KillswitchError
  flush : Option KillswitchError
  addRule : ℕ → Option KillswitchError
  purge : Except KillswitchError PurgeReport
  rollbackFlush : Option KillswitchError
  disable : Option KillswitchError

variable (error : Option KillswitchError)

/-- An operation that succeeds acts on pf, and one that fails does not. -/
def attempt (act : Pf → Pf) (pf : Pf) :
    Option KillswitchError × Pf :=
  match error with
  | some e => (some e, pf)
  | none => (none, act pf)

def enable : Pf → Option KillswitchError × Pf :=
  attempt error fun pf => { pf with enabled := true }

def disable : Pf → Option KillswitchError × Pf :=
  attempt error fun pf => { pf with enabled := false }

def addAnchor : Pf → Option KillswitchError × Pf :=
  attempt error fun pf => { pf with anchored := true }

def flushRules : Pf → Option KillswitchError × Pf :=
  attempt error fun pf => { pf with earlier := [], loaded := [] }

def addRule (rule : FilterRule) :
    Pf → Option KillswitchError × Pf :=
  attempt error fun pf => { pf with loaded := pf.loaded ++ [rule] }

/-- The loop of `apply_rules`, from the `i`-th rule on. -/
def addRules (run : PfRun) : ℕ → List FilterRule → Pf → Option KillswitchError × Pf
  | _, [], pf => (none, pf)
  | i, rule :: rules, pf =>
    match addRule (run.addRule i) rule pf with
    | (some e, pf) => (some e, (flushRules run.rollbackFlush pf).2)
    | (none, pf) => addRules run (i + 1) rules pf

variable (run : PfRun)

def applyRules (rules : List FilterRule) (pf : Pf) : Option KillswitchError × Pf :=
  match enable run.enable pf with
  | (some e, pf) => (some e, pf)
  | (none, pf) =>
    match addAnchor run.addAnchor pf with
    | (some e, pf) => (some e, pf)
    | (none, pf) =>
      match flushRules run.flush pf with
      | (some e, pf) => (some e, pf)
      | (none, pf) => addRules run 0 rules pf

/-- Put pf's enable state back; what fails is only logged. -/
def restoreEnableState (pfWasEnabled : Bool) (pf : Pf) : Pf :=
  if pfWasEnabled then pf else (disable error pf).2

def rollBackInstall (pfWasEnabled : Bool) (pf : Pf) : Pf :=
  restoreEnableState run.disable pfWasEnabled (flushRules run.rollbackFlush pf).2

structure Guard where
  pfWasEnabled : Bool
deriving DecidableEq

/-- `install_with_ops` after the anchor is loaded. -/
def confirm (permitted : List PermittedFlow) (pfWasEnabled : Bool) (pf : Pf) :
    Except KillswitchError Guard × Pf :=
  match run.purge with
  | .error e => (.error e, rollBackInstall run pfWasEnabled pf)
  | .ok report =>
    match verifyPurge contains report permitted with
    | some e => (.error e, rollBackInstall run pfWasEnabled pf)
    | none => (.ok ⟨pfWasEnabled⟩, pf)

/-- `install_with_ops` once the options are checked. -/
def installRules (rules : List FilterRule) (permitted : List PermittedFlow)
    (pf : Pf) : Except KillswitchError Guard × Pf :=
  match run.isEnabled with
  | some e => (.error e, pf)
  | none =>
    match run.preflight with
    | .error e => (.error e, pf)
    | .ok report =>
      match bypassSurvivors contains report permitted with
      | some count => (.error (.unconfirmedStates count), pf)
      | none =>
        match applyRules run rules pf with
        | (some e, pf') => (.error e, pf')
        | (none, pf') => confirm contains run permitted pf.enabled pf'

def installPrepared
    (prepared : Except KillswitchError (List FilterRule × List PermittedFlow)) (pf : Pf) :
    Except KillswitchError Guard × Pf :=
  match prepared with
  | .error e => (.error e, pf)
  | .ok (rules, permitted) => installRules contains run rules permitted pf

def installWithOps (opts : KillswitchOpts) (pf : Pf) :
    Except KillswitchError Guard × Pf :=
  installPrepared contains run (prepare opts) pf

/-- `MacosKillswitch::uninstall`, with how its two operations end; `Drop` does the same. -/
def uninstall (flush disable : Option KillswitchError) (guard : Guard) (pf : Pf) :
    Option KillswitchError × Pf :=
  let (error, pf) := flushRules flush pf
  (error, restoreEnableState disable guard.pfWasEnabled pf)

/-! ### What each exit leaves behind -/

/-- The rules cannot all be loaded although pf was turned on. -/
def Stranded (rules : List FilterRule) : Prop :=
  run.enable = none ∧
    (run.addAnchor ≠ none ∨ run.flush ≠ none ∨ ∃ i < rules.length, run.addRule i ≠ none)

theorem attempt_none (act : Pf → Pf) (pf : Pf) : attempt none act pf = (none, act pf) := rfl

theorem attempt_some (e : KillswitchError) (act : Pf → Pf) (pf : Pf) :
    attempt (some e) act pf = (some e, pf) := rfl

/-- The loop loads every rule, or it stops at one that fails and rolls the anchor back. -/
theorem addRules_cases (i : ℕ) (rules : List FilterRule) (pf : Pf) :
    (addRules run i rules pf = (none, { pf with loaded := pf.loaded ++ rules })
        ∧ ∀ j < rules.length, run.addRule (i + j) = none)
      ∨ ∃ j < rules.length, ∃ e pf', run.addRule (i + j) = some e
        ∧ pf'.enabled = pf.enabled
        ∧ addRules run i rules pf = (some e, (flushRules run.rollbackFlush pf').2) := by
  induction rules generalizing i pf with
  | nil => exact .inl ⟨by simp [addRules], by simp⟩
  | cons rule rules ih =>
    cases hrule : run.addRule i with
    | some e =>
      refine .inr ⟨0, by simp, e, pf, hrule, rfl, ?_⟩
      simp only [addRules, addRule, hrule, attempt_some]
    | none =>
      have hstep : addRules run i (rule :: rules) pf
          = addRules run (i + 1) rules { pf with loaded := pf.loaded ++ [rule] } := by
        simp only [addRules, addRule, hrule, attempt_none]
      rw [hstep]
      obtain ⟨hdone, hall⟩ | ⟨j, hj, e, pf', herr, henabled, hdone⟩ :=
        ih (i + 1) { pf with loaded := pf.loaded ++ [rule] }
      · refine .inl ⟨by rw [hdone]; simp, fun j hj => ?_⟩
        cases j with
        | zero => exact hrule
        | succ j =>
          have hnext := hall j (by simpa using hj)
          rwa [Nat.add_assoc, Nat.add_comm 1 j] at hnext
      · refine .inr ⟨j + 1, by simpa using hj, e, pf', ?_, henabled, hdone⟩
        rwa [Nat.add_assoc, Nat.add_comm 1 j] at herr

section Exits

variable (run : PfRun) (rules : List FilterRule) (permitted : List PermittedFlow) {pf : Pf}

/-- **What `apply_rules` can do.** It fails before it touched pf, it fails with pf on and none
of its rules in the anchor, or it loads them all. -/
theorem applyRules_cases (hloaded : pf.loaded = []) (hrollback : run.rollbackFlush = none) :
    (run.enable ≠ none ∧ ∃ e, applyRules run rules pf = (some e, pf))
      ∨ (Stranded run rules ∧ ∃ e pf', applyRules run rules pf = (some e, pf')
        ∧ pf'.enabled = true ∧ pf'.loaded = [])
      ∨ (¬ Stranded run rules ∧ applyRules run rules pf = (none, ⟨true, true, [], rules⟩)) := by
  cases henable : run.enable with
  | some e =>
    refine .inl ⟨by simp, e, ?_⟩
    simp only [applyRules, enable, henable, attempt_some]
  | none =>
  cases hanchor : run.addAnchor with
  | some e =>
    have happly : applyRules run rules pf = (some e, { pf with enabled := true }) := by
      simp only [applyRules, enable, addAnchor, henable, hanchor, attempt_none, attempt_some]
    exact .inr (.inl ⟨⟨henable, .inl (by simp [hanchor])⟩, e, _, happly, rfl, hloaded⟩)
  | none =>
  cases hflush : run.flush with
  | some e =>
    have happly : applyRules run rules pf
        = (some e, { pf with enabled := true, anchored := true }) := by
      simp only [applyRules, enable, addAnchor, flushRules, henable, hanchor, hflush,
        attempt_none, attempt_some]
    exact .inr (.inl ⟨⟨henable, .inr (.inl (by simp [hflush]))⟩, e, _, happly, rfl, hloaded⟩)
  | none =>
  -- the anchor is empty, and the loop decides
  have happly : applyRules run rules pf = addRules run 0 rules ⟨true, true, [], []⟩ := by
    simp only [applyRules, enable, addAnchor, flushRules, henable, hanchor, hflush, attempt_none]
  rw [happly]
  obtain ⟨hdone, hall⟩ | ⟨j, hj, e, pf', herr, henabled, hdone⟩ :=
    addRules_cases run 0 rules ⟨true, true, [], []⟩
  · refine .inr (.inr ⟨?_, hdone⟩)
    rintro ⟨-, hne | hne | ⟨i, hi, hne⟩⟩
    · exact hne hanchor
    · exact hne hflush
    · exact hne (by simpa using hall i hi)
  · rw [Nat.zero_add] at herr
    refine .inr (.inl ⟨⟨henable, .inr (.inr ⟨j, hj, by simp [herr]⟩)⟩, e, _, hdone, ?_⟩)
    rw [flushRules, hrollback, attempt_none]
    exact ⟨henabled, rfl⟩

theorem rollBackInstall_eq (hflush : run.rollbackFlush = none) (hdisable : run.disable = none)
    (was : Bool) (pf : Pf) :
    rollBackInstall run was pf = ⟨was && pf.enabled, pf.anchored, [], []⟩ := by
  cases was <;>
    simp [rollBackInstall, restoreEnableState, flushRules, disable, hflush, hdisable, attempt_none]

theorem confirm_cases (was : Bool) (pf : Pf) :
    (∃ e, confirm contains run permitted was pf = (.error e, rollBackInstall run was pf))
      ∨ (confirm contains run permitted was pf = (.ok ⟨was⟩, pf)
        ∧ ∃ report, run.purge = .ok report ∧ verifyPurge contains report permitted = none) := by
  unfold confirm
  cases hpurge : run.purge with
  | error e => exact .inl ⟨e, rfl⟩
  | ok report =>
    cases hverify : verifyPurge contains report permitted with
    | some e => exact .inl ⟨e, by simp only [hverify]⟩
    | none => exact .inr ⟨by simp only [hverify], report, rfl, hverify⟩

/-- The install gets to `apply_rules`: pf's state can be read, and the pre-flight purge leaves no
bypass in the table. -/
def Reaches : Prop :=
  run.isEnabled = none
    ∧ ∃ report, run.preflight = .ok report ∧ bypassSurvivors contains report permitted = none

/-- An install is refused before it touches pf, or it is what `apply_rules` and the purge after
it make of it. -/
theorem installRules_eq (pf : Pf) :
    (¬ Reaches contains run permitted
        ∧ ∃ e, installRules contains run rules permitted pf = (.error e, pf))
      ∨ (Reaches contains run permitted
        ∧ installRules contains run rules permitted pf = match applyRules run rules pf with
          | (some e, pf') => (.error e, pf')
          | (none, pf') => confirm contains run permitted pf.enabled pf') := by
  unfold installRules Reaches
  cases hread : run.isEnabled with
  | some e => exact .inl ⟨fun h => (nomatch h.1), e, rfl⟩
  | none =>
  cases hpreflight : run.preflight with
  | error e =>
    refine .inl ⟨?_, e, rfl⟩
    rintro ⟨-, report, hreport, -⟩
    cases hreport
  | ok report =>
  cases hbypass : bypassSurvivors contains report permitted with
  | some count =>
    refine .inl ⟨?_, .unconfirmedStates count, by simp only [hbypass]⟩
    rintro ⟨-, report', hreport, hnone⟩
    cases hreport
    rw [hbypass] at hnone
    cases hnone
  | none => exact .inr ⟨⟨rfl, report, rfl, hbypass⟩, by simp only [hbypass]⟩

/-- **The exits of an install**, where the operations of the rollback work: pf untouched; pf
turned on and no rule loaded; everything rolled back; and a guard. -/
theorem installRules_exits (hloaded : pf.loaded = []) (hflush : run.rollbackFlush = none)
    (hdisable : run.disable = none) :
    (¬ (Reaches contains run permitted ∧ Stranded run rules)
        ∧ ∃ e, installRules contains run rules permitted pf = (.error e, pf))
      ∨ (Reaches contains run permitted ∧ Stranded run rules
        ∧ ∃ e pf', installRules contains run rules permitted pf = (.error e, pf')
          ∧ pf'.enabled = true ∧ pf'.loaded = [])
      ∨ (¬ Stranded run rules
        ∧ ∃ e, installRules contains run rules permitted pf
          = (.error e, ⟨pf.enabled, true, [], []⟩))
      ∨ (¬ Stranded run rules
        ∧ installRules contains run rules permitted pf
          = (.ok ⟨pf.enabled⟩, ⟨true, true, [], rules⟩)
        ∧ ∃ report, run.purge = .ok report ∧ verifyPurge contains report permitted = none) := by
  obtain ⟨hnot, hrefused⟩ | ⟨hreaches, hinstall⟩ := installRules_eq contains run rules permitted pf
  · exact .inl ⟨fun h => hnot h.1, hrefused⟩
  rw [hinstall]
  obtain ⟨henable, e, happly⟩ | ⟨hstranded, e, pf', happly, hon, hnone⟩ | ⟨hfree, happly⟩ :=
    applyRules_cases run rules hloaded hflush
  · rw [happly]
    exact .inl ⟨fun h => henable h.2.1, e, rfl⟩
  · rw [happly]
    exact .inr (.inl ⟨hreaches, hstranded, e, pf', rfl, hon, hnone⟩)
  · rw [happly]
    obtain ⟨e, hconfirm⟩ | ⟨hconfirm, hpurge⟩ :=
      confirm_cases contains run permitted pf.enabled ⟨true, true, [], rules⟩
    · rw [rollBackInstall_eq run hflush hdisable, Bool.and_true] at hconfirm
      exact .inr (.inr (.inl ⟨hfree, e, hconfirm⟩))
    · exact .inr (.inr (.inr ⟨hfree, hconfirm, hpurge⟩))

end Exits

/-- **A failed install.** Where the operations of the rollback work: an install that returns an
error leaves none of its rules in the anchor, and pf on exactly if it was on, if and only if it is
not the case that pf was off, the install got to `apply_rules`, and the rules could not be loaded
once pf was turned on. -/
theorem failed_install_restores_pf (contains : IpNetwork → IpAddr → Bool) (run : PfRun)
    (hflush : run.rollbackFlush = none) (hdisable : run.disable = none)
    (prepared : Except KillswitchError (List FilterRule × List PermittedFlow))
    (enabled anchored : Bool) (earlier : List FilterRule) :
    (∀ e pf', installPrepared contains run prepared ⟨enabled, anchored, earlier, []⟩
        = (.error e, pf') → pf'.loaded = [] ∧ pf'.enabled = enabled)
      ↔ ∀ rules permitted, prepared = .ok (rules, permitted) →
        ¬ (enabled = false ∧ Reaches contains run permitted ∧ Stranded run rules) := by
  cases prepared with
  | error e' =>
    refine iff_of_true (fun e pf' hinstall => ?_) nofun
    obtain ⟨-, rfl⟩ := Prod.mk.inj hinstall
    exact ⟨rfl, rfl⟩
  | ok ready =>
    obtain ⟨rules, permitted⟩ := ready
    have hcond : (∀ rules' permitted', (Except.ok (rules, permitted) : Except KillswitchError _)
          = .ok (rules', permitted') →
          ¬ (enabled = false ∧ Reaches contains run permitted' ∧ Stranded run rules'))
        ↔ ¬ (enabled = false ∧ Reaches contains run permitted ∧ Stranded run rules) :=
      ⟨fun h => h rules permitted rfl, fun h _ _ heq => by cases heq; exact h⟩
    rw [hcond, installPrepared]
    have hloaded : (Pf.mk enabled anchored earlier []).loaded = [] := rfl
    obtain ⟨hnot, e', h⟩ | ⟨hreaches, hstranded, e', p, h, hon, hnone⟩ | ⟨hfree, e', h⟩
        | ⟨hfree, h, -⟩ :=
      installRules_exits contains run rules permitted hloaded hflush hdisable
    all_goals rw [h]
    · refine iff_of_true (fun e pf' hinstall => ?_) fun hall => hnot hall.2
      obtain ⟨-, rfl⟩ := Prod.mk.inj hinstall
      exact ⟨rfl, rfl⟩
    · -- pf is on now: the install is as claimed exactly if it was on before
      constructor
      · rintro hall ⟨hoff, -⟩
        have hsame := (hall e' p rfl).2
        rw [hon, hoff] at hsame
        cases hsame
      · intro hnot e pf' hinstall
        obtain ⟨-, rfl⟩ := Prod.mk.inj hinstall
        refine ⟨hnone, ?_⟩
        rw [hon]
        cases enabled with
        | true => rfl
        | false => exact absurd ⟨rfl, hreaches, hstranded⟩ hnot
    · refine iff_of_true (fun e pf' hinstall => ?_) fun hall => hfree hall.2.2
      obtain ⟨-, rfl⟩ := Prod.mk.inj hinstall
      exact ⟨rfl, rfl⟩
    · exact iff_of_true (fun e pf' hinstall => nomatch hinstall) fun hall => hfree hall.2.2

/-- The outcomes of an install in which nothing fails, on a table without states. -/
def PfRun.smooth : PfRun where
  isEnabled := none
  preflight := .ok ⟨0, []⟩
  enable := none
  addAnchor := none
  flush := none
  addRule := fun _ => none
  purge := .ok ⟨0, []⟩
  rollbackFlush := none
  disable := none

def carrierOpts : KillswitchOpts where
  exitAddrs := [.v4 0x01020304#32]
  tunName := "utun7"
  allowLan := false
  allowDhcp := false
  physIface := some "en0"
  carrierUid := some 501

/-- The purge fails after the rules are loaded, on a host with pf off; no flow is asked whether it
contains an address. -/
theorem failed_install_restores_pf_purge :
    let run := { PfRun.smooth with purge := .error (.pf "get states") }
    ∃ e pf', installWithOps (fun _ _ => false) run carrierOpts ⟨false, false, [], []⟩
        = (.error e, pf') ∧ pf'.loaded = [] ∧ pf'.enabled = false := by
  intro run
  have hinstall : installPrepared (fun _ _ => false) run (prepare carrierOpts)
      ⟨false, false, [], []⟩ = (.error (.pf "get states"), ⟨false, true, [], []⟩) := rfl
  refine ⟨_, _, hinstall, (failed_install_restores_pf _ run rfl rfl (prepare carrierOpts) false
    false []).mpr ?_ _ _ hinstall⟩
  rintro rules permitted - ⟨-, -, -, hne | hne | ⟨i, -, hne⟩⟩
  · exact hne rfl
  · exact hne rfl
  · exact hne rfl

/-- The anchor cannot be registered on a host with pf off: the install returns the error and
leaves pf on. -/
theorem failed_anchor_leaves_pf_enabled :
    installWithOps (fun _ _ => false)
        { PfRun.smooth with addAnchor := some (.pf "add anchor") } carrierOpts
        ⟨false, false, [], []⟩
      = (.error (.pf "add anchor"), ⟨true, false, [], []⟩) := rfl

variable {contains} {report : PurgeReport} {opts : KillswitchOpts}

/-! ### What a guard stands for -/

theorem bypassSurvivors_eq_none {permitted : List PermittedFlow} :
    bypassSurvivors contains report permitted = none
      ↔ ∀ entry ∈ report.survivors,
        ∃ view, entry = some view ∧ stateIsPermitted contains view permitted := by
  have hentry : ∀ entry : StateEntry, entryIsABypass contains permitted entry = false
      ↔ ∃ view, entry = some view ∧ stateIsPermitted contains view permitted := by
    intro entry
    cases entry with
    | none => simp [entryIsABypass]
    | some view => simp [entryIsABypass, stateMustBeKilled]
  have hcount : bypassSurvivors contains report permitted = none
      ↔ (report.survivors.filter (entryIsABypass contains permitted)).length = 0 := by
    simp [bypassSurvivors]
  rw [hcount, List.length_eq_zero_iff, List.filter_eq_nil_iff]
  refine forall₂_congr fun entry _ => ?_
  rw [← hentry entry, Bool.not_eq_true]

theorem verifyPurge_eq_none {permitted : List PermittedFlow} :
    verifyPurge contains report permitted = none ↔
      bypassSurvivors contains report permitted = none :=
  Option.map_eq_none_iff

theorem dest_of_mem_pfRuleSpecs {spec : PfRuleSpec} {dest : PfDest}
    (hspec : spec ∈ pfRuleSpecs opts) (hdest : spec.dest = some dest) :
    (∃ addr ∈ opts.exitAddrs, spec = carrierSpec opts addr)
      ∨ (opts.allowLan ∧ ∃ net ∈ lanV4 ++ lanV6, dest = .net net)
      ∨ (opts.allowDhcp ∧ spec.udp ∧ (dest = .anyPort 67 ∨ dest = .anyPort 68)) := by
  simp only [pfRuleSpecs, List.mem_append, List.mem_cons, List.mem_map, List.not_mem_nil,
    or_false] at hspec
  obtain (((rfl | rfl | rfl) | ⟨addr, haddr, rfl⟩) | hlan) | hdhcp := hspec
  · simp [blockSpec] at hdest
  · simp [passSpec] at hdest
  · simp [passSpec] at hdest
  · exact .inl ⟨addr, haddr, rfl⟩
  · split at hlan
    · rename_i hallow
      simp only [List.mem_append, List.mem_map] at hlan
      obtain ⟨net, hnet, rfl⟩ | ⟨net, hnet, rfl⟩ := hlan
      · exact .inr (.inl ⟨hallow, net, List.mem_append_left _ hnet,
          by simpa [passSpec] using hdest.symm⟩)
      · exact .inr (.inl ⟨hallow, net, List.mem_append_right _ hnet,
          by simpa [passSpec] using hdest.symm⟩)
    · simp at hlan
  · split at hdhcp
    · rename_i hallow
      simp only [List.mem_map, List.mem_cons, List.not_mem_nil, or_false] at hdhcp
      obtain ⟨port, rfl | rfl, rfl⟩ := hdhcp
      · exact .inr (.inr ⟨hallow, rfl, .inl (by simpa [passSpec] using hdest.symm)⟩)
      · exact .inr (.inr ⟨hallow, rfl, .inr (by simpa [passSpec] using hdest.symm)⟩)
    · simp at hdhcp

/-- An install that starts has its carrier scoped to an interface and an owner. -/
theorem scoped_of_prepare {rules : List FilterRule} {permitted : List PermittedFlow}
    (hprepare : prepare opts = .ok (rules, permitted)) :
    opts.physIface.isSome ∧ opts.carrierUid.isSome ∧ rules = buildPfRules opts
      ∧ permitted = permittedFlows opts := by
  simp only [prepare] at hprepare
  split at hprepare
  · simp at hprepare
  · split at hprepare
    · simp at hprepare
    · rename_i hscope
      simp only [KillswitchOpts.validateMacosCarrierScope] at hscope
      obtain ⟨rfl, rfl⟩ : buildPfRules opts = rules ∧ permittedFlows opts = permitted := by
        simpa using hprepare
      have hboth : opts.physIface ≠ none ∧ opts.carrierUid ≠ none := by grind
      exact ⟨Option.isSome_iff_ne_none.mpr hboth.1, Option.isSome_iff_ne_none.mpr hboth.2,
        rfl, rfl⟩

/-- The flows that a state entry can be shown to belong to: those to a LAN range and those of
DHCP, where the options allow them.  The carrier is not one of them, since its rule is scoped
to an interface and an entry names none. -/
theorem permits_of_prepare {rules : List FilterRule} {permitted : List PermittedFlow}
    (hprepare : prepare opts = .ok (rules, permitted)) {view : StateView}
    (hview : permits contains permitted view) :
    (opts.allowLan ∧ ∃ net ∈ lanV4 ++ lanV6, contains net view.remoteIp)
      ∨ (opts.allowDhcp ∧ view.proto = .udp ∧ (view.remotePort = 67 ∨ view.remotePort = 68)) := by
  obtain ⟨hiface, -, -, rfl⟩ := scoped_of_prepare hprepare
  simp only [permits, List.any_eq_true, permittedFlows, List.mem_filterMap] at hview
  obtain ⟨flow, ⟨spec, hspec, hflow⟩, hmatch⟩ := hview
  unfold PfRuleSpec.permitted at hflow
  split at hflow
  · split at hflow
    · rename_i net hdest
      obtain rfl := Option.some.inj hflow
      obtain ⟨addr, -, rfl⟩ | ⟨hlan, net', hnet, heq⟩ | ⟨-, -, heq | heq⟩ :=
        dest_of_mem_pfRuleSpecs hspec hdest
      · simp [PermittedFlow.matchesProvably, carrierSpec, hiface] at hmatch
      · obtain rfl : net = net' := by simpa using heq
        refine .inl ⟨hlan, net, hnet, ?_⟩
        simp only [PermittedFlow.matchesProvably, PermittedFlow.matches, Bool.and_eq_true,
          Option.all_some] at hmatch
        exact hmatch.2.1.2
      · simp at heq
      · simp at heq
    · rename_i port hdest
      obtain rfl := Option.some.inj hflow
      obtain ⟨addr, -, rfl⟩ | ⟨-, net', -, heq⟩ | ⟨hdhcp, hudp, hport⟩ :=
        dest_of_mem_pfRuleSpecs hspec hdest
      · simp [carrierSpec] at hdest
      · simp at heq
      · refine .inr ⟨hdhcp, ?_⟩
        simp only [PermittedFlow.matchesProvably, PermittedFlow.matches, Bool.and_eq_true,
          Option.all_some, hudp, Bool.not_true, Bool.false_or, beq_iff_eq] at hmatch
        refine ⟨hmatch.2.1.1.2, ?_⟩
        rw [← hmatch.2.2]
        simpa using hport
    · simp at hflow
  · simp at hflow

/-- **What a guard stands for.** The anchor holds the rules of the options and no other, pf is
on, and each state entry that was left is local to the host, to a LAN range, or of DHCP, the
last two only where the options allow them.  If the operations of its uninstall work, pf is on or
off as it was before the install, with an empty anchor. -/
theorem guard_accounts {run : PfRun} {pf pf' : Pf} {guard : Guard} (hloaded : pf.loaded = [])
    (hflush : run.rollbackFlush = none) (hdisable : run.disable = none)
    (hinstall : installWithOps contains run opts pf = (.ok guard, pf')) :
    pf' = ⟨true, true, [], buildPfRules opts⟩ ∧
    uninstall none none guard pf' = (none, ⟨pf.enabled, true, [], []⟩) ∧
    ∃ report, run.purge = .ok report ∧ ∀ entry ∈ report.survivors, ∃ view, entry = some view ∧
      (view.isLoopbackOnly
        ∨ (opts.allowLan ∧ ∃ net ∈ lanV4 ++ lanV6, contains net view.remoteIp)
        ∨ (opts.allowDhcp ∧ view.proto = .udp
          ∧ (view.remotePort = 67 ∨ view.remotePort = 68))) := by
  rw [installWithOps] at hinstall
  cases hprepare : prepare opts with
  | error e =>
    rw [hprepare, installPrepared] at hinstall
    simp at hinstall
  | ok ready =>
    obtain ⟨rules, permitted⟩ := ready
    rw [hprepare, installPrepared] at hinstall
    obtain ⟨-, -, rfl, -⟩ := scoped_of_prepare hprepare
    obtain ⟨-, e, h⟩ | ⟨-, -, e, p, h, -⟩ | ⟨-, e, h⟩ | ⟨-, h, report, hpurge, hverify⟩ :=
      installRules_exits contains run (buildPfRules opts) permitted hloaded hflush hdisable
    all_goals rw [h] at hinstall
    · simp at hinstall
    · simp at hinstall
    · simp at hinstall
    obtain ⟨rfl, rfl⟩ : ⟨pf.enabled⟩ = guard ∧ ⟨true, true, [], buildPfRules opts⟩ = pf' := by
      simpa using hinstall
    refine ⟨rfl, ?_, report, hpurge, fun entry hentry => ?_⟩
    · simp only [uninstall, flushRules, attempt_none, restoreEnableState, disable]
      cases hpf : pf.enabled <;> simp
    · obtain ⟨view, rfl, hview⟩ :=
        bypassSurvivors_eq_none.mp (verifyPurge_eq_none.mp hverify) entry hentry
      refine ⟨view, rfl, ?_⟩
      rw [stateIsPermitted, Bool.or_eq_true] at hview
      exact hview.imp_right (permits_of_prepare hprepare)

def dhcpOpts : KillswitchOpts := { carrierOpts with allowDhcp := true }

/-- The purge leaves a DHCP flow in the table, to an address outside the networks of the rules. -/
def dhcpRun : PfRun :=
  { PfRun.smooth with purge := .ok ⟨3, [some ⟨.v4 0x0a000002#32, .v4 0x0a000001#32, 67, .udp⟩]⟩ }

theorem guard_accounts_dhcp :
    installWithOps (fun _ _ => false) dhcpRun dhcpOpts ⟨false, false, [], []⟩
        = (.ok ⟨false⟩, ⟨true, true, [], buildPfRules dhcpOpts⟩) ∧
      uninstall none none ⟨false⟩ ⟨true, true, [], buildPfRules dhcpOpts⟩
        = (none, ⟨false, true, [], []⟩) := by
  have hinstall : installWithOps (fun _ _ => false) dhcpRun dhcpOpts ⟨false, false, [], []⟩
      = (.ok ⟨false⟩, ⟨true, true, [], buildPfRules dhcpOpts⟩) := by rfl
  exact ⟨hinstall, (guard_accounts rfl rfl rfl hinstall).2.1⟩

end WarrenGuard.MacosKillswitch
