/-
Anchor requests and lease refreshes of token sessions (`handle_anchor_request` of
`warrenguard-multihop-server/src/multihop/route.rs`, `handle_lease_refresh` of
`multihop/lease.rs`).

A token session asks the control plane to anchor it, and spends a token to refresh its lease.  A
request takes the slot of the session under the lock of the live sessions and starts a task; the
task finds the slot again, by the serial, when it is done.  The slot goes with the last connection
of the session, and the next session under the serial opens its own.

* `AnchorRegistry` — the registry with the slots; `Anchoring` — any number of sessions and their
  running tasks, one lock section at a time;
* `session_starts_clean` — where a session opens its slot after the tasks of the earlier ones are
  through, its state is its own;
* `earlier_session_writes` — otherwise a task of the session before writes it.

Design notes: the lease serial of a slot is its entry in the `anchors` of
`MultihopSessionRegistry`, the rest is its entry in `slots`, and `agree` says that the two are one
table.  What only the deployer's renewal reads is left out (`stale_since`, `counted_period`).  The
answers of the admitter and the policy are inputs.  No step reads `session` and `writes`.
-/
import WarrenGuard.SessionRegistry
import WarrenGuard.SingleFlight
import WarrenGuard.Transition

namespace WarrenGuard.Registry

open SingleFlight

/-! ### Slots -/

abbrev Digest := BitVec 256

inductive RouteAnchorStatus where
  | bound
  | needsToken
  | notEligible
  | refused
  | unavailable
  | lost
  | other (code : UInt8)
deriving DecidableEq

structure AnchorVerdict where
  status : RouteAnchorStatus
  maxRoutes : UInt16
deriving DecidableEq

def AnchorVerdict.ofStatus (status : RouteAnchorStatus) : AnchorVerdict := ⟨status, 0⟩

inductive LeaseRefreshStatus where
  | registered
  | refreshed
  | refused
  | unavailable
  | notEligible
  | due
  | expired
  | other (code : UInt8)
deriving DecidableEq

def anchorMinInterval : ℕ := 2 * nanosPerSec

def refreshMinInterval : ℕ := 2 * nanosPerSec

structure LeaseSlot where
  capable : Bool
  refresh : Gate Digest LeaseRefreshStatus

structure AnchorSlot where
  anchored : Bool
  anchor : Gate Digest AnchorVerdict
  lease : LeaseSlot

namespace AnchorSlot

def new : AnchorSlot := ⟨false, .new, ⟨false, .new⟩⟩

def anchorDone (digest : Digest) (verdict : AnchorVerdict) (slot : AnchorSlot) : AnchorSlot :=
  { slot with
    anchored := decide (verdict.status = .bound)
    anchor := slot.anchor.finish (some (digest, verdict)) }

/-- What a finished spend writes.  An `unavailable` is not kept: the retry of the same token
must reach the admitter again. -/
def refreshDone (digest : Digest) (status : LeaseRefreshStatus) (slot : AnchorSlot) : AnchorSlot :=
  { slot with
    lease.capable := slot.lease.capable || decide (status = .refreshed)
    lease.refresh :=
      slot.lease.refresh.finish (if status ≠ .unavailable then some (digest, status) else none) }

end AnchorSlot

structure AnchorRegistry extends MultihopSessionRegistry where
  slots : Table Serial AnchorSlot
  agree : ∀ key, (slots.lookup key).isSome = (anchors.lookup key).isSome

inductive Handled (ν : Type) where
  | gone
  /-- The client announced that it refreshes its lease. -/
  | announced
  | decided (decision : Decision ν)

namespace AnchorRegistry

def new : AnchorRegistry := ⟨.new, ∅, fun _ => rfl⟩

variable (r : AnchorRegistry)

def registerKey (key : Serial) (conn : ConnId) : AnchorRegistry where
  toMultihopSessionRegistry := r.toMultihopSessionRegistry.registerKey (.tokenSerial key) conn
  slots := if r.live.conns (.tokenSerial key) = ∅ then r.slots.erase key else r.slots
  agree := by
    intro key'
    unfold MultihopSessionRegistry.registerKey
    dsimp only
    split
    · exact Table.isSome_lookup_erase r.agree key key'
    · exact r.agree key'

def unregisterKey (key : Serial) (conn : ConnId) : AnchorRegistry where
  toMultihopSessionRegistry :=
    (r.toMultihopSessionRegistry.unregisterKey (.tokenSerial key) conn).2
  slots :=
    if r.live.contains (.tokenSerial key) then
      if (r.live.remove (.tokenSerial key) conn).contains (.tokenSerial key) then r.slots
      else r.slots.erase key
    else r.slots
  agree := by
    intro key'
    unfold MultihopSessionRegistry.unregisterKey
    dsimp only
    split
    · split
      · exact r.agree key'
      · exact Table.isSome_lookup_erase r.agree key key'
    · exact r.agree key'

/-- The slot of a live session, opened if it has none. -/
def openSlot (key : Serial) : AnchorRegistry where
  toMultihopSessionRegistry := r.toMultihopSessionRegistry.openSlot key
  slots :=
    if r.live.contains (.tokenSerial key) ∧ (r.anchors.lookup key).isNone then
      r.slots.insert key .new
    else r.slots
  agree := by
    intro key'
    unfold MultihopSessionRegistry.openSlot
    split
    · exact Table.isSome_lookup_insert r.agree key key' ..
    · exact r.agree key'

def modify (key : Serial) (f : AnchorSlot → AnchorSlot) : AnchorRegistry where
  toMultihopSessionRegistry := r.toMultihopSessionRegistry
  slots := match r.slots.lookup key with
    | some slot => r.slots.insert key (f slot)
    | none => r.slots
  agree := by
    intro key'
    split
    · rename_i hslot
      rw [Table.isSome_lookup_insert_of_isSome (Option.isSome_of_mem hslot)]
      exact r.agree key'
    · exact r.agree key'

/-- Moves the lease of a session; the rest of the slot is kept. -/
def rebind (key new : Serial) : Rebind × Option Serial × AnchorRegistry :=
  let moved := r.toMultihopSessionRegistry.rebind key new
  (moved.1, moved.2.1, {
    toMultihopSessionRegistry := moved.2.2
    slots := r.slots
    agree := by
      intro key'
      show _ = (AList.lookup key' (r.toMultihopSessionRegistry.rebind key new).2.2.anchors).isSome
      unfold MultihopSessionRegistry.rebind
      split
      · exact r.agree key'
      · split
        · rename_i hslot
          rw [Table.isSome_lookup_insert_of_isSome (Option.isSome_of_mem hslot)]
          exact r.agree key'
        · exact r.agree key' })

def handleAnchorRequest (key : Serial) (digest : Digest) (now : ℕ) :
    Handled AnchorVerdict × AnchorRegistry :=
  if r.live.contains (.tokenSerial key) then
    let slot := (r.slots.lookup key).getD .new
    let (decision, gate) := slot.anchor.submit anchorMinInterval digest now
    (.decided decision, (r.openSlot key).modify key fun slot => { slot with anchor := gate })
  else (.gone, r)

/-- A refresh without token announces that the client refreshes; one with a token spends it. -/
def handleLeaseRefresh (key : Serial) (digest : Digest) (hasToken : Bool)
    (now : ℕ) : Handled LeaseRefreshStatus × AnchorRegistry :=
  if r.live.contains (.tokenSerial key) then
    if hasToken then
      let slot := (r.slots.lookup key).getD .new
      let (decision, gate) := slot.lease.refresh.submit refreshMinInterval digest now
      (.decided decision,
        (r.openSlot key).modify key fun slot => { slot with lease.refresh := gate })
    else
      (.announced, (r.openSlot key).modify key fun slot => { slot with lease.capable := true })
  else (.gone, r)

variable {r : AnchorRegistry} {key key' : Serial}

theorem slots_registerKey (conn : ConnId) : (r.registerKey key conn).slots =
    if r.live.conns (.tokenSerial key) = ∅ then r.slots.erase key else r.slots := rfl

theorem slots_unregisterKey (conn : ConnId) : (r.unregisterKey key conn).slots =
    if r.live.contains (.tokenSerial key) then
      if (r.live.remove (.tokenSerial key) conn).contains (.tokenSerial key) then r.slots
      else r.slots.erase key
    else r.slots := rfl

theorem lookup_openSlot (hlive : r.live.contains (.tokenSerial key) = true) :
    (r.openSlot key).slots.lookup key' =
      if key' = key then some ((r.slots.lookup key).getD .new) else r.slots.lookup key' := by
  show AList.lookup key' (if _ then _ else _) = _
  have hagree := r.agree key
  cases hslot : r.slots.lookup key with
  | none =>
    have hnone : (r.anchors.lookup key).isNone = true := by
      rw [hslot] at hagree
      simpa using hagree.symm
    rw [if_pos ⟨hlive, hnone⟩, Table.lookup_insert']
    rfl
  | some slot =>
    have hsome : ¬ (r.live.contains (.tokenSerial key) = true ∧
        (r.anchors.lookup key).isNone = true) := by
      rw [hslot] at hagree
      simp [← Option.not_isSome, ← hagree]
    rw [if_neg hsome]
    by_cases hkey : key' = key
    · rw [if_pos hkey, hkey, hslot]
      rfl
    · rw [if_neg hkey]

theorem lookup_modify (f : AnchorSlot → AnchorSlot) :
    (r.modify key f).slots.lookup key' =
      if key' = key then (r.slots.lookup key).map f else r.slots.lookup key' := by
  show AList.lookup key' (match r.slots.lookup key with
    | some slot => r.slots.insert key (f slot)
    | none => r.slots) = _
  cases hslot : r.slots.lookup key with
  | none =>
    by_cases hkey : key' = key
    · rw [if_pos hkey, hkey]
      exact hslot
    · rw [if_neg hkey]
  | some slot =>
    rw [Table.lookup_insert']
    rfl

end AnchorRegistry

/-! ### Sessions and their tasks -/

inductive CallStage (ν : Type) where
  /-- The token is with the admitter. -/
  | spending
  | asking
  | resolved (verdict : ν)
deriving DecidableEq

structure Work (ν : Type) where
  digest : Digest
  stage : CallStage ν
deriving DecidableEq

/-- A write to the slot of a session of `key`, by a request made on session `author`. -/
structure SlotWrite where
  key : Serial
  session : ℕ
  author : ℕ
deriving DecidableEq

structure Anchoring where
  registry : AnchorRegistry
  session : Serial → ℕ
  anchorCalls : List (Call Serial (Work AnchorVerdict))
  refreshCalls : List (Call Serial (Work LeaseRefreshStatus))
  writes : List SlotWrite

inductive AnchorEvent where
  | register (key : Serial) (conn : ConnId)
  | unregister (key : Serial) (conn : ConnId)
  | anchorRequest (key : Serial) (conn : ConnId) (digest : Digest) (hasToken : Bool) (now : ℕ)
  /-- The admitter's answer: the serial of the token if it was spent. -/
  | anchorSpent (call : Call Serial (Work AnchorVerdict)) (spent : Option Serial)
  | anchorAnswered (call : Call Serial (Work AnchorVerdict)) (verdict : AnchorVerdict)
  | anchorTimedOut (call : Call Serial (Work AnchorVerdict))
  | anchorDone (call : Call Serial (Work AnchorVerdict))
  | refreshRequest (key : Serial) (conn : ConnId) (digest : Digest) (hasToken : Bool) (now : ℕ)
  | refreshSpent (call : Call Serial (Work LeaseRefreshStatus)) (spent : Option Serial)
  | refreshTimedOut (call : Call Serial (Work LeaseRefreshStatus))
  | refreshDone (call : Call Serial (Work LeaseRefreshStatus))

variable {call : Call Serial (Work LeaseRefreshStatus)} {f : AnchorSlot → AnchorSlot}

namespace Anchoring

def start : Anchoring := ⟨.new, fun _ => 0, [], [], []⟩

variable (s : Anchoring)

def wrote (key : Serial) (author : ℕ) : Anchoring :=
  { s with writes := ⟨key, s.session key, author⟩ :: s.writes }

def register (key : Serial) (conn : ConnId) : Anchoring :=
  { s with
    registry := s.registry.registerKey key conn
    session :=
      if s.registry.live.conns (.tokenSerial key) = ∅ then
        Function.update s.session key (s.session key + 1)
      else s.session }

def unregister (key : Serial) (conn : ConnId) : Anchoring :=
  { s with registry := s.registry.unregisterKey key conn }

/-- A request that came to a call starts its task; an announcement has only written. -/
def anchorRequest (key : Serial) (digest : Digest) (hasToken : Bool) (now : ℕ) :
    Anchoring :=
  let (handled, registry) := s.registry.handleAnchorRequest key digest now
  let s' := { s with registry }
  match handled with
  | .decided .call =>
    { s'.wrote key (s.session key) with
      anchorCalls := ⟨key, s.session key, digest, if hasToken then .spending else .asking⟩ ::
        s.anchorCalls }
  | .announced => s'.wrote key (s.session key)
  | .gone | .decided (.again _) | .decided .throttled => s'

def refreshRequest (key : Serial) (digest : Digest) (hasToken : Bool) (now : ℕ) :
    Anchoring :=
  let (handled, registry) := s.registry.handleLeaseRefresh key digest hasToken now
  let s' := { s with registry }
  match handled with
  | .decided .call =>
    { s'.wrote key (s.session key) with
      refreshCalls := ⟨key, s.session key, digest, .spending⟩ :: s.refreshCalls }
  | .announced => s'.wrote key (s.session key)
  | .gone | .decided (.again _) | .decided .throttled => s'

def Call.goTo {ν : Type} (call : Call Serial (Work ν)) (stage : CallStage ν) :
    Call Serial (Work ν) :=
  { call with work := { call.work with stage } }

def anchorTo (call : Call Serial (Work AnchorVerdict))
    (stage : CallStage AnchorVerdict) : Anchoring :=
  { s with anchorCalls := Call.goTo call stage :: s.anchorCalls.erase call }

def refreshTo (call : Call Serial (Work LeaseRefreshStatus))
    (stage : CallStage LeaseRefreshStatus) : Anchoring :=
  { s with refreshCalls := Call.goTo call stage :: s.refreshCalls.erase call }

/-- `resolve_anchor` after the admitter: the lease moves first, then the policy is asked. -/
def anchorSpent (call : Call Serial (Work AnchorVerdict)) (spent : Option Serial) :
    Anchoring :=
  match spent with
  | none => s.anchorTo call (.resolved (.ofStatus .refused))
  | some serial =>
    let (outcome, _, registry) := s.registry.rebind call.key serial
    { s with registry }.anchorTo call
      (if outcome = Rebind.done then .asking else .resolved (.ofStatus .refused))

def refreshSpent (call : Call Serial (Work LeaseRefreshStatus))
    (spent : Option Serial) : Anchoring :=
  match spent with
  | none => s.refreshTo call (.resolved .refused)
  | some serial =>
    let (outcome, _, registry) := s.registry.rebind call.key serial
    { s with registry }.refreshTo call
      (.resolved (if outcome = Rebind.done then .refreshed else .refused))

/-- The end of a task: whatever slot is under its serial is written. -/
def finish (key : Serial) (author : ℕ) (f : AnchorSlot → AnchorSlot) : Anchoring :=
  { s with
    registry := s.registry.modify key f
    writes :=
      if (s.registry.slots.lookup key).isSome then ⟨key, s.session key, author⟩ :: s.writes
      else s.writes }

def anchorDone (call : Call Serial (Work AnchorVerdict)) (verdict : AnchorVerdict) :
    Anchoring :=
  { s.finish call.key call.session (.anchorDone call.work.digest verdict) with
    anchorCalls := s.anchorCalls.erase call }

def refreshDone (call : Call Serial (Work LeaseRefreshStatus))
    (status : LeaseRefreshStatus) : Anchoring :=
  { s.finish call.key call.session (.refreshDone call.work.digest status) with
    refreshCalls := s.refreshCalls.erase call }

def stepAnchor (call : Call Serial (Work AnchorVerdict)) :
    CallStage AnchorVerdict → AnchorEvent → Anchoring
  | .spending, .anchorSpent _ spent => s.anchorSpent call spent
  | .asking, .anchorAnswered _ verdict => s.anchorTo call (.resolved verdict)
  | .spending, .anchorTimedOut _ | .asking, .anchorTimedOut _ =>
    s.anchorTo call (.resolved (.ofStatus .unavailable))
  | .resolved verdict, .anchorDone _ => s.anchorDone call verdict
  | _, _ => s

def stepRefresh (call : Call Serial (Work LeaseRefreshStatus)) :
    CallStage LeaseRefreshStatus → AnchorEvent → Anchoring
  | .spending, .refreshSpent _ spent => s.refreshSpent call spent
  | .spending, .refreshTimedOut _ => s.refreshTo call (.resolved .unavailable)
  | .resolved status, .refreshDone _ => s.refreshDone call status
  | _, _ => s

def step (e : AnchorEvent) : Anchoring :=
  match e with
  | .register key conn => s.register key conn
  | .unregister key conn => s.unregister key conn
  -- a request is read off a connection of the session
  | .anchorRequest key conn digest hasToken now =>
    if conn ∈ s.registry.live.conns (.tokenSerial key) then
      s.anchorRequest key digest hasToken now
    else s
  | .refreshRequest key conn digest hasToken now =>
    if conn ∈ s.registry.live.conns (.tokenSerial key) then
      s.refreshRequest key digest hasToken now
    else s
  | .anchorSpent call _ | .anchorAnswered call _ | .anchorTimedOut call | .anchorDone call =>
    if call ∈ s.anchorCalls then s.stepAnchor call call.work.stage e else s
  | .refreshSpent call _ | .refreshTimedOut call | .refreshDone call =>
    if call ∈ s.refreshCalls then s.stepRefresh call call.work.stage e else s

def Reachable (ok : Anchoring → AnchorEvent → Prop) : Anchoring → Prop :=
  Transition.Reachable (· = start) (Transition.Guarded ok step)

/-! ### One session's state -/

/-- No task of an earlier session is running where the slot is opened. -/
def Alone (key : Serial) : Prop :=
  (s.registry.slots.lookup key).isNone →
    (∀ call ∈ s.anchorCalls, call.key ≠ key) ∧ ∀ call ∈ s.refreshCalls, call.key ≠ key

def OpensAlone : AnchorEvent → Prop
  | .anchorRequest key _ _ _ _ | .refreshRequest key _ _ _ _ => s.Alone key
  | _ => True

instance (key : Serial) : Decidable (s.Alone key) :=
  inferInstanceAs (Decidable (_ → _))

instance : (e : AnchorEvent) → Decidable (s.OpensAlone e)
  | .anchorRequest key _ _ _ _ | .refreshRequest key _ _ _ _ =>
    inferInstanceAs (Decidable (s.Alone key))
  | .register _ _ | .unregister _ _ | .anchorSpent _ _ | .anchorAnswered _ _ | .anchorTimedOut _
  | .anchorDone _ | .refreshSpent _ _ | .refreshTimedOut _ | .refreshDone _ =>
    inferInstanceAs (Decidable True)

def anchorFlag (r : AnchorRegistry) (key : Serial) : Option Bool :=
  (r.slots.lookup key).map fun slot => slot.anchor.inFlight

def refreshFlag (r : AnchorRegistry) (key : Serial) : Option Bool :=
  (r.slots.lookup key).map fun slot => slot.lease.refresh.inFlight

/-- **The flags of a slot are about the tasks of its session.** -/
structure Clean (s : Anchoring) : Prop where
  anchor : Tracked s.session (anchorFlag s.registry) s.anchorCalls
  refresh : Tracked s.session (refreshFlag s.registry) s.refreshCalls
  written : ∀ w ∈ s.writes, w.author = w.session

variable {s : Anchoring} {key : Serial} {conn : ConnId}

theorem map_lookup_modify (r : AnchorRegistry) (key key' : Serial) (f)
    (flag : AnchorSlot → Bool) : ((r.modify key f).slots.lookup key').map flag =
      if key' = key then (r.slots.lookup key').map fun slot => flag (f slot)
      else (r.slots.lookup key').map flag := by
  rw [AnchorRegistry.lookup_modify]
  split
  · rename_i hkey
    rw [hkey, Option.map_map]
    rfl
  · rfl

theorem map_lookup_modify_of_keeps {r : AnchorRegistry} {flag : AnchorSlot → Bool}
    (hkeeps : ∀ slot, r.slots.lookup key = some slot → flag (f slot) = flag slot) (key' : Serial) :
    ((r.modify key f).slots.lookup key').map flag = (r.slots.lookup key').map flag := by
  rw [map_lookup_modify]
  split
  · rename_i hkey
    subst hkey
    cases hslot : r.slots.lookup key' with
    | none => rfl
    | some slot => exact congrArg some (hkeeps slot hslot)
  · rfl

theorem map_lookup_modify_of_sets {r : AnchorRegistry} {flag : AnchorSlot → Bool}
    {slot : AnchorSlot} (hslot : r.slots.lookup key = some slot) (hsets : flag (f slot) = true)
    (key' : Serial) :
    ((r.modify key f).slots.lookup key').map flag =
      if key' = key then some true else (r.slots.lookup key').map flag := by
  rw [map_lookup_modify]
  split
  · rename_i hkey
    rw [hkey, hslot]
    exact congrArg some hsets
  · rfl

theorem contains_of_mem (hconn : conn ∈ s.registry.live.conns (.tokenSerial key)) :
    s.registry.live.contains (.tokenSerial key) = true :=
  LiveSessions.contains_iff.mpr (Finset.ne_empty_of_mem hconn)

theorem lookup_opened (hlive : s.registry.live.contains (.tokenSerial key) = true) :
    ∃ slot, (s.registry.slots.lookup key).getD .new = slot ∧
      (s.registry.openSlot key).slots.lookup key = some slot :=
  ⟨_, rfl, by rw [AnchorRegistry.lookup_openSlot hlive, if_pos rfl]⟩

theorem Clean.start : Clean start := ⟨.nil, .nil, nofun⟩

namespace Clean

variable (h : Clean s)
include h

/-- **The rule for a change of sessions**: the slots that stay are of sessions that stay. -/
theorem reslot {r : AnchorRegistry} {session : Serial → ℕ}
    (hslots : ∀ key slot, r.slots.lookup key = some slot →
      s.registry.slots.lookup key = some slot ∧ session key = s.session key) :
    Clean { s with registry := r, session := session } := by
  have hflag : ∀ {f : AnchorSlot → Bool} (key b), (r.slots.lookup key).map f = some b →
      (s.registry.slots.lookup key).map f = some b ∧ session key = s.session key := by
    intro f key b hb
    obtain ⟨slot, hslot, hf⟩ := Option.map_eq_some_iff.mp hb
    obtain ⟨hold, hsession⟩ := hslots key slot hslot
    exact ⟨by rw [hold, ← hf]; rfl, hsession⟩
  exact ⟨h.anchor.congr hflag, h.refresh.congr hflag, h.written⟩

theorem register (key conn) : Clean (s.register key conn) := by
  refine h.reslot fun key' slot hslot => ?_
  rw [AnchorRegistry.slots_registerKey] at hslot
  split at hslot
  · rename_i hempty
    rw [Table.lookup_erase'] at hslot
    split at hslot
    · cases hslot
    · rename_i hkey
      rw [if_pos hempty, Function.update_of_ne hkey]
      exact ⟨hslot, rfl⟩
  · rename_i hserved
    rw [if_neg hserved]
    exact ⟨hslot, rfl⟩

theorem unregister (key conn) : Clean (s.unregister key conn) := by
  refine h.reslot fun key' slot hslot => ⟨?_, rfl⟩
  rw [AnchorRegistry.slots_unregisterKey] at hslot
  split at hslot
  · split at hslot
    · exact hslot
    · rw [Table.lookup_erase'] at hslot
      split at hslot
      · cases hslot
      · exact hslot
  · exact hslot

theorem openSlot (hlive : s.registry.live.contains (.tokenSerial key) = true)
    (halone : s.Alone key) : Clean { s with registry := s.registry.openSlot key } := by
  cases hslot : s.registry.slots.lookup key with
  | none =>
    obtain ⟨hanchor, hrefresh⟩ := halone (by rw [hslot]; rfl)
    have hflag : ∀ (f : AnchorSlot → Bool), f .new = false → ∀ key',
        ((s.registry.openSlot key).slots.lookup key').map f =
          if key' = key then some false else (s.registry.slots.lookup key').map f := by
      intro f hf key'
      rw [AnchorRegistry.lookup_openSlot hlive, hslot]
      split
      · exact congrArg some hf
      · rfl
    exact ⟨h.anchor.opened hanchor (hflag _ rfl), h.refresh.opened hrefresh (hflag _ rfl),
      h.written⟩
  | some slot =>
    refine h.reslot fun key' slot' hslot' => ⟨?_, rfl⟩
    rw [AnchorRegistry.lookup_openSlot hlive, hslot] at hslot'
    split at hslot'
    · rename_i hkey
      rw [hkey, hslot]
      exact hslot'
    · exact hslot'

theorem anchor_modify
    (hkeeps : ∀ slot, s.registry.slots.lookup key = some slot →
      (f slot).anchor.inFlight = slot.anchor.inFlight) :
    Tracked s.session (anchorFlag (s.registry.modify key f)) s.anchorCalls :=
  h.anchor.congr fun key' _ hb => ⟨(map_lookup_modify_of_keeps hkeeps key').symm.trans hb, rfl⟩

theorem refresh_modify
    (hkeeps : ∀ slot, s.registry.slots.lookup key = some slot →
      (f slot).lease.refresh.inFlight = slot.lease.refresh.inFlight) :
    Tracked s.session (refreshFlag (s.registry.modify key f)) s.refreshCalls :=
  h.refresh.congr fun key' _ hb => ⟨(map_lookup_modify_of_keeps hkeeps key').symm.trans hb, rfl⟩

/-- **A write by a request of the session that is there**, with what it does to the flags. -/
theorem modify {anchorCalls : List (Call Serial (Work AnchorVerdict))}
    {refreshCalls : List (Call Serial (Work LeaseRefreshStatus))} {writes : List SlotWrite}
    (hanchor : Tracked s.session (anchorFlag (s.registry.modify key f)) anchorCalls)
    (hrefresh : Tracked s.session (refreshFlag (s.registry.modify key f)) refreshCalls)
    (hwrites : writes = s.writes ∨ writes = ⟨key, s.session key, s.session key⟩ :: s.writes) :
    Clean ⟨s.registry.modify key f, s.session, anchorCalls, refreshCalls, writes⟩ := by
  refine ⟨hanchor, hrefresh, fun w hw => ?_⟩
  rcases hwrites with rfl | rfl
  · exact h.written w hw
  · rcases List.mem_cons.mp hw with rfl | hw
    · rfl
    · exact h.written w hw

section Requests

variable (hlive : s.registry.live.contains (.tokenSerial key) = true) (halone : s.Alone key)
  (digest : Digest) (hasToken : Bool) (now : ℕ)

include hlive halone

theorem anchorRequest : Clean (s.anchorRequest key digest hasToken now) := by
  have hopen := h.openSlot hlive halone
  obtain ⟨slot, hgot, hslot⟩ := lookup_opened hlive
  unfold Anchoring.anchorRequest AnchorRegistry.handleAnchorRequest
  rw [if_pos hlive, hgot]
  dsimp only
  have hkept : ∀ slot', (s.registry.openSlot key).slots.lookup key = some slot' →
      slot.anchor.inFlight = slot'.anchor.inFlight := fun slot' hslot' =>
    congrArg (·.anchor.inFlight) (Option.some.inj (hslot.symm.trans hslot'))
  rcases slot.anchor.submit_cases anchorMinInterval digest now with ⟨v, heq⟩ | heq | ⟨hfree, heq⟩
  · rw [heq]
    exact hopen.modify (hopen.anchor_modify hkept) (hopen.refresh_modify fun _ _ => rfl) (.inl rfl)
  · rw [heq]
    exact hopen.modify (hopen.anchor_modify hkept) (hopen.refresh_modify fun _ _ => rfl) (.inl rfl)
  · rw [heq]
    refine hopen.modify (hopen.anchor.start rfl rfl ?_ (map_lookup_modify_of_sets hslot rfl))
      (hopen.refresh_modify fun _ _ => rfl) (.inr rfl)
    rw [anchorFlag, hslot]
    exact congrArg some hfree

theorem refreshRequest : Clean (s.refreshRequest key digest hasToken now) := by
  have hopen := h.openSlot hlive halone
  obtain ⟨slot, hgot, hslot⟩ := lookup_opened hlive
  unfold Anchoring.refreshRequest AnchorRegistry.handleLeaseRefresh
  rw [if_pos hlive, hgot]
  cases hasToken with
  | false =>
    exact hopen.modify (hopen.anchor_modify fun _ _ => rfl) (hopen.refresh_modify fun _ _ => rfl)
      (.inr rfl)
  | true =>
    dsimp only
    have hkept : ∀ slot', (s.registry.openSlot key).slots.lookup key = some slot' →
        slot.lease.refresh.inFlight = slot'.lease.refresh.inFlight := fun slot' hslot' =>
      congrArg (·.lease.refresh.inFlight) (Option.some.inj (hslot.symm.trans hslot'))
    rcases slot.lease.refresh.submit_cases refreshMinInterval digest now with
      ⟨v, heq⟩ | heq | ⟨hfree, heq⟩
    · rw [if_pos rfl, heq]
      exact hopen.modify (hopen.anchor_modify fun _ _ => rfl) (hopen.refresh_modify hkept)
        (.inl rfl)
    · rw [if_pos rfl, heq]
      exact hopen.modify (hopen.anchor_modify fun _ _ => rfl) (hopen.refresh_modify hkept)
        (.inl rfl)
    · rw [if_pos rfl, heq]
      refine hopen.modify (hopen.anchor_modify fun _ _ => rfl)
        (hopen.refresh.start rfl rfl ?_ (map_lookup_modify_of_sets hslot rfl)) (.inr rfl)
      rw [refreshFlag, hslot]
      exact congrArg some hfree

end Requests

/-! ### The steps of a task -/

theorem anchorTo {call : Call Serial (Work AnchorVerdict)}
    (hcall : call ∈ s.anchorCalls) (stage : CallStage AnchorVerdict) :
    Clean (s.anchorTo call stage) :=
  ⟨h.anchor.replace hcall rfl rfl, h.refresh, h.written⟩

theorem refreshTo (hcall : call ∈ s.refreshCalls) (stage : CallStage LeaseRefreshStatus) :
    Clean (s.refreshTo call stage) :=
  ⟨h.anchor, h.refresh.replace hcall rfl rfl, h.written⟩

theorem finish {author : ℕ} {anchorCalls : List (Call Serial (Work AnchorVerdict))}
    {refreshCalls : List (Call Serial (Work LeaseRefreshStatus))}
    (hauthor : (s.registry.slots.lookup key).isSome → author = s.session key)
    (hanchor : Tracked s.session (anchorFlag (s.registry.modify key f)) anchorCalls)
    (hrefresh : Tracked s.session (refreshFlag (s.registry.modify key f)) refreshCalls) :
    Clean { s.finish key author f with anchorCalls, refreshCalls } := by
  refine h.modify hanchor hrefresh ?_
  by_cases hslot : (s.registry.slots.lookup key).isSome = true
  · exact .inr (by rw [Anchoring.finish, if_pos hslot, hauthor hslot])
  · exact .inl (by rw [Anchoring.finish, if_neg hslot])

theorem anchorDone {call : Call Serial (Work AnchorVerdict)}
    (hcall : call ∈ s.anchorCalls) (verdict : AnchorVerdict) :
    Clean (s.anchorDone call verdict) := by
  refine h.finish (fun hslot => ?_) (h.anchor.finish hcall fun key' => ?_)
    (h.refresh_modify fun _ _ => rfl)
  · obtain ⟨slot, hslot⟩ := Option.isSome_iff_exists.mp hslot
    exact h.anchor.own (by rw [anchorFlag, hslot]; rfl) call hcall rfl
  · rw [anchorFlag, map_lookup_modify, anchorFlag, Option.map_map]
    rfl

theorem refreshDone (hcall : call ∈ s.refreshCalls) (status : LeaseRefreshStatus) :
    Clean (s.refreshDone call status) := by
  refine h.finish (fun hslot => ?_) (h.anchor_modify fun _ _ => rfl)
    (h.refresh.finish hcall fun key' => ?_)
  · obtain ⟨slot, hslot⟩ := Option.isSome_iff_exists.mp hslot
    exact h.refresh.own (by rw [refreshFlag, hslot]; rfl) call hcall rfl
  · rw [refreshFlag, map_lookup_modify, refreshFlag, Option.map_map]
    rfl

theorem rebind (key new : Serial) : Clean { s with registry := (s.registry.rebind key new).2.2 } :=
  ⟨h.anchor, h.refresh, h.written⟩

variable {e : AnchorEvent}

theorem stepAnchor {call : Call Serial (Work AnchorVerdict)}
    (hcall : call ∈ s.anchorCalls) (stage : CallStage AnchorVerdict) (e) :
    Clean (s.stepAnchor call stage e) := by
  unfold Anchoring.stepAnchor
  split
  · rename_i spent
    cases spent with
    | none => exact h.anchorTo hcall _
    | some serial => exact (h.rebind call.key serial).anchorTo hcall _
  · exact h.anchorTo hcall _
  · exact h.anchorTo hcall _
  · exact h.anchorTo hcall _
  · exact h.anchorDone hcall _
  · exact h

theorem stepRefresh (hcall : call ∈ s.refreshCalls) (stage : CallStage LeaseRefreshStatus) (e) :
    Clean (s.stepRefresh call stage e) := by
  unfold Anchoring.stepRefresh
  split
  · rename_i spent
    cases spent with
    | none => exact h.refreshTo hcall _
    | some serial => exact (h.rebind call.key serial).refreshTo hcall _
  · exact h.refreshTo hcall _
  · exact h.refreshDone hcall _
  · exact h

/-! ### Runs -/

theorem step (hok : s.OpensAlone e) : Clean (s.step e) := by
  unfold Anchoring.step
  split
  · exact h.register _ _
  · exact h.unregister _ _
  · split
    · rename_i hconn
      exact h.anchorRequest (contains_of_mem hconn) hok _ _ _
    · exact h
  · split
    · rename_i hconn
      exact h.refreshRequest (contains_of_mem hconn) hok _ _ _
    · exact h
  all_goals
    split
    · rename_i hcall
      first
      | exact h.stepAnchor hcall _ _
      | exact h.stepRefresh hcall _ _
    · exact h

end Clean

theorem Reachable.clean (h : s.Reachable OpensAlone) : Clean s := by
  refine Transition.Reachable.invariant (I := Clean) ?_ ?_ h
  · rintro s rfl
    exact .start
  · rintro s s' hs ⟨e, hok, rfl⟩
    exact hs.step hok

end Anchoring

open Anchoring

/-- **A new session starts clean.**  In every interleaving in which a session opens its slot
only when no task of an earlier session under the serial is running: whoever wrote the slot
of a session made the request on that session, and no session has two anchor calls or two
spends in flight. -/
theorem session_starts_clean {s : Anchoring} (h : s.Reachable OpensAlone) :
    (∀ w ∈ s.writes, w.author = w.session) ∧
      ∀ key n, inFlight s.anchorCalls key n ≤ 1 ∧ inFlight s.refreshCalls key n ≤ 1 :=
  ⟨h.clean.written, fun key n => ⟨h.clean.anchor.once key n, h.clean.refresh.once key n⟩⟩

def anchorCall (n : ℕ) (digest : Digest) (stage : CallStage AnchorVerdict) :
    Call Serial (Work AnchorVerdict) := ⟨7, n, digest, stage⟩

def refreshCall (n : ℕ) (digest : Digest) (stage : CallStage LeaseRefreshStatus) :
    Call Serial (Work LeaseRefreshStatus) := ⟨7, n, digest, stage⟩

def oneAfterTheOther : List AnchorEvent :=
  [.register 7 1, .anchorRequest 7 1 10 false 0, .unregister 7 1, .register 7 2,
    .anchorAnswered (anchorCall 1 10 .asking) ⟨.bound, 3⟩,
    .anchorDone (anchorCall 1 10 (.resolved ⟨.bound, 3⟩)), .anchorRequest 7 2 10 true 0,
    .refreshRequest 7 2 11 true 0]

theorem session_starts_clean_after : ∃ s : Anchoring, s.Reachable OpensAlone ∧
    inFlight s.anchorCalls 7 2 = 1 ∧ inFlight s.refreshCalls 7 2 = 1 ∧
    ∀ w ∈ s.writes, w.author = w.session := by
  have hstart : start.Reachable OpensAlone := .start rfl
  have hreach : (oneAfterTheOther.foldl step start).Reachable OpensAlone := hstart.run (by decide)
  exact ⟨_, hreach, by decide, by decide, (session_starts_clean hreach).1⟩

def anchorBack : List AnchorEvent :=
  [.register 7 1, .anchorRequest 7 1 10 false 0, .unregister 7 1, .register 7 2,
    .anchorRequest 7 2 11 false 0, .anchorAnswered (anchorCall 1 10 .asking) ⟨.bound, 3⟩,
    .anchorDone (anchorCall 1 10 (.resolved ⟨.bound, 3⟩)),
    .anchorRequest 7 2 12 false (2 * nanosPerSec)]

/-- The same with two spends. -/
def refreshBack : List AnchorEvent :=
  [.register 7 1, .refreshRequest 7 1 10 true 0, .unregister 7 1, .register 7 2,
    .refreshRequest 7 2 11 true 0, .refreshSpent (refreshCall 1 10 .spending) (some 8),
    .refreshDone (refreshCall 1 10 (.resolved .refreshed)),
    .refreshRequest 7 2 12 true (2 * nanosPerSec)]

/-- **A task of an earlier session writes the slot of the next**: it anchors a session that
never had an anchor verdict, or says of it that it refreshes; it clears the flag of a call
in flight, so that two calls of that session are. -/
theorem earlier_session_writes :
    (∃ s : Anchoring, s.Reachable (fun _ _ => True) ∧ ⟨7, 2, 1⟩ ∈ s.writes ∧
      (s.registry.slots.lookup 7).map AnchorSlot.anchored = some true ∧
      inFlight s.anchorCalls 7 2 = 2) ∧
    ∃ s : Anchoring, s.Reachable (fun _ _ => True) ∧ ⟨7, 2, 1⟩ ∈ s.writes ∧
      (s.registry.slots.lookup 7).map (fun slot => slot.lease.capable) = some true ∧
      inFlight s.refreshCalls 7 2 = 2 := by
  have hstart : start.Reachable fun _ _ => True := .start rfl
  have hreach : ∀ es : List AnchorEvent, (es.foldl step start).Reachable fun _ _ => True :=
    fun es => hstart.foldl (fun _ e => ⟨e, trivial, rfl⟩) es
  exact ⟨⟨_, hreach anchorBack, by decide, by decide, by decide⟩,
    ⟨_, hreach refreshBack, by decide, by decide, by decide⟩⟩

end WarrenGuard.Registry
