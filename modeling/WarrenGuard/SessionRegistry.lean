/-
The registry of live sessions (`MultihopSessionRegistry` of
`warrenguard-multihop-server/src/multihop.rs`, and its `route` submodule).

A token session is keyed by the serial it was admitted on and holds the lease of that serial,
until a rebind moves the lease to a freshly spent serial; the key stays.  The lease a moved
session holds is in its anchor slot (`anchors`), and a session without slot holds the lease of its
key (`leaseSerial`).

* `registerKey`, `unregisterKey` — a connection is admitted, or ends;
* `openSlot`, `rebind` — an anchor or refresh request opens the slot, and the token it spends
  moves the lease;
* `liveTokenSerials` — the leases the deployer renews, with one lemma per operation on what is
  listed after it;
* `serialHeldByAnotherSession` — whether a setup on a serial would join a session it is not part
  of.

Design notes: of an anchor slot only the lease serial is kept, and control senders, attribution
and metrics are left out, since no lease decision reads them.  A key is in the table only while it
has a connection (`LiveSessions`).
-/
import WarrenGuard.AddressPool

namespace WarrenGuard

/-- The serial of a session token; 32 bytes, like a key. -/
abbrev Serial := Pubkey

namespace Registry

open IpPool

inductive SessionKey where
  | wallet (pubkey : Pubkey)
  | tokenSerial (serial : Serial)
  | route (serial : Serial)
deriving DecidableEq

def SessionKey.value : SessionKey → Pubkey
  | .wallet pubkey => pubkey
  | .tokenSerial serial | .route serial => serial

def SessionKey.token? : SessionKey → Option Serial
  | .tokenSerial serial => some serial
  | _ => none

/-- The connections of each live session; a session without connection is gone. -/
structure LiveSessions where
  table : Table SessionKey (Finset ConnId)
  served : ∀ {key conns}, table.lookup key = some conns → conns.Nonempty

namespace LiveSessions

def empty : LiveSessions := ⟨∅, fun h => by simp at h⟩

def conns (l : LiveSessions) (key : SessionKey) : Finset ConnId := (l.table.lookup key).getD ∅

def contains (l : LiveSessions) (key : SessionKey) : Bool := (l.table.lookup key).isSome

def add (l : LiveSessions) (key : SessionKey) (conn : ConnId) : LiveSessions where
  table := l.table.insert key (insert conn (l.conns key))
  served := by
    intro key' conns h
    rw [Table.lookup_insert'] at h
    split at h
    · cases h
      exact Finset.insert_nonempty _ _
    · exact l.served h

def remove (l : LiveSessions) (key : SessionKey) (conn : ConnId) : LiveSessions where
  table :=
    if (l.conns key).erase conn = ∅ then l.table.erase key
    else l.table.insert key ((l.conns key).erase conn)
  served := by
    intro key' conns h
    split at h
    · rw [Table.lookup_erase'] at h
      split at h
      · cases h
      · exact l.served h
    · rename_i hrest
      rw [Table.lookup_insert'] at h
      split at h
      · cases h
        exact Finset.nonempty_iff_ne_empty.mpr hrest
      · exact l.served h

def drop (l : LiveSessions) (key : SessionKey) : LiveSessions where
  table := l.table.erase key
  served := by
    intro key' conns h
    rw [Table.lookup_erase'] at h
    split at h
    · cases h
    · exact l.served h

variable (l : LiveSessions) (key key' : SessionKey)

theorem conns_drop : (l.drop key).conns key' = if key' = key then ∅ else l.conns key' := by
  show ((l.table.erase key).lookup key').getD ∅ = _
  rw [Table.lookup_erase']
  by_cases h : key' = key
  · rw [if_pos h, if_pos h]
    rfl
  · rw [if_neg h, if_neg h]
    rfl

theorem contains_iff {l : LiveSessions} {key : SessionKey} :
    l.contains key = true ↔ l.conns key ≠ ∅ := by
  unfold contains conns
  cases h : l.table.lookup key with
  | none => simp
  | some conns => simpa using (l.served h).ne_empty

theorem contains_add (conn : ConnId) :
    (l.add key conn).contains key' = (decide (key' = key) || l.contains key') := by
  unfold contains add
  rw [Table.lookup_insert']
  by_cases h : key' = key <;> simp [h]

theorem contains_remove_of_ne {key key' : SessionKey} (conn : ConnId) (h : key' ≠ key) :
    (l.remove key conn).contains key' = l.contains key' := by
  unfold contains remove
  split
  · rw [Table.lookup_erase', if_neg h]
  · rw [Table.lookup_insert', if_neg h]

theorem conns_add (conn : ConnId) :
    (l.add key conn).conns key' =
      if key' = key then insert conn (l.conns key) else l.conns key' := by
  show ((l.table.insert key _).lookup key').getD ∅ = _
  rw [Table.lookup_insert']
  by_cases h : key' = key
  · rw [if_pos h, if_pos h]
    rfl
  · rw [if_neg h, if_neg h]
    rfl

theorem conns_remove (conn : ConnId) :
    (l.remove key conn).conns key' =
      if key' = key then (l.conns key).erase conn else l.conns key' := by
  unfold remove
  show (AList.lookup key' (if (l.conns key).erase conn = ∅ then _ else _)).getD ∅ = _
  by_cases hrest : (l.conns key).erase conn = ∅
  · rw [if_pos hrest, Table.lookup_erase']
    by_cases h : key' = key
    · rw [if_pos h, if_pos h, hrest]
      rfl
    · rw [if_neg h, if_neg h]
      rfl
  · rw [if_neg hrest, Table.lookup_insert']
    by_cases h : key' = key
    · rw [if_pos h, if_pos h]
      rfl
    · rw [if_neg h, if_neg h]
      rfl

end LiveSessions

structure MultihopSessionRegistry where
  live : LiveSessions
  /-- The lease serial in the anchor slot of each token session that has one. -/
  anchors : Table Serial Serial

/-- What rebinding a session to a freshly spent serial came to. -/
inductive Rebind where
  | done
  | heldElsewhere
  | gone
deriving DecidableEq

namespace MultihopSessionRegistry

def new : MultihopSessionRegistry := ⟨LiveSessions.empty, ∅⟩

variable (r : MultihopSessionRegistry)

def leaseSerial (key : Serial) : Serial :=
  (r.anchors.lookup key).getD key

def tokenKeys : List Serial :=
  r.live.table.keys.filterMap SessionKey.token?

/-- `live_token_serials`: the leases to renew. -/
def liveTokenSerials : List Serial := r.tokenKeys.map r.leaseSerial

def isTokenSerialLive (serial : Serial) : Bool :=
  decide (serial ∈ r.liveTokenSerials)

/-- No anchor state of an earlier session under the same key carries over. -/
def resetForNewSession : SessionKey → MultihopSessionRegistry
  | .tokenSerial serial => { r with anchors := r.anchors.erase serial }
  | _ => r

def registerKey (key : SessionKey) (conn : ConnId) :
    MultihopSessionRegistry :=
  let live := r.live.add key conn
  if r.live.conns key = ∅ then { r.resetForNewSession key with live } else { r with live }

/-- Removes a connection; answers the lease a token session held when it ends. -/
def unregisterKey (key : SessionKey) (conn : ConnId) :
    Option Serial × MultihopSessionRegistry :=
  if r.live.contains key then
    let live := r.live.remove key conn
    if live.contains key then (none, { r with live })
    else
      match key with
      | .tokenSerial serial =>
        (some (r.leaseSerial serial), ⟨live, r.anchors.erase serial⟩)
      | _ => (none, { r with live })
  else (none, r)

/-- The section of `terminate` under `live`: the connections to close. -/
def takeSession (pubkey : Pubkey) :
    Finset ConnId × MultihopSessionRegistry :=
  (r.live.conns (.wallet pubkey), { r with live := r.live.drop (.wallet pubkey) })

/-- An anchor or refresh request opens the slot of a live session. -/
def openSlot (key : Serial) : MultihopSessionRegistry :=
  if r.live.contains (.tokenSerial key) ∧ (r.anchors.lookup key).isNone then
    { r with anchors := r.anchors.insert key key }
  else r

def isHeldElsewhere (key new : Serial) : Bool :=
  r.tokenKeys.any fun other => decide (other ≠ key) && decide (r.leaseSerial other = new)

/-- Moves the lease of the session keyed by `key` to `new`; the second component is
the serial reported ended. -/
def rebind (key new : Serial) :
    Rebind × Option Serial × MultihopSessionRegistry :=
  if r.isHeldElsewhere key new then (.heldElsewhere, none, r)
  else
    match r.live.contains (.tokenSerial key), r.anchors.lookup key with
    | true, some old =>
      (.done, if old ≠ new then some old else none,
        { r with anchors := r.anchors.insert key new })
    | _, _ => (.gone, some new, r)

end MultihopSessionRegistry

/-- Whether a setup on `serial` would join a live session it is not part of. -/
def serialHeldByAnotherSession (registry : Option MultihopSessionRegistry) (pool : IpAllocator)
    (serial : Serial) (preferIpv4 : Option Ipv4Addr) : Bool :=
  match registry with
  | none => false
  | some registry =>
    if !registry.isTokenSerialLive serial then false
    else
      match SessionIntent.fromPreferIpv4 preferIpv4 with
      | .legacy => false
      | .fresh => true
      | .join addr => !pool.heldByPubkey addr serial

namespace MultihopSessionRegistry

variable {r : MultihopSessionRegistry} {key serial : Serial} {conn : ConnId}

theorem mem_tokenKeys : key ∈ r.tokenKeys ↔ r.live.contains (.tokenSerial key) = true := by
  unfold tokenKeys LiveSessions.contains
  rw [List.mem_filterMap, AList.lookup_isSome, AList.mem_keys]
  constructor
  · rintro ⟨k, hk, htok⟩
    cases k with
    | tokenSerial s =>
      cases htok
      exact hk
    | wallet => cases htok
    | route => cases htok
  · intro hk
    exact ⟨_, hk, rfl⟩

/-- **A lease is listed when some live token session holds it.** -/
theorem mem_liveTokenSerials :
    serial ∈ r.liveTokenSerials ↔
      ∃ key, r.live.contains (.tokenSerial key) = true ∧ r.leaseSerial key = serial := by
  unfold liveTokenSerials
  simp only [List.mem_map, mem_tokenKeys]

/-! ### The connections of a session after each operation -/

variable {k : SessionKey}

theorem conns_registerKey (k k' : SessionKey) :
    (r.registerKey k conn).live.conns k' =
      if k' = k then insert conn (r.live.conns k) else r.live.conns k' := by
  rw [← LiveSessions.conns_add]
  unfold registerKey
  split <;> rfl

theorem conns_unregisterKey (k k' : SessionKey) :
    (r.unregisterKey k conn).2.live.conns k' =
      if k' = k then (r.live.conns k).erase conn else r.live.conns k' := by
  unfold unregisterKey
  dsimp only
  split
  · rw [← LiveSessions.conns_remove]
    split
    · rfl
    · cases k <;> rfl
  · -- a key that is not live has no connection to remove
    rename_i hdead
    have hempty : r.live.conns k = ∅ := by
      by_contra hne
      exact hdead (LiveSessions.contains_iff.mpr hne)
    by_cases hk : k' = k
    · rw [if_pos hk, hk, hempty]
      rfl
    · rw [if_neg hk]

/-! ### What is listed after each operation -/

theorem listed_registerKey_of_new (h : r.live.contains (.tokenSerial key) = false) :
    key ∈ (r.registerKey (.tokenSerial key) conn).liveTokenSerials := by
  have hempty : r.live.conns (.tokenSerial key) = ∅ := by
    by_contra hne
    rw [LiveSessions.contains_iff.mpr hne] at h
    cases h
  refine mem_liveTokenSerials.mpr ⟨key, ?_, ?_⟩
  · unfold registerKey
    rw [if_pos hempty]
    show (r.live.add _ conn).contains _ = true
    rw [LiveSessions.contains_add, decide_eq_true rfl, Bool.true_or]
  · unfold registerKey
    rw [if_pos hempty]
    show ((r.anchors.erase key).lookup key).getD key = key
    rw [AList.lookup_erase]
    rfl

theorem listed_registerKey (h : serial ∈ r.liveTokenSerials) :
    serial ∈ (r.registerKey k conn).liveTokenSerials := by
  obtain ⟨key, hlive, hlease⟩ := mem_liveTokenSerials.mp h
  refine mem_liveTokenSerials.mpr ⟨key, ?_, ?_⟩
  · have hadd : (r.live.add k conn).contains (.tokenSerial key) = true := by
      rw [LiveSessions.contains_add, hlive, Bool.or_true]
    unfold registerKey
    split <;> exact hadd
  · unfold registerKey
    split
    · -- the reset clears the slot of a key that is not live, so of another one
      rename_i hempty
      have hne : k ≠ .tokenSerial key := by
        rintro rfl
        exact LiveSessions.contains_iff.mp hlive hempty
      cases k with
      | tokenSerial s =>
        have hs : key ≠ s := fun heq => hne (heq ▸ rfl)
        show ((r.anchors.erase s).lookup key).getD key = serial
        rw [AList.lookup_erase_ne hs]
        exact hlease
      | wallet => exact hlease
      | route => exact hlease
    · exact hlease

/-- **The end of a connection**: a session that stays keeps its lease, and one that
ends reports the lease it held. -/
theorem listed_unregisterKey (h : serial ∈ r.liveTokenSerials)
    (hkeep : (r.unregisterKey k conn).1 ≠ some serial) :
    serial ∈ (r.unregisterKey k conn).2.liveTokenSerials := by
  obtain ⟨key, hlive, hlease⟩ := mem_liveTokenSerials.mp h
  by_cases hk : k = .tokenSerial key
  · subst hk
    unfold unregisterKey at hkeep ⊢
    rw [if_pos hlive] at hkeep ⊢
    dsimp only at hkeep ⊢
    split at hkeep
    · rename_i hstays
      rw [if_pos hstays]
      exact mem_liveTokenSerials.mpr ⟨key, hstays, hlease⟩
    -- the session ended, and its end reported exactly this lease
    · exact absurd (congrArg some hlease) hkeep
  · -- another session: neither its connections nor its slot are touched
    have hother : (r.live.remove k conn).contains (.tokenSerial key) = true := by
      rw [LiveSessions.contains_remove_of_ne _ _ (Ne.symm hk)]
      exact hlive
    unfold unregisterKey
    dsimp only
    split
    · split
      · exact mem_liveTokenSerials.mpr ⟨key, hother, hlease⟩
      · cases k with
        | tokenSerial s =>
          have hs : key ≠ s := fun heq => hk (heq ▸ rfl)
          refine mem_liveTokenSerials.mpr ⟨key, hother, ?_⟩
          show ((r.anchors.erase s).lookup key).getD key = serial
          rw [AList.lookup_erase_ne hs]
          exact hlease
        | wallet => exact mem_liveTokenSerials.mpr ⟨key, hother, hlease⟩
        | route => exact mem_liveTokenSerials.mpr ⟨key, hother, hlease⟩
    · exact h

theorem leaseSerial_openSlot (key' : Serial) :
    (r.openSlot key).leaseSerial key' = r.leaseSerial key' := by
  unfold openSlot
  split
  · rename_i hnone
    show ((r.anchors.insert key key).lookup key').getD key' = (r.anchors.lookup key').getD key'
    rw [Table.lookup_insert']
    by_cases hk : key' = key
    · subst hk
      rw [if_pos rfl, Option.isNone_iff_eq_none.mp hnone.2]
      rfl
    · rw [if_neg hk]
  · rfl

theorem listed_openSlot (h : serial ∈ r.liveTokenSerials) :
    serial ∈ (r.openSlot key).liveTokenSerials := by
  obtain ⟨key', hlive, hlease⟩ := mem_liveTokenSerials.mp h
  have hsame : (r.openSlot key).live = r.live := by
    unfold openSlot
    split <;> rfl
  refine mem_liveTokenSerials.mpr ⟨key', ?_, ?_⟩
  · rw [hsame]
    exact hlive
  · rw [leaseSerial_openSlot]
    exact hlease

/-- **What a rebind does.** -/
theorem rebind_cases (r : MultihopSessionRegistry) (key new : Serial) :
    (r.rebind key new = (.heldElsewhere, none, r) ∧ new ∈ r.liveTokenSerials) ∨
    r.rebind key new = (.gone, some new, r) ∨
    ∃ old, r.live.contains (.tokenSerial key) = true ∧ r.leaseSerial key = old ∧
      r.rebind key new = (.done, if old ≠ new then some old else none,
        { r with anchors := r.anchors.insert key new }) := by
  unfold rebind
  by_cases hheld : r.isHeldElsewhere key new = true
  · refine Or.inl ⟨by rw [if_pos hheld], ?_⟩
    obtain ⟨other, hmem, hother⟩ := List.any_eq_true.mp hheld
    have hlease := of_decide_eq_true (Bool.and_eq_true_iff.mp hother).2
    exact mem_liveTokenSerials.mpr ⟨other, mem_tokenKeys.mp hmem, hlease⟩
  · rw [if_neg hheld]
    cases hlive : r.live.contains (.tokenSerial key) with
    | false => exact Or.inr (Or.inl rfl)
    | true =>
      cases hslot : r.anchors.lookup key with
      | none => exact Or.inr (Or.inl rfl)
      | some old =>
        refine Or.inr (Or.inr ⟨old, rfl, ?_, rfl⟩)
        rw [leaseSerial, hslot]
        rfl

theorem leaseSerial_moved (key' new : Serial) :
    leaseSerial { r with anchors := r.anchors.insert key new } key' =
      if key' = key then new else r.leaseSerial key' := by
  show ((r.anchors.insert key new).lookup key').getD key' = _
  rw [Table.lookup_insert']
  by_cases hk : key' = key
  · rw [if_pos hk, if_pos hk]
    rfl
  · rw [if_neg hk, if_neg hk]
    rfl

end MultihopSessionRegistry

end Registry

end WarrenGuard
