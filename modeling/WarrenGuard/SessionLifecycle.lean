/-
Setups, ends and revocations of sessions, one lock section at a time (`process_setup_frame`,
`unregister_key` and `terminate` of `warrenguard-multihop-server/src/multihop.rs`).

A setup checks the allowlist, registers its connection, checks the allowlist again and, later,
records the address it was given.  When a connection ends, it is removed from the registry, and
the last one of a key then marks the addresses of the key as departed.  A revocation takes the key
off the allowlist, removes its session from the registry, clears its addresses and closes the
connections it removed.  It may find nothing to close, because the setup has passed its first
check and is not registered yet:

* `Revocable` — a connection that is served is in the registry, or is on the list of a revocation,
  or was told to close (`Revocable.step`);
* `revocation_reaches_setups` — so once a revocation and the setups of its key are finished, no
  connection of the key is served that was not told to close;
* `mem_snapshotIpv4ToPubkeyAt`, `mem_addressesSharingOwnerAt` — what the readers of the
  attribution show.

Design notes: `is_allowed_at` also looks at the clock; whether an entry has expired is an input.
Only wallet keys are on the allowlist.  No step reads `gone`, `refused` and `told`.  What a setup
does between the steps above is left out.
-/
import WarrenGuard.SessionRegistry
import WarrenGuard.Transition

namespace WarrenGuard.Registry

open Function

/-! ### Attribution -/

/-- Whose a tunnel address is. -/
structure Ipv4Owner where
  pubkey : Pubkey
  /-- `none` while the client has a live session. -/
  departedDeadline : Option ℕ
deriving DecidableEq

abbrev Attribution := Table Ipv4Addr Ipv4Owner

def departedAttributionRetention : ℕ := 360 * nanosPerSec

namespace Attribution

variable (m : Attribution)

def recordAssignedIpv4 (ipv4 : Ipv4Addr) (pubkey : Pubkey) : Attribution :=
  m.insert ipv4 ⟨pubkey, none⟩

def depart (pubkey : Pubkey) (now : ℕ) (owner : Ipv4Owner) : Ipv4Owner :=
  if owner.pubkey = pubkey ∧ owner.departedDeadline = none then
    { owner with departedDeadline := some (now + departedAttributionRetention) }
  else owner

def tombstone (pubkey : Pubkey) (now : ℕ) : Attribution :=
  Table.retainMut (fun _ owner => some (depart pubkey now owner)) m

/-- `terminate`, the section under the attribution lock. -/
def clear (pubkey : Pubkey) : Attribution :=
  Table.retain (fun _ owner => decide (owner.pubkey ≠ pubkey)) m

/-- The sweep of the two readers: what has departed long enough ago goes. -/
def sweep (now : ℕ) : Attribution :=
  Table.retain (fun _ owner => owner.departedDeadline.all fun d => decide (now < d)) m

def snapshotIpv4ToPubkeyAt (now : ℕ) : List (Ipv4Addr × Pubkey) × Attribution :=
  ((m.sweep now).entries.map fun e => (e.1, e.2.pubkey), m.sweep now)

def addressesSharingOwnerAt (ip : Ipv4Addr) (now : ℕ) :
    List Ipv4Addr × Attribution :=
  match (m.sweep now).lookup ip with
  | none => ([ip], m.sweep now)
  | some owner =>
    (((m.sweep now).entries.filter fun e => decide (e.2.pubkey = owner.pubkey)).map Sigma.fst,
      m.sweep now)

variable {m : Attribution} {ip ip' : Ipv4Addr} {pubkey : Pubkey} {now : ℕ}

theorem lookup_sweep : (m.sweep now).lookup ip =
    (m.lookup ip).filter fun owner => owner.departedDeadline.all fun d => decide (now < d) :=
  Table.lookup_retain ..

theorem mem_snapshotIpv4ToPubkeyAt : (ip, pubkey) ∈ (m.snapshotIpv4ToPubkeyAt now).1 ↔
    ∃ owner, (m.sweep now).lookup ip = some owner ∧ owner.pubkey = pubkey := by
  constructor
  · intro h
    obtain ⟨e, he, heq⟩ := List.mem_map.mp h
    cases heq
    exact ⟨e.2, Table.lookup_of_mem_entries he, rfl⟩
  · rintro ⟨owner, hl, rfl⟩
    exact List.mem_map.mpr ⟨⟨ip, owner⟩, Table.mem_entries_iff.mpr hl, rfl⟩

/-- **The group of an address** is the address itself and every address of the same key. -/
theorem mem_addressesSharingOwnerAt : ip' ∈ (m.addressesSharingOwnerAt ip now).1 ↔
    ip' = ip ∨ ∃ owner owner', (m.sweep now).lookup ip = some owner ∧
      (m.sweep now).lookup ip' = some owner' ∧ owner'.pubkey = owner.pubkey := by
  unfold addressesSharingOwnerAt
  cases hl : (m.sweep now).lookup ip with
  | none => simp
  | some owner =>
    simp only [Table.mem_keys_filter, decide_eq_true_eq]
    constructor
    · rintro ⟨owner', hl', hkey⟩
      exact .inr ⟨owner, owner', rfl, hl', hkey⟩
    · rintro (rfl | ⟨_, owner', ⟨⟩, hl', hkey⟩)
      · exact ⟨owner, hl, rfl⟩
      · exact ⟨owner', hl', hkey⟩

end Attribution

/-! ### Connections and revocations -/

inductive Phase where
  | idle
  /-- Past the first check. -/
  | checked (key : SessionKey)
  | registered (key : SessionKey)
  /-- Past the recheck; its address is not recorded yet. -/
  | rechecked (key : SessionKey)
  | served (key : SessionKey)
  /-- Told to close at the recheck; its guard has not been dropped yet. -/
  | refusing (key : SessionKey)
  /-- The last one of its key is out of the registry, and the key not tombstoned yet. -/
  | leaving (key : SessionKey)
  | left (key : SessionKey)
deriving DecidableEq

namespace Phase

def key? : Phase → Option SessionKey
  | .idle => none
  | .checked key | .registered key | .rechecked key | .served key | .refusing key
  | .leaving key | .left key => some key

/-- The key it is registered under, from `register_key` to the drop of its guard. -/
def enrolled? : Phase → Option SessionKey
  | .registered key | .rechecked key | .served key | .refusing key => some key
  | .idle | .checked _ | .leaving _ | .left _ => none

def Served (phase : Phase) (key : SessionKey) : Prop := phase = .rechecked key ∨ phase = .served key

end Phase

inductive Task where
  | idle
  /-- The key is off the allowlist. -/
  | removed (pubkey : Pubkey)
  /-- Its session is out of the registry, its addresses are not cleared yet. -/
  | taken (pubkey : Pubkey) (conns : Finset ConnId)
  /-- These connections are still to be closed. -/
  | closing (pubkey : Pubkey) (conns : Finset ConnId)
deriving DecidableEq

def Task.pubkey? : Task → Option Pubkey
  | .idle => none
  | .removed pubkey | .taken pubkey _ | .closing pubkey _ => some pubkey

def Task.toClose : Task → Finset ConnId
  | .idle | .removed _ => ∅
  | .taken _ conns | .closing _ conns => conns

structure Lifecycle where
  registry : MultihopSessionRegistry
  attribution : Attribution
  allowed : Finset Pubkey
  gone : Finset Pubkey
  phase : ConnId → Phase
  task : ℕ → Task
  refused : Finset ConnId
  told : Finset ConnId

inductive LifecycleEvent where
  | check (c : ConnId) (key : SessionKey) (unexpired : Bool)
  | register (c : ConnId)
  | recheck (c : ConnId) (unexpired : Bool)
  | record (c : ConnId) (ipv4 : Ipv4Addr)
  | unregister (c : ConnId)
  | tombstone (c : ConnId) (now : ℕ)
  /-- One of the readers of the attribution sweeps it. -/
  | sweep (now : ℕ)
  | allow (pubkey : Pubkey)
  | revoke (task : ℕ) (pubkey : Pubkey)
  | takeSession (task : ℕ)
  | clear (task : ℕ)
  | close (task : ℕ) (c : ConnId)

def LifecycleEvent.conn? : LifecycleEvent → Option ConnId
  | .check c _ _ | .register c | .recheck c _ | .record c _ | .unregister c | .tombstone c _ =>
    some c
  | _ => none

def LifecycleEvent.task? : LifecycleEvent → Option ℕ
  | .revoke t _ | .takeSession t | .clear t | .close t _ => some t
  | _ => none

variable {phase : Phase} {e : LifecycleEvent}

namespace Lifecycle

def start : Lifecycle :=
  ⟨.new, ∅, ∅, ∅, fun _ => .idle, fun _ => .idle, ∅, ∅⟩

variable (s : Lifecycle)

def conns (key : SessionKey) : Finset ConnId := s.registry.live.conns key

/-- The gate: only wallet keys are on the allowlist. -/
def isAllowed (unexpired : Bool) : SessionKey → Bool
  | .wallet pubkey => decide (pubkey ∈ s.allowed) && unexpired
  | .tokenSerial _ | .route _ => true

def moveTo (c : ConnId) (phase : Phase) : Lifecycle :=
  { s with phase := Function.update s.phase c phase }

def setTask (t : ℕ) (task : Task) : Lifecycle :=
  { s with task := Function.update s.task t task }

def check (c : ConnId) (key : SessionKey) (unexpired : Bool) : Lifecycle :=
  if s.isAllowed unexpired key then s.moveTo c (.checked key)
  else { s.moveTo c (.left key) with refused := insert c s.refused }

def register (c : ConnId) (key : SessionKey) : Lifecycle :=
  { s.moveTo c (.registered key) with registry := s.registry.registerKey key c }

def recheck (c : ConnId) (key : SessionKey) (unexpired : Bool) : Lifecycle :=
  if s.isAllowed unexpired key then s.moveTo c (.rechecked key)
  else { s.moveTo c (.refusing key) with refused := insert c s.refused }

def record (c : ConnId) (key : SessionKey) (ipv4 : Ipv4Addr) : Lifecycle :=
  { s.moveTo c (.served key) with
    attribution := s.attribution.recordAssignedIpv4 ipv4 key.value }

/-- The guard is dropped: the section under `live`. -/
def unregister (c : ConnId) (key : SessionKey) : Lifecycle :=
  let registry := (s.registry.unregisterKey key c).2
  -- only the end of the last connection of a key goes on to tombstone it
  let last := s.registry.live.contains key && !registry.live.contains key
  { s.moveTo c (if last then .leaving key else .left key) with registry := registry }

def tombstone (c : ConnId) (key : SessionKey) (now : ℕ) : Lifecycle :=
  { s.moveTo c (.left key) with attribution := s.attribution.tombstone key.value now }

def stepConn (c : ConnId) : Phase → LifecycleEvent → Lifecycle
  | .idle, .check _ key unexpired => s.check c key unexpired
  | .checked key, .register _ => s.register c key
  | .registered key, .recheck _ unexpired => s.recheck c key unexpired
  | .rechecked key, .record _ ipv4 => s.record c key ipv4
  | .registered key, .unregister _ | .rechecked key, .unregister _ | .served key, .unregister _
  | .refusing key, .unregister _ => s.unregister c key
  | .leaving key, .tombstone _ now => s.tombstone c key now
  | _, _ => s

def revoke (t : ℕ) (pubkey : Pubkey) : Lifecycle :=
  { s.setTask t (.removed pubkey) with
    allowed := s.allowed.erase pubkey
    gone := insert pubkey s.gone }

def takeSession (t : ℕ) (pubkey : Pubkey) : Lifecycle :=
  { s.setTask t (.taken pubkey (s.registry.takeSession pubkey).1) with
    registry := (s.registry.takeSession pubkey).2 }

def clear (t : ℕ) (pubkey : Pubkey) (conns : Finset ConnId) : Lifecycle :=
  { s.setTask t (.closing pubkey conns) with attribution := s.attribution.clear pubkey }

def close (t : ℕ) (pubkey : Pubkey) (conns : Finset ConnId) (c : ConnId) :
    Lifecycle :=
  { s.setTask t (.closing pubkey (conns.erase c)) with told := insert c s.told }

def stepTask (t : ℕ) : Task → LifecycleEvent → Lifecycle
  | .idle, .revoke _ pubkey => s.revoke t pubkey
  | .removed pubkey, .takeSession _ => s.takeSession t pubkey
  | .taken pubkey conns, .clear _ => s.clear t pubkey conns
  | .closing pubkey conns, .close _ c => if c ∈ conns then s.close t pubkey conns c else s
  | _, _ => s

def step (e : LifecycleEvent) : Lifecycle :=
  match e with
  | .check c _ _ | .register c | .recheck c _ | .record c _ | .unregister c | .tombstone c _ =>
    s.stepConn c (s.phase c) e
  | .sweep now => { s with attribution := s.attribution.sweep now }
  -- a key that is gone does not come back
  | .allow pubkey => if pubkey ∈ s.gone then s else { s with allowed := insert pubkey s.allowed }
  | .revoke t _ | .takeSession t | .clear t | .close t _ => s.stepTask t (s.task t) e

def Reachable (ok : Lifecycle → LifecycleEvent → Prop) : Lifecycle → Prop :=
  Transition.Reachable (· = start) (Transition.Guarded ok step)

variable {s s' : Lifecycle} {c c' : ConnId} {key key' : SessionKey} {t : ℕ} {p : Pubkey}
  {cs : Finset ConnId}

theorem mem_conns_register :
    c' ∈ (s.register c key).conns key' ↔ c' ∈ s.conns key' ∨ c' = c ∧ key' = key := by
  show c' ∈ (s.registry.registerKey key c).live.conns key' ↔ _
  rw [MultihopSessionRegistry.conns_registerKey]
  by_cases h : key' = key
  · rw [if_pos h, h, Finset.mem_insert]
    simp [conns, or_comm]
  · rw [if_neg h]
    simp [conns, h]

theorem mem_conns_unregister :
    c' ∈ (s.unregister c key).conns key' ↔ c' ∈ s.conns key' ∧ ¬ (c' = c ∧ key' = key) := by
  show c' ∈ (s.registry.unregisterKey key c).2.live.conns key' ↔ _
  rw [MultihopSessionRegistry.conns_unregisterKey]
  by_cases h : key' = key
  · rw [if_pos h, h, Finset.mem_erase]
    simp [conns, and_comm]
  · rw [if_neg h]
    simp [conns, h]

theorem mem_conns_takeSession :
    c ∈ (s.takeSession t p).conns key ↔ c ∈ s.conns key ∧ key ≠ .wallet p := by
  show c ∈ (s.registry.live.drop (.wallet p)).conns key ↔ _
  rw [LiveSessions.conns_drop]
  by_cases h : key = .wallet p <;> simp [h, conns]

/-! A step moves only who takes it. -/

theorem phase_stepConn_of_ne (h : c' ≠ c) : (s.stepConn c phase e).phase c' = s.phase c' := by
  unfold stepConn check recheck
  repeat' split
  all_goals first | rfl | exact update_of_ne h ..

theorem phase_stepTask {task : Task} : (s.stepTask t task e).phase = s.phase := by
  unfold stepTask
  split
  · rfl
  · rfl
  · rfl
  · split <;> rfl
  · rfl

theorem task_stepTask_of_ne {task : Task} {t' : ℕ} (h : t' ≠ t) :
    (s.stepTask t task e).task t' = s.task t' := by
  unfold stepTask
  split
  · exact update_of_ne h ..
  · exact update_of_ne h ..
  · exact update_of_ne h ..
  · split
    · exact update_of_ne h ..
    · rfl
  · rfl

theorem task_stepConn : (s.stepConn c phase e).task = s.task := by
  unfold stepConn
  split
  · unfold check
    split <;> rfl
  · rfl
  · unfold recheck
    split <;> rfl
  all_goals rfl

theorem phase_step_of_ne (h : e.conn? ≠ some c) : (s.step e).phase c = s.phase c := by
  cases e with
  | sweep now => rfl
  | allow p =>
    unfold step
    dsimp only
    split <;> rfl
  | check c' | register c' | recheck c' | record c' | unregister c' | tombstone c' =>
    exact phase_stepConn_of_ne fun hc => h (congrArg some hc.symm)
  | revoke | takeSession | clear | close => exact congrFun phase_stepTask c

theorem task_step_of_ne (h : e.task? ≠ some t) : (s.step e).task t = s.task t := by
  cases e with
  | sweep now => rfl
  | allow p =>
    unfold step
    dsimp only
    split <;> rfl
  | check | register | recheck | record | unregister | tombstone => exact congrFun task_stepConn t
  | revoke t' | takeSession t' | clear t' | close t' =>
    exact task_stepTask_of_ne fun ht => h (congrArg some ht.symm)

theorem phase_foldl_step {es : List LifecycleEvent} (h : ∀ e ∈ es, e.conn? ≠ some c) :
    (es.foldl step s).phase c = s.phase c :=
  Transition.foldl_frame (f := fun s : Lifecycle => s.phase c) fun e he _ =>
    phase_step_of_ne (h e he)

theorem task_foldl_step {es : List LifecycleEvent} (h : ∀ e ∈ es, e.task? ≠ some t) :
    (es.foldl step s).task t = s.task t :=
  Transition.foldl_frame (f := fun s : Lifecycle => s.task t) fun e he _ =>
    task_step_of_ne (h e he)

/-! ### Revocation -/

/-- **A served connection is in reach of a revocation.** -/
structure Revocable (s : Lifecycle) : Prop where
  apart : ∀ p ∈ s.allowed, p ∉ s.gone
  revoked : ∀ {t p}, (s.task t).pubkey? = some p → p ∈ s.gone
  enrolled : ∀ {key c}, c ∈ s.conns key → (s.phase c).enrolled? = some key
  reached : ∀ {c key}, (s.phase c).enrolled? = some key →
    c ∈ s.conns key ∨ c ∈ s.told ∨ ∃ t, c ∈ (s.task t).toClose
  owned : ∀ {t c p}, (s.task t).pubkey? = some p → c ∈ (s.task t).toClose →
    (s.phase c).key? = some (.wallet p)
  /-- What is registered after a revocation has taken the session is not past the recheck. -/
  emptied : ∀ {t p cs}, s.task t = .taken p cs ∨ s.task t = .closing p cs →
    ∀ c ∈ s.conns (.wallet p), ¬ (s.phase c).Served (.wallet p)
  refusing : ∀ {c key}, s.phase c = .refusing key → c ∈ s.refused

theorem Phase.key?_of_enrolled? (h : phase.enrolled? = some key) : phase.key? = some key := by
  cases phase <;> cases h <;> rfl

theorem isAllowed_wallet {unexpired : Bool} (h : s.isAllowed unexpired (.wallet p) = true) :
    p ∈ s.allowed := by
  simp only [isAllowed, Bool.and_eq_true, decide_eq_true_eq] at h
  exact h.1

theorem phase_moveTo (s : Lifecycle) (c c' phase) :
    (s.moveTo c phase).phase c' = if c' = c then phase else s.phase c' :=
  update_apply ..

theorem Revocable.start : Revocable start where
  apart _ h := absurd h (Finset.notMem_empty _)
  revoked h := by cases h
  enrolled h := absurd h (Finset.notMem_empty _)
  reached h := by cases h
  owned h := by cases h
  emptied h := by rcases h with h | h <;> cases h
  refusing h := by cases h

namespace Revocable

variable (h : Revocable s)
include h

/-- **The rule for a step of a connection that stays in the registry, or out of it.** -/
theorem move (hphase : s'.phase = Function.update s.phase c phase)
    (hregistry : s'.registry = s.registry) (hallowed : s'.allowed = s.allowed)
    (hgone : s'.gone = s.gone) (htask : s'.task = s.task) (htold : s'.told = s.told)
    (hrefused : s.refused ⊆ s'.refused)
    (hkey : ∀ key, (s.phase c).key? = some key → phase.key? = some key)
    (henrolled : phase.enrolled? = (s.phase c).enrolled?)
    (hserved : ∀ p, phase.Served (.wallet p) → (s.phase c).Served (.wallet p) ∨ p ∈ s.allowed)
    (hrefusing : ∀ key, phase = .refusing key → c ∈ s'.refused) : Revocable s' := by
  have hconns : ∀ key, s'.conns key = s.conns key := fun key => by rw [conns, conns, hregistry]
  have hsame : ∀ c', (s'.phase c').enrolled? = (s.phase c').enrolled? := by
    intro c'
    rw [hphase, update_apply]
    by_cases hc : c' = c
    · rw [if_pos hc, hc, henrolled]
    · rw [if_neg hc]
  refine ⟨?_, ?_, ?_, ?_, ?_, ?_, ?_⟩
  · rw [hallowed, hgone]
    exact h.apart
  · rw [htask, hgone]
    exact h.revoked
  · intro key c' hmem
    rw [hsame]
    exact h.enrolled (hconns key ▸ hmem)
  · intro c' key henr
    rw [hconns, htold, htask]
    exact h.reached (hsame c' ▸ henr)
  · intro t c' p ht hmem
    rw [htask] at ht hmem
    have howned := h.owned ht hmem
    rw [hphase, update_apply]
    by_cases hc : c' = c
    · rw [if_pos hc]
      exact hkey _ (hc ▸ howned)
    · rw [if_neg hc]
      exact howned
  · intro t p cs ht c' hmem hsrv
    rw [htask] at ht
    rw [hconns] at hmem
    rw [hphase, update_apply] at hsrv
    have hgone' : p ∈ s.gone := by
      rcases ht with ht | ht <;> exact h.revoked (by rw [ht]; rfl)
    by_cases hc : c' = c
    · rw [if_pos hc] at hsrv
      rcases hserved p hsrv with hold | hallow
      · exact h.emptied ht c (hc ▸ hmem) hold
      · exact h.apart p hallow hgone'
    · rw [if_neg hc] at hsrv
      exact h.emptied ht c' hmem hsrv
  · intro c' key hc'
    rw [hphase, update_apply] at hc'
    by_cases hc : c' = c
    · rw [if_pos hc] at hc'
      exact hc ▸ hrefusing key hc'
    · rw [if_neg hc] at hc'
      exact hrefused (h.refusing hc')

theorem check (hc : s.phase c = .idle) (key)
    (unexpired : Bool) : Revocable (s.check c key unexpired) := by
  unfold Lifecycle.check
  split
  · exact h.move rfl rfl rfl rfl rfl rfl (Finset.Subset.refl _)
      (by rw [hc]; intro key' hk; cases hk) (by rw [hc]; rfl)
      (by rintro p (hx | hx) <;> cases hx) nofun
  · exact h.move rfl rfl rfl rfl rfl rfl (Finset.subset_insert ..)
      (by rw [hc]; intro key' hk; cases hk) (by rw [hc]; rfl)
      (by rintro p (hx | hx) <;> cases hx) nofun

/-- **The recheck**: what passes it is on the allowlist. -/
theorem recheck (hc : s.phase c = .registered key)
    (unexpired : Bool) : Revocable (s.recheck c key unexpired) := by
  unfold Lifecycle.recheck
  split
  · rename_i hallowed
    refine h.move rfl rfl rfl rfl rfl rfl (Finset.Subset.refl _) (by rw [hc]; exact fun _ => id)
      (by rw [hc]; rfl) ?_ nofun
    rintro p (hx | hx)
    · cases hx
      exact .inr (isAllowed_wallet hallowed)
    · cases hx
  · exact h.move rfl rfl rfl rfl rfl rfl (Finset.subset_insert ..) (by rw [hc]; exact fun _ => id)
      (by rw [hc]; rfl) (by rintro p (hx | hx) <;> cases hx)
      (fun _ _ => Finset.mem_insert_self ..)

theorem record (hc : s.phase c = .rechecked key) (ipv4 : Ipv4Addr) :
    Revocable (s.record c key ipv4) := by
  refine h.move rfl rfl rfl rfl rfl rfl (Finset.Subset.refl _) (by rw [hc]; exact fun _ => id)
    (by rw [hc]; rfl) ?_ nofun
  rintro p (hx | hx)
  · cases hx
  · cases hx
    exact .inl (.inl hc)

theorem tombstone (hc : s.phase c = .leaving key) (now : ℕ) : Revocable (s.tombstone c key now) :=
  h.move rfl rfl rfl rfl rfl rfl (Finset.Subset.refl _) (by rw [hc]; exact fun _ => id)
    (by rw [hc]; rfl) (by rintro p (hx | hx) <;> cases hx) nofun

theorem register (hc : s.phase c = .checked key) : Revocable (s.register c key) := by
  have hphase : ∀ c', (s.register c key).phase c' =
      if c' = c then .registered key else s.phase c' := fun c' => phase_moveTo s c c' _
  -- the connection was not in the registry before
  have hnot : ∀ {key' c'}, c' ∈ s.conns key' → c' ≠ c := by
    rintro key' c' hmem rfl
    have henr := h.enrolled hmem
    rw [hc] at henr
    cases henr
  refine ⟨h.apart, h.revoked, ?_, ?_, ?_, ?_, ?_⟩
  · intro key' c' hmem
    rw [hphase]
    rcases mem_conns_register.mp hmem with hmem | ⟨rfl, rfl⟩
    · rw [if_neg (hnot hmem)]
      exact h.enrolled hmem
    · rw [if_pos rfl]
      rfl
  · intro c' key' henr
    rw [hphase] at henr
    split at henr
    · rename_i hcc
      cases henr
      exact .inl (mem_conns_register.mpr (.inr ⟨hcc, rfl⟩))
    · exact (h.reached henr).imp_left fun hmem => mem_conns_register.mpr (.inl hmem)
  · intro t c' p ht hmem
    have howned := h.owned ht hmem
    rw [hphase]
    split
    · rename_i hcc
      rw [hcc, hc] at howned
      exact howned
    · exact howned
  · intro t p cs ht c' hmem hsrv
    rw [hphase] at hsrv
    rcases mem_conns_register.mp hmem with hmem | ⟨rfl, -⟩
    · rw [if_neg (hnot hmem)] at hsrv
      exact h.emptied ht c' hmem hsrv
    · rw [if_pos rfl] at hsrv
      rcases hsrv with hx | hx <;> cases hx
  · intro c' key' hc'
    rw [hphase] at hc'
    split at hc'
    · cases hc'
    · exact h.refusing hc'

theorem unregister (hc : (s.phase c).enrolled? = some key) : Revocable (s.unregister c key) := by
  obtain ⟨phase, hphase, hout⟩ : ∃ phase : Phase,
      (∀ c', (s.unregister c key).phase c' = if c' = c then phase else s.phase c') ∧
      (phase = .leaving key ∨ phase = .left key) := by
    refine ⟨_, fun c' => phase_moveTo s c c' _, ?_⟩
    split
    · exact .inl rfl
    · exact .inr rfl
  refine ⟨h.apart, h.revoked, ?_, ?_, ?_, ?_, ?_⟩
  · intro key' c' hmem
    obtain ⟨hmem, hne⟩ := mem_conns_unregister.mp hmem
    have henr := h.enrolled hmem
    rw [hphase, if_neg]
    · exact henr
    · rintro rfl
      rw [hc] at henr
      exact hne ⟨rfl, (Option.some.inj henr).symm⟩
  · intro c' key' henr
    rw [hphase] at henr
    split at henr
    · rcases hout with rfl | rfl <;> cases henr
    · rename_i hne
      refine (h.reached henr).imp_left fun hmem => mem_conns_unregister.mpr ⟨hmem, ?_⟩
      exact fun hand => hne hand.1
  · intro t c' p ht hmem
    have howned := h.owned ht hmem
    rw [hphase]
    split
    · rename_i hcc
      rw [hcc, Phase.key?_of_enrolled? hc] at howned
      rcases hout with rfl | rfl <;> exact howned
    · exact howned
  · intro t p cs ht c' hmem hsrv
    obtain ⟨hmem, -⟩ := mem_conns_unregister.mp hmem
    rw [hphase] at hsrv
    split at hsrv
    · rcases hout with rfl | rfl <;> rcases hsrv with hx | hx <;> cases hx
    · exact h.emptied ht c' hmem hsrv
  · intro c' key' hc'
    rw [hphase] at hc'
    split at hc'
    · rcases hout with rfl | rfl <;> cases hc'
    · exact h.refusing hc'

/-- **The rule for a step of a revocation**: it keeps hold of what it takes out of the registry
until it has told it to close. -/
theorem retask {x : Task}
    (htask : s'.task = Function.update s.task t x) (hphase : s'.phase = s.phase)
    (hrefused : s'.refused = s.refused) (hapart : ∀ p ∈ s'.allowed, p ∉ s'.gone)
    (hgone : s.gone ⊆ s'.gone) (htold : s.told ⊆ s'.told)
    (hrevoked : ∀ p, x.pubkey? = some p → p ∈ s'.gone)
    (hconns : ∀ key c, c ∈ s'.conns key → c ∈ s.conns key)
    (hkept : ∀ key c, c ∈ s.conns key → c ∈ s'.conns key ∨ c ∈ x.toClose)
    (hclosed : ∀ c ∈ (s.task t).toClose, c ∈ s'.told ∨ c ∈ x.toClose)
    (howned : ∀ p, x.pubkey? = some p → ∀ c ∈ x.toClose, (s.phase c).key? = some (.wallet p))
    (hemptied : ∀ p cs, x = .taken p cs ∨ x = .closing p cs →
      ∀ c ∈ s'.conns (.wallet p), ¬ (s.phase c).Served (.wallet p)) : Revocable s' := by
  have htask' : ∀ t', s'.task t' = if t' = t then x else s.task t' := by
    intro t'
    rw [htask, update_apply]
  refine ⟨hapart, ?_, ?_, ?_, ?_, ?_, ?_⟩
  · intro t' p ht'
    rw [htask'] at ht'
    split at ht'
    · exact hrevoked p ht'
    · exact hgone (h.revoked ht')
  · intro key c hmem
    rw [hphase]
    exact h.enrolled (hconns key c hmem)
  · intro c key henr
    rw [hphase] at henr
    have hx : c ∈ x.toClose → ∃ t', c ∈ (s'.task t').toClose :=
      fun hmem => ⟨t, by rwa [htask', if_pos rfl]⟩
    rcases h.reached henr with hmem | hmem | ⟨t', hmem⟩
    · exact (hkept key c hmem).imp_right fun hmem => .inr (hx hmem)
    · exact .inr (.inl (htold hmem))
    · by_cases ht : t' = t
      · exact .inr ((hclosed c (ht ▸ hmem)).imp_right hx)
      · exact .inr (.inr ⟨t', by rwa [htask', if_neg ht]⟩)
  · intro t' c p ht' hmem
    rw [hphase]
    rw [htask'] at ht' hmem
    split at ht'
    · rename_i ht
      rw [if_pos ht] at hmem
      exact howned p ht' c hmem
    · rename_i ht
      rw [if_neg ht] at hmem
      exact h.owned ht' hmem
  · intro t' p cs ht' c hmem
    rw [hphase]
    rw [htask'] at ht'
    split at ht'
    · exact hemptied p cs ht' c hmem
    · exact h.emptied ht' c (hconns _ c hmem)
  · intro c key hc
    rw [hphase] at hc
    rw [hrefused]
    exact h.refusing hc

theorem revoke (ht : s.task t = .idle) (p) : Revocable (s.revoke t p) := by
  refine h.retask (x := .removed p) rfl rfl rfl (fun p' hp' => ?_) (Finset.subset_insert ..)
    (Finset.Subset.refl _) (fun p' hp' => ?_) (fun _ _ hmem => hmem) (fun _ _ hmem => .inl hmem)
    (fun c hmem => ?_) (fun _ _ c hmem => absurd hmem (Finset.notMem_empty c)) ?_
  · obtain ⟨hne, hmem⟩ := Finset.mem_erase.mp hp'
    exact fun hgone => (Finset.mem_insert.mp hgone).elim hne (h.apart p' hmem)
  · cases hp'
    exact Finset.mem_insert_self ..
  · rw [ht] at hmem
    exact absurd hmem (Finset.notMem_empty c)
  · rintro p' cs (hx | hx) <;> cases hx

/-- **The session is taken**: all its connections are on the list, and none in the registry. -/
theorem takeSession (ht : s.task t = .removed p) : Revocable (s.takeSession t p) := by
  refine h.retask (x := .taken p (s.conns (.wallet p))) rfl rfl rfl h.apart (Finset.Subset.refl _)
    (Finset.Subset.refl _) (fun p' hp' => ?_) (fun _ _ hmem => (mem_conns_takeSession.mp hmem).1)
    (fun key c hmem => ?_) (fun c hmem => ?_) (fun p' hp' c hmem => ?_) ?_
  · cases hp'
    exact h.revoked (by rw [ht]; rfl)
  · by_cases hkey : key = .wallet p
    · exact .inr (hkey ▸ hmem)
    · exact .inl (mem_conns_takeSession.mpr ⟨hmem, hkey⟩)
  · rw [ht] at hmem
    exact absurd hmem (Finset.notMem_empty c)
  · cases hp'
    exact Phase.key?_of_enrolled? (h.enrolled hmem)
  · rintro p' cs (hx | hx) c hmem
    · cases hx
      exact absurd rfl (mem_conns_takeSession.mp hmem).2
    · cases hx

/-- A revocation that has taken the session goes on with the part of its list that it has not
told to close. -/
theorem reclose
    (ht : s.task t = .taken p cs ∨ s.task t = .closing p cs) {cs' : Finset ConnId} (hsub : cs' ⊆ cs)
    (htask : s'.task = Function.update s.task t (.closing p cs')) (hphase : s'.phase = s.phase)
    (hregistry : s'.registry = s.registry) (hallowed : s'.allowed = s.allowed)
    (hgone : s'.gone = s.gone) (hrefused : s'.refused = s.refused) (htold : s.told ⊆ s'.told)
    (hclosed : ∀ c ∈ cs, c ∈ s'.told ∨ c ∈ cs') : Revocable s' := by
  have hpubkey : (s.task t).pubkey? = some p := by rcases ht with ht | ht <;> rw [ht] <;> rfl
  have hlist : (s.task t).toClose = cs := by rcases ht with ht | ht <;> rw [ht] <;> rfl
  have hconns : ∀ key, s'.conns key = s.conns key := fun key => by rw [conns, conns, hregistry]
  refine h.retask htask hphase hrefused ?_ hgone.ge htold (fun p' hp' => ?_)
    (fun key c hmem => hconns key ▸ hmem) (fun key c hmem => .inl (by rwa [hconns]))
    (hlist ▸ hclosed) (fun p' hp' c hmem => ?_) ?_
  · rw [hallowed, hgone]
    exact h.apart
  · cases hp'
    rw [hgone]
    exact h.revoked hpubkey
  · cases hp'
    exact h.owned hpubkey (hlist ▸ hsub hmem)
  · rintro p' cs'' (hx | hx) c hmem
    · cases hx
    · cases hx
      exact h.emptied ht c (hconns _ ▸ hmem)

theorem clear (ht : s.task t = .taken p cs) : Revocable (s.clear t p cs) :=
  h.reclose (.inl ht) (Finset.Subset.refl _) rfl rfl rfl rfl rfl rfl (Finset.Subset.refl _)
    fun _ hmem => .inr hmem

theorem close (ht : s.task t = .closing p cs) (c) : Revocable (s.close t p cs c) := by
  refine h.reclose (.inr ht) (Finset.erase_subset c cs) rfl rfl rfl rfl rfl rfl
    (Finset.subset_insert ..) fun c' hmem => ?_
  by_cases hc : c' = c
  · exact .inl (hc ▸ Finset.mem_insert_self ..)
  · exact .inr (Finset.mem_erase.mpr ⟨hc, hmem⟩)

theorem stepConn (hc : s.phase c = phase) (e) :
    Revocable (s.stepConn c phase e) := by
  unfold Lifecycle.stepConn
  split
  · exact h.check hc _ _
  · exact h.register hc
  · exact h.recheck hc _
  · exact h.record hc _
  · exact h.unregister (by rw [hc]; rfl)
  · exact h.unregister (by rw [hc]; rfl)
  · exact h.unregister (by rw [hc]; rfl)
  · exact h.unregister (by rw [hc]; rfl)
  · exact h.tombstone hc _
  · exact h

theorem stepTask {task : Task} (ht : s.task t = task) (e) : Revocable (s.stepTask t task e) := by
  unfold Lifecycle.stepTask
  split
  · exact h.revoke ht _
  · exact h.takeSession ht
  · exact h.clear ht
  · split
    · exact h.close ht _
    · exact h
  · exact h

theorem step (e) : Revocable (s.step e) := by
  cases e with
  | sweep now =>
    exact ⟨h.apart, h.revoked, h.enrolled, h.reached, h.owned, h.emptied, h.refusing⟩
  | allow p =>
    show Revocable (if p ∈ s.gone then s else { s with allowed := insert p s.allowed })
    split
    · exact h
    · rename_i hp
      refine ⟨fun p' hp' => ?_, h.revoked, h.enrolled, h.reached, h.owned, h.emptied, h.refusing⟩
      rcases Finset.mem_insert.mp hp' with rfl | hp'
      · exact hp
      · exact h.apart p' hp'
  | check | register | recheck | record | unregister | tombstone => exact h.stepConn rfl _
  | revoke | takeSession | clear | close => exact h.stepTask rfl _

theorem pubkey?_of_toClose (hmem : c ∈ (s.task t).toClose)
    (hkey : (s.phase c).key? = some (.wallet p)) : (s.task t).pubkey? = some p := by
  cases hpub : (s.task t).pubkey? with
  | none =>
    cases htask : s.task t <;> rw [htask] at hmem hpub
    · exact absurd hmem (Finset.notMem_empty c)
    all_goals cases hpub
  | some p' =>
    have howned := h.owned hpub hmem
    rw [hkey] at howned
    cases howned
    rfl

/-- **What is served was told to close**, once a revocation of the key has emptied the registry
and none has anything left to close. -/
theorem told_of_served (hdone : s.task t = .closing p ∅)
    (htasks : ∀ t', (s.task t').pubkey? = some p → s.task t' = .closing p ∅)
    (hserved : (s.phase c).Served (.wallet p)) : c ∈ s.told := by
  have henr : (s.phase c).enrolled? = some (.wallet p) := by
    rcases hserved with hc | hc <;> rw [hc] <;> rfl
  rcases h.reached henr with hmem | htold | ⟨t', hmem⟩
  · exact absurd hserved (h.emptied (.inr hdone) c hmem)
  · exact htold
  · have hpub := h.pubkey?_of_toClose hmem (Phase.key?_of_enrolled? henr)
    rw [htasks t' hpub] at hmem
    exact absurd hmem (Finset.notMem_empty c)

end Revocable

theorem Reachable.revocable {ok : Lifecycle → LifecycleEvent → Prop} (h : s.Reachable ok) :
    Revocable s := by
  refine Transition.Reachable.invariant (I := Revocable) ?_ ?_ h
  · rintro s rfl
    exact .start
  · rintro s s' hs ⟨e, -, rfl⟩
    exact hs.step e

end Lifecycle

/-- **Revocation reaches the sessions in setup.**  However the steps interleave: when a
revocation of `p` has closed what it took, no other revocation of `p` is under way and no
setup of `p` stands between its first check and its recheck, every connection of `p` was
refused or told to close or has ended, and none is served that was not told to close. -/
theorem revocation_reaches_setups {s : Lifecycle} {p : Pubkey} {t : ℕ}
    (h : s.Reachable fun _ _ => True) (hdone : s.task t = .closing p ∅)
    (htasks : ∀ t', (s.task t').pubkey? = some p → s.task t' = .closing p ∅)
    (hsetups : ∀ c, s.phase c ≠ .checked (.wallet p) ∧ s.phase c ≠ .registered (.wallet p)) :
    (∀ c, (s.phase c).key? = some (.wallet p) → c ∈ s.refused ∨ c ∈ s.told ∨
      s.phase c = .leaving (.wallet p) ∨ s.phase c = .left (.wallet p)) ∧
    ∀ c, (s.phase c).Served (.wallet p) → c ∈ s.told := by
  have hinv := h.revocable
  have hserved : ∀ c, (s.phase c).Served (.wallet p) → c ∈ s.told :=
    fun c => hinv.told_of_served hdone htasks
  refine ⟨fun c hkey => ?_, hserved⟩
  cases hc : s.phase c with
  | idle =>
    rw [hc] at hkey
    cases hkey
  | checked key =>
    rw [hc] at hkey
    cases hkey
    exact absurd hc (hsetups c).1
  | registered key =>
    rw [hc] at hkey
    cases hkey
    exact absurd hc (hsetups c).2
  | rechecked key =>
    rw [hc] at hkey
    cases hkey
    exact .inr (.inl (hserved c (.inl hc)))
  | served key =>
    rw [hc] at hkey
    cases hkey
    exact .inr (.inl (hserved c (.inr hc)))
  | refusing key => exact .inl (hinv.refusing hc)
  | leaving key =>
    rw [hc] at hkey
    cases hkey
    exact .inr (.inr (.inl rfl))
  | left key =>
    rw [hc] at hkey
    cases hkey
    exact .inr (.inr (.inr rfl))

/-- Connection 1 of key 7 is served.  Connection 2 passes its first check, the key is revoked,
and connection 2 registers after the session was taken. -/
def lateRegistration : List LifecycleEvent :=
  [.allow 7, .check 1 (.wallet 7) true, .register 1, .recheck 1 true, .record 1 10,
    .check 2 (.wallet 7) true, .revoke 0 7, .takeSession 0, .register 2, .clear 0, .close 0 1,
    .recheck 2 true]

theorem revocation_reaches_setups_late : ∃ s : Lifecycle, s.Reachable (fun _ _ => True) ∧
    s.phase 1 = .served (.wallet 7) ∧ 1 ∈ s.told ∧
    s.phase 2 = .refusing (.wallet 7) ∧ 2 ∈ s.refused := by
  have hstart : Lifecycle.start.Reachable fun _ _ => True := .start rfl
  have hreach : (lateRegistration.foldl Lifecycle.step .start).Reachable fun _ _ => True :=
    hstart.foldl (fun _ e => ⟨e, trivial, rfl⟩) lateRegistration
  have hone : (lateRegistration.foldl Lifecycle.step .start).phase 1 = .served (.wallet 7) := rfl
  have htwo : (lateRegistration.foldl Lifecycle.step .start).phase 2 = .refusing (.wallet 7) := rfl
  have hrevocation : (lateRegistration.foldl Lifecycle.step .start).task 0 = .closing 7 ∅ := rfl
  refine ⟨_, hreach, hone, (revocation_reaches_setups hreach hrevocation ?_ ?_).2 1 (.inr hone),
    htwo, ?_⟩
  · intro t ht
    by_cases h0 : t = 0
    · rw [h0, hrevocation]
    · rw [Lifecycle.task_foldl_step] at ht
      · cases ht
      · simp [lateRegistration, LifecycleEvent.task?, Ne.symm h0]
  · intro c
    by_cases h1 : c = 1
    · rw [h1, hone]
      decide
    by_cases h2 : c = 2
    · rw [h2, htwo]
      decide
    rw [Lifecycle.phase_foldl_step]
    · exact ⟨nofun, nofun⟩
    · simp [lateRegistration, LifecycleEvent.conn?, Ne.symm h1, Ne.symm h2]
  · decide

end WarrenGuard.Registry
