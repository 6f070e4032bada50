/-
Placing connections at addresses.

Both address pools keep a list of addresses nobody holds and the holdings (`Shelf`), and hand out
a listed address, mint one (IPv6 only), share one the connection's own key already holds, or
refuse (`Placed`):

* `Placed.step`, `release_move`, `transfer_move` — every call of a pool is a move of the lease
  pool;
* `oneIdentity`, `Placed.not_held` — so identities are kept apart, and an address that was not
  shared was held by nobody.
-/
import WarrenGuard.Holdings

namespace WarrenGuard

namespace IpPool

open LeasePool Holdings

/-- The addresses nobody holds, as far as they are listed, and the holdings. -/
structure Shelf (α : Type) where
  free : List α
  used : Holdings α

namespace Shelf

variable {α : Type}

def pool (s : Shelf α) : Pool ConnId α Pubkey := ⟨s.free, s.used.lease⟩

theorem transfer_move {mints : Prop} (s : Shelf α) (src dst : Pubkey) :
    Step mints s.pool (pool ⟨s.free, s.used.transferOwner src dst⟩) := by
  rw [pool, pool, lease_transferOwner]
  exact .transfer src dst

/-- **One identity for each address**: the holders of an address have the same key,
and a holder without key is the only one. -/
def OneIdentity (used : Holdings α) : Prop :=
  ∀ conn conn' addr, used.addressOf conn = some addr → used.addressOf conn' = some addr →
    used.ownerOf conn = used.ownerOf conn' ∧ (used.ownerOf conn = none → conn = conn')

theorem oneIdentity {s : Shelf α} (h : Sound s.pool) : OneIdentity s.used := by
  intro conn conn' addr hconn hconn'
  have hentry : s.pool.book conn = some (addr, s.used.ownerOf conn) :=
    lease_eq_some.mpr ⟨hconn, rfl⟩
  have hentry' : s.pool.book conn' = some (addr, s.used.ownerOf conn') :=
    lease_eq_some.mpr ⟨hconn', rfl⟩
  refine ⟨h.one.owner hentry hentry', fun hnone => ?_⟩
  rw [hnone] at hentry
  exact h.one.alone hentry hentry'

/-! ### Placing a connection -/

variable [DecidableEq α]

/-- **What an allocation for a connection without address can do.** -/
inductive Placed (mints : Prop) (s : Shelf α) (conn : ConnId) (owner : Option Pubkey)
    (mayShare : α → Prop) : Option α → Shelf α → Prop
  | refused {t : Shelf α} (used : t.used = s.used) (free : s.free.Perm t.free) :
      Placed mints s conn owner mayShare none t
  | taken {t : Shelf α} {addr : α} (used : t.used = s.used.hold conn addr owner)
      (free : s.free.Perm (addr :: t.free)) : Placed mints s conn owner mayShare (some addr) t
  | minted {t : Shelf α} {addr : α} (hmints : mints) (hnew : s.used.isHeld addr = false)
      (hfree : addr ∉ s.free) (used : t.used = s.used.hold conn addr owner)
      (free : s.free.Perm t.free) : Placed mints s conn owner mayShare (some addr) t
  | shared {t : Shelf α} {addr : α} {pubkey : Pubkey} (howner : owner = some pubkey)
      (held : s.used.heldBy addr pubkey = true) (may : mayShare addr)
      (used : t.used = s.used.hold conn addr owner) (free : s.free.Perm t.free) :
      Placed mints s conn owner mayShare (some addr) t

variable {mints : Prop} {s t u : Shelf α} {conn : ConnId} {owner : Option Pubkey}
  {mayShare mayShare' : α → Prop} {r : Option α}

theorem Placed.mono (h : Placed mints s conn owner mayShare r t)
    (hmay : ∀ a, mayShare a → mayShare' a) : Placed mints s conn owner mayShare' r t := by
  cases h with
  | refused hu hf => exact .refused hu hf
  | taken hu hf => exact .taken hu hf
  | minted hmints hnew hfree hu hf => exact .minted hmints hnew hfree hu hf
  | shared howner held may hu hf => exact .shared howner held (hmay _ may) hu hf

theorem Placed.weaken {mints' : Prop} (h : Placed mints s conn owner mayShare r t)
    (hmints : mints → mints') : Placed mints' s conn owner mayShare r t := by
  cases h with
  | refused hu hf => exact .refused hu hf
  | taken hu hf => exact .taken hu hf
  | minted hmay hnew hfree hu hf => exact .minted (hmints hmay) hnew hfree hu hf
  | shared howner held may hu hf => exact .shared howner held may hu hf

theorem Placed.agree (h : Placed mints s conn owner mayShare r t) (ha : s.used.Agree)
    (hnew : s.used.addressOf conn = none) : t.used.Agree := by
  cases h with
  | refused hu => exact hu ▸ ha
  | taken hu => exact hu ▸ ha.hold hnew
  | minted _ _ _ hu => exact hu ▸ ha.hold hnew
  | shared _ _ _ hu => exact hu ▸ ha.hold hnew

variable {addr : α}

theorem Placed.used_eq (h : Placed mints s conn owner mayShare (some addr) t) :
    t.used = s.used.hold conn addr owner := by
  cases h with
  | taken hu => exact hu
  | minted _ _ _ hu => exact hu
  | shared _ _ _ hu => exact hu

theorem Placed.used_of_none (h : Placed mints s conn owner mayShare none t) : t.used = s.used := by
  cases h with
  | refused hu => exact hu

theorem Placed.addressOf (h : Placed mints s conn owner mayShare (some addr) t) :
    t.used.addressOf conn = some addr := by
  rw [h.used_eq, addressOf_hold, if_pos rfl]

theorem vacant_of_not_isHeld (ha : s.used.Agree) (h : s.used.isHeld addr = false) :
    s.pool.book.Vacant addr := by
  intro conn hconn
  rw [(isHeld_iff ha).mpr ⟨conn, hconn⟩] at h
  cases h

/-! ### Every call is a move -/

theorem Placed.step (h : Placed mints s conn owner mayShare r t) (ha : s.used.Agree)
    (hnew : s.used.addressOf conn = none) : Step mints s.pool t.pool := by
  have hnone : s.pool.book conn = none := lease_eq_none.mpr hnew
  cases h with
  | refused hu hf =>
    rw [pool, pool, hu]
    exact .shuffle hf
  | taken hu hf =>
    rw [pool, pool, hu, lease_hold ha hnew]
    exact .take conn owner hnone hf
  | minted hmints hheld hfree hu hf =>
    rw [pool, pool, hu, lease_hold ha hnew]
    exact .mint conn owner hmints hnone (vacant_of_not_isHeld ha hheld) hfree hf
  | shared howner held _ hu hf =>
    obtain ⟨conn', hconn'⟩ := (heldBy_iff ha).mp held
    rw [pool, pool, hu, howner, lease_hold ha hnew]
    exact .share conn conn' hnone hconn' hf

/-- The shelf after `conn` ended: a vacant address goes back on the list. -/
def release (s : Shelf α) (conn : ConnId) : Shelf α :=
  match s.used.release conn with
  | (some (addr, true), used) => ⟨s.free ++ [addr], used⟩
  | (_, used) => ⟨s.free, used⟩

theorem used_release (s : Shelf α) (conn) :
    (s.release conn).used = (s.used.release conn).2 := by
  unfold release
  generalize s.used.release conn = answer
  obtain ⟨_ | ⟨addr, _ | _⟩, used⟩ := answer <;> rfl

theorem mem_free_release (s : Shelf α) (conn) (h : addr ∈ s.free) :
    addr ∈ (s.release conn).free := by
  unfold release
  generalize s.used.release conn = answer
  obtain ⟨_ | ⟨addr', _ | _⟩, used⟩ := answer
  · exact h
  · exact h
  · exact List.mem_append_left _ h

theorem release_move (ha : s.used.Agree) (conn) :
    Step mints s.pool (s.release conn).pool := by
  rw [pool, pool, used_release, lease_release]
  unfold release
  rcases release_answer ha conn with
    ⟨hnone, hout⟩ | ⟨addr, hheld, hout, hlast⟩ | ⟨addr, conn', hheld, hout, hne, hother⟩ <;>
    generalize s.used.release conn = answer at hout ⊢ <;> obtain ⟨out, used⟩ := answer <;>
    obtain rfl := hout
  · -- nothing was held: the book has no entry to take away
    rw [Function.update_eq_self_iff.mpr (lease_eq_none.mpr hnone).symm]
    exact .shuffle (List.Perm.refl _)
  · exact .vacate conn hheld hlast (List.perm_append_singleton addr s.free).symm
  · exact .leave conn conn' hne hheld hother

theorem Placed.shared_of_holder {conn' : ConnId}
    (h : Placed mints s conn owner mayShare (some addr) t) (hs : Sound s.pool) (ha : s.used.Agree)
    (hconn' : s.used.addressOf conn' = some addr) :
    ∃ pubkey, owner = some pubkey ∧ s.used.heldBy addr pubkey = true ∧
      s.used.ownerOf conn' = some pubkey ∧ mayShare addr := by
  cases h with
  | taken hu hf =>
    -- a listed address has no holder
    have hfree : addr ∈ s.pool.free := hf.mem_iff.mpr List.mem_cons_self
    exact absurd (holds_lease.mpr hconn') (hs.vacant addr hfree conn')
  | minted _ hnew =>
    exact absurd (holds_lease.mpr hconn') (vacant_of_not_isHeld ha hnew conn')
  | shared howner held may =>
    obtain ⟨holder, hholder⟩ := (heldBy_iff ha).mp held
    obtain ⟨hat, hkey⟩ := lease_eq_some.mp hholder
    exact ⟨_, howner, held, (oneIdentity hs conn' holder addr hconn' hat).1.trans hkey, may⟩

/-- **An address that was not shared was held by nobody.** -/
theorem Placed.not_held (h : Placed mints s conn owner mayShare (some addr) t) (hs : Sound s.pool)
    (ha : s.used.Agree)
    (hmay : ∀ pubkey, owner = some pubkey → s.used.heldBy addr pubkey = true → ¬ mayShare addr) :
    s.used.isHeld addr = false := by
  refine Bool.eq_false_iff.mpr fun hheld => ?_
  obtain ⟨conn', hconn'⟩ := (isHeld_iff ha).mp hheld
  obtain ⟨pubkey, howner, held, -, may⟩ :=
    h.shared_of_holder hs ha (holds_lease.mp hconn')
  exact hmay pubkey howner held may

theorem not_free_of_heldBy {pubkey : Pubkey} (hs : Sound s.pool) (ha : s.used.Agree)
    (hheld : s.used.heldBy addr pubkey = true) : addr ∉ s.free := by
  intro hfree
  obtain ⟨holder, hholder⟩ := (heldBy_iff ha).mp hheld
  exact hs.vacant addr hfree holder ⟨_, hholder⟩

/-- A placement that may share only the `preferred` address of its key, and does share
it while the key holds it, ends beside the connections of the key that have it. -/
theorem Placed.shares_iff {pubkey : Pubkey} {preferred : Option α} {addr addr' : α} {conn' : ConnId}
    (h : Placed mints s conn (some pubkey) (fun a => preferred = some a) (some addr) t)
    (hs : Sound s.pool) (ha : s.used.Agree)
    (hkeep : ∀ a, preferred = some a → s.used.heldBy a pubkey = true → addr = a)
    (hconn' : s.used.addressOf conn' = some addr') :
    addr' = addr ↔ s.used.ownerOf conn' = some pubkey ∧ preferred = some addr' := by
  constructor
  · rintro rfl
    obtain ⟨_, ⟨⟩, -, hkey, hpref⟩ := h.shared_of_holder hs ha hconn'
    exact ⟨hkey, hpref⟩
  · rintro ⟨hkey, hpref⟩
    have hheld : s.used.heldBy addr' pubkey = true :=
      (heldBy_iff ha).mpr ⟨conn', lease_eq_some.mpr ⟨hconn', hkey⟩⟩
    exact (hkeep addr' hpref hheld).symm

end Shelf

end IpPool

end WarrenGuard
