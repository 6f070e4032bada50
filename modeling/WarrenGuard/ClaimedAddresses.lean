/-
An address something still routes to goes back to its last holder only.

The deployer may call a free address claimed (a port forward still names it).  The pool then keeps
it from everybody but the key under which it was last held, on each of the ways it hands out free
addresses: the sticky binding, the reconnect after a clean close, the restart reclaim and the
random draw.

* `Handed` — what a call that hands out an address has asked and written (`Allocates.handed`);
* `watched_sound` — the pool's own record of last holders is who has really held each address
  last, if the claims are wired before the first allocation;
* `claimed_address_only_to_last_holder` — so the record can be relied on.
-/
import WarrenGuard.PoolConservation

namespace WarrenGuard

namespace IpPool

namespace IpAllocator

variable {claims : ℕ → Ipv4Addr → Bool} {p q r : IpAllocator} {addr target : Ipv4Addr}
  {pubkey : Pubkey} {owner : Option Pubkey} {conn : ConnId}
  {answer : Option Ipv4Addr × IpAllocator}

/-! ### What a call has handed out -/

/-- **`addr` was handed to `owner`**: the record says so, and unless it was shared with
a connection of the same key, the deployer was asked about it. -/
structure Handed (claims : ℕ → Ipv4Addr → Bool) (p : IpAllocator) (owner : Option Pubkey)
    (addr : Ipv4Addr) (q : IpAllocator) : Prop where
  claims_eq : q.claims = p.claims
  last : q.lastHolder = p.lastHolder.insert addr owner
  cleared : (∃ key, owner = some key ∧ p.used.heldBy addr key = true) ∨
    Cleared claims p q addr owner

theorem Handed.hold (hc : p.claims = some claims) (hkept : Kept p q)
    (h : (∃ key, owner = some key ∧ p.used.heldBy addr key = true) ∨
      Cleared claims p q addr owner) (conn : ConnId) :
    Handed claims p owner addr (q.hold conn addr owner) := by
  refine ⟨hkept.claims, ?_, h⟩
  have hsome : q.claims.isSome = true := by
    rw [hkept.claims, hc]
    rfl
  show (if q.claims.isSome then q.lastHolder.insert addr owner else q.lastHolder) = _
  rw [if_pos hsome, hkept.last]

theorem Handed.bindSticky (h : Handed claims p owner addr q) (pubkey : Pubkey) :
    Handed claims p owner addr (q.bindSticky pubkey addr) :=
  ⟨h.claims_eq, h.last, h.cleared⟩

/-- **What an allocation hands out.** -/
theorem Allocates.handed {mayShare : Ipv4Addr → Prop} (h : Allocates p conn owner mayShare answer)
    (hc : p.claims = some claims) (hsome : answer.1 = some addr) :
    Handed claims p owner addr answer.2 := by
  cases h with
  | refused _ _ => cases hsome
  | shared hkept _ howner hheld _ =>
    cases hsome
    exact .hold hc hkept (.inl ⟨_, howner, hheld⟩) conn
  | taken hkept _ hcleared =>
    cases hsome
    exact .hold hc hkept (.inr (hcleared claims hc)) conn
  | bound hkept _ _ hcleared =>
    cases hsome
    exact (Handed.hold hc hkept (.inr (hcleared claims hc)) conn).bindSticky _

/-! ### Who has held an address last -/

/-- The address an operation hands to a connection that had none, and the key it is
handed out for. -/
def Op.handsOut (p : IpAllocator) : Op → Option (Ipv4Addr × Option Pubkey)
  | .allocate conn =>
    if p.used.addressOf conn = none then (p.allocate conn).1.map fun addr => (addr, none) else none
  | .allocateAt conn pubkey intent now mayReclaim =>
    if p.used.addressOf conn = none then
      (p.allocateAt conn pubkey intent now mayReclaim).1.map fun addr => (addr, some pubkey)
    else none
  | _ => none

/-- The last holders once an operation is done: whom it has handed an address to holds
it last, and a transfer renames its source wherever that was last. -/
def Op.history (p : IpAllocator) (last : Ipv4Addr → Option (Option Pubkey)) (o : Op) :
    Ipv4Addr → Option (Option Pubkey) :=
  match o with
  | .transferOwner src dst => fun a =>
    (last a).map fun holder => if holder = some src then some dst else holder
  | o =>
    match o.handsOut p with
    | some (addr, owner) => fun a => if a = addr then some owner else last a
    | none => last

/-- The claims are wired before the first allocation. -/
def Op.Wired (p : IpAllocator) : Op → Prop
  | .allocate _ => p.claims.isSome = true
  | .allocateAt .. => p.claims.isSome = true
  | _ => True

structure Watched where
  pool : IpAllocator
  last : Ipv4Addr → Option (Option Pubkey)

inductive WatchedStep (w : Watched) : Watched → Prop
  | op (o : Op) (h : o.Wired w.pool) :
      WatchedStep w ⟨o.apply w.pool, o.history w.pool w.last⟩
  | reorder (entries : List (Σ _ : Pubkey, Ipv4Addr)) (h : w.pool.sticky.entries.Perm entries) :
      WatchedStep w ⟨{ w.pool with sticky := Table.reorder w.pool.sticky entries h }, w.last⟩

/-- The pools that are watched from the beginning; nobody has held anything yet. -/
def WatchedReachable (networkIpv4 : Ipv4Addr) (prefixLen : ℕ) (gateway : Ipv4Addr) :
    Watched → Prop :=
  Transition.Reachable (fun w =>
    (∃ seed, withSeed networkIpv4 prefixLen gateway seed = .ok w.pool) ∧ w.last = fun _ => none)
    WatchedStep

/-- **What an operation hands out**, from the pool's own point of view. -/
theorem handed_of_handsOut {o : Op} (hc : p.claims = some claims)
    (h : o.handsOut p = some (addr, owner)) : Handed claims p owner addr (o.apply p) := by
  cases o with
  | allocate conn =>
    obtain ⟨hnew, hmap⟩ := Option.ite_none_right_eq_some.mp h
    obtain ⟨a, ha, heq⟩ := Option.map_eq_some_iff.mp hmap
    cases heq
    exact (allocate_allocates p conn hnew).handed hc ha
  | allocateAt conn pubkey intent now mayReclaim =>
    obtain ⟨hnew, hmap⟩ := Option.ite_none_right_eq_some.mp h
    obtain ⟨a, ha, heq⟩ := Option.map_eq_some_iff.mp hmap
    cases heq
    exact (allocateAt_allocates p conn pubkey intent now mayReclaim hnew).handed hc ha
  | _ => cases h

theorem Allocates.last_of_none {mayShare : Ipv4Addr → Prop}
    (h : Allocates p conn owner mayShare answer) (hnone : answer.1 = none) :
    answer.2.lastHolder = p.lastHolder := by
  cases h with
  | refused hkept _ => exact hkept.last
  | shared | taken | bound => cases hnone

theorem lastHolder_of_handsOut_none {o : Op} (h : o.handsOut p = none)
    (ht : ∀ src dst, o ≠ .transferOwner src dst) : (o.apply p).lastHolder = p.lastHolder := by
  cases o with
  | allocate conn =>
    rcases hheld : p.used.addressOf conn with _ | addr
    · rw [Op.handsOut, if_pos hheld, Option.map_eq_none_iff] at h
      exact (allocate_allocates p conn hheld).last_of_none h
    · rw [Op.apply, allocate, hheld]
  | allocateAt conn pubkey intent now mayReclaim =>
    rcases hheld : p.used.addressOf conn with _ | addr
    · rw [Op.handsOut, if_pos hheld, Option.map_eq_none_iff] at h
      exact (allocateAt_allocates p conn pubkey intent now mayReclaim hheld).last_of_none h
    · rw [Op.apply, allocateAt, hheld]
  | release conn =>
    show (p.release conn).lastHolder = p.lastHolder
    unfold release
    generalize p.used.release conn = answer
    obtain ⟨_ | ⟨addr, _ | _⟩, used⟩ := answer <;> rfl
  | transferOwner src dst => exact absurd rfl (ht src dst)
  | enableRestartReclaim eligible now => rfl
  | setAddressClaims claims => rfl

/-- **The pool's record follows the history**, operation by operation. -/
theorem lastHolder_apply {o : Op} (hw : o.Wired p) (a : Ipv4Addr) :
    (o.apply p).lastHolder.lookup a = o.history p (fun a => p.lastHolder.lookup a) a := by
  by_cases ht : ∃ src dst, o = .transferOwner src dst
  · obtain ⟨src, dst, rfl⟩ := ht
    show (p.transferOwner src dst).lastHolder.lookup a
      = (p.lastHolder.lookup a).map fun holder => if holder = some src then some dst else holder
    unfold transferOwner
    split
    · -- a transfer to the same key renames nothing
      rename_i heq
      subst heq
      rcases p.lastHolder.lookup a with _ | holder
      · rfl
      · rw [Option.map_some, ite_eq_right_iff.mpr fun h => h.symm]
    · show (p.lastHolder.retainMut _).lookup a = _
      rw [Table.lookup_retainMut]
      rcases p.lastHolder.lookup a with _ | holder
      · rfl
      · rfl
  · have hne : ∀ src dst, o ≠ .transferOwner src dst := fun src dst h => ht ⟨src, dst, h⟩
    have hhistory : o.history p (fun a => p.lastHolder.lookup a) = match o.handsOut p with
        | some (addr, owner) => fun a => if a = addr then some owner else p.lastHolder.lookup a
        | none => fun a => p.lastHolder.lookup a := by
      cases o with
      | transferOwner src dst => exact absurd rfl (hne src dst)
      | _ => rfl
    rw [hhistory]
    rcases hout : o.handsOut p with _ | ⟨addr, owner⟩
    · rw [lastHolder_of_handsOut_none hout hne]
    · have hsome : p.claims.isSome = true := by
        cases o with
        | allocate conn => exact hw
        | allocateAt => exact hw
        | _ => cases hout
      obtain ⟨claims, hc⟩ := Option.isSome_iff_exists.mp hsome
      rw [(handed_of_handsOut hc hout).last, Table.lookup_insert']

variable {networkIpv4 gateway : Ipv4Addr} {prefixLen : ℕ} {w : Watched}

/-- **The record of last holders is the history**, and the pool is a reachable one. -/
theorem watched_sound (h : WatchedReachable networkIpv4 prefixLen gateway w) :
    w.pool.Reachable networkIpv4 prefixLen gateway ∧
      ∀ a, w.pool.lastHolder.lookup a = w.last a := by
  refine Transition.Reachable.invariant (I := fun w => w.pool.Reachable networkIpv4 prefixLen
    gateway ∧ ∀ a, w.pool.lastHolder.lookup a = w.last a) ?_ ?_ h
  · rintro w ⟨⟨seed, hseed⟩, hlast⟩
    refine ⟨.start ⟨seed, hseed⟩, fun a => ?_⟩
    rw [(blank_withSeed hseed).2.2, hlast]
    rfl
  · rintro w w' ⟨hreach, hlast⟩ hstep
    cases hstep with
    | op o hw =>
      refine ⟨hreach.next (.op o), fun a => ?_⟩
      rw [lastHolder_apply hw, funext hlast]
    | reorder entries hperm => exact ⟨hreach.next (.reorder entries hperm), hlast⟩

/-- **A claimed address goes to its last holder only.**  In every run in which the
claims are wired before the first allocation: if an operation hands `addr` to a
connection that had no address, and the deployer calls `addr` claimed throughout the
call, then the connection has a key, and if `addr` was free, that key is the one
under which it was last held. -/
theorem claimed_address_only_to_last_holder
    (h : WatchedReachable networkIpv4 prefixLen gateway w) (hc : w.pool.claims = some claims)
    {o : Op} (hout : o.handsOut w.pool = some (addr, owner))
    (hclaimed : ∀ n, w.pool.asked ≤ n → n < (o.apply w.pool).asked → claims n addr = true) :
    owner ≠ none ∧ (addr ∈ w.pool.free → w.last addr = some owner) := by
  obtain ⟨hreach, hlast⟩ := watched_sound h
  rcases (handed_of_handsOut hc hout).cleared with ⟨key, rfl, hheld⟩ | ⟨n, hle, hlt, hcleared⟩
  · -- shared with a connection of the key, so it was not free
    refine ⟨Option.some_ne_none key, fun hfree => ?_⟩
    have hinv := reachable_conserved hreach
    obtain ⟨conn, hconn⟩ := (Holdings.heldBy_iff hinv.agree).mp hheld
    exact absurd ⟨_, hconn⟩ (hinv.sound.vacant addr hfree conn)
  · obtain ⟨howner, hholder⟩ := hcleared (hclaimed n hle hlt)
    exact ⟨howner, fun _ => by rw [← hlast, hholder]⟩

def claimsLater : ℕ → Ipv4Addr → Bool := fun n _ => decide (1 ≤ n)

def endedSession : List Op :=
  [.setAddressClaims claimsLater, .allocateAt 1 7 .fresh 0 false, .release 1]

def Watched.run (w : Watched) (ops : List Op) : Watched :=
  ops.foldl (fun w o => ⟨o.apply w.pool, o.history w.pool w.last⟩) w

theorem watched_endedSession : WatchedReachable 0x0A420000 29 0x0A420001
    (Watched.run ⟨slash29, fun _ => none⟩ endedSession) :=
  .next (.next (.next (.start ⟨⟨1, withSeed_slash29⟩, rfl⟩) (.op (.setAddressClaims _) trivial))
    (.op (.allocateAt 1 7 .fresh 0 false) rfl)) (.op (.release 1) trivial)

theorem claimed_address_only_to_last_holder_reconnect : ∃ w,
    WatchedReachable 0x0A420000 29 0x0A420001 w ∧ 0x0A420002 ∈ w.pool.free ∧
    (Op.allocateAt 2 7 .legacy 0 false).handsOut w.pool = some (0x0A420002, some 7) ∧
    w.last 0x0A420002 = some (some 7) := by
  have hout : (Op.allocateAt 2 7 .legacy 0 false).handsOut
      (Watched.run ⟨slash29, fun _ => none⟩ endedSession).pool = some (0x0A420002, some 7) := by
    decide
  have hfree : 0x0A420002 ∈ (Watched.run ⟨slash29, fun _ => none⟩ endedSession).pool.free := by
    decide
  have hlast := claimed_address_only_to_last_holder watched_endedSession rfl hout
    fun n hle _ => decide_eq_true hle
  exact ⟨_, watched_endedSession, hfree, hout, hlast.2 hfree⟩

end IpAllocator

end IpPool

end WarrenGuard
