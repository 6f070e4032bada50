/-
The sticky tables of the address pools (`bind_sticky`, `transfer_owner` of
`warrenguard-multihop-server/src/ip_pool.rs`).

A key that is placed somewhere new is bound to it, unless it still holds the address it is bound
to; and the key that was bound to the new address before loses it.

* `OneKey` — no address is bound to two keys, so the one stale binding that is looked for is the
  only one there is;
* `lookup_bindSticky`, `lookup_transferSticky` — what the table says afterwards, whatever its
  iteration order;
* `allocateAt_rebinds` — an allocation leaves the table alone, or binds its key to an address that
  was free;
* `sticky_address_stable` — so the sticky address of a live session stays what it is.
-/
import WarrenGuard.PoolConservation

namespace WarrenGuard.IpPool

open LeasePool

/-! ### The table -/

section Tables

variable {α : Type} {sticky : Table Pubkey α} {pubkey key src dst : Pubkey} {addr : α}

def OneKey (sticky : Table Pubkey α) : Prop :=
  ∀ key key' addr, sticky.lookup key = some addr → sticky.lookup key' = some addr → key = key'

theorem OneKey.empty : OneKey (∅ : Table Pubkey α) := by
  intro key key' addr h
  cases h

theorem OneKey.congr {sticky' : Table Pubkey α} (h : OneKey sticky)
    (hsame : ∀ key, sticky'.lookup key = sticky.lookup key) : OneKey sticky' := by
  intro key key' addr hkey hkey'
  rw [hsame] at hkey hkey'
  exact h key key' addr hkey hkey'

variable [DecidableEq α] {used : Holdings α}

/-- The first half of `bindSticky`: the binding of another key to the address is dropped. -/
def dropOther (sticky : Table Pubkey α) (pubkey : Pubkey) (addr : α) : Table Pubkey α :=
  match sticky.entries.find? fun e => decide (e.2 = addr) with
  | some stale => if stale.1 ≠ pubkey then sticky.erase stale.1 else sticky
  | none => sticky

def bindingLive (used : Holdings α) (sticky : Table Pubkey α) (pubkey : Pubkey) : Bool :=
  (sticky.lookup pubkey).any fun bound => used.heldBy bound pubkey

theorem lookup_dropOther (h : OneKey sticky) (pubkey addr key) :
    (dropOther sticky pubkey addr).lookup key =
      if key ≠ pubkey ∧ sticky.lookup key = some addr then none else sticky.lookup key := by
  unfold dropOther
  cases hfind : sticky.entries.find? fun e => decide (e.2 = addr) with
  | none =>
    -- nobody is bound to the address
    have hnone : sticky.lookup key ≠ some addr := by
      intro hkey
      have hall := List.find?_eq_none.mp hfind ⟨key, addr⟩ (Table.mem_entries_iff.mpr hkey)
      exact hall (decide_eq_true rfl)
    rw [if_neg fun hboth => hnone hboth.2]
  | some stale =>
    have hbound : sticky.lookup stale.1 = some addr := by
      have hmem := Table.lookup_of_mem_entries (List.mem_of_find?_eq_some hfind)
      have hvalue := List.find?_some hfind
      rwa [of_decide_eq_true hvalue] at hmem
    -- and the one that was found is the only one
    have honly : sticky.lookup key = some addr ↔ key = stale.1 :=
      ⟨fun hkey => h key stale.1 addr hkey hbound, fun hkey => hkey ▸ hbound⟩
    dsimp only
    by_cases hown : stale.1 = pubkey
    · rw [if_neg (not_not.mpr hown), if_neg]
      rintro ⟨hne, hkey⟩
      exact hne ((honly.mp hkey).trans hown)
    · rw [if_pos hown, Table.lookup_erase']
      by_cases hkey : key = stale.1
      · rw [if_pos hkey, if_pos ⟨hkey ▸ hown, honly.mpr hkey⟩]
      · rw [if_neg hkey, if_neg fun hboth => hkey (honly.mp hboth.2)]

theorem bindSticky_eq (used : Holdings α) (sticky pubkey addr) :
    bindSticky used sticky pubkey addr =
      if bindingLive used (dropOther sticky pubkey addr) pubkey then dropOther sticky pubkey addr
      else (dropOther sticky pubkey addr).insert pubkey addr :=
  rfl

/-- **What the table says after a key was placed.** -/
theorem lookup_bindSticky (h : OneKey sticky) (used : Holdings α) (pubkey addr key) :
    (bindSticky used sticky pubkey addr).lookup key =
      if key = pubkey then
        if bindingLive used sticky pubkey then sticky.lookup pubkey else some addr
      else if sticky.lookup key = some addr then none
      else sticky.lookup key := by
  have hdrop := lookup_dropOther h pubkey addr
  have hsame : (dropOther sticky pubkey addr).lookup pubkey = sticky.lookup pubkey := by
    rw [hdrop, if_neg fun hboth => hboth.1 rfl]
  have hlive : bindingLive used (dropOther sticky pubkey addr) pubkey =
      bindingLive used sticky pubkey := by
    rw [bindingLive, hsame, bindingLive]
  rw [bindSticky_eq, hlive]
  by_cases hkey : key = pubkey
  · rw [if_pos hkey, hkey]
    cases bindingLive used sticky pubkey with
    | true => exact hsame
    | false => exact AList.lookup_insert _
  · rw [if_neg hkey]
    have hother : (dropOther sticky pubkey addr).lookup key =
        if sticky.lookup key = some addr then none else sticky.lookup key := by
      rw [hdrop]
      exact if_congr (and_iff_right hkey) rfl rfl
    cases bindingLive used sticky pubkey with
    | true => exact hother
    | false => exact (AList.lookup_insert_ne hkey).trans hother

theorem OneKey.bindSticky (h : OneKey sticky) (used pubkey addr) :
    OneKey (bindSticky used sticky pubkey addr) := by
  -- a key other than the placed one keeps its binding only if that is another address
  have hother : ∀ key a, key ≠ pubkey →
      (IpPool.bindSticky used sticky pubkey addr).lookup key = some a →
      sticky.lookup key = some a ∧ a ≠ addr := by
    intro key a hne hkey
    rw [lookup_bindSticky h, if_neg hne] at hkey
    split at hkey
    · cases hkey
    · next hne' => exact ⟨hkey, fun heq => hne' (heq ▸ hkey)⟩
  have hown : ∀ a, (IpPool.bindSticky used sticky pubkey addr).lookup pubkey = some a →
      sticky.lookup pubkey = some a ∨ a = addr := by
    intro a hkey
    rw [lookup_bindSticky h, if_pos rfl] at hkey
    split at hkey
    · exact .inl hkey
    · exact .inr (Option.some.inj hkey).symm
  have hmixed : ∀ key a, key ≠ pubkey →
      (IpPool.bindSticky used sticky pubkey addr).lookup key = some a →
      (IpPool.bindSticky used sticky pubkey addr).lookup pubkey ≠ some a := by
    intro key a hne hkey hpub
    obtain ⟨hold, hne'⟩ := hother key a hne hkey
    rcases hown a hpub with hpub | heq
    · exact hne (h key pubkey a hold hpub)
    · exact hne' heq
  intro key key' a hkey hkey'
  by_cases hk : key = pubkey
  · by_cases hk' : key' = pubkey
    · rw [hk, hk']
    · exact absurd (hk ▸ hkey) (hmixed key' a hk' hkey')
  · by_cases hk' : key' = pubkey
    · exact absurd (hk' ▸ hkey') (hmixed key a hk hkey)
    · exact h key key' a (hother key a hk hkey).1 (hother key' a hk' hkey').1

/-- **What the table says after a key's sessions became another's.** -/
theorem lookup_transferSticky (sticky : Table Pubkey α) (src dst key) :
    (transferSticky sticky src dst).lookup key =
      match sticky.lookup src with
      | none => sticky.lookup key
      | some addr =>
        if key = dst then some addr
        else if key = src then none
        else (sticky.lookup key).filter fun bound => decide (bound ≠ addr) := by
  unfold transferSticky
  cases sticky.lookup src with
  | none => rfl
  | some addr =>
    dsimp only
    rw [Table.lookup_insert', Table.lookup_retain, Table.lookup_erase']
    by_cases hdst : key = dst
    · rw [if_pos hdst, if_pos hdst]
    · rw [if_neg hdst, if_neg hdst]
      by_cases hsrc : key = src
      · rw [if_pos hsrc, if_pos hsrc]
        rfl
      · rw [if_neg hsrc, if_neg hsrc]

theorem OneKey.transferSticky (h : OneKey sticky) (src dst : Pubkey) :
    OneKey (transferSticky sticky src dst) := by
  cases hsrc : sticky.lookup src with
  | none =>
    refine h.congr fun key => ?_
    rw [lookup_transferSticky, hsrc]
  | some addr =>
    -- a key other than the new owner is bound to another address
    have hother : ∀ key a, key ≠ dst →
        (IpPool.transferSticky sticky src dst).lookup key = some a →
        sticky.lookup key = some a ∧ a ≠ addr := by
      intro key a hne hkey
      rw [lookup_transferSticky, hsrc] at hkey
      dsimp only at hkey
      rw [if_neg hne] at hkey
      split at hkey
      · cases hkey
      · obtain ⟨hold, hne'⟩ := Option.filter_eq_some_iff.mp hkey
        exact ⟨hold, of_decide_eq_true hne'⟩
    have hown : (IpPool.transferSticky sticky src dst).lookup dst = some addr := by
      rw [lookup_transferSticky, hsrc]
      exact if_pos rfl
    intro key key' a hkey hkey'
    by_cases hk : key = dst
    · by_cases hk' : key' = dst
      · rw [hk, hk']
      · rw [hk, hown] at hkey
        exact absurd (Option.some.inj hkey).symm (hother key' a hk' hkey').2
    · by_cases hk' : key' = dst
      · rw [hk', hown] at hkey'
        exact absurd (Option.some.inj hkey').symm (hother key a hk hkey).2
      · exact h key key' a (hother key a hk hkey).1 (hother key' a hk' hkey').1

/-- **What a call can do to the table** of a pool that binds only `bindable` addresses. -/
inductive StickyMove (bindable : α → Prop) (sticky : Table Pubkey α) : Table Pubkey α → Prop
  | kept : StickyMove bindable sticky sticky
  | bound (used : Holdings α) (pubkey : Pubkey) {addr : α} (h : bindable addr) :
      StickyMove bindable sticky (bindSticky used sticky pubkey addr)
  | transferred (src dst : Pubkey) : StickyMove bindable sticky (transferSticky sticky src dst)
  | reordered (entries : List (Σ _ : Pubkey, α)) (h : sticky.entries.Perm entries) :
      StickyMove bindable sticky (Table.reorder sticky entries h)

variable {bindable : α → Prop} {sticky' : Table Pubkey α}

theorem StickyMove.of_eq (h : sticky' = sticky) : StickyMove bindable sticky sticky' :=
  h ▸ .kept

theorem OneKey.move (h : OneKey sticky) (hmove : StickyMove bindable sticky sticky') :
    OneKey sticky' := by
  cases hmove with
  | kept => exact h
  | bound used pubkey _ => exact h.bindSticky used pubkey _
  | transferred src dst => exact h.transferSticky src dst
  | reordered entries hperm => exact h.congr fun key => Table.lookup_reorder _ _ hperm key

end Tables

/-! ### The table of the IPv4 pool -/

namespace IpAllocator

variable {p q : IpAllocator} {conn : ConnId} {pubkey key : Pubkey} {addr target : Ipv4Addr}

/-! What leaves it alone. -/

theorem sticky_allocate (p : IpAllocator) (conn) :
    (p.allocate conn).2.sticky = p.sticky := by
  have hpop := (popRandom_draw p).kept.sticky
  unfold allocate
  split
  · rfl
  · generalize p.popRandom = popped at hpop ⊢
    obtain ⟨_ | addr, q⟩ := popped
    · exact hpop
    · exact hpop

theorem sticky_release (p : IpAllocator) (conn) : (p.release conn).sticky = p.sticky := by
  unfold release
  split <;> rfl

/-! What changes it. -/

/-- **What an allocation does to the table**: nothing, or it binds its key to the address it
answers with, which was free. -/
inductive Rebinds (p : IpAllocator) (pubkey : Pubkey) (r : Option Ipv4Addr × IpAllocator) : Prop
  | kept (h : r.2.sticky = p.sticky)
  | bound {addr : Ipv4Addr} (hfree : addr ∈ p.free) (hanswer : r.1 = some addr)
    (h : r.2.sticky = IpPool.bindSticky r.2.used p.sticky pubkey addr)

theorem allocateAt_rebinds (p conn pubkey) (intent : SessionIntent) (now : ℕ) (mayReclaim : Bool) :
    Rebinds p pubkey (p.allocateAt conn pubkey intent now mayReclaim) := by
  cases hnew : p.used.addressOf conn with
  | some addr =>
    rw [allocateAt_known hnew]
    exact .kept rfl
  | none =>
    have h := allocateAt_allocates p conn pubkey intent now mayReclaim hnew
    generalize p.allocateAt conn pubkey intent now mayReclaim = r at h ⊢
    cases h with
    | refused hkept _ => exact .kept hkept.sticky
    | shared hkept => exact .kept hkept.sticky
    | taken hkept => exact .kept hkept.sticky
    | bound hkept hdrawn howner _ =>
      cases howner
      refine .bound (hdrawn.free.mem_iff.mpr List.mem_cons_self) rfl ?_
      rw [← hkept.sticky]
      rfl

theorem PoolStep.stickyMove (h : PoolStep p q) : StickyMove (· ∈ p.free) p.sticky q.sticky := by
  cases h with
  | op o =>
    cases o with
    | allocate conn => exact .of_eq (sticky_allocate p conn)
    | allocateAt conn pubkey intent now mayReclaim =>
      cases allocateAt_rebinds p conn pubkey intent now mayReclaim with
      | kept hsame => exact .of_eq hsame
      | bound hfree _ hbound =>
        rw [Op.apply, hbound]
        exact .bound _ pubkey hfree
    | release conn => exact .of_eq (sticky_release p conn)
    | transferOwner src dst =>
      rw [Op.apply, transferOwner]
      split
      · exact .of_eq rfl
      · exact .transferred src dst
    | enableRestartReclaim eligible now => exact .of_eq rfl
    | setAddressClaims claims => exact .of_eq rfl
  | reorder entries hperm => exact .reordered entries hperm

theorem reachable_oneKey {networkIpv4 gateway : Ipv4Addr} {prefixLen : ℕ}
    (h : Reachable networkIpv4 prefixLen gateway p) : OneKey p.sticky := by
  refine Transition.Reachable.invariant (I := fun p => OneKey p.sticky) ?_ ?_ h
  · rintro p ⟨seed, hp⟩
    exact (blank_withSeed hp).2.1 ▸ .empty
  · intro p q hp hstep
    exact hp.move hstep.stickyMove

/-! ### A live session -/

structure LiveAt (p : IpAllocator) (key : Pubkey) (addr : Ipv4Addr) : Prop where
  bound : p.sticky.lookup key = some addr
  held : p.heldByPubkey addr key = true

theorem heldBy_of_placed {owner : Option Pubkey} {mayShare : Ipv4Addr → Prop}
    {r : Option Ipv4Addr} (h : p.shelf.Placed False conn owner mayShare r q.shelf)
    (ha : p.used.Agree) (hnew : p.used.addressOf conn = none)
    (hheld : p.used.heldBy addr key = true) : q.used.heldBy addr key = true := by
  have hagree : q.used.Agree := h.agree ha hnew
  obtain ⟨holder, hholder⟩ := (Holdings.heldBy_iff ha).mp hheld
  refine (Holdings.heldBy_iff hagree).mpr ⟨holder, ?_⟩
  cases r with
  | none => rw [show q.used = p.used from h.used_of_none, hholder]
  | some addr' =>
    have hne : holder ≠ conn := by
      rintro rfl
      rw [Holdings.lease_eq_none.mpr hnew] at hholder
      cases hholder
    rw [show q.used = p.used.hold conn addr' owner from h.used_eq, Holdings.lease_hold ha hnew,
      Function.update_of_ne hne, hholder]

section Live

variable {networkIpv4 gateway : Ipv4Addr} {prefixLen : ℕ}

theorem LiveAt.allocate (h : LiveAt p key addr) (hp : Reachable networkIpv4 prefixLen gateway p)
    (conn) : LiveAt (p.allocate conn).2 key addr := by
  refine ⟨(congrArg _ (sticky_allocate p conn)).trans h.bound, ?_⟩
  cases hnew : p.used.addressOf conn with
  | some a =>
    rw [allocate_known hnew]
    exact h.held
  | none =>
    exact heldBy_of_placed (allocate_outcome p conn hnew).placed (reachable_conserved hp).agree hnew
      h.held

/-- **No placement of any key moves the binding of a live session.** -/
theorem LiveAt.allocateAt (h : LiveAt p key addr) (hp : Reachable networkIpv4 prefixLen gateway p)
    (conn pubkey) (intent : SessionIntent) (now : ℕ) (mayReclaim : Bool) :
    LiveAt (p.allocateAt conn pubkey intent now mayReclaim).2 key addr := by
  have hinv := reachable_conserved hp
  cases hnew : p.used.addressOf conn with
  | some a =>
    rw [allocateAt_known hnew]
    exact h
  | none =>
    have hout := allocateAt_outcome p conn pubkey intent now mayReclaim hnew
    have hheld := heldBy_of_placed hout.placed hinv.agree hnew h.held
    refine ⟨?_, hheld⟩
    cases allocateAt_rebinds p conn pubkey intent now mayReclaim with
    | kept hsame =>
      rw [hsame]
      exact h.bound
    | bound hfree hanswer hbound =>
      rw [hbound, lookup_bindSticky (reachable_oneKey hp)]
      by_cases hkey : key = pubkey
      · -- the key itself: its incumbent is live, so it stays
        subst hkey
        have hlive : bindingLive (p.allocateAt conn key intent now mayReclaim).2.used p.sticky key
            = true := by
          rw [bindingLive, h.bound]
          exact hheld
        rw [if_pos rfl, if_pos hlive]
        exact h.bound
      · -- another key: what it was given was free, and this address is not
        have hnotFree := Shelf.not_free_of_heldBy hinv.sound hinv.agree h.held
        rw [if_neg hkey, h.bound, if_neg]
        rintro heq
        cases heq
        exact hnotFree hfree

/-- The calls that keep the session of the key at the address going: no key is renamed,
and the connection released is not the last of the key there. -/
def Continues (p : IpAllocator) (key : Pubkey) (addr : Ipv4Addr) : Op → Prop
  | .transferOwner _ _ => False
  | .release conn => (p.release conn).heldByPubkey addr key = true
  | _ => True

/-- One step of the pool while the session is going. -/
inductive SessionStep (key : Pubkey) (addr : Ipv4Addr) (p : IpAllocator) : IpAllocator → Prop
  | op (o : Op) (h : Continues p key addr o) : SessionStep key addr p (o.apply p)
  | reorder (entries : List (Σ _ : Pubkey, Ipv4Addr)) (h : p.sticky.entries.Perm entries) :
      SessionStep key addr p { p with sticky := Table.reorder p.sticky entries h }

theorem SessionStep.poolStep (h : SessionStep key addr p q) : PoolStep p q := by
  cases h with
  | op o _ => exact .op o
  | reorder entries hperm => exact .reorder entries hperm

theorem LiveAt.step (h : LiveAt p key addr) (hp : Reachable networkIpv4 prefixLen gateway p)
    (hstep : SessionStep key addr p q) : LiveAt q key addr := by
  cases hstep with
  | op o ho =>
    cases o with
    | allocate conn => exact h.allocate hp conn
    | allocateAt conn pubkey intent now mayReclaim =>
      exact h.allocateAt hp conn pubkey intent now mayReclaim
    | release conn => exact ⟨(congrArg _ (sticky_release p conn)).trans h.bound, ho⟩
    | transferOwner src dst => exact ho.elim
    | enableRestartReclaim eligible now => exact ⟨h.bound, h.held⟩
    | setAddressClaims claims => exact ⟨h.bound, h.held⟩
  | reorder entries hperm => exact ⟨(Table.lookup_reorder _ _ hperm key).trans h.bound, h.held⟩

/-- **The sticky address of a live session is stable.**  In every reachable pool where the
sticky address of a key is held by a connection of the key, and for as long as neither the
last of those is released nor an owner transferred, every hint-less request of the key for a
new connection is answered with that address, and no allocation, of whatever key and with
whatever intent, changes the binding. -/
theorem sticky_address_stable (hp : Reachable networkIpv4 prefixLen gateway p)
    (hlive : LiveAt p key addr)
    (hrun : Transition.Reachable (· = p) (SessionStep key addr) q) :
    LiveAt q key addr ∧
      (∀ conn now mayReclaim, q.used.addressOf conn = none →
        (q.allocateAt conn key .legacy now mayReclaim).1 = some addr) ∧
      (∀ conn pubkey intent now mayReclaim,
        (q.allocateAt conn pubkey intent now mayReclaim).2.sticky.lookup key =
          q.sticky.lookup key) ∧
      ∀ conn, (q.allocate conn).2.sticky.lookup key = q.sticky.lookup key := by
  obtain ⟨hq, hlive'⟩ : Reachable networkIpv4 prefixLen gateway q ∧ LiveAt q key addr := by
    refine Transition.Reachable.invariant
      (I := fun q => Reachable networkIpv4 prefixLen gateway q ∧ LiveAt q key addr) ?_ ?_ hrun
    · rintro q rfl
      exact ⟨hp, hlive⟩
    · rintro q r ⟨hq, hlive⟩ hstep
      exact ⟨Transition.Reachable.next hq hstep.poolStep, hlive.step hq hstep⟩
  have hinv := reachable_conserved hq
  refine ⟨hlive', fun conn now mayReclaim hnew => ?_, fun conn pubkey intent now mayReclaim => ?_,
    fun conn => ?_⟩
  · exact allocateAt_legacy_shares now mayReclaim hnew hlive'.bound hlive'.held
      (Shelf.not_free_of_heldBy hinv.sound hinv.agree hlive'.held)
  · exact (hlive'.allocateAt hq conn pubkey intent now mayReclaim).bound.trans hlive'.bound.symm
  · exact congrArg _ (sticky_allocate q conn)

end Live

def firstSession : IpAllocator := (slash29.allocateAt 1 7 .fresh 0 false).2

/-- It opens a second one elsewhere, a stranger comes, and it moves from its first
connection to a third. -/
def sessionContinues : List Op :=
  [.allocateAt 2 7 .fresh 0 false, .allocateAt 3 8 .legacy 0 false, .allocateAt 4 7 .legacy 0 false,
    .release 1]

theorem sticky_address_stable_moved :
    let q := sessionContinues.foldl Op.apply firstSession
    q.used.addressOf 2 = some 0x0A420005 ∧ q.used.addressOf 4 = some 0x0A420002 ∧
      q.sticky.lookup 7 = some 0x0A420002 ∧
      (q.allocateAt 5 7 .legacy 0 false).1 = some 0x0A420002 := by
  intro q
  have hreach : Reachable 0x0A420000 29 0x0A420001 firstSession :=
    Reachable.ops (.start ⟨1, withSeed_slash29⟩) [.allocateAt 1 7 .fresh 0 false]
  have hlive : LiveAt firstSession 7 0x0A420002 := ⟨by decide, by decide⟩
  have hstart : Transition.Reachable (· = firstSession) (SessionStep 7 0x0A420002) firstSession :=
    .start rfl
  have hfresh := hstart.next (.op (.allocateAt 2 7 .fresh 0 false) trivial)
  have hstranger := hfresh.next (.op (.allocateAt 3 8 .legacy 0 false) trivial)
  have hthird := hstranger.next (.op (.allocateAt 4 7 .legacy 0 false) trivial)
  have hrun := hthird.next (.op (.release 1) (by unfold Continues; decide))
  obtain ⟨hlive', hlegacy, -⟩ := sticky_address_stable hreach hlive hrun
  exact ⟨by decide, by decide, hlive'.bound, hlegacy 5 0 false (by decide)⟩

end IpAllocator

end WarrenGuard.IpPool
