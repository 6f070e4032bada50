/-
How large the sticky tables of the address pools grow (`bind_sticky`, `pop_offset`, `release` of
`warrenguard-multihop-server/src/ip_pool.rs`).

The exit forgets a binding only when the address goes to another key, so the tables are bounded by
the addresses there are to bind: the hosts of the IPv4 subnet, and the IPv6 ids that exist at all,
which are as many as were ever held at once, since an id is minted only while none is recycled.

* `OneKey.length_le` — a table that binds no address twice;
* `History` — a run of the IPv6 pool with its `peak`; `Counted` — what the pool keeps over a run;
* `sticky_maps_bounded` — the bounds of both tables, transfers of a key included.
-/
import WarrenGuard.AddressPoolV6
import WarrenGuard.StickyBindings

namespace WarrenGuard.IpPool

open LeasePool Holdings

/-! ### Entries and addresses -/

section Tables

variable {α : Type} {sticky : Table Pubkey α}

theorem OneKey.nodup_values (h : OneKey sticky) : (sticky.entries.map Sigma.snd).Nodup := by
  refine List.Nodup.map_on ?_ sticky.nodupKeys.nodup
  intro e he e' he' heq
  have hkey := Table.lookup_of_mem_entries he
  have hkey' := Table.lookup_of_mem_entries he'
  rw [← heq] at hkey'
  exact Sigma.ext (h _ _ _ hkey hkey') (heq_of_eq heq)

theorem OneKey.length_le (h : OneKey sticky) (addrs : List α)
    (hvalues : ∀ key addr, sticky.lookup key = some addr → addr ∈ addrs) :
    sticky.entries.length ≤ addrs.length := by
  have hsub : sticky.entries.map Sigma.snd ⊆ addrs := by
    intro addr haddr
    obtain ⟨e, he, rfl⟩ := List.mem_map.mp haddr
    exact hvalues e.1 e.2 (Table.lookup_of_mem_entries he)
  have hle := (List.subperm_of_subset h.nodup_values hsub).length_le
  rwa [List.length_map] at hle

def Within (stock : α → Prop) (sticky : Table Pubkey α) : Prop :=
  ∀ key addr, sticky.lookup key = some addr → stock addr

variable {stock stock' : α → Prop} {sticky' : Table Pubkey α}

theorem Within.empty : Within stock (∅ : Table Pubkey α) := by
  intro key addr h
  cases h

theorem Within.mono (h : Within stock sticky) (hstock : ∀ addr, stock addr → stock' addr) :
    Within stock' sticky :=
  fun key addr hkey => hstock addr (h key addr hkey)

theorem Within.move [DecidableEq α] {bindable : α → Prop} (h : Within stock sticky)
    (hone : OneKey sticky) (hmove : StickyMove bindable sticky sticky')
    (hbindable : ∀ addr, bindable addr → stock addr) : Within stock sticky' := by
  intro key addr hkey
  cases hmove with
  | kept => exact h key addr hkey
  | bound used pubkey hbound =>
    rw [lookup_bindSticky hone] at hkey
    split_ifs at hkey with hown
    · exact h pubkey addr hkey
    · obtain rfl := Option.some.inj hkey
      exact hbindable _ hbound
    · exact h key addr hkey
  | transferred src dst =>
    rw [lookup_transferSticky] at hkey
    cases hsrc : sticky.lookup src with
    | none =>
      rw [hsrc] at hkey
      exact h key addr hkey
    | some moved =>
      rw [hsrc] at hkey
      dsimp only at hkey
      split_ifs at hkey with hdst
      · obtain rfl := Option.some.inj hkey
        exact h src _ hsrc
      · exact h key addr (Option.filter_eq_some_iff.mp hkey).1
  | reordered entries hperm =>
    rw [Table.lookup_reorder] at hkey
    exact h key addr hkey

end Tables

/-! ### The IPv4 pool -/

namespace IpAllocator

variable {p q : IpAllocator} {networkIpv4 gateway : Ipv4Addr} {prefixLen : ℕ}

theorem reachable_within (h : Reachable networkIpv4 prefixLen gateway p) :
    Within (IsHost networkIpv4 prefixLen gateway) p.sticky := by
  suffices hboth : Reachable networkIpv4 prefixLen gateway p ∧
      Within (IsHost networkIpv4 prefixLen gateway) p.sticky from hboth.2
  refine Transition.Reachable.invariant (I := fun p => Reachable networkIpv4 prefixLen gateway p ∧
    Within (IsHost networkIpv4 prefixLen gateway) p.sticky) ?_ ?_ h
  · rintro p ⟨seed, hp⟩
    exact ⟨.start ⟨seed, hp⟩, (blank_withSeed hp).2.1 ▸ .empty⟩
  · rintro p q ⟨hp, hwithin⟩ hstep
    refine ⟨Transition.Reachable.next hp hstep, ?_⟩
    -- what is bound was free, so it is a host
    refine hwithin.move (reachable_oneKey hp) hstep.stickyMove fun addr hfree => ?_
    exact ((reachable_conserved hp).covers addr).mpr (Or.inl hfree)

theorem mem_free_withSeed {seed : UInt64} {addr : Ipv4Addr}
    (h : withSeed networkIpv4 prefixLen gateway seed = .ok p)
    (haddr : IsHost networkIpv4 prefixLen gateway addr) : addr ∈ p.free := by
  have hinv := conserved_withSeed h
  rcases (hinv.covers addr).mp haddr with hfree | ⟨conn, hheld⟩
  · exact hfree
  · have hconn := holds_lease.mp hheld
    rw [show p.shelf.used = new from (blank_withSeed h).1] at hconn
    cases hconn

end IpAllocator

/-! ### The IPv6 pool -/

def Holdings.held {α : Type} [DecidableEq α] (h : Holdings α) : Finset α := h.byAddr.keys.toFinset

theorem Holdings.mem_held {α : Type} [DecidableEq α] {h : Holdings α} {addr : α} :
    addr ∈ h.held ↔ h.isHeld addr = true := by
  rw [held, List.mem_toFinset, ← AList.mem_keys, isHeld, AList.lookup_isSome]

namespace IpAllocatorV6

variable {p q : IpAllocatorV6} {conn : ConnId} {pubkey : Pubkey} {networkIpv6 : Ipv6Addr}

theorem sticky_popOffset (p : IpAllocatorV6) : p.popOffset.2.sticky = p.sticky := by
  obtain ⟨rng, recycled, hpop⟩ := popOffset_frame p
  rw [hpop]

theorem sticky_allocate (p : IpAllocatorV6) (conn) :
    (p.allocate conn).2.sticky = p.sticky := by
  have hpop := sticky_popOffset p
  unfold allocate
  split
  · rfl
  · generalize p.popOffset = popped at hpop ⊢
    obtain ⟨_ | offset, q⟩ := popped
    · exact hpop
    · exact hpop

theorem sticky_release (p : IpAllocatorV6) (conn) :
    (p.release conn).sticky = p.sticky := by
  unfold release
  split <;> rfl

theorem place_binds (p : IpAllocatorV6) (conn pubkey) (intent : SessionIntentV6) :
    (p.place conn pubkey intent).2.sticky = p.sticky ∨
    ∃ offset, (p.place conn pubkey intent).1 = some offset ∧
      (p.place conn pubkey intent).2.sticky =
        bindSticky (p.place conn pubkey intent).2.used p.sticky pubkey offset := by
  obtain ⟨rng, recycled, used, heq | ⟨offset, heq⟩⟩ := place_frame p conn pubkey intent
  · rw [heq]
    exact Or.inl rfl
  · rw [heq]
    exact Or.inr ⟨offset, rfl, rfl⟩

theorem addressOf_place {intent : SessionIntentV6} {offset : UInt64} (ha : p.used.Agree)
    (h : (p.place conn pubkey intent).1 = some offset) :
    (p.place conn pubkey intent).2.used.addressOf conn = some offset := by
  cases hconn : p.used.addressOf conn with
  | some held =>
    rw [place_known hconn] at h ⊢
    exact hconn.trans h
  | none =>
    have hplaced := place_placed ha hconn pubkey intent
    rw [h] at hplaced
    exact hplaced.addressOf

theorem PoolStep.stickyMove (hp : Kept p) (h : PoolStep p q) :
    StickyMove (fun offset => q.used.isHeld offset = true) p.sticky q.sticky := by
  cases h with
  | op o =>
    cases o with
    | allocate conn => exact .of_eq (sticky_allocate p conn)
    | allocateFor conn pubkey intent =>
      have hagree : (p.place conn pubkey intent).2.used.Agree :=
        (hp.move (.allocateFor conn pubkey intent)).1
      rcases place_binds p conn pubkey intent with hsame | ⟨offset, hanswer, hbound⟩
      · exact .of_eq hsame
      · show StickyMove (fun offset => (p.place conn pubkey intent).2.used.isHeld offset = true)
          p.sticky (p.place conn pubkey intent).2.sticky
        rw [hbound]
        refine .bound _ pubkey ((isHeld_iff hagree).mpr ⟨conn, ?_⟩)
        exact holds_lease.mpr (addressOf_place hp.agree hanswer)
    | release conn => exact .of_eq (sticky_release p conn)
    | transferOwner src dst =>
      show StickyMove _ p.sticky (p.transferOwner src dst).sticky
      unfold transferOwner
      split
      · exact .kept
      · exact .transferred src dst
  | reorder entries hperm => exact .reordered entries hperm

theorem PoolStep.move (hp : Kept p) (h : PoolStep p q) :
    Step (p.recycled = []) p.shelf.pool q.shelf.pool := by
  cases h with
  | op o => exact (hp.move o).2
  | reorder entries hperm => exact .shuffle (List.Perm.refl _)

theorem Kept.inUse (hp : Kept p) : p.shelf.pool.InUse p.used.held :=
  fun _ => mem_held.trans (isHeld_iff hp.agree)

/-! Runs with their peak. -/

/-- A run of the pool: where it is, and the pools it went through before. -/
structure History where
  pool : IpAllocatorV6
  earlier : List IpAllocatorV6

def History.peak (h : History) : ℕ :=
  (h.pool :: h.earlier).foldr (fun p most => max most p.used.held.card) 0

inductive History.Next (h : History) : History → Prop
  | step {q : IpAllocatorV6} (hstep : PoolStep h.pool q) : Next h ⟨q, h.pool :: h.earlier⟩

def History.Reachable (networkIpv6 : Ipv6Addr) : History → Prop :=
  Transition.Reachable (fun h => ∃ seed, h = ⟨withSeed networkIpv6 seed, []⟩) History.Next

theorem Reachable.exists_history (h : Reachable networkIpv6 p) :
    ∃ earlier, History.Reachable networkIpv6 ⟨p, earlier⟩ := by
  refine Transition.Reachable.invariant
    (I := fun p => ∃ earlier, History.Reachable networkIpv6 ⟨p, earlier⟩) ?_ ?_ h
  · rintro p ⟨seed, rfl⟩
    exact ⟨[], .start ⟨seed, rfl⟩⟩
  · rintro p q ⟨earlier, hp⟩ hstep
    exact ⟨p :: earlier, Transition.Reachable.next hp (.step hstep)⟩

theorem History.reachable_pool {h : History} (hr : h.Reachable networkIpv6) :
    IpAllocatorV6.Reachable networkIpv6 h.pool := by
  refine Transition.Reachable.invariant
    (I := fun h : History => IpAllocatorV6.Reachable networkIpv6 h.pool) ?_ ?_ hr
  · rintro h ⟨seed, rfl⟩
    exact .start ⟨seed, rfl⟩
  · rintro h _ hp ⟨hstep⟩
    exact Transition.Reachable.next hp hstep

/-- **What the pool keeps over a run.** -/
structure Counted (h : History) : Prop where
  kept : Kept h.pool
  oneKey : OneKey h.pool.sticky
  within : Within (fun offset => offset ∈ h.pool.recycled ∨
    ∃ conn, h.pool.shelf.pool.book.Holds conn offset) h.pool.sticky
  count : h.pool.used.held.card + h.pool.recycled.length = h.peak

theorem counted_withSeed (networkIpv6) (seed : UInt64) :
    Counted ⟨withSeed networkIpv6 seed, []⟩ :=
  ⟨kept_withSeed networkIpv6 seed, .empty, .empty, rfl⟩

theorem Counted.next {h h' : History} (hc : Counted h) (hnext : h.Next h') : Counted h' := by
  obtain ⟨hstep⟩ := hnext
  rename_i q
  have hmove := hstep.move hc.kept
  have hkept := hc.kept.step hstep
  refine ⟨hkept, hc.oneKey.move (hstep.stickyMove hc.kept), ?_, ?_⟩
  · -- an id that was held or recycled still is, and a bound one is held
    have hwithin := hc.within.mono fun offset => hmove.covered
    refine hwithin.move hc.oneKey (hstep.stickyMove hc.kept) fun offset hheld => ?_
    exact Or.inr ((isHeld_iff hkept.agree).mp hheld)
  · have hcount := hmove.count hc.kept.sound hc.kept.inUse hkept.inUse
    rw [show h.pool.shelf.pool.free.length = h.pool.recycled.length from rfl, hc.count] at hcount
    exact hcount

theorem History.reachable_counted {h : History} (hr : h.Reachable networkIpv6) : Counted h := by
  refine Transition.Reachable.invariant ?_ ?_ hr
  · rintro h ⟨seed, rfl⟩
    exact counted_withSeed networkIpv6 seed
  · intro h h' hc hnext
    exact hc.next hnext

end IpAllocatorV6

/-! ### The bounds -/

/-- **Sticky tables are bounded.**  In every reachable IPv4 pool no address is bound to two
keys and all bound addresses are hosts, so there are at most as many bindings as a new pool
has free addresses.  In every reachable IPv6 pool no id is bound to two keys and every bound
id is held or recycled; and whatever run led to it, held and recycled ids are as many as were
ever held at the same time, so there are at most that many bindings. -/
theorem sticky_maps_bounded :
    (∀ networkIpv4 prefixLen gateway seed new p,
      IpAllocator.withSeed networkIpv4 prefixLen gateway seed = .ok new →
      IpAllocator.Reachable networkIpv4 prefixLen gateway p →
      OneKey p.sticky ∧ Within (IsHost networkIpv4 prefixLen gateway) p.sticky ∧
        p.sticky.entries.length ≤ new.free.length) ∧
    ∀ networkIpv6 p, IpAllocatorV6.Reachable networkIpv6 p →
      OneKey p.sticky ∧ Within (fun id => p.used.isHeld id = true ∨ id ∈ p.recycled) p.sticky ∧
        (∃ earlier, IpAllocatorV6.History.Reachable networkIpv6 ⟨p, earlier⟩) ∧
        ∀ earlier, IpAllocatorV6.History.Reachable networkIpv6 ⟨p, earlier⟩ →
          p.used.held.card + p.recycled.length = IpAllocatorV6.History.peak ⟨p, earlier⟩ ∧
            p.sticky.entries.length ≤ IpAllocatorV6.History.peak ⟨p, earlier⟩ := by
  constructor
  · intro networkIpv4 prefixLen gateway seed new p hnew hp
    have hone := IpAllocator.reachable_oneKey hp
    have hwithin := IpAllocator.reachable_within hp
    refine ⟨hone, hwithin, hone.length_le new.free fun key addr hkey => ?_⟩
    exact IpAllocator.mem_free_withSeed hnew (hwithin key addr hkey)
  · intro networkIpv6 p hp
    have hhistory := IpAllocatorV6.Reachable.exists_history hp
    obtain ⟨earlier, hr⟩ := hhistory
    have hc := IpAllocatorV6.History.reachable_counted hr
    have hwithin : Within (fun id => p.used.isHeld id = true ∨ id ∈ p.recycled) p.sticky := by
      refine hc.within.mono fun id hid => ?_
      exact hid.symm.imp_left (isHeld_iff hc.kept.agree).mpr
    have hlen := hc.oneKey.length_le (p.used.held.toList ++ p.recycled) fun key id hkey => by
      refine List.mem_append.mpr ((hwithin key id hkey).imp_left fun hheld => ?_)
      exact Finset.mem_toList.mpr (mem_held.mpr hheld)
    rw [List.length_append, Finset.length_toList] at hlen
    refine ⟨hc.oneKey, hwithin, ⟨earlier, hr⟩, fun earlier' hr' => ?_⟩
    have hcount := (IpAllocatorV6.History.reachable_counted hr').count
    exact ⟨hcount, hlen.trans_eq hcount⟩

def rotatingKeys : List IpAllocatorV6.Op :=
  [.allocateFor 1 7 .fresh, .release 1, .allocateFor 2 8 .legacy, .transferOwner 8 9, .release 2,
    .allocateFor 3 10 .fresh]

def rotated : IpAllocatorV6.History :=
  rotatingKeys.foldl (fun h o => ⟨o.apply h.pool, h.pool :: h.earlier⟩)
    ⟨IpAllocatorV6.withSeed 0 1, []⟩

theorem sticky_maps_bounded_rotating :
    IpAllocator.firstSession.sticky.entries.length ≤ IpAllocator.slash29.free.length ∧
      IpAllocator.slash29.free.length = 5 ∧ rotated.earlier.length = 6 ∧
      rotated.pool.sticky.entries.length ≤ rotated.peak ∧ rotated.peak = 1 := by
  have hreach : IpAllocator.Reachable 0x0A420000 29 0x0A420001 IpAllocator.firstSession :=
    IpAllocator.Reachable.ops (.start ⟨1, IpAllocator.withSeed_slash29⟩)
      [.allocateAt 1 7 .fresh 0 false]
  have hhistory : rotated.Reachable 0 :=
    Transition.Reachable.foldl (fun _ o => .step (.op o)) rotatingKeys (.start ⟨1, rfl⟩)
  have h4 := sticky_maps_bounded.1 _ _ _ _ _ _ IpAllocator.withSeed_slash29 hreach
  have h6 := sticky_maps_bounded.2 _ _ (IpAllocatorV6.History.reachable_pool hhistory)
  exact ⟨h4.2.2, by decide, rfl, (h6.2.2.2 _ hhistory).2, by decide +kernel⟩

end WarrenGuard.IpPool
