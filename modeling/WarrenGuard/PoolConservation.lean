/-
Conservation of the IPv4 address pool.

The pool of `AddressPool` is a lease pool that never mints: each of its calls is one move of
`LeasePool` on the free list and the book of the holdings.

* `between_iff` — the initial free list is the subnet without network and broadcast address;
* `Allocates` — all an allocation can do, proved for each part of `allocate_at` and put together
  in `allocateAt_allocates`; `Outcome` is what of it concerns the addresses;
* `reachable_conserves_hosts` — so no host is lost or listed twice, for every subnet, seed, order
  of calls and answer of the claims callback.
-/
import Mathlib.Data.Nat.Bitwise
import WarrenGuard.Placement
import WarrenGuard.RandomDraw
import WarrenGuard.Transition

namespace WarrenGuard

variable {prefixLen : ℕ} {networkIpv4 gateway : Ipv4Addr} {stock : Ipv4Addr → Prop}
  {addr : Ipv4Addr}

namespace IpPool

open LeasePool VecOps

/-! ### The hosts of a subnet -/

/-- **The hosts a pool is for**: in the subnet, and none of its network, broadcast
and gateway addresses. -/
def IsHost (networkIpv4 : Ipv4Addr) (prefixLen : ℕ) (gateway addr : Ipv4Addr) : Prop :=
  addr &&& netmask prefixLen = networkIpv4 &&& netmask prefixLen ∧
  addr ≠ networkIpv4 &&& netmask prefixLen ∧
  addr ≠ broadcast (networkIpv4 &&& netmask prefixLen) prefixLen ∧ addr ≠ gateway

theorem mem_addressesBetween {low high addr : Ipv4Addr} :
    addr ∈ addressesBetween low high ↔ low.toNat < addr.toNat ∧ addr.toNat < high.toNat := by
  simp only [addressesBetween, List.mem_map, List.mem_range'_1]
  constructor
  · rintro ⟨n, ⟨hlow, hhigh⟩, rfl⟩
    have hlt : n < 2 ^ 32 := by omega
    rw [BitVec.toNat_ofNat, Nat.mod_eq_of_lt hlt]
    omega
  · rintro ⟨hlow, hhigh⟩
    exact ⟨addr.toNat, by omega, by simp⟩

theorem nodup_addressesBetween (low high : Ipv4Addr) : (addressesBetween low high).Nodup := by
  refine List.Nodup.map_on ?_ List.nodup_range'
  intro m hm n hn heq
  rw [List.mem_range'_1] at hm hn
  have hto := congrArg BitVec.toNat heq
  rw [BitVec.toNat_ofNat, BitVec.toNat_ofNat, Nat.mod_eq_of_lt (by omega),
    Nat.mod_eq_of_lt (by omega)] at hto
  exact hto

theorem and_netmask (addr : Ipv4Addr) (prefixLen) :
    addr &&& netmask prefixLen = (addr >>> (32 - prefixLen)) <<< (32 - prefixLen) := by
  unfold netmask
  ext i hi
  simp only [BitVec.getElem_and, BitVec.getElem_shiftLeft]
  by_cases hlow : i < 32 - prefixLen
  · simp [hlow]
  · have heq : 32 - prefixLen + (i - (32 - prefixLen)) = i := by omega
    simp only [hlow, decide_false, Bool.not_false, Bool.true_and, BitVec.getElem_allOnes,
      Bool.and_true, BitVec.getElem_ushiftRight, heq]
    exact (BitVec.getLsbD_eq_getElem hi).symm

theorem toNat_and_netmask (addr : Ipv4Addr) (prefixLen) :
    (addr &&& netmask prefixLen).toNat =
      addr.toNat / 2 ^ (32 - prefixLen) * 2 ^ (32 - prefixLen) := by
  rw [and_netmask, BitVec.toNat_shiftLeft, BitVec.toNat_ushiftRight, Nat.shiftLeft_eq,
    Nat.shiftRight_eq_div_pow]
  refine Nat.mod_eq_of_lt ?_
  calc addr.toNat / 2 ^ (32 - prefixLen) * 2 ^ (32 - prefixLen) ≤ addr.toNat :=
        Nat.div_mul_le_self _ _
    _ < 2 ^ 32 := addr.isLt

private theorem toNat_not_netmask (prefixLen) :
    (~~~netmask prefixLen).toNat = 2 ^ (32 - prefixLen) - 1 := by
  have hmask : (netmask prefixLen).toNat =
      (2 ^ 32 - 1) / 2 ^ (32 - prefixLen) * 2 ^ (32 - prefixLen) := by
    have h := toNat_and_netmask (BitVec.allOnes 32) prefixLen
    rwa [BitVec.allOnes_and, BitVec.toNat_allOnes] at h
  have hlow : ∀ k ≤ 32, (2 ^ 32 - 1) % 2 ^ k = 2 ^ k - 1 := by decide
  rw [BitVec.toNat_not, hmask, ← hlow (32 - prefixLen) (Nat.sub_le _ _), Nat.mod_eq_sub_div_mul]

theorem toNat_broadcast (networkIpv4 prefixLen) :
    (broadcast (networkIpv4 &&& netmask prefixLen) prefixLen).toNat =
      networkIpv4.toNat / 2 ^ (32 - prefixLen) * 2 ^ (32 - prefixLen) +
        (2 ^ (32 - prefixLen) - 1) := by
  have hlt : 2 ^ (32 - prefixLen) - 1 < 2 ^ (32 - prefixLen) :=
    Nat.sub_lt (Nat.two_pow_pos _) Nat.one_pos
  rw [broadcast, BitVec.toNat_or, toNat_and_netmask, toNat_not_netmask, Nat.mul_comm,
    Nat.two_pow_add_eq_or_of_lt hlt]

/-- **The addresses strictly between network and broadcast are the other ones of
the subnet.** -/
theorem between_iff {networkIpv4 addr : Ipv4Addr} :
    addr ∈ addressesBetween (networkIpv4 &&& netmask prefixLen)
        (broadcast (networkIpv4 &&& netmask prefixLen) prefixLen) ↔
      addr &&& netmask prefixLen = networkIpv4 &&& netmask prefixLen ∧
      addr ≠ networkIpv4 &&& netmask prefixLen ∧
      addr ≠ broadcast (networkIpv4 &&& netmask prefixLen) prefixLen := by
  rw [mem_addressesBetween]
  simp only [← BitVec.toNat_inj, ne_eq, toNat_broadcast, toNat_and_netmask]
  -- both sides speak of the block of size `2 ^ (32 - prefixLen)` an address lies in
  generalize hsize : 2 ^ (32 - prefixLen) = size
  have hpos : 0 < size := hsize ▸ Nat.two_pow_pos _
  have hdiv := Nat.div_add_mod addr.toNat size
  have hmod := Nat.mod_lt addr.toNat hpos
  rw [Nat.mul_comm] at hdiv
  generalize networkIpv4.toNat / size = block
  generalize addr.toNat / size = own at hdiv ⊢
  constructor
  · rintro ⟨hlow, hhigh⟩
    have hblock : own = block := by
      rcases Nat.lt_trichotomy own block with h | h | h
      · have : (own + 1) * size ≤ block * size := Nat.mul_le_mul_right size h
        rw [Nat.succ_mul] at this
        omega
      · exact h
      · have : (block + 1) * size ≤ own * size := Nat.mul_le_mul_right size h
        rw [Nat.succ_mul] at this
        omega
    exact ⟨by rw [hblock], by omega, by omega⟩
  · rintro ⟨hblock, hnet, hbroad⟩
    omega

/-! ### What the parts of an allocation do -/

namespace IpAllocator

variable (p : IpAllocator)

/-- The hosts the restart reclaim is still open for. -/
def openForReclaim : Finset Ipv4Addr := (p.reclaim.map (·.eligible)).getD ∅

def shelf : Shelf Ipv4Addr := ⟨p.free, p.used⟩

/-- Nothing was handed out: at most the free list was reordered and the reclaim closed. -/
structure Quiet (p q : IpAllocator) : Prop where
  used : q.used = p.used
  free : p.free.Perm q.free
  closes : q.openForReclaim ⊆ p.openForReclaim

/-- `addr` left the free list and is not held yet. -/
structure Drawn (p : IpAllocator) (addr : Ipv4Addr) (q : IpAllocator) : Prop where
  used : q.used = p.used
  free : p.free.Perm (addr :: q.free)
  closes : q.openForReclaim ⊆ p.openForReclaim

theorem Quiet.refl : Quiet p p :=
  ⟨rfl, List.Perm.refl _, Finset.Subset.refl _⟩

theorem Quiet.trans {p q r : IpAllocator} (h : Quiet p q) (h' : Quiet q r) : Quiet p r :=
  ⟨h'.used.trans h.used, h.free.trans h'.free, h'.closes.trans h.closes⟩

theorem Quiet.drawn {p q r : IpAllocator} (h : Quiet p q) (h' : Drawn q addr r) :
    Drawn p addr r :=
  ⟨h'.used.trans h.used, h.free.trans h'.free, h'.closes.trans h.closes⟩

theorem Kept.closes {p q : IpAllocator} (h : Kept p q) : q.openForReclaim ⊆ p.openForReclaim := by
  unfold openForReclaim
  rcases h.reclaim with heq | heq <;> simp [heq]

theorem Kept.quiet {p q : IpAllocator} (h : Kept p q) (hfree : p.free.Perm q.free) : Quiet p q :=
  ⟨h.used, hfree, h.closes⟩

theorem quiet_claimed (addr) : Quiet p (p.claimed addr).2 := by
  refine (kept_claimed p addr).quiet ?_
  rw [claimed_free]

variable {intent : SessionIntent} {mayReclaim : Bool} {now : ℕ} {pubkey : Pubkey}
  {target : Ipv4Addr}

theorem quiet_ownsTarget (target pubkey) :
    Quiet p (p.ownsTarget target pubkey).2 := by
  unfold ownsTarget
  split
  · exact Quiet.refl p
  · exact quiet_claimed p target

theorem quiet_reclaimable (target now) :
    Quiet p (p.reclaimable target now).2 := by
  refine (kept_reclaimable p target now).quiet ?_
  unfold reclaimable
  split
  · split <;> exact .refl _
  · exact .refl _

private theorem drawn_swapRemove {p q : IpAllocator} {pos : ℕ} (h : Quiet p q)
    (hget : q.free[pos]? = some addr) : Drawn p addr { q with free := swapRemove q.free pos } :=
  ⟨h.used, h.free.trans (perm_cons_swapRemove hget), h.closes⟩

/-- The answer of a part that may take `addr` out of the free list. -/
def Tries (addr : Ipv4Addr) (r : Bool × IpAllocator) : Prop :=
  (∃ q, r = (false, q) ∧ Quiet p q) ∨ ∃ q, r = (true, q) ∧ Drawn p addr q

theorem Tries.after {p q : IpAllocator} {r : Bool × IpAllocator} (h : Tries q addr r)
    (hpq : Quiet p q) : Tries p addr r := by
  rcases h with ⟨s, hr, hs⟩ | ⟨s, hr, hs⟩
  · exact Or.inl ⟨s, hr, hpq.trans hs⟩
  · exact Or.inr ⟨s, hr, hpq.drawn hs⟩

/-- **A part that may take `addr` out of the free list for `pubkey`**: it does so only after a
question about the address. -/
structure Takes (p : IpAllocator) (addr : Ipv4Addr) (pubkey : Pubkey) (r : Bool × IpAllocator) :
    Prop where
  tries : Tries p addr r
  kept : Kept p r.2
  cleared : r.1 = true → ∀ claims, p.claims = some claims →
    Cleared claims p r.2 addr (some pubkey)

theorem Takes.after {p q : IpAllocator} {r : Bool × IpAllocator}
    (h : Takes q addr pubkey r) (hkept : Kept p q) (hquiet : Quiet p q) : Takes p addr pubkey r :=
  ⟨h.tries.after hquiet, hkept.trans h.kept,
    fun htake claims hc => (h.cleared htake claims (hkept.claims.trans hc)).after hkept⟩

theorem Takes.not {p q : IpAllocator} (hkept : Kept p q) (hquiet : Quiet p q) :
    Takes p addr pubkey (false, q) :=
  ⟨Or.inl ⟨q, rfl, hquiet⟩, hkept, nofun⟩

theorem claimed_eq {p : IpAllocator} {claims : ℕ → Ipv4Addr → Bool} (hc : p.claims = some claims)
    (addr) :
    p.claimed addr = (claims p.asked addr, { p with asked := p.asked + 1 }) := by
  unfold claimed
  rw [hc]

theorem takeFree_takes (addr pubkey) :
    Takes p addr pubkey (p.takeFree addr pubkey) := by
  have hkept := kept_claimed p addr
  have hquiet := quiet_claimed p addr
  unfold takeFree
  cases hpos : p.free.idxOf? addr with
  | none => exact .not (.refl p) (.refl p)
  | some pos =>
    dsimp only
    split
    · exact .not hkept hquiet
    · rename_i hpass
      refine ⟨Or.inr ⟨_, rfl, drawn_swapRemove hquiet ?_⟩, { hkept with }, fun _ claims hc => ?_⟩
      · rw [claimed_free]
        obtain ⟨hlt, hget, -⟩ := List.idxOf?_eq_some_iff.mp hpos
        exact List.getElem?_eq_some_iff.mpr ⟨hlt, hget⟩
      · rw [claimed_eq hc] at hpass ⊢
        refine ⟨p.asked, Nat.le_refl _, Nat.lt_succ_self _, fun hclaimed => ?_⟩
        rw [hclaimed, Bool.true_and, Bool.not_eq_true', Bool.not_eq_false] at hpass
        exact ⟨Option.some_ne_none pubkey, of_decide_eq_true hpass⟩

theorem takeOwn_takes (target pubkey) :
    Takes p target pubkey (p.takeOwn target pubkey) := by
  have hkept := kept_ownsTarget p target pubkey
  have hquiet := quiet_ownsTarget p target pubkey
  unfold takeOwn
  generalize p.ownsTarget target pubkey = answer at hkept hquiet ⊢
  obtain ⟨_ | _, q⟩ := answer
  · exact .not hkept hquiet
  · exact (takeFree_takes q target pubkey).after hkept hquiet

theorem takeReclaimed_takes (target pubkey now mayReclaim) :
    Takes p target pubkey (p.takeReclaimed target pubkey now mayReclaim) := by
  have hkept := kept_reclaimable p target now
  have hquiet := quiet_reclaimable p target now
  unfold takeReclaimed
  split
  · generalize p.reclaimable target now = answer at hkept hquiet ⊢
    obtain ⟨_ | _, q⟩ := answer
    · exact .not hkept hquiet
    · exact (takeFree_takes q target pubkey).after hkept hquiet
  · exact .not (.refl p) (.refl p)

/-- **What an allocation for a connection without address can do**; the address it
answers with is closed to the restart reclaim. -/
structure Outcome (p : IpAllocator) (conn : ConnId) (owner : Option Pubkey)
    (mayShare : Ipv4Addr → Prop) (r : Option Ipv4Addr × IpAllocator) : Prop where
  placed : p.shelf.Placed False conn owner mayShare r.1 r.2.shelf
  closes : r.2.openForReclaim ⊆ p.openForReclaim
  shut : ∀ addr, r.1 = some addr → addr ∉ r.2.openForReclaim

variable {p q : IpAllocator} {conn : ConnId} {owner : Option Pubkey}
  {mayShare mayShare' : Ipv4Addr → Prop} {r : Option Ipv4Addr × IpAllocator}

theorem Quiet.refused (h : Quiet p q) : Outcome p conn owner mayShare (none, q) :=
  ⟨.refused h.used h.free, h.closes, fun addr heq => by cases heq⟩

theorem openForReclaim_hold (p : IpAllocator) (conn addr owner) :
    (p.hold conn addr owner).openForReclaim = p.openForReclaim.erase addr := by
  unfold hold openForReclaim
  cases p.reclaim <;> simp

/-- Holding closes the reclaim for the address, so only the placement is left to show. -/
theorem Outcome.hold
    (hplaced : p.shelf.Placed False conn owner mayShare (some addr) (q.hold conn addr owner).shelf)
    (hcloses : q.openForReclaim ⊆ p.openForReclaim) :
    Outcome p conn owner mayShare (some addr, q.hold conn addr owner) := by
  refine ⟨hplaced, ?_, ?_⟩
  · rw [openForReclaim_hold]
    exact (Finset.erase_subset _ _).trans hcloses
  · rintro _ ⟨⟩
    rw [openForReclaim_hold]
    exact Finset.notMem_erase addr _

theorem Drawn.hold (h : Drawn p addr q) :
    Outcome p conn owner mayShare (some addr, q.hold conn addr owner) :=
  .hold (.taken (congrArg (·.hold conn addr owner) h.used) h.free) h.closes

theorem Quiet.shares (h : Quiet p q) (held : p.used.heldBy addr pubkey = true)
    (may : mayShare addr) :
    Outcome p conn (some pubkey) mayShare (some addr, q.hold conn addr (some pubkey)) :=
  .hold (.shared rfl held may
    (congrArg (·.hold conn addr (some pubkey)) h.used) h.free) h.closes

theorem Outcome.bindSticky (h : Outcome p conn owner mayShare (some addr, q)) :
    Outcome p conn owner mayShare (some addr, q.bindSticky pubkey addr) :=
  ⟨h.placed, h.closes, h.shut⟩

/-- **What an allocation does**, with the pool `q` it holds the address in: it refuses, shares an
address with a connection of the same key, or takes one out of the free list, which may become
the key's sticky address. -/
inductive Allocates (p : IpAllocator) (conn : ConnId) (owner : Option Pubkey)
    (mayShare : Ipv4Addr → Prop) : Option Ipv4Addr × IpAllocator → Prop
  | refused {q : IpAllocator} (hkept : Kept p q) (hquiet : Quiet p q) :
      Allocates p conn owner mayShare (none, q)
  | shared {q : IpAllocator} {addr : Ipv4Addr} {key : Pubkey} (hkept : Kept p q)
      (hquiet : Quiet p q) (howner : owner = some key) (hheld : p.used.heldBy addr key = true)
      (may : mayShare addr) : Allocates p conn owner mayShare (some addr, q.hold conn addr owner)
  | taken {q : IpAllocator} {addr : Ipv4Addr} (hkept : Kept p q) (hdrawn : Drawn p addr q)
      (hcleared : ∀ claims, p.claims = some claims → Cleared claims p q addr owner) :
      Allocates p conn owner mayShare (some addr, q.hold conn addr owner)
  | bound {q : IpAllocator} {addr : Ipv4Addr} {key : Pubkey} (hkept : Kept p q)
      (hdrawn : Drawn p addr q) (howner : owner = some key)
      (hcleared : ∀ claims, p.claims = some claims → Cleared claims p q addr owner) :
      Allocates p conn owner mayShare (some addr, (q.hold conn addr owner).bindSticky key addr)

theorem Allocates.after (h : Allocates q conn owner mayShare r) (hkept : Kept p q)
    (hquiet : Quiet p q) : Allocates p conn owner mayShare r := by
  cases h with
  | refused hkept' hquiet' => exact .refused (hkept.trans hkept') (hquiet.trans hquiet')
  | shared hkept' hquiet' howner hheld may =>
    exact .shared (hkept.trans hkept') (hquiet.trans hquiet') howner (hkept.used ▸ hheld) may
  | taken hkept' hdrawn hcleared =>
    exact .taken (hkept.trans hkept') (hquiet.drawn hdrawn)
      fun claims hc => (hcleared claims (hkept.claims.trans hc)).after hkept
  | bound hkept' hdrawn howner hcleared =>
    exact .bound (hkept.trans hkept') (hquiet.drawn hdrawn) howner
      fun claims hc => (hcleared claims (hkept.claims.trans hc)).after hkept

theorem Allocates.mono (h : Allocates p conn owner mayShare r)
    (hmay : ∀ a, mayShare a → mayShare' a) : Allocates p conn owner mayShare' r := by
  cases h with
  | refused hkept hquiet => exact .refused hkept hquiet
  | shared hkept hquiet howner hheld may => exact .shared hkept hquiet howner hheld (hmay _ may)
  | taken hkept hdrawn hcleared => exact .taken hkept hdrawn hcleared
  | bound hkept hdrawn howner hcleared => exact .bound hkept hdrawn howner hcleared

theorem Allocates.refused_of_none (h : Allocates p conn owner mayShare (none, q)) :
    Kept p q ∧ Quiet p q := by
  cases h with
  | refused hkept hquiet => exact ⟨hkept, hquiet⟩

theorem Allocates.outcome (h : Allocates p conn owner mayShare r) :
    Outcome p conn owner mayShare r := by
  cases h with
  | refused _ hquiet => exact hquiet.refused
  | shared _ hquiet howner hheld may =>
    subst howner
    exact hquiet.shares hheld may
  | taken _ hdrawn _ => exact hdrawn.hold
  | bound _ hdrawn _ _ => exact hdrawn.hold.bindSticky

theorem tryJoin_allocates (p conn pubkey intent now mayReclaim) :
    Allocates p conn (some pubkey) (fun a => intent = .join a)
      (p.tryJoin conn pubkey intent now mayReclaim) := by
  cases intent with
  | legacy => exact .refused (.refl p) (.refl p)
  | fresh => exact .refused (.refl p) (.refl p)
  | join target =>
    unfold tryJoin
    dsimp only
    split
    · rename_i hheld
      exact .shared (.refl p) (.refl p) rfl hheld rfl
    · obtain ⟨⟨q, heq, hpq⟩ | ⟨q, heq, hdrawn⟩, hkept, hcleared⟩ := takeOwn_takes p target pubkey
      · rw [heq] at hkept ⊢
        obtain ⟨⟨r, heq', hqr⟩ | ⟨r, heq', hdrawn⟩, hkept', hcleared⟩ :=
          (takeReclaimed_takes q target pubkey now mayReclaim).after hkept hpq
        · simp only [heq'] at hkept' ⊢
          exact .refused hkept' hqr
        · simp only [heq'] at hkept' hcleared ⊢
          exact .bound hkept' hdrawn rfl (hcleared trivial)
      · rw [heq] at hkept hcleared ⊢
        exact .taken hkept hdrawn (hcleared rfl)

theorem trySticky_allocates (p conn pubkey intent) :
    Allocates p conn (some pubkey) (fun a => intent = .legacy ∧ p.sticky.lookup pubkey = some a)
      (p.trySticky conn pubkey intent) := by
  unfold trySticky
  split
  · exact .refused (.refl p) (.refl p)
  · rename_i preferred hsticky
    obtain ⟨⟨q, heq, hpq⟩ | ⟨q, heq, hdrawn⟩, hkept, hcleared⟩ := takeFree_takes p preferred pubkey
    · rw [heq] at hkept ⊢
      dsimp only
      split
      · rename_i hshare
        exact .shared hkept hpq rfl (hkept.used ▸ hshare.2) ⟨hshare.1, hsticky⟩
      · exact .refused hkept hpq
    · rw [heq] at hkept hcleared ⊢
      exact .taken hkept hdrawn (hcleared rfl)

/-- **A draw ends with an address that is not claimed.** -/
theorem popRandom_cases (p owner) :
    (∃ q, p.popRandom = (none, q) ∧ Kept p q ∧ Quiet p q) ∨
    ∃ addr q, p.popRandom = (some addr, q) ∧ Kept p q ∧ Drawn p addr q ∧
      ∀ claims, p.claims = some claims → Cleared claims p q addr owner := by
  have hdraw := popRandom_draw p
  generalize p.popRandom = drawn at hdraw ⊢
  obtain ⟨_ | addr, q⟩ := drawn
  · exact Or.inl ⟨q, rfl, hdraw.kept, hdraw.kept.quiet hdraw.free⟩
  · refine Or.inr ⟨addr, q, rfl, hdraw.kept, ⟨hdraw.kept.used, hdraw.free, hdraw.kept.closes⟩, ?_⟩
    intro claims hc
    obtain ⟨n, hle, -, hlt, hfree⟩ := hdraw.taken addr rfl
    unfold answer at hfree
    rw [hc] at hlt hfree
    exact ⟨n, hle, hlt rfl, fun hclaimed => absurd (hclaimed.symm.trans hfree) nofun⟩

theorem drawFor_allocates (p conn pubkey) :
    Allocates p conn (some pubkey) (fun _ => False) (p.drawFor conn pubkey) := by
  unfold drawFor
  rcases popRandom_cases p (some pubkey) with
    ⟨q, hpop, hkept, hquiet⟩ | ⟨addr, q, hpop, hkept, hdrawn, hcleared⟩
  · rw [hpop]
    exact .refused hkept hquiet
  · rw [hpop]
    exact .bound hkept hdrawn rfl hcleared

theorem allocate_known (h : p.used.addressOf conn = some addr) :
    p.allocate conn = (some addr, p) := by
  rw [allocate, h]

theorem allocateAt_known (h : p.used.addressOf conn = some addr) (pubkey intent now mayReclaim) :
    p.allocateAt conn pubkey intent now mayReclaim = (some addr, p) := by
  rw [allocateAt, h]

theorem allocateAt_allocates (p conn pubkey intent now mayReclaim)
    (hnew : p.used.addressOf conn = none) :
    Allocates p conn (some pubkey)
      (fun a => intent = .join a ∨ intent = .legacy ∧ p.sticky.lookup pubkey = some a)
      (p.allocateAt conn pubkey intent now mayReclaim) := by
  unfold allocateAt
  rw [hnew]
  have hjoin := tryJoin_allocates p conn pubkey intent now mayReclaim
  generalize p.tryJoin conn pubkey intent now mayReclaim = joined at hjoin ⊢
  obtain ⟨_ | addr, q⟩ := joined
  · obtain ⟨hkept, hquiet⟩ := hjoin.refused_of_none
    have hsticky := trySticky_allocates q conn pubkey intent
    rw [hkept.sticky] at hsticky
    dsimp only
    generalize q.trySticky conn pubkey intent = stuck at hsticky ⊢
    obtain ⟨_ | addr, s⟩ := stuck
    · obtain ⟨hkept', hquiet'⟩ := hsticky.refused_of_none
      exact ((drawFor_allocates s conn pubkey).after (hkept.trans hkept')
        (hquiet.trans hquiet')).mono fun a ha => ha.elim
    · exact (hsticky.after hkept hquiet).mono fun a ha => Or.inr ha
  · exact hjoin.mono fun a ha => Or.inl ha

/-- **The keyed allocation.**  Only a hint-less request, or one that names the
very address, shares. -/
theorem allocateAt_outcome (p conn pubkey intent now mayReclaim)
    (hnew : p.used.addressOf conn = none) :
    Outcome p conn (some pubkey) (fun a => intent = .legacy ∨ intent = .join a)
      (p.allocateAt conn pubkey intent now mayReclaim) :=
  ((allocateAt_allocates p conn pubkey intent now mayReclaim hnew).mono
    fun _ ha => ha.elim Or.inr fun h => Or.inl h.1).outcome

theorem allocateAt_legacy_outcome (p conn pubkey now mayReclaim)
    (hnew : p.used.addressOf conn = none) :
    Outcome p conn (some pubkey) (fun a => p.sticky.lookup pubkey = some a)
      (p.allocateAt conn pubkey .legacy now mayReclaim) :=
  ((allocateAt_allocates p conn pubkey .legacy now mayReclaim hnew).mono
    fun _ ha => ha.elim nofun And.right).outcome

theorem allocateAt_legacy_shares {p : IpAllocator} {conn : ConnId} (now mayReclaim)
    (hnew : p.used.addressOf conn = none)
    (hsticky : p.sticky.lookup pubkey = some addr) (hheld : p.heldByPubkey addr pubkey = true)
    (hfree : addr ∉ p.free) : (p.allocateAt conn pubkey .legacy now mayReclaim).1 = some addr := by
  have htake : p.takeFree addr pubkey = (false, p) := by
    unfold takeFree
    rw [List.idxOf?_eq_none_iff.mpr hfree]
  unfold allocateAt
  rw [hnew]
  dsimp only [tryJoin, trySticky]
  rw [hsticky]
  dsimp only
  rw [htake]
  dsimp only
  rw [if_pos ⟨rfl, hheld⟩]

theorem allocate_allocates (p conn) (hnew : p.used.addressOf conn = none) :
    Allocates p conn none (fun _ => False) (p.allocate conn) := by
  unfold allocate
  rw [hnew]
  rcases popRandom_cases p none with
    ⟨q, hpop, hkept, hquiet⟩ | ⟨addr, q, hpop, hkept, hdrawn, hcleared⟩
  · rw [hpop]
    exact .refused hkept hquiet
  · rw [hpop]
    exact .taken hkept hdrawn hcleared

theorem allocate_outcome (p conn) (hnew : p.used.addressOf conn = none) :
    Outcome p conn none (fun _ => False) (p.allocate conn) :=
  (allocate_allocates p conn hnew).outcome

theorem Outcome.openForReclaim_free (h : Outcome p conn owner mayShare r)
    (hopen : ∀ a ∈ p.openForReclaim, a ∈ p.free) : ∀ a ∈ r.2.openForReclaim, a ∈ r.2.free := by
  intro a ha
  obtain ⟨hplaced, hcloses, hshut⟩ := h
  have hfree : a ∈ p.shelf.free := hopen a (hcloses ha)
  generalize hr : r.1 = answer at hplaced
  cases hplaced with
  | refused _ free => exact free.mem_iff.mp hfree
  | taken _ free =>
    refine (List.mem_cons.mp (free.mem_iff.mp hfree)).resolve_left ?_
    rintro rfl
    exact hshut a hr ha
  | minted hmints => exact hmints.elim
  | shared _ _ _ _ free => exact free.mem_iff.mp hfree

theorem shelf_release (p : IpAllocator) (conn) :
    (p.release conn).shelf = p.shelf.release conn := by
  unfold release Shelf.release shelf
  generalize p.used.release conn = answer
  obtain ⟨_ | ⟨addr, _ | _⟩, used⟩ := answer <;> rfl

theorem openForReclaim_release (p : IpAllocator) (conn) :
    (p.release conn).openForReclaim = p.openForReclaim := by
  unfold release
  generalize p.used.release conn = answer
  obtain ⟨_ | ⟨addr, _ | _⟩, used⟩ := answer <;> rfl

theorem transferOwner_cases (p : IpAllocator) (src dst : Pubkey) :
    (p.transferOwner src dst).openForReclaim = p.openForReclaim ∧
      ((p.transferOwner src dst).shelf = p.shelf ∨
        (p.transferOwner src dst).shelf = ⟨p.free, p.used.transferOwner src dst⟩) := by
  unfold transferOwner
  split
  · exact ⟨rfl, Or.inl rfl⟩
  · exact ⟨rfl, Or.inr rfl⟩

/-! ### Runs of the pool -/

inductive Op where
  | allocate (conn : ConnId)
  | allocateAt (conn : ConnId) (pubkey : Pubkey) (intent : SessionIntent) (now : ℕ)
      (mayReclaim : Bool)
  | release (conn : ConnId)
  | transferOwner (src dst : Pubkey)
  | enableRestartReclaim (eligible : Finset Ipv4Addr) (now : ℕ)
  | setAddressClaims (claims : ℕ → Ipv4Addr → Bool)

def Op.apply (p : IpAllocator) : Op → IpAllocator
  | .allocate conn => (p.allocate conn).2
  | .allocateAt conn pubkey intent now mayReclaim =>
    (p.allocateAt conn pubkey intent now mayReclaim).2
  | .release conn => p.release conn
  | .transferOwner src dst => p.transferOwner src dst
  | .enableRestartReclaim eligible now => p.enableRestartReclaim eligible now
  | .setAddressClaims claims => p.setAddressClaims claims

/-- One step: a call, or another iteration order of the sticky table. -/
inductive PoolStep (p : IpAllocator) : IpAllocator → Prop
  | op (o : Op) : PoolStep p (o.apply p)
  | reorder (entries : List (Σ _ : Pubkey, Ipv4Addr)) (h : p.sticky.entries.Perm entries) :
      PoolStep p { p with sticky := Table.reorder p.sticky entries h }

def Reachable (networkIpv4 : Ipv4Addr) (prefixLen : ℕ) (gateway : Ipv4Addr) :
    IpAllocator → Prop :=
  Transition.Reachable (fun p => ∃ seed, withSeed networkIpv4 prefixLen gateway seed = .ok p)
    PoolStep

/-- **The invariant of a pool over the stock it was built for.** -/
structure Conserved (stock : Ipv4Addr → Prop) (p : IpAllocator) : Prop where
  agree : p.used.Agree
  sound : Sound p.shelf.pool
  covers : Covers stock p.shelf.pool
  openFree : ∀ a ∈ p.openForReclaim, a ∈ p.free

section

variable (h : Conserved stock p)
include h

theorem Conserved.move (ha : q.used.Agree)
    (hstep : Step False p.shelf.pool q.shelf.pool) (hopen : ∀ a ∈ q.openForReclaim, a ∈ q.free) :
    Conserved stock q :=
  ⟨ha, h.sound.step hstep, h.covers.step hstep, hopen⟩

theorem Conserved.outcome (hnew : p.used.addressOf conn = none)
    (hout : Outcome p conn owner mayShare r) : Conserved stock r.2 :=
  h.move (hout.placed.agree h.agree hnew) (hout.placed.step h.agree hnew)
    (hout.openForReclaim_free h.openFree)

theorem Conserved.release (conn) : Conserved stock (p.release conn) := by
  have hshelf := shelf_release p conn
  have hagree : (p.release conn).shelf.used.Agree := by
    rw [hshelf, Shelf.used_release]
    exact h.agree.release conn
  have hstep : Step False p.shelf.pool (p.release conn).shelf.pool :=
    hshelf ▸ Shelf.release_move h.agree conn
  refine h.move hagree hstep fun a ha => ?_
  -- a release only adds to the free list
  have hfree : a ∈ p.free := h.openFree a (openForReclaim_release p conn ▸ ha)
  show a ∈ (p.release conn).shelf.free
  rw [hshelf]
  exact Shelf.mem_free_release p.shelf conn hfree

theorem Conserved.transferOwner (src dst : Pubkey) : Conserved stock (p.transferOwner src dst) := by
  obtain ⟨hopen, hshelf⟩ := transferOwner_cases p src dst
  have hfree : (p.transferOwner src dst).free = p.free := by
    rcases hshelf with hshelf | hshelf
    exacts [congrArg Shelf.free hshelf, congrArg Shelf.free hshelf]
  have hagree : (p.transferOwner src dst).shelf.used.Agree := by
    rcases hshelf with hshelf | hshelf <;> rw [hshelf]
    exacts [h.agree, h.agree.transferOwner src dst]
  have hstep : Step False p.shelf.pool (p.transferOwner src dst).shelf.pool := by
    rcases hshelf with hshelf | hshelf <;> rw [hshelf]
    exacts [.shuffle (List.Perm.refl _), Shelf.transfer_move p.shelf src dst]
  refine h.move hagree hstep fun a ha => ?_
  show a ∈ (p.transferOwner src dst).free
  rw [hfree]
  exact h.openFree a (hopen ▸ ha)

theorem Conserved.op (o : Op) : Conserved stock (o.apply p) := by
  cases o with
  | allocate conn =>
    cases hheld : p.used.addressOf conn with
    | some addr =>
      rw [Op.apply, allocate_known hheld]
      exact h
    | none => exact h.outcome hheld (allocate_outcome p conn hheld)
  | allocateAt conn pubkey intent now mayReclaim =>
    cases hheld : p.used.addressOf conn with
    | some addr =>
      rw [Op.apply, allocateAt_known hheld]
      exact h
    | none => exact h.outcome hheld (allocateAt_outcome p conn pubkey intent now mayReclaim hheld)
  | release conn => exact h.release conn
  | transferOwner src dst => exact h.transferOwner src dst
  | enableRestartReclaim eligible now =>
    exact ⟨h.agree, h.sound, h.covers, fun a ha => (Finset.mem_filter.mp ha).2⟩
  | setAddressClaims claims => exact ⟨h.agree, h.sound, h.covers, h.openFree⟩

end

theorem blank_withSeed {seed : UInt64} (h : withSeed networkIpv4 prefixLen gateway seed = .ok p) :
    p.used = Holdings.new ∧ p.sticky = ∅ ∧ p.lastHolder = ∅ := by
  unfold withSeed at h
  dsimp only at h
  split_ifs at h
  obtain rfl := Except.ok.inj h
  exact ⟨rfl, rfl, rfl⟩

theorem conserved_withSeed {seed : UInt64}
    (h : withSeed networkIpv4 prefixLen gateway seed = .ok p) :
    Conserved (IsHost networkIpv4 prefixLen gateway) p := by
  unfold withSeed at h
  dsimp only at h
  split_ifs at h
  obtain rfl := Except.ok.inj h
  refine ⟨Holdings.Agree.new, ⟨(nodup_addressesBetween _ _).filter _, ?_, ?_⟩, ?_, ?_⟩
  · intro a _ conn hheld
    rw [Shelf.pool, shelf, Holdings.lease_new] at hheld
    obtain ⟨o, ho⟩ := hheld
    cases ho
  · rw [Shelf.pool, shelf, Holdings.lease_new]
    exact OneOwner.empty
  · intro a
    rw [Shelf.pool, shelf, Holdings.lease_new]
    have hnone : ¬ ∃ conn, Book.Holds (fun _ => none : Book ConnId Ipv4Addr Pubkey) conn a := by
      rintro ⟨conn, o, ho⟩
      cases ho
    rw [or_iff_left hnone, List.mem_filter, between_iff, decide_eq_true_eq, IsHost]
    simp only [and_assoc]
  · intro a ha
    simp [openForReclaim] at ha

theorem reachable_conserved (h : Reachable networkIpv4 prefixLen gateway p) :
    Conserved (IsHost networkIpv4 prefixLen gateway) p := by
  refine Transition.Reachable.invariant ?_ ?_ h
  · rintro p ⟨seed, hp⟩
    exact conserved_withSeed hp
  · intro p q hp hstep
    cases hstep with
    | op o => exact hp.op o
    | reorder entries hperm => exact ⟨hp.agree, hp.sound, hp.covers, hp.openFree⟩

/-- **Conservation.**  In every reachable pool the free list has no duplicates, no
free host is held, free and held hosts together are the hosts of the subnet, the
three tables of the holdings agree, and every host open to the restart reclaim is
free. -/
theorem reachable_conserves_hosts {networkIpv4 gateway : Ipv4Addr} {prefixLen : ℕ}
    (h : Reachable networkIpv4 prefixLen gateway p) :
    p.free.Nodup ∧ (∀ a ∈ p.free, p.used.isHeld a = false) ∧
      (∀ a, IsHost networkIpv4 prefixLen gateway a ↔ a ∈ p.free ∨ p.used.isHeld a = true) ∧
      p.used.Agree ∧ ∀ reclaim, p.reclaim = some reclaim → ∀ a ∈ reclaim.eligible, a ∈ p.free := by
  have hinv := reachable_conserved h
  refine ⟨hinv.sound.nodup, fun a ha => ?_, fun a => ?_, hinv.agree, fun reclaim hr a ha => ?_⟩
  · refine Bool.eq_false_iff.mpr fun hheld => ?_
    obtain ⟨conn, hconn⟩ := (Holdings.isHeld_iff hinv.agree).mp hheld
    exact hinv.sound.vacant a ha conn hconn
  · rw [Holdings.isHeld_iff hinv.agree]
    exact hinv.covers a
  · refine hinv.openFree a ?_
    rw [openForReclaim, hr]
    exact ha

theorem Reachable.ops (h : Reachable networkIpv4 prefixLen gateway p) (ops : List Op) :
    Reachable networkIpv4 prefixLen gateway (ops.foldl Op.apply p) :=
  Transition.Reachable.foldl (fun _ o => .op o) ops h

/-- `10.66.0.2` is reclaimed by its old holder, joined by a second connection and
left by the first; a stranger draws another host. -/
def reclaimAndJoin : List Op :=
  [.enableRestartReclaim {0x0A420002, 0x0A420003} 0,
    .allocateAt 1 7 (.join 0x0A420002) 5 true, .allocateAt 2 7 (.join 0x0A420002) 5 false,
    .allocate 3, .transferOwner 7 8, .release 1]

theorem reachable_conserves_hosts_slash29 :
    ∃ p, Reachable 0x0A420000 29 0x0A420001 p ∧ p.connsHolding 0x0A420002 = [2] ∧
      p.free.length = 3 ∧ p.free.Nodup ∧
      ∀ a, IsHost 0x0A420000 29 0x0A420001 a ↔ a ∈ p.free ∨ p.used.isHeld a = true := by
  have hreach : Reachable 0x0A420000 29 0x0A420001 (reclaimAndJoin.foldl Op.apply slash29) :=
    Reachable.ops (.start ⟨1, withSeed_slash29⟩) reclaimAndJoin
  obtain ⟨hnodup, -, hhosts, -⟩ := reachable_conserves_hosts hreach
  exact ⟨_, hreach, by decide, by decide, hnodup, hhosts⟩

end IpAllocator

end IpPool

end WarrenGuard
