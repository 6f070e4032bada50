/-
The IPv6 address pool of the exit (`IpAllocatorV6` of
`warrenguard-multihop-server/src/ip_pool.rs`).

The pool hands out interface ids of one `/64`, which has no list of free hosts: an id is recycled,
or drawn until one is found that nobody holds, so the pool is a lease pool that mints.  Placement
follows the IPv4 pool (`place_placed`, `allocate_placed`).

* `reachable_kept` — recycled ids are listed once and held by nobody, and all holders of an id
  have one key;
* `addrOf_injective` — two ids are two addresses.
-/
import WarrenGuard.AddressPool
import WarrenGuard.Placement
import WarrenGuard.Transition

namespace WarrenGuard.IpPool

open LeasePool VecOps

/-- Where a client asks to be placed: `join` names the connections that share its IPv4 address. -/
inductive SessionIntentV6 where
  | legacy
  | fresh
  | join (siblings : List ConnId)
deriving DecidableEq

structure IpAllocatorV6 where
  network : Ipv6Addr
  gateway : Ipv6Addr
  rng : UInt64
  recycled : List UInt64
  used : Holdings UInt64
  sticky : Table Pubkey UInt64

variable {networkIpv6 : Ipv6Addr} {offset : UInt64}

namespace IpAllocatorV6

/-- `IpAllocatorV6::with_seed`: the low 64 bits are masked off. -/
def withSeed (networkIpv6 : Ipv6Addr) (seed : UInt64) : IpAllocatorV6 :=
  let network := networkIpv6 &&& (BitVec.allOnes 128 <<< 64)
  { network, gateway := network ||| 1, rng := seed, recycled := [], used := Holdings.new,
    sticky := ∅ }

variable (p : IpAllocatorV6)

def addrOf (offset : UInt64) : Ipv6Addr :=
  p.network ||| offset.toBitVec.setWidth 128

/-- The draws of `pop_offset`: offsets 0 and 1 are the network and the gateway. -/
def drawOffset : ℕ → IpAllocatorV6 → Option UInt64 × IpAllocatorV6
  | 0, p => (none, p)
  | tries + 1, p =>
    let (offset, rng) := nextU64 p.rng
    let p := { p with rng }
    if offset < 2 then drawOffset tries p
    else if p.used.isHeld offset then drawOffset tries p
    else (some offset, p)

/-- How often a fresh offset is drawn before the pool gives up. -/
def offsetDraws : ℕ := 64

def popOffset : Option UInt64 × IpAllocatorV6 :=
  if p.recycled.isEmpty then drawOffset offsetDraws p
  else
    let (idx, rng) := bounded p.rng p.recycled.length
    (p.recycled[idx]?, { p with rng, recycled := swapRemove p.recycled idx })

variable (conn : ConnId)

def allocate : Option Ipv6Addr × IpAllocatorV6 :=
  match p.used.addressOf conn with
  | some offset => (some (p.addrOf offset), p)
  | none =>
    match p.popOffset with
    | (none, p) => (none, p)
    | (some offset, p) => (some (p.addrOf offset), { p with used := p.used.hold conn offset none })

def heldByPubkey (offset : UInt64) (pubkey : Pubkey) : Bool :=
  p.used.heldBy offset pubkey

def siblingOffset (pubkey : Pubkey) (siblings : List ConnId) : Option UInt64 :=
  siblings.findSome? fun c => if p.used.ownerOf c = some pubkey then p.used.addressOf c else none

def tryJoin (pubkey : Pubkey) (intent : SessionIntentV6) :
    Option UInt64 × IpAllocatorV6 :=
  match intent with
  | .join siblings =>
    match p.siblingOffset pubkey siblings with
    | some offset => (some offset, { p with used := p.used.hold conn offset (some pubkey) })
    | none => (none, p)
  | _ => (none, p)

/-- The sticky part of a keyed allocation; only a hint-less request shares here. -/
def trySticky (pubkey : Pubkey) (intent : SessionIntentV6) :
    Option UInt64 × IpAllocatorV6 :=
  match p.sticky.lookup pubkey with
  | none => (none, p)
  | some preferred =>
    match p.recycled.idxOf? preferred with
    | some pos =>
      (some preferred,
        { p with
          recycled := swapRemove p.recycled pos
          used := p.used.hold conn preferred (some pubkey) })
    | none =>
      if intent = .legacy ∧ p.heldByPubkey preferred pubkey then
        (some preferred, { p with used := p.used.hold conn preferred (some pubkey) })
      else (none, p)

/-- The last part of a keyed allocation: a new id, bound to the key. -/
def drawFor (pubkey : Pubkey) :
    Option UInt64 × IpAllocatorV6 :=
  match p.popOffset with
  | (none, p) => (none, p)
  | (some offset, p) =>
    let used := p.used.hold conn offset (some pubkey)
    (some offset, { p with used, sticky := bindSticky used p.sticky pubkey offset })

def place (pubkey : Pubkey) (intent : SessionIntentV6) :
    Option UInt64 × IpAllocatorV6 :=
  match p.used.addressOf conn with
  | some offset => (some offset, p)
  | none =>
    match p.tryJoin conn pubkey intent with
    | (some offset, p) => (some offset, p)
    | (none, p) =>
      match p.trySticky conn pubkey intent with
      | (some offset, p) => (some offset, p)
      | (none, p) => p.drawFor conn pubkey

def allocateForPubkeyWithIntent (pubkey : Pubkey)
    (intent : SessionIntentV6) : Option Ipv6Addr × IpAllocatorV6 :=
  let (offset, q) := p.place conn pubkey intent
  (offset.map p.addrOf, q)

def transferOwner (src dst : Pubkey) : IpAllocatorV6 :=
  if src = dst then p
  else
    { p with
      used := p.used.transferOwner src dst
      sticky := transferSticky p.sticky src dst }

def release : IpAllocatorV6 :=
  match p.used.release conn with
  | (some (offset, true), used) => { p with used, recycled := p.recycled ++ [offset] }
  | (_, used) => { p with used }

/-! ### What the parts of an allocation do -/

def shelf : Shelf UInt64 := ⟨p.recycled, p.used⟩

/-- What `pop_offset` can do: nothing, hand out a recycled id, or mint one. -/
def Pops (r : Option UInt64 × IpAllocatorV6) : Prop :=
  r.2.used = p.used ∧
  ((r.1 = none ∧ p.recycled.Perm r.2.recycled) ∨
    ∃ offset, r.1 = some offset ∧
      (p.recycled.Perm (offset :: r.2.recycled) ∨
        (p.used.isHeld offset = false ∧ offset ∉ p.recycled ∧ r.2.recycled = p.recycled)))

theorem drawOffset_pops (tries : ℕ) {p q : IpAllocatorV6} (hnil : q.recycled = [])
    (hrec : q.recycled = p.recycled) (hused : q.used = p.used) :
    Pops p (drawOffset tries q) := by
  induction tries generalizing q with
  | zero => exact ⟨hused, Or.inl ⟨rfl, hrec ▸ List.Perm.refl _⟩⟩
  | succ tries ih =>
    unfold drawOffset
    generalize nextU64 q.rng = draw
    obtain ⟨offset, rng⟩ := draw
    dsimp only
    split
    · exact ih hnil hrec hused
    · split
      · exact ih hnil hrec hused
      · rename_i hfree
        rw [Bool.not_eq_true, hused] at hfree
        refine ⟨hused, Or.inr ⟨offset, rfl, Or.inr ⟨hfree, ?_, hrec⟩⟩⟩
        rw [← hrec, hnil]
        exact List.not_mem_nil

theorem popOffset_pops : Pops p p.popOffset := by
  unfold popOffset
  generalize offsetDraws = tries
  split
  · rename_i hnil
    exact drawOffset_pops tries (List.isEmpty_iff.mp hnil) rfl rfl
  · rename_i hne
    have hpos : 0 < p.recycled.length :=
      List.length_pos_iff.mpr fun hnil => hne (List.isEmpty_iff.mpr hnil)
    have hlt := bounded_lt p.rng hpos
    generalize bounded p.rng p.recycled.length = draw at hlt ⊢
    obtain ⟨idx, rng⟩ := draw
    have hget := List.getElem?_eq_getElem hlt
    exact ⟨rfl, Or.inr ⟨_, hget, Or.inl (perm_cons_swapRemove hget)⟩⟩

variable {mints : Prop} {p q : IpAllocatorV6} {conn : ConnId} {owner : Option Pubkey}
  {mayShare : UInt64 → Prop}

theorem recycled_nil_of_popOffset (h : p.popOffset = (some offset, q))
    (hnot : offset ∉ p.recycled) :
    p.recycled = [] := by
  unfold popOffset at h
  split at h
  · next hnil => exact List.isEmpty_iff.mp hnil
  · exact absurd (List.mem_of_getElem? (congrArg Prod.fst h)) hnot

theorem Pops.placed (h : Pops p (some offset, q)) (hmints : offset ∉ p.recycled → mints) :
    p.shelf.Placed mints conn owner mayShare (some offset)
      ⟨q.recycled, q.used.hold conn offset owner⟩ := by
  obtain ⟨hused, ⟨hnone, -⟩ | ⟨offset', heq, hfrom⟩⟩ := h
  · cases hnone
  · cases heq
    have hheld : q.used.hold conn offset owner = p.used.hold conn offset owner :=
      congrArg (·.hold conn offset owner) hused
    rcases hfrom with hperm | ⟨hnew, hnot, hrec⟩
    · exact .taken hheld hperm
    · exact .minted (hmints hnot) hnew hnot hheld (hrec ▸ List.Perm.refl _)

theorem Pops.refused (h : Pops p (none, q)) :
    p.shelf.Placed mints conn owner mayShare none q.shelf := by
  obtain ⟨hused, ⟨-, hperm⟩ | ⟨offset, heq, -⟩⟩ := h
  · exact .refused hused hperm
  · cases heq

variable {intent : SessionIntentV6} {pubkey : Pubkey}

theorem siblingOffset_some {siblings : List ConnId}
    (h : p.siblingOffset pubkey siblings = some offset) :
    ∃ c ∈ siblings, p.used.ownerOf c = some pubkey ∧ p.used.addressOf c = some offset := by
  obtain ⟨c, hc, hoff⟩ := List.exists_of_findSome?_eq_some h
  by_cases hown : p.used.ownerOf c = some pubkey
  · rw [if_pos hown] at hoff
    exact ⟨c, hc, hown, hoff⟩
  · rw [if_neg hown] at hoff
    cases hoff

def JoinsSibling (p : IpAllocatorV6) (pubkey : Pubkey) (intent : SessionIntentV6)
    (offset : UInt64) : Prop :=
  ∃ siblings c, intent = .join siblings ∧ c ∈ siblings ∧ p.used.ownerOf c = some pubkey ∧
    p.used.addressOf c = some offset

theorem tryJoin_cases (ha : p.used.Agree) (conn pubkey intent) :
    p.tryJoin conn pubkey intent = (none, p) ∨
    ∃ offset q, p.tryJoin conn pubkey intent = (some offset, q) ∧
      p.shelf.Placed mints conn (some pubkey) (JoinsSibling p pubkey intent) (some offset)
        q.shelf := by
  cases intent with
  | legacy => exact Or.inl rfl
  | fresh => exact Or.inl rfl
  | join siblings =>
    unfold tryJoin
    dsimp only
    cases hoff : p.siblingOffset pubkey siblings with
    | none => exact Or.inl rfl
    | some offset =>
      obtain ⟨c, hc, hown, haddr⟩ := siblingOffset_some hoff
      have hheld : p.used.heldBy offset pubkey = true :=
        (Holdings.heldBy_iff ha).mpr ⟨c, Holdings.lease_eq_some.mpr ⟨haddr, hown⟩⟩
      exact Or.inr ⟨offset, _, rfl,
        .shared rfl hheld ⟨siblings, c, rfl, hc, hown, haddr⟩ rfl (List.Perm.refl _)⟩

theorem trySticky_cases (p : IpAllocatorV6) (conn pubkey intent) :
    p.trySticky conn pubkey intent = (none, p) ∨
    ∃ offset q, p.trySticky conn pubkey intent = (some offset, q) ∧
      p.shelf.Placed mints conn (some pubkey)
        (fun a => intent = .legacy ∧ p.sticky.lookup pubkey = some a) (some offset) q.shelf := by
  unfold trySticky
  cases p.sticky.lookup pubkey with
  | none => exact Or.inl rfl
  | some preferred =>
    dsimp only
    cases hpos : p.recycled.idxOf? preferred with
    | some pos =>
      obtain ⟨hlt, hget, -⟩ := List.idxOf?_eq_some_iff.mp hpos
      have hat : p.recycled[pos]? = some preferred := List.getElem?_eq_some_iff.mpr ⟨hlt, hget⟩
      exact Or.inr ⟨preferred, _, rfl, .taken rfl (perm_cons_swapRemove hat)⟩
    | none =>
      dsimp only
      split
      · rename_i hshare
        exact Or.inr ⟨preferred, _, rfl,
          .shared rfl hshare.2 ⟨hshare.1, rfl⟩ rfl (List.Perm.refl _)⟩
      · exact Or.inl rfl

theorem drawFor_placed (p : IpAllocatorV6) (conn pubkey) :
    p.shelf.Placed (p.recycled = []) conn (some pubkey) (fun _ => False) (p.drawFor conn pubkey).1
      (p.drawFor conn pubkey).2.shelf := by
  unfold drawFor
  have hpops := popOffset_pops p
  rcases hpop : p.popOffset with ⟨_ | offset, q⟩ <;> rw [hpop] at hpops
  · exact hpops.refused
  · exact hpops.placed (recycled_nil_of_popOffset hpop)

theorem allocate_known (h : p.used.addressOf conn = some offset) :
    p.allocate conn = (some (p.addrOf offset), p) := by
  rw [allocate, h]

theorem place_known (h : p.used.addressOf conn = some offset) (pubkey intent) :
    p.place conn pubkey intent = (some offset, p) := by
  rw [place, h]

/-- **The keyed allocation.**  Only a hint-less request, or a join with a sibling
of the same key, shares. -/
theorem place_placed (ha : p.used.Agree) (hnew : p.used.addressOf conn = none) (pubkey intent) :
    p.shelf.Placed (p.recycled = []) conn (some pubkey)
      (fun offset => intent = .legacy ∨ JoinsSibling p pubkey intent offset)
      (p.place conn pubkey intent).1 (p.place conn pubkey intent).2.shelf := by
  unfold place
  rw [hnew]
  rcases tryJoin_cases ha conn pubkey intent with hjoin | ⟨offset, q, hjoin, hplaced⟩
  · rw [hjoin]
    dsimp only
    rcases trySticky_cases p conn pubkey intent with hsticky | ⟨offset, q, hsticky, hplaced⟩
    · rw [hsticky]
      exact (drawFor_placed p conn pubkey).mono fun offset hno => hno.elim
    · rw [hsticky]
      exact hplaced.mono fun offset hlegacy => Or.inl hlegacy.1
  · rw [hjoin]
    exact hplaced.mono fun offset hsibling => Or.inr hsibling

section

variable (hnew : p.used.addressOf conn = none)
include hnew

theorem place_legacy_placed (pubkey) :
    p.shelf.Placed (p.recycled = []) conn (some pubkey)
      (fun offset => p.sticky.lookup pubkey = some offset)
      (p.place conn pubkey .legacy).1 (p.place conn pubkey .legacy).2.shelf := by
  unfold place
  rw [hnew]
  dsimp only [tryJoin]
  rcases trySticky_cases p conn pubkey .legacy with hsticky | ⟨offset, q, hsticky, hplaced⟩
  · rw [hsticky]
    exact (drawFor_placed p conn pubkey).mono fun offset hno => hno.elim
  · rw [hsticky]
    exact hplaced.mono fun offset hshare => hshare.2

theorem place_legacy_shares {pubkey : Pubkey}
    (hsticky : p.sticky.lookup pubkey = some offset) (hheld : p.heldByPubkey offset pubkey = true)
    (hfree : offset ∉ p.recycled) : (p.place conn pubkey .legacy).1 = some offset := by
  unfold place
  rw [hnew]
  dsimp only [tryJoin, trySticky]
  rw [hsticky]
  dsimp only
  rw [List.idxOf?_eq_none_iff.mpr hfree]
  rw [if_pos ⟨rfl, hheld⟩]

theorem place_join_shares {pubkey : Pubkey} {siblings : List ConnId}
    (hsibling : p.siblingOffset pubkey siblings = some offset) :
    (p.place conn pubkey (.join siblings)).1 = some offset := by
  unfold place
  rw [hnew]
  dsimp only [tryJoin]
  rw [hsibling]

theorem allocate_placed :
    ∃ offset, p.shelf.Placed (p.recycled = []) conn none (fun _ => False) offset
      (p.allocate conn).2.shelf := by
  unfold allocate
  rw [hnew]
  have hpops := popOffset_pops p
  rcases hpop : p.popOffset with ⟨_ | offset, q⟩ <;> rw [hpop] at hpops
  · exact ⟨none, hpops.refused⟩
  · exact ⟨some offset, hpops.placed (recycled_nil_of_popOffset hpop)⟩

end

theorem shelf_release (p : IpAllocatorV6) (conn) :
    (p.release conn).shelf = p.shelf.release conn := by
  unfold release Shelf.release shelf
  generalize p.used.release conn = answer
  obtain ⟨_ | ⟨offset, _ | _⟩, used⟩ := answer <;> rfl

/-! ### Runs of the pool -/

inductive Op where
  | allocate (conn : ConnId)
  | allocateFor (conn : ConnId) (pubkey : Pubkey) (intent : SessionIntentV6)
  | release (conn : ConnId)
  | transferOwner (src dst : Pubkey)

def Op.apply (p : IpAllocatorV6) : Op → IpAllocatorV6
  | .allocate conn => (p.allocate conn).2
  | .allocateFor conn pubkey intent => (p.allocateForPubkeyWithIntent conn pubkey intent).2
  | .release conn => p.release conn
  | .transferOwner src dst => p.transferOwner src dst

inductive PoolStep (p : IpAllocatorV6) : IpAllocatorV6 → Prop
  | op (o : Op) : PoolStep p (o.apply p)
  | reorder (entries : List (Σ _ : Pubkey, UInt64)) (h : p.sticky.entries.Perm entries) :
      PoolStep p { p with sticky := Table.reorder p.sticky entries h }

def Reachable (networkIpv6 : Ipv6Addr) : IpAllocatorV6 → Prop :=
  Transition.Reachable (fun p => ∃ seed, p = withSeed networkIpv6 seed) PoolStep

structure Kept (p : IpAllocatorV6) : Prop where
  agree : p.used.Agree
  sound : Sound p.shelf.pool

/-- **Every call is a move of the lease pool**, which mints only while nothing is recycled. -/
theorem Kept.move (h : Kept p) (o : Op) :
    (o.apply p).used.Agree ∧ Step (p.recycled = []) p.shelf.pool (o.apply p).shelf.pool := by
  have hstay : p.used.Agree ∧ Step (p.recycled = []) p.shelf.pool p.shelf.pool :=
    ⟨h.agree, .shuffle (List.Perm.refl _)⟩
  cases o with
  | allocate conn =>
    cases hheld : p.used.addressOf conn with
    | some offset =>
      rw [Op.apply, allocate_known hheld]
      exact hstay
    | none =>
      obtain ⟨offset, hplaced⟩ := allocate_placed hheld
      exact ⟨hplaced.agree h.agree hheld, hplaced.step h.agree hheld⟩
  | allocateFor conn pubkey intent =>
    show (p.place conn pubkey intent).2.used.Agree ∧
      Step (p.recycled = []) p.shelf.pool (p.place conn pubkey intent).2.shelf.pool
    cases hheld : p.used.addressOf conn with
    | some offset =>
      rw [place_known hheld]
      exact hstay
    | none =>
      have hplaced := place_placed h.agree hheld pubkey intent
      exact ⟨hplaced.agree h.agree hheld, hplaced.step h.agree hheld⟩
  | release conn =>
    show (p.release conn).shelf.used.Agree ∧
      Step (p.recycled = []) p.shelf.pool (p.release conn).shelf.pool
    rw [shelf_release]
    refine ⟨?_, Shelf.release_move h.agree conn⟩
    rw [Shelf.used_release]
    exact h.agree.release conn
  | transferOwner src dst =>
    rw [Op.apply, transferOwner]
    split
    · exact hstay
    · exact ⟨h.agree.transferOwner src dst, Shelf.transfer_move p.shelf src dst⟩

theorem Kept.step (hp : Kept p) (h : PoolStep p q) : Kept q := by
  cases h with
  | op o => exact ⟨(hp.move o).1, hp.sound.step (hp.move o).2⟩
  | reorder entries hperm => exact ⟨hp.agree, hp.sound⟩

theorem kept_withSeed (networkIpv6) (seed : UInt64) :
    Kept (withSeed networkIpv6 seed) := by
  refine ⟨Holdings.Agree.new, ⟨List.nodup_nil, fun a ha => absurd ha List.not_mem_nil, ?_⟩⟩
  show OneOwner (Holdings.new : Holdings UInt64).lease
  rw [Holdings.lease_new]
  exact OneOwner.empty

theorem reachable_kept (h : Reachable networkIpv6 p) : Kept p := by
  refine Transition.Reachable.invariant ?_ ?_ h
  · rintro p ⟨seed, rfl⟩
    exact kept_withSeed networkIpv6 seed
  · intro p q hp hstep
    exact hp.step hstep

/-! ### Addresses and interface ids -/

theorem drawOffset_frame (tries : ℕ) (p) :
    ∃ rng, (drawOffset tries p).2 = { p with rng } := by
  induction tries generalizing p with
  | zero => exact ⟨p.rng, rfl⟩
  | succ tries ih =>
    unfold drawOffset
    generalize nextU64 p.rng = draw
    obtain ⟨offset, rng⟩ := draw
    dsimp only
    split
    · exact ih { p with rng }
    · split
      · exact ih { p with rng }
      · exact ⟨rng, rfl⟩

theorem popOffset_frame (p : IpAllocatorV6) :
    ∃ rng recycled, p.popOffset.2 = { p with rng, recycled } := by
  unfold popOffset
  generalize offsetDraws = tries
  split
  · obtain ⟨rng, hdraw⟩ := drawOffset_frame tries p
    exact ⟨rng, p.recycled, hdraw⟩
  · exact ⟨_, _, rfl⟩

theorem network_popOffset (p : IpAllocatorV6) : p.popOffset.2.network = p.network := by
  obtain ⟨rng, recycled, hpop⟩ := popOffset_frame p
  rw [hpop]

/-- **What a keyed allocation changes**: nothing but the ids and, if it draws one, the key's
sticky id. -/
theorem place_frame (p : IpAllocatorV6) (conn pubkey intent) : ∃ rng recycled used,
      (p.place conn pubkey intent).2 = { p with rng, recycled, used } ∨
      ∃ offset, p.place conn pubkey intent = (some offset,
        { p with rng, recycled, used, sticky := bindSticky used p.sticky pubkey offset }) := by
  have hjoin : ∃ used, (p.tryJoin conn pubkey intent).2 = { p with used } := by
    unfold tryJoin
    split
    · split <;> exact ⟨_, rfl⟩
    · exact ⟨_, rfl⟩
  have hsticky (q : IpAllocatorV6) :
      ∃ recycled used, (q.trySticky conn pubkey intent).2 = { q with recycled, used } := by
    unfold trySticky
    split
    · exact ⟨_, _, rfl⟩
    · split
      · exact ⟨_, _, rfl⟩
      · split <;> exact ⟨_, _, rfl⟩
  unfold place
  split
  · exact ⟨_, _, _, Or.inl rfl⟩
  generalize p.tryJoin conn pubkey intent = joined at hjoin ⊢
  obtain ⟨_ | offset, q⟩ := joined <;> obtain ⟨used, rfl⟩ := hjoin
  swap
  · exact ⟨_, _, _, Or.inl rfl⟩
  dsimp only
  have hstuck := hsticky { p with used }
  generalize IpAllocatorV6.trySticky _ conn pubkey intent = stuck at hstuck ⊢
  obtain ⟨_ | offset, r⟩ := stuck <;> obtain ⟨recycled, used, rfl⟩ := hstuck
  swap
  · exact ⟨_, _, _, Or.inl rfl⟩
  dsimp only [drawFor]
  have hpop := popOffset_frame { p with recycled, used }
  generalize IpAllocatorV6.popOffset _ = popped at hpop ⊢
  obtain ⟨_ | offset, s⟩ := popped <;> obtain ⟨rng, recycled, rfl⟩ := hpop
  · exact ⟨_, _, _, Or.inl rfl⟩
  · exact ⟨_, _, _, Or.inr ⟨offset, rfl⟩⟩

theorem network_apply (p) (o : Op) : (o.apply p).network = p.network := by
  cases o with
  | allocate conn =>
    show (p.allocate conn).2.network = p.network
    rw [← network_popOffset p]
    unfold allocate
    split
    · exact (network_popOffset p).symm
    · generalize p.popOffset = popped
      obtain ⟨_ | offset, q⟩ := popped <;> rfl
  | allocateFor conn pubkey intent =>
    show (p.place conn pubkey intent).2.network = p.network
    obtain ⟨rng, recycled, used, heq | ⟨offset, heq⟩⟩ := place_frame p conn pubkey intent
    all_goals rw [heq]
  | release conn =>
    show (p.release conn).network = p.network
    unfold release
    split <;> rfl
  | transferOwner src dst =>
    show (p.transferOwner src dst).network = p.network
    unfold transferOwner
    split <;> rfl

theorem reachable_network (h : Reachable networkIpv6 p) : p.network.setWidth 64 = 0#64 := by
  refine Transition.Reachable.invariant (I := fun p => p.network.setWidth 64 = 0#64) ?_ ?_ h
  · rintro _ ⟨seed, rfl⟩
    have hmask : (BitVec.allOnes 128 <<< 64).setWidth 64 = 0#64 := by decide
    show (networkIpv6 &&& BitVec.allOnes 128 <<< 64).setWidth 64 = 0#64
    rw [BitVec.setWidth_and, hmask, BitVec.and_zero]
  · intro p q hp hstep
    cases hstep with
    | op o =>
      rw [network_apply]
      exact hp
    | reorder entries hperm => exact hp

/-- **Two ids are two addresses.** -/
theorem addrOf_injective (h : Reachable networkIpv6 p) : Function.Injective p.addrOf := by
  have hlow (offset : UInt64) : (p.addrOf offset).setWidth 64 = offset.toBitVec := by
    have hid : (offset.toBitVec.setWidth 128).setWidth 64 = offset.toBitVec := by
      rw [BitVec.setWidth_setWidth_of_le _ (by decide)]
      exact BitVec.setWidth_eq _
    rw [addrOf, BitVec.setWidth_or, reachable_network h, hid, BitVec.zero_or]
  intro offset offset' heq
  have hbits : offset.toBitVec = offset'.toBitVec := by rw [← hlow, ← hlow, heq]
  exact UInt64.toBitVec_inj.mp hbits

end IpAllocatorV6

end WarrenGuard.IpPool
