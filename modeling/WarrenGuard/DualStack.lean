/-
Dual-stack placement (`allocate_on_first_frame` of `warrenguard-multihop-server/src/multihop.rs`).

The first frame of a connection places it in the IPv4 pool and, if it asks for IPv6, in the IPv6
pool.  A session of its own and a join are projected from the IPv4 placement, but a hint-less
request goes to the sticky address of its key in each pool, and the two sticky tables may follow
different sessions of a key.

* `Ends` — all a first frame can do to the two pools;
* `beside_of_keyless`, `beside_of_hinted`, `beside_hintless_iff` — where the IPv6 pool puts a
  connection that the IPv4 pool has placed;
* `dual_stack_agrees` — over every run in which each does, connections share both addresses or
  none; `sticky_tables_part` — otherwise not.

Design notes: the pools are locked one after the other, and a run takes the allocations of one
first frame together.
-/
import WarrenGuard.PoolSharing

namespace WarrenGuard.Multihop

open IpPool Holdings IpAllocatorV6 IpAllocator

/-! ### Two labellings of the same things -/

section SameClasses

variable {ι α β : Type}

/-- Where `g` has a label, it puts together what `f` puts together. -/
def SameClasses (f : ι → Option α) (g : ι → Option β) : Prop :=
  ∀ i j x y, g i = some x → g j = some y → (x = y ↔ f i = f j)

variable [DecidableEq ι] {f f' : ι → Option α} {g g' : ι → Option β} {c : ι} {a : α}

theorem SameClasses.label (h : SameClasses f g) (hnew : g c = none)
    (hf : ∀ i, f' i = if i = c then some a else f i) : SameClasses f' g := by
  intro i j x y hi hj
  have hne (k : ι) (z : β) (hk : g k = some z) : k ≠ c := ne_of_apply_ne g (by simp [hk, hnew])
  rw [hf, hf, if_neg (hne i x hi), if_neg (hne j y hj)]
  exact h i j x y hi hj

theorem SameClasses.labelBoth {b : β} (h : SameClasses f g)
    (hf : ∀ i, f' i = if i = c then some a else f i)
    (hg : ∀ i, g' i = if i = c then some b else g i)
    (hbeside : ∀ i y, g i = some y → (y = b ↔ f i = some a)) : SameClasses f' g' := by
  intro i j x y hi hj
  rw [hg] at hi hj
  rw [hf, hf]
  by_cases hic : i = c <;> by_cases hjc : j = c
  · rw [if_pos hic] at hi
    rw [if_pos hjc] at hj
    rw [if_pos hic, if_pos hjc, ← Option.some_inj, ← hi, ← hj]
    exact iff_of_true rfl rfl
  · rw [if_pos hic] at hi
    rw [if_neg hjc] at hj
    rw [if_pos hic, if_neg hjc, ← Option.some_inj.mp hi, eq_comm, hbeside j y hj]
    exact eq_comm
  · rw [if_neg hic] at hi
    rw [if_pos hjc] at hj
    rw [if_neg hic, if_pos hjc, ← Option.some_inj.mp hj]
    exact hbeside i x hi
  · rw [if_neg hic] at hi
    rw [if_neg hjc] at hj
    rw [if_neg hic, if_neg hjc]
    exact h i j x y hi hj

theorem SameClasses.unlabel (h : SameClasses f g) (hf : ∀ i, f' i = if i = c then none else f i)
    (hg : ∀ i, g' i = if i = c then none else g i) : SameClasses f' g' := by
  intro i j x y hi hj
  rw [hg, Option.ite_none_left_eq_some] at hi hj
  rw [hf, hf, if_neg hi.1, if_neg hj.1]
  exact h i j x y hi.2 hj.2

end SameClasses

/-! ### The first frame of a connection -/

structure IpAssignSpec where
  assigned : Ipv4Addr
  gateway : Ipv4Addr
  prefixLen : ℕ
  assignedV6 : Option Ipv6Addr
  gatewayV6 : Option Ipv6Addr
  prefixLenV6 : ℕ
deriving DecidableEq

/-- The arguments of an `allocate_on_first_frame`, and the time it reads. -/
structure FirstFrame where
  conn : ConnId
  stickyPubkey : Option Pubkey
  wantsIpv6 : Bool
  preferIpv4 : Option Ipv4Addr
  now : ℕ

def FirstFrame.intent (f : FirstFrame) : SessionIntent := .fromPreferIpv4 f.preferIpv4

/-- The IPv4 part: only a session without IPv6 may take an address back after a
restart (`allocate_for_pubkey_reclaiming`). -/
def allocateIpv4 (pool : IpAllocator) (f : FirstFrame) (dualStack : Bool) :
    Option Ipv4Addr × IpAllocator :=
  match f.stickyPubkey with
  | some pubkey =>
    if dualStack then pool.allocateAt f.conn pubkey f.intent f.now false
    else pool.allocateAt f.conn pubkey f.intent f.now true
  | none => pool.allocate f.conn

def siblingsAt (pool : IpAllocator) (f : FirstFrame) (assigned : Ipv4Addr) : List ConnId :=
  (pool.connsHolding assigned).filter (· ≠ f.conn)

/-- The IPv4 placement, projected for the IPv6 pool. -/
def projectIntent (intent : SessionIntent) (siblings : List ConnId) : SessionIntentV6 :=
  match intent with
  | .legacy => .legacy
  | _ => if siblings.isEmpty then .fresh else .join siblings

def allocateIpv6 (pool : IpAllocatorV6) (f : FirstFrame) (siblings : List ConnId) :
    Option Ipv6Addr × IpAllocatorV6 :=
  match f.stickyPubkey with
  | some pubkey =>
    pool.allocateForPubkeyWithIntent f.conn pubkey (projectIntent f.intent siblings)
  | none => pool.allocate f.conn

def allocateOnFirstFrame (ipAllocator : IpAllocator) (ipAllocatorV6 : Option IpAllocatorV6)
    (f : FirstFrame) : Option IpAssignSpec × IpAllocator × Option IpAllocatorV6 :=
  let dualStack := f.wantsIpv6 && ipAllocatorV6.isSome
  match allocateIpv4 ipAllocator f dualStack with
  | (none, pool) => (none, pool, ipAllocatorV6)
  | (some assigned, pool) =>
    let siblings := siblingsAt pool f assigned
    let spec : IpAssignSpec := ⟨assigned, pool.gateway, pool.prefixLen, none, none, 0⟩
    if f.wantsIpv6 then
      match ipAllocatorV6 with
      | some poolV6 =>
        match allocateIpv6 poolV6 f siblings with
        | (some addr, poolV6) =>
          (some { spec with
              assignedV6 := some addr, gatewayV6 := some poolV6.gateway, prefixLenV6 := 64 },
            pool, some poolV6)
        -- without an IPv6 address the connection is served over IPv4 alone
        | (none, poolV6) => (some spec, pool, some poolV6)
      | none => (some spec, pool, none)
    else (some spec, pool, ipAllocatorV6)

structure Pools where
  v4 : IpAllocator
  v6 : IpAllocatorV6

namespace Pools

variable (p : Pools)

def firstFrame (f : FirstFrame) : Pools :=
  let (_, v4, v6) := allocateOnFirstFrame p.v4 (some p.v6) f
  ⟨v4, v6.getD p.v6⟩

def release (conn : ConnId) : Pools := ⟨p.v4.release conn, p.v6.release conn⟩

def ipv4Of (conn : ConnId) : Option Ipv4Addr := p.v4.used.addressOf conn

def ipv6Of (conn : ConnId) : Option Ipv6Addr :=
  (p.v6.used.addressOf conn).map p.v6.addrOf

def OfKey (pubkey : Pubkey) (conn : ConnId) : Prop :=
  p.v4.used.ownerOf conn = some pubkey

/-- **All a first frame can do.** -/
inductive Ends (p : Pools) (f : FirstFrame) : Pools → Prop
  | refused (h : (allocateIpv4 p.v4 f f.wantsIpv6).1 = none) :
      Ends p f ⟨(allocateIpv4 p.v4 f f.wantsIpv6).2, p.v6⟩
  | ipv4Only {assigned : Ipv4Addr} (h : (allocateIpv4 p.v4 f f.wantsIpv6).1 = some assigned)
      (hwants : f.wantsIpv6 = false) : Ends p f ⟨(allocateIpv4 p.v4 f f.wantsIpv6).2, p.v6⟩
  | dualStack {assigned : Ipv4Addr} (h : (allocateIpv4 p.v4 f f.wantsIpv6).1 = some assigned)
      (hwants : f.wantsIpv6 = true) :
      Ends p f ⟨(allocateIpv4 p.v4 f f.wantsIpv6).2,
        (allocateIpv6 p.v6 f (siblingsAt (allocateIpv4 p.v4 f f.wantsIpv6).2 f assigned)).2⟩

theorem firstFrame_ends (f : FirstFrame) : Ends p f (p.firstFrame f) := by
  have hrefused := @Ends.refused p f
  have honly := @Ends.ipv4Only p f
  have hdual := @Ends.dualStack p f
  unfold firstFrame allocateOnFirstFrame
  simp only [Option.isSome_some, Bool.and_true]
  generalize allocateIpv4 p.v4 f f.wantsIpv6 = placed at hrefused honly hdual ⊢
  obtain ⟨_ | assigned, v4⟩ := placed
  · exact hrefused rfl
  · have hv6 := hdual rfl
    dsimp only at hv6 ⊢
    generalize allocateIpv6 p.v6 f (siblingsAt v4 f assigned) = placed at hv6 ⊢
    by_cases hwants : f.wantsIpv6 = true
    · rw [if_pos hwants]
      obtain ⟨_ | addr, v6⟩ := placed
      · exact hv6 hwants
      · exact hv6 hwants
    · rw [if_neg hwants]
      exact honly rfl (Bool.eq_false_iff.mpr hwants)

/-! ### What a placement leaves together -/

/-- The link between the pools: a connection with IPv6 has IPv4, under the same key,
and the connections with IPv6 share in both pools alike. -/
structure Linked (p : Pools) : Prop where
  both : ∀ c, p.v4.used.addressOf c = none → p.v6.used.addressOf c = none
  owner : ∀ c x, p.v6.used.addressOf c = some x → p.v6.used.ownerOf c = p.v4.used.ownerOf c
  same : SameClasses p.v4.used.addressOf p.v6.used.addressOf

/-- The places `addr` and `offset` have the same connections with IPv6. -/
def Beside (addr : Ipv4Addr) (offset : UInt64) : Prop :=
  ∀ c y, p.v6.used.addressOf c = some y → (y = offset ↔ p.v4.used.addressOf c = some addr)

variable {p q : Pools} {conn : ConnId} {owner : Option Pubkey} {addr : Ipv4Addr} {offset : UInt64}

theorem Linked.congr (h : Linked p) (h4 : q.v4.used = p.v4.used) (h6 : q.v6.used = p.v6.used) :
    Linked q := by
  refine ⟨?_, ?_, ?_⟩
  · rw [h4, h6]
    exact h.both
  · rw [h4, h6]
    exact h.owner
  · rw [h4, h6]
    exact h.same

theorem Linked.placeV4 (h : Linked p) (ha : p.v4.used.Agree)
    (hnew : p.v4.used.addressOf conn = none) (h4 : q.v4.used = p.v4.used.hold conn addr owner)
    (h6 : q.v6.used = p.v6.used) : Linked q := by
  have hnew6 := h.both conn hnew
  refine ⟨fun c hc => ?_, fun c x hc => ?_, ?_⟩
  · rw [h4, addressOf_hold] at hc
    split at hc
    · cases hc
    · rw [h6]
      exact h.both c hc
  · rw [h6] at hc ⊢
    have hne : c ≠ conn := ne_of_apply_ne p.v6.used.addressOf (by simp [hc, hnew6])
    rw [h4, ownerOf_hold ha hnew, if_neg hne]
    exact h.owner c x hc
  · rw [h6]
    refine h.same.label (a := addr) hnew6 fun c => ?_
    rw [h4, addressOf_hold]

theorem Linked.placeBoth (h : Linked p) (ha : p.v4.used.Agree) (ha6 : p.v6.used.Agree)
    (hnew : p.v4.used.addressOf conn = none) (h4 : q.v4.used = p.v4.used.hold conn addr owner)
    (h6 : q.v6.used = p.v6.used.hold conn offset owner) (hbeside : Beside p addr offset) :
    Linked q := by
  have hnew6 := h.both conn hnew
  refine ⟨fun c hc => ?_, fun c x hc => ?_, ?_⟩
  · rw [h4, addressOf_hold] at hc
    rw [h6, addressOf_hold]
    split at hc
    · cases hc
    · rename_i hne
      rw [if_neg hne]
      exact h.both c hc
  · rw [h6, addressOf_hold] at hc
    rw [h4, h6, ownerOf_hold ha hnew, ownerOf_hold ha6 hnew6]
    split at hc
    · rename_i heq
      rw [if_pos heq, if_pos heq]
    · rename_i hne
      rw [if_neg hne, if_neg hne]
      exact h.owner c x hc
  · refine h.same.labelBoth (c := conn) (fun c => ?_) (fun c => ?_) hbeside
    · rw [h4, addressOf_hold]
    · rw [h6, addressOf_hold]

theorem Linked.release (h : Linked p) (conn) : Linked (p.release conn) := by
  have h4 : (p.release conn).v4.used = (p.v4.used.release conn).2 :=
    (congrArg Shelf.used (p.v4.shelf_release conn)).trans (p.v4.shelf.used_release conn)
  have h6 : (p.release conn).v6.used = (p.v6.used.release conn).2 :=
    (congrArg Shelf.used (p.v6.shelf_release conn)).trans (p.v6.shelf.used_release conn)
  refine ⟨fun c hc => ?_, fun c x hc => ?_, ?_⟩
  · rw [h4, addressOf_release] at hc
    rw [h6, addressOf_release]
    split at hc
    · rename_i heq
      rw [if_pos heq]
    · rename_i hne
      rw [if_neg hne]
      exact h.both c hc
  · rw [h6, addressOf_release, Option.ite_none_left_eq_some] at hc
    rw [h4, h6, ownerOf_release, ownerOf_release, if_neg hc.1, if_neg hc.1]
    exact h.owner c x hc.2
  · refine h.same.unlabel (c := conn) (fun c => ?_) (fun c => ?_)
    · rw [h4, addressOf_release]
    · rw [h6, addressOf_release]

theorem beside_of_not_held (ha6 : p.v6.used.Agree) (h6 : p.v6.used.isHeld offset = false)
    (h4 : ∀ c, p.v4.used.addressOf c = some addr → p.v6.used.addressOf c = none) :
    Beside p addr offset := by
  intro c y hy
  refine iff_of_false ?_ ?_
  · rintro rfl
    rw [(isHeld_iff ha6).mpr ⟨c, holds_lease.mpr hy⟩] at h6
    cases h6
  · intro hc
    rw [h4 c hc] at hy
    cases hy

theorem Linked.beside (h : Linked p) (h4 : p.v4.used.addressOf conn = some addr)
    (h6 : p.v6.used.addressOf conn = some offset) : Beside p addr offset := by
  intro c y hy
  rw [← h4]
  exact h.same c conn y offset hy h6

/-! ### Where the IPv6 pool puts a connection -/

/-- The pools of a run, each reachable by itself, and linked. -/
structure Paired (networkIpv4 : Ipv4Addr) (prefixLen : ℕ) (gateway : Ipv4Addr)
    (networkIpv6 : Ipv6Addr) (p : Pools) : Prop where
  reach : p.v4.Reachable networkIpv4 prefixLen gateway
  reachV6 : p.v6.Reachable networkIpv6
  linked : Linked p

variable {networkIpv4 gateway : Ipv4Addr} {prefixLen : ℕ} {networkIpv6 : Ipv6Addr}
  {f : FirstFrame} {assigned : Ipv4Addr} {dualStack : Bool}

theorem allocateIpv4_step (pool : IpAllocator) (f dualStack) :
    pool.PoolStep (allocateIpv4 pool f dualStack).2 := by
  unfold allocateIpv4
  split
  · rename_i pubkey _
    split
    · exact .op (.allocateAt f.conn pubkey f.intent f.now false)
    · exact .op (.allocateAt f.conn pubkey f.intent f.now true)
  · exact .op (.allocate f.conn)

theorem allocateIpv6_step (pool : IpAllocatorV6) (f) (siblings : List ConnId) :
    pool.PoolStep (allocateIpv6 pool f siblings).2 := by
  unfold allocateIpv6
  split
  · rename_i pubkey _
    exact .op (.allocateFor f.conn pubkey (projectIntent f.intent siblings))
  · exact .op (.allocate f.conn)

theorem allocateIpv4_placed {pool : IpAllocator} (hnew : pool.used.addressOf f.conn = none)
    (dualStack) :
    pool.shelf.Placed False f.conn f.stickyPubkey (fun _ => True)
      (allocateIpv4 pool f dualStack).1 (allocateIpv4 pool f dualStack).2.shelf := by
  unfold allocateIpv4
  split
  · rename_i pubkey hkey
    rw [hkey]
    have hout := pool.allocateAt_outcome f.conn pubkey f.intent f.now
    split
    · exact (hout false hnew).placed.mono fun a _ => trivial
    · exact (hout true hnew).placed.mono fun a _ => trivial
  · rename_i hkey
    rw [hkey]
    exact (pool.allocate_outcome f.conn hnew).placed.mono fun a _ => trivial

/-- Where the IPv6 pool puts a connection that the IPv4 pool put at `assigned`: nowhere,
or beside it. -/
def PlacedBeside (p : Pools) (f : FirstFrame) (assigned : Ipv4Addr) (v6 : IpAllocatorV6) : Prop :=
  ∃ answer, p.v6.shelf.Placed True f.conn f.stickyPubkey (fun _ => True) answer v6.shelf ∧
    ∀ offset, answer = some offset → Beside p assigned offset

section Placing

variable (h : Paired networkIpv4 prefixLen gateway networkIpv6 p)
  (hnew : p.v4.used.addressOf f.conn = none)
  (hout : (allocateIpv4 p.v4 f dualStack).1 = some assigned) {pubkey : Pubkey}
include h hnew hout

theorem beside_of_keyless (hkey : f.stickyPubkey = none) (siblings : List ConnId) :
    PlacedBeside p f assigned (allocateIpv6 p.v6 f siblings).2 := by
  have hinv := reachable_conserved h.reach
  have hinv6 := reachable_kept h.reachV6
  simp only [allocateIpv4, allocateIpv6, PlacedBeside, hkey] at hout ⊢
  have hplaced := (p.v4.allocate_outcome f.conn hnew).placed
  rw [hout] at hplaced
  have hfree : p.v4.used.isHeld assigned = false :=
    hplaced.not_held hinv.sound hinv.agree fun _ _ _ hno => hno
  obtain ⟨answer, hplaced6⟩ := allocate_placed (h.linked.both f.conn hnew)
  refine ⟨answer, (hplaced6.weaken fun _ => trivial).mono fun a _ => trivial, ?_⟩
  rintro offset rfl
  have hfree6 := hplaced6.not_held hinv6.sound hinv6.agree fun _ _ _ hno => hno
  refine beside_of_not_held hinv6.agree hfree6 fun c hc => ?_
  rw [(isHeld_iff hinv.agree).mpr ⟨c, holds_lease.mpr hc⟩] at hfree
  cases hfree

theorem mem_siblingsAt (c : ConnId) :
    c ∈ siblingsAt (allocateIpv4 p.v4 f dualStack).2 f assigned ↔
      p.v4.used.addressOf c = some assigned := by
  have hinv := reachable_conserved h.reach
  have hplaced := allocateIpv4_placed hnew dualStack
  rw [hout] at hplaced
  have hagree : (allocateIpv4 p.v4 f dualStack).2.used.Agree := hplaced.agree hinv.agree hnew
  have hused : (allocateIpv4 p.v4 f dualStack).2.used = _ := hplaced.used_eq
  rw [siblingsAt, connsHolding, List.mem_filter, hagree.mem_holders, hused,
    addressOf_hold, decide_eq_true_eq]
  constructor
  · rintro ⟨hc, hne⟩
    rwa [if_neg hne] at hc
  · intro hc
    have hne : c ≠ f.conn := ne_of_apply_ne p.v4.used.addressOf (by simp [hc, hnew])
    rw [if_neg hne]
    exact ⟨hc, hne⟩

theorem ownerOf_sibling (hkey : f.stickyPubkey = some pubkey) {c : ConnId}
    (hc : p.v4.used.addressOf c = some assigned) : p.v4.used.ownerOf c = some pubkey := by
  have hinv := reachable_conserved h.reach
  have hplaced := allocateIpv4_placed hnew dualStack
  rw [hout, hkey] at hplaced
  obtain ⟨_, ⟨⟩, -, hown, -⟩ := hplaced.shared_of_holder hinv.sound hinv.agree hc
  exact hown

theorem beside_of_hinted (hkey : f.stickyPubkey = some pubkey) (hint : f.intent ≠ .legacy) :
    PlacedBeside p f assigned
      (allocateIpv6 p.v6 f (siblingsAt (allocateIpv4 p.v4 f dualStack).2 f assigned)).2 := by
  have hinv6 := reachable_kept h.reachV6
  have hnew6 := h.linked.both f.conn hnew
  have hmem := mem_siblingsAt h hnew hout
  generalize siblingsAt (allocateIpv4 p.v4 f dualStack).2 f assigned = siblings at hmem ⊢
  have hintent : projectIntent f.intent siblings =
      if siblings.isEmpty then .fresh else .join siblings := by
    unfold projectIntent
    split
    · exact absurd ‹_› hint
    · rfl
  simp only [allocateIpv6, PlacedBeside, hkey, hintent]
  have hplaced6 := place_placed hinv6.agree hnew6 pubkey
  refine ⟨_, ((hplaced6 _).weaken fun _ => trivial).mono fun a _ => trivial,
    fun offset hoffset => ?_⟩
  by_cases hnil : siblings = []
  · -- nobody was at the IPv4 address: the IPv6 pool is asked for an id of its own
    subst hnil
    have hsep : SeparateV6 p.v6 pubkey .fresh := trivial
    have hfree := (place_not_held h.reachV6 hnew6 hsep hoffset).1
    exact beside_of_not_held hinv6.agree hfree fun c hc =>
      absurd ((hmem c).mpr hc) List.not_mem_nil
  · rw [if_neg (fun hempty => hnil (List.isEmpty_iff.mp hempty))] at hoffset
    cases hsibling : p.v6.siblingOffset pubkey siblings with
    | some offset' =>
      -- a sibling with IPv6 is at both addresses
      rw [place_join_shares hnew6 hsibling] at hoffset
      cases hoffset
      obtain ⟨c, hc, -, hat⟩ := siblingOffset_some hsibling
      exact h.linked.beside ((hmem c).mp hc) hat
    | none =>
      -- no sibling has IPv6: the join goes on as a request for an id of its own
      have hsep : SeparateV6 p.v6 pubkey (.join siblings) := by
        intro c hc hown
        have hno := List.findSome?_eq_none_iff.mp hsibling c hc
        rwa [if_pos hown] at hno
      have hfree := (place_not_held h.reachV6 hnew6 hsep hoffset).1
      refine beside_of_not_held hinv6.agree hfree fun c hc => ?_
      cases hat : p.v6.used.addressOf c with
      | none => rfl
      | some y =>
        have hown := (h.linked.owner c y hat).trans (ownerOf_sibling h hnew hout hkey hc)
        rw [hsep c ((hmem c).mpr hc) hown] at hat
        cases hat

end Placing

/-! ### Requests without a hint -/

/-- **The sticky addresses of a key name one session**: of its connections with IPv6,
those at its sticky IPv4 address are those at its sticky IPv6 address. -/
def StickyTogether (p : Pools) (pubkey : Pubkey) : Prop :=
  ∀ c, p.OfKey pubkey c → p.v6.used.addressOf c ≠ none →
    (p.v4.used.addressOf c = p.v4.sticky.lookup pubkey ↔
      p.v6.used.addressOf c = p.v6.sticky.lookup pubkey)

theorem stickyTogether_iff {p : Pools} {pubkey : Pubkey} :
    p.StickyTogether pubkey ↔ ∀ c ∈ p.v6.used.byConn.keys, p.v4.used.ownerOf c = some pubkey →
      (p.v4.used.addressOf c = p.v4.sticky.lookup pubkey ↔
        p.v6.used.addressOf c = p.v6.sticky.lookup pubkey) := by
  have hheld (c : ConnId) : p.v6.used.addressOf c ≠ none ↔ c ∈ p.v6.used.byConn.keys := by
    rw [← AList.mem_keys, ← AList.lookup_isSome, Option.isSome_iff_ne_none]
    rfl
  simp only [StickyTogether, OfKey, hheld]
  exact forall_congr' fun c => forall_comm

instance (p : Pools) (pubkey : Pubkey) : Decidable (p.StickyTogether pubkey) :=
  decidable_of_iff _ stickyTogether_iff.symm

section Hintless

variable (h : Paired networkIpv4 prefixLen gateway networkIpv6 p)
  (hnew : p.v4.used.addressOf f.conn = none) {pubkey : Pubkey}
include h hnew

theorem hintless_shares_iff (hkey : f.stickyPubkey = some pubkey) (hint : f.intent = .legacy)
    (hout : (allocateIpv4 p.v4 f dualStack).1 = some assigned) {c : ConnId} {addr : Ipv4Addr}
    (hc : p.v4.used.addressOf c = some addr) :
    addr = assigned ↔ p.OfKey pubkey c ∧ p.v4.sticky.lookup pubkey = some addr := by
  have hinv := reachable_conserved h.reach
  obtain ⟨mayReclaim, heq⟩ : ∃ mayReclaim, allocateIpv4 p.v4 f dualStack =
      p.v4.allocateAt f.conn pubkey .legacy f.now mayReclaim := by
    simp only [allocateIpv4, hkey, hint]
    split
    exacts [⟨false, rfl⟩, ⟨true, rfl⟩]
  rw [heq] at hout
  have hplaced := (p.v4.allocateAt_legacy_outcome f.conn pubkey f.now mayReclaim hnew).placed
  rw [hout] at hplaced
  refine hplaced.shares_iff hinv.sound hinv.agree (fun a hsticky hheld => ?_) hc
  have hfree : a ∉ p.v4.free := Shelf.not_free_of_heldBy hinv.sound hinv.agree hheld
  rw [allocateAt_legacy_shares f.now mayReclaim hnew hsticky hheld hfree] at hout
  exact (Option.some_inj.mp hout).symm

theorem hintless_shares_iff_v6 {offset : UInt64}
    (hout : (p.v6.place f.conn pubkey .legacy).1 = some offset) {c : ConnId} {y : UInt64}
    (hc : p.v6.used.addressOf c = some y) :
    y = offset ↔ p.OfKey pubkey c ∧ p.v6.sticky.lookup pubkey = some y := by
  have hinv6 := reachable_kept h.reachV6
  have hnew6 := h.linked.both f.conn hnew
  have hplaced := place_legacy_placed hnew6 pubkey
  rw [hout] at hplaced
  rw [OfKey, ← h.linked.owner c y hc]
  refine hplaced.shares_iff hinv6.sound hinv6.agree (fun a hsticky hheld => ?_) hc
  have hfree : a ∉ p.v6.recycled := Shelf.not_free_of_heldBy hinv6.sound hinv6.agree hheld
  rw [place_legacy_shares hnew6 hsticky hheld hfree] at hout
  exact (Option.some_inj.mp hout).symm

/-- **A hint-less request is placed together exactly if the sticky addresses are.** -/
theorem beside_hintless_iff (hkey : f.stickyPubkey = some pubkey) (hint : f.intent = .legacy)
    (hout : (allocateIpv4 p.v4 f dualStack).1 = some assigned) {offset : UInt64}
    (hout6 : (p.v6.place f.conn pubkey .legacy).1 = some offset) :
    Beside p assigned offset ↔ p.StickyTogether pubkey := by
  have h4 (c : ConnId) (y : UInt64) (hy : p.v6.used.addressOf c = some y) :
      p.v4.used.addressOf c = some assigned ↔
        p.OfKey pubkey c ∧ p.v4.used.addressOf c = p.v4.sticky.lookup pubkey := by
    cases hc : p.v4.used.addressOf c with
    | none =>
      rw [h.linked.both c hc] at hy
      cases hy
    | some addr =>
      rw [Option.some_inj, hintless_shares_iff h hnew hkey hint hout hc, eq_comm]
  have h6 (c : ConnId) (y : UInt64) (hy : p.v6.used.addressOf c = some y) :
      y = offset ↔ p.OfKey pubkey c ∧ p.v6.used.addressOf c = p.v6.sticky.lookup pubkey := by
    rw [hintless_shares_iff_v6 h hnew hout6 hy, hy, eq_comm]
  constructor
  · intro hbeside c hc hsome
    obtain ⟨y, hy⟩ := Option.ne_none_iff_exists'.mp hsome
    have hiff := (h4 c y hy).symm.trans ((hbeside c y hy).symm.trans (h6 c y hy))
    simpa only [hc, true_and] using hiff
  · intro htogether c y hy
    rw [h6 c y hy, h4 c y hy]
    refine and_congr_right fun hc => (htogether c hc ?_).symm
    rw [hy]
    exact nofun

theorem beside_of_hintless (hkey : f.stickyPubkey = some pubkey) (hint : f.intent = .legacy)
    (hout : (allocateIpv4 p.v4 f dualStack).1 = some assigned)
    (htogether : p.StickyTogether pubkey) (siblings : List ConnId) :
    PlacedBeside p f assigned (allocateIpv6 p.v6 f siblings).2 := by
  have hnew6 := h.linked.both f.conn hnew
  simp only [allocateIpv6, PlacedBeside, hkey, hint, projectIntent]
  have hplaced6 := place_legacy_placed hnew6 pubkey
  refine ⟨_, (hplaced6.weaken fun _ => trivial).mono fun a _ => trivial,
    fun offset hoffset => ?_⟩
  exact (beside_hintless_iff h hnew hkey hint hout hoffset).mpr htogether

end Hintless

/-! ### Runs of the two pools -/

inductive Op where
  | firstFrame (f : FirstFrame)
  | release (conn : ConnId)
  | enableRestartReclaim (eligible : Finset Ipv4Addr) (now : ℕ)
  | setAddressClaims (claims : ℕ → Ipv4Addr → Bool)

def Op.apply (p : Pools) : Op → Pools
  | .firstFrame f => p.firstFrame f
  | .release conn => p.release conn
  | .enableRestartReclaim eligible now => { p with v4 := p.v4.enableRestartReclaim eligible now }
  | .setAddressClaims claims => { p with v4 := p.v4.setAddressClaims claims }

/-- A connection has one first frame: it has no address then. -/
def Op.First (p : Pools) : Op → Prop
  | .firstFrame f => p.ipv4Of f.conn = none
  | _ => True

/-- **A hint-less dual-stack request finds the sticky addresses of its key together.** -/
def Op.Settled (p : Pools) : Op → Prop
  | .firstFrame f => f.wantsIpv6 = true → f.preferIpv4 = none →
      ∀ pubkey, f.stickyPubkey = some pubkey → p.StickyTogether pubkey
  | _ => True

/-- One step: a call that `ok` allows, or another iteration order of a sticky table. -/
inductive PoolsStep (ok : Pools → Op → Prop) (p : Pools) : Pools → Prop
  | op (o : Op) (hfirst : o.First p) (hok : ok p o) : PoolsStep ok p (o.apply p)
  | reorder (entries : List (Σ _ : Pubkey, Ipv4Addr)) (h : p.v4.sticky.entries.Perm entries) :
      PoolsStep ok p { p with v4.sticky := Table.reorder p.v4.sticky entries h }
  | reorderV6 (entries : List (Σ _ : Pubkey, UInt64)) (h : p.v6.sticky.entries.Perm entries) :
      PoolsStep ok p { p with v6.sticky := Table.reorder p.v6.sticky entries h }

def Starts (networkIpv4 : Ipv4Addr) (prefixLen : ℕ) (gateway : Ipv4Addr) (networkIpv6 : Ipv6Addr)
    (p : Pools) : Prop :=
  (∃ seed, IpAllocator.withSeed networkIpv4 prefixLen gateway seed = .ok p.v4) ∧
    ∃ seed, p.v6 = IpAllocatorV6.withSeed networkIpv6 seed

def Reachable (ok : Pools → Op → Prop) (networkIpv4 : Ipv4Addr) (prefixLen : ℕ)
    (gateway : Ipv4Addr) (networkIpv6 : Ipv6Addr) : Pools → Prop :=
  Transition.Reachable (Starts networkIpv4 prefixLen gateway networkIpv6) (PoolsStep ok)

theorem Paired.of_starts (h : Starts networkIpv4 prefixLen gateway networkIpv6 p) :
    Paired networkIpv4 prefixLen gateway networkIpv6 p := by
  obtain ⟨⟨seed, hp⟩, ⟨seed6, hp6⟩⟩ := h
  have hnone (c : ConnId) : p.v6.used.addressOf c = none := by
    rw [hp6]
    rfl
  refine ⟨.start ⟨seed, hp⟩, .start ⟨seed6, hp6⟩, fun c _ => hnone c, fun c x hc => ?_,
    fun c c' x x' hc => ?_⟩
  · rw [hnone] at hc
    cases hc
  · rw [hnone] at hc
    cases hc

theorem allocateIpv6_beside (h : Paired networkIpv4 prefixLen gateway networkIpv6 p)
    (hnew : p.v4.used.addressOf f.conn = none) (hsettled : (Op.firstFrame f).Settled p)
    (hwants : f.wantsIpv6 = true) (hout : (allocateIpv4 p.v4 f dualStack).1 = some assigned) :
    PlacedBeside p f assigned
      (allocateIpv6 p.v6 f (siblingsAt (allocateIpv4 p.v4 f dualStack).2 f assigned)).2 := by
  cases hkey : f.stickyPubkey with
  | none => exact beside_of_keyless h hnew hout hkey _
  | some pubkey =>
    by_cases hprefer : f.preferIpv4 = none
    · have hint : f.intent = .legacy := SessionIntent.fromPreferIpv4_eq_legacy_iff.mpr hprefer
      exact beside_of_hintless h hnew hkey hint hout (hsettled hwants hprefer pubkey hkey) _
    · have hint : f.intent ≠ .legacy := mt SessionIntent.fromPreferIpv4_eq_legacy_iff.mp hprefer
      exact beside_of_hinted h hnew hout hkey hint

/-- **A first frame keeps the pools paired**, by what each pool does with it. -/
theorem Paired.firstFrame (h : Paired networkIpv4 prefixLen gateway networkIpv6 p)
    (hfirst : (Op.firstFrame f).First p) (hsettled : (Op.firstFrame f).Settled p) :
    Paired networkIpv4 prefixLen gateway networkIpv6 (p.firstFrame f) := by
  have hnew : p.v4.used.addressOf f.conn = none := hfirst
  have hinv := reachable_conserved h.reach
  have hreach := h.reach.next (allocateIpv4_step p.v4 f f.wantsIpv6)
  have hplaced := allocateIpv4_placed (f := f) hnew f.wantsIpv6
  have hends := firstFrame_ends p f
  generalize p.firstFrame f = q at hends ⊢
  cases hends with
  | refused hout =>
    rw [hout] at hplaced
    exact ⟨hreach, h.reachV6, h.linked.congr hplaced.used_of_none rfl⟩
  | ipv4Only hout hwants =>
    rw [hout] at hplaced
    exact ⟨hreach, h.reachV6, h.linked.placeV4 hinv.agree hnew hplaced.used_eq rfl⟩
  | dualStack hout hwants =>
    have hinv6 := reachable_kept h.reachV6
    obtain ⟨answer, hplaced6, hbeside⟩ := allocateIpv6_beside h hnew hsettled hwants hout
    rw [hout] at hplaced
    refine ⟨hreach, h.reachV6.next (allocateIpv6_step _ _ _), ?_⟩
    cases answer with
    | none => exact h.linked.placeV4 hinv.agree hnew hplaced.used_eq hplaced6.used_of_none
    | some offset =>
      exact h.linked.placeBoth hinv.agree hinv6.agree hnew hplaced.used_eq hplaced6.used_eq
        (hbeside offset rfl)

theorem Paired.step {q : Pools} (h : Paired networkIpv4 prefixLen gateway networkIpv6 p)
    (hstep : PoolsStep Op.Settled p q) : Paired networkIpv4 prefixLen gateway networkIpv6 q := by
  cases hstep with
  | op o hfirst hok =>
    cases o with
    | firstFrame f => exact h.firstFrame hfirst hok
    | release conn =>
      exact ⟨h.reach.next (.op (.release conn)), h.reachV6.next (.op (.release conn)),
        h.linked.release conn⟩
    | enableRestartReclaim eligible now =>
      exact ⟨h.reach.next (.op (.enableRestartReclaim eligible now)), h.reachV6,
        h.linked.congr rfl rfl⟩
    | setAddressClaims claims =>
      exact ⟨h.reach.next (.op (.setAddressClaims claims)), h.reachV6, h.linked.congr rfl rfl⟩
  | reorder entries hperm =>
    exact ⟨h.reach.next (.reorder entries hperm), h.reachV6, h.linked.congr rfl rfl⟩
  | reorderV6 entries hperm =>
    exact ⟨h.reach, h.reachV6.next (.reorder entries hperm), h.linked.congr rfl rfl⟩

theorem paired_of_reachable
    (h : Reachable Op.Settled networkIpv4 prefixLen gateway networkIpv6 p) :
    Paired networkIpv4 prefixLen gateway networkIpv6 p :=
  h.invariant (fun _ hs => .of_starts hs) fun _ _ hp hstep => hp.step hstep

/-- **The two placements agree.**  In every run in which each hint-less dual-stack
request finds the sticky addresses of its key on one session, two connections that
both hold an IPv6 address, of one key or not, share it exactly if they share their
IPv4 address. -/
theorem dual_stack_agrees (h : Reachable Op.Settled networkIpv4 prefixLen gateway networkIpv6 p)
    {conn conn' : ConnId} {addr addr' : Ipv6Addr} (haddr : p.ipv6Of conn = some addr)
    (haddr' : p.ipv6Of conn' = some addr') :
    addr = addr' ↔ p.ipv4Of conn = p.ipv4Of conn' := by
  have hpaired := paired_of_reachable h
  obtain ⟨offset, hoff, rfl⟩ := Option.map_eq_some_iff.mp haddr
  obtain ⟨offset', hoff', rfl⟩ := Option.map_eq_some_iff.mp haddr'
  rw [(addrOf_injective hpaired.reachV6).eq_iff]
  exact hpaired.linked.same conn conn' offset offset' hoff hoff'

/-! ### An exit with both pools -/

def dualStackExit : Pools := ⟨.slash29, .withSeed 0xFD000000000000000000000000000000 1⟩

theorem Reachable.dualStackExit {ok : Pools → Op → Prop} :
    Reachable ok 0x0A420000 29 0x0A420001 0xFD000000000000000000000000000000 dualStackExit :=
  .start ⟨⟨1, withSeed_slash29⟩, 1, rfl⟩

def ipv4Session : Op := .firstFrame ⟨1, some 7, false, none, 0⟩

def ownSession : Op := .firstFrame ⟨2, some 7, true, some 0, 0⟩

def hintlessDual : Op := .firstFrame ⟨3, some 7, true, none, 0⟩

theorem dual_stack_agrees_joined :
    ∃ p addr, Reachable Op.Settled 0x0A420000 29 0x0A420001
        0xFD000000000000000000000000000000 p ∧
      p.ipv6Of 2 = some addr ∧ p.ipv6Of 3 = some addr ∧ p.ipv4Of 2 = p.ipv4Of 3 := by
  have hown : PoolsStep Op.Settled dualStackExit (ownSession.apply dualStackExit) :=
    .op ownSession rfl fun _ hprefer => nomatch hprefer
  have hjoin : PoolsStep Op.Settled (ownSession.apply dualStackExit)
      (hintlessDual.apply (ownSession.apply dualStackExit)) := by
    refine .op hintlessDual rfl ?_
    rintro - - pubkey ⟨⟩
    decide
  have hreach := (Reachable.dualStackExit.next hown).next hjoin
  exact ⟨_, _, hreach, rfl, rfl, (dual_stack_agrees hreach rfl rfl).mp rfl⟩

/-- **The sticky tables part.**  A key's first session has no IPv6, so the IPv6 table
binds the key to its second: a hint-less request shares IPv4 with the first session
and IPv6 with the second. -/
theorem sticky_tables_part :
    ∃ p addr, Reachable (fun _ _ => True) 0x0A420000 29 0x0A420001
        0xFD000000000000000000000000000000 p ∧
      p.OfKey 7 2 ∧ p.OfKey 7 3 ∧ p.ipv6Of 2 = some addr ∧ p.ipv6Of 3 = some addr ∧
      p.ipv4Of 2 ≠ p.ipv4Of 3 := by
  have hfirst : PoolsStep (fun _ _ => True) dualStackExit (ipv4Session.apply dualStackExit) :=
    .op ipv4Session rfl trivial
  have hown : PoolsStep (fun _ _ => True) (ipv4Session.apply dualStackExit)
      (ownSession.apply (ipv4Session.apply dualStackExit)) := .op ownSession rfl trivial
  have hpart : PoolsStep (fun _ _ => True) (ownSession.apply (ipv4Session.apply dualStackExit))
      (hintlessDual.apply (ownSession.apply (ipv4Session.apply dualStackExit))) :=
    .op hintlessDual rfl trivial
  have hreach := ((Reachable.dualStackExit.next hfirst).next hown).next hpart
  exact ⟨_, _, hreach, rfl, rfl, rfl, rfl, by decide⟩

end Pools

end WarrenGuard.Multihop
