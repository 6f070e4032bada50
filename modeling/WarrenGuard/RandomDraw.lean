/-
The random draw of the IPv4 pool (`pop_random` of `warrenguard-multihop-server/src/ip_pool.rs`).

A host the deployer calls claimed is swapped behind the part of the free list still to draw from.
The loop therefore draws from a permuted part of the list, whatever the generator yields.

* `Kept` — what no part of an allocation touches before an address is held;
* `popRandomLoop_draw` — what the loop does, by induction on the hosts still to draw from;
* `random_draw_exact` — so the draw fails only when every free host is claimed, takes one unclaimed
  host out of the list, and asks about no host twice.

Design notes: the hosts the loop asks about are not in its result; `popRandomAsks` lists them.
-/
import WarrenGuard.AddressPool

namespace WarrenGuard.IpPool.IpAllocator

open VecOps

/-! ### What the parts of an allocation leave alone -/

/-- Nothing is held or bound, and questions are only asked. -/
structure Kept (p q : IpAllocator) : Prop where
  used : q.used = p.used
  sticky : q.sticky = p.sticky
  claims : q.claims = p.claims
  last : q.lastHolder = p.lastHolder
  reclaim : q.reclaim = p.reclaim ∨ q.reclaim = none
  asked : p.asked ≤ q.asked

variable {p q r : IpAllocator} {addr target : Ipv4Addr}

theorem Kept.refl (p) : Kept p p := ⟨rfl, rfl, rfl, rfl, .inl rfl, le_rfl⟩

theorem Kept.trans (h : Kept p q) (h' : Kept q r) : Kept p r where
  used := h'.used.trans h.used
  sticky := h'.sticky.trans h.sticky
  claims := h'.claims.trans h.claims
  last := h'.last.trans h.last
  reclaim := h'.reclaim.elim (fun heq => heq ▸ h.reclaim) .inr
  asked := h.asked.trans h'.asked

/-- The deployer's answer to question `n`, if it is about `addr`. -/
def answer (p : IpAllocator) (n : ℕ) (addr : Ipv4Addr) : Bool := p.claims.any (· n addr)

theorem claimed_eq_answer (p : IpAllocator) (addr) : p.claimed addr =
    (p.answer p.asked addr, { p with asked := p.asked + p.claims.toList.length }) := by
  obtain ⟨_, _, _, _, _, _, _, _, claims, _, _⟩ := p
  cases claims <;> rfl

theorem kept_claimed (p addr) : Kept p (p.claimed addr).2 := by
  rw [claimed_eq_answer]
  exact ⟨rfl, rfl, rfl, rfl, .inl rfl, Nat.le_add_right _ _⟩

theorem claimed_free (p : IpAllocator) (addr) : (p.claimed addr).2.free = p.free := by
  rw [claimed_eq_answer]

theorem kept_ownsTarget (p target) (pubkey : Pubkey) :
    Kept p (p.ownsTarget target pubkey).2 := by
  unfold ownsTarget
  split
  · exact .refl p
  · exact kept_claimed p target

theorem kept_reclaimable (p target) (now : ℕ) :
    Kept p (p.reclaimable target now).2 := by
  unfold reclaimable
  split
  · split
    · exact .refl p
    · exact ⟨rfl, rfl, rfl, rfl, .inr rfl, le_rfl⟩
  · exact .refl p

/-- The deployer was asked about `addr`, and if it called it claimed, then the owner
has a key and is its last holder. -/
def Cleared (claims : ℕ → Ipv4Addr → Bool) (p q : IpAllocator) (addr : Ipv4Addr)
    (owner : Option Pubkey) : Prop :=
  ∃ n, p.asked ≤ n ∧ n < q.asked ∧
    (claims n addr = true → owner ≠ none ∧ p.lastHolder.lookup addr = some owner)

theorem Cleared.after {claims : ℕ → Ipv4Addr → Bool} {owner : Option Pubkey}
    (h : Cleared claims q r addr owner) (hpq : Kept p q) : Cleared claims p r addr owner := by
  obtain ⟨n, hle, hlt, hclaimed⟩ := h
  rw [hpq.last] at hclaimed
  exact ⟨n, hpq.asked.trans hle, hlt, hclaimed⟩

/-! ### The draw -/

/-- The hosts the loop of `pop_random` asks about, in order. -/
def popRandomAsks : ℕ → IpAllocator → List Ipv4Addr
  | 0, _ => []
  | undrawn + 1, p =>
    let (idx, rng) := bounded p.rng (undrawn + 1)
    let p := { p with rng }
    match p.free[idx]? with
    | none => []
    | some addr =>
      let (isClaimed, p) := p.claimed addr
      addr :: if isClaimed then popRandomAsks undrawn { p with free := swap p.free idx undrawn }
        else []

/-- Between `p` and `q` the deployer answered `claimed` about `addr`, at one of the first
`limit` questions. -/
def Answered (p q : IpAllocator) (limit : ℕ) (addr : Ipv4Addr) (claimed : Bool) : Prop :=
  ∃ n, p.asked ≤ n ∧ n < p.asked + limit ∧ (p.claims.isSome → n < q.asked) ∧
    p.answer n addr = claimed

/-- **What a draw among the first `undrawn` free hosts does.** -/
structure Draw (undrawn : ℕ) (p : IpAllocator) (asks : List Ipv4Addr)
    (r : Option Ipv4Addr × IpAllocator) : Prop where
  kept : Kept p r.2
  free : p.free.Perm (r.1.toList ++ r.2.free)
  listed : asks.Subperm (p.free.take undrawn)
  asked : r.2.asked = p.asked + p.claims.toList.length * asks.length
  taken : ∀ addr, r.1 = some addr → Answered p r.2 undrawn addr false
  exhausted : r.1 = none → ∀ addr ∈ p.free.take undrawn, Answered p r.2 undrawn addr true

/-- The question that is asked next is one of the first `limit + 1`. -/
theorem answered_next (hq : p.asked + p.claims.toList.length ≤ q.asked) (limit : ℕ) (addr) :
    Answered p q (limit + 1) addr (p.answer p.asked addr) := by
  refine ⟨p.asked, le_rfl, by omega, fun hsome => ?_, rfl⟩
  obtain ⟨claims, hclaims⟩ := Option.isSome_iff_exists.mp hsome
  rw [hclaims] at hq
  exact hq

theorem Answered.after {limit : ℕ} {claimed : Bool} (h : Answered q r limit addr claimed)
    (hclaims : q.claims = p.claims) (hasked : q.asked = p.asked + p.claims.toList.length) :
    Answered p r (limit + 1) addr claimed := by
  have hone : p.claims.toList.length ≤ 1 := Option.length_toList_le
  obtain ⟨n, hle, hlt, hnext, hn⟩ := h
  rw [hclaims] at hnext
  unfold answer at hn
  rw [hclaims] at hn
  exact ⟨n, by omega, by omega, hnext, hn⟩

theorem popRandomLoop_draw (undrawn : ℕ) (p) (hle : undrawn ≤ p.free.length) :
    Draw undrawn p (popRandomAsks undrawn p) (popRandomLoop undrawn p) := by
  induction undrawn generalizing p with
  | zero => exact ⟨.refl p, .refl _, .refl _, rfl, nofun, nofun⟩
  | succ undrawn ih =>
    have hidx := Nat.le_of_lt_succ (bounded_lt p.rng (Nat.succ_pos undrawn))
    unfold popRandomLoop popRandomAsks
    generalize bounded p.rng (undrawn + 1) = draw at hidx ⊢
    obtain ⟨idx, rng⟩ := draw
    dsimp only at hidx ⊢
    have hget := List.getElem?_eq_getElem (Nat.lt_of_le_of_lt hidx hle)
    generalize p.free[idx] = host at hget
    have hperm := take_perm_cons_swap hget hidx hle
    rw [hget]
    dsimp only
    rw [claimed_eq_answer]
    split
    · -- a claimed draw is put behind the others, and the loop goes on among them
      rename_i hclaimed
      have hlen : undrawn ≤ (swap p.free idx undrawn).length := by
        rw [(swap_perm _ _ _).length_eq]
        exact Nat.le_of_succ_le hle
      have hdraw := ih { p with
        rng, asked := p.asked + p.claims.toList.length, free := swap p.free idx undrawn } hlen
      refine ⟨.trans ?_ hdraw.kept, (swap_perm _ _ _).symm.trans hdraw.free, ?_, ?_, ?_, ?_⟩
      · exact ⟨rfl, rfl, rfl, rfl, .inl rfl, Nat.le_add_right _ _⟩
      · exact ((List.subperm_cons host).mpr hdraw.listed).trans hperm.symm.subperm
      · rw [hdraw.asked, List.length_cons, Nat.mul_succ]
        dsimp only
        omega
      · exact fun addr h => (hdraw.taken addr h).after rfl rfl
      · intro hnone addr hmem
        rcases List.mem_cons.mp (hperm.mem_iff.mp hmem) with rfl | hmem
        · exact hclaimed ▸ answered_next hdraw.kept.asked undrawn addr
        · exact (hdraw.exhausted hnone addr hmem).after rfl rfl
    · rename_i hfree
      refine ⟨⟨rfl, rfl, rfl, rfl, .inl rfl, Nat.le_add_right _ _⟩, perm_cons_swapRemove hget,
        ?_, (congrArg _ (Nat.mul_one _)).symm, ?_, nofun⟩
      · exact List.singleton_subperm_iff.mpr (hperm.mem_iff.mpr List.mem_cons_self)
      · rintro _ ⟨⟩
        exact Bool.eq_false_iff.mpr hfree ▸ answered_next le_rfl undrawn host

theorem popRandom_draw (p) :
    Draw p.free.length p (popRandomAsks p.free.length p) p.popRandom :=
  popRandomLoop_draw _ p le_rfl

/-- **The random draw.**  While the deployer's answers do not change, the draw fails exactly when
every free host is claimed; else it takes one unclaimed host out of the free list.  Its
questions are about hosts of the list, each at most as often as it is listed. -/
theorem random_draw_exact (p : IpAllocator) (isClaimed : Ipv4Addr → Bool)
    (hconst : ∀ n, p.asked ≤ n → n < p.asked + p.free.length → ∀ addr,
      p.answer n addr = isClaimed addr) :
    (p.popRandom.1 = none ↔ ∀ addr ∈ p.free, isClaimed addr = true) ∧
    (∀ addr, p.popRandom.1 = some addr → addr ∈ p.free ∧ isClaimed addr = false) ∧
    p.free.Perm (p.popRandom.1.toList ++ p.popRandom.2.free) ∧
    (popRandomAsks p.free.length p).Subperm p.free ∧
    p.popRandom.2.asked
      = p.asked + p.claims.toList.length * (popRandomAsks p.free.length p).length ∧
    (p.free.Nodup → (popRandomAsks p.free.length p).Nodup) := by
  have h := popRandom_draw p
  have hanswer : ∀ addr claimed, Answered p p.popRandom.2 p.free.length addr claimed →
      isClaimed addr = claimed := by
    rintro addr claimed ⟨n, hle, hlt, -, rfl⟩
    exact (hconst n hle hlt addr).symm
  have htaken : ∀ addr, p.popRandom.1 = some addr → addr ∈ p.free ∧ isClaimed addr = false := by
    intro addr hsome
    refine ⟨h.free.mem_iff.mpr ?_, hanswer addr false (h.taken addr hsome)⟩
    rw [hsome]
    exact List.mem_cons_self
  have hasks := h.listed
  have hexhausted := h.exhausted
  rw [List.take_length] at hasks hexhausted
  refine ⟨⟨fun hnone addr hmem => hanswer addr true (hexhausted hnone addr hmem), ?_⟩, htaken,
    h.free, hasks, h.asked, ?_⟩
  · intro hall
    cases hpop : p.popRandom.1 with
    | none => rfl
    | some addr =>
      obtain ⟨hmem, hfree⟩ := htaken addr hpop
      exact absurd ((hall addr hmem).symm.trans hfree) nofun
  · intro hnodup
    obtain ⟨asked, hperm, hsub⟩ := hasks
    exact hperm.nodup_iff.mp (hnodup.sublist hsub)

/-- Two free hosts, the first of them claimed. -/
def claimedPair : IpAllocator where
  network := 0#32
  prefixLen := 30
  gateway := 0#32
  free := [1#32, 2#32]
  rng := 7
  used := Holdings.new
  sticky := ∅
  reclaim := none
  claims := some fun _ addr => addr == 1#32
  asked := 0
  lastHolder := ∅

theorem random_draw_exact_pair : claimedPair.popRandom.1 = some 2#32 ∧
    (popRandomAsks 2 claimedPair).Nodup := by
  obtain ⟨-, -, -, -, -, hasks⟩ := random_draw_exact claimedPair (· == 1#32) fun _ _ _ _ => rfl
  exact ⟨by decide, hasks (by decide)⟩

end WarrenGuard.IpPool.IpAllocator
