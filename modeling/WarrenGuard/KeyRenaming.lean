/-
Assigned addresses carry no key information (`allocate_at`, `pop_random`,
`IpAllocatorV6::allocate_for_pubkey_with_intent` of `warrenguard-multihop-server/src/ip_pool.rs`).

The pools only ever compare keys.  Two pools that differ by an injective renaming of the keys
(`Renamed`) answer alike, and differ by the same renaming afterwards, in whatever order the hash
maps are walked, as no address is bound twice.

* `RenamedHoldings`, `RenamedSticky` — the tables with keys in them;
* `IpAllocator.Renamed.op`, `IpAllocatorV6.Renamed.op` — one call;
* `addresses_reveal_no_key` — so all answers of two runs are equal.
-/
import WarrenGuard.SideBySide
import WarrenGuard.StickyBounds

namespace WarrenGuard.IpPool

open Function SideBySide VecOps

/-! ### The tables -/

section Tables

variable {α : Type} {f : Pubkey → Pubkey}

structure RenamedHoldings (f : Pubkey → Pubkey) (h k : Holdings α) : Prop where
  byConn : k.byConn = h.byConn
  byAddr : k.byAddr = h.byAddr
  ownerOf : ∀ conn, k.ownerOf conn = (h.ownerOf conn).map f

structure RenamedSticky (f : Pubkey → Pubkey) (s t : Table Pubkey α) : Prop where
  lookup : ∀ key, t.lookup (f key) = s.lookup key
  left : OneKey s
  right : OneKey t

theorem map_eq_some_iff (hf : Injective f) {owner : Option Pubkey} {pubkey : Pubkey} :
    owner.map f = some (f pubkey) ↔ owner = some pubkey := by
  cases owner with
  | none => exact iff_of_false nofun nofun
  | some owner =>
    rw [Option.map_some, Option.some_inj, Option.some_inj]
    exact hf.eq_iff

theorem map_rename (hf : Injective f) (src dst : Pubkey) (owner : Option Pubkey) :
    (owner.map f).map (fun o => if o = f src then f dst else o) =
      (owner.map fun o => if o = src then dst else o).map f := by
  cases owner with
  | none => rfl
  | some owner =>
    simp only [Option.map_some, Option.some_inj, hf.eq_iff]
    exact (apply_ite f _ _ _).symm

namespace RenamedHoldings

variable {h k : Holdings α}

theorem new : RenamedHoldings f (Holdings.new : Holdings α) Holdings.new :=
  ⟨rfl, rfl, fun _ => rfl⟩

theorem addressOf (hr : RenamedHoldings f h k) (conn : ConnId) :
    k.addressOf conn = h.addressOf conn :=
  congrArg (AList.lookup conn) hr.byConn

theorem transferOwner (hr : RenamedHoldings f h k) (hf : Injective f) (src dst : Pubkey) :
    RenamedHoldings f (h.transferOwner src dst) (k.transferOwner (f src) (f dst)) := by
  refine ⟨hr.byConn, hr.byAddr, fun conn => ?_⟩
  rw [Holdings.ownerOf_transferOwner, Holdings.ownerOf_transferOwner, hr.ownerOf]
  exact map_rename hf src dst _

variable [DecidableEq α]

theorem isHeld (hr : RenamedHoldings f h k) (addr : α) : k.isHeld addr = h.isHeld addr := by
  rw [Holdings.isHeld, hr.byAddr, Holdings.isHeld]

theorem heldBy (hr : RenamedHoldings f h k) (hf : Injective f) (addr : α) (pubkey : Pubkey) :
    k.heldBy addr (f pubkey) = h.heldBy addr pubkey := by
  unfold Holdings.heldBy Holdings.holders
  rw [hr.byAddr]
  refine congrArg (List.any _) (funext fun conn => ?_)
  refine decide_eq_decide.mpr ?_
  rw [show AList.lookup conn k.owners = _ from hr.ownerOf conn]
  exact map_eq_some_iff hf

theorem hold (hr : RenamedHoldings f h k) (conn : ConnId) (addr : α) (owner : Option Pubkey) :
    RenamedHoldings f (h.hold conn addr owner) (k.hold conn addr (owner.map f)) := by
  refine ⟨?_, ?_, fun conn' => ?_⟩
  · exact congrArg (AList.insert conn addr) hr.byConn
  · show k.byAddr.insert addr (k.holders addr ++ [conn]) = _
    rw [Holdings.holders, hr.byAddr]
    rfl
  · cases owner with
    | none => exact hr.ownerOf conn'
    | some owner =>
      show (k.owners.insert conn (f owner)).lookup conn' =
        ((h.owners.insert conn owner).lookup conn').map f
      rw [Table.lookup_insert', Table.lookup_insert']
      split
      · rfl
      · exact hr.ownerOf conn'

theorem release (hr : RenamedHoldings f h k) (conn : ConnId) :
    SideBySide.Alike (RenamedHoldings f) (h.release conn) (k.release conn) := by
  have howners : ∀ conn', (k.release conn).2.ownerOf conn' =
      ((h.release conn).2.ownerOf conn').map f := by
    intro conn'
    rw [Holdings.ownerOf_release, Holdings.ownerOf_release]
    split
    · rfl
    · exact hr.ownerOf conn'
  suffices hsame : (h.release conn).1 = (k.release conn).1 ∧
      (k.release conn).2.byConn = (h.release conn).2.byConn ∧
      (k.release conn).2.byAddr = (h.release conn).2.byAddr from
    ⟨hsame.1, hsame.2.1, hsame.2.2, howners⟩
  unfold Holdings.release
  rw [hr.byConn, hr.byAddr]
  cases h.byConn.lookup conn with
  | none => exact ⟨rfl, rfl, rfl⟩
  | some addr =>
    dsimp only
    cases h.byAddr.lookup addr with
    | none => exact ⟨rfl, rfl, rfl⟩
    | some holders =>
      dsimp only
      split <;> exact ⟨rfl, rfl, rfl⟩

end RenamedHoldings

namespace RenamedSticky

variable {s t : Table Pubkey α}

theorem empty : RenamedSticky f (∅ : Table Pubkey α) ∅ := ⟨fun _ => rfl, .empty, .empty⟩

theorem reorderLeft (hs : RenamedSticky f s t) (entries : List (Σ _ : Pubkey, α))
    (h : s.entries.Perm entries) : RenamedSticky f (Table.reorder s entries h) t := by
  refine ⟨fun key => ?_, hs.left.congr fun key => Table.lookup_reorder _ _ h key, hs.right⟩
  rw [hs.lookup, Table.lookup_reorder]

theorem reorderRight (hs : RenamedSticky f s t) (entries : List (Σ _ : Pubkey, α))
    (h : t.entries.Perm entries) : RenamedSticky f s (Table.reorder t entries h) := by
  refine ⟨fun key => ?_, hs.left, hs.right.congr fun key => Table.lookup_reorder _ _ h key⟩
  rw [Table.lookup_reorder, hs.lookup]

variable [DecidableEq α]

theorem bindSticky (hs : RenamedSticky f s t) (hf : Injective f) {h k : Holdings α}
    (hr : RenamedHoldings f h k) (pubkey : Pubkey) (addr : α) :
    RenamedSticky f (bindSticky h s pubkey addr) (bindSticky k t (f pubkey) addr) := by
  have hlive : bindingLive k t (f pubkey) = bindingLive h s pubkey := by
    unfold bindingLive
    rw [hs.lookup]
    exact congrArg (Option.any · _) (funext fun bound => hr.heldBy hf bound pubkey)
  refine ⟨fun key => ?_, hs.left.bindSticky h pubkey addr, hs.right.bindSticky k _ addr⟩
  rw [lookup_bindSticky hs.right, lookup_bindSticky hs.left, hlive, hs.lookup, hs.lookup]
  exact if_congr hf.eq_iff rfl rfl

theorem transferSticky (hs : RenamedSticky f s t) (hf : Injective f) (src dst : Pubkey) :
    RenamedSticky f (transferSticky s src dst) (transferSticky t (f src) (f dst)) := by
  refine ⟨fun key => ?_, hs.left.transferSticky src dst, hs.right.transferSticky _ _⟩
  rw [lookup_transferSticky, lookup_transferSticky, hs.lookup, hs.lookup]
  cases s.lookup src with
  | none => rfl
  | some addr =>
    exact if_congr hf.eq_iff rfl (if_congr hf.eq_iff rfl rfl)

end RenamedSticky

end Tables

/-! ### The IPv4 pool -/

namespace IpAllocator

variable {f : Pubkey → Pubkey} {p q : IpAllocator}

structure Renamed (f : Pubkey → Pubkey) (p q : IpAllocator) : Prop where
  free : q.free = p.free
  rng : q.rng = p.rng
  reclaim : q.reclaim = p.reclaim
  claims : q.claims = p.claims
  asked : q.asked = p.asked
  used : RenamedHoldings f p.used q.used
  sticky : RenamedSticky f p.sticky q.sticky
  lastHolder : ∀ addr, q.lastHolder.lookup addr = (p.lastHolder.lookup addr).map (Option.map f)

namespace Renamed

/-! What reads no key. -/

section

variable (h : Renamed f p q)

include h

variable (conn : ConnId) (addr : Ipv4Addr)

theorem claimed : Alike (Renamed f) (p.claimed addr) (q.claimed addr) := by
  unfold IpAllocator.claimed
  rw [h.claims]
  cases p.claims with
  | none => exact ⟨rfl, h⟩
  | some answer =>
    rw [h.asked]
    exact ⟨rfl, { h with claims := rfl, asked := rfl }⟩

theorem reclaimable (target : Ipv4Addr) (now : ℕ) :
    Alike (Renamed f) (p.reclaimable target now) (q.reclaimable target now) := by
  unfold IpAllocator.reclaimable
  rw [h.reclaim]
  cases p.reclaim with
  | none => exact ⟨rfl, h⟩
  | some r =>
    dsimp only
    split
    · exact ⟨rfl, h⟩
    · exact ⟨rfl, { h with reclaim := rfl }⟩

theorem popRandomLoop (undrawn : ℕ) :
    Alike (Renamed f) (IpAllocator.popRandomLoop undrawn p)
      (IpAllocator.popRandomLoop undrawn q) := by
  induction undrawn generalizing p q with
  | zero => exact ⟨rfl, h⟩
  | succ undrawn ih =>
    unfold IpAllocator.popRandomLoop
    rw [h.rng]
    generalize bounded p.rng (undrawn + 1) = draw
    obtain ⟨idx, rng⟩ := draw
    dsimp only
    have hdrawn : Renamed f { p with rng } { q with rng } := { h with rng := rfl }
    have hget : q.free[idx]? = p.free[idx]? := congrArg (·[idx]?) h.free
    rw [hget]
    cases p.free[idx]? with
    | none => exact ⟨rfl, hdrawn⟩
    | some addr =>
      obtain ⟨isClaimed, p', q', hp, hq, hnext⟩ := (hdrawn.claimed addr).split
      dsimp only
      rw [hp, hq]
      rw [hnext.free]
      split
      · exact ih { hnext with free := rfl }
      · exact ⟨rfl, { hnext with free := rfl }⟩

theorem popRandom : Alike (Renamed f) p.popRandom q.popRandom := by
  unfold IpAllocator.popRandom
  rw [h.free]
  exact h.popRandomLoop _

theorem hold (owner : Option Pubkey) :
    Renamed f (p.hold conn addr owner) (q.hold conn addr (owner.map f)) := by
  refine { h with
    reclaim := congrArg (Option.map _) h.reclaim
    used := h.used.hold conn addr owner
    lastHolder := fun addr' => ?_ }
  dsimp only [IpAllocator.hold]
  rw [h.claims]
  split
  · rw [Table.lookup_insert', Table.lookup_insert']
    split
    · rfl
    · exact h.lastHolder addr'
  · exact h.lastHolder addr'

theorem allocate : Alike (Renamed f) (p.allocate conn) (q.allocate conn) := by
  unfold IpAllocator.allocate
  rw [h.used.addressOf]
  cases p.used.addressOf conn with
  | some addr => exact ⟨rfl, h⟩
  | none =>
    obtain ⟨drawn, p', q', hp, hq, hnext⟩ := h.popRandom.split
    rw [hp, hq]
    cases drawn with
    | none => exact ⟨rfl, hnext⟩
    | some addr => exact ⟨rfl, hnext.hold conn addr none⟩

theorem release : Renamed f (p.release conn) (q.release conn) := by
  obtain ⟨answer, used, used', hp, hq, hnext⟩ := (h.used.release conn).split
  unfold IpAllocator.release
  rw [hp, hq]
  match answer with
  | some (addr, true) =>
    exact { h with used := hnext, free := congrArg (· ++ [addr]) h.free }
  | some (addr, false) => exact { h with used := hnext }
  | none => exact { h with used := hnext }

theorem setAddressClaims (claims : ℕ → Ipv4Addr → Bool) :
    Renamed f (p.setAddressClaims claims) (q.setAddressClaims claims) :=
  { h with claims := rfl }

theorem enableRestartReclaim (eligible : Finset Ipv4Addr) (now : ℕ) :
    Renamed f (p.enableRestartReclaim eligible now) (q.enableRestartReclaim eligible now) := by
  refine { h with reclaim := ?_ }
  unfold IpAllocator.enableRestartReclaim
  rw [h.free]

end

/-! What compares keys. -/

section

variable (h : Renamed f p q) (hf : Injective f)

include h hf

variable (target : Ipv4Addr) (conn : ConnId) (addr : Ipv4Addr) (pubkey : Pubkey)
  (intent : SessionIntent)

theorem heldByPubkey : q.heldByPubkey addr (f pubkey) = p.heldByPubkey addr pubkey :=
  h.used.heldBy hf addr pubkey

theorem lastHeldBy : q.lastHeldBy addr (f pubkey) = p.lastHeldBy addr pubkey := by
  unfold IpAllocator.lastHeldBy
  refine decide_eq_decide.mpr ?_
  rw [h.lastHolder]
  cases p.lastHolder.lookup addr with
  | none => exact iff_of_false nofun nofun
  | some holder =>
    rw [Option.map_some, Option.some_inj, Option.some_inj]
    exact map_eq_some_iff hf

theorem takeFree : Alike (Renamed f) (p.takeFree addr pubkey) (q.takeFree addr (f pubkey)) := by
  unfold IpAllocator.takeFree
  rw [h.free]
  cases p.free.idxOf? addr with
  | none => exact ⟨rfl, h⟩
  | some pos =>
    obtain ⟨isClaimed, p', q', hp, hq, hnext⟩ := (h.claimed addr).split
    rw [hp, hq]
    dsimp only
    rw [hnext.lastHeldBy hf, hnext.free]
    split
    · exact ⟨rfl, hnext⟩
    · exact ⟨rfl, { hnext with free := rfl }⟩

theorem bindSticky (addr : Ipv4Addr) :
    Renamed f (p.bindSticky pubkey addr) (q.bindSticky (f pubkey) addr) :=
  { h with sticky := h.sticky.bindSticky hf h.used pubkey addr }

theorem ownsTarget :
    Alike (Renamed f) (p.ownsTarget target pubkey) (q.ownsTarget target (f pubkey)) := by
  unfold IpAllocator.ownsTarget
  rw [h.sticky.lookup]
  split
  · exact ⟨rfl, h⟩
  · have hasked := h.claimed target
    refine ⟨?_, hasked.next⟩
    dsimp only
    rw [hasked.answer, hasked.next.lastHeldBy hf]

theorem takeOwn : Alike (Renamed f) (p.takeOwn target pubkey) (q.takeOwn target (f pubkey)) := by
  obtain ⟨own, p', q', hp, hq, hnext⟩ := (h.ownsTarget hf target pubkey).split
  unfold IpAllocator.takeOwn
  rw [hp, hq]
  cases own with
  | true => exact hnext.takeFree hf target pubkey
  | false => exact ⟨rfl, hnext⟩

theorem takeReclaimed (now : ℕ) (mayReclaim : Bool) :
    Alike (Renamed f) (p.takeReclaimed target pubkey now mayReclaim)
      (q.takeReclaimed target (f pubkey) now mayReclaim) := by
  unfold IpAllocator.takeReclaimed
  split
  · obtain ⟨isOpen, p', q', hp, hq, hnext⟩ := (h.reclaimable target now).split
    rw [hp, hq]
    cases isOpen with
    | true => exact hnext.takeFree hf target pubkey
    | false => exact ⟨rfl, hnext⟩
  · exact ⟨rfl, h⟩

theorem tryJoin (now : ℕ) (mayReclaim : Bool) :
    Alike (Renamed f) (p.tryJoin conn pubkey intent now mayReclaim)
      (q.tryJoin conn (f pubkey) intent now mayReclaim) := by
  cases intent with
  | legacy => exact ⟨rfl, h⟩
  | fresh => exact ⟨rfl, h⟩
  | join target =>
    unfold IpAllocator.tryJoin
    dsimp only
    rw [h.heldByPubkey hf]
    split
    · exact ⟨rfl, h.hold conn target (some pubkey)⟩
    · obtain ⟨own, p', q', hp, hq, hnext⟩ := (h.takeOwn hf target pubkey).split
      rw [hp, hq]
      cases own with
      | true => exact ⟨rfl, hnext.hold conn target (some pubkey)⟩
      | false =>
        obtain ⟨taken, p'', q'', hp', hq', hlast⟩ :=
          (hnext.takeReclaimed hf target pubkey now mayReclaim).split
        dsimp only
        rw [hp', hq']
        cases taken with
        | true =>
          exact ⟨rfl, Renamed.bindSticky (hlast.hold conn target (some pubkey)) hf pubkey target⟩
        | false => exact ⟨rfl, hlast⟩

theorem trySticky :
    Alike (Renamed f) (p.trySticky conn pubkey intent) (q.trySticky conn (f pubkey) intent) := by
  unfold IpAllocator.trySticky
  rw [h.sticky.lookup]
  cases p.sticky.lookup pubkey with
  | none => exact ⟨rfl, h⟩
  | some preferred =>
    obtain ⟨taken, p', q', hp, hq, hnext⟩ := (h.takeFree hf preferred pubkey).split
    dsimp only
    rw [hp, hq]
    cases taken with
    | true => exact ⟨rfl, hnext.hold conn preferred (some pubkey)⟩
    | false =>
      dsimp only
      rw [hnext.heldByPubkey hf]
      split
      · exact ⟨rfl, hnext.hold conn preferred (some pubkey)⟩
      · exact ⟨rfl, hnext⟩

theorem drawFor : Alike (Renamed f) (p.drawFor conn pubkey) (q.drawFor conn (f pubkey)) := by
  obtain ⟨drawn, p', q', hp, hq, hnext⟩ := h.popRandom.split
  unfold IpAllocator.drawFor
  rw [hp, hq]
  cases drawn with
  | none => exact ⟨rfl, hnext⟩
  | some addr => exact ⟨rfl, Renamed.bindSticky (hnext.hold conn addr (some pubkey)) hf pubkey addr⟩

/-- **A keyed allocation answers alike.** -/
theorem allocateAt (now : ℕ) (mayReclaim : Bool) :
    Alike (Renamed f) (p.allocateAt conn pubkey intent now mayReclaim)
      (q.allocateAt conn (f pubkey) intent now mayReclaim) := by
  unfold IpAllocator.allocateAt
  rw [h.used.addressOf]
  cases p.used.addressOf conn with
  | some addr => exact ⟨rfl, h⟩
  | none =>
    obtain ⟨joined, p', q', hp, hq, hnext⟩ :=
      (h.tryJoin hf conn pubkey intent now mayReclaim).split
    rw [hp, hq]
    cases joined with
    | some addr => exact ⟨rfl, hnext⟩
    | none =>
      obtain ⟨stuck, p'', q'', hp', hq', hlast⟩ := (hnext.trySticky hf conn pubkey intent).split
      dsimp only
      rw [hp', hq']
      cases stuck with
      | some addr => exact ⟨rfl, hlast⟩
      | none => exact hlast.drawFor hf conn pubkey

theorem transferOwner (src dst : Pubkey) :
    Renamed f (p.transferOwner src dst) (q.transferOwner (f src) (f dst)) := by
  unfold IpAllocator.transferOwner
  by_cases hsame : src = dst
  · rw [if_pos hsame, if_pos (congrArg f hsame)]
    exact h
  · rw [if_neg hsame, if_neg fun heq => hsame (hf heq)]
    refine { h with
      used := h.used.transferOwner hf src dst
      sticky := h.sticky.transferSticky hf src dst
      lastHolder := fun addr => ?_ }
    rw [Table.lookup_retainMut, Table.lookup_retainMut, h.lastHolder]
    cases p.lastHolder.lookup addr with
    | none => rfl
    | some holder =>
      show some (if holder.map f = some (f src) then some (f dst) else holder.map f) =
        some ((if holder = some src then some dst else holder).map f)
      rw [apply_ite (Option.map f)]
      exact congrArg some (if_congr (map_eq_some_iff hf) rfl rfl)

end

end Renamed

/-! Two runs. -/

def Op.rename (f : Pubkey → Pubkey) : Op → Op
  | .allocateAt conn pubkey intent now mayReclaim =>
    .allocateAt conn (f pubkey) intent now mayReclaim
  | .transferOwner src dst => .transferOwner (f src) (f dst)
  | o => o

def Op.call (o : Op) (p : IpAllocator) : Option Ipv4Addr × IpAllocator :=
  match o with
  | .allocate conn => p.allocate conn
  | .allocateAt conn pubkey intent now mayReclaim => p.allocateAt conn pubkey intent now mayReclaim
  | o => (none, o.apply p)

inductive Reordered (p : IpAllocator) : IpAllocator → Prop
  | mk (entries : List (Σ _ : Pubkey, Ipv4Addr)) (h : p.sticky.entries.Perm entries) :
      Reordered p { p with sticky := Table.reorder p.sticky entries h }

/-- Two runs from one seed with the same calls, up to the renaming of the keys. -/
def TwinRuns (f : Pubkey → Pubkey) (networkIpv4 : Ipv4Addr) (prefixLen : ℕ) (gateway : Ipv4Addr) :
    Pair IpAllocator IpAllocator (Option Ipv4Addr) → Prop :=
  Transition.Reachable
    (fun x => ∃ seed p, withSeed networkIpv4 prefixLen gateway seed = .ok p ∧ x = .start p p)
    (Step Op.call (fun o => (o.rename f).call) Reordered Reordered)

/-- **Every call is answered alike.** -/
theorem Renamed.op (h : Renamed f p q) (hf : Injective f) (o : Op) :
    Alike (Renamed f) (o.call p) ((o.rename f).call q) := by
  cases o with
  | allocate conn => exact h.allocate conn
  | allocateAt conn pubkey intent now mayReclaim =>
    exact h.allocateAt hf conn pubkey intent now mayReclaim
  | release conn => exact ⟨rfl, h.release conn⟩
  | transferOwner src dst => exact ⟨rfl, h.transferOwner hf src dst⟩
  | enableRestartReclaim eligible now => exact ⟨rfl, h.enableRestartReclaim eligible now⟩
  | setAddressClaims claims => exact ⟨rfl, h.setAddressClaims claims⟩

theorem renamed_withSeed {networkIpv4 gateway : Ipv4Addr} {prefixLen : ℕ} {seed : UInt64}
    (h : withSeed networkIpv4 prefixLen gateway seed = .ok p) : Renamed f p p := by
  unfold withSeed at h
  dsimp only at h
  split_ifs at h
  obtain rfl := Except.ok.inj h
  exact ⟨rfl, rfl, rfl, rfl, rfl, .new, .empty, fun _ => rfl⟩

theorem TwinRuns.answers_eq {networkIpv4 gateway : Ipv4Addr} {prefixLen : ℕ}
    {x : Pair IpAllocator IpAllocator (Option Ipv4Addr)}
    (h : TwinRuns f networkIpv4 prefixLen gateway x) (hf : Injective f) :
    x.leftAnswers = x.rightAnswers := by
  refine (SideBySide.answers_eq (R := Renamed f) ?_ ?_ ?_ ?_ h).2
  · rintro _ ⟨seed, p, hp, rfl⟩
    exact ⟨renamed_withSeed hp, rfl⟩
  · intro o p q hpq
    exact hpq.op hf o
  · rintro p _ q hpq ⟨entries, hperm⟩
    exact { hpq with sticky := hpq.sticky.reorderLeft entries hperm }
  · rintro p q _ hpq ⟨entries, hperm⟩
    exact { hpq with sticky := hpq.sticky.reorderRight entries hperm }

end IpAllocator

/-! ### The IPv6 pool -/

namespace IpAllocatorV6

variable {f : Pubkey → Pubkey} {p q : IpAllocatorV6}

structure Renamed (f : Pubkey → Pubkey) (p q : IpAllocatorV6) : Prop where
  network : q.network = p.network
  rng : q.rng = p.rng
  recycled : q.recycled = p.recycled
  used : RenamedHoldings f p.used q.used
  sticky : RenamedSticky f p.sticky q.sticky

namespace Renamed

/-! What reads no key. -/

section

variable (h : Renamed f p q)

include h

theorem addrOf (offset : UInt64) : q.addrOf offset = p.addrOf offset := by
  unfold IpAllocatorV6.addrOf
  rw [h.network]

theorem drawOffset (tries : ℕ) :
    Alike (Renamed f) (IpAllocatorV6.drawOffset tries p) (IpAllocatorV6.drawOffset tries q) := by
  induction tries generalizing p q with
  | zero => exact ⟨rfl, h⟩
  | succ tries ih =>
    unfold IpAllocatorV6.drawOffset
    rw [h.rng]
    generalize nextU64 p.rng = draw
    obtain ⟨offset, rng⟩ := draw
    dsimp only
    have hdrawn : Renamed f { p with rng } { q with rng } := { h with rng := rfl }
    rw [h.used.isHeld]
    split
    · exact ih hdrawn
    · split
      · exact ih hdrawn
      · exact ⟨rfl, hdrawn⟩

theorem popOffset : Alike (Renamed f) p.popOffset q.popOffset := by
  unfold IpAllocatorV6.popOffset
  rw [h.recycled, h.rng]
  generalize offsetDraws = tries
  split
  · exact h.drawOffset tries
  · generalize bounded p.rng p.recycled.length = draw
    obtain ⟨idx, rng⟩ := draw
    exact ⟨rfl, { h with rng := rfl, recycled := rfl }⟩

theorem hold (conn : ConnId) (offset : UInt64) (owner : Option Pubkey) :
    Renamed f { p with used := p.used.hold conn offset owner }
      { q with used := q.used.hold conn offset (owner.map f) } :=
  { h with used := h.used.hold conn offset owner }

theorem allocate (conn : ConnId) : Alike (Renamed f) (p.allocate conn) (q.allocate conn) := by
  unfold IpAllocatorV6.allocate
  rw [h.used.addressOf]
  cases p.used.addressOf conn with
  | some offset => exact ⟨congrArg some (h.addrOf offset).symm, h⟩
  | none =>
    obtain ⟨drawn, p', q', hp, hq, hnext⟩ := h.popOffset.split
    rw [hp, hq]
    cases drawn with
    | none => exact ⟨rfl, hnext⟩
    | some offset => exact ⟨congrArg some (hnext.addrOf offset).symm, hnext.hold conn offset none⟩

theorem release (conn : ConnId) : Renamed f (p.release conn) (q.release conn) := by
  obtain ⟨answer, used, used', hp, hq, hnext⟩ := (h.used.release conn).split
  unfold IpAllocatorV6.release
  rw [hp, hq]
  match answer with
  | some (offset, true) =>
    exact { h with used := hnext, recycled := congrArg (· ++ [offset]) h.recycled }
  | some (offset, false) => exact { h with used := hnext }
  | none => exact { h with used := hnext }

end

/-! What compares keys. -/

section

variable (h : Renamed f p q) (hf : Injective f)

include h hf

variable (conn : ConnId) (pubkey : Pubkey) (intent : SessionIntentV6)

theorem siblingOffset (siblings : List ConnId) :
    q.siblingOffset (f pubkey) siblings = p.siblingOffset pubkey siblings := by
  unfold IpAllocatorV6.siblingOffset
  refine congrArg (List.findSome? · siblings) (funext fun conn => ?_)
  rw [h.used.ownerOf, h.used.addressOf]
  exact if_congr (map_eq_some_iff hf) rfl rfl

theorem tryJoin :
    Alike (Renamed f) (p.tryJoin conn pubkey intent) (q.tryJoin conn (f pubkey) intent) := by
  cases intent with
  | legacy => exact ⟨rfl, h⟩
  | fresh => exact ⟨rfl, h⟩
  | join siblings =>
    unfold IpAllocatorV6.tryJoin
    dsimp only
    rw [h.siblingOffset hf]
    cases p.siblingOffset pubkey siblings with
    | none => exact ⟨rfl, h⟩
    | some offset => exact ⟨rfl, h.hold conn offset (some pubkey)⟩

theorem trySticky :
    Alike (Renamed f) (p.trySticky conn pubkey intent) (q.trySticky conn (f pubkey) intent) := by
  have hheld : ∀ offset, q.heldByPubkey offset (f pubkey) = p.heldByPubkey offset pubkey :=
    fun offset => h.used.heldBy hf offset pubkey
  unfold IpAllocatorV6.trySticky
  rw [h.sticky.lookup]
  cases p.sticky.lookup pubkey with
  | none => exact ⟨rfl, h⟩
  | some preferred =>
    dsimp only
    rw [h.recycled, hheld]
    cases p.recycled.idxOf? preferred with
    | some pos =>
      exact ⟨rfl, { h.hold conn preferred (some pubkey) with recycled := rfl }⟩
    | none =>
      dsimp only
      split
      · exact ⟨rfl, { h.hold conn preferred (some pubkey) with recycled := rfl }⟩
      · exact ⟨rfl, h⟩

theorem drawFor : Alike (Renamed f) (p.drawFor conn pubkey) (q.drawFor conn (f pubkey)) := by
  obtain ⟨drawn, p', q', hp, hq, hnext⟩ := h.popOffset.split
  unfold IpAllocatorV6.drawFor
  rw [hp, hq]
  cases drawn with
  | none => exact ⟨rfl, hnext⟩
  | some offset =>
    have hused := hnext.used.hold conn offset (some pubkey)
    exact ⟨rfl, { hnext with
      used := hused
      sticky := hnext.sticky.bindSticky hf hused pubkey offset }⟩

theorem place :
    Alike (Renamed f) (p.place conn pubkey intent) (q.place conn (f pubkey) intent) := by
  unfold IpAllocatorV6.place
  rw [h.used.addressOf]
  cases p.used.addressOf conn with
  | some offset => exact ⟨rfl, h⟩
  | none =>
    obtain ⟨joined, p', q', hp, hq, hnext⟩ := (h.tryJoin hf conn pubkey intent).split
    rw [hp, hq]
    cases joined with
    | some offset => exact ⟨rfl, hnext⟩
    | none =>
      obtain ⟨stuck, p'', q'', hp', hq', hlast⟩ := (hnext.trySticky hf conn pubkey intent).split
      dsimp only
      rw [hp', hq']
      cases stuck with
      | some offset => exact ⟨rfl, hlast⟩
      | none => exact hlast.drawFor hf conn pubkey

theorem allocateForPubkeyWithIntent :
    Alike (Renamed f) (p.allocateForPubkeyWithIntent conn pubkey intent)
      (q.allocateForPubkeyWithIntent conn (f pubkey) intent) := by
  have hplace := h.place hf conn pubkey intent
  refine ⟨?_, hplace.next⟩
  unfold IpAllocatorV6.allocateForPubkeyWithIntent
  dsimp only
  rw [hplace.answer]
  exact congrArg (Option.map · _) (funext fun offset => (h.addrOf offset).symm)

theorem transferOwner (src dst : Pubkey) :
    Renamed f (p.transferOwner src dst) (q.transferOwner (f src) (f dst)) := by
  unfold IpAllocatorV6.transferOwner
  by_cases hsame : src = dst
  · rw [if_pos hsame, if_pos (congrArg f hsame)]
    exact h
  · rw [if_neg hsame, if_neg fun heq => hsame (hf heq)]
    exact { h with
      used := h.used.transferOwner hf src dst
      sticky := h.sticky.transferSticky hf src dst }

end

end Renamed

/-! Two runs. -/

def Op.rename (f : Pubkey → Pubkey) : Op → Op
  | .allocateFor conn pubkey intent => .allocateFor conn (f pubkey) intent
  | .transferOwner src dst => .transferOwner (f src) (f dst)
  | o => o

def Op.call (o : Op) (p : IpAllocatorV6) : Option Ipv6Addr × IpAllocatorV6 :=
  match o with
  | .allocate conn => p.allocate conn
  | .allocateFor conn pubkey intent => p.allocateForPubkeyWithIntent conn pubkey intent
  | o => (none, o.apply p)

inductive Reordered (p : IpAllocatorV6) : IpAllocatorV6 → Prop
  | mk (entries : List (Σ _ : Pubkey, UInt64)) (h : p.sticky.entries.Perm entries) :
      Reordered p { p with sticky := Table.reorder p.sticky entries h }

def TwinRuns (f : Pubkey → Pubkey) (networkIpv6 : Ipv6Addr) :
    Pair IpAllocatorV6 IpAllocatorV6 (Option Ipv6Addr) → Prop :=
  Transition.Reachable
    (fun x => ∃ seed, x = .start (withSeed networkIpv6 seed) (withSeed networkIpv6 seed))
    (Step Op.call (fun o => (o.rename f).call) Reordered Reordered)

/-- **Every call is answered alike.** -/
theorem Renamed.op (h : Renamed f p q) (hf : Injective f) (o : Op) :
    Alike (Renamed f) (o.call p) ((o.rename f).call q) := by
  cases o with
  | allocate conn => exact h.allocate conn
  | allocateFor conn pubkey intent => exact h.allocateForPubkeyWithIntent hf conn pubkey intent
  | release conn => exact ⟨rfl, h.release conn⟩
  | transferOwner src dst => exact ⟨rfl, h.transferOwner hf src dst⟩

theorem TwinRuns.answers_eq {networkIpv6 : Ipv6Addr}
    {x : Pair IpAllocatorV6 IpAllocatorV6 (Option Ipv6Addr)} (h : TwinRuns f networkIpv6 x)
    (hf : Injective f) : x.leftAnswers = x.rightAnswers := by
  refine (SideBySide.answers_eq (R := Renamed f) ?_ ?_ ?_ ?_ h).2
  · rintro _ ⟨seed, rfl⟩
    exact ⟨⟨rfl, rfl, rfl, .new, .empty⟩, rfl⟩
  · intro o p q hpq
    exact hpq.op hf o
  · rintro p _ q hpq ⟨entries, hperm⟩
    exact { hpq with sticky := hpq.sticky.reorderLeft entries hperm }
  · rintro p q _ hpq ⟨entries, hperm⟩
    exact { hpq with sticky := hpq.sticky.reorderRight entries hperm }

end IpAllocatorV6

/-- **Assigned addresses carry no key information.**  Two runs of the IPv4 pool, and two runs
of the IPv6 pool, from the same seed and with the same calls up to an injective renaming of the
keys return the same addresses, whatever the iteration orders of their hash maps. -/
theorem addresses_reveal_no_key {f : Pubkey → Pubkey} (hf : Injective f) :
    (∀ networkIpv4 prefixLen gateway x,
      IpAllocator.TwinRuns f networkIpv4 prefixLen gateway x → x.leftAnswers = x.rightAnswers) ∧
    ∀ networkIpv6 x, IpAllocatorV6.TwinRuns f networkIpv6 x → x.leftAnswers = x.rightAnswers :=
  ⟨fun _ _ _ _ h => IpAllocator.TwinRuns.answers_eq h hf,
    fun _ _ h => IpAllocatorV6.TwinRuns.answers_eq h hf⟩

def sharedCalls : List IpAllocator.Op :=
  [.allocateAt 1 7 .fresh 0 false, .allocateAt 2 8 .legacy 0 false, .transferOwner 8 7,
    .allocateAt 3 7 .legacy 0 false]

theorem addresses_reveal_no_key_shared :
    let x := sharedCalls.foldl
      (Pair.after IpAllocator.Op.call fun o => (o.rename (· + 1)).call)
      (.start IpAllocator.slash29 IpAllocator.slash29)
    x.leftAnswers = x.rightAnswers ∧ x.leftAnswers =
      [some 0x0A420002, some 0x0A420005, none, some 0x0A420005] := by
  intro x
  have hf : Injective fun key : Pubkey => key + 1 := fun _ _ h => (BitVec.add_left_inj 1).mp h
  have hrun : IpAllocator.TwinRuns (· + 1) 0x0A420000 29 0x0A420001 x :=
    Transition.Reachable.foldl (fun _ o => .call o) sharedCalls
      (.start ⟨1, _, IpAllocator.withSeed_slash29, rfl⟩)
  exact ⟨(addresses_reveal_no_key hf).1 _ _ _ _ hrun, by decide +kernel⟩

end WarrenGuard.IpPool
