/-
The IPv4 address pool of the exit (`IpAllocator` of `warrenguard-multihop-server/src/ip_pool.rs`).

A connection is given a random free host of a subnet, its key's sticky host when that is free
again, or joins the host its own key already holds.  After a restart the deployer may open a set
of hosts to whoever names them (`enableRestartReclaim`), and it may wire a callback that keeps a
host out of the draw (`setAddressClaims`).

Design notes: the generator is the source's SplitMix64.  The claims callback may answer
differently each time, so it is a function of the number of the question (`asked`) and of the
address.  The clock reads of the public wrappers are the argument `now`.
-/
import WarrenGuard.Holdings
import WarrenGuard.VecOps

namespace WarrenGuard

namespace IpPool

open VecOps

/-! ### The generator -/

/-- `SplitMix64::next_u64`: the draw and the next state. -/
def nextU64 (state : UInt64) : UInt64 × UInt64 :=
  let state := state + 0x9E3779B97F4A7C15
  let z := (state ^^^ (state >>> 30)) * 0xBF58476D1CE4E5B9
  let z := (z ^^^ (z >>> 27)) * 0x94D049BB133111EB
  (z ^^^ (z >>> 31), state)

/-- `SplitMix64::bounded`: an index below `n`. -/
def bounded (state : UInt64) (n : ℕ) : ℕ × UInt64 :=
  let (draw, state) := nextU64 state
  (draw.toNat % n, state)

theorem bounded_lt (state : UInt64) {n : ℕ} (h : 0 < n) : (bounded state n).1 < n :=
  Nat.mod_lt _ h

/-! ### Requests -/

inductive SessionIntent where
  | legacy
  | fresh
  | join (target : Ipv4Addr)
deriving DecidableEq

/-- `SessionIntent::from_prefer_ipv4`: `0.0.0.0` asks for a session of its own. -/
def SessionIntent.fromPreferIpv4 : Option Ipv4Addr → SessionIntent
  | none => .legacy
  | some hint => if hint = 0 then .fresh else .join hint

theorem SessionIntent.fromPreferIpv4_eq_legacy_iff {hint : Option Ipv4Addr} :
    fromPreferIpv4 hint = .legacy ↔ hint = none := by
  unfold fromPreferIpv4
  cases hint with
  | none => exact iff_of_true rfl rfl
  | some hint =>
    dsimp only
    split <;> exact iff_of_false nofun nofun

inductive IpPoolError where
  | invalidPrefix (prefixLen : ℕ)
  | noUsableHosts (network : Ipv4Addr) (prefixLen : ℕ) (gateway : Ipv4Addr) (capacity : ℕ)
  | gatewayOutsideSubnet (network : Ipv4Addr) (prefixLen : ℕ) (gateway : Ipv4Addr)
deriving DecidableEq

def restartReclaimWindow : ℕ := 120 * nanosPerSec

/-- The restart reclaim a deployer opened: until when, and for which hosts. -/
structure RestartReclaim where
  untilInstant : ℕ
  eligible : Finset Ipv4Addr

/-! ### The pool -/

structure IpAllocator where
  network : Ipv4Addr
  prefixLen : ℕ
  gateway : Ipv4Addr
  free : List Ipv4Addr
  rng : UInt64
  used : Holdings Ipv4Addr
  sticky : Table Pubkey Ipv4Addr
  reclaim : Option RestartReclaim
  /-- The deployer's answer to each question, by its number. -/
  claims : Option (ℕ → Ipv4Addr → Bool)
  asked : ℕ
  lastHolder : Table Ipv4Addr (Option Pubkey)

/-- `u32::MAX << host_bits`. -/
def netmask (prefixLen : ℕ) : Ipv4Addr := BitVec.allOnes 32 <<< (32 - prefixLen)

def broadcast (network : Ipv4Addr) (prefixLen : ℕ) : Ipv4Addr := network ||| ~~~netmask prefixLen

/-- The hosts of a subnet besides network and broadcast, as the source counts them. -/
def subnetCapacity (hostBits : ℕ) : ℕ :=
  if hostBits ≥ 31 then 2 ^ 32 - 1 else 2 ^ hostBits - 2

def addressesBetween (low high : Ipv4Addr) : List Ipv4Addr :=
  (List.range' (low.toNat + 1) (high.toNat - (low.toNat + 1))).map (BitVec.ofNat 32)

namespace IpAllocator

/-- `IpAllocator::with_seed`; `IpAllocator::new` draws the seed from the system. -/
def withSeed (networkIpv4 : Ipv4Addr) (prefixLen : ℕ) (gateway : Ipv4Addr) (seed : UInt64) :
    Except IpPoolError IpAllocator :=
  if prefixLen = 0 ∨ prefixLen > 32 then .error (.invalidPrefix prefixLen)
  else
    let network := networkIpv4 &&& netmask prefixLen
    let capacity := subnetCapacity (32 - prefixLen)
    if gateway &&& netmask prefixLen ≠ network then
      .error (.gatewayOutsideSubnet network prefixLen gateway)
    else if capacity = 0 then .error (.noUsableHosts network prefixLen gateway capacity)
    else
      let free := (addressesBetween network (broadcast network prefixLen)).filter (· ≠ gateway)
      if free.isEmpty then .error (.noUsableHosts network prefixLen gateway capacity)
      else
        .ok
          { network, prefixLen, gateway, free, rng := seed, used := Holdings.new, sticky := ∅,
            reclaim := none, claims := none, asked := 0, lastHolder := ∅ }

variable (p : IpAllocator)

def setAddressClaims (claims : ℕ → Ipv4Addr → Bool) : IpAllocator :=
  { p with claims := some claims }

def enableRestartReclaim (eligible : Finset Ipv4Addr) (now : ℕ) : IpAllocator :=
  { p with reclaim := some ⟨now + restartReclaimWindow, eligible.filter (· ∈ p.free)⟩ }

def hold (conn : ConnId) (addr : Ipv4Addr) (owner : Option Pubkey) :
    IpAllocator :=
  { p with
    reclaim := p.reclaim.map fun r => { r with eligible := r.eligible.erase addr }
    -- without claims nobody asks who held an address last
    lastHolder := if p.claims.isSome then p.lastHolder.insert addr owner else p.lastHolder
    used := p.used.hold conn addr owner }

/-- Whether the restart reclaim is open for `target`; it is closed once over. -/
def reclaimable (target : Ipv4Addr) (now : ℕ) : Bool × IpAllocator :=
  match p.reclaim with
  | some r =>
    if now < r.untilInstant then (decide (target ∈ r.eligible), p)
    else (false, { p with reclaim := none })
  | none => (false, p)

def claimed (addr : Ipv4Addr) : Bool × IpAllocator :=
  match p.claims with
  | some answer => (answer p.asked addr, { p with asked := p.asked + 1 })
  | none => (false, p)

def lastHeldBy (addr : Ipv4Addr) (pubkey : Pubkey) : Bool :=
  decide (p.lastHolder.lookup addr = some (some pubkey))

/-- Takes `addr` out of the free list, unless a claim keeps it for another key. -/
def takeFree (addr : Ipv4Addr) (pubkey : Pubkey) : Bool × IpAllocator :=
  match p.free.idxOf? addr with
  | none => (false, p)
  | some pos =>
    let (isClaimed, p) := p.claimed addr
    if isClaimed && !p.lastHeldBy addr pubkey then (false, p)
    else (true, { p with free := swapRemove p.free pos })

/-- The loop of `pop_random`: a claimed draw is moved behind the undrawn part. -/
def popRandomLoop : ℕ → IpAllocator → Option Ipv4Addr × IpAllocator
  | 0, p => (none, p)
  | undrawn + 1, p =>
    let (idx, rng) := bounded p.rng (undrawn + 1)
    let p := { p with rng }
    match p.free[idx]? with
    | none => (none, p)
    | some addr =>
      let (isClaimed, p) := p.claimed addr
      -- swapped out of the undrawn part, so it is not drawn twice in one call
      if isClaimed then popRandomLoop undrawn { p with free := swap p.free idx undrawn }
      else (some addr, { p with free := swapRemove p.free idx })

def popRandom : Option Ipv4Addr × IpAllocator := popRandomLoop p.free.length p

def allocate (conn : ConnId) : Option Ipv4Addr × IpAllocator :=
  match p.used.addressOf conn with
  | some addr => (some addr, p)
  | none =>
    match p.popRandom with
    | (none, p) => (none, p)
    | (some addr, p) => (some addr, p.hold conn addr none)

def connsHolding (ip : Ipv4Addr) : List ConnId := p.used.holders ip

def heldByPubkey (ip : Ipv4Addr) (pubkey : Pubkey) : Bool :=
  p.used.heldBy ip pubkey

end IpAllocator

/-- The sticky table after `pubkey` was placed at `addr`: another key's binding of
that address is dropped, and a binding whose address the key still holds is kept. -/
def bindSticky {α : Type} [DecidableEq α] (used : Holdings α) (sticky : Table Pubkey α)
    (pubkey : Pubkey) (addr : α) : Table Pubkey α :=
  let sticky :=
    match sticky.entries.find? fun e => decide (e.2 = addr) with
    | some stale => if stale.1 ≠ pubkey then sticky.erase stale.1 else sticky
    | none => sticky
  let incumbentLive :=
    match sticky.lookup pubkey with
    | some ip => used.heldBy ip pubkey
    | none => false
  if incumbentLive then sticky else sticky.insert pubkey addr

/-- The sticky table after `src`'s sessions became `dst`'s. -/
def transferSticky {α : Type} [DecidableEq α] (sticky : Table Pubkey α) (src dst : Pubkey) :
    Table Pubkey α :=
  match sticky.lookup src with
  | some addr =>
    (Table.retain (fun _ bound => decide (bound ≠ addr)) (sticky.erase src)).insert dst addr
  | none => sticky

namespace IpAllocator

variable (p : IpAllocator)

def bindSticky (pubkey : Pubkey) (addr : Ipv4Addr) : IpAllocator :=
  { p with sticky := IpPool.bindSticky p.used p.sticky pubkey addr }

/-- Whether a free `target` is `pubkey`'s own: bound to it, or still claimed for it. -/
def ownsTarget (target : Ipv4Addr) (pubkey : Pubkey) : Bool × IpAllocator :=
  if p.sticky.lookup pubkey = some target then (true, p)
  else
    let (isClaimed, p) := p.claimed target
    (isClaimed && p.lastHeldBy target pubkey, p)

/-- Takes a free `target` that is `pubkey`'s own (a reconnect after a clean close). -/
def takeOwn (target : Ipv4Addr) (pubkey : Pubkey) : Bool × IpAllocator :=
  match p.ownsTarget target pubkey with
  | (true, p) => p.takeFree target pubkey
  | (false, p) => (false, p)

/-- Takes a free `target` that the restart reclaim is open for. -/
def takeReclaimed (target : Ipv4Addr) (pubkey : Pubkey) (now : ℕ)
    (mayReclaim : Bool) : Bool × IpAllocator :=
  if mayReclaim then
    match p.reclaimable target now with
    | (true, p) => p.takeFree target pubkey
    | (false, p) => (false, p)
  else (false, p)

/-- The join part of `allocate_at`; `none` when the request goes on as a fresh one. -/
def tryJoin (conn : ConnId) (pubkey : Pubkey) (intent : SessionIntent) (now : ℕ)
    (mayReclaim : Bool) : Option Ipv4Addr × IpAllocator :=
  match intent with
  | .join target =>
    -- a sibling of the session; else a free target the key may have back
    if p.heldByPubkey target pubkey then (some target, p.hold conn target (some pubkey))
    else
      match p.takeOwn target pubkey with
      | (true, p) => (some target, p.hold conn target (some pubkey))
      | (false, p) =>
        match p.takeReclaimed target pubkey now mayReclaim with
        | (true, p) => (some target, (p.hold conn target (some pubkey)).bindSticky pubkey target)
        | (false, p) => (none, p)
  | _ => (none, p)

/-- The sticky part of `allocate_at`; only a hint-less request shares here. -/
def trySticky (conn : ConnId) (pubkey : Pubkey) (intent : SessionIntent) :
    Option Ipv4Addr × IpAllocator :=
  match p.sticky.lookup pubkey with
  | none => (none, p)
  | some preferred =>
    match p.takeFree preferred pubkey with
    | (true, p) => (some preferred, p.hold conn preferred (some pubkey))
    | (false, p) =>
      if intent = .legacy ∧ p.heldByPubkey preferred pubkey then
        (some preferred, p.hold conn preferred (some pubkey))
      else (none, p)

/-- The last part of `allocate_at`: a random free host, bound to the key. -/
def drawFor (conn : ConnId) (pubkey : Pubkey) : Option Ipv4Addr × IpAllocator :=
  match p.popRandom with
  | (none, p) => (none, p)
  | (some addr, p) => (some addr, (p.hold conn addr (some pubkey)).bindSticky pubkey addr)

/-- `allocate_at`, behind every keyed allocation. -/
def allocateAt (conn : ConnId) (pubkey : Pubkey) (intent : SessionIntent)
    (now : ℕ) (mayReclaim : Bool) : Option Ipv4Addr × IpAllocator :=
  match p.used.addressOf conn with
  | some addr => (some addr, p)
  | none =>
    -- a join that fails goes on as a fresh request, its sticky address included
    match p.tryJoin conn pubkey intent now mayReclaim with
    | (some addr, p) => (some addr, p)
    | (none, p) =>
      match p.trySticky conn pubkey intent with
      | (some addr, p) => (some addr, p)
      | (none, p) => p.drawFor conn pubkey

def transferOwner (src dst : Pubkey) : IpAllocator :=
  if src = dst then p
  else
    { p with
      used := p.used.transferOwner src dst
      sticky := transferSticky p.sticky src dst
      lastHolder := p.lastHolder.retainMut fun _ holder =>
        some (if holder = some src then some dst else holder) }

def release (conn : ConnId) : IpAllocator :=
  match p.used.release conn with
  -- the sticky binding outlives the release
  | (some (addr, true), used) => { p with used, free := p.free ++ [addr] }
  | (_, used) => { p with used }

def slash29 : IpAllocator where
  network := 0x0A420000
  prefixLen := 29
  gateway := 0x0A420001
  free := [0x0A420002, 0x0A420003, 0x0A420004, 0x0A420005, 0x0A420006]
  rng := 1
  used := Holdings.new
  sticky := ∅
  reclaim := none
  claims := none
  asked := 0
  lastHolder := ∅

theorem withSeed_slash29 : withSeed 0x0A420000 29 0x0A420001 1 = .ok slash29 := rfl

end IpAllocator

end IpPool

end WarrenGuard
