/-
Inner packets: the header readers and the two gates of the exit's uplink
(`warrenguard-transport-core/src/ip_parse.rs`).

`classifySource` is the anti-spoof gate and `classifyDestination` keeps clients off each other's
addresses.  The first lets through what is not IP at all, the second what is not IP and, on an
exit without IPv6 pool, every IPv6 packet.

* `classifySource_none`, `classifyDestination_none_v4`, `classifyDestination_none_v6` — what they
  let through;
* `TunnelPool.holdsV4_iff` — "in the pool" is a question of the first bits.

`HeaderV4` and `HeaderV6` only look at the first 20 or 40 bytes (`HeaderV4.of_take`,
`HeaderV6.of_take`).
-/
import WarrenGuard.Basic
import WarrenGuard.ByteString

namespace WarrenGuard.IpParse

open ByteString

def ipv4MinHeader : ℕ := 20

def ipv6MinHeader : ℕ := 40

def ipv4At (pkt : List UInt8) (i : ℕ) : Ipv4Addr := BitVec.ofNat 32 (beNat (slice pkt i 4))

def ipv6At (pkt : List UInt8) (i : ℕ) : Ipv6Addr := BitVec.ofNat 128 (beNat (slice pkt i 16))

/-- The common body of the IPv4 readers: the address at `i`, of a packet that is long enough
and says it is IPv4. -/
def extractIpv4 (i : ℕ) (pkt : List UInt8) : Option Ipv4Addr :=
  if pkt.length < ipv4MinHeader then none
  else if byte pkt 0 >>> 4 ≠ 4 then none
  else some (ipv4At pkt i)

def extractIpv6 (i : ℕ) (pkt : List UInt8) : Option Ipv6Addr :=
  if pkt.length < ipv6MinHeader then none
  else if byte pkt 0 >>> 4 ≠ 6 then none
  else some (ipv6At pkt i)

def extractSrcIpv4 : List UInt8 → Option Ipv4Addr := extractIpv4 12

def extractDstIpv4 : List UInt8 → Option Ipv4Addr := extractIpv4 16

def extractSrcIpv6 : List UInt8 → Option Ipv6Addr := extractIpv6 8

def extractDstIpv6 : List UInt8 → Option Ipv6Addr := extractIpv6 24

/-! ### The anti-spoof gate -/

inductive SpoofRefusal where
  | malformed
  | v4Mismatch
  | v6LinkLocal
  | v6Unallocated
  | v6Mismatch
deriving DecidableEq

/-- `fe80::/10`. -/
def isLinkLocalIpv6 (addr : Ipv6Addr) : Bool :=
  addr.extractLsb' 120 8 = 0xfe#8 && addr.extractLsb' 112 8 &&& 0xc0#8 = 0x80#8

/-- The verdict on the source of an uplink packet; `none` lets it through. -/
def classifySource (pkt : List UInt8) (clientIpv4 : Ipv4Addr) (clientIpv6 : Option Ipv6Addr) :
    Option SpoofRefusal :=
  if pkt = [] then some .malformed
  else if byte pkt 0 >>> 4 = 4 then
    match extractSrcIpv4 pkt with
    | none => some .malformed
    | some src => if src = clientIpv4 then none else some .v4Mismatch
  else if byte pkt 0 >>> 4 = 6 then
    match extractSrcIpv6 pkt with
    | none => some .malformed
    | some src =>
      if src = 0 || isLinkLocalIpv6 src then some .v6LinkLocal
      else match clientIpv6 with
        | none => some .v6Unallocated
        | some expected => if src = expected then none else some .v6Mismatch
  -- no IP packet: a DAITA dummy is dropped elsewhere
  else none

/-! ### The destination gate -/

structure TunnelPool where
  v4Network : Ipv4Addr
  v4PrefixLen : UInt8
  v4Gateway : Ipv4Addr
  /-- The network and the gateway of the `/64`, on a dual-stack exit. -/
  v6 : Option (Ipv6Addr × Ipv6Addr)

def TunnelPool.holdsV4 (pool : TunnelPool) (addr : Ipv4Addr) : Bool :=
  if pool.v4PrefixLen = 0 then true
  else if 32 < pool.v4PrefixLen then false
  else
    let mask : BitVec 32 := BitVec.allOnes 32 <<< (32 - pool.v4PrefixLen.toNat)
    addr &&& mask = pool.v4Network &&& mask

inductive PoolRefusal where
  | v4Peer
  | v6Peer
deriving DecidableEq

/-- The verdict on the destination of an uplink packet; `none` lets it through. -/
def classifyDestination (pkt : List UInt8) (pool : TunnelPool) : Option PoolRefusal :=
  match pkt.head? with
  | none => none
  | some first =>
    if first >>> 4 = 4 then
      match extractDstIpv4 pkt with
      | none => some .v4Peer
      | some dst =>
        if dst = pool.v4Gateway then none
        else if pool.holdsV4 dst then some .v4Peer
        else none
    else if first >>> 4 = 6 then
      match pool.v6 with
      -- without an IPv6 pool there is nothing to keep clients off
      | none => none
      | some (network, gateway) =>
        match extractDstIpv6 pkt with
        | none => some .v6Peer
        | some dst =>
          if dst = gateway then none
          else if dst >>> 64 = network >>> 64 then some .v6Peer
          else none
    else none

/-! ### What a packet is -/

structure HeaderV4 (pkt : List UInt8) (src dst : Ipv4Addr) : Prop where
  long : 20 ≤ pkt.length
  version : byte pkt 0 >>> 4 = 4
  src : ipv4At pkt 12 = src
  dst : ipv4At pkt 16 = dst

structure HeaderV6 (pkt : List UInt8) (src dst : Ipv6Addr) : Prop where
  long : 40 ≤ pkt.length
  version : byte pkt 0 >>> 4 = 6
  src : ipv6At pkt 8 = src
  dst : ipv6At pkt 24 = dst

def TunnelPool.InV4 (pool : TunnelPool) (addr : Ipv4Addr) : Prop :=
  pool.v4PrefixLen.toNat ≤ 32 ∧
    ∀ i < pool.v4PrefixLen.toNat, addr.getMsbD i = pool.v4Network.getMsbD i

def TunnelPool.InV6 (pool : TunnelPool) (addr : Ipv6Addr) : Prop :=
  ∃ network gateway, pool.v6 = some (network, gateway) ∧
    ∀ i < 64, addr.getMsbD i = network.getMsbD i

def TunnelPool.GatewayV6 (pool : TunnelPool) (addr : Ipv6Addr) : Prop :=
  ∃ network, pool.v6 = some (network, addr)

section Headers

variable {pkt pkt' : List UInt8} {src dst : Ipv4Addr} {src6 dst6 : Ipv6Addr}

theorem HeaderV4.of_take (h : HeaderV4 pkt src dst) (hlen : pkt'.length = pkt.length)
    (htake : pkt'.take 20 = pkt.take 20) : HeaderV4 pkt' src dst where
  long := hlen ▸ h.long
  version := by
    rw [byte_of_take htake (by omega)]
    exact h.version
  src := by rw [← h.src, ipv4At, ipv4At, slice_of_take htake (by omega)]
  dst := by rw [← h.dst, ipv4At, ipv4At, slice_of_take htake (by omega)]

theorem HeaderV6.of_take (h : HeaderV6 pkt src6 dst6) (hlen : pkt'.length = pkt.length)
    (htake : pkt'.take 40 = pkt.take 40) : HeaderV6 pkt' src6 dst6 where
  long := hlen ▸ h.long
  version := by
    rw [byte_of_take htake (by omega)]
    exact h.version
  src := by rw [← h.src, ipv6At, ipv6At, slice_of_take htake (by omega)]
  dst := by rw [← h.dst, ipv6At, ipv6At, slice_of_take htake (by omega)]

theorem extractIpv4_eq_some_iff {i : ℕ} {a : Ipv4Addr} : extractIpv4 i pkt = some a ↔
    20 ≤ pkt.length ∧ byte pkt 0 >>> 4 = 4 ∧ ipv4At pkt i = a := by
  unfold extractIpv4 ipv4MinHeader
  by_cases hlen : pkt.length < 20
  · simp [hlen, Nat.not_le.mpr hlen]
  · by_cases hver : byte pkt 0 >>> 4 = 4 <;> simp [hlen, hver, Nat.le_of_not_lt hlen]

theorem extractIpv6_eq_some_iff {i : ℕ} {a : Ipv6Addr} : extractIpv6 i pkt = some a ↔
    40 ≤ pkt.length ∧ byte pkt 0 >>> 4 = 6 ∧ ipv6At pkt i = a := by
  unfold extractIpv6 ipv6MinHeader
  by_cases hlen : pkt.length < 40
  · simp [hlen, Nat.not_le.mpr hlen]
  · by_cases hver : byte pkt 0 >>> 4 = 6 <;> simp [hlen, hver, Nat.le_of_not_lt hlen]

end Headers

/-! ### The pool -/

/-- **The mask asks for the first bits.** -/
theorem TunnelPool.holdsV4_iff (pool : TunnelPool) (addr : Ipv4Addr) :
    pool.holdsV4 addr = true ↔ pool.InV4 addr := by
  unfold holdsV4 InV4
  by_cases hzero : pool.v4PrefixLen = 0
  · simp [hzero]
  rw [if_neg hzero]
  by_cases hlong : 32 < pool.v4PrefixLen
  · have hlt : 32 < pool.v4PrefixLen.toNat := hlong
    rw [if_pos hlong]
    simp [Nat.not_le.mpr hlt]
  have hle : pool.v4PrefixLen.toNat ≤ 32 := Nat.le_of_not_lt hlong
  rw [if_neg hlong, decide_eq_true_eq]
  generalize pool.v4PrefixLen.toNat = len at hle ⊢
  -- bit `i` of the mask, counted from the left, is set for `i < len`
  have hmask : ∀ i, (BitVec.allOnes 32 <<< (32 - len)).getMsbD i = decide (i < len) := by
    intro i
    simp only [BitVec.getMsbD_shiftLeft, BitVec.getMsbD_allOnes]
    by_cases hi : i < len <;> simp <;> omega
  constructor
  · intro heq
    refine ⟨hle, fun i hi => ?_⟩
    have hbit := congrArg (·.getMsbD i) heq
    simpa only [BitVec.getMsbD_and, hmask, decide_eq_true hi, Bool.and_true] using hbit
  · rintro ⟨-, hbits⟩
    refine BitVec.eq_of_getMsbD_eq fun i _ => ?_
    rw [BitVec.getMsbD_and, BitVec.getMsbD_and, hmask]
    by_cases hi : i < len
    · rw [hbits i hi]
    · simp [hi]

theorem TunnelPool.shift_eq_iff (addr network : Ipv6Addr) :
    addr >>> 64 = network >>> 64 ↔ ∀ i < 64, addr.getMsbD i = network.getMsbD i := by
  constructor
  · intro heq i hi
    have hbit := congrArg (·.getMsbD (i + 64)) heq
    have hin : i + 64 < 128 := by omega
    have hnot : ¬ i + 64 < 64 := by omega
    simpa [BitVec.getMsbD_ushiftRight, hin, hnot] using hbit
  · intro hbits
    refine BitVec.eq_of_getMsbD_eq fun i _ => ?_
    rw [BitVec.getMsbD_ushiftRight, BitVec.getMsbD_ushiftRight]
    by_cases hi : i < 64
    · simp [hi]
    · rw [hbits (i - 64) (by omega)]

/-! ### What the gates let through -/

section Gates

variable {pkt : List UInt8}

/-- **The anti-spoof gate** lets through what comes from the address of the connection, and
what is no IP packet. -/
theorem classifySource_none {clientIpv4 : Ipv4Addr} {clientIpv6 : Option Ipv6Addr}
    (h : classifySource pkt clientIpv4 clientIpv6 = none) :
    (20 ≤ pkt.length ∧ byte pkt 0 >>> 4 = 4 ∧ ipv4At pkt 12 = clientIpv4) ∨
      (40 ≤ pkt.length ∧ byte pkt 0 >>> 4 = 6 ∧ clientIpv6 = some (ipv6At pkt 8)) ∨
      byte pkt 0 >>> 4 ≠ 4 ∧ byte pkt 0 >>> 4 ≠ 6 := by
  unfold classifySource at h
  split at h
  · cases h
  split at h
  · -- IPv4
    split at h
    · cases h
    · rename_i src hsrc
      split at h
      · rename_i heq
        exact .inl (extractIpv4_eq_some_iff.mp (heq ▸ hsrc))
      · cases h
  rename_i hnot4
  split at h
  · -- IPv6
    split at h
    · cases h
    · rename_i src hsrc
      obtain ⟨hlen, hver, rfl⟩ := extractIpv6_eq_some_iff.mp hsrc
      split at h
      · cases h
      · split at h
        · cases h
        · rename_i expected
          split at h
          · rename_i heq
            exact .inr (.inl ⟨hlen, hver, by rw [heq]⟩)
          · cases h
  · rename_i hnot6
    exact .inr (.inr ⟨hnot4, hnot6⟩)

/-- **The destination gate** lets an IPv4 packet through that it can read and that goes to the
gateway or out of the pool. -/
theorem classifyDestination_none_v4 {pool : TunnelPool} (h : classifyDestination pkt pool = none)
    (hne : pkt ≠ []) (hver : byte pkt 0 >>> 4 = 4) :
    ¬ pool.InV4 (ipv4At pkt 16) ∨ ipv4At pkt 16 = pool.v4Gateway := by
  obtain ⟨first, rest, rfl⟩ := List.exists_cons_of_ne_nil hne
  have hfirst : first >>> 4 = 4 := hver
  simp only [classifyDestination, List.head?_cons, hfirst, if_true] at h
  split at h
  · cases h
  · rename_i dst hdst
    obtain ⟨-, -, rfl⟩ := extractIpv4_eq_some_iff.mp hdst
    rw [← TunnelPool.holdsV4_iff]
    split at h
    · rename_i heq
      exact .inr heq
    · split at h
      · cases h
      · rename_i hout
        exact .inl hout

theorem classifyDestination_none_v6 {pool : TunnelPool} (h : classifyDestination pkt pool = none)
    (hne : pkt ≠ []) (hver : byte pkt 0 >>> 4 = 6) :
    ¬ pool.InV6 (ipv6At pkt 24) ∨ pool.GatewayV6 (ipv6At pkt 24) := by
  obtain ⟨first, rest, rfl⟩ := List.exists_cons_of_ne_nil hne
  have hfirst : first >>> 4 = 6 := hver
  have hnot4 : ¬ (6 : UInt8) = 4 := by decide
  simp only [classifyDestination, List.head?_cons, hfirst, if_true, if_neg hnot4] at h
  split at h
  · rename_i hnone
    refine .inl ?_
    rintro ⟨network, gateway, hsome, -⟩
    rw [hnone] at hsome
    cases hsome
  · rename_i network gateway hpool
    split at h
    · cases h
    · rename_i dst hdst
      obtain ⟨-, -, rfl⟩ := extractIpv6_eq_some_iff.mp hdst
      split at h
      · rename_i heq
        exact .inr ⟨network, heq ▸ hpool⟩
      · split at h
        · cases h
        · rename_i hout
          refine .inl ?_
          rintro ⟨network', gateway', hsome, hbits⟩
          rw [hpool] at hsome
          cases hsome
          exact hout ((TunnelPool.shift_eq_iff _ _).mpr hbits)

end Gates

end WarrenGuard.IpParse
