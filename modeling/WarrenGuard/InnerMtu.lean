/-
The MSS clamp (`warrenguard-transport-core/src/inner_mtu.rs`).

A TCP SYN announces how large a segment its sender takes; the clamp lowers that number to what
fits the tunnel, and repairs the checksum:

* `mssOptionAt_bounds` — the option it finds lies within the TCP header;
* `Clamped` — all that a clamp which reports something did;
* `take_clampSynMss`, `length_clampSynMss` — the packet keeps its length and everything before the
  TCP checksum.
-/
import WarrenGuard.ByteString

namespace WarrenGuard.InnerMtu

open ByteString

def ipv4MinHeader : ℕ := 20

def ipv6Header : ℕ := 40

def tcpMinHeader : ℕ := 20

/-- `MSS_FLOOR`, the lowest MSS that is ever announced. -/
def mssFloor : ℕ := 536

def effectiveMss (maxInner : ℕ) (v6 : Bool) : ℕ :=
  max (maxInner - if v6 then 60 else 40) mssFloor

/-- Add the carries of a sum of 16-bit words back in. -/
def foldCarries (sum : ℕ) : ℕ :=
  if sum / 65536 = 0 then sum else foldCarries (sum % 65536 + sum / 65536)
termination_by sum
decreasing_by omega

/-- The checksum `ck` covers the word `old`; the one that covers `new` in its place. -/
def incrementalChecksumUpdate (ck old new : ℕ) : ℕ :=
  65535 - foldCarries ((65535 - ck) + (65535 - old) + new)

/-- Where the TCP header of an unfragmented packet starts, and whether the packet is IPv6. -/
def synTcpOffset (pkt : List UInt8) : Option (ℕ × Bool) :=
  match pkt.head? with
  | none => none
  | some first =>
    if first >>> 4 = 4 then
      let ihl := (first &&& 0x0f).toNat * 4
      if ihl < ipv4MinHeader ∨ pkt.length < ihl + tcpMinHeader then none
      else if byte pkt 9 ≠ 6 then none
      else if beNat (slice pkt 6 2) % 0x2000 ≠ 0 then none
      else some (ihl, false)
    else if first >>> 4 = 6 then
      if pkt.length < ipv6Header + tcpMinHeader then none
      else if byte pkt 6 ≠ 6 then none
      else some (ipv6Header, true)
    else none

def isTcpSyn (pkt : List UInt8) : Bool :=
  (synTcpOffset pkt).any fun (tcp, _) => byte pkt (tcp + 13) &&& 0x02 ≠ 0

/-- The loop over the TCP options: the offset of the first MSS option at `i` or behind it. -/
def mssOptionAt (pkt : List UInt8) (stop i : ℕ) : Option ℕ :=
  if i < stop then
    let kind := byte pkt i
    if kind = 0 then none
    else if kind = 1 then mssOptionAt pkt stop (i + 1)
    else if stop ≤ i + 1 then none
    else
      let optlen := (byte pkt (i + 1)).toNat
      if optlen < 2 ∨ stop < i + optlen then none
      else if kind = 2 ∧ optlen = 4 then some i
      else mssOptionAt pkt stop (i + optlen)
  else none
termination_by stop - i

/-- Lowers the MSS option of a SYN to what fits `maxInner`, and gives the old and the new
value if it did. -/
def clampSynMss (pkt : List UInt8) (maxInner : ℕ) : Option (ℕ × ℕ) × List UInt8 :=
  match synTcpOffset pkt with
  | none => (none, pkt)
  | some (tcp, v6) =>
    if byte pkt (tcp + 13) &&& 0x02 = 0 then (none, pkt)
    else
      let doff := (byte pkt (tcp + 12) >>> 4).toNat * 4
      if doff < tcpMinHeader ∨ pkt.length < tcp + doff then (none, pkt)
      else match mssOptionAt pkt (tcp + doff) (tcp + tcpMinHeader) with
        | none => (none, pkt)
        | some i =>
          let old := beNat (slice pkt (i + 2) 2)
          let maxMss := effectiveMss maxInner v6
          if old ≤ maxMss then (none, pkt)
          else
            let pkt := patch pkt (i + 2) (be16 maxMss)
            let oldCk := beNat (slice pkt (tcp + 16) 2)
            (some (old, maxMss),
              patch pkt (tcp + 16) (be16 (incrementalChecksumUpdate oldCk old maxMss)))

variable {pkt : List UInt8} {tcp stop i j : ℕ} {v6 : Bool}

theorem mssOptionAt_bounds (h : mssOptionAt pkt stop i = some j) : i ≤ j ∧ j + 4 ≤ stop := by
  -- the induction follows the walk
  fun_induction mssOptionAt pkt stop i with
  | case1 => cases h
  | case2 i hlt kind h0 h1 ih =>
    have hj := ih h
    omega
  | case3 => cases h
  | case4 => cases h
  | case5 i hlt kind h0 h1 hend optlen hfit hmss =>
    obtain rfl : i = j := Option.some.inj h
    obtain ⟨-, hfour⟩ := hmss
    omega
  | case6 i hlt kind h0 h1 hend optlen hfit hmss ih =>
    have hj := ih h
    omega
  | case7 => cases h

/-- **Where a TCP header is found**: behind the IPv4 header or the fixed IPv6 header, with its
fixed part in the packet. -/
theorem synTcpOffset_cases (h : synTcpOffset pkt = some (tcp, v6)) :
    (v6 = false ∧ byte pkt 0 >>> 4 = 4 ∧ tcp = (byte pkt 0 &&& 0x0f).toNat * 4 ∧
        20 ≤ tcp ∧ tcp + 20 ≤ pkt.length) ∨
      (v6 = true ∧ byte pkt 0 >>> 4 = 6 ∧ tcp = 40 ∧ tcp + 20 ≤ pkt.length) := by
  unfold synTcpOffset ipv4MinHeader ipv6Header tcpMinHeader at h
  cases pkt with
  | nil => cases h
  | cons first rest =>
    simp only [List.head?_cons] at h
    split at h
    · rename_i hver
      split at h
      · cases h
      split at h
      · cases h
      split at h
      · cases h
      · cases h
        exact .inl ⟨rfl, hver, rfl, by omega, by omega⟩
    · split at h
      · rename_i hver
        split at h
        · cases h
        split at h
        · cases h
        · cases h
          exact .inr ⟨rfl, hver, rfl, by omega⟩
      · cases h

theorem synTcpOffset_bounds (h : synTcpOffset pkt = some (tcp, v6)) :
    20 ≤ tcp ∧ tcp + 20 ≤ pkt.length ∧
      (byte pkt 0 >>> 4 = 4 ∨ byte pkt 0 >>> 4 = 6 ∧ tcp = 40) := by
  obtain ⟨-, hver, -, htcp, hlen⟩ | ⟨-, hver, htcp, hlen⟩ := synTcpOffset_cases h
  · exact ⟨htcp, hlen, .inl hver⟩
  · exact ⟨by omega, hlen, .inr ⟨hver, htcp⟩⟩

/-! ### What a clamp does -/

def tcpHeaderEnd (pkt : List UInt8) (tcp : ℕ) : ℕ := tcp + (byte pkt (tcp + 12) >>> 4).toNat * 4

/-- A clamp of the option at `i` in the TCP header at `tcp`. -/
structure Clamped (pkt : List UInt8) (maxInner old new : ℕ) (pkt' : List UInt8) (tcp : ℕ)
    (v6 : Bool) (i : ℕ) : Prop where
  tcp_eq : synTcpOffset pkt = some (tcp, v6)
  syn : byte pkt (tcp + 13) &&& 0x02 ≠ 0
  header : tcp + 20 ≤ tcpHeaderEnd pkt tcp ∧ tcpHeaderEnd pkt tcp ≤ pkt.length
  option_eq : mssOptionAt pkt (tcpHeaderEnd pkt tcp) (tcp + 20) = some i
  old_eq : old = beNat (slice pkt (i + 2) 2)
  new_eq : new = effectiveMss maxInner v6
  lt : new < old
  pkt_eq : pkt' = patch (patch pkt (i + 2) (be16 new)) (tcp + 16)
    (be16 (incrementalChecksumUpdate (beNat (slice pkt (tcp + 16) 2)) old new))

/-- **A clamp reports nothing and changes nothing, or it has clamped an option.** -/
theorem clampSynMss_eq (pkt) (maxInner : ℕ) :
    clampSynMss pkt maxInner = (none, pkt) ∨
      ∃ old new pkt' tcp v6 i, clampSynMss pkt maxInner = (some (old, new), pkt')
        ∧ Clamped pkt maxInner old new pkt' tcp v6 i := by
  unfold clampSynMss
  split
  · exact .inl rfl
  rename_i tcp v6 htcp
  split
  · exact .inl rfl
  rename_i hsyn
  dsimp only
  split
  · exact .inl rfl
  rename_i hdoff
  split
  · exact .inl rfl
  rename_i i hopt
  split
  · exact .inl rfl
  rename_i hlt
  unfold tcpMinHeader at hdoff hopt
  have hbounds := mssOptionAt_bounds hopt
  obtain ⟨-, hlen, -⟩ := synTcpOffset_bounds htcp
  -- the checksum is read after the option was written, which lies behind it
  rw [slice_patch_of_disjoint (show i + 2 + 2 ≤ pkt.length by omega) (.inl (by omega))]
  refine .inr ⟨_, _, _, tcp, v6, i, rfl, htcp, hsyn, ⟨?_, ?_⟩, hopt, rfl, rfl, by omega, rfl⟩
  · unfold tcpHeaderEnd
    omega
  · unfold tcpHeaderEnd
    omega

/-- What a clamp writes: nothing, or two times two bytes, one on the MSS option and one on the
TCP checksum. -/
theorem clampSynMss_cases (pkt) (maxInner : ℕ) :
    (clampSynMss pkt maxInner).2 = pkt ∨
      ∃ tcp v6 i mss ck, synTcpOffset pkt = some (tcp, v6) ∧ tcp + 20 ≤ i ∧
        i + 4 ≤ pkt.length ∧ (clampSynMss pkt maxInner).2
          = patch (patch pkt (i + 2) (be16 mss)) (tcp + 16) (be16 ck) := by
  obtain hnone | ⟨old, new, pkt', tcp, v6, i, hsome, hc⟩ := clampSynMss_eq pkt maxInner
  · rw [hnone]
    exact .inl rfl
  · obtain ⟨hi, hend⟩ := mssOptionAt_bounds hc.option_eq
    rw [hsome, hc.pkt_eq]
    exact .inr ⟨tcp, v6, i, _, _, hc.tcp_eq, hi, Nat.le_trans hend hc.header.2, rfl⟩

theorem length_clampSynMss (pkt) (maxInner : ℕ) :
    (clampSynMss pkt maxInner).2.length = pkt.length := by
  rcases clampSynMss_cases pkt maxInner with heq | ⟨tcp, v6, i, mss, ck, htcp, hi, hend, heq⟩
  · rw [heq]
  · obtain ⟨-, hlen, -⟩ := synTcpOffset_bounds htcp
    have hfirst : (patch pkt (i + 2) (be16 mss)).length = pkt.length :=
      length_patch (show i + 2 + 2 ≤ pkt.length by omega)
    rw [heq, length_patch (show tcp + 16 + 2 ≤ _ by omega), hfirst]

/-- **The clamp keeps the IP header**, and all before the TCP checksum. -/
theorem take_clampSynMss (pkt) (maxInner : ℕ) {n : ℕ}
    (hn : ∀ tcp v6, synTcpOffset pkt = some (tcp, v6) → n ≤ tcp + 16) :
    (clampSynMss pkt maxInner).2.take n = pkt.take n := by
  rcases clampSynMss_cases pkt maxInner with heq | ⟨tcp, v6, i, mss, ck, htcp, hi, hend, heq⟩
  · rw [heq]
  · have hle := hn tcp v6 htcp
    have hlen : (patch pkt (i + 2) (be16 mss)).length = pkt.length :=
      length_patch (show i + 2 + 2 ≤ pkt.length by omega)
    rw [heq, take_patch hle (by omega), take_patch (by omega) (by omega)]

end WarrenGuard.InnerMtu
