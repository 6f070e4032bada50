/-
The answer to a packet with a stale source (`warrenguard-transport-core/src/stale_source.rs`).

A socket that was connected before the tunnel came up keeps its old address.
`reject_stale_source` answers its packets in the exit's place, with a TCP reset or with an ICMP
error:

* `Head.parse_cases`, `tcpReset_spec` — what is read of a packet, and the reset that is written,
  byte by byte;
* `Resets` — a reset that the sender accepts;
* `rejectStaleSource_spec` — every answer is proper; `rejectStaleSource_of_reset` — a reset is not
  answered;
* `synthesized_replies` — this, together with the reply to a packet that is too big.
-/
import WarrenGuard.IpParse
import WarrenGuard.IcmpError

namespace WarrenGuard.StaleSource

open ByteString OnesComplement CheckedBytes InnerMtu
open IpParse (SpoofRefusal)

def protoTcp : UInt8 := 6
def tcpFin : UInt8 := 0x01
def tcpSyn : UInt8 := 0x02
def tcpRst : UInt8 := 0x04
def tcpAck : UInt8 := 0x10

def icmpv4HostUnreachable : UInt8 × UInt8 := (3, 1)
def icmpv6AddressUnreachable : UInt8 × UInt8 := (1, 3)

abbrev IpAddr := WarrenGuard.IpAddr (Octets 4) (Octets 16)

def IpAddr.octets : IpAddr → List UInt8
  | .v4 addr => addr.bytes
  | .v6 addr => addr.bytes

def IpAddr.unicast : IpAddr → Bool
  | .v4 addr => isUnicastV4 addr
  | .v6 addr => isUnicastV6 addr

def l4PseudoSum (src dst : IpAddr) (proto : UInt8) (len : ℕ) : Checked ℕ :=
  u32 (wordSum src.octets + wordSum dst.octets + proto.toNat + len)

/-- The addressing of one inner packet: where the transport header is, unless the packet is a
later fragment, and where the packet ends. -/
structure Head where
  src : IpAddr
  dst : IpAddr
  proto : UInt8
  l4 : Option ℕ
  stop : ℕ

variable (pkt : List UInt8)

/-- The IPv4 branch of `Head::parse`. -/
def Head.parseV4 : Checked (Option Head) := do
  let ihl := ihlOf (← index pkt 0)
  if ihl < ipv4MinHeader ∨ pkt.length < ihl then return none
  else
    match Octets.ofList? 4 (← window pkt 12 16), Octets.ofList? 4 (← window pkt 16 20) with
    | some src, some dst =>
      let fragOffset := beNat [← index pkt 6, ← index pkt 7] % 8192
      let total := beNat [← index pkt 2, ← index pkt 3]
      return some ⟨.v4 src, .v4 dst, ← index pkt 9, if fragOffset = 0 then some ihl else none,
        max ihl (min total pkt.length)⟩
    | _, _ => return none

/-- The IPv6 branch, which does not walk extension headers. -/
def Head.parseV6 : Checked (Option Head) := do
  if pkt.length < ipv6Header then return none
  else
    match Octets.ofList? 16 (← window pkt 8 24), Octets.ofList? 16 (← window pkt 24 40) with
    | some src, some dst =>
      let payload := beNat [← index pkt 4, ← index pkt 5]
      return some ⟨.v6 src, .v6 dst, ← index pkt 6, some ipv6Header,
        min (ipv6Header + payload) pkt.length⟩
    | _, _ => return none

def Head.parse : Checked (Option Head) :=
  match pkt.head? with
  | none => .ok none
  | some first =>
    if first >>> 4 = 4 then Head.parseV4 pkt
    else if first >>> 4 = 6 then Head.parseV6 pkt
    else .ok none

def Head.answerable (head : Head) : Bool :=
  head.l4.isSome && head.src.unicast && head.dst.unicast

/-- Sequence number, acknowledgement and flags of the reset for a segment. -/
def resetNumbers (flags : UInt8) (payloadLen seq ack : ℕ) : ℕ × ℕ × UInt8 :=
  if flags &&& tcpAck ≠ 0 then (ack, 0, tcpRst)
  else
    let consumed := (min payloadLen 4294967295 + (if flags &&& tcpSyn ≠ 0 then 1 else 0)
      + (if flags &&& tcpFin ≠ 0 then 1 else 0)) % 4294967296
    (0, (seq + consumed) % 4294967296, tcpRst ||| tcpAck)

/-- The IP header in front of a reset. -/
def resetHead (src dst : IpAddr) : Checked (Option (List UInt8)) :=
  match src, dst with
  | .v4 src, .v4 dst => do
    let ip ← writeAll (List.replicate ipv4MinHeader 0)
      [⟨0, 1, [0x45]⟩, ⟨2, 4, be16 (ipv4MinHeader + tcpMinHeader)⟩, ⟨8, 9, [64]⟩,
        ⟨9, 10, [protoTcp]⟩, ⟨12, 16, src.bytes⟩, ⟨16, 20, dst.bytes⟩]
    let ipCk ← internetChecksum 0 ip
    let ip ← write ip ⟨10, 12, be16 ipCk⟩
    return some ip
  | .v6 src, .v6 dst => do
    let ip ← writeAll (List.replicate ipv6Header 0)
      [⟨0, 1, [0x60]⟩, ⟨4, 6, be16 tcpMinHeader⟩, ⟨6, 7, [protoTcp]⟩, ⟨7, 8, [64]⟩,
        ⟨8, 24, src.bytes⟩, ⟨24, 40, dst.bytes⟩]
    return some ip
  | _, _ => .ok none

def tcpReset (head : Head) : Checked (Option (List UInt8)) :=
  match head.l4 with
  | none => .ok none
  | some l4 =>
    if pkt.length < l4 + tcpMinHeader then .ok none
    else do
      let tcp := slice pkt l4 tcpMinHeader
      let flags ← index tcp 13
      if flags &&& tcpRst ≠ 0 then return none
      else
        let doff := ((← index tcp 12) >>> 4).toNat * 4
        let payloadLen := head.stop - (l4 + doff)
        let seq := beNat (← window tcp 4 8)
        let ack := beNat (← window tcp 8 12)
        let rst := resetNumbers flags payloadLen seq ack
        let seg ← writeAll (List.replicate tcpMinHeader 0)
          [⟨0, 2, ← window tcp 2 4⟩, ⟨2, 4, ← window tcp 0 2⟩, ⟨4, 8, be32 rst.1⟩,
            ⟨8, 12, be32 rst.2.1⟩, ⟨12, 13, [(5 : UInt8) <<< 4]⟩, ⟨13, 14, [rst.2.2]⟩]
        let seed ← l4PseudoSum head.dst head.src protoTcp tcpMinHeader
        let ck ← internetChecksum seed seg
        let seg ← write seg ⟨16, 18, be16 ck⟩
        match ← resetHead head.dst head.src with
        | none => return none
        | some out => return some (out ++ seg)

def rejectStaleSource (refusal : SpoofRefusal) (gwV4 : Octets 4)
    (gwV6 : Octets 16) : Checked (Option (List UInt8)) :=
  match refusal with
  | .malformed | .v6LinkLocal => .ok none
  | .v4Mismatch | .v6Unallocated | .v6Mismatch => do
    if ← isIcmpError pkt then return none
    else
      match ← Head.parse pkt with
      | none => return none
      | some head =>
        if ¬ head.answerable then return none
        else if head.proto = protoTcp then tcpReset pkt head
        else
          buildIcmpError pkt icmpv4HostUnreachable icmpv6AddressUnreachable
            ⟨[0, 0, 0, 0], rfl⟩ gwV4 gwV6

def uplinkRejectStaleSource (refusal : SpoofRefusal) :
    Checked (Option (List UInt8)) :=
  rejectStaleSource pkt refusal tunnelGatewayIp tunnelGatewayIpv6

/-! ### What is read of a packet -/

def protoOf : UInt8 :=
  if byte pkt 0 >>> 4 = 4 then byte pkt 9 else byte pkt 6

def transportAt : ℕ :=
  if byte pkt 0 >>> 4 = 4 then ihlOf (byte pkt 0) else 40

/-- Where a packet ends: as its header says, and not behind its last byte. -/
def endOf : ℕ :=
  if byte pkt 0 >>> 4 = 4 then max (ihlOf (byte pkt 0)) (min (beNat (slice pkt 2 2)) pkt.length)
  else min (40 + beNat (slice pkt 4 2)) pkt.length

/-- What `Head::parse` finds. -/
inductive Parsed (pkt : List UInt8) : Head → Prop
  | v4 {src dst : Octets 4} {l4 : Option ℕ} (family : byte pkt 0 >>> 4 = 4)
      (hsrc : src.bytes = slice pkt 12 4) (hl4 : ∀ n ∈ l4, n = transportAt pkt) :
      Parsed pkt ⟨.v4 src, .v4 dst, protoOf pkt, l4, endOf pkt⟩
  | v6 {src dst : Octets 16} {l4 : Option ℕ} (family : byte pkt 0 >>> 4 = 6)
      (hsrc : src.bytes = slice pkt 8 16) (hl4 : ∀ n ∈ l4, n = transportAt pkt) :
      Parsed pkt ⟨.v6 src, .v6 dst, protoOf pkt, l4, endOf pkt⟩

theorem Head.parseV4_cases {pkt : List UInt8} (hpos : 0 < pkt.length)
    (h4 : byte pkt 0 >>> 4 = 4) : Head.parseV4 pkt = .ok none
      ∨ ∃ head, Head.parseV4 pkt = .ok (some head) ∧ Parsed pkt head := by
  have hproto : protoOf pkt = byte pkt 9 := if_pos h4
  have hat : transportAt pkt = ihlOf (byte pkt 0) := if_pos h4
  have hend : endOf pkt
      = max (ihlOf (byte pkt 0)) (min (beNat (slice pkt 2 2)) pkt.length) := if_pos h4
  unfold Head.parseV4
  rw [index_of_lt hpos, ok_bind]
  dsimp only
  split
  · exact .inl rfl
  rename_i hihl
  unfold ipv4MinHeader at hihl
  obtain ⟨src, hsrc, hsrcOf⟩ := Octets.exists_ofList?
    (length_slice (show 12 + 4 ≤ pkt.length by omega))
  obtain ⟨dst, hdst, hdstOf⟩ := Octets.exists_ofList?
    (length_slice (show 16 + 4 ≤ pkt.length by omega))
  simp (disch := omega) only [window_of_le, index_of_lt, ok_bind, hsrcOf, hdstOf]
  rw [← slice_two (by omega), ← slice_two (by omega), ← hproto, ← hend]
  refine .inr ⟨_, rfl, .v4 h4 hsrc fun n hn => ?_⟩
  split at hn
  · cases hn
    exact hat.symm
  · cases hn

theorem Head.parseV6_cases {pkt : List UInt8} (h6 : byte pkt 0 >>> 4 = 6) :
    Head.parseV6 pkt = .ok none
      ∨ ∃ head, Head.parseV6 pkt = .ok (some head) ∧ Parsed pkt head := by
  have hne : ¬ byte pkt 0 >>> 4 = 4 := by
    rw [h6]
    decide
  have hproto : protoOf pkt = byte pkt 6 := if_neg hne
  have hat : transportAt pkt = 40 := if_neg hne
  have hend : endOf pkt = min (ipv6Header + beNat (slice pkt 4 2)) pkt.length := if_neg hne
  unfold Head.parseV6
  split
  · exact .inl rfl
  rename_i hlen
  unfold ipv6Header at hlen
  obtain ⟨src, hsrc, hsrcOf⟩ := Octets.exists_ofList?
    (length_slice (show 8 + 16 ≤ pkt.length by omega))
  obtain ⟨dst, hdst, hdstOf⟩ := Octets.exists_ofList?
    (length_slice (show 24 + 16 ≤ pkt.length by omega))
  simp (disch := omega) only [window_of_le, index_of_lt, ok_bind, hsrcOf, hdstOf]
  rw [← slice_two (by omega), ← hproto, ← hend]
  refine .inr ⟨_, rfl, .v6 h6 hsrc fun n hn => ?_⟩
  cases hn
  exact hat.symm

theorem Head.parse_cases :
    Head.parse pkt = .ok none ∨ ∃ head, Head.parse pkt = .ok (some head) ∧ Parsed pkt head := by
  unfold Head.parse
  rcases Nat.eq_zero_or_pos pkt.length with hnil | hpos
  · obtain rfl := List.length_eq_zero_iff.mp hnil
    exact .inl rfl
  rw [head?_of_length_pos hpos]
  dsimp only
  split
  · rename_i h4
    exact Head.parseV4_cases hpos h4
  split
  · rename_i h6
    exact Head.parseV6_cases h6
  · exact .inl rfl

/-! ### The reset, byte by byte -/

def tcpSegment (srcPort dstPort : List UInt8) (rst : ℕ × ℕ × UInt8) : List UInt8 :=
  srcPort ++ dstPort ++ be32 rst.1 ++ be32 rst.2.1 ++ [0x50, rst.2.2, 0, 0, 0, 0, 0, 0]

/-- The reset for the segment at `l4` of a packet that ends at `stop`. -/
def resetFor (l4 stop : ℕ) : List UInt8 :=
  tcpSegment (slice pkt (l4 + 2) 2) (slice pkt l4 2)
    (resetNumbers (byte pkt (l4 + 13)) (stop - tcpHeaderEnd pkt l4)
      (beNat (slice pkt (l4 + 4) 4)) (beNat (slice pkt (l4 + 8) 4)))

def sealReset (src dst : List UInt8) (seg : List UInt8) : List UInt8 :=
  sealAt (wordSum src + wordSum dst + 6 + 20) 16 seg

theorem writeAll_tcpSegment {srcPort dstPort : List UInt8} (hsrc : srcPort.length = 2)
    (hdst : dstPort.length = 2) (rst : ℕ × ℕ × UInt8) :
    writeAll (List.replicate tcpMinHeader 0)
        [⟨0, 2, srcPort⟩, ⟨2, 4, dstPort⟩, ⟨4, 8, be32 rst.1⟩, ⟨8, 12, be32 rst.2.1⟩,
          ⟨12, 13, [(5 : UInt8) <<< 4]⟩, ⟨13, 14, [rst.2.2]⟩]
      = .ok (tcpSegment srcPort dstPort rst) := by
  match srcPort, dstPort, hsrc, hdst with
  | [a, b], [c, d], _, _ => rfl

theorem length_resetFor {pkt : List UInt8} {l4 : ℕ} (h : l4 + 20 ≤ pkt.length) (stop : ℕ) :
    (resetFor pkt l4 stop).length = 20 := by
  rw [resetFor, tcpSegment, slice_two (by omega), slice_two (by omega)]
  rfl

theorem length_sealReset {pkt : List UInt8} {l4 : ℕ} (h : l4 + 20 ≤ pkt.length) (stop : ℕ)
    (src dst : List UInt8) : (sealReset src dst (resetFor pkt l4 stop)).length = 20 := by
  have hlen := length_resetFor h stop
  rw [sealReset, length_sealAt (by omega), hlen]

theorem resetHead_v4 (src dst : Octets 4) :
    resetHead (.v4 src) (.v4 dst) = .ok (some (sealAt 0 10 (ipv4Head 40 6 src dst))) := by
  have hwrite := writeAll_ipv4Head 40 6 src dst []
  have hsum := wordSum_le (ipv4Head 40 6 src dst)
  have hlen := length_ipv4Head 40 6 src dst
  rw [List.append_nil, List.append_nil] at hwrite
  have hfits : Write.Fits ⟨10, 12, be16 (65535 - foldCarries (0 + wordSum (ipv4Head 40 6 src dst)))⟩
      (ipv4Head 40 6 src dst).length := by
    simp [Write.Fits, be16, hlen]
  show (writeAll (List.replicate 20 0) [⟨0, 1, [0x45]⟩, ⟨2, 4, be16 40⟩, ⟨8, 9, [64]⟩, ⟨9, 10, [6]⟩,
    ⟨12, 16, src.bytes⟩, ⟨16, 20, dst.bytes⟩] >>= _) = _
  rw [hwrite, ok_bind, internetChecksum_eq (by omega), ok_bind, write_of_fits hfits, ok_bind]
  rfl

theorem resetHead_v6 (src dst : Octets 16) :
    resetHead (.v6 src) (.v6 dst) = .ok (some (ipv6Head 20 6 src dst)) := by
  have hwrite := writeAll_ipv6Head 20 6 src dst []
  rw [List.append_nil, List.append_nil] at hwrite
  show (writeAll (List.replicate 40 0) [⟨0, 1, [0x60]⟩, ⟨4, 6, be16 20⟩, ⟨6, 7, [6]⟩, ⟨7, 8, [64]⟩,
    ⟨8, 24, src.bytes⟩, ⟨24, 40, dst.bytes⟩] >>= _) = _
  rw [hwrite, ok_bind]
  rfl

theorem wordSum_octets_le (addr : IpAddr) : wordSum addr.octets ≤ 65535 * 16 := by
  cases addr with
  | v4 addr =>
    have hsum := wordSum_le addr.bytes
    rw [addr.length_eq] at hsum
    exact Nat.le_trans hsum (by decide)
  | v6 addr =>
    have hsum := wordSum_le addr.bytes
    rwa [addr.length_eq] at hsum

/-- **The reset of a segment**, from the destination of the packet. -/
theorem tcpReset_eq {pkt : List UInt8} {head : Head} {l4 : ℕ} {out : List UInt8}
    (hl4 : head.l4 = some l4) (hlen : l4 + 20 ≤ pkt.length)
    (hrst : byte pkt (l4 + 13) &&& tcpRst = 0)
    (hout : resetHead head.dst head.src = .ok (some out)) :
    tcpReset pkt head = .ok (some (out
      ++ sealReset head.dst.octets head.src.octets (resetFor pkt l4 head.stop))) := by
  have htcp : (slice pkt l4 tcpMinHeader).length = 20 := length_slice hlen
  have hbyte {j : ℕ} (hj : j < 20) : byte (slice pkt l4 tcpMinHeader) j = byte pkt (l4 + j) :=
    byte_slice hj
  have hslice {j k : ℕ} (hj : j + k ≤ 20) :
      slice (slice pkt l4 tcpMinHeader) j k = slice pkt (l4 + j) k := slice_slice hj
  have hseg := length_resetFor hlen head.stop
  have hsum := wordSum_le (resetFor pkt l4 head.stop)
  have hdst := wordSum_octets_le head.dst
  have hsrc := wordSum_octets_le head.src
  have hpseudo : l4PseudoSum head.dst head.src protoTcp tcpMinHeader
      = .ok (wordSum head.dst.octets + wordSum head.src.octets + 6 + 20) :=
    u32_of_lt (show _ + 6 + 20 < _ by omega)
  unfold tcpReset
  rw [hl4]
  dsimp only
  rw [if_neg (by unfold tcpMinHeader; omega), index_of_lt (by omega), ok_bind, hbyte (by omega),
    if_neg (not_not_intro hrst)]
  simp (disch := omega) only [index_of_lt, window_of_le, ok_bind, hbyte, hslice]
  rw [writeAll_tcpSegment (length_slice (by omega)) (length_slice (by omega)), ok_bind, hpseudo,
    ok_bind]
  change (internetChecksum _ (resetFor pkt l4 head.stop) >>= fun ck =>
    write (resetFor pkt l4 head.stop) ⟨16, 18, be16 ck⟩ >>= _) = _
  rw [internetChecksum_eq (by omega), ok_bind, write_of_fits (by simp [Write.Fits, be16, hseg]),
    ok_bind, hout, ok_bind]
  rfl

/-! ### What one asks of a reset -/

def payloadOf : ℕ := endOf pkt - tcpHeaderEnd pkt (transportAt pkt)

def flagsOf : UInt8 := byte pkt (transportAt pkt + 13)

/-- A flag counts one in the sequence space. -/
def counts (flags flag : UInt8) : ℕ := if flags &&& flag ≠ 0 then 1 else 0

/-- `reply` is the reset that the sender of the segment in `pkt` accepts. -/
structure Resets (pkt reply : List UInt8) : Prop where
  tcp : protoOf reply = 6
  whole : reply.length = transportAt reply + 20
  offset : byte reply (transportAt reply + 12) = 0x50
  srcPort : slice reply (transportAt reply) 2 = slice pkt (transportAt pkt + 2) 2
  dstPort : slice reply (transportAt reply + 2) 2 = slice pkt (transportAt pkt) 2
  rst : flagsOf reply &&& tcpRst ≠ 0
  of_ack : flagsOf pkt &&& tcpAck ≠ 0 →
    beNat (slice reply (transportAt reply + 4) 4) = beNat (slice pkt (transportAt pkt + 8) 4)
  of_no_ack : flagsOf pkt &&& tcpAck = 0 → flagsOf reply &&& tcpAck ≠ 0
    ∧ beNat (slice reply (transportAt reply + 8) 4)
      = (beNat (slice pkt (transportAt pkt + 4) 4) + payloadOf pkt + counts (flagsOf pkt) tcpSyn
        + counts (flagsOf pkt) tcpFin) % 4294967296

section Resets

variable {pkt : List UInt8} {head : Head}

theorem endOf_lt (pkt) : endOf pkt < 4294967296 := by
  have hihl := ihlOf_le (byte pkt 0)
  rcases Nat.lt_or_ge pkt.length 6 with hshort | hlong
  · unfold endOf
    split <;> omega
  · have htotal : beNat (slice pkt 2 2) < 65536 := beNat_slice_two_lt (by omega)
    have hpayload : beNat (slice pkt 4 2) < 65536 := beNat_slice_two_lt (by omega)
    unfold endOf
    split <;> omega

variable {body reply : List UInt8} {dst src : Octets 16} {flags : UInt8} {payloadLen : ℕ}

theorem resetNumbers_of_ack (h : flags &&& tcpAck ≠ 0) (payloadLen seq ack : ℕ) :
    resetNumbers flags payloadLen seq ack = (ack, 0, tcpRst) := if_pos h

theorem resetNumbers_of_no_ack (h : flags &&& tcpAck = 0)
    (hlen : payloadLen < 4294967296) (seq ack : ℕ) :
    resetNumbers flags payloadLen seq ack
      = (0, (seq + payloadLen + counts flags tcpSyn + counts flags tcpFin) % 4294967296,
        tcpRst ||| tcpAck) := by
  have hmin : min payloadLen 4294967295 = payloadLen := by omega
  have hmod : (seq + (payloadLen + counts flags tcpSyn + counts flags tcpFin) % 4294967296)
        % 4294967296
      = (seq + payloadLen + counts flags tcpSyn + counts flags tcpFin) % 4294967296 := by
    omega
  rw [resetNumbers, if_neg (not_not_intro h), hmin, ← hmod]
  rfl

theorem resetNumbers_rst (flags) (payloadLen seq ack : ℕ) :
    (resetNumbers flags payloadLen seq ack).2.2 &&& tcpRst ≠ 0 := by
  unfold resetNumbers
  split
  · exact (by decide : tcpRst &&& tcpRst ≠ 0)
  · exact (by decide : (tcpRst ||| tcpAck) &&& tcpRst ≠ 0)

theorem resets_of_packet {hdr src dst reply : List UInt8}
    (hlen : transportAt pkt + 20 ≤ pkt.length)
    (hreply : reply = hdr ++ sealReset src dst (resetFor pkt (transportAt pkt) (endOf pkt)))
    (hhdr : hdr.length = transportAt reply) (hproto : protoOf reply = 6) : Resets pkt reply := by
  generalize hrst : resetNumbers (flagsOf pkt) (payloadOf pkt)
    (beNat (slice pkt (transportAt pkt + 4) 4)) (beNat (slice pkt (transportAt pkt + 8) 4)) = rst
  have hseg : resetFor pkt (transportAt pkt) (endOf pkt)
      = tcpSegment [byte pkt (transportAt pkt + 2), byte pkt (transportAt pkt + 2 + 1)]
        [byte pkt (transportAt pkt), byte pkt (transportAt pkt + 1)] rst := by
    rw [← hrst, ← slice_two (by omega), ← slice_two (by omega)]
    rfl
  have hbyte (j : ℕ) : byte reply (transportAt reply + j)
      = byte (sealReset src dst (resetFor pkt (transportAt pkt) (endOf pkt))) j :=
    (congrArg (byte · _) hreply).trans (byte_append_right hhdr _ j)
  have hslice (j k : ℕ) : slice reply (transportAt reply + j) k
      = slice (sealReset src dst (resetFor pkt (transportAt pkt) (endOf pkt))) j k :=
    (congrArg (slice · _ k) hreply).trans (slice_append_right hhdr _ j k)
  rw [hseg] at hbyte hslice
  have hflags : flagsOf reply = rst.2.2 := hbyte 13
  refine ⟨hproto, ?_, hbyte 12, ?_, ?_, ?_, fun hack => ?_, fun hack => ?_⟩
  · rw [hreply, List.length_append, length_sealReset hlen, hhdr, hreply]
  · rw [slice_two (i := transportAt pkt + 2) (by omega)]
    exact hslice 0 2
  · rw [slice_two (i := transportAt pkt) (by omega)]
    exact hslice 2 2
  · rw [hflags, ← hrst]
    exact resetNumbers_rst _ _ _ _
  · have hseq : beNat (slice reply (transportAt reply + 4) 4) = beNat (be32 rst.1) :=
      congrArg beNat (hslice 4 4)
    rw [resetNumbers_of_ack hack] at hrst
    subst hrst
    exact hseq.trans (beNat_be32 (beNat_lt_of_length_four (length_slice (by omega))))
  · have hnum : beNat (slice reply (transportAt reply + 8) 4) = beNat (be32 rst.2.1) :=
      congrArg beNat (hslice 8 4)
    have hpayload : payloadOf pkt < 4294967296 :=
      Nat.lt_of_le_of_lt (Nat.sub_le _ _) (endOf_lt pkt)
    rw [resetNumbers_of_no_ack hack hpayload] at hrst
    subst hrst
    exact ⟨hflags ▸ (by decide : (tcpRst ||| tcpAck) &&& tcpAck ≠ 0),
      hnum.trans (beNat_be32 (Nat.mod_lt _ (by omega)))⟩

theorem Parsed.proto_eq (h : Parsed pkt head) : head.proto = protoOf pkt := by
  cases h <;> rfl

theorem Parsed.l4_eq (h : Parsed pkt head) {l4 : ℕ} (hl4 : head.l4 = some l4) :
    l4 = transportAt pkt := by
  cases h with
  | v4 _ _ hat | v6 _ _ hat => exact hat l4 hl4

theorem transportAt_ipv4Packet (src dst : Octets 4) (body) :
    transportAt (ipv4Packet 6 src dst body) = 20 := by
  rw [transportAt, byte_zero_ipv4Packet]
  rfl

theorem protoOf_ipv4Packet (proto : UInt8) (src dst : Octets 4) (body) :
    protoOf (ipv4Packet proto src dst body) = proto := by
  rw [protoOf, byte_zero_ipv4Packet, byte_proto_ipv4Packet]
  rfl

theorem transportAt_ipv6Packet (src dst body) :
    transportAt (ipv6Packet 6 src dst body) = 40 := by
  rw [transportAt, show byte (ipv6Packet 6 src dst body) 0 = 0x60 from rfl]
  rfl

theorem protoOf_ipv6Packet (next : UInt8) (src dst body) :
    protoOf (ipv6Packet next src dst body) = next := by
  rw [protoOf, show byte (ipv6Packet next src dst body) 0 = 0x60 from rfl]
  rfl

theorem checksumValid_sealReset {l4 : ℕ} (h : l4 + 20 ≤ pkt.length) (stop : ℕ)
    (src dst : List UInt8) :
    ChecksumValid (wordSum src + wordSum dst + 6
      + (sealReset src dst (resetFor pkt l4 stop)).length)
      (sealReset src dst (resetFor pkt l4 stop)) := by
  have hlen := length_resetFor h stop
  have hzero : beNat (slice (resetFor pkt l4 stop) 16 2) = 0 := by
    rw [resetFor, tcpSegment, slice_two (i := l4 + 2) (by omega), slice_two (i := l4) (by omega)]
    rfl
  rw [length_sealReset h]
  exact checksumValid_write (by omega) rfl hzero

theorem tcpReset_of_short (h : ∀ l4 ∈ head.l4, pkt.length < l4 + 20) :
    tcpReset pkt head = .ok none := by
  unfold tcpReset
  split
  · rfl
  · rename_i l4 hl4
    exact if_pos (h l4 hl4)

theorem tcpReset_of_rst (h : ∀ l4 ∈ head.l4, byte pkt (l4 + 13) &&& tcpRst ≠ 0) :
    tcpReset pkt head = .ok none := by
  unfold tcpReset
  split
  · rfl
  · rename_i l4 hl4
    split
    · rfl
    · rename_i hlen
      unfold tcpMinHeader at hlen
      have htcp : (slice pkt l4 tcpMinHeader).length = 20 :=
        length_slice (by unfold tcpMinHeader; omega)
      dsimp only
      rw [index_of_lt (by omega), ok_bind, byte_slice (by decide), if_pos (h l4 hl4)]
      rfl

theorem reset_v4 {src dst : Octets 4} (family : byte pkt 0 >>> 4 = 4)
    (hsrc : src.bytes = slice pkt 12 4) (hlen : transportAt pkt + 20 ≤ pkt.length)
    (hreply : reply = sealAt 0 10 (ipv4Head 40 6 dst src)
      ++ sealReset dst.bytes src.bytes (resetFor pkt (transportAt pkt) (endOf pkt))) :
    Proper pkt reply ∧ Resets pkt reply := by
  have hlength := length_sealReset hlen (endOf pkt) dst.bytes src.bytes
  have hform : reply = ipv4Packet 6 dst src
      (sealReset dst.bytes src.bytes (resetFor pkt (transportAt pkt) (endOf pkt))) := by
    rw [hreply, ipv4Packet, hlength]
  have hhead : (sealAt 0 10 (ipv4Head 40 6 dst src)).length = 20 := by
    rw [length_sealAt (by rw [length_ipv4Head]; omega), length_ipv4Head]
  constructor
  · rw [hform]
    exact .inl (properV4_packet family hsrc (by rw [hlength]; decide)
      (.inr ⟨rfl, checksumValid_sealReset hlen _ _ _⟩))
  · refine resets_of_packet hlen hreply ?_ ?_
    · rw [hhead, hform, transportAt_ipv4Packet]
    · rw [hform, protoOf_ipv4Packet]

theorem reset_v6 (family : byte pkt 0 >>> 4 = 6)
    (hsrc : src.bytes = slice pkt 8 16) (hlen : transportAt pkt + 20 ≤ pkt.length)
    (hreply : reply = ipv6Head 20 6 dst src
      ++ sealReset dst.bytes src.bytes (resetFor pkt (transportAt pkt) (endOf pkt))) :
    Proper pkt reply ∧ Resets pkt reply := by
  have hlength := length_sealReset hlen (endOf pkt) dst.bytes src.bytes
  have hform : reply = ipv6Packet 6 dst src
      (sealReset dst.bytes src.bytes (resetFor pkt (transportAt pkt) (endOf pkt))) := by
    rw [hreply, ipv6Packet, hlength]
  constructor
  · rw [hform]
    exact .inr (properV6_packet family hsrc (by rw [hlength]; decide) (.inr rfl)
      (checksumValid_sealReset hlen _ _ _))
  · refine resets_of_packet hlen hreply ?_ ?_
    · rw [length_ipv6Head, hform, transportAt_ipv6Packet]
    · rw [hform, protoOf_ipv6Packet]

/-- **Every reset of `tcp_reset`** is proper and resets. -/
theorem tcpReset_spec (h : Parsed pkt head) :
    ∃ answer, tcpReset pkt head = .ok answer
      ∧ ∀ reply ∈ answer, Proper pkt reply ∧ Resets pkt reply := by
  cases hl4 : head.l4 with
  | none => exact ⟨none, tcpReset_of_short (by simp [hl4]), nofun⟩
  | some l4 =>
    obtain rfl := h.l4_eq hl4
    by_cases hlen : transportAt pkt + 20 ≤ pkt.length
    · by_cases hrst : byte pkt (transportAt pkt + 13) &&& tcpRst = 0
      · cases h with
        | @v4 src dst _ family hsrc =>
          refine ⟨_, tcpReset_eq hl4 hlen hrst (resetHead_v4 dst src), ?_⟩
          rintro reply ⟨⟩
          exact reset_v4 family hsrc hlen rfl
        | @v6 src dst _ family hsrc =>
          refine ⟨_, tcpReset_eq hl4 hlen hrst (resetHead_v6 dst src), ?_⟩
          rintro reply ⟨⟩
          exact reset_v6 family hsrc hlen rfl
      · exact ⟨none, tcpReset_of_rst (by simp [hl4, hrst]), nofun⟩
    · exact ⟨none, tcpReset_of_short (by simp [hl4]; omega), nofun⟩

end Resets

/-! ### The answer to a stale packet -/

section Reject

variable {pkt : List UInt8}

variable {gwV4 : Octets 4} {gwV6 : Octets 16} {refusal : SpoofRefusal}

theorem rejectStaleSource_cases (h : ¬ EndsBeforeProtocol pkt) (refusal gwV4 gwV6) :
    rejectStaleSource pkt refusal gwV4 gwV6 = .ok none
      ∨ (∃ head, Parsed pkt head ∧ protoOf pkt = 6
        ∧ rejectStaleSource pkt refusal gwV4 gwV6 = tcpReset pkt head)
      ∨ (protoOf pkt ≠ 6 ∧ rejectStaleSource pkt refusal gwV4 gwV6
        = buildIcmpError pkt icmpv4HostUnreachable icmpv6AddressUnreachable ⟨[0, 0, 0, 0], rfl⟩
          gwV4 gwV6) := by
  cases refusal with
  | malformed | v6LinkLocal => exact .inl rfl
  | v4Mismatch | v6Unallocated | v6Mismatch =>
    unfold rejectStaleSource
    dsimp only
    rw [isIcmpError_eq, if_neg h, ok_bind]
    split
    · exact .inl rfl
    rcases Head.parse_cases pkt with hnone | ⟨head, hhead, hparsed⟩
    · exact .inl (by rw [hnone]; rfl)
    rw [hhead, ok_bind]
    dsimp only
    rw [hparsed.proto_eq]
    split
    · exact .inl rfl
    split
    · rename_i hproto
      exact .inr (.inl ⟨head, hparsed, hproto, rfl⟩)
    · rename_i hproto
      exact .inr (.inr ⟨hproto, rfl⟩)

/-- **Every answer of `reject_stale_source`** is proper: the reset of a TCP segment, or an
ICMP error about another packet. -/
theorem rejectStaleSource_spec (h : ¬ EndsBeforeProtocol pkt) (refusal gwV4 gwV6) :
    ∃ answer, rejectStaleSource pkt refusal gwV4 gwV6 = .ok answer ∧ ∀ reply ∈ answer,
      Proper pkt reply ∧ ((protoOf pkt = 6 ∧ Resets pkt reply)
        ∨ (protoOf pkt ≠ 6 ∧ IcmpError reply)) := by
  rcases rejectStaleSource_cases h refusal gwV4 gwV6 with
    hnone | ⟨head, hparsed, htcp, heq⟩ | ⟨htcp, heq⟩
  · exact ⟨none, hnone, nofun⟩
  · obtain ⟨answer, hanswer, hreplies⟩ := tcpReset_spec hparsed
    refine ⟨answer, heq.trans hanswer, fun reply hreply => ?_⟩
    obtain ⟨hproper, hresets⟩ := hreplies reply hreply
    exact ⟨hproper, .inl ⟨htcp, hresets⟩⟩
  · obtain ⟨answer, hanswer, hreplies⟩ := buildIcmpError_spec h
      icmpv4HostUnreachable icmpv6AddressUnreachable (by decide) (by decide)
      ⟨[0, 0, 0, 0], rfl⟩ gwV4 gwV6
    refine ⟨answer, heq.trans hanswer, fun reply hreply => ?_⟩
    obtain ⟨hproper, herror⟩ := hreplies reply hreply
    exact ⟨hproper, .inr ⟨htcp, herror⟩⟩

theorem rejectStaleSource_of_icmpError (h : IcmpError pkt) (refusal gwV4 gwV6) :
    rejectStaleSource pkt refusal gwV4 gwV6 = .ok none := by
  cases refusal with
  | malformed | v6LinkLocal => rfl
  | v4Mismatch | v6Unallocated | v6Mismatch =>
    rw [rejectStaleSource, isIcmpError_of_icmpError h]
    rfl

def IsReset (pkt : List UInt8) : Prop := protoOf pkt = 6 ∧ flagsOf pkt &&& tcpRst ≠ 0

instance (pkt : List UInt8) : Decidable (IsReset pkt) := inferInstanceAs (Decidable (_ ∧ _))

theorem Resets.isReset {reply : List UInt8} (h : Resets pkt reply) : IsReset reply := ⟨h.tcp, h.rst⟩

theorem rejectStaleSource_of_reset (h : IsReset pkt) (refusal gwV4 gwV6) :
    rejectStaleSource pkt refusal gwV4 gwV6 = .ok none := by
  obtain ⟨htcp, hrst⟩ := h
  -- byte 9 states the protocol, so it is there
  have hlong : ¬ EndsBeforeProtocol pkt := by
    rintro ⟨h4, -, hshort⟩
    rw [protoOf, if_pos h4, byte, List.getD_eq_getElem?_getD, List.getElem?_eq_none hshort] at htcp
    exact absurd htcp (by decide)
  rcases rejectStaleSource_cases hlong refusal gwV4 gwV6 with
    hnone | ⟨head, hparsed, -, heq⟩ | ⟨hother, -⟩
  · exact hnone
  · rw [heq]
    refine tcpReset_of_rst fun l4 hl4 => ?_
    rw [hparsed.l4_eq hl4]
    exact hrst
  · exact absurd htcp hother

/-! ### The two builders together -/

def Unanswered (pkt : List UInt8) : Prop :=
  ∀ mtu refusal gwV4 gwV6, buildFragNeeded pkt mtu gwV4 gwV6 = .ok none
    ∧ rejectStaleSource pkt refusal gwV4 gwV6 = .ok none

theorem unanswered_of_icmpError (h : IcmpError pkt) : Unanswered pkt := fun mtu refusal gwV4 gwV6 =>
  ⟨buildIcmpError_of_icmpError h (3, 4) (2, 0) (mtuRest mtu) gwV4 gwV6,
    rejectStaleSource_of_icmpError h refusal gwV4 gwV6⟩

/-- **The synthesized replies.**  On every packet that has a protocol field where
`is_icmp_error` reads one, both builders return; what they return is proper; a reset of the
rejecter resets, and every other reply is an ICMP error that no builder answers; and the
rejecter does not answer a reset. -/
theorem synthesized_replies (dropped : List UInt8) (h : ¬ EndsBeforeProtocol dropped) (mtu : ℕ)
    (refusal : SpoofRefusal) (gwV4 : Octets 4) (gwV6 : Octets 16) :
    (∃ answer, buildFragNeeded dropped mtu gwV4 gwV6 = .ok answer
      ∧ ∀ reply ∈ answer, Proper dropped reply ∧ Unanswered reply)
    ∧ (∃ answer, rejectStaleSource dropped refusal gwV4 gwV6 = .ok answer
      ∧ ∀ reply ∈ answer, Proper dropped reply
        ∧ ((protoOf dropped = 6 ∧ Resets dropped reply ∧ IsReset reply)
          ∨ (protoOf dropped ≠ 6 ∧ Unanswered reply)))
    ∧ (IsReset dropped → rejectStaleSource dropped refusal gwV4 gwV6 = .ok none) := by
  refine ⟨?_, ?_, fun hreset => rejectStaleSource_of_reset hreset refusal gwV4 gwV6⟩
  · obtain ⟨answer, hanswer, hreplies⟩ := buildIcmpError_spec h (3, 4) (2, 0) (by decide)
      (by decide) (mtuRest mtu) gwV4 gwV6
    refine ⟨answer, hanswer, fun reply hreply => ?_⟩
    obtain ⟨hproper, herror⟩ := hreplies reply hreply
    exact ⟨hproper, unanswered_of_icmpError herror⟩
  · obtain ⟨answer, hanswer, hreplies⟩ := rejectStaleSource_spec h refusal gwV4 gwV6
    refine ⟨answer, hanswer, fun reply hreply => ?_⟩
    obtain ⟨hproper, ⟨htcp, hresets⟩ | ⟨htcp, herror⟩⟩ := hreplies reply hreply
    · exact ⟨hproper, .inl ⟨htcp, hresets, hresets.isReset⟩⟩
    · exact ⟨hproper, .inr ⟨htcp, unanswered_of_icmpError herror⟩⟩

def staleSegment : List UInt8 :=
  [0x45, 0, 0, 43, 0, 0, 0, 0, 64, 6, 0, 0, 192, 168, 1, 12, 93, 184, 216, 34,
    195, 80, 1, 187, 0, 0, 3, 232, 0, 0, 19, 136, 0x50, 0x10, 0, 0, 0, 0, 0, 0, 71, 69, 84]

theorem synthesized_replies_staleSegment :
    ¬ EndsBeforeProtocol staleSegment
      ∧ ∃ reply, uplinkRejectStaleSource staleSegment .v4Mismatch = .ok (some reply)
        ∧ Proper staleSegment reply ∧ Resets staleSegment reply := by
  obtain ⟨-, ⟨answer, hanswer, hreplies⟩, -⟩ := synthesized_replies staleSegment (by decide) 1280
    .v4Mismatch tunnelGatewayIp tunnelGatewayIpv6
  refine ⟨by decide, ?_⟩
  have hsome : (uplinkRejectStaleSource staleSegment .v4Mismatch).toOption.join.isSome = true := by
    decide +kernel
  rw [uplinkRejectStaleSource, hanswer] at hsome
  obtain ⟨reply, rfl⟩ := Option.isSome_iff_exists.mp hsome
  obtain ⟨hproper, ⟨-, hresets, -⟩ | ⟨hother, -⟩⟩ := hreplies reply rfl
  · exact ⟨reply, hanswer, hproper, hresets⟩
  · exact absurd rfl hother

/-- **Exactly when the builders panic**: on a packet that ends before its protocol byte, unless the
refusal is one that is not answered. -/
theorem builders_panic_iff (pkt : List UInt8) (mtu : ℕ) (refusal) (gwV4 gwV6) :
    ((∃ e, buildFragNeeded pkt mtu gwV4 gwV6 = .error e) ↔ EndsBeforeProtocol pkt) ∧
    ((∃ e, rejectStaleSource pkt refusal gwV4 gwV6 = .error e)
      ↔ EndsBeforeProtocol pkt ∧ refusal ≠ .malformed ∧ refusal ≠ .v6LinkLocal) := by
  constructor
  · constructor
    · rintro ⟨e, hpanic⟩
      by_contra h
      obtain ⟨answer, hanswer, -⟩ := buildIcmpError_spec h (3, 4) (2, 0) (by decide) (by decide)
        (mtuRest mtu) gwV4 gwV6
      cases hpanic.symm.trans hanswer
    · intro h
      rw [buildFragNeeded, buildIcmpError, isIcmpError_eq, if_pos h]
      exact ⟨_, rfl⟩
  · constructor
    · rintro ⟨e, hpanic⟩
      refine ⟨?_, ?_, ?_⟩
      · by_contra h
        obtain ⟨answer, hanswer, -⟩ := rejectStaleSource_spec h refusal gwV4 gwV6
        cases hpanic.symm.trans hanswer
      · rintro rfl
        cases hpanic
      · rintro rfl
        cases hpanic
    · rintro ⟨h, hmalformed, hlinkLocal⟩
      cases refusal with
      | malformed => exact absurd rfl hmalformed
      | v6LinkLocal => exact absurd rfl hlinkLocal
      | v4Mismatch | v6Unallocated | v6Mismatch =>
        rw [rejectStaleSource, isIcmpError_eq, if_pos h]
        exact ⟨_, rfl⟩

/-- One byte that claims to be IPv4 with a header of no length. -/
theorem one_byte_panics :
    uplinkFragNeeded [0x40] 1280 = .error .index
      ∧ uplinkRejectStaleSource [0x40] .v4Mismatch = .error .index := ⟨rfl, rfl⟩

end Reject

end WarrenGuard.StaleSource
