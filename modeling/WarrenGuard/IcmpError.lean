/-
ICMP errors about inner packets (`warrenguard-transport-core/src/inner_mtu.rs`).

The sender of a packet that does not fit the tunnel is told by an ICMP error.  The builders index
what they are given and what they write by hand, so they are modelled with checked reads and
writes, and a panic is a result of its own:

* `isIcmpError_eq` — `is_icmp_error` panics on what claims to be IPv4 and ends before byte 9
  (`EndsBeforeProtocol`);
* `buildIcmpError_cases` — on every other packet the builder returns nothing or a reply whose
  bytes are written out as `icmpReplyV4` or `icmpReplyV6`;
* `Proper` — what one asks of a reply (`properV4_packet`, `properV6_packet`);
* `buildIcmpError_spec` — every reply is proper, and is not answered
  (`buildIcmpError_of_icmpError`).
-/
import WarrenGuard.MssChecksum
import WarrenGuard.CheckedBytes

namespace WarrenGuard.InnerMtu

open ByteString OnesComplement CheckedBytes

/-! ### The builders -/

/-- `internet_checksum`: the words are added up in 32 bits and folded at the end. -/
def internetChecksum (seed : ℕ) (data : List UInt8) : Checked ℕ := do
  let sum ← u32 (seed + wordSum data)
  return 65535 - foldCarries sum

def icmpv6NextHeader : UInt8 := 58

def icmpv6PseudoSum (src dst : Octets 16) (icmpLen : ℕ) : Checked ℕ :=
  u32 (wordSum src.bytes + wordSum dst.bytes + icmpLen + icmpv6NextHeader.toNat)

def ihlOf (first : UInt8) : ℕ := (first &&& 0x0f).toNat * 4

variable (pkt : List UInt8)

def isIcmpError : Checked Bool :=
  match pkt.head? with
  | none => .ok false
  | some first =>
    if first >>> 4 = 4 then
      let ihl := ihlOf first
      if ihl < pkt.length then do
        let proto ← index pkt 9
        if proto = 1 then do
          let kind ← index pkt ihl
          return decide (kind ∈ [3, 4, 5, 11, 12])
        else return false
      else .ok false
    else if first >>> 4 = 6 ∧ ipv6Header < pkt.length then do
      let next ← index pkt 6
      if next = 58 then do
        let kind ← index pkt ipv6Header
        return decide (kind < 128)
      else return false
    else .ok false

/-- No multicast, broadcast, unspecified or loopback address. -/
def isUnicastV4 (addr : Octets 4) : Bool :=
  !(decide (224 ≤ byte addr.bytes 0 ∧ byte addr.bytes 0 < 240)
    || decide (addr.bytes = [255, 255, 255, 255]) || decide (addr.bytes = [0, 0, 0, 0])
    || decide (byte addr.bytes 0 = 127))

def isUnicastV6 (addr : Octets 16) : Bool :=
  !(decide (byte addr.bytes 0 = 0xff) || decide (addr.bytes = List.replicate 16 0)
    || decide (addr.bytes = List.replicate 15 0 ++ [1]))

/-- The ICMP header without its checksum, and the quote, into a packet whose ICMP message
starts at `icmp`. -/
def writeIcmp (icmp : ℕ) (kind : UInt8 × UInt8) (rest : Octets 4)
    (dropped : List UInt8) (quoteLen : ℕ) : Checked (List UInt8) := do
  let quote ← window dropped 0 quoteLen
  writeAll pkt [⟨icmp, icmp + 1, [kind.1]⟩, ⟨icmp + 1, icmp + 2, [kind.2]⟩,
    ⟨icmp + 4, icmp + 8, rest.bytes⟩, ⟨icmp + 8, icmp + 8 + quoteLen, quote⟩]

variable (dropped : List UInt8)

/-- The IPv4 branch of `build_icmp_error`. -/
def icmpErrorV4 (kind : UInt8 × UInt8) (rest : Octets 4)
    (gwV4 : Octets 4) : Checked (Option (List UInt8)) := do
  let first ← index dropped 0
  let ihl := ihlOf first
  if ihl < ipv4MinHeader ∨ dropped.length < ihl then return none
  else
    match Octets.ofList? 4 (← window dropped 12 16) with
    | none => return none
    | some src =>
      if ¬ isUnicastV4 src then return none
      else
        -- the header and the first 8 bytes behind it are quoted
        let quoteLen := min (ihl + 8) dropped.length
        let total := ipv4MinHeader + 8 + quoteLen
        let pkt ← writeAll (List.replicate total 0)
          [⟨0, 1, [0x45]⟩, ⟨2, 4, be16 total⟩, ⟨8, 9, [64]⟩, ⟨9, 10, [1]⟩,
            ⟨12, 16, gwV4.bytes⟩, ⟨16, 20, src.bytes⟩]
        let ipCk ← internetChecksum 0 (← window pkt 0 ipv4MinHeader)
        let pkt ← write pkt ⟨10, 12, be16 ipCk⟩
        let pkt ← writeIcmp pkt ipv4MinHeader kind rest dropped quoteLen
        let icmpCk ← internetChecksum 0 (← window pkt ipv4MinHeader pkt.length)
        let pkt ← write pkt ⟨ipv4MinHeader + 2, ipv4MinHeader + 4, be16 icmpCk⟩
        return some pkt

/-- The IPv6 branch of `build_icmp_error`. -/
def icmpErrorV6 (kind : UInt8 × UInt8) (rest : Octets 4)
    (gwV6 : Octets 16) : Checked (Option (List UInt8)) := do
  if dropped.length < ipv6Header then return none
  else
    match Octets.ofList? 16 (← window dropped 8 24) with
    | none => return none
    | some src =>
      if ¬ isUnicastV6 src then return none
      else
        -- as much is quoted as fits in 1280 bytes
        let quoteLen := min dropped.length (1280 - ipv6Header - 8)
        let icmpLen := 8 + quoteLen
        let total := ipv6Header + icmpLen
        let pkt ← writeAll (List.replicate total 0)
          [⟨0, 1, [0x60]⟩, ⟨4, 6, be16 icmpLen⟩, ⟨6, 7, [58]⟩, ⟨7, 8, [64]⟩,
            ⟨8, 24, gwV6.bytes⟩, ⟨24, 40, src.bytes⟩]
        let pkt ← writeIcmp pkt ipv6Header kind rest dropped quoteLen
        let seed ← icmpv6PseudoSum gwV6 src icmpLen
        let icmpCk ← internetChecksum seed (← window pkt ipv6Header pkt.length)
        let pkt ← write pkt ⟨ipv6Header + 2, ipv6Header + 4, be16 icmpCk⟩
        return some pkt

def buildIcmpError (v4 v6 : UInt8 × UInt8) (rest : Octets 4)
    (gwV4 : Octets 4) (gwV6 : Octets 16) : Checked (Option (List UInt8)) := do
  if ← isIcmpError dropped then return none
  else
    match dropped.head? with
    | none => return none
    | some first =>
      if first >>> 4 = 4 then icmpErrorV4 dropped v4 rest gwV4
      else if first >>> 4 = 6 then icmpErrorV6 dropped v6 rest gwV6
      else return none

def mtuRest (mtu : ℕ) : Octets 4 := ⟨[0, 0] ++ be16 mtu, rfl⟩

def buildFragNeeded (effectiveMtu : ℕ) (gwV4 : Octets 4)
    (gwV6 : Octets 16) : Checked (Option (List UInt8)) :=
  buildIcmpError dropped (3, 4) (2, 0) (mtuRest effectiveMtu) gwV4 gwV6

/-- `10.66.0.1`. -/
def tunnelGatewayIp : Octets 4 := ⟨[10, 66, 0, 1], rfl⟩

/-- `fdcc:f:1::1`. -/
def tunnelGatewayIpv6 : Octets 16 :=
  ⟨[0xfd, 0xcc, 0, 0x0f, 0, 1, 0, 0, 0, 0, 0, 0, 0, 0, 0, 1], rfl⟩

def uplinkFragNeeded (budget : ℕ) : Checked (Option (List UInt8)) :=
  buildFragNeeded dropped budget tunnelGatewayIp tunnelGatewayIpv6

/-! ### Where they panic -/

/-- The packet claims to be IPv4, is longer than the header length it states, and ends before
the protocol field. -/
def EndsBeforeProtocol : Prop :=
  byte pkt 0 >>> 4 = 4 ∧ ihlOf (byte pkt 0) < pkt.length ∧ pkt.length ≤ 9

instance : Decidable (EndsBeforeProtocol pkt) :=
  inferInstanceAs (Decidable (_ ∧ _ ∧ _))

def IcmpError : Prop :=
  (byte pkt 0 >>> 4 = 4 ∧ ihlOf (byte pkt 0) < pkt.length ∧ byte pkt 9 = 1
      ∧ byte pkt (ihlOf (byte pkt 0)) ∈ [3, 4, 5, 11, 12])
    ∨ (byte pkt 0 >>> 4 = 6 ∧ ipv6Header < pkt.length ∧ byte pkt 6 = 58
      ∧ byte pkt ipv6Header < 128)

instance : Decidable (IcmpError pkt) := inferInstanceAs (Decidable (_ ∨ _))

theorem head?_of_length_pos {pkt : List UInt8} (h : 0 < pkt.length) :
    pkt.head? = some (byte pkt 0) := by
  cases pkt with
  | nil => cases h
  | cons first rest => rfl

/-- **`is_icmp_error`**: it panics on the packets that end before the protocol field, and on
all others it is right. -/
theorem isIcmpError_eq :
    isIcmpError pkt
      = if EndsBeforeProtocol pkt then .error .index else .ok (decide (IcmpError pkt)) := by
  rcases Nat.eq_zero_or_pos pkt.length with hnil | hpos
  · obtain rfl := List.length_eq_zero_iff.mp hnil
    decide
  unfold isIcmpError
  rw [head?_of_length_pos hpos]
  dsimp only
  by_cases h4 : byte pkt 0 >>> 4 = 4
  · rw [if_pos h4]
    by_cases hlen : ihlOf (byte pkt 0) < pkt.length
    · rw [if_pos hlen]
      by_cases hnine : pkt.length ≤ 9
      · rw [if_pos ⟨h4, hlen, hnine⟩, index, if_neg (by omega)]
        rfl
      · rw [if_neg (fun h => hnine h.2.2), index_of_lt (by omega), ok_bind, index_of_lt hlen]
        by_cases hproto : byte pkt 9 = 1
        · rw [if_pos hproto, ok_bind]
          exact congrArg Except.ok (decide_eq_decide.mpr (by simp [IcmpError, h4, hlen, hproto]))
        · rw [if_neg hproto]
          exact congrArg Except.ok (by simp [IcmpError, h4, hproto])
    · rw [if_neg hlen, if_neg (fun h => hlen h.2.1)]
      exact congrArg Except.ok (by simp [IcmpError, h4, hlen])
  · rw [if_neg h4, if_neg (fun h : EndsBeforeProtocol pkt => h4 h.1)]
    by_cases h6 : byte pkt 0 >>> 4 = 6 ∧ ipv6Header < pkt.length
    · obtain ⟨hsix, hlen⟩ := h6
      rw [if_pos ⟨hsix, hlen⟩, index_of_lt (by unfold ipv6Header at hlen; omega), ok_bind,
        index_of_lt hlen]
      by_cases hnext : byte pkt 6 = 58
      · rw [if_pos hnext, ok_bind]
        exact congrArg Except.ok (decide_eq_decide.mpr (by simp [IcmpError, hsix, hlen, hnext]))
      · rw [if_neg hnext]
        exact congrArg Except.ok (by simp [IcmpError, hsix, hnext])
    · rw [if_neg h6]
      refine congrArg Except.ok (decide_eq_false ?_).symm
      rintro (⟨h, -⟩ | ⟨hsix, hlen, -⟩)
      · exact h4 h
      · exact h6 ⟨hsix, hlen⟩

/-! ### The replies, byte by byte -/

def ipv4Head (total : ℕ) (proto : UInt8) (src dst : Octets 4) : List UInt8 :=
  [0x45, 0] ++ be16 total ++ [0, 0, 0, 0, 64, proto, 0, 0] ++ src.bytes ++ dst.bytes

def ipv6Head (payload : ℕ) (next : UInt8) (src dst : Octets 16) : List UInt8 :=
  [0x60, 0, 0, 0] ++ be16 payload ++ [next, 64] ++ src.bytes ++ dst.bytes

def icmpBody (kind : UInt8 × UInt8) (rest : Octets 4) (quote : List UInt8) : List UInt8 :=
  [kind.1, kind.2, 0, 0] ++ rest.bytes ++ quote

def sealAt (seed i : ℕ) (bs : List UInt8) : List UInt8 :=
  patch bs i (be16 (65535 - foldCarries (seed + wordSum bs)))

def ipv4Packet (proto : UInt8) (src dst : Octets 4) (body : List UInt8) : List UInt8 :=
  sealAt 0 10 (ipv4Head (20 + body.length) proto src dst) ++ body

def ipv6Packet (next : UInt8) (src dst : Octets 16) (body : List UInt8) : List UInt8 :=
  ipv6Head body.length next src dst ++ body

def icmpReplyV4 (kind : UInt8 × UInt8) (rest gw src : Octets 4) (quote : List UInt8) :
    List UInt8 :=
  ipv4Packet 1 gw src (sealAt 0 2 (icmpBody kind rest quote))

def icmpReplyV6 (kind : UInt8 × UInt8) (rest : Octets 4) (gw src : Octets 16)
    (quote : List UInt8) : List UInt8 :=
  ipv6Packet 58 gw src
    (sealAt (wordSum gw.bytes + wordSum src.bytes + (8 + quote.length) + 58) 2
      (icmpBody kind rest quote))

theorem length_ipv4Head (total : ℕ) (proto : UInt8) (src dst : Octets 4) :
    (ipv4Head total proto src dst).length = 20 := by
  simp [ipv4Head, be16, src.length_eq, dst.length_eq]

theorem length_ipv6Head (payload : ℕ) (next : UInt8) (src dst : Octets 16) :
    (ipv6Head payload next src dst).length = 40 := by
  simp [ipv6Head, be16, src.length_eq, dst.length_eq]

variable {hdr tail : List UInt8} {seed : ℕ}

theorem length_sealAt {seed i : ℕ} {bs : List UInt8} (h : i + 2 ≤ bs.length) :
    (sealAt seed i bs).length = bs.length := length_patch h

theorem length_icmpBody (kind : UInt8 × UInt8) (rest : Octets 4) (quote : List UInt8) :
    (icmpBody kind rest quote).length = 8 + quote.length := by
  simp [icmpBody, rest.length_eq]
  omega

theorem writeAll_ipv4Head (total : ℕ) (proto : UInt8) (src dst : Octets 4) (tail) :
    writeAll (List.replicate 20 0 ++ tail)
        [⟨0, 1, [0x45]⟩, ⟨2, 4, be16 total⟩, ⟨8, 9, [64]⟩, ⟨9, 10, [proto]⟩,
          ⟨12, 16, src.bytes⟩, ⟨16, 20, dst.bytes⟩]
      = .ok (ipv4Head total proto src dst ++ tail) := by
  have hsrc := src.length_eq
  have hdst := dst.length_eq
  rw [writeAll_of_fits (by simp [Write.Fits, be16, hsrc, hdst]),
    patchAll_append_left (by simp [Write.Fits, be16, hsrc, hdst])]
  obtain ⟨a, b, c, d, hs⟩ := src.four
  obtain ⟨a', b', c', d', hd⟩ := dst.four
  rw [ipv4Head, hs, hd]
  rfl

theorem writeAll_ipv6Head (payload : ℕ) (next : UInt8) (src dst : Octets 16) (tail) :
    writeAll (List.replicate 40 0 ++ tail)
        [⟨0, 1, [0x60]⟩, ⟨4, 6, be16 payload⟩, ⟨6, 7, [next]⟩, ⟨7, 8, [64]⟩,
          ⟨8, 24, src.bytes⟩, ⟨24, 40, dst.bytes⟩]
      = .ok (ipv6Head payload next src dst ++ tail) := by
  have hsrc := src.length_eq
  have hdst := dst.length_eq
  rw [writeAll_of_fits (by simp [Write.Fits, be16, hsrc, hdst])]
  -- the first eight bytes, and the two addresses one after the other
  show Except.ok (patch (patch (([0x60, 0, 0, 0] ++ be16 payload ++ [next, 64])
    ++ (List.replicate 16 0 ++ (List.replicate 16 0 ++ tail))) 8 src.bytes) 24 dst.bytes) = _
  rw [patch_middle (by simp [be16]) (by rw [hsrc, List.length_replicate]), ← List.append_assoc,
    patch_middle (by simp [be16, hsrc]) (by rw [hdst, List.length_replicate])]
  simp [ipv6Head]

theorem writeIcmp_eq {icmp : ℕ} (hhdr : hdr.length = icmp)
    (kind : UInt8 × UInt8) (rest : Octets 4) {dropped : List UInt8} {quoteLen : ℕ}
    (hquote : quoteLen ≤ dropped.length) :
    writeIcmp (hdr ++ List.replicate (8 + quoteLen) 0) icmp kind rest dropped quoteLen
      = .ok (hdr ++ icmpBody kind rest (dropped.take quoteLen)) := by
  have hrest := rest.length_eq
  have htake : (dropped.take quoteLen).length = quoteLen := by
    rw [List.length_take]
    omega
  have hslice : slice dropped 0 (quoteLen - 0) = dropped.take quoteLen := by
    rw [slice, List.drop_zero, Nat.sub_zero]
  rw [writeIcmp, window_of_le (Nat.zero_le _) hquote, ok_bind, hslice, writeAll_of_fits]
  · have hzeros : List.replicate (8 + quoteLen) (0 : UInt8)
        = [0] ++ ([0] ++ ([0, 0] ++ (List.replicate 4 0
          ++ (List.replicate quoteLen 0 ++ [])))) := by
      rw [← List.replicate_append_replicate, List.append_nil]
      rfl
    simp only [patchAll, List.foldl_cons, List.foldl_nil]
    rw [hzeros, patch_middle hhdr (by rfl), ← List.append_assoc,
      patch_middle (by simp [hhdr]) (by rfl), ← List.append_assoc, ← List.append_assoc,
      patch_middle (by simp [hhdr]) (by rw [hrest]; rfl), ← List.append_assoc,
      patch_middle (by simp [hhdr, hrest]) (by rw [htake, List.length_replicate])]
    simp [icmpBody]
  · simp only [Write.Fits, List.forall_mem_cons, List.length_append, List.length_replicate, hhdr,
      hrest, htake, List.length_cons, List.length_nil]
    simp
    omega

theorem internetChecksum_eq {data : List UInt8} (h : seed + wordSum data < 4294967296) :
    internetChecksum seed data = .ok (65535 - foldCarries (seed + wordSum data)) := by
  rw [internetChecksum, u32_of_lt h]
  rfl

theorem seal_head (hhdr : hdr.length = 20) {β : Type} (next : List UInt8 → Checked β) :
    (do let ck ← internetChecksum 0 (← window (hdr ++ tail) 0 ipv4MinHeader)
        let pkt ← write (hdr ++ tail) ⟨10, 12, be16 ck⟩
        next pkt) = next (sealAt 0 10 hdr ++ tail) := by
  have hwindow : window (hdr ++ tail) 0 ipv4MinHeader = .ok hdr := by
    rw [window_of_le (Nat.zero_le _) (by simp [hhdr, ipv4MinHeader])]
    exact congrArg Except.ok (List.take_left' hhdr)
  have hsum := wordSum_le hdr
  rw [hwindow, ok_bind, internetChecksum_eq (by omega), ok_bind, write_of_fits, ok_bind,
    patch_append_left (by simp [be16, hhdr]), sealAt]
  refine ⟨by simp, by simp [hhdr]; omega, by simp [be16]⟩

theorem seal_body {hdr body : List UInt8} {n seed : ℕ} (hhdr : hdr.length = n)
    (hbody : 4 ≤ body.length) (hseed : seed + wordSum body < 4294967296) {β : Type}
    (next : List UInt8 → Checked β) :
    (do let ck ← internetChecksum seed (← window (hdr ++ body) n (hdr ++ body).length)
        let pkt ← write (hdr ++ body) ⟨n + 2, n + 4, be16 ck⟩
        next pkt) = next (hdr ++ sealAt seed 2 body) := by
  have hwindow : window (hdr ++ body) n (hdr ++ body).length = .ok body := by
    rw [window_of_le (by simp [hhdr]) (Nat.le_refl _)]
    refine congrArg Except.ok ?_
    rw [List.length_append, hhdr, Nat.add_sub_cancel_left, slice, List.drop_left' hhdr,
      List.take_length]
  rw [hwindow, ok_bind, internetChecksum_eq hseed, ok_bind, write_of_fits, ok_bind,
    patch_append_right (by simp; omega), hhdr, Nat.add_sub_cancel_left, sealAt]
  refine ⟨by simp, by simp [hhdr]; omega, by simp [be16]⟩

theorem ihlOf_le (first : UInt8) : ihlOf first ≤ 60 := by
  have h : (first &&& 0x0f).toNat ≤ 15 := by
    rw [UInt8.toNat_and]
    exact Nat.and_le_right
  unfold ihlOf
  omega

/-- There is a whole IPv4 header, and its source is no multicast, broadcast, unspecified or
loopback address. -/
def AnswerableV4 : Prop :=
  (ipv4MinHeader ≤ ihlOf (byte pkt 0) ∧ ihlOf (byte pkt 0) ≤ pkt.length) ∧
    (Octets.ofList? 4 (slice pkt 12 4)).any isUnicastV4 = true

/-- There is a whole IPv6 header, and its source is no multicast, unspecified or loopback
address. -/
def AnswerableV6 : Prop :=
  ipv6Header ≤ pkt.length ∧ (Octets.ofList? 16 (slice pkt 8 16)).any isUnicastV6 = true

instance : Decidable (AnswerableV4 pkt) :=
  inferInstanceAs (Decidable (_ ∧ _))

instance : Decidable (AnswerableV6 pkt) :=
  inferInstanceAs (Decidable (_ ∧ _))

/-- **The IPv4 branch** returns nothing, or the reply to the packet's source. -/
theorem icmpErrorV4_cases {dropped : List UInt8} (hpos : 0 < dropped.length)
    (kind : UInt8 × UInt8) (rest gw : Octets 4) :
    (¬ AnswerableV4 dropped ∧ icmpErrorV4 dropped kind rest gw = .ok none) ∨
      (AnswerableV4 dropped ∧ ∃ src : Octets 4, ∃ n, src.bytes = slice dropped 12 4 ∧ n ≤ 68 ∧
        icmpErrorV4 dropped kind rest gw
          = .ok (some (icmpReplyV4 kind rest gw src (dropped.take n)))) := by
  unfold icmpErrorV4
  rw [index_of_lt hpos, ok_bind]
  dsimp only
  split
  · rename_i hihl
    refine .inl ⟨fun h => ?_, rfl⟩
    obtain ⟨⟨hmin, hend⟩, -⟩ := h
    omega
  rename_i hihl
  have hle := ihlOf_le (byte dropped 0)
  unfold ipv4MinHeader at hihl
  obtain ⟨src, hsrc, hof⟩ := Octets.exists_ofList?
    (length_slice (show 12 + 4 ≤ dropped.length by omega))
  have hanswerable : AnswerableV4 dropped ↔ isUnicastV4 src = true := by
    rw [AnswerableV4, hof, Option.any_some, ipv4MinHeader]
    exact and_iff_right ⟨by omega, by omega⟩
  rw [window_of_le (by omega) (by omega), ok_bind, hof, hanswerable]
  dsimp only
  split
  · rename_i hunicast
    exact .inl ⟨hunicast, rfl⟩
  rename_i hunicast
  generalize hn : min (ihlOf (byte dropped 0) + 8) dropped.length = n
  have hquote : (dropped.take n).length = n := by
    rw [List.length_take]
    omega
  refine .inr ⟨not_not.mp hunicast, src, n, hsrc, by omega, ?_⟩
  have hzeros : List.replicate (ipv4MinHeader + 8 + n) (0 : UInt8)
      = List.replicate 20 0 ++ List.replicate (8 + n) 0 := by
    rw [List.replicate_append_replicate, ← Nat.add_assoc]
    rfl
  have hsum := wordSum_le (icmpBody kind rest (dropped.take n))
  have hbody := length_icmpBody kind rest (dropped.take n)
  have hhdr : (sealAt 0 10 (ipv4Head (ipv4MinHeader + 8 + n) 1 gw src)).length
      = ipv4MinHeader := by
    rw [length_sealAt (by rw [length_ipv4Head]; omega), length_ipv4Head]
    rfl
  rw [hzeros, writeAll_ipv4Head, ok_bind, seal_head (length_ipv4Head _ _ _ _),
    writeIcmp_eq hhdr kind rest (by omega), ok_bind, seal_body hhdr (by omega) (by omega),
    icmpReplyV4, ipv4Packet, length_sealAt (by omega), hbody, hquote, ← Nat.add_assoc]
  rfl

/-- **The IPv6 branch**, likewise. -/
theorem icmpErrorV6_cases (kind : UInt8 × UInt8) (rest : Octets 4)
    (gw : Octets 16) :
    (¬ AnswerableV6 dropped ∧ icmpErrorV6 dropped kind rest gw = .ok none) ∨
      (AnswerableV6 dropped ∧ ∃ src : Octets 16, ∃ n, src.bytes = slice dropped 8 16 ∧ n ≤ 1232 ∧
        icmpErrorV6 dropped kind rest gw
          = .ok (some (icmpReplyV6 kind rest gw src (dropped.take n)))) := by
  unfold icmpErrorV6
  split
  · rename_i hshort
    exact .inl ⟨fun h => absurd hshort (Nat.not_lt.mpr h.1), rfl⟩
  rename_i hshort
  unfold ipv6Header at hshort
  obtain ⟨src, hsrc, hof⟩ := Octets.exists_ofList?
    (length_slice (show 8 + 16 ≤ dropped.length by omega))
  have hanswerable : AnswerableV6 dropped ↔ isUnicastV6 src = true := by
    rw [AnswerableV6, hof, Option.any_some, ipv6Header]
    exact and_iff_right (by omega)
  rw [window_of_le (by omega) (by omega), ok_bind, hof, hanswerable]
  dsimp only
  split
  · rename_i hunicast
    exact .inl ⟨hunicast, rfl⟩
  rename_i hunicast
  generalize hn : min dropped.length (1280 - ipv6Header - 8) = n
  unfold ipv6Header at hn
  have hquote : (dropped.take n).length = n := by
    rw [List.length_take]
    omega
  refine .inr ⟨not_not.mp hunicast, src, n, hsrc, by omega, ?_⟩
  have hzeros : List.replicate (ipv6Header + (8 + n)) (0 : UInt8)
      = List.replicate 40 0 ++ List.replicate (8 + n) 0 := by
    rw [List.replicate_append_replicate]
    rfl
  have hsum := wordSum_le (icmpBody kind rest (dropped.take n))
  have hbody := length_icmpBody kind rest (dropped.take n)
  have hgwSum := wordSum_le gw.bytes
  have hsrcSum := wordSum_le src.bytes
  rw [gw.length_eq] at hgwSum
  rw [src.length_eq] at hsrcSum
  have hseed : icmpv6PseudoSum gw src (8 + n)
      = .ok (wordSum gw.bytes + wordSum src.bytes + (8 + n) + 58) :=
    u32_of_lt (show _ + 58 < _ by omega)
  have hhdr : (ipv6Head (8 + n) 58 gw src).length = ipv6Header := length_ipv6Head _ _ _ _
  rw [hzeros, writeAll_ipv6Head, ok_bind, writeIcmp_eq hhdr kind rest (by omega), ok_bind, hseed,
    ok_bind, seal_body hhdr (by omega) (by omega), icmpReplyV6, ipv6Packet,
    length_sealAt (by omega), hbody, hquote]
  rfl

/-- The packet is no ICMP error, and has a header of its version with a source to answer to. -/
def Answerable : Prop :=
  ¬ IcmpError pkt ∧
    ((byte pkt 0 >>> 4 = 4 ∧ AnswerableV4 pkt) ∨ (byte pkt 0 >>> 4 = 6 ∧ AnswerableV6 pkt))

instance : Decidable (Answerable pkt) := inferInstanceAs (Decidable (_ ∧ _))

/-- **What `build_icmp_error` returns** on a packet that does not make it panic. -/
theorem buildIcmpError_cases {dropped : List UInt8} (h : ¬ EndsBeforeProtocol dropped)
    (v4 v6 : UInt8 × UInt8) (rest gwV4 : Octets 4) (gwV6 : Octets 16) :
    (¬ Answerable dropped ∧ buildIcmpError dropped v4 v6 rest gwV4 gwV6 = .ok none)
      ∨ (Answerable dropped ∧ byte dropped 0 >>> 4 = 4 ∧ ∃ src : Octets 4, ∃ n,
        src.bytes = slice dropped 12 4 ∧ n ≤ 68 ∧ buildIcmpError dropped v4 v6 rest gwV4 gwV6
          = .ok (some (icmpReplyV4 v4 rest gwV4 src (dropped.take n))))
      ∨ (Answerable dropped ∧ byte dropped 0 >>> 4 = 6 ∧ ∃ src : Octets 16, ∃ n,
        src.bytes = slice dropped 8 16 ∧ n ≤ 1232 ∧ buildIcmpError dropped v4 v6 rest gwV4 gwV6
          = .ok (some (icmpReplyV6 v6 rest gwV6 src (dropped.take n)))) := by
  unfold buildIcmpError
  rw [isIcmpError_eq, if_neg h, ok_bind]
  split
  · rename_i herror
    exact .inl ⟨fun ha => ha.1 (of_decide_eq_true herror), rfl⟩
  rename_i herror
  rcases Nat.eq_zero_or_pos dropped.length with hnil | hpos
  · obtain rfl := List.length_eq_zero_iff.mp hnil
    exact .inl ⟨by decide, rfl⟩
  have hother : ¬ IcmpError dropped := fun h => herror (decide_eq_true h)
  rw [head?_of_length_pos hpos]
  dsimp only
  split
  · rename_i hv4
    have hv6 : byte dropped 0 >>> 4 ≠ 6 := by
      rw [hv4]
      decide
    rcases icmpErrorV4_cases hpos v4 rest gwV4 with ⟨hno, hnone⟩ | ⟨hyes, hsome⟩
    · exact .inl ⟨fun ha => ha.2.elim (fun h => hno h.2) (fun h => hv6 h.1), hnone⟩
    · exact .inr (.inl ⟨⟨hother, .inl ⟨hv4, hyes⟩⟩, hv4, hsome⟩)
  rename_i hv4
  split
  · rename_i hv6
    rcases icmpErrorV6_cases dropped v6 rest gwV6 with ⟨hno, hnone⟩ | ⟨hyes, hsome⟩
    · exact .inl ⟨fun ha => ha.2.elim (fun h => hv4 h.1) (fun h => hno h.2), hnone⟩
    · exact .inr (.inr ⟨⟨hother, .inr ⟨hv6, hyes⟩⟩, hv6, hsome⟩)
  · rename_i hv6
    exact .inl ⟨fun ha => ha.2.elim (fun h => hv4 h.1) (fun h => hv6 h.1), rfl⟩

/-! ### What one asks of a reply -/

def Icmpv6ChecksumValid : Prop :=
  ChecksumValid (wordSum (slice pkt 8 32) + 58 + (pkt.length - 40)) (pkt.drop 40)

instance : Decidable (Icmpv6ChecksumValid pkt) :=
  inferInstanceAs (Decidable (ChecksumValid _ _))

/-- An IPv4 packet without options, whole and with valid checksums, to the source of
`dropped`. -/
structure ProperV4 (dropped reply : List UInt8) : Prop where
  family : byte dropped 0 >>> 4 = 4
  version : byte reply 0 = 0x45
  total : beNat (slice reply 2 2) = reply.length
  head : ChecksumValid 0 (reply.take 20)
  addressed : slice reply 16 4 = slice dropped 12 4
  carries : (byte reply 9 = 1 ∧ ChecksumValid 0 (reply.drop 20))
    ∨ (byte reply 9 = 6 ∧ TcpChecksumValid reply 20 false reply.length)

/-- An IPv6 packet of at most 1280 bytes, likewise. -/
structure ProperV6 (dropped reply : List UInt8) : Prop where
  family : byte dropped 0 >>> 4 = 6
  version : byte reply 0 >>> 4 = 6
  payload : 40 + beNat (slice reply 4 2) = reply.length
  addressed : slice reply 24 16 = slice dropped 8 16
  carries : (byte reply 6 = 58 ∧ Icmpv6ChecksumValid reply)
    ∨ (byte reply 6 = 6 ∧ TcpChecksumValid reply 40 true reply.length)
  small : reply.length ≤ 1280

def Proper (dropped reply : List UInt8) : Prop := ProperV4 dropped reply ∨ ProperV6 dropped reply

section Packets

variable {dropped body : List UInt8} {proto : UInt8}

variable {dst src : Octets 4}

theorem ipv4Packet_eq (proto src dst body) :
    ∃ ck, ipv4Packet proto src dst body = [0x45, 0] ++ be16 (20 + body.length)
      ++ [0, 0, 0, 0, 64, proto] ++ be16 ck ++ src.bytes ++ dst.bytes ++ body := by
  refine ⟨65535 - foldCarries (0 + wordSum (ipv4Head (20 + body.length) proto src dst)), ?_⟩
  obtain ⟨a, b, c, d, hs⟩ := src.four
  obtain ⟨a', b', c', d', hd⟩ := dst.four
  rw [ipv4Packet, sealAt, ipv4Head, hs, hd]
  rfl

theorem byte_zero_ipv4Packet (proto src dst body) :
    byte (ipv4Packet proto src dst body) 0 = 0x45 := by
  obtain ⟨ck, hck⟩ := ipv4Packet_eq proto src dst body
  rw [hck]
  rfl

theorem byte_proto_ipv4Packet (proto src dst body) :
    byte (ipv4Packet proto src dst body) 9 = proto := by
  obtain ⟨ck, hck⟩ := ipv4Packet_eq proto src dst body
  rw [hck]
  rfl

theorem length_ipv4Packet (proto src dst body) :
    (ipv4Packet proto src dst body).length = 20 + body.length := by
  rw [ipv4Packet, List.length_append, length_sealAt (by rw [length_ipv4Head]; omega),
    length_ipv4Head]

theorem length_ipv6Packet (next : UInt8) (src dst : Octets 16) (body) :
    (ipv6Packet next src dst body).length = 40 + body.length := by
  rw [ipv6Packet, List.length_append, length_ipv6Head]

theorem drop_ipv4Packet (proto src dst body) :
    (ipv4Packet proto src dst body).drop 20 = body := by
  rw [ipv4Packet]
  exact List.drop_left' (by rw [length_sealAt (by rw [length_ipv4Head]; omega), length_ipv4Head])

theorem drop_ipv6Packet (next : UInt8) (src dst : Octets 16) (body) :
    (ipv6Packet next src dst body).drop 40 = body := List.drop_left' (length_ipv6Head _ _ _ _)

theorem properV4_packet (hfamily : byte dropped 0 >>> 4 = 4)
    (hdst : dst.bytes = slice dropped 12 4) (hlen : 20 + body.length < 65536)
    (hbody : (proto = 1 ∧ ChecksumValid 0 body) ∨ (proto = 6
      ∧ ChecksumValid (wordSum src.bytes + wordSum dst.bytes + 6 + body.length) body)) :
    ProperV4 dropped (ipv4Packet proto src dst body) := by
  have hdrop := drop_ipv4Packet proto src dst body
  have hlength := length_ipv4Packet proto src dst body
  have hhead : ChecksumValid 0 ((ipv4Packet proto src dst body).take 20) := by
    rw [ipv4Packet, List.take_left' (by rw [length_sealAt (by rw [length_ipv4Head]; omega),
      length_ipv4Head])]
    exact checksumValid_write (by rw [length_ipv4Head]; omega) rfl rfl
  obtain ⟨ck, hck⟩ := ipv4Packet_eq proto src dst body
  obtain ⟨a, b, c, d, hs⟩ := src.four
  obtain ⟨a', b', c', d', hd⟩ := dst.four
  have htotal : slice (ipv4Packet proto src dst body) 2 2 = be16 (20 + body.length) := by
    rw [hck]
    rfl
  have hdest : slice (ipv4Packet proto src dst body) 16 4 = dst.bytes := by
    rw [hck, hs, hd]
    rfl
  have haddrs : slice (ipv4Packet proto src dst body) 12 8 = src.bytes ++ dst.bytes := by
    rw [hck, hs, hd]
    rfl
  have hproto := byte_proto_ipv4Packet proto src dst body
  refine ⟨hfamily, byte_zero_ipv4Packet proto src dst body, ?_, hhead, hdest.trans hdst, ?_⟩
  · rw [htotal, beNat_be16 hlen, hlength]
  · rcases hbody with ⟨rfl, hvalid⟩ | ⟨rfl, hvalid⟩
    · refine .inl ⟨hproto, ?_⟩
      rw [hdrop]
      exact hvalid
    · refine .inr ⟨hproto, ?_⟩
      have hseg : slice (ipv4Packet 6 src dst body) 20 body.length = body := by
        rw [slice, hdrop, List.take_length]
      rw [TcpChecksumValid, tcpPseudoSum, hlength, Nat.add_sub_cancel_left, hseg,
        if_neg Bool.false_ne_true, haddrs, wordSum_append (by rw [src.length_eq])]
      exact hvalid

theorem properV6_packet {src dst : Octets 16} (hfamily : byte dropped 0 >>> 4 = 6)
    (hdst : dst.bytes = slice dropped 8 16) (hlen : 40 + body.length ≤ 1280)
    (hproto : proto = 58 ∨ proto = 6)
    (hvalid : ChecksumValid
      (wordSum src.bytes + wordSum dst.bytes + proto.toNat + body.length) body) :
    ProperV6 dropped (ipv6Packet proto src dst body) := by
  have hdrop := drop_ipv6Packet proto src dst body
  have hlength := length_ipv6Packet proto src dst body
  have hform : ipv6Packet proto src dst body = ([0x60, 0, 0, 0] ++ be16 body.length ++ [proto, 64])
      ++ ((src.bytes ++ dst.bytes) ++ body) := by
    simp [ipv6Packet, ipv6Head]
  have hdest : slice (ipv6Packet proto src dst body) 24 16 = dst.bytes := by
    rw [hform, List.append_assoc src.bytes, ← List.append_assoc]
    exact slice_middle (by simp [be16, src.length_eq]) dst.length_eq
  have haddrs : slice (ipv6Packet proto src dst body) 8 32 = src.bytes ++ dst.bytes := by
    rw [hform]
    exact slice_middle (by simp [be16]) (by simp [src.length_eq, dst.length_eq])
  have hfirst : byte (ipv6Packet proto src dst body) 0 = 0x60 := rfl
  have hnext : byte (ipv6Packet proto src dst body) 6 = proto := rfl
  have hpayload : slice (ipv6Packet proto src dst body) 4 2 = be16 body.length := rfl
  refine ⟨hfamily, by rw [hfirst]; rfl, ?_, hdest.trans hdst, ?_, by omega⟩
  · rw [hpayload, beNat_be16 (by omega), hlength]
  · have hsum : wordSum (slice (ipv6Packet proto src dst body) 8 32)
        = wordSum src.bytes + wordSum dst.bytes := by
      rw [haddrs, wordSum_append (by rw [src.length_eq])]
    rcases hproto with rfl | rfl
    · refine .inl ⟨hnext, ?_⟩
      rw [Icmpv6ChecksumValid, hsum, hdrop, hlength, Nat.add_sub_cancel_left]
      exact hvalid
    · refine .inr ⟨hnext, ?_⟩
      have hseg : slice (ipv6Packet 6 src dst body) 40 body.length = body := by
        rw [slice, hdrop, List.take_length]
      rw [TcpChecksumValid, tcpPseudoSum, hlength, Nat.add_sub_cancel_left, hseg, if_pos rfl, hsum]
      exact hvalid

end Packets

/-! ### The replies -/

section Replies

variable {dropped quote : List UInt8} {kind : UInt8 × UInt8} {rest : Octets 4}

theorem checksumValid_icmpBody (seed : ℕ) (kind rest quote) :
    ChecksumValid seed (sealAt seed 2 (icmpBody kind rest quote)) :=
  checksumValid_write (by rw [length_icmpBody]; omega) rfl rfl

theorem length_icmp (seed : ℕ) (kind rest quote) :
    (sealAt seed 2 (icmpBody kind rest quote)).length = 8 + quote.length := by
  rw [length_sealAt (by rw [length_icmpBody]; omega), length_icmpBody]

theorem properV4_icmpReplyV4 {gw src : Octets 4} (hfamily : byte dropped 0 >>> 4 = 4)
    (hsrc : src.bytes = slice dropped 12 4) (hquote : quote.length ≤ 68) :
    ProperV4 dropped (icmpReplyV4 kind rest gw src quote) :=
  properV4_packet hfamily hsrc (by rw [length_icmp]; omega)
    (.inl ⟨rfl, checksumValid_icmpBody 0 kind rest quote⟩)

theorem properV6_icmpReplyV6 {gw src : Octets 16} (hfamily : byte dropped 0 >>> 4 = 6)
    (hsrc : src.bytes = slice dropped 8 16) (hquote : quote.length ≤ 1232) :
    ProperV6 dropped (icmpReplyV6 kind rest gw src quote) := by
  refine properV6_packet hfamily hsrc (by rw [length_icmp]; omega) (.inl rfl) ?_
  rw [length_icmp, Nat.add_right_comm _ _ (8 + quote.length)]
  exact checksumValid_icmpBody _ kind rest quote

variable {pkt : List UInt8}

theorem IcmpError.not_endsBeforeProtocol (h : IcmpError pkt) :
    ¬ EndsBeforeProtocol pkt := by
  rintro ⟨h4, -, hshort⟩
  rcases h with ⟨-, -, hproto, -⟩ | ⟨h6, -⟩
  · rw [byte, List.getD_eq_getElem?_getD, List.getElem?_eq_none hshort] at hproto
    exact absurd hproto (by decide)
  · rw [h4] at h6
    exact absurd h6 (by decide)

theorem isIcmpError_of_icmpError (h : IcmpError pkt) :
    isIcmpError pkt = .ok true := by
  rw [isIcmpError_eq, if_neg h.not_endsBeforeProtocol, decide_eq_true h]

theorem buildIcmpError_of_icmpError (h : IcmpError pkt)
    (v4 v6 : UInt8 × UInt8) (rest gwV4 : Octets 4) (gwV6 : Octets 16) :
    buildIcmpError pkt v4 v6 rest gwV4 gwV6 = .ok none := by
  rw [buildIcmpError, isIcmpError_of_icmpError h, ok_bind]
  rfl

theorem icmpError_icmpReplyV4 {gw src : Octets 4} (hkind : kind.1 ∈ [3, 4, 5, 11, 12]) :
    IcmpError (icmpReplyV4 kind rest gw src quote) := by
  have hlen : (icmpReplyV4 kind rest gw src quote).length = 28 + quote.length := by
    rw [icmpReplyV4, length_ipv4Packet, length_icmp]
    omega
  have hkindAt : byte (icmpReplyV4 kind rest gw src quote) 20 = kind.1 :=
    byte_append_right (by rw [length_sealAt (by rw [length_ipv4Head]; omega), length_ipv4Head]) _ 0
  have hfirst : byte (icmpReplyV4 kind rest gw src quote) 0 = 0x45 :=
    byte_zero_ipv4Packet _ _ _ _
  refine .inl ⟨by rw [hfirst]; rfl, ?_, byte_proto_ipv4Packet _ _ _ _, ?_⟩
  · rw [hfirst, hlen, show ihlOf 0x45 = 20 from rfl]
    omega
  · rw [hfirst]
    exact hkindAt ▸ hkind

theorem icmpError_icmpReplyV6 {gw src : Octets 16} (hkind : kind.1 < 128) :
    IcmpError (icmpReplyV6 kind rest gw src quote) := by
  have hkindAt : byte (icmpReplyV6 kind rest gw src quote) 40 = kind.1 :=
    byte_append_right (length_ipv6Head _ _ _ _) _ 0
  have hfirst : byte (icmpReplyV6 kind rest gw src quote) 0 = 0x60 := rfl
  refine .inr ⟨by rw [hfirst]; rfl, ?_, rfl, ?_⟩
  · rw [icmpReplyV6, length_ipv6Packet, length_icmp, ipv6Header]
    omega
  · rw [ipv6Header, hkindAt]
    exact hkind

/-- **Every reply of `build_icmp_error`** is proper, and is taken for the ICMP error it is. -/
theorem buildIcmpError_spec (h : ¬ EndsBeforeProtocol dropped) (v4 v6 : UInt8 × UInt8)
    (hv4 : v4.1 ∈ [3, 4, 5, 11, 12]) (hv6 : v6.1 < 128) (rest gwV4 : Octets 4)
    (gwV6 : Octets 16) :
    ∃ answer, buildIcmpError dropped v4 v6 rest gwV4 gwV6 = .ok answer
      ∧ ∀ reply ∈ answer, Proper dropped reply ∧ IcmpError reply := by
  have hquote (n : ℕ) : (dropped.take n).length ≤ n := by
    rw [List.length_take]
    omega
  rcases buildIcmpError_cases h v4 v6 rest gwV4 gwV6 with
    ⟨-, hnone⟩ | ⟨-, h4, src, n, hsrc, hn, hsome⟩ | ⟨-, h6, src, n, hsrc, hn, hsome⟩
  · exact ⟨none, hnone, nofun⟩
  · refine ⟨_, hsome, ?_⟩
    rintro reply ⟨rfl⟩
    exact ⟨.inl (properV4_icmpReplyV4 h4 hsrc (Nat.le_trans (hquote n) hn)),
      icmpError_icmpReplyV4 hv4⟩
  · refine ⟨_, hsome, ?_⟩
    rintro reply ⟨rfl⟩
    exact ⟨.inr (properV6_icmpReplyV6 h6 hsrc (Nat.le_trans (hquote n) hn)),
      icmpError_icmpReplyV6 hv6⟩

end Replies

end WarrenGuard.InnerMtu
