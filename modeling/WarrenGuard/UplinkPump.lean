/-
The uplink of a terminated connection (`warrenguard-multihop-server/src/datapath.rs` and the two
pumps of `multihop.rs`).

A decrypted datagram is classified by its first bytes (`classifyUplink`), then by the anti-spoof
gate, the destination gate and the rate limit; the owner of its flow is announced to the downlink
router; and a SYN has its MSS clamped, before it is written to the device.  No step on its own
keeps the device clean: the first-byte classifier says nothing about addresses, and each gate lets
through some of what it cannot read.

* `uplinkVerdict_forward` — what gets past all of them is `Admissible`, and the clamp does not
  change that (`Admissible.clampUplinkSyn`);
* `uplink_reaches_tun_admissible` — so it is over every run of a pump.

Design notes: the payload of a control message is decoded by `postcard`, a parameter; the rate
limit, the datagram size of the connection and the outcome of a device write are read at each
datagram.  Metrics, DAITA events and logs are left out.
-/
import WarrenGuard.InnerMtu
import WarrenGuard.IpParse
import Mathlib.Data.Finset.Card

namespace WarrenGuard.Uplink

open ByteString IpParse InnerMtu

/-! ### What a datagram is -/

/-- The control messages, as far as the uplink tells them apart. -/
inductive ControlMessage (Anchor Token : Type) where
  | routeAnchorRequest (sealedAnchor : Anchor) (sessionToken : Option Token)
  | leaseRefresh (sessionToken : Option Token)
  | other

inductive ControlError where
  | tooShort (got : ℕ)
  | unsupportedVersion (got expected : UInt8)
  | postcard
  | trailingBytes
deriving DecidableEq

def controlFirstByte : UInt8 := 0xC0

def controlVersionV3 : UInt8 := 0x03

section Control

variable {Anchor Token : Type}

/-- Reads a message off a byte string, and gives what comes after it. -/
abbrev Postcard (Anchor Token : Type) :=
  List UInt8 → Option (ControlMessage Anchor Token × List UInt8)

def tryDecodeControl (postcard : Postcard Anchor Token) (plaintext : List UInt8) :
    Except ControlError (Option (ControlMessage Anchor Token)) :=
  match plaintext.head? with
  | none => .ok none
  | some first =>
    if first ≠ controlFirstByte then .ok none
    else if plaintext.length < 2 then .error (.tooShort plaintext.length)
    else if byte plaintext 1 ≠ controlVersionV3 then
      .error (.unsupportedVersion (byte plaintext 1) controlVersionV3)
    else match postcard (plaintext.drop 2) with
      | none => .error .postcard
      | some (msg, rest) => if rest ≠ [] then .error .trailingBytes else .ok (some msg)

def isDaitaDummy (datagram : List UInt8) : Bool :=
  match datagram.head? with
  | some b => b >>> 4 ≠ 4 && b >>> 4 ≠ 6
  | none => true

inductive UplinkKind (Anchor Token : Type) where
  | packet
  | controlFrame
  | anchorRequest (sealedAnchor : Anchor) (sessionToken : Option Token)
  | leaseRefresh (sessionToken : Option Token)
  | daitaDummy

def classifyUplink (postcard : Postcard Anchor Token) (plaintext : List UInt8) :
    UplinkKind Anchor Token :=
  match tryDecodeControl postcard plaintext with
  | .ok (some (.routeAnchorRequest sealedAnchor token)) => .anchorRequest sealedAnchor token
  | .ok (some (.leaseRefresh token)) => .leaseRefresh token
  | .ok (some .other) => .controlFrame
  | .error _ => .controlFrame
  | .ok none => if isDaitaDummy plaintext then .daitaDummy else .packet

end Control

/-! ### Flows -/

def flowTableCapPerIp : ℕ := 8192

def fnv1a (h : UInt64) (bytes : List UInt8) : UInt64 :=
  bytes.foldl (fun h b => (h ^^^ b.toUInt64) * 0x100000001b3) h

/-- The hash of a flow with protocol `proto` between the endpoints `a` and `b`, the same for
both directions. -/
def flowHash (proto : UInt8) (a b : List UInt8) : UInt64 :=
  let (lo, hi) := if a ≤ b then (a, b) else (b, a)
  fnv1a (fnv1a (fnv1a 0xcbf29ce484222325 [proto]) lo) hi

/-- The protocol of a TCP or UDP packet, and where it has its addresses, of which length, and its
ports. -/
def flowFields (pkt : List UInt8) : Option (UInt8 × ℕ × ℕ × ℕ) :=
  match pkt.head? with
  | none => none
  | some first =>
    if first >>> 4 = 4 then
      if pkt.length < 24 then none
      else
        let ihl := (first &&& 0x0f).toNat * 4
        if ihl < 20 ∨ pkt.length < ihl + 4 then none
        else if byte pkt 9 ≠ 6 ∧ byte pkt 9 ≠ 17 then none
        else some (byte pkt 9, 12, 4, ihl)
    else if first >>> 4 = 6 then
      if pkt.length < 44 then none
      else if byte pkt 6 ≠ 6 ∧ byte pkt 6 ≠ 17 then none
      else some (byte pkt 6, 8, 16, 40)
    else none

/-- The key of the flow a TCP or UDP packet belongs to. -/
def canonicalFlowKey (pkt : List UInt8) : Option UInt64 :=
  (flowFields pkt).map fun (proto, addrs, len, ports) =>
    flowHash proto (slice pkt addrs len ++ slice pkt ports 2)
      (slice pkt (addrs + len) len ++ slice pkt (ports + 2) 2)

abbrev FlowNoter := Finset UInt64

/-- Whether the packet is the first of its flow, and the memo afterwards. -/
def FlowNoter.isFirstOfFlow (flows : FlowNoter) (plaintext : List UInt8) : Bool × FlowNoter :=
  match canonicalFlowKey plaintext with
  | none => (false, flows)
  | some key =>
    let flows : Finset UInt64 := if flowTableCapPerIp ≤ flows.card then ∅ else flows
    (decide (key ∉ flows), insert key flows)

/-! ### The clamp -/

/-- `MULTIHOP_FRAME_MAX_OVERHEAD` and `MULTIHOP_FRAME_V2_DATA_MAX_OVERHEAD`. -/
def frameOverhead : Version → ℕ
  | .v1 => 83
  | .v2 => 83 + 1088 + 3 - 1088

def innerBudget (maxDatagramSize : Option ℕ) (frameOverhead : ℕ) : ℕ :=
  min (maxDatagramSize.getD 65535 - frameOverhead) 65535

def clampUplinkSyn (packet : List UInt8) (maxDatagramSize : Option ℕ) (frameOverhead : ℕ) :
    List UInt8 :=
  if isTcpSyn packet then (clampSynMss packet (innerBudget maxDatagramSize frameOverhead)).2
  else packet

/-! ### A pump -/

/-- What a connection was set up with. -/
structure UplinkConfig where
  version : Version
  assigned : Ipv4Addr
  assignedV6 : Option Ipv6Addr
  pool : TunnelPool

/-- A decrypted datagram, and what the pump reads while it handles it. -/
structure Reading where
  plaintext : List UInt8
  /-- The answer of the rate limit, if there is one. -/
  admitsUplink : Bool
  maxDatagramSize : Option ℕ
  /-- Whether the device takes the packet. -/
  sent : Bool

inductive UplinkVerdict (Anchor Token : Type) where
  | control (kind : UplinkKind Anchor Token)
  | spoofed (refusal : SpoofRefusal)
  | poolDestination (refusal : PoolRefusal)
  | overBudget
  | forward

section Pump

variable {Anchor Token : Type}

/-- The gates, in the order of both pumps. -/
def uplinkVerdict (postcard : Postcard Anchor Token) (cfg : UplinkConfig) (r : Reading) :
    UplinkVerdict Anchor Token :=
  match classifyUplink postcard r.plaintext with
  | .packet =>
    match classifySource r.plaintext cfg.assigned cfg.assignedV6 with
    | some refusal => .spoofed refusal
    | none =>
      match classifyDestination r.plaintext cfg.pool with
      | some refusal => .poolDestination refusal
      | none => if r.admitsUplink then .forward else .overBudget
  | kind => .control kind

def maxConsecutiveTunWriteErrors : ℕ := 10000

structure Pump where
  flows : FlowNoter
  /-- The packets whose flow was announced to the router. -/
  noted : List (List UInt8)
  /-- The packets handed to the device. -/
  handed : List (List UInt8)
  consecutiveErrors : ℕ
  /-- The device is not coming back, and the task has returned. -/
  ended : Bool

def Pump.start : Pump := ⟨∅, [], [], 0, false⟩

/-- A packet that passed the gates: its flow, the clamp and the device. -/
def Pump.forward (cfg : UplinkConfig) (s : Pump) (r : Reading) : Pump :=
  let (first, flows) := s.flows.isFirstOfFlow r.plaintext
  let packet := clampUplinkSyn r.plaintext r.maxDatagramSize (frameOverhead cfg.version)
  let errors := if r.sent then 0 else s.consecutiveErrors + 1
  { flows := flows
    noted := if first then r.plaintext :: s.noted else s.noted
    handed := packet :: s.handed
    consecutiveErrors := errors
    ended := maxConsecutiveTunWriteErrors ≤ errors }

def Pump.step (postcard : Postcard Anchor Token) (cfg : UplinkConfig) (s : Pump) (r : Reading) :
    Pump :=
  if s.ended then s
  else match uplinkVerdict postcard cfg r with
    | .forward => s.forward cfg r
    | _ => s

/-! ### What reaches the device -/

/-- An IPv4 packet from the assigned IPv4 address or an IPv6 packet from the assigned IPv6
address, to the gateway or out of the client pool. -/
def Admissible (cfg : UplinkConfig) (pkt : List UInt8) : Prop :=
  (∃ dst, HeaderV4 pkt cfg.assigned dst ∧ (¬ cfg.pool.InV4 dst ∨ dst = cfg.pool.v4Gateway)) ∨
    ∃ src dst, cfg.assignedV6 = some src ∧ HeaderV6 pkt src dst ∧
      (¬ cfg.pool.InV6 dst ∨ cfg.pool.GatewayV6 dst)

variable {postcard : Postcard Anchor Token} {cfg : UplinkConfig} {s : Pump} {r : Reading}
  {pkt : List UInt8}

theorem version_of_packet (h : classifyUplink postcard pkt = .packet) :
    pkt ≠ [] ∧ (byte pkt 0 >>> 4 = 4 ∨ byte pkt 0 >>> 4 = 6) := by
  have hdummy : isDaitaDummy pkt = false := by
    unfold classifyUplink at h
    split at h
    · cases h
    · cases h
    · cases h
    · cases h
    · split at h
      · cases h
      · rename_i hnot
        exact Bool.eq_false_iff.mpr hnot
  cases pkt with
  | nil => cases hdummy
  | cons b rest =>
    refine ⟨List.cons_ne_nil b rest, ?_⟩
    have hb : ¬ (b >>> 4 ≠ 4 ∧ b >>> 4 ≠ 6) := by
      intro hand
      simp [isDaitaDummy, hand.1, hand.2] at hdummy
    by_cases h4 : b >>> 4 = 4
    · exact .inl h4
    · exact .inr (by_contra fun h6 => hb ⟨h4, h6⟩)

/-- **Past the gates.** -/
theorem uplinkVerdict_forward (h : uplinkVerdict postcard cfg r = .forward) :
    Admissible cfg r.plaintext := by
  unfold uplinkVerdict at h
  split at h
  · rename_i hpacket
    obtain ⟨hne, hversion⟩ := version_of_packet hpacket
    split at h
    · cases h
    rename_i hsource
    split at h
    · cases h
    rename_i hdest
    rcases classifySource_none hsource with ⟨hlen, hver, hsrc⟩ | ⟨hlen, hver, hsrc⟩ | ⟨h4, h6⟩
    · exact .inl ⟨_, ⟨hlen, hver, hsrc, rfl⟩, classifyDestination_none_v4 hdest hne hver⟩
    · exact .inr ⟨_, _, hsrc, ⟨hlen, hver, rfl, rfl⟩, classifyDestination_none_v6 hdest hne hver⟩
    · exact absurd hversion (not_or.mpr ⟨h4, h6⟩)
  · cases h

/-- **The clamp keeps a packet admissible**: it does not reach into the IP header. -/
theorem Admissible.clampUplinkSyn (h : Admissible cfg pkt) (size : Option ℕ) (overhead : ℕ) :
    Admissible cfg (clampUplinkSyn pkt size overhead) := by
  unfold Uplink.clampUplinkSyn
  split
  swap
  · exact h
  have hlen := length_clampSynMss pkt (innerBudget size overhead)
  rcases h with ⟨dst, hdr, hdst⟩ | ⟨src, dst, hsrc, hdr, hdst⟩
  · refine .inl ⟨dst, hdr.of_take hlen (take_clampSynMss pkt _ fun tcp v6 htcp => ?_), hdst⟩
    have hbounds := synTcpOffset_bounds htcp
    omega
  · refine .inr ⟨src, dst, hsrc, hdr.of_take hlen (take_clampSynMss pkt _ fun tcp v6 htcp => ?_),
      hdst⟩
    -- the version is 6, so the TCP header starts at 40
    obtain ⟨-, -, hver | ⟨-, htcp⟩⟩ := synTcpOffset_bounds htcp
    · exact absurd (hver.symm.trans hdr.version) (by decide)
    · omega

theorem handed_step (postcard : Postcard Anchor Token) (cfg : UplinkConfig) (s : Pump)
    (r : Reading) : (s.step postcard cfg r).handed = s.handed ∨
      Admissible cfg r.plaintext ∧ (s.step postcard cfg r).handed
        = clampUplinkSyn r.plaintext r.maxDatagramSize (frameOverhead cfg.version) :: s.handed := by
  unfold Pump.step
  split
  · exact .inl rfl
  split
  · rename_i hforward
    exact .inr ⟨uplinkVerdict_forward hforward, rfl⟩
  · exact .inl rfl

/-- **What reaches the device.**  Over every run of a pump, a packet handed to the device is
the clamped form of a datagram of the connection; both are IPv4 from the assigned IPv4
address or IPv6 from the assigned IPv6 address, to the gateway or out of the pool. -/
theorem uplink_reaches_tun_admissible (postcard : Postcard Anchor Token) (cfg : UplinkConfig)
    (readings : List Reading) :
    ∀ pkt ∈ (readings.foldl (Pump.step postcard cfg) .start).handed,
      Admissible cfg pkt ∧ ∃ r ∈ readings, Admissible cfg r.plaintext ∧
        pkt = clampUplinkSyn r.plaintext r.maxDatagramSize (frameOverhead cfg.version) := by
  have hrun : ∀ (readings : List Reading) (s : Pump) (pkt : List UInt8),
      pkt ∈ (readings.foldl (Pump.step postcard cfg) s).handed →
      pkt ∈ s.handed ∨ ∃ r ∈ readings, Admissible cfg r.plaintext ∧
        pkt = clampUplinkSyn r.plaintext r.maxDatagramSize (frameOverhead cfg.version) := by
    intro readings
    induction readings with
    | nil => exact fun s pkt hmem => .inl hmem
    | cons r readings ih =>
      intro s pkt hmem
      rcases ih (s.step postcard cfg r) pkt hmem with hmem | ⟨r', hr', hadm⟩
      · rcases handed_step postcard cfg s r with heq | ⟨hadm, heq⟩
        · exact .inl (heq ▸ hmem)
        · rw [heq] at hmem
          rcases List.mem_cons.mp hmem with hpkt | hmem
          · exact .inr ⟨r, List.mem_cons_self, hadm, hpkt⟩
          · exact .inl hmem
      · exact .inr ⟨r', List.mem_cons_of_mem r hr', hadm⟩
  intro pkt hmem
  rcases hrun readings .start pkt hmem with hnil | ⟨r, hr, hadm, rfl⟩
  · exact absurd hnil List.not_mem_nil
  · exact ⟨hadm.clampUplinkSyn _ _, r, hr, hadm, rfl⟩

end Pump

/-- A connection with the address 10.66.0.2 in the pool 10.66.0.0/16. -/
def pumpConfig : UplinkConfig where
  version := .v1
  assigned := 0x0a420002#32
  assignedV6 := none
  pool := ⟨0x0a420000#32, 16, 0x0a420001#32, none⟩

def packetTo (dst : List UInt8) : List UInt8 :=
  [0x45, 0, 0, 20, 0, 0, 0, 0, 64, 17, 0, 0, 10, 66, 0, 2] ++ dst

/-- A packet to 9.9.9.9 reaches the device; one to another client, a control message and a
dummy do not. -/
theorem uplink_reaches_tun_admissible_outside :
    ([⟨packetTo [10, 66, 0, 3], true, none, true⟩, ⟨packetTo [9, 9, 9, 9], true, none, true⟩,
        ⟨[0xC0, 0x03], true, none, true⟩, ⟨[0x10], true, none, true⟩].foldl
      (Pump.step (fun _ => none : Postcard Unit Unit) pumpConfig) .start).handed
        = [packetTo [9, 9, 9, 9]] ∧ Admissible pumpConfig (packetTo [9, 9, 9, 9]) := by
  refine ⟨by decide, ?_⟩
  exact (uplink_reaches_tun_admissible (fun _ => none : Postcard Unit Unit) pumpConfig
    [⟨packetTo [9, 9, 9, 9], true, none, true⟩] (packetTo [9, 9, 9, 9]) (by decide)).1

end WarrenGuard.Uplink
