/-
Downlink packets and the budget (`adapt_inner_for_budget` of
`warrenguard-multihop-server/src/datapath.rs`).

A packet for a client that does not fit a datagram of its connection is answered with an ICMP
error.  A SYN is only clamped, on the ground that it carries no payload.

* `adaptInnerForBudget_cases` — the five ways a packet takes;
* `answerable_clampMssLogged` — a clamped SYN may be answered if the SYN may;
* `oversized_answered_iff` — what is left to be sealed fits or may not be answered, but for an
  oversized SYN (`oversized_answered_not_syn`).
-/
import WarrenGuard.IcmpError
import WarrenGuard.UplinkPump

namespace WarrenGuard.InnerMtu

open ByteString CheckedBytes

def clampMssLogged (packet : List UInt8) (budget : ℕ) : List UInt8 := (clampSynMss packet budget).2

/-- The reply to reflect, if any, and the packet as it is left. -/
def adaptInnerForBudget (packet : List UInt8) (budget : ℕ) :
    Checked (Option (List UInt8) × List UInt8) :=
  if isTcpSyn packet then .ok (none, clampMssLogged packet budget)
  else if packet.length ≤ budget then .ok (none, packet)
  else do
    let reply ← buildFragNeeded packet budget tunnelGatewayIp tunnelGatewayIpv6
    return (reply, packet)

/-! ### What a packet meets -/

variable {pkt left : List UInt8} {budget : ℕ}

theorem buildFragNeeded_eq_none_iff (h : ¬ EndsBeforeProtocol pkt) (mtu : ℕ) (gwV4 : Octets 4)
    (gwV6 : Octets 16) : buildFragNeeded pkt mtu gwV4 gwV6 = .ok none ↔ ¬ Answerable pkt := by
  unfold buildFragNeeded
  rcases buildIcmpError_cases h (3, 4) (2, 0) (mtuRest mtu) gwV4 gwV6 with
    ⟨hno, hnone⟩ | ⟨hyes, -, src, n, -, -, hsome⟩ | ⟨hyes, -, src, n, -, -, hsome⟩
  · exact iff_of_true hnone hno
  · refine iff_of_false (fun hnone => ?_) (not_not.mpr hyes)
    rw [hsome] at hnone
    cases hnone
  · refine iff_of_false (fun hnone => ?_) (not_not.mpr hyes)
    rw [hsome] at hnone
    cases hnone

/-- **The ways of a packet**: a SYN is clamped, what is too short panics, what fits or may not be
answered is left alone, and all else is answered. -/
theorem adaptInnerForBudget_cases (pkt : List UInt8) (budget : ℕ) :
    (isTcpSyn pkt = true ∧ adaptInnerForBudget pkt budget = .ok (none, clampMssLogged pkt budget)) ∨
    (isTcpSyn pkt = false ∧ pkt.length ≤ budget ∧
      adaptInnerForBudget pkt budget = .ok (none, pkt)) ∨
    (isTcpSyn pkt = false ∧ EndsBeforeProtocol pkt ∧
      adaptInnerForBudget pkt budget = .error .index) ∨
    (isTcpSyn pkt = false ∧ ¬ Answerable pkt ∧ adaptInnerForBudget pkt budget = .ok (none, pkt)) ∨
    (isTcpSyn pkt = false ∧ ∃ reply, adaptInnerForBudget pkt budget = .ok (some reply, pkt) ∧
      Proper pkt reply ∧ IcmpError reply) := by
  unfold adaptInnerForBudget
  split
  · rename_i hsyn
    exact .inl ⟨hsyn, rfl⟩
  rename_i hsyn
  rw [Bool.not_eq_true] at hsyn
  refine .inr ?_
  split
  · rename_i hfits
    exact .inl ⟨hsyn, hfits, rfl⟩
  refine .inr ?_
  by_cases hends : EndsBeforeProtocol pkt
  · refine .inl ⟨hsyn, hends, ?_⟩
    rw [buildFragNeeded, buildIcmpError, isIcmpError_eq, if_pos hends]
    rfl
  refine .inr ?_
  obtain ⟨answer, hanswer, hproper⟩ := buildIcmpError_spec hends (3, 4) (2, 0) (by decide)
    (by decide) (mtuRest budget) tunnelGatewayIp tunnelGatewayIpv6
  cases answer with
  | none =>
    refine .inl ⟨hsyn, (buildFragNeeded_eq_none_iff hends budget _ _).mp hanswer, ?_⟩
    rw [buildFragNeeded, hanswer]
    rfl
  | some reply =>
    refine .inr ⟨hsyn, reply, ?_, hproper reply rfl⟩
    rw [buildFragNeeded, hanswer]
    rfl

/-! ### A clamped SYN -/

/-- **The clamp does not change who may be answered**: it keeps the IP header and the first
bytes behind it. -/
theorem answerable_clampMssLogged (hsyn : isTcpSyn pkt = true) (budget : ℕ) :
    Answerable (clampMssLogged pkt budget) ↔ Answerable pkt := by
  unfold isTcpSyn at hsyn
  rw [Option.any_eq_true] at hsyn
  obtain ⟨⟨tcp, v6⟩, htcp, -⟩ := hsyn
  have hlen : (clampMssLogged pkt budget).length = pkt.length := length_clampSynMss pkt budget
  have htake : (clampMssLogged pkt budget).take (tcp + 16) = pkt.take (tcp + 16) := by
    refine take_clampSynMss pkt budget fun tcp' v6' htcp' => ?_
    rw [htcp] at htcp'
    cases htcp'
    exact Nat.le_refl _
  have hfirst : byte (clampMssLogged pkt budget) 0 = byte pkt 0 := byte_of_take htake (by omega)
  unfold Answerable
  rcases synTcpOffset_cases htcp with ⟨-, hver, hihl, hmin, -⟩ | ⟨-, hver, hforty, -⟩
  · have hproto := byte_of_take htake (show 9 < tcp + 16 by omega)
    have hkind := byte_of_take htake
      (show ihlOf (byte pkt 0) < tcp + 16 by rw [ihlOf, ← hihl]; omega)
    have hsrc := slice_of_take htake (show 12 + 4 ≤ tcp + 16 by omega)
    simp [IcmpError, AnswerableV4, hfirst, hver, hlen, hproto, hkind, hsrc]
  · have hnext := byte_of_take htake (show 6 < tcp + 16 by omega)
    have hkind := byte_of_take htake (show ipv6Header < tcp + 16 by rw [ipv6Header]; omega)
    have hsrc := slice_of_take htake (show 8 + 16 ≤ tcp + 16 by omega)
    simp [IcmpError, AnswerableV6, hfirst, hver, hlen, hnext, hkind, hsrc]

/-! ### Oversized packets -/

/-- **Oversized packets are answered, but for SYNs.**  For every packet and budget: if nothing
is reflected, the packet that is left to be sealed fits the budget or may not be answered, if
and only if the packet is not a SYN that exceeds the budget and may be answered. -/
theorem oversized_answered_iff (pkt : List UInt8) (budget : ℕ) :
    (∀ left, adaptInnerForBudget pkt budget = .ok (none, left) →
      left.length ≤ budget ∨ ¬ Answerable left) ↔
    ¬ (isTcpSyn pkt = true ∧ budget < pkt.length ∧ Answerable pkt) := by
  rcases adaptInnerForBudget_cases pkt budget with
    ⟨hsyn, hgives⟩ | ⟨hother, hfits, hgives⟩ | ⟨hother, hends, hgives⟩ | ⟨hother, hno, hgives⟩ |
      ⟨hother, reply, hgives, -⟩ <;> rw [hgives]
  · have hlen : (clampMssLogged pkt budget).length = pkt.length := length_clampSynMss pkt budget
    have hanswer := answerable_clampMssLogged hsyn budget
    constructor
    · rintro hleft ⟨-, hover, hyes⟩
      rcases hleft _ rfl with hfits | hno
      · omega
      · exact hno (hanswer.mpr hyes)
    · rintro hcond left ⟨rfl⟩
      rw [hlen, hanswer]
      by_cases hfits : pkt.length ≤ budget
      · exact .inl hfits
      · exact .inr fun hyes => hcond ⟨hsyn, by omega, hyes⟩
  all_goals
    refine iff_of_true ?_ fun hcond => Bool.noConfusion (hother.symm.trans hcond.1)
    rintro left ⟨⟩
  · exact .inl hfits
  · exact .inr hno

def fastOpenSyn : List UInt8 :=
  [0x45, 0, 0x05, 0x14, 0, 0, 0x40, 0, 64, 6, 0, 0, 93, 184, 216, 34, 10, 66, 0, 2,
    0x01, 0xbb, 0xc3, 0x50, 0, 0, 0, 1, 0, 0, 0, 0, 0x50, 0x02, 0xff, 0xff, 0, 0, 0, 0]
    ++ List.replicate 1260 0

theorem oversized_answered_not_syn :
    adaptInnerForBudget fastOpenSyn 1200 = .ok (none, fastOpenSyn) ∧
      fastOpenSyn.length = 1300 ∧ Answerable fastOpenSyn := by
  refine ⟨?_, by decide +kernel, by decide +kernel⟩
  have hsyn : isTcpSyn fastOpenSyn = true := by decide +kernel
  have hclamp : clampMssLogged fastOpenSyn 1200 = fastOpenSyn := by decide +kernel
  rw [adaptInnerForBudget, if_pos hsyn, hclamp]

end WarrenGuard.InnerMtu
