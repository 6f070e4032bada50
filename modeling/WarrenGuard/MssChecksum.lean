/-
The MSS clamp and the TCP checksum (`warrenguard-transport-core/src/inner_mtu.rs`).

`clamp_syn_mss` updates the TCP checksum as if the MSS were one of the 16-bit words that the
checksum adds.  Behind an odd number of one-byte options it straddles two words, and the update is
off by 255 times the difference:

* `checksumValid_update` — the checksum is still valid exactly if the value stands at an even
  place, or 257 divides the difference;
* `Clamped.again` — there is nothing left to clamp.
-/
import WarrenGuard.Checksum

namespace WarrenGuard.InnerMtu

open ByteString OnesComplement

/-- The pseudo-header of a TCP segment of `len` bytes: the addresses, the protocol, the length. -/
def tcpPseudoSum (pkt : List UInt8) (v6 : Bool) (len : ℕ) : ℕ :=
  wordSum (if v6 then slice pkt 8 32 else slice pkt 12 8) + 6 + len

def TcpChecksumValid (pkt : List UInt8) (tcp : ℕ) (v6 : Bool) (stop : ℕ) : Prop :=
  ChecksumValid (tcpPseudoSum pkt v6 (stop - tcp)) (slice pkt tcp (stop - tcp))

instance (pkt : List UInt8) (tcp : ℕ) (v6 : Bool) (stop : ℕ) :
    Decidable (TcpChecksumValid pkt tcp v6 stop) :=
  inferInstanceAs (Decidable (ChecksumValid _ _))

/-! ### The walk -/

section Walk

variable {pkt pkt' : List UInt8} {maxInner old new tcp i j stop : ℕ} {v6 : Bool}

theorem synTcpOffset_mod_four (h : synTcpOffset pkt = some (tcp, v6)) : tcp % 4 = 0 := by
  obtain ⟨-, -, rfl, -⟩ | ⟨-, -, rfl, -⟩ := synTcpOffset_cases h
  · exact Nat.mul_mod_left _ 4
  · rfl

theorem synTcpOffset_v6 (h : synTcpOffset pkt = some (tcp, v6)) :
    v6 = decide (byte pkt 0 >>> 4 = 6) := by
  obtain ⟨rfl, hver, -⟩ | ⟨rfl, hver, -⟩ := synTcpOffset_cases h
  · rw [hver]
    rfl
  · rw [hver]
    rfl

theorem synTcpOffset_congr (hlen : pkt'.length = pkt.length)
    (htake : pkt'.take 20 = pkt.take 20) : synTcpOffset pkt' = synTcpOffset pkt := by
  have hfirst : ∀ bs : List UInt8, (bs.take 20).head? = bs.head? := fun bs => by
    rw [List.head?_take, if_neg (by decide)]
  have hhead : pkt'.head? = pkt.head? := by
    rw [← hfirst pkt', htake, hfirst pkt]
  unfold synTcpOffset
  rw [hhead, hlen, slice_of_take htake (show 6 + 2 ≤ 20 by decide),
    byte_of_take htake (show 9 < 20 by decide), byte_of_take htake (show 6 < 20 by decide)]

theorem mssOptionAt_congr (h : mssOptionAt pkt stop i = some j)
    (hsame : ∀ k, i ≤ k → k < j + 2 → byte pkt' k = byte pkt k) :
    mssOptionAt pkt' stop i = some j := by
  fun_induction mssOptionAt pkt stop i with
  | case1 => cases h
  | case2 i hlt kind h0 h1 ih =>
    have hj := (mssOptionAt_bounds h).1
    rw [mssOptionAt, if_pos hlt, hsame i (Nat.le_refl i) (by omega)]
    dsimp only
    rw [if_neg h0, if_pos h1]
    exact ih h fun k hk hk' => hsame k (by omega) hk'
  | case3 => cases h
  | case4 => cases h
  | case5 i hlt kind h0 h1 hend optlen hfit hmss =>
    obtain rfl : i = j := Option.some.inj h
    rw [mssOptionAt, if_pos hlt, hsame i (by omega) (by omega), hsame (i + 1) (by omega) (by omega)]
    dsimp only
    rw [if_neg h0, if_neg h1, if_neg hend, if_neg hfit, if_pos hmss]
  | case6 i hlt kind h0 h1 hend optlen hfit hmss ih =>
    have hj := (mssOptionAt_bounds h).1
    rw [mssOptionAt, if_pos hlt, hsame i (by omega) (by omega), hsame (i + 1) (by omega) (by omega)]
    dsimp only
    rw [if_neg h0, if_neg h1, if_neg hend, if_neg hfit, if_neg hmss]
    exact ih h fun k hk hk' => hsame k (by omega) hk'
  | case7 => cases h

end Walk

/-! ### What is left of the packet and its checksum -/

section Clamp

variable {pkt pkt' : List UInt8} {maxInner old new tcp i : ℕ} {v6 : Bool}

section

variable (hc : Clamped pkt maxInner old new pkt' tcp v6 i)
include hc

theorem Clamped.bounds : 20 ≤ tcp ∧ tcp + 20 ≤ i ∧ i + 4 ≤ tcpHeaderEnd pkt tcp := by
  obtain ⟨htcp, -, -⟩ := synTcpOffset_bounds hc.tcp_eq
  obtain ⟨hlow, hhigh⟩ := mssOptionAt_bounds hc.option_eq
  exact ⟨htcp, hlow, hhigh⟩

theorem Clamped.length_option : (patch pkt (i + 2) (be16 new)).length = pkt.length := by
  obtain ⟨-, -, hend⟩ := hc.bounds
  have hlen := hc.header.2
  exact length_patch (show i + 2 + 2 ≤ pkt.length by omega)

theorem Clamped.length_eq : pkt'.length = pkt.length := by
  obtain ⟨-, hlow, hend⟩ := hc.bounds
  have hlen := hc.header.2
  rw [hc.pkt_eq, length_patch (show tcp + 16 + 2 ≤ _ by rw [hc.length_option]; omega),
    hc.length_option]

/-- **Only the value and the checksum change.** -/
theorem Clamped.byte_eq {k : ℕ}
    (hopt : k < i + 2 ∨ i + 4 ≤ k) (hck : k < tcp + 16 ∨ tcp + 18 ≤ k) :
    byte pkt' k = byte pkt k := by
  obtain ⟨-, hlow, hend⟩ := hc.bounds
  have hlen := hc.header.2
  rw [hc.pkt_eq, byte_patch (show tcp + 16 + 2 ≤ _ by rw [hc.length_option]; omega) hck,
    byte_patch (show i + 2 + 2 ≤ pkt.length by omega) hopt]

theorem Clamped.take_eq {n : ℕ}
    (hn : n ≤ tcp + 16) : pkt'.take n = pkt.take n := by
  obtain ⟨-, hlow, hend⟩ := hc.bounds
  have hlen := hc.header.2
  rw [hc.pkt_eq, take_patch hn (by rw [hc.length_option]; omega), take_patch (by omega) (by omega)]

theorem Clamped.new_lt : new < 65536 := by
  obtain ⟨-, -, hend⟩ := hc.bounds
  have hlen := hc.header.2
  have hold := beNat_slice_two_lt (show i + 2 + 2 ≤ pkt.length by omega)
  rw [← hc.old_eq] at hold
  exact Nat.lt_trans hc.lt hold

theorem Clamped.value_eq : beNat (slice pkt' (i + 2) 2) = new := by
  obtain ⟨-, hlow, hend⟩ := hc.bounds
  have hlen := hc.header.2
  have hopt : slice (patch pkt (i + 2) (be16 new)) (i + 2) 2 = be16 new :=
    slice_patch_self (show i + 2 + 2 ≤ pkt.length by omega)
  rw [hc.pkt_eq, slice_patch_of_disjoint (show tcp + 16 + 2 ≤ _ by rw [hc.length_option]; omega)
    (.inr (show tcp + 16 + 2 ≤ i + 2 by omega)), hopt, beNat_be16 hc.new_lt]

/-- **Clamping again.** The clamped packet is walked as before, to an option that fits. -/
theorem Clamped.again : clampSynMss pkt' maxInner = (none, pkt') := by
  obtain ⟨htcp, hlow, hend⟩ := hc.bounds
  have hsame : ∀ k, tcp + 20 ≤ k → k < i + 2 → byte pkt' k = byte pkt k := fun k hk hk' =>
    hc.byte_eq (.inl hk') (.inr (by omega))
  have hoffset : synTcpOffset pkt' = some (tcp, v6) := by
    rw [synTcpOffset_congr hc.length_eq (hc.take_eq (by omega)), hc.tcp_eq]
  have hflags : byte pkt' (tcp + 13) = byte pkt (tcp + 13) :=
    hc.byte_eq (.inl (by omega)) (.inl (by omega))
  have hdoff : byte pkt' (tcp + 12) = byte pkt (tcp + 12) :=
    hc.byte_eq (.inl (by omega)) (.inl (by omega))
  have hwalk := mssOptionAt_congr hc.option_eq hsame
  have hheader := hc.header
  unfold tcpHeaderEnd at hwalk hheader
  unfold clampSynMss tcpMinHeader
  simp only [hoffset, hflags, hdoff, hc.length_eq]
  rw [if_neg hc.syn, if_neg (by omega), hwalk]
  simp only [hc.value_eq, hc.new_eq]
  rw [if_pos (Nat.le_refl _)]

end

end Clamp

/-- **The update of a checksum.** A valid checksum at the even place `c` is carried over a
change of the value at `p` exactly if `p` is even, or 257 divides the difference. -/
theorem checksumValid_update {seed c p new : ℕ} {seg : List UInt8} (hseed : seed ≠ 0)
    (hc : c % 2 = 0) (hcp : c + 2 ≤ p) (hp : p + 2 ≤ seg.length) (hnew : new < 65536)
    (hlt : new < beNat (slice seg p 2)) (hvalid : ChecksumValid seed seg) :
    ChecksumValid seed (patch (patch seg p (be16 new)) c
        (be16 (incrementalChecksumUpdate (beNat (slice seg c 2)) (beNat (slice seg p 2)) new)))
      ↔ p % 2 = 0 ∨ 257 ∣ beNat (slice seg p 2) - new := by
  have hold : beNat (slice seg p 2) < 65536 := beNat_slice_two_lt hp
  have hck : beNat (slice seg c 2) < 65536 := beNat_slice_two_lt (by omega)
  have hlen : (patch seg p (be16 new)).length = seg.length := length_patch hp
  have hslice : slice (patch seg p (be16 new)) c 2 = slice seg c 2 :=
    slice_patch_of_disjoint hp (.inl hcp)
  have hupdate := incrementalChecksumUpdate_mod new hck hold
  have hvalue := weigh_patch_add true hnew hp
  have hsum := weigh_patch_add true
    (incrementalChecksumUpdate_lt (beNat (slice seg c 2)) (beNat (slice seg p 2)) new)
    (show c + 2 ≤ (patch seg p (be16 new)).length by omega)
  rw [hslice, show turned true c = true by simp [turned, hc]] at hsum
  simp only [place, if_true] at hsum
  rw [checksumValid_iff] at hvalid ⊢
  generalize beNat (slice seg p 2) = old at *
  generalize beNat (slice seg c 2) = ck at *
  generalize incrementalChecksumUpdate ck old new = r at *
  generalize weigh true (patch (patch seg p (be16 new)) c (be16 r)) = after at *
  generalize weigh true (patch seg p (be16 new)) = between at *
  generalize weigh true seg = before at *
  rcases Nat.mod_two_eq_zero_or_one p with heven | hodd
  · -- the value is one of the words
    rw [show turned true p = true by simp [turned, heven]] at hvalue
    simp only [place, if_true] at hvalue
    omega
  · -- the value counts 256 times
    rw [show turned true p = false by simp [turned, hodd]] at hvalue
    have hbefore := place_mod false old
    have hafter := place_mod false new
    simp only [Bool.false_eq_true, if_false] at hbefore hafter
    have hoff : (after + 255 * old) % 65535 = (before + 255 * new) % 65535 := by omega
    omega

/-- **The checksum of a clamped segment**, for any end of the segment behind its header. -/
theorem Clamped.checksum {pkt pkt' : List UInt8} {maxInner old new tcp i stop : ℕ} {v6 : Bool}
    (hc : Clamped pkt maxInner old new pkt' tcp v6 i) (hstop : tcpHeaderEnd pkt tcp ≤ stop)
    (hlen : stop ≤ pkt.length) (hvalid : TcpChecksumValid pkt tcp v6 stop) :
    TcpChecksumValid pkt' tcp v6 stop ↔ i % 2 = 0 ∨ 257 ∣ old - new := by
  obtain ⟨htcp, hlow, hend⟩ := hc.bounds
  have hfour := synTcpOffset_mod_four hc.tcp_eq
  -- the pseudo-header is read from the bytes before the TCP header
  have hpseudo : tcpPseudoSum pkt' v6 (stop - tcp) = tcpPseudoSum pkt v6 (stop - tcp) := by
    have htake := hc.take_eq (show tcp ≤ tcp + 16 by omega)
    unfold tcpPseudoSum
    obtain ⟨rfl, -, -⟩ | ⟨rfl, -, rfl, -⟩ := synTcpOffset_cases hc.tcp_eq
    · simp only [Bool.false_eq_true, if_false]
      rw [slice_of_take htake (show 12 + 8 ≤ tcp by omega)]
    · simp only [if_true]
      rw [slice_of_take htake (show 8 + 32 ≤ 40 by omega)]
  have hseg : slice pkt' tcp (stop - tcp)
      = patch (patch (slice pkt tcp (stop - tcp)) (i + 2 - tcp) (be16 new)) 16
        (be16 (incrementalChecksumUpdate (beNat (slice pkt (tcp + 16) 2)) old new)) := by
    rw [hc.pkt_eq, slice_patch (by omega) (show tcp + 16 + 2 ≤ _ by omega)
        (by rw [hc.length_option]; omega),
      slice_patch (by omega) (show i + 2 + 2 ≤ _ by omega) (by omega), Nat.add_sub_cancel_left]
  have hvalue : beNat (slice (slice pkt tcp (stop - tcp)) (i + 2 - tcp) 2) = old := by
    rw [slice_slice (by omega), show tcp + (i + 2 - tcp) = i + 2 by omega, hc.old_eq]
  have hck : slice (slice pkt tcp (stop - tcp)) 16 2 = slice pkt (tcp + 16) 2 :=
    slice_slice (by omega)
  have hseglen : (slice pkt tcp (stop - tcp)).length = stop - tcp := length_slice (by omega)
  have hupdate := checksumValid_update (c := 16) (p := i + 2 - tcp)
    (show tcpPseudoSum pkt v6 (stop - tcp) ≠ 0 by unfold tcpPseudoSum; omega) (by decide)
    (by omega) (by omega) hc.new_lt (by rw [hvalue]; exact hc.lt) hvalid
  rw [hvalue, hck] at hupdate
  unfold TcpChecksumValid
  rw [hpseudo, hseg, hupdate, show (i + 2 - tcp) % 2 = i % 2 by omega]

/-- **The clamp.** If it reports `(old, new)`, then `new` is the effective MSS of the packet's
IP version and less than `old`, only the value and the checksum have changed, a valid checksum
is still valid exactly if the option stands at an even place or 257 divides the difference,
and clamping again reports nothing.  If it reports nothing, the packet is as it was. -/
theorem clamp_syn_mss_spec (pkt : List UInt8) (maxInner : ℕ) :
    (∀ old new pkt', clampSynMss pkt maxInner = (some (old, new), pkt') →
      new = effectiveMss maxInner (decide (byte pkt 0 >>> 4 = 6)) ∧ new < old ∧
      pkt'.length = pkt.length ∧
      ∃ tcp v6 i, synTcpOffset pkt = some (tcp, v6) ∧
        mssOptionAt pkt (tcpHeaderEnd pkt tcp) (tcp + 20) = some i ∧
        beNat (slice pkt (i + 2) 2) = old ∧ beNat (slice pkt' (i + 2) 2) = new ∧
        (∀ k, k ≠ i + 2 → k ≠ i + 3 → k ≠ tcp + 16 → k ≠ tcp + 17 → byte pkt' k = byte pkt k) ∧
        (∀ stop, tcpHeaderEnd pkt tcp ≤ stop → stop ≤ pkt.length →
          TcpChecksumValid pkt tcp v6 stop →
          (TcpChecksumValid pkt' tcp v6 stop ↔ i % 2 = 0 ∨ 257 ∣ old - new)) ∧
        clampSynMss pkt' maxInner = (none, pkt')) ∧
    (∀ pkt', clampSynMss pkt maxInner = (none, pkt') → pkt' = pkt) := by
  obtain hnone | ⟨old, new, pkt', tcp, v6, i, hsome, hc⟩ := clampSynMss_eq pkt maxInner
  · refine ⟨fun old new pkt' h => ?_, fun pkt' h => ?_⟩
    · rw [hnone] at h
      cases h
    · rw [hnone] at h
      exact (Prod.mk.inj h).2.symm
  · refine ⟨fun old' new' pkt'' h => ?_, fun pkt'' h => ?_⟩
    · rw [hsome] at h
      cases h
      refine ⟨?_, hc.lt, hc.length_eq, tcp, v6, i, hc.tcp_eq, hc.option_eq, hc.old_eq.symm,
        hc.value_eq, fun k hk hk' hk₂ hk₃ => hc.byte_eq (by omega) (by omega),
        fun stop hstop hlen hvalid => hc.checksum hstop hlen hvalid, hc.again⟩
      rw [hc.new_eq, synTcpOffset_v6 hc.tcp_eq]
    · rw [hsome] at h
      cases h

def evenSyn : List UInt8 :=
  [69, 0, 0, 44, 0, 0, 64, 0, 64, 6, 46, 135, 10, 66, 0, 2, 1, 1, 1, 1,
    192, 0, 1, 187, 0, 0, 0, 1, 0, 0, 0, 0, 96, 2, 255, 255, 202, 36, 0, 0, 2, 4, 5, 180]

theorem clamp_syn_mss_spec_evenSyn :
    ∃ pkt', clampSynMss evenSyn 1280 = (some (1460, 1240), pkt') ∧
      TcpChecksumValid evenSyn 20 false 44 ∧ TcpChecksumValid pkt' 20 false 44 := by
  have hclamp : clampSynMss evenSyn 1280 = (some (1460, 1240), (clampSynMss evenSyn 1280).2) := by
    decide +kernel
  have hvalid : TcpChecksumValid evenSyn 20 false 44 := by decide +kernel
  obtain ⟨-, -, -, tcp, v6, i, htcp, hopt, -, -, -, hck, -⟩ :=
    (clamp_syn_mss_spec evenSyn 1280).1 _ _ _ hclamp
  obtain ⟨rfl, rfl⟩ : 20 = tcp ∧ false = v6 := by
    have h20 : synTcpOffset evenSyn = some (20, false) := by decide
    simpa [h20] using htcp
  obtain rfl : 40 = i := by
    have h40 : mssOptionAt evenSyn (tcpHeaderEnd evenSyn 20) (20 + 20) = some 40 := by
      decide +kernel
    simpa [h40] using hopt
  exact ⟨_, hclamp, hvalid, (hck 44 (by decide) (by decide) hvalid).mpr (.inl rfl)⟩

/-- The same announcement behind a one-byte option. -/
def oddSyn : List UInt8 :=
  [69, 0, 0, 48, 0, 0, 64, 0, 64, 6, 46, 131, 10, 66, 0, 2, 1, 1, 1, 1,
    192, 0, 1, 187, 0, 0, 0, 1, 0, 0, 0, 0, 112, 2, 255, 255, 7, 207, 0, 0,
    1, 2, 4, 5, 180, 1, 1, 1]

/-- The clamp of a valid SYN whose option stands at an odd place leaves it with a wrong
checksum. -/
theorem odd_option_breaks_checksum :
    (clampSynMss oddSyn 1280).1 = some (1460, 1240) ∧ TcpChecksumValid oddSyn 20 false 48 ∧
      ¬ TcpChecksumValid (clampSynMss oddSyn 1280).2 20 false 48 := by
  refine ⟨?_, ?_, ?_⟩ <;> decide +kernel

end WarrenGuard.InnerMtu
