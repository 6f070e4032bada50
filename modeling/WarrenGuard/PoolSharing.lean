/-
No address is shared by two identities.

Only one way to place a connection puts it at an address somebody holds: sharing, which asks
whether *some* holder has the connection's key.  That all holders have it is the soundness of the
lease pool (`reachable_conserved`, `reachable_kept`).

* `identities_apart` — so it is in every reachable pool of either kind;
* `allocateAt_fresh_again` — a connection that already has an address is answered with that one,
  whatever it asks for.
-/
import WarrenGuard.AddressPoolV6
import WarrenGuard.PoolConservation

namespace WarrenGuard

namespace IpPool

/-- The request of an IPv4 placement that must not end at a held address: a session
of its own, or a join of an address that no connection of its key holds. -/
def Separate (p : IpAllocator) (pubkey : Pubkey) : SessionIntent → Prop
  | .legacy => False
  | .fresh => True
  | .join target => p.heldByPubkey target pubkey = false

/-- The same for IPv6, where a join names the connections to share with. -/
def SeparateV6 (p : IpAllocatorV6) (pubkey : Pubkey) : SessionIntentV6 → Prop
  | .legacy => False
  | .fresh => True
  | .join siblings =>
    ∀ c ∈ siblings, p.used.ownerOf c = some pubkey → p.used.addressOf c = none

theorem allocateAt_not_held {networkIpv4 gateway : Ipv4Addr} {prefixLen : ℕ} {p : IpAllocator}
    (h : p.Reachable networkIpv4 prefixLen gateway) {conn : ConnId} {pubkey : Pubkey}
    {intent : SessionIntent} {now : ℕ} {mayReclaim : Bool} {addr : Ipv4Addr}
    (hnew : p.used.addressOf conn = none) (hsep : Separate p pubkey intent)
    (hout : (p.allocateAt conn pubkey intent now mayReclaim).1 = some addr) :
    p.used.isHeld addr = false := by
  have hinv := IpAllocator.reachable_conserved h
  have hplaced := (IpAllocator.allocateAt_outcome p conn pubkey intent now mayReclaim hnew).placed
  rw [hout] at hplaced
  refine hplaced.not_held hinv.sound hinv.agree fun key hkey hheld hshare => ?_
  cases hkey
  rcases hshare with rfl | rfl
  · exact hsep
  · -- a join shares only an address its key holds
    have hno : p.used.heldBy addr pubkey = false := hsep
    have hyes : p.used.heldBy addr pubkey = true := hheld
    rw [hno] at hyes
    cases hyes

theorem place_not_held {networkIpv6 : Ipv6Addr} {p : IpAllocatorV6} (h : p.Reachable networkIpv6)
    {conn : ConnId} {pubkey : Pubkey} {intent : SessionIntentV6} {offset : UInt64}
    (hnew : p.used.addressOf conn = none) (hsep : SeparateV6 p pubkey intent)
    (hout : (p.place conn pubkey intent).1 = some offset) :
    p.used.isHeld offset = false ∧
      (p.place conn pubkey intent).2.used.addressOf conn = some offset := by
  have hinv := IpAllocatorV6.reachable_kept h
  have hplaced := IpAllocatorV6.place_placed hinv.agree hnew pubkey intent
  rw [hout] at hplaced
  refine ⟨hplaced.not_held hinv.sound hinv.agree fun key hkey hheld hshare => ?_, hplaced.addressOf⟩
  rcases hshare with rfl | ⟨siblings, c, rfl, hc, hown, haddr⟩
  · exact hsep
  · rw [hsep c hc hown] at haddr
    cases haddr

/-- **Identities are kept apart.**  In every reachable IPv4 pool and every reachable
IPv6 pool, all connections holding an address have the same key, a keyless holder
is the only one, and a connection without address that asks for a session of its
own, or joins nothing its key holds, gets an address nobody held. -/
theorem identities_apart {networkIpv4 gateway : Ipv4Addr} {prefixLen : ℕ} {p : IpAllocator}
    (h : p.Reachable networkIpv4 prefixLen gateway) {networkIpv6 : Ipv6Addr} {p6 : IpAllocatorV6}
    (h6 : p6.Reachable networkIpv6) :
    (Shelf.OneIdentity p.used ∧
      ∀ conn pubkey intent now mayReclaim addr, p.used.addressOf conn = none →
        Separate p pubkey intent → (p.allocateAt conn pubkey intent now mayReclaim).1 = some addr →
        p.used.isHeld addr = false) ∧
    (Shelf.OneIdentity p6.used ∧
      ∀ conn pubkey intent addr, p6.used.addressOf conn = none → SeparateV6 p6 pubkey intent →
        (p6.allocateForPubkeyWithIntent conn pubkey intent).1 = some addr →
        ∃ offset, addr = p6.addrOf offset ∧ p6.used.isHeld offset = false ∧
          (p6.allocateForPubkeyWithIntent conn pubkey intent).2.used.addressOf conn =
            some offset) := by
  refine ⟨⟨Shelf.oneIdentity (IpAllocator.reachable_conserved h).sound, ?_⟩,
    ⟨Shelf.oneIdentity (IpAllocatorV6.reachable_kept h6).sound, ?_⟩⟩
  · intro conn pubkey intent now mayReclaim addr hnew hsep hout
    exact allocateAt_not_held h hnew hsep hout
  · intro conn pubkey intent addr hnew hsep hout
    obtain ⟨offset, hoff, rfl⟩ := Option.map_eq_some_iff.mp hout
    exact ⟨offset, rfl, place_not_held h6 hnew hsep hoff⟩

/-! ### A pool in use -/

def onePlaced : List IpAllocator.Op := [.allocateAt 1 7 .fresh 0 false]

theorem reachable_onePlaced :
    (onePlaced.foldl IpAllocator.Op.apply .slash29).Reachable 0x0A420000 29 0x0A420001 :=
  IpAllocator.Reachable.ops (.start ⟨1, IpAllocator.withSeed_slash29⟩) onePlaced

theorem identities_apart_second_session :
    ∃ p : IpAllocator, ∃ p6 : IpAllocatorV6, p.Reachable 0x0A420000 29 0x0A420001 ∧
      p6.Reachable 0xFD000000000000000000000000000000 ∧
      (p.allocateAt 2 7 .fresh 0 false).1 = some 0x0A420005 ∧
      p.used.isHeld 0x0A420005 = false ∧ Shelf.OneIdentity p6.used := by
  have hreach6 : (IpAllocatorV6.withSeed 0xFD000000000000000000000000000000 1).Reachable
      0xFD000000000000000000000000000000 := .start ⟨1, rfl⟩
  obtain ⟨⟨-, hfresh⟩, hone, -⟩ := identities_apart reachable_onePlaced hreach6
  have hout : ((onePlaced.foldl IpAllocator.Op.apply .slash29).allocateAt 2 7 .fresh 0 false).1 =
      some 0x0A420005 := by decide
  exact ⟨_, _, reachable_onePlaced, hreach6, hout,
    hfresh 2 7 .fresh 0 false _ (by decide) trivial hout, hone⟩

/-- **Asked again, a connection is answered with the address it has**, also when it
asks for a session of its own. -/
theorem allocateAt_fresh_again :
    ∃ p : IpAllocator, p.Reachable 0x0A420000 29 0x0A420001 ∧
      (p.allocateAt 1 7 .fresh 0 false).1 = some 0x0A420002 ∧
      p.used.isHeld 0x0A420002 = true :=
  ⟨_, reachable_onePlaced, by decide, by decide⟩

end IpPool

end WarrenGuard
