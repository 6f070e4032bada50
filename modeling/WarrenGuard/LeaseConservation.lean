/-
Leases of token sessions are not lost.

Every serial a session was admitted on, or rebound to, is a lease.  The deployer renews the leases
`live_token_serials` lists and releases those reported to the session-end observer, so a lease
that was acquired and not reported since must be listed.

A session is keyed by its admission serial, and a rebind moves its lease away from the key.  A
later setup on that serial is filed under the key of the moved session: the lease it acquired is
neither listed nor ever reported (`rebound_key_drops_lease`).  This is the only way a lease is
lost (`acquired_leases_listed`).
-/
import WarrenGuard.SessionRegistry
import WarrenGuard.Transition

namespace WarrenGuard

namespace Registry

open IpPool MultihopSessionRegistry

/-- The registry, and the serials acquired since they were last reported ended. -/
structure Leases where
  registry : MultihopSessionRegistry
  acquired : Finset Serial

inductive Event where
  /-- The admitter spent `serial`; the pool answers who holds the hinted address. -/
  | setup (serial : Serial) (conn : ConnId) (pool : IpAllocator) (preferIpv4 : Option Ipv4Addr)
  | walletSetup (pubkey : Pubkey) (conn : ConnId)
  | routeSetup (serial : Serial) (conn : ConnId)
  | connectionEnd (key : SessionKey) (conn : ConnId)
  /-- An anchor or lease refresh request of the session keyed by `key`. -/
  | request (key : Serial)
  /-- The token of such a request was spent: `new` is acquired. -/
  | rebind (key new : Serial)

namespace Leases

def start : Leases := ⟨MultihopSessionRegistry.new, ∅⟩

def reported (acquired : Finset Serial) : Option Serial → Finset Serial
  | some ended => acquired.erase ended
  | none => acquired

/-- The admitter spent `serial`; a setup that would join a foreign session is refused. -/
def setup (s : Leases) (serial : Serial) (conn : ConnId) (pool : IpAllocator)
    (preferIpv4 : Option Ipv4Addr) : Leases :=
  if serialHeldByAnotherSession (some s.registry) pool serial preferIpv4 then
    ⟨s.registry, insert serial s.acquired⟩
  else ⟨s.registry.registerKey (.tokenSerial serial) conn, insert serial s.acquired⟩

def connectionEnd (s : Leases) (key : SessionKey) (conn : ConnId) : Leases :=
  let (ended, registry) := s.registry.unregisterKey key conn
  ⟨registry, reported s.acquired ended⟩

def rebind (s : Leases) (key new : Serial) : Leases :=
  let (_, released, registry) := s.registry.rebind key new
  ⟨registry, reported (insert new s.acquired) released⟩

def step (s : Leases) : Event → Leases
  | .setup serial conn pool preferIpv4 => s.setup serial conn pool preferIpv4
  | .walletSetup pubkey conn => { s with registry := s.registry.registerKey (.wallet pubkey) conn }
  | .routeSetup serial conn => { s with registry := s.registry.registerKey (.route serial) conn }
  | .connectionEnd key conn => s.connectionEnd key conn
  | .request key => { s with registry := s.registry.openSlot key }
  | .rebind key new => s.rebind key new

def AllListed (s : Leases) : Prop := ∀ serial ∈ s.acquired, serial ∈ s.registry.liveTokenSerials

/-- A setup on a serial that already keys a live session finds that serial listed. -/
def KeyListed (s : Leases) : Event → Prop
  | .setup serial _ _ _ =>
    s.registry.live.contains (.tokenSerial serial) = true →
      s.registry.isTokenSerialLive serial = true
  | _ => True

variable {s : Leases} {serial : Serial}

theorem mem_reported {acquired : Finset Serial} {ended : Option Serial} :
    serial ∈ reported acquired ended ↔ serial ∈ acquired ∧ ended ≠ some serial := by
  cases ended with
  | none => simp [reported]
  | some e =>
    rw [reported, Finset.mem_erase, and_comm, ne_comm, ne_eq, ne_eq, Option.some.injEq]

theorem listed_of_held {r : MultihopSessionRegistry} {pool : IpAllocator}
    {preferIpv4 : Option Ipv4Addr}
    (h : serialHeldByAnotherSession (some r) pool serial preferIpv4 = true) :
    serial ∈ r.liveTokenSerials := by
  by_contra hnot
  have hdead : r.isTokenSerialLive serial = false := decide_eq_false hnot
  rw [serialHeldByAnotherSession, hdead] at h
  cases h

theorem AllListed.rebind (h : s.AllListed) (key new : Serial) :
    (s.rebind key new).AllListed := by
  intro serial hserial
  unfold Leases.rebind at hserial ⊢
  rcases rebind_cases s.registry key new with ⟨hout, hnew⟩ | hout | ⟨old, hlive, hold, hout⟩ <;>
    rw [hout] at hserial ⊢ <;> obtain ⟨hmem, hkept⟩ := mem_reported.mp hserial
  · rcases Finset.mem_insert.mp hmem with rfl | hmem
    exacts [hnew, h serial hmem]
  · rcases Finset.mem_insert.mp hmem with rfl | hmem
    exacts [absurd rfl hkept, h serial hmem]
  · rcases Finset.mem_insert.mp hmem with rfl | hmem
    · refine mem_liveTokenSerials.mpr ⟨key, hlive, ?_⟩
      rw [leaseSerial_moved, if_pos rfl]
    · obtain ⟨key', hlive', hlease⟩ := mem_liveTokenSerials.mp (h serial hmem)
      refine mem_liveTokenSerials.mpr ⟨key', hlive', ?_⟩
      rw [leaseSerial_moved]
      by_cases hk : key' = key
      · -- the moved session: its old lease was reported, unless it is the new one
        subst hk
        obtain rfl : serial = old := hlease.symm.trans hold
        rw [if_pos rfl]
        by_contra hne
        exact hkept (if_pos (Ne.symm hne))
      · rw [if_neg hk]
        exact hlease

theorem AllListed.setup (h : s.AllListed)
    (hkey : s.registry.live.contains (.tokenSerial serial) = true →
      s.registry.isTokenSerialLive serial = true)
    (conn : ConnId) (pool : IpAllocator) (preferIpv4 : Option Ipv4Addr) :
    (s.setup serial conn pool preferIpv4).AllListed := by
  intro x hx
  unfold Leases.setup at hx ⊢
  by_cases hheld : serialHeldByAnotherSession (some s.registry) pool serial preferIpv4 = true
  · rw [if_pos hheld] at hx ⊢
    rcases Finset.mem_insert.mp hx with rfl | hx
    exacts [listed_of_held hheld, h x hx]
  · rw [if_neg hheld] at hx ⊢
    rcases Finset.mem_insert.mp hx with rfl | hx
    · cases hlive : s.registry.live.contains (.tokenSerial x) with
      | false => exact listed_registerKey_of_new hlive
      | true => exact listed_registerKey (of_decide_eq_true (hkey hlive))
    · exact listed_registerKey (h x hx)

/-- **One event keeps the leases listed.** -/
theorem AllListed.step (h : s.AllListed) {e : Event} (he : s.KeyListed e) :
    (s.step e).AllListed := by
  cases e with
  | setup serial conn pool preferIpv4 => exact h.setup he conn pool preferIpv4
  | walletSetup pubkey conn => exact fun x hx => listed_registerKey (h x hx)
  | routeSetup serial conn => exact fun x hx => listed_registerKey (h x hx)
  | connectionEnd key conn =>
    intro x hx
    obtain ⟨hmem, hkept⟩ := mem_reported.mp hx
    exact listed_unregisterKey (h x hmem) hkept
  | request key => exact fun x hx => listed_openSlot (h x hx)
  | rebind key new => exact h.rebind key new

def Reachable (ok : Leases → Event → Prop) : Leases → Prop :=
  Transition.Reachable (· = start) (Transition.Guarded ok step)

theorem reachable_of_allowed {ok : Leases → Event → Prop} {events : List Event}
    (h : Transition.Allowed ok step start events) : Reachable ok (events.foldl step start) := by
  have hstart : Reachable ok start := .start rfl
  exact hstart.run h

/-- **No acquired lease is dropped**: in every state reached by setups, ends, requests
and rebinds in any order, if each setup on a serial that keys a live session found
that serial listed, then every serial acquired since it was last reported is listed. -/
theorem acquired_leases_listed {s : Leases} (h : Reachable KeyListed s) :
    ∀ serial ∈ s.acquired, serial ∈ s.registry.liveTokenSerials := by
  have hinv : s.AllListed := by
    refine Transition.Reachable.invariant ?_ ?_ h
    · rintro s rfl serial hserial
      exact absurd hserial (Finset.notMem_empty serial)
    · rintro s s' hs ⟨e, he, rfl⟩
      exact hs.step he
  exact hinv

/-! ### A moved lease -/

instance (s : Leases) (e : Event) : Decidable (s.KeyListed e) :=
  match e with
  | .setup serial _ _ _ => inferInstanceAs (Decidable
      (s.registry.live.contains (.tokenSerial serial) = true →
        s.registry.isTokenSerialLive serial = true))
  | .walletSetup _ _ | .routeSetup _ _ | .connectionEnd _ _ | .request _ | .rebind _ _ =>
    inferInstanceAs (Decidable True)

def moveLease : List Event := [.setup 1 10 .slash29 (some 0), .request 1, .rebind 1 2]

def endMoved : List Event := [.setup 3 11 .slash29 (some 0), .connectionEnd (.tokenSerial 1) 10]

theorem acquired_leases_listed_end_moved :
    ∃ s : Leases, s.acquired = {3} ∧ 3 ∈ s.registry.liveTokenSerials := by
  have hok : Transition.Allowed KeyListed step start (moveLease ++ endMoved) := by decide
  exact ⟨_, by decide, acquired_leases_listed (reachable_of_allowed hok) 3 (by decide)⟩

/-- **A setup on the serial a live session left is lost.**  The new session is filed
under the key of the moved one, whose lease is serial 2: serial 1, acquired again,
is not listed, and the end of both connections does not report it. -/
theorem rebound_key_drops_lease :
    ∃ s : Leases, Reachable (fun _ _ => True) s ∧ 1 ∈ s.acquired ∧
      1 ∉ s.registry.liveTokenSerials ∧
      1 ∈ (([.connectionEnd (.tokenSerial 1) 10, .connectionEnd (.tokenSerial 1) 11] :
        List Event).foldl step s).acquired := by
  have hok : Transition.Allowed (fun _ _ => True) step start
      (moveLease ++ [.setup 1 11 .slash29 (some 0)]) := by decide
  exact ⟨_, reachable_of_allowed hok, by decide, by decide, by decide⟩

end Leases

end Registry

end WarrenGuard
