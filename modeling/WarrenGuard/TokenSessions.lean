/-
One token serial, one session.

The setup of a token session takes three lock sections of the exit (`process_setup_frame`): the
check that its serial is not in use by another session, the registration under the serial, and the
allocation of the tunnel address.  The end of a connection takes two: it leaves the registry, and
later its address is released.  The check reads the state before the registration, so two setups
can both pass it (`racing_setups_split_serial`).  What decides is the state at the allocation:

* `registered_share_address` — all connections registered under one serial hold one address, where
  at each allocation the others of the serial hold the address the hint names, if any.
-/
import WarrenGuard.PoolConservation
import WarrenGuard.SessionRegistry

namespace WarrenGuard

namespace Registry

open IpPool MultihopSessionRegistry Holdings

/-- An admitted setup: its serial, its placement hint, and whether it may take part
in the restart reclaim (a dual-stack request may not). -/
structure SetupRequest where
  serial : Serial
  preferIpv4 : Ipv4Addr
  mayReclaim : Bool

def SetupRequest.key (req : SetupRequest) : SessionKey := .tokenSerial req.serial

def SetupRequest.intent (req : SetupRequest) : SessionIntent :=
  .fromPreferIpv4 (some req.preferIpv4)

/-- How far a connection is: the section it went through last. -/
inductive Stage where
  | checked
  | registered
  | placed
  | ended
deriving DecidableEq

def Stage.live : Stage → Bool
  | .registered | .placed => true
  | .checked | .ended => false

def Stage.past : Stage → Bool
  | .placed | .ended => true
  | .checked | .registered => false

/-- The exit: registry and pool, each behind its lock, and the connections at work. -/
structure Exit where
  registry : MultihopSessionRegistry
  pool : IpAllocator
  setups : Table ConnId (SetupRequest × Stage)

inductive Section where
  | check (conn : ConnId) (req : SetupRequest)
  | register (conn : ConnId)
  | allocate (conn : ConnId) (now : ℕ)
  | unregister (conn : ConnId)
  | release (conn : ConnId)
  | enableRestartReclaim (eligible : Finset Ipv4Addr) (now : ℕ)
  | setAddressClaims (claims : ℕ → Ipv4Addr → Bool)

namespace Exit

variable (x : Exit)

def advance (conn : ConnId) (req : SetupRequest) (stage : Stage) : Exit :=
  { x with setups := x.setups.insert conn (req, stage) }

/-- A setup whose serial is in use by another session is refused. -/
def check (conn : ConnId) (req : SetupRequest) : Exit :=
  match x.setups.lookup conn with
  | some _ => x
  | none =>
    if serialHeldByAnotherSession (some x.registry) x.pool req.serial (some req.preferIpv4) then x
    else x.advance conn req .checked

def register (conn : ConnId) : Exit :=
  match x.setups.lookup conn with
  | some (req, .checked) =>
    { x with registry := x.registry.registerKey req.key conn }.advance conn req .registered
  | _ => x

/-- The allocation under the pool's lock; an exhausted pool leaves the connection
without address, and it ends. -/
def allocate (conn : ConnId) (now : ℕ) : Exit :=
  match x.setups.lookup conn with
  | some (req, .registered) =>
    { x with pool := (x.pool.allocateAt conn req.serial req.intent now req.mayReclaim).2 }.advance
      conn req .placed
  | _ => x

/-- The connection ends: its guard, if it was registered, leaves the registry. -/
def unregister (conn : ConnId) : Exit :=
  match x.setups.lookup conn with
  | some (req, .checked) => x.advance conn req .ended
  | some (req, .registered) | some (req, .placed) =>
    { x with registry := (x.registry.unregisterKey req.key conn).2 }.advance conn req .ended
  | _ => x

/-- The address of an ended connection goes back to the pool. -/
def release (conn : ConnId) : Exit :=
  match x.setups.lookup conn with
  | some (_, .ended) => { x with pool := x.pool.release conn, setups := x.setups.erase conn }
  | _ => x

def step : Section → Exit
  | .check conn req => x.check conn req
  | .register conn => x.register conn
  | .allocate conn now => x.allocate conn now
  | .unregister conn => x.unregister conn
  | .release conn => x.release conn
  | .enableRestartReclaim eligible now =>
    { x with pool := x.pool.enableRestartReclaim eligible now }
  | .setAddressClaims claims => { x with pool := x.pool.setAddressClaims claims }

def registered (serial : Serial) : Finset ConnId :=
  x.registry.live.conns (.tokenSerial serial)

/-- **One serial, one address**: the registered connections of a serial that have an
address have the same one. -/
def OneAddress : Prop :=
  ∀ serial, ∀ conn ∈ x.registered serial, ∀ conn' ∈ x.registered serial, ∀ addr addr',
    x.pool.used.addressOf conn = some addr → x.pool.used.addressOf conn' = some addr' →
    addr = addr'

def NamesHeld (intent : SessionIntent) : Option Ipv4Addr → Prop
  | some addr => intent = .join addr
  | none => True

/-- Every other registered connection of the request's serial that has an address has
the one the hint names. -/
def HintCurrent (conn : ConnId) (req : SetupRequest) : Prop :=
  ∀ conn' ∈ x.registered req.serial, conn' ≠ conn →
    NamesHeld req.intent (x.pool.used.addressOf conn')

/-- The condition on a section: an allocation finds its hint current. -/
def AllocatesCurrent : Section → Prop
  | .allocate conn _ =>
    match x.setups.lookup conn with
    | some (req, _) => x.HintCurrent conn req
    | none => True
  | _ => True

/-! ### The bookkeeping of the connections -/

/-- **Registry, pool and connections agree**: the registered connections are those
between their registration and their end, one with an address is past its allocation,
and the pool knows it under the serial. -/
structure Kept (x : Exit) : Prop where
  agree : x.pool.used.Agree
  registered_iff : ∀ serial conn, conn ∈ x.registered serial ↔
    ∃ req stage, x.setups.lookup conn = some (req, stage) ∧ req.serial = serial ∧ stage.live = true
  placed : ∀ conn addr, x.pool.used.addressOf conn = some addr → ∃ req stage,
    x.setups.lookup conn = some (req, stage) ∧ stage.past = true ∧
    x.pool.used.ownerOf conn = some req.serial

variable {x y : Exit} {conn : ConnId} {req : SetupRequest} {stage : Stage}

theorem Kept.address_none (h : Kept x) (hconn : x.setups.lookup conn = some (req, stage))
    (hstage : stage.past = false) : x.pool.used.addressOf conn = none := by
  by_contra hne
  obtain ⟨addr, haddr⟩ := Option.ne_none_iff_exists'.mp hne
  obtain ⟨req', stage', heq, hpast, -⟩ := h.placed conn addr haddr
  rw [hconn] at heq
  cases heq
  rw [hpast] at hstage
  cases hstage

theorem Kept.advance (h : Kept x) (hsetups : y.setups = x.setups.insert conn (req, stage))
    (hagree : y.pool.used.Agree)
    (hreg : ∀ serial c, c ≠ conn → (c ∈ y.registered serial ↔ c ∈ x.registered serial))
    (hregc : ∀ serial, conn ∈ y.registered serial ↔ req.serial = serial ∧ stage.live = true)
    (hpool : ∀ c, c ≠ conn → y.pool.used.addressOf c = x.pool.used.addressOf c ∧
      y.pool.used.ownerOf c = x.pool.used.ownerOf c)
    (hpoolc : ∀ addr, y.pool.used.addressOf conn = some addr →
      stage.past = true ∧ y.pool.used.ownerOf conn = some req.serial) : Kept y := by
  refine ⟨hagree, fun serial c => ?_, fun c addr haddr => ?_⟩
  · by_cases hc : c = conn
    · subst hc
      rw [hregc, hsetups, AList.lookup_insert]
      constructor
      · rintro ⟨hserial, hlive⟩
        exact ⟨req, stage, rfl, hserial, hlive⟩
      · rintro ⟨req', stage', heq, hserial, hlive⟩
        cases heq
        exact ⟨hserial, hlive⟩
    · rw [hreg serial c hc, hsetups, AList.lookup_insert_ne hc]
      exact h.registered_iff serial c
  · by_cases hc : c = conn
    · subst hc
      obtain ⟨hpast, howner⟩ := hpoolc addr haddr
      exact ⟨req, stage, by rw [hsetups, AList.lookup_insert], hpast, howner⟩
    · obtain ⟨haddr', howner'⟩ := hpool c hc
      rw [haddr'] at haddr
      rw [hsetups, AList.lookup_insert_ne hc, howner']
      exact h.placed c addr haddr

variable {c : ConnId} {now : ℕ} {p : IpAllocator} {serial : Serial}

theorem Kept.registered_self (h : Kept x) (hconn : x.setups.lookup conn = some (req, stage))
    (serial) : conn ∈ x.registered serial ↔ req.serial = serial ∧ stage.live = true := by
  rw [h.registered_iff, hconn]
  constructor
  · rintro ⟨req', stage', heq, hserial, hlive⟩
    cases heq
    exact ⟨hserial, hlive⟩
  · rintro ⟨hserial, hlive⟩
    exact ⟨req, stage, rfl, hserial, hlive⟩

theorem Kept.check (h : Kept x) (conn req) : Kept (x.check conn req) := by
  unfold Exit.check
  split
  · exact h
  · rename_i hnone
    split
    · exact h
    · refine h.advance rfl h.agree (fun _ _ _ => Iff.rfl) (fun serial => ?_)
        (fun _ _ => ⟨rfl, rfl⟩) (fun addr haddr => ?_)
      · -- an unknown connection is not registered, and a checked one is not yet
        constructor
        · intro hreg
          obtain ⟨req', stage', heq, -⟩ := (h.registered_iff serial conn).mp hreg
          rw [hnone] at heq
          cases heq
        · rintro ⟨-, hlive⟩
          cases hlive
      · obtain ⟨req', stage', heq, -⟩ := h.placed conn addr haddr
        rw [hnone] at heq
        cases heq

theorem mem_registered_register (serial c) :
    c ∈ Exit.registered { x with registry := x.registry.registerKey req.key conn } serial ↔
      (serial = req.serial ∧ c = conn) ∨ c ∈ x.registered serial := by
  unfold Exit.registered SetupRequest.key
  rw [conns_registerKey]
  by_cases hs : serial = req.serial
  · subst hs
    simp
  · simp [hs]

theorem Kept.register (h : Kept x) (conn) : Kept (x.register conn) := by
  unfold Exit.register
  split
  · rename_i req hconn
    refine h.advance rfl h.agree (fun serial c hc => ?_) (fun serial => ?_)
      (fun _ _ => ⟨rfl, rfl⟩) (fun addr haddr => ?_)
    · exact (mem_registered_register serial c).trans (by simp [hc])
    · refine (mem_registered_register serial conn).trans ?_
      rw [h.registered_self hconn]
      constructor
      · rintro (⟨rfl, -⟩ | ⟨-, hlive⟩)
        · exact ⟨rfl, rfl⟩
        · cases hlive
      · rintro ⟨rfl, -⟩
        exact Or.inl ⟨rfl, rfl⟩
    · have hnone := h.address_none hconn rfl
      exact absurd (haddr.symm.trans hnone) (by simp)
  · exact h

theorem allocateAt_used (hnew : p.used.addressOf conn = none) (pubkey : Pubkey)
    (intent : SessionIntent) (now) (mayReclaim : Bool) :
    ((p.allocateAt conn pubkey intent now mayReclaim).1 = none ∧
      (p.allocateAt conn pubkey intent now mayReclaim).2.used = p.used) ∨
    ∃ addr, (p.allocateAt conn pubkey intent now mayReclaim).1 = some addr ∧
      (p.allocateAt conn pubkey intent now mayReclaim).2.used =
        p.used.hold conn addr (some pubkey) := by
  have hplaced :=
    (IpAllocator.allocateAt_outcome p conn pubkey intent now mayReclaim hnew).placed
  generalize (p.allocateAt conn pubkey intent now mayReclaim) = r at hplaced ⊢
  obtain ⟨answer, q⟩ := r
  cases answer with
  | none => exact Or.inl ⟨rfl, hplaced.used_of_none⟩
  | some addr => exact Or.inr ⟨addr, rfl, hplaced.used_eq⟩

theorem Kept.allocate (h : Kept x) (conn now) : Kept (x.allocate conn now) := by
  unfold Exit.allocate
  split
  · rename_i req hconn
    have hnone := h.address_none hconn rfl
    have hused := allocateAt_used hnone req.serial req.intent now req.mayReclaim
    generalize x.pool.allocateAt conn req.serial req.intent now req.mayReclaim = answer at hused ⊢
    have hreg : ∀ serial, conn ∈ x.registered serial ↔ req.serial = serial ∧ true = true := by
      intro serial
      rw [h.registered_self hconn]
      exact Iff.rfl
    rcases hused with ⟨-, hused⟩ | ⟨addr, -, hused⟩
    · refine h.advance rfl ?_ (fun _ _ _ => Iff.rfl) hreg (fun c _ => ?_) (fun a ha => ?_)
      · exact hused ▸ h.agree
      · exact ⟨congrArg (·.addressOf c) hused, congrArg (·.ownerOf c) hused⟩
      · have haddr : answer.2.used.addressOf conn = some a := ha
        rw [hused, hnone] at haddr
        cases haddr
    · refine h.advance rfl ?_ (fun _ _ _ => Iff.rfl) hreg (fun c hc => ?_) (fun a _ => ⟨rfl, ?_⟩)
      · exact hused ▸ h.agree.hold hnone
      · constructor
        · show answer.2.used.addressOf c = _
          rw [hused, addressOf_hold, if_neg hc]
        · show answer.2.used.ownerOf c = _
          rw [hused, ownerOf_hold h.agree hnone, if_neg hc]
      · show answer.2.used.ownerOf conn = _
        rw [hused, ownerOf_hold h.agree hnone, if_pos rfl]
  · exact h

theorem mem_registered_unregister (serial c) :
    c ∈ Exit.registered { x with registry := (x.registry.unregisterKey req.key conn).2 } serial ↔
      c ∈ x.registered serial ∧ ¬ (serial = req.serial ∧ c = conn) := by
  unfold Exit.registered SetupRequest.key
  rw [conns_unregisterKey]
  by_cases hs : serial = req.serial
  · subst hs
    simp [and_comm]
  · simp [hs]

private theorem Kept.leaves (h : Kept x) (hconn : x.setups.lookup conn = some (req, stage)) :
    Kept ({ x with registry := (x.registry.unregisterKey req.key conn).2 }.advance conn req
      .ended) := by
  refine h.advance rfl h.agree (fun serial c hc => ?_) (fun serial => ?_) (fun _ _ => ⟨rfl, rfl⟩)
    (fun addr haddr => ⟨rfl, ?_⟩)
  · exact (mem_registered_unregister serial c).trans (by simp [hc])
  · refine (mem_registered_unregister serial conn).trans ?_
    rw [h.registered_self hconn]
    constructor
    · rintro ⟨⟨hserial, -⟩, hnot⟩
      exact absurd ⟨hserial.symm, rfl⟩ hnot
    · rintro ⟨-, hended⟩
      cases hended
  · obtain ⟨req', stage', heq, -, howner⟩ := h.placed conn addr haddr
    rw [hconn] at heq
    cases heq
    exact howner

theorem Kept.unregister (h : Kept x) (conn) : Kept (x.unregister conn) := by
  unfold Exit.unregister
  split
  · rename_i req hconn
    refine h.advance rfl h.agree (fun _ _ _ => Iff.rfl) (fun serial => ?_) (fun _ _ => ⟨rfl, rfl⟩)
      (fun addr haddr => ?_)
    · exact h.registered_self hconn serial
    · exact absurd (haddr.symm.trans (h.address_none hconn rfl)) (by simp)
  · rename_i req hconn
    exact h.leaves hconn
  · rename_i req hconn
    exact h.leaves hconn
  · exact h

theorem used_release (p : IpAllocator) (conn) :
    (p.release conn).used = (p.used.release conn).2 :=
  (congrArg Shelf.used (IpAllocator.shelf_release p conn)).trans (Shelf.used_release _ _)

theorem Kept.release (h : Kept x) (conn) : Kept (x.release conn) := by
  unfold Exit.release
  split
  · rename_i req hconn
    have hother : ∀ c, c ≠ conn → (x.setups.erase conn).lookup c = x.setups.lookup c :=
      fun c hc => AList.lookup_erase_ne hc
    refine ⟨?_, fun serial c => ?_, fun c addr haddr => ?_⟩
    · show (x.pool.release conn).used.Agree
      rw [used_release]
      exact h.agree.release conn
    · refine (h.registered_iff serial c).trans ?_
      by_cases hc : c = conn
      · subst hc
        simp [hconn, Stage.live]
      · show _ ↔ ∃ req stage, (x.setups.erase conn).lookup c = _ ∧ _
        rw [hother c hc]
    · change (x.pool.release conn).used.addressOf c = some addr at haddr
      show ∃ req stage, (x.setups.erase conn).lookup c = _ ∧ _ ∧
        (x.pool.release conn).used.ownerOf c = _
      rw [used_release, addressOf_release] at haddr
      rw [used_release, ownerOf_release]
      by_cases hc : c = conn
      · rw [if_pos hc] at haddr
        cases haddr
      · rw [if_neg hc] at haddr
        rw [if_neg hc, hother c hc]
        exact h.placed c addr haddr
  · exact h

theorem Kept.step (h : Kept x) (s : Section) : Kept (x.step s) := by
  cases s with
  | check conn req => exact h.check conn req
  | register conn => exact h.register conn
  | allocate conn now => exact h.allocate conn now
  | unregister conn => exact h.unregister conn
  | release conn => exact h.release conn
  | enableRestartReclaim eligible now => exact ⟨h.agree, h.registered_iff, h.placed⟩
  | setAddressClaims claims => exact ⟨h.agree, h.registered_iff, h.placed⟩

/-! ### One address for each serial -/

theorem OneAddress.mono (h : OneAddress x)
    (hsub : ∀ serial c addr, c ∈ y.registered serial → y.pool.used.addressOf c = some addr →
      c ∈ x.registered serial ∧ x.pool.used.addressOf c = some addr) : OneAddress y := by
  intro serial c hc c' hc' addr addr' haddr haddr'
  obtain ⟨hcx, haddrx⟩ := hsub serial c addr hc haddr
  obtain ⟨hcx', haddrx'⟩ := hsub serial c' addr' hc' haddr'
  exact h serial c hcx c' hcx' addr addr' haddrx haddrx'

theorem allocateAt_of_held {pubkey : Pubkey} {target : Ipv4Addr}
    (hnew : p.used.addressOf conn = none) (hheld : p.used.heldBy target pubkey = true) (now)
    (mayReclaim : Bool) :
    (p.allocateAt conn pubkey (.join target) now mayReclaim).1 = some target := by
  have hjoin : p.tryJoin conn pubkey (.join target) now mayReclaim =
      (some target, p.hold conn target (some pubkey)) := if_pos hheld
  unfold IpAllocator.allocateAt
  rw [hnew, hjoin]

theorem allocateAt_joins (hk : Kept x) {req : SetupRequest}
    (hnone : x.pool.used.addressOf conn = none) (hcurrent : x.HintCurrent conn req) (now)
    (hc : c ∈ x.registered req.serial) (hne : c ≠ conn) {addr : Ipv4Addr}
    (haddr : x.pool.used.addressOf c = some addr) :
    (x.pool.allocateAt conn req.serial req.intent now req.mayReclaim).1 = some addr := by
  have hintent : req.intent = .join addr := by
    have hnames := hcurrent c hc hne
    rwa [haddr] at hnames
  -- the others hold it under the same key, so it may be joined
  obtain ⟨req', stage', heq, -, howner⟩ := hk.placed c addr haddr
  have hserial := ((hk.registered_self heq req.serial).mp hc).1
  rw [hserial] at howner
  rw [hintent]
  refine allocateAt_of_held hnone ((heldBy_iff hk.agree).mpr ⟨c, ?_⟩) now _
  exact lease_eq_some.mpr ⟨haddr, howner⟩

section

variable (h : OneAddress x)
include h

/-- **An allocation on a current hint joins the others.** -/
theorem OneAddress.allocate (hk : Kept x) (now : ℕ)
    (hok : x.AllocatesCurrent (.allocate conn now)) : OneAddress (x.allocate conn now) := by
  unfold Exit.allocate
  split
  · next req hconn =>
    have hcurrent : x.HintCurrent conn req := by
      unfold AllocatesCurrent at hok
      dsimp only at hok
      rwa [hconn] at hok
    have hnone := hk.address_none hconn rfl
    have hjoins : ∀ c ∈ x.registered req.serial, c ≠ conn → ∀ addr,
        x.pool.used.addressOf c = some addr →
        (x.pool.allocateAt conn req.serial req.intent now req.mayReclaim).1 = some addr :=
      fun c hc hne addr haddr => allocateAt_joins hk hnone hcurrent now hc hne haddr
    have hused := allocateAt_used hnone req.serial req.intent now req.mayReclaim
    generalize x.pool.allocateAt conn req.serial req.intent now req.mayReclaim = answer
      at hjoins hused ⊢
    rcases hused with ⟨-, hused⟩ | ⟨addr₀, hanswer, hused⟩
    · refine h.mono fun serial c addr hc haddr => ⟨hc, ?_⟩
      exact (congrArg (·.addressOf c) hused).symm.trans haddr
    · have hconn₀ : ∀ c addr, answer.2.used.addressOf c = some addr →
          (c = conn ∧ addr = addr₀) ∨ (c ≠ conn ∧ x.pool.used.addressOf c = some addr) := by
        intro c addr haddr
        rw [hused, addressOf_hold] at haddr
        by_cases hc : c = conn
        · rw [if_pos hc] at haddr
          exact Or.inl ⟨hc, (Option.some.inj haddr).symm⟩
        · rw [if_neg hc] at haddr
          exact Or.inr ⟨hc, haddr⟩
      -- a registered connection of the serial next to `conn` holds the answer
      have hsame : ∀ serial c addr, conn ∈ x.registered serial → c ∈ x.registered serial →
          c ≠ conn → x.pool.used.addressOf c = some addr → addr = addr₀ := by
        intro serial c addr hself hc hne haddr
        obtain ⟨rfl, -⟩ := (hk.registered_self hconn serial).mp hself
        exact Option.some.inj ((hjoins c hc hne addr haddr).symm.trans hanswer)
      intro serial c hc c' hc' addr addr' haddr haddr'
      rcases hconn₀ c addr haddr with ⟨rfl, rfl⟩ | ⟨hne, hold⟩ <;>
        rcases hconn₀ c' addr' haddr' with ⟨rfl, rfl⟩ | ⟨hne', hold'⟩
      · rfl
      · exact (hsame serial c' addr' hc hc' hne' hold').symm
      · exact hsame serial c addr hc' hc hne hold
      · exact h serial c hc c' hc' addr addr' hold hold'
  · exact h

theorem OneAddress.check (req) : OneAddress (x.check conn req) := by
  have hsame : (x.check conn req).registry = x.registry ∧ (x.check conn req).pool = x.pool := by
    unfold Exit.check
    split
    · exact ⟨rfl, rfl⟩
    · split <;> exact ⟨rfl, rfl⟩
  refine h.mono fun serial c addr hc haddr => ⟨?_, ?_⟩
  · exact (congrArg (fun r => c ∈ r.live.conns (.tokenSerial serial)) hsame.1).mp hc
  · exact (congrArg (fun p => p.used.addressOf c) hsame.2).symm.trans haddr

theorem OneAddress.register (hk : Kept x) : OneAddress (x.register conn) := by
  unfold Exit.register
  split
  · next req hconn =>
    refine h.mono fun serial c addr hc haddr => ⟨?_, haddr⟩
    rcases (mem_registered_register serial c).mp hc with ⟨-, rfl⟩ | hc
    · -- the newcomer has no address yet
      exact absurd (haddr.symm.trans (hk.address_none hconn rfl)) (by simp)
    · exact hc
  · exact h

theorem OneAddress.unregister : OneAddress (x.unregister conn) := by
  unfold Exit.unregister
  split
  · exact h
  · refine h.mono fun serial c addr hc haddr => ⟨?_, haddr⟩
    exact ((mem_registered_unregister serial c).mp hc).1
  · refine h.mono fun serial c addr hc haddr => ⟨?_, haddr⟩
    exact ((mem_registered_unregister serial c).mp hc).1
  · exact h

theorem OneAddress.release : OneAddress (x.release conn) := by
  unfold Exit.release
  split
  · refine h.mono fun serial c addr hc haddr => ⟨hc, ?_⟩
    change (x.pool.release conn).used.addressOf c = some addr at haddr
    rw [used_release, addressOf_release] at haddr
    by_cases hc : c = conn
    · rw [if_pos hc] at haddr
      cases haddr
    · rwa [if_neg hc] at haddr
  · exact h

theorem OneAddress.step (hk : Kept x) {s : Section}
    (hok : x.AllocatesCurrent s) : OneAddress (x.step s) := by
  cases s with
  | check conn req => exact h.check req
  | register conn => exact h.register hk
  | allocate conn now => exact h.allocate hk now hok
  | unregister conn => exact h.unregister
  | release conn => exact h.release
  | enableRestartReclaim eligible now => exact h
  | setAddressClaims claims => exact h

end

def Fresh (x : Exit) : Prop :=
  x.registry = MultihopSessionRegistry.new ∧ x.setups = ∅ ∧
    ∃ networkIpv4 prefixLen gateway seed,
      IpAllocator.withSeed networkIpv4 prefixLen gateway seed = .ok x.pool

def Reachable (ok : Exit → Section → Prop) : Exit → Prop :=
  Transition.Reachable Fresh (Transition.Guarded ok step)

structure Serves (x : Exit) : Prop where
  kept : Kept x
  one : OneAddress x

theorem serves_fresh (h : Fresh x) : Serves x := by
  obtain ⟨hreg, hset, networkIpv4, prefixLen, gateway, seed, hpool⟩ := h
  have hnone : ∀ serial conn, conn ∉ x.registered serial := by
    intro serial conn hconn
    rw [Exit.registered, hreg] at hconn
    exact Finset.notMem_empty conn hconn
  obtain ⟨hused, -⟩ := IpAllocator.blank_withSeed hpool
  refine ⟨⟨hused ▸ Holdings.Agree.new, fun serial conn => ?_, fun conn addr haddr => ?_⟩, ?_⟩
  · constructor
    · exact fun hconn => absurd hconn (hnone serial conn)
    · rintro ⟨req, stage, heq, -⟩
      rw [hset] at heq
      cases heq
  · rw [hused] at haddr
    cases haddr
  · exact fun serial conn hconn => absurd hconn (hnone serial conn)

/-- **One token serial, one address**: over every interleaving of the lock sections of
setups and ends in which each allocation finds its hint current, all connections
registered at the same time under one serial hold the same tunnel address. -/
theorem registered_share_address (h : Reachable AllocatesCurrent x) :
    ∀ serial, ∀ conn ∈ x.registered serial, ∀ conn' ∈ x.registered serial, ∀ addr addr',
      x.pool.used.addressOf conn = some addr → x.pool.used.addressOf conn' = some addr' →
      addr = addr' := by
  have hinv : Serves x := by
    refine Transition.Reachable.invariant (fun x hx => serves_fresh hx) ?_ h
    rintro x x' hx ⟨s, hok, rfl⟩
    exact ⟨hx.kept.step s, hx.one.step hx.kept hok⟩
  exact hinv.one

/-! ### Two setups on one serial -/

instance (intent : SessionIntent) (held : Option Ipv4Addr) : Decidable (NamesHeld intent held) :=
  match held with
  | some addr => inferInstanceAs (Decidable (intent = .join addr))
  | none => inferInstanceAs (Decidable True)

instance (x : Exit) (conn : ConnId) (req : SetupRequest) : Decidable (x.HintCurrent conn req) :=
  inferInstanceAs (Decidable (∀ conn' ∈ x.registered req.serial, conn' ≠ conn →
    NamesHeld req.intent (x.pool.used.addressOf conn')))

instance (x : Exit) (s : Section) : Decidable (x.AllocatesCurrent s) :=
  match s with
  | .allocate conn _ =>
    match h : x.setups.lookup conn with
    | some (req, _) => decidable_of_iff (x.HintCurrent conn req) (by simp [AllocatesCurrent, h])
    | none => isTrue (by simp [AllocatesCurrent, h])
  | .check _ _ | .register _ | .unregister _ | .release _ | .enableRestartReclaim _ _
  | .setAddressClaims _ => inferInstanceAs (Decidable True)

def idle : Exit := ⟨MultihopSessionRegistry.new, .slash29, ∅⟩

theorem reachable_of_allowed {ok : Exit → Section → Prop} {sections : List Section}
    (h : Transition.Allowed ok step idle sections) : Reachable ok (sections.foldl step idle) := by
  have hstart : Reachable ok idle :=
    .start ⟨rfl, rfl, _, _, _, _, IpAllocator.withSeed_slash29⟩
  exact hstart.run h

def bondedSetups : List Section :=
  [.check 1 ⟨7, 0, false⟩, .register 1, .allocate 1 0,
    .check 2 ⟨7, 0x0A420002, false⟩, .register 2, .allocate 2 0]

theorem registered_share_address_bonded :
    ∃ x : Exit, x.registered 7 = {1, 2} ∧ x.pool.used.addressOf 1 = some 0x0A420002 ∧
      ∀ addr, x.pool.used.addressOf 2 = some addr → addr = 0x0A420002 := by
  have hok : Transition.Allowed AllocatesCurrent step idle bondedSetups := by decide
  have hone : (bondedSetups.foldl step idle).pool.used.addressOf 1 = some 0x0A420002 := by decide
  refine ⟨_, by decide, hone, fun addr haddr => ?_⟩
  exact registered_share_address (reachable_of_allowed hok) 7 2 (by decide) 1 (by decide) addr _
    haddr hone

def racingSetups : List Section :=
  [.check 1 ⟨7, 0, false⟩, .check 2 ⟨7, 0, false⟩, .register 1, .register 2, .allocate 1 0,
    .allocate 2 0]

/-- **Both setups pass the check**, and one serial serves two sessions. -/
theorem racing_setups_split_serial :
    ∃ x : Exit, Reachable (fun _ _ => True) x ∧ x.registered 7 = {1, 2} ∧
      x.pool.used.addressOf 1 = some 0x0A420002 ∧
      x.pool.used.addressOf 2 = some 0x0A420005 := by
  have hok : Transition.Allowed (fun _ _ => True) step idle racingSetups := by decide
  exact ⟨_, reachable_of_allowed hok, by decide, by decide, by decide⟩

end Exit

end Registry

end WarrenGuard
