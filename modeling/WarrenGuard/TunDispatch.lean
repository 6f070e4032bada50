/-
The downlink table of an exit (`warrenguard-server/src/tun_dispatch.rs`).

A tunnel address has a slot with its connections, and its IPv6 address is mapped to the slot.  The
slots and the map have a lock each, which `register` and `unregister` take one after the other, so
calls interleave between the two sections (`State.step`):

* `lost_ipv6_route` — a connection that registers while the last one leaves loses its route;
* `ipv6_follows_slot` — otherwise, while no call is under way, an address is routed if and only if
  its slot has a connection.

Design notes: which connections have closed is up to the step that looks.
-/
import WarrenGuard.IpParse
import WarrenGuard.Table
import WarrenGuard.Transition

namespace WarrenGuard.TunDispatch

open IpParse ByteString Function

def maxConnsPerSlot : ℕ := 16

/-- The host part of a client address in 10.66.0.0/16. -/
def poolOffset (ip : Ipv4Addr) : Option ℕ :=
  if ip.toNat / 65536 ≠ 10 * 256 + 66 then none
  else
    let offset := ip.toNat % 65536
    if offset < 2 ∨ offset = 65535 then none else some offset

inductive RegisterRefused where
  | outsidePool
  | slotFull
deriving DecidableEq

structure TunDownlinkTable where
  slots : ℕ → Option (List ConnId)
  ipv6ToOffset : Table Ipv6Addr ℕ

/-- `add_conn`: whether the connection is added, and the connections of the slot. -/
def addConn (conns : List ConnId) (conn : ConnId) (isClosed : ConnId → Bool) :
    Bool × List ConnId :=
  if maxConnsPerSlot ≤ conns.length then
    let conns := conns.filter fun c => !isClosed c
    if maxConnsPerSlot ≤ conns.length then (false, conns) else (true, conns ++ [conn])
  else (true, conns ++ [conn])

namespace TunDownlinkTable

def new : TunDownlinkTable := ⟨fun _ => none, ∅⟩

variable (t : TunDownlinkTable)

def setSlot (offset : ℕ) (conns : Option (List ConnId)) :
    TunDownlinkTable :=
  { t with slots := Function.update t.slots offset conns }

/-- What `register` does under the lock of the slots. -/
def registerSlot (offset : ℕ) (conn : ConnId) (isClosed : ConnId → Bool) :
    Except RegisterRefused ℕ × TunDownlinkTable :=
  match t.slots offset with
  | some conns =>
    match addConn conns conn isClosed with
    | (false, conns) => (.error .slotFull, t.setSlot offset (some conns))
    | (true, conns) => (.ok conns.length, t.setSlot offset (some conns))
  | none => (.ok 1, t.setSlot offset (some [conn]))

/-- What `unregister` does under the lock of the slots, and whether the slot is empty. -/
def unregisterSlot (offset : ℕ) (conn : ConnId) :
    Bool × TunDownlinkTable :=
  match t.slots offset with
  | some conns =>
    let conns := conns.filter fun c => decide (c ≠ conn)
    if conns.isEmpty then (true, t.setSlot offset none) else (false, t.setSlot offset (some conns))
  | none => (true, t)

def resolveOffset (pkt : List UInt8) : Option ℕ :=
  if pkt.isEmpty then none
  else if byte pkt 0 >>> 4 = 4 then (extractDstIpv4 pkt).bind poolOffset
  else if byte pkt 0 >>> 4 = 6 then (extractDstIpv6 pkt).bind fun dst => t.ipv6ToOffset.lookup dst
  else none

end TunDownlinkTable

/-! ### The calls of the connections -/

/-- Where a connection stands: between the two sections of a call, with what the second one
needs, or between the calls. -/
inductive Phase where
  | idle
  | inserting (v6 : Ipv6Addr) (offset : ℕ)
  | registered
  | removing (v6 : Ipv6Addr)
  | done
deriving DecidableEq

inductive Section where
  | register (isClosed : ConnId → Bool)
  | insert
  | unregister
  | remove

/-- The addresses of the connections.  An IPv6 address goes with one IPv4 address of the pool, so
all connections of that address have it. -/
structure Addresses where
  ipv4 : ConnId → Ipv4Addr
  ipv6 : ℕ → Option Ipv6Addr
  ipv6_inj : ∀ {o o' v}, ipv6 o = some v → ipv6 o' = some v → o = o'

structure State where
  table : TunDownlinkTable
  phase : ConnId → Phase

namespace State

def start : State := ⟨.new, fun _ => .idle⟩

def moveTo (s : State) (c : ConnId) (phase : Phase) (table : TunDownlinkTable) : State :=
  ⟨table, Function.update s.phase c phase⟩

def registerSection (a : Addresses) (s : State) (c : ConnId) (isClosed : ConnId → Bool) : State :=
  match poolOffset (a.ipv4 c) with
  | none => s
  | some offset =>
    match s.table.registerSlot offset c isClosed with
    | (.error _, table) => s.moveTo c .idle table
    | (.ok _, table) => s.moveTo c ((a.ipv6 offset).elim .registered (.inserting · offset)) table

def unregisterSection (a : Addresses) (s : State) (c : ConnId) : State :=
  match poolOffset (a.ipv4 c) with
  | none => s
  | some offset =>
    match s.table.unregisterSlot offset c with
    | (true, table) => s.moveTo c ((a.ipv6 offset).elim .done .removing) table
    | (false, table) => s.moveTo c .done table

/-- A section of the connection `c`, if it is the next one. -/
def step (a : Addresses) (s : State) (i : ConnId × Section) : State :=
  match s.phase i.1, i.2 with
  | .idle, .register isClosed => s.registerSection a i.1 isClosed
  | .inserting v6 offset, .insert =>
    s.moveTo i.1 .registered { s.table with ipv6ToOffset := s.table.ipv6ToOffset.insert v6 offset }
  | .registered, .unregister => s.unregisterSection a i.1
  | .removing v6, .remove =>
    s.moveTo i.1 .done { s.table with ipv6ToOffset := s.table.ipv6ToOffset.erase v6 }
  | _, _ => s

def Quiet (s : State) : Prop :=
  ∀ c, (∀ v6 offset, s.phase c ≠ .inserting v6 offset) ∧ ∀ v6, s.phase c ≠ .removing v6

/-- A register does not come between the sections of a call that drops its route, nor finds a
connection of its address closed that is between the sections of its own. -/
def Clear (a : Addresses) (s : State) : ConnId × Section → Prop
  | (c, .register isClosed) => ∀ c' offset, poolOffset (a.ipv4 c) = some offset →
    (∀ v6, s.phase c' = .removing v6 → a.ipv6 offset ≠ some v6) ∧
    ∀ v6, s.phase c' = .inserting v6 offset → isClosed c' = false
  | _ => True

def Reachable (a : Addresses) (ok : State → ConnId × Section → Prop) : State → Prop :=
  Transition.Reachable (· = start) (Transition.Guarded ok (step a))

end State

/-! ### Routes -/

open State

/-- **Routes and slots**, with the calls under way: the slot of a route that is missing has a
connection about to insert it, and a route without a slot is about to be removed. -/
structure Routed (a : Addresses) (s : State) : Prop where
  occupied : ∀ {o}, s.table.slots o ≠ some []
  inserting : ∀ {c v o}, s.phase c = .inserting v o →
    a.ipv6 o = some v ∧ ∃ conns, s.table.slots o = some conns ∧ c ∈ conns
  removing : ∀ {c v}, s.phase c = .removing v → ∃ o, a.ipv6 o = some v ∧ s.table.slots o = none
  routed : ∀ {v o conns}, a.ipv6 o = some v → s.table.slots o = some conns →
    s.table.ipv6ToOffset.lookup v = some o ∨ ∃ c, s.phase c = .inserting v o
  backed : ∀ {v o}, s.table.ipv6ToOffset.lookup v = some o → a.ipv6 o = some v ∧
    ((∃ conns, s.table.slots o = some conns) ∨ ∃ c, s.phase c = .removing v)

section Sections

variable {a : Addresses} {s : State} {c c' : ConnId} {ph y : Phase} {t : TunDownlinkTable}
  {o o' : ℕ} {x : Option (List ConnId)}

theorem phase_moveTo (h : (s.moveTo c ph t).phase c' = y) : c' = c ∧ ph = y ∨ s.phase c' = y := by
  rcases eq_or_ne c' c with rfl | hne
  · exact .inl ⟨rfl, (update_self ..).symm.trans h⟩
  · exact .inr ((update_of_ne hne ..).symm.trans h)

theorem phase_moveTo_of (h : s.phase c' = y) (hc : s.phase c ≠ y) :
    (s.moveTo c ph t).phase c' = y := by
  refine (update_of_ne ?_ ..).trans h
  rintro rfl
  exact hc h

theorem slots_setSlot : (t.setSlot o x).slots o' = if o' = o then x else t.slots o' :=
  update_apply ..

/-- The first section of `register`: whoever is not closed stays, and the connection is there if
it is not refused. -/
theorem registerSlot_cases (t : TunDownlinkTable) (o c) (isClosed : ConnId → Bool) :
    ∃ r conns, t.registerSlot o c isClosed = (r, t.setSlot o (some conns)) ∧ conns ≠ [] ∧
      (∀ old c', t.slots o = some old → c' ∈ old → isClosed c' = false → c' ∈ conns) ∧
      ((∃ n, r = .ok n) ∧ c ∈ conns ∨ r = .error .slotFull ∧ ∃ old, t.slots o = some old) := by
  unfold TunDownlinkTable.registerSlot
  cases hold : t.slots o with
  | none => exact ⟨_, _, rfl, by simp, nofun, .inl ⟨⟨_, rfl⟩, List.mem_singleton_self c⟩⟩
  | some old =>
    dsimp only [addConn]
    split_ifs with hfull hstill
    · refine ⟨_, _, rfl, fun hnil => ?_, fun _ c' heq hmem hopen => ?_, .inr ⟨rfl, _, rfl⟩⟩
      · rw [hnil] at hstill
        exact absurd hstill (by decide)
      · cases heq
        exact List.mem_filter.mpr ⟨hmem, by simp [hopen]⟩
    · refine ⟨_, _, rfl, by simp, fun _ c' heq hmem hopen => ?_, .inl ⟨⟨_, rfl⟩, by simp⟩⟩
      cases heq
      exact List.mem_append_left _ (List.mem_filter.mpr ⟨hmem, by simp [hopen]⟩)
    · refine ⟨_, _, rfl, by simp, fun _ c' heq hmem _ => ?_, .inl ⟨⟨_, rfl⟩, by simp⟩⟩
      cases heq
      exact List.mem_append_left _ hmem

/-- The first section of `unregister`: the slot has no other connection and goes, or keeps them. -/
theorem unregisterSlot_cases (t : TunDownlinkTable) (o c) :
    (t.unregisterSlot o c = (true, t.setSlot o none) ∧
        ∀ old c', t.slots o = some old → c' ∈ old → c' = c) ∨
      ∃ old conns, t.unregisterSlot o c = (false, t.setSlot o (some conns)) ∧ conns ≠ [] ∧
        t.slots o = some old ∧ ∀ c' ∈ old, c' ≠ c → c' ∈ conns := by
  unfold TunDownlinkTable.unregisterSlot
  cases hold : t.slots o with
  | none =>
    have hsame : t.setSlot o none = t := by
      rw [TunDownlinkTable.setSlot, ← hold, update_eq_self]
    exact .inl ⟨by rw [hsame], nofun⟩
  | some old =>
    dsimp only
    split_ifs with hempty
    · refine .inl ⟨rfl, fun _ c' heq hmem => ?_⟩
      cases heq
      by_contra hne
      exact absurd (List.isEmpty_iff.mp hempty) (List.ne_nil_of_mem
        (List.mem_filter.mpr ⟨hmem, decide_eq_true hne⟩))
    · refine .inr ⟨old, _, rfl, fun hnil => hempty (List.isEmpty_iff.mpr hnil), rfl,
        fun c' hmem hne => List.mem_filter.mpr ⟨hmem, decide_eq_true hne⟩⟩

namespace Routed

variable (h : Routed a s)

include h

/-- **A slot changes**, with the phase of `c`, and no route: what is to be checked. -/
theorem setSlot (hc : ∀ v o, s.phase c ≠ .inserting v o) (hc' : ∀ v, s.phase c ≠ .removing v)
    (hx : x ≠ some []) (hins : ∀ v o', ph = .inserting v o' → o' = o ∧ a.ipv6 o = some v ∧
      ∃ conns, x = some conns ∧ c ∈ conns)
    (hstay : ∀ c' v, s.phase c' = .inserting v o → ∃ conns, x = some conns ∧ c' ∈ conns)
    (hrem : ∀ v, ph = .removing v → a.ipv6 o = some v ∧ x = none)
    (hgone : ∀ c' v, s.phase c' = .removing v → a.ipv6 o = some v → x = none)
    (hroute : ∀ v conns, x = some conns → a.ipv6 o = some v →
      (∃ old, s.table.slots o = some old) ∨ ph = .inserting v o)
    (hback : ∀ v, x = none → a.ipv6 o = some v → ph = .removing v) :
    Routed a (s.moveTo c ph (s.table.setSlot o x)) := by
  refine ⟨fun {o'} => ?_, fun {c' v o'} hp => ?_, fun {c' v} hp => ?_,
    fun {v o' conns} hv hslot => ?_, fun {v o'} hl => ?_⟩
  · show (s.table.setSlot o x).slots o' ≠ some []
    rw [slots_setSlot]
    split_ifs
    · exact hx
    · exact h.occupied
  · show a.ipv6 o' = some v ∧ ∃ conns, (s.table.setSlot o x).slots o' = some conns ∧ c' ∈ conns
    rw [slots_setSlot]
    rcases phase_moveTo hp with ⟨rfl, heq⟩ | hp
    · obtain ⟨rfl, hv, hconns⟩ := hins v o' heq
      rw [if_pos rfl]
      exact ⟨hv, hconns⟩
    · obtain ⟨hv, hconns⟩ := h.inserting hp
      refine ⟨hv, ?_⟩
      split_ifs with ho
      · exact hstay c' v (ho ▸ hp)
      · exact hconns
  · rcases phase_moveTo hp with ⟨rfl, heq⟩ | hp
    · exact ⟨o, (hrem v heq).1, slots_setSlot.trans ((if_pos rfl).trans (hrem v heq).2)⟩
    · obtain ⟨o', hv, hslot⟩ := h.removing hp
      refine ⟨o', hv, slots_setSlot.trans ?_⟩
      split_ifs with ho
      · exact hgone c' v hp (ho ▸ hv)
      · exact hslot
  · have hslot' := slots_setSlot.symm.trans hslot
    have hold : (∃ old, s.table.slots o' = some old) ∨ ph = .inserting v o' := by
      split_ifs at hslot' with ho
      · rw [ho] at hv ⊢
        exact hroute v conns hslot' hv
      · exact .inl ⟨conns, hslot'⟩
    rcases hold with ⟨old, hold⟩ | hph
    · exact (h.routed hv hold).imp_right fun ⟨c', hp⟩ => ⟨c', phase_moveTo_of hp (hc v o')⟩
    · exact .inr ⟨c, (update_self ..).trans hph⟩
  · obtain ⟨hv, hslot | ⟨c', hp⟩⟩ := h.backed hl
    · refine ⟨hv, ?_⟩
      rcases hx' : (s.table.setSlot o x).slots o' with _ | conns
      · have hx' := slots_setSlot.symm.trans hx'
        split_ifs at hx' with ho
        · exact .inr ⟨c, (update_self ..).trans (hback v hx' (ho ▸ hv))⟩
        · rw [hx'] at hslot
          exact absurd hslot nofun
      · exact .inl ⟨conns, hx'⟩
    · exact ⟨hv, .inr ⟨c', phase_moveTo_of hp (hc' v)⟩⟩

theorem register {isClosed : ConnId → Bool} (hc : s.phase c = .idle)
    (hclear : Clear a s (c, .register isClosed)) :
    Routed a (s.registerSection a c isClosed) := by
  unfold registerSection
  split
  · exact h
  rename_i o ho
  obtain ⟨r, conns, heq, hne, hopen, hr⟩ := registerSlot_cases s.table o c isClosed
  have hstay (c' : ConnId) (v : Ipv6Addr) (hp : s.phase c' = .inserting v o) :
      ∃ conns', some conns = some conns' ∧ c' ∈ conns' := by
    obtain ⟨hv, old, hold, hmem⟩ := h.inserting hp
    exact ⟨conns, rfl, hopen old c' hold hmem ((hclear c' o ho).2 v hp)⟩
  have hgone (c' : ConnId) (v : Ipv6Addr) (hp : s.phase c' = .removing v) (hv : a.ipv6 o = some v) :
      some conns = none := absurd hv ((hclear c' o ho).1 v hp)
  rw [heq]
  rcases hr with ⟨⟨n, rfl⟩, hmem⟩ | ⟨rfl, hold⟩
  · refine h.setSlot (by simp [hc]) (by simp [hc]) (by simpa using hne) (fun v o' hph => ?_) hstay
      (fun v hph => ?_) hgone (fun v _ _ hv => .inr ?_) nofun
    · cases hv : a.ipv6 o <;> rw [hv] at hph <;> cases hph
      exact ⟨rfl, rfl, conns, rfl, hmem⟩
    · cases hv : a.ipv6 o <;> rw [hv] at hph <;> cases hph
    · rw [hv]
      rfl
  · exact h.setSlot (by simp [hc]) (by simp [hc]) (by simpa using hne) nofun hstay nofun hgone
      (fun _ _ _ _ => .inl hold) nofun

theorem unregister (hc : s.phase c = .registered) : Routed a (s.unregisterSection a c) := by
  unfold unregisterSection
  split
  · exact h
  rename_i o ho
  have hother (c' : ConnId) (v : Ipv6Addr) (hp : s.phase c' = .inserting v o) : c' ≠ c := by
    rintro rfl
    rw [hc] at hp
    cases hp
  rcases unregisterSlot_cases s.table o c with ⟨heq, hall⟩ | ⟨old, conns, heq, hne, hold, hkeep⟩
  · rw [heq]
    refine h.setSlot (by simp [hc]) (by simp [hc]) nofun (fun v o' hph => ?_) (fun c' v hp => ?_)
      (fun v hph => ?_) (fun _ _ _ _ => rfl) nofun (fun v _ hv => ?_)
    · cases hv : a.ipv6 o <;> rw [hv] at hph <;> cases hph
    · obtain ⟨-, old, hold, hmem⟩ := h.inserting hp
      exact absurd (hall old c' hold hmem) (hother c' v hp)
    · cases hv : a.ipv6 o <;> rw [hv] at hph <;> cases hph
      exact ⟨rfl, rfl⟩
    · rw [hv]
      rfl
  · rw [heq]
    refine h.setSlot (by simp [hc]) (by simp [hc]) (by simpa using hne) nofun
      (fun c' v hp => ?_) nofun (fun c' v hp hv => ?_) (fun _ _ _ _ => .inl ⟨old, hold⟩) nofun
    · obtain ⟨-, old', hold', hmem⟩ := h.inserting hp
      cases hold.symm.trans hold'
      exact ⟨conns, rfl, hkeep c' hmem (hother c' v hp)⟩
    · obtain ⟨o', hv', hnone⟩ := h.removing hp
      rw [a.ipv6_inj hv hv', hnone] at hold
      cases hold

variable {v : Ipv6Addr}

/-- **A route changes**, with the phase of `c` that says so. -/
theorem setRoute {x : Option ℕ} {routes : Table Ipv6Addr ℕ}
    (hl : ∀ v', routes.lookup v' = if v' = v then x else s.table.ipv6ToOffset.lookup v')
    (hph : ∀ v' o, ph ≠ .inserting v' o ∧ ph ≠ .removing v')
    (hc : ∀ v' o, s.phase c = .inserting v' o ∨ s.phase c = .removing v' → v' = v)
    (hroute : ∀ o conns, a.ipv6 o = some v → s.table.slots o = some conns → x = some o)
    (hback : ∀ o, x = some o → a.ipv6 o = some v ∧ ∃ conns, s.table.slots o = some conns) :
    Routed a (s.moveTo c ph { s.table with ipv6ToOffset := routes }) := by
  refine ⟨h.occupied, fun {c' v' o} hp => ?_, fun {c' v'} hp => ?_, fun {v' o _} hv hslot => ?_,
    fun {v' o} hlook => ?_⟩
  · exact h.inserting ((phase_moveTo hp).resolve_left fun hand => (hph v' o).1 hand.2)
  · exact h.removing ((phase_moveTo hp).resolve_left fun hand => (hph v' 0).2 hand.2)
  · show routes.lookup v' = some o ∨ _
    rw [hl]
    split_ifs with heq
    · exact .inl (hroute o _ (heq ▸ hv) hslot)
    · exact (h.routed hv hslot).imp_right fun ⟨c', hp⟩ =>
        ⟨c', phase_moveTo_of hp fun hx => heq (hc v' o (.inl hx))⟩
  · have hlook' := (hl v').symm.trans hlook
    split_ifs at hlook' with heq
    · exact ⟨heq ▸ (hback o hlook').1, .inl (hback o hlook').2⟩
    · exact (h.backed hlook').imp_right (Or.imp_right fun ⟨c', hp⟩ =>
        ⟨c', phase_moveTo_of hp fun hx => heq (hc v' o (.inr hx))⟩)

theorem insert (hc : s.phase c = .inserting v o) :
    Routed a (s.moveTo c .registered
      { s.table with ipv6ToOffset := s.table.ipv6ToOffset.insert v o }) := by
  obtain ⟨hv, conns, hslot, -⟩ := h.inserting hc
  refine h.setRoute (x := some o) (fun v' => Table.lookup_insert' ..) (fun _ _ => ⟨nofun, nofun⟩)
    (fun v' o' hx => ?_) (fun o' _ hv' _ => congrArg some (a.ipv6_inj hv hv')) (fun o' ho => ?_)
  · rw [hc] at hx
    rcases hx with hx | hx <;> cases hx
    rfl
  · cases ho
    exact ⟨hv, conns, hslot⟩

theorem remove (hc : s.phase c = .removing v) :
    Routed a (s.moveTo c .done
      { s.table with ipv6ToOffset := s.table.ipv6ToOffset.erase v }) := by
  obtain ⟨o, hv, hnone⟩ := h.removing hc
  refine h.setRoute (x := none) (fun v' => Table.lookup_erase' ..) (fun _ _ => ⟨nofun, nofun⟩)
    (fun v' o' hx => ?_) (fun o' conns hv' hslot => ?_) nofun
  · rw [hc] at hx
    rcases hx with hx | hx <;> cases hx
    rfl
  · rw [a.ipv6_inj hv' hv, hnone] at hslot
    cases hslot

theorem step (i : ConnId × Section) (hclear : Clear a s i) : Routed a (s.step a i) := by
  obtain ⟨c, i⟩ := i
  unfold State.step
  dsimp only
  split
  · exact h.register (by assumption) hclear
  · exact h.insert (by assumption)
  · exact h.unregister (by assumption)
  · exact h.remove (by assumption)
  · exact h

end Routed

theorem routed_of_reachable (h : Reachable a (Clear a) s) :
    Routed a s := by
  refine Transition.Reachable.invariant ?_ ?_ h
  · rintro s rfl
    exact ⟨nofun, nofun, nofun, nofun, nofun⟩
  · rintro s s' hs ⟨i, hclear, rfl⟩
    exact hs.step i hclear

theorem resolveOffset_ipv6 {pkt : List UInt8} {v : Ipv6Addr} (h : extractDstIpv6 pkt = some v)
    (t : TunDownlinkTable) : t.resolveOffset pkt = t.ipv6ToOffset.lookup v := by
  have hsix := h
  unfold extractDstIpv6 extractIpv6 at hsix
  split_ifs at hsix with hlen hversion
  rw [not_not] at hversion
  have hempty : ¬ pkt.isEmpty = true := fun he =>
    hlen (by simp [List.isEmpty_iff.mp he, ipv6MinHeader])
  rw [TunDownlinkTable.resolveOffset, if_neg hempty, hversion, if_neg (by decide), if_pos rfl, h]
  rfl

/-- **IPv6 routes follow their slot.**  In every interleaving in which no register comes while the
route of its address is being dropped, nor drops a connection that is still being registered: as
long as no call is in progress, a packet to the IPv6 address of a connection is resolved to the
slot of its IPv4 address if and only if that slot has a connection. -/
theorem ipv6_follows_slot (h : Reachable a (Clear a) s) (hquiet : s.Quiet) {v : Ipv6Addr}
    (hv : a.ipv6 o = some v) {pkt : List UInt8} (hpkt : extractDstIpv6 pkt = some v) :
    s.table.resolveOffset pkt = some o ↔
      ∃ conn conns, s.table.slots o = some conns ∧ conn ∈ conns := by
  have hr := routed_of_reachable h
  rw [resolveOffset_ipv6 hpkt]
  constructor
  · intro hl
    rcases (hr.backed hl).2 with ⟨conns, hslot⟩ | ⟨c', hp⟩
    · obtain ⟨conn, hmem⟩ := List.exists_mem_of_ne_nil conns fun hnil => hr.occupied (hnil ▸ hslot)
      exact ⟨conn, conns, hslot, hmem⟩
    · exact absurd hp ((hquiet c').2 v)
  · rintro ⟨-, conns, hslot, -⟩
    exact (hr.routed hv hslot).resolve_right fun ⟨c', hp⟩ => (hquiet c').1 v o hp

end Sections

/-- Every connection has the addresses 10.66.0.2 and 7. -/
def oneHome : Addresses where
  ipv4 _ := 0x0A420002
  ipv6 o := if o = 2 then some 7 else none
  ipv6_inj := by
    intro o o' v h h'
    split_ifs at h h' with ho ho'
    rw [ho, ho']

def toSeven : List UInt8 := 0x60 :: (List.replicate 38 0 ++ [7])

/-- One connection joins another, which then leaves. -/
def relieved : List (ConnId × Section) :=
  [(1, .register fun _ => false), (1, .insert), (2, .register fun _ => false), (2, .insert),
    (1, .unregister)]

/-- Another one registers between the sections of the first one's `unregister`. -/
def crossed : List (ConnId × Section) :=
  [(1, .register fun _ => false), (1, .insert), (1, .unregister),
    (2, .register fun _ => false), (2, .insert), (1, .remove)]

theorem reachable_foldl {a : Addresses} {ok : State → ConnId × Section → Prop}
    {is : List (ConnId × Section)} (h : Transition.Allowed ok (step a) start is) :
    Reachable a ok (is.foldl (step a) start) := by
  have hstart : Reachable a ok start := .start rfl
  exact Transition.Reachable.run hstart h

theorem phase_step_of_ne {a : Addresses} {s : State} {i : ConnId × Section} {c : ConnId}
    (hne : c ≠ i.1) : (s.step a i).phase c = s.phase c := by
  unfold State.step registerSection unregisterSection
  repeat' split
  all_goals first | rfl | exact update_of_ne hne ..

/-- A run of the connections 1 and 2 is quiet when these are. -/
theorem quiet_foldl {a : Addresses} {is : List (ConnId × Section)}
    (his : ∀ i ∈ is, i.1 = 1 ∨ i.1 = 2)
    (hone : (is.foldl (step a) start).phase 1 ∈ [.idle, .registered, .done])
    (htwo : (is.foldl (step a) start).phase 2 ∈ [.idle, .registered, .done]) :
    (is.foldl (step a) start).Quiet := by
  have hother (c : ConnId) (h1 : c ≠ 1) (h2 : c ≠ 2) :
      (is.foldl (step a) start).phase c = .idle := by
    refine List.foldlRecOn (motive := fun s : State => s.phase c = .idle) is (step a)
      (show start.phase c = .idle from rfl) fun s hs i hi => ?_
    rw [phase_step_of_ne, hs]
    rintro rfl
    exact (his i hi).elim h1 h2
  intro c
  have hc : (is.foldl (step a) start).phase c ∈ [.idle, .registered, .done] := by
    by_cases h1 : c = 1
    · exact h1 ▸ hone
    by_cases h2 : c = 2
    · exact h2 ▸ htwo
    rw [hother c h1 h2]
    decide
  constructor <;> intros <;> intro hp <;> simp [hp] at hc

theorem ipv6_follows_slot_relieved :
    (relieved.foldl (step oneHome) start).table.resolveOffset toSeven = some 2 := by
  have hbefore : ((relieved.take 2).foldl (step oneHome) start).Quiet :=
    quiet_foldl (by decide) (by decide) (by decide)
  have hrun : Transition.Allowed (Clear oneHome) (step oneHome) start relieved :=
    ⟨fun _ _ _ => ⟨nofun, nofun⟩, trivial, fun c offset _ =>
      ⟨fun v6 hp => absurd hp ((hbefore c).2 v6), fun v6 hp => absurd hp ((hbefore c).1 v6 offset)⟩,
      trivial, trivial, trivial⟩
  have hquiet : (relieved.foldl (step oneHome) start).Quiet :=
    quiet_foldl (by decide) (by decide) (by decide)
  exact (ipv6_follows_slot (reachable_foldl hrun) hquiet rfl (by decide)).mpr
    ⟨2, [2], rfl, by decide⟩

/-- **A route is lost.**  The last connection leaves its slot, another one registers, and then the
first removes the route: no call is in progress, the slot has a connection, and its IPv6 address
has no route. -/
theorem lost_ipv6_route : ∃ s, Reachable oneHome (fun _ _ => True) s ∧ s.Quiet ∧
    s.table.slots 2 = some [2] ∧ s.table.resolveOffset toSeven = none := by
  have hrun : Transition.Allowed (fun _ _ => True) (step oneHome) start crossed := by decide
  exact ⟨_, reachable_foldl hrun, quiet_foldl (by decide) (by decide) (by decide), by decide,
    by decide⟩

end WarrenGuard.TunDispatch
