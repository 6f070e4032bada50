/-
The wallet sessions of an exit (`multihop/wallet.rs`), as the deployer's gate counts them.

A session is one tunnel address of one account, and the first connection that holds it draws the
id the gate sees.  A connection that finds its session not admitted asks the gate, marks the
session if the answer is to admit it, and leaves when its handler ends; the last one to leave ends
the session, and the end is reported if the session was marked.  Several connections of a session
may be with the gate at once and get different answers:

* `Grouped` — the two tables of the source are one map from connections to sessions
  (`Grouped.slot`, `Grouped.markAdmitted`, `Grouped.leave`);
* `Tables.session` — what the admission part sees of them;
* `wallet_sessions_accounted` — an id the gate admitted is reported once, when the last connection
  that holds it leaves, and no other id ever is;
* `live_before_mark` — an id is not listed between the gate's answer and the mark.

Design notes: no step reads `place`, `admitted`, `marked` and `reported`, and of `drawn` only that
a new id is another.  Ids being distinct, the order in which the sessions are iterated plays no
role.
-/
import WarrenGuard.Basic
import WarrenGuard.Table
import WarrenGuard.Transition
import Mathlib.Data.Finset.Basic

namespace WarrenGuard.Wallet

open Function

/-- The random id of a session, of `WALLET_SESSION_ID_LEN = 16` bytes. -/
abbrev SessionId := BitVec 128

structure WalletSession where
  pubkey : Pubkey
  id : SessionId
deriving DecidableEq

inductive WalletSlot where
  /-- It joined a session the gate already admitted. -/
  | admitted
  /-- It starts a session, or joins one whose admission is still in flight. -/
  | needsGate (session : WalletSession)
deriving DecidableEq

inductive WalletAdmission where
  | admits
  | deviceLimit
  | retired
deriving DecidableEq

structure Entry where
  id : SessionId
  conns : Finset ConnId
  admitted : Bool

/-- An account and the tunnel address it holds: what a session is keyed by. -/
abbrev Place := Pubkey × Ipv4Addr

structure Tables where
  sessions : Table Place Entry
  byConn : Table ConnId Place

namespace Tables

def empty : Tables := ⟨∅, ∅⟩

variable (t : Tables)

/-- `entry(..).or_insert_with(..)`: a new session has the id `fresh` and no connection. -/
def entryOr (place : Place) (fresh : SessionId) : Entry :=
  (t.sessions.lookup place).getD ⟨fresh, ∅, false⟩

/-- Records `conn` as holding `ipv4` for the account, and says whether to ask the gate. -/
def slot (pubkey : Pubkey) (ipv4 : Ipv4Addr) (conn : ConnId) (fresh : SessionId) :
    WalletSlot × Tables :=
  let entry := t.entryOr (pubkey, ipv4) fresh
  (if entry.admitted then .admitted else .needsGate ⟨pubkey, entry.id⟩,
    ⟨t.sessions.insert (pubkey, ipv4) { entry with conns := insert conn entry.conns },
      t.byConn.insert conn (pubkey, ipv4)⟩)

def markAdmitted (session : WalletSession) : Tables :=
  match t.sessions.entries.find? fun e => decide (e.2.id = session.id) with
  | none => t
  | some e => { t with sessions := t.sessions.insert e.1 { e.2 with admitted := true } }

/-- Removes `conn`, and gives the session if it was its last connection and the session
was admitted. -/
def leave (conn : ConnId) : Option WalletSession × Tables :=
  match t.byConn.lookup conn with
  | none => (none, t)
  | some place =>
    match t.sessions.lookup place with
    | none => (none, { t with byConn := t.byConn.erase conn })
    | some entry =>
      if entry.conns.erase conn ≠ ∅ then
        (none, ⟨t.sessions.insert place { entry with conns := entry.conns.erase conn },
          t.byConn.erase conn⟩)
      else
        (if entry.admitted then some ⟨place.1, entry.id⟩ else none,
          ⟨t.sessions.erase place, t.byConn.erase conn⟩)

def live : List WalletSession :=
  (t.sessions.entries.filter fun e => e.2.admitted).map fun e => ⟨e.1.1, e.2.id⟩

/-- What the admission part sees of a session: its id and whether it is marked. -/
def session (place : Place) : Option (SessionId × Bool) :=
  (t.sessions.lookup place).map fun e => (e.id, e.admitted)

end Tables

/-! ### The connections and the gate -/

inductive Phase where
  /-- It holds no address yet. -/
  | setup
  /-- It waits for the gate's answer. -/
  | asking (session : WalletSession)
  /-- The gate's answer is to admit; the session is not marked yet. -/
  | told (session : WalletSession)
  /-- It is served, or was refused and is about to end. -/
  | settled
  | left
deriving DecidableEq

inductive Input where
  | slot (pubkey : Pubkey) (ipv4 : Ipv4Addr) (fresh : SessionId)
  | answer (verdict : WalletAdmission)
  | mark
  | leave

structure Ledger where
  tables : Tables
  phase : ConnId → Phase
  /-- The account and address of a connection, from its slot until it leaves. -/
  place : ConnId → Option Place
  /-- Every id drawn. -/
  drawn : Finset SessionId
  /-- The ids the gate admitted. -/
  admitted : Finset SessionId
  /-- The ids `mark_admitted` was called with. -/
  marked : Finset SessionId
  /-- The sessions reported as ended. -/
  reported : List WalletSession

namespace Ledger

def start : Ledger := ⟨.empty, fun _ => .setup, fun _ => none, ∅, ∅, ∅, []⟩

variable (s : Ledger)

def moveTo (c : ConnId) (phase : Phase) : Ledger :=
  { s with phase := Function.update s.phase c phase }

def takeSlot (c : ConnId) (pubkey : Pubkey) (ipv4 : Ipv4Addr) (fresh : SessionId) :
    Ledger :=
  { s.moveTo c (match (s.tables.slot pubkey ipv4 c fresh).1 with
      | .admitted => .settled
      | .needsGate session => .asking session) with
    tables := (s.tables.slot pubkey ipv4 c fresh).2
    place := Function.update s.place c (some (pubkey, ipv4))
    drawn := insert (s.tables.entryOr (pubkey, ipv4) fresh).id s.drawn }

def answered (c : ConnId) (session : WalletSession) : WalletAdmission → Ledger
  | .admits => { s.moveTo c (.told session) with admitted := insert session.id s.admitted }
  | .deviceLimit | .retired => s.moveTo c .settled

def markSession (c : ConnId) (session : WalletSession) : Ledger :=
  { s.moveTo c .settled with
    tables := s.tables.markAdmitted session
    marked := insert session.id s.marked }

def leaveSession (c : ConnId) : Ledger :=
  { s.moveTo c .left with
    tables := (s.tables.leave c).2
    place := Function.update s.place c none
    reported := s.reported ++ (s.tables.leave c).1.toList }

def stepFrom (c : ConnId) : Phase → Input → Ledger
  | .setup, .slot pubkey ipv4 fresh => s.takeSlot c pubkey ipv4 fresh
  | .asking session, .answer verdict => s.answered c session verdict
  | .told session, .mark => s.markSession c session
  | .settled, .leave => s.leaveSession c
  | _, _ => s

def step (i : ConnId × Input) : Ledger := s.stepFrom i.1 (s.phase i.1) i.2

/-- Session ids are distinct: one that is drawn has not been drawn before. -/
def FreshId : Input → Prop
  | .slot pubkey ipv4 fresh => s.tables.sessions.lookup (pubkey, ipv4) = none → fresh ∉ s.drawn
  | _ => True

instance : (i : Input) → Decidable (s.FreshId i)
  | .slot _ _ _ => inferInstanceAs (Decidable (_ → _))
  | .answer _ | .mark | .leave => inferInstanceAs (Decidable True)

def Reachable : Ledger → Prop :=
  Transition.Reachable (· = start) (Transition.Guarded (fun s i => s.FreshId i.2) step)

def Holds (c : ConnId) (session : WalletSession) : Prop :=
  ∃ ipv4 marked, s.place c = some (session.pubkey, ipv4) ∧
    s.tables.session (session.pubkey, ipv4) = some (session.id, marked)

end Ledger

/-! ### The tables are one map from connections to sessions -/

/-- What `place` says of the session at `p`: it has the connections whose place it is, and
there is none if there are no such connections. -/
def Fits (place : ConnId → Option Place) (p : Place) : Option Entry → Prop
  | none => ∀ c, place c ≠ some p
  | some e => (∃ c, c ∈ e.conns) ∧ ∀ c, c ∈ e.conns ↔ place c = some p

/-- The tables say what `place` says. -/
structure Grouped (t : Tables) (place : ConnId → Option Place) : Prop where
  byConn : ∀ c, t.byConn.lookup c = place c
  sessions : ∀ p, Fits place p (t.sessions.lookup p)

variable {t t' : Tables} {place : ConnId → Option Place} {c : ConnId} {p : Place} {e : Entry}

theorem conns_markAdmitted (t : Tables) (session : WalletSession) (p) :
    ((t.markAdmitted session).sessions.lookup p).map Entry.conns
      = (t.sessions.lookup p).map Entry.conns := by
  unfold Tables.markAdmitted
  split
  · rfl
  · rename_i e hfind
    have hl := Table.lookup_of_mem_entries (List.mem_of_find?_eq_some hfind)
    show ((t.sessions.insert e.1 _).lookup p).map Entry.conns = _
    rw [Table.lookup_insert']
    split
    · rename_i hp
      rw [hp, hl]
      rfl
    · rfl

theorem Grouped.empty : Grouped .empty fun _ => none :=
  ⟨fun _ => rfl, fun _ _ h => by cases h⟩

namespace Grouped

variable (h : Grouped t place)
include h

theorem members (hl : t.sessions.lookup p = some e) (c) :
    c ∈ e.conns ↔ place c = some p := by
  have hfits := h.sessions p
  rw [hl] at hfits
  exact hfits.2 c

theorem occupied (hc : place c = some p) : ∃ e, t.sessions.lookup p = some e := by
  have hfits := h.sessions p
  rcases hl : t.sessions.lookup p with _ | e
  · rw [hl] at hfits
    exact absurd hc (hfits c)
  · exact ⟨e, rfl⟩

theorem inhabited (hl : t.sessions.lookup p = some e) : ∃ c, place c = some p := by
  have hfits := h.sessions p
  rw [hl] at hfits
  obtain ⟨c, hmem⟩ := hfits.1
  exact ⟨c, (hfits.2 c).mp hmem⟩

/-- **One connection moves** to or from the session at `p`, and only that session changes. -/
theorem move {x : Option Place} {o : Option Entry}
    (hc : ∀ p', p' ≠ p → place c ≠ some p' ∧ x ≠ some p')
    (hby : ∀ c', t'.byConn.lookup c' = Function.update place c x c')
    (hl : ∀ p', t'.sessions.lookup p' = if p' = p then o else t.sessions.lookup p')
    (ho : Fits (Function.update place c x) p o) : Grouped t' (Function.update place c x) := by
  refine ⟨hby, fun p' => ?_⟩
  rw [hl p']
  by_cases hp : p' = p
  · rw [if_pos hp, hp]
    exact ho
  rw [if_neg hp]
  -- whether a connection is at `p'` is as it was
  have hsame : ∀ c', update place c x c' = some p' ↔ place c' = some p' := by
    intro c'
    rw [update_apply]
    by_cases hcc : c' = c
    · rw [if_pos hcc, hcc]
      exact ⟨fun hx => absurd hx (hc p' hp).2, fun hx => absurd hx (hc p' hp).1⟩
    · rw [if_neg hcc]
  have hfits := h.sessions p'
  rcases hl' : t.sessions.lookup p' with _ | e <;> rw [hl'] at hfits
  · exact fun c' hx => hfits c' ((hsame c').mp hx)
  · exact ⟨hfits.1, fun c' => (hfits.2 c').trans (hsame c').symm⟩

theorem mem_entryOr (fresh : SessionId) : c ∈ (t.entryOr p fresh).conns ↔ place c = some p := by
  have hfits := h.sessions p
  rw [Tables.entryOr]
  rcases hl : t.sessions.lookup p with _ | e
  · rw [hl] at hfits
    exact ⟨fun hmem => absurd hmem (Finset.notMem_empty c), fun hp => absurd hp (hfits c)⟩
  · exact h.members hl c

theorem slot (hc : place c = none) (pubkey : Pubkey) (ipv4 : Ipv4Addr) (fresh : SessionId) :
    Grouped (t.slot pubkey ipv4 c fresh).2 (Function.update place c (some (pubkey, ipv4))) := by
  refine h.move (p := (pubkey, ipv4)) (fun p' hp => ⟨by simp [hc], by simpa using hp.symm⟩)
    (fun c' => ?_) (fun p' => Table.lookup_insert' t.sessions (pubkey, ipv4) p' _)
    ⟨⟨c, Finset.mem_insert_self c _⟩, fun c' => ?_⟩
  · show (t.byConn.insert c (pubkey, ipv4)).lookup c' = _
    rw [Table.lookup_insert', update_apply, h.byConn]
  · rw [Finset.mem_insert, h.mem_entryOr, update_apply]
    by_cases hcc : c' = c <;> simp [hcc]

theorem markAdmitted (session : WalletSession) : Grouped (t.markAdmitted session) place := by
  refine ⟨fun c => ?_, fun p => ?_⟩
  · rw [← h.byConn c]
    unfold Tables.markAdmitted
    split <;> rfl
  · have hfits := h.sessions p
    have hconns := conns_markAdmitted t session p
    rcases hl' : (t.markAdmitted session).sessions.lookup p with _ | e <;> rw [hl'] at hconns
    · rw [Option.map_none, eq_comm, Option.map_eq_none_iff] at hconns
      rwa [hconns] at hfits
    · rw [Option.map_some, eq_comm, Option.map_eq_some_iff] at hconns
      obtain ⟨e', hl, heq⟩ := hconns
      rw [hl] at hfits
      show (∃ c, c ∈ e.conns) ∧ ∀ c, c ∈ e.conns ↔ place c = some p
      rw [← heq]
      exact hfits

/-- **A leave, for a connection of a session**: the session stays without it, or ends and
is reported if it was marked. -/
theorem leave_eq (hc : place c = some p) :
    ∃ e, t.sessions.lookup p = some e ∧
      (e.conns.erase c ≠ ∅ ∧ t.leave c = (none,
          ⟨t.sessions.insert p { e with conns := e.conns.erase c }, t.byConn.erase c⟩) ∨
        e.conns.erase c = ∅ ∧ t.leave c = (if e.admitted then some ⟨p.1, e.id⟩ else none,
          ⟨t.sessions.erase p, t.byConn.erase c⟩)) := by
  obtain ⟨e, hl⟩ := h.occupied hc
  refine ⟨e, hl, ?_⟩
  have hby : t.byConn.lookup c = some p := by rw [h.byConn, hc]
  simp only [Tables.leave, hby, hl]
  by_cases hlast : e.conns.erase c = ∅
  · exact .inr ⟨hlast, if_neg (not_not.mpr hlast)⟩
  · exact .inl ⟨hlast, if_pos hlast⟩

theorem erase_eq_empty_iff (hl : t.sessions.lookup p = some e) :
    e.conns.erase c = ∅ ↔ ∀ c', c' ≠ c → place c' ≠ some p := by
  simp only [Finset.eq_empty_iff_forall_notMem, Finset.mem_erase, h.members hl, not_and, ne_eq]

theorem leave (hc : place c = some p) : Grouped (t.leave c).2 (Function.update place c none) := by
  have hoff : ∀ p', p' ≠ p → place c ≠ some p' ∧ (none : Option Place) ≠ some p' := by
    intro p' hp
    rw [hc]
    exact ⟨by simpa using hp.symm, by simp⟩
  have hby : ∀ c', (t.byConn.erase c).lookup c' = update place c none c' := by
    intro c'
    rw [Table.lookup_erase', update_apply, h.byConn]
  obtain ⟨e, hl, ⟨hmore, heq⟩ | ⟨hlast, heq⟩⟩ := h.leave_eq hc
  · rw [heq]
    refine h.move hoff hby (fun p' => Table.lookup_insert' t.sessions p p' _)
      ⟨Finset.nonempty_iff_ne_empty.mpr hmore, fun c' => ?_⟩
    rw [Finset.mem_erase, h.members hl, update_apply]
    by_cases hcc : c' = c <;> simp [hcc]
  · rw [heq]
    refine h.move hoff hby (fun p' => Table.lookup_erase' t.sessions p p') fun c' => ?_
    rw [update_apply]
    by_cases hcc : c' = c
    · simp [hcc]
    · rw [if_neg hcc]
      exact (h.erase_eq_empty_iff hl).mp hlast c' hcc

end Grouped

/-! ### What the admission part sees -/

def DistinctIds (t : Tables) : Prop :=
  ∀ ⦃p p' id m m'⦄, t.session p = some (id, m) → t.session p' = some (id, m') → p = p'

variable {m : Bool}

theorem session_eq_some_iff {id : SessionId} :
    t.session p = some (id, m) ↔
      ∃ e, t.sessions.lookup p = some e ∧ e.id = id ∧ e.admitted = m := by
  simp [Tables.session]

theorem session_slot (t : Tables) (pubkey : Pubkey) (ipv4 : Ipv4Addr) (c)
    (fresh : SessionId) (p) : (t.slot pubkey ipv4 c fresh).2.session p
      = if p = (pubkey, ipv4) then some ((t.session (pubkey, ipv4)).getD (fresh, false))
        else t.session p := by
  show ((t.sessions.insert (pubkey, ipv4) _).lookup p).map _ = _
  rw [Table.lookup_insert', Tables.entryOr, Tables.session]
  split
  · cases t.sessions.lookup (pubkey, ipv4) <;> rfl
  · rfl

theorem entryOr_eq (t : Tables) (p) (fresh : SessionId) :
    ((t.entryOr p fresh).id, (t.entryOr p fresh).admitted)
      = (t.session p).getD (fresh, false) := by
  rw [Tables.entryOr, Tables.session]
  cases t.sessions.lookup p <;> rfl

theorem session_markAdmitted (hd : DistinctIds t) (session : WalletSession) (p) :
    (t.markAdmitted session).session p
      = (t.session p).map fun x => (x.1, x.2 || decide (x.1 = session.id)) := by
  unfold Tables.markAdmitted
  split
  · rename_i hnone
    rcases hl : t.sessions.lookup p with _ | e
    · rw [Tables.session, hl]
      rfl
    · have hne := List.find?_eq_none.mp hnone _ (Table.mem_entries_iff.mpr hl)
      have hid : ¬ e.id = session.id := by simpa using hne
      rw [Tables.session, hl]
      simp [hid]
  · rename_i e hfind
    have hid : e.2.id = session.id := by simpa using List.find?_some hfind
    have hl := Table.lookup_of_mem_entries (List.mem_of_find?_eq_some hfind)
    have he := session_eq_some_iff.mpr ⟨e.2, hl, hid, rfl⟩
    show ((t.sessions.insert e.1 _).lookup p).map _ = _
    rw [Table.lookup_insert']
    by_cases hp : p = e.1
    · rw [if_pos hp, hp, he]
      simp [hid]
    · rw [if_neg hp]
      rcases hs : t.session p with _ | ⟨id, m⟩
      · exact hs
      · -- another session has another id
        have hne : id ≠ session.id := fun h => hp (hd (h ▸ hs) he)
        rw [Option.map_some, decide_eq_false hne, Bool.or_false]
        exact hs

theorem Grouped.session_leave (h : Grouped t place) (hc : place c = some p) {p' : Place}
    {x : SessionId × Bool} : (t.leave c).2.session p' = some x ↔
      t.session p' = some x ∧ (p' = p → ∃ c', c' ≠ c ∧ place c' = some p) := by
  obtain ⟨e, hl, ⟨hmore, heq⟩ | ⟨hlast, heq⟩⟩ := h.leave_eq hc
  · have hother : ∃ c', c' ≠ c ∧ place c' = some p := by
      by_contra hno
      refine hmore ((h.erase_eq_empty_iff hl).mpr fun c' hne hp => hno ⟨c', hne, hp⟩)
    have hsame : (t.leave c).2.session p' = t.session p' := by
      rw [heq]
      show ((t.sessions.insert p _).lookup p').map _ = _
      rw [Table.lookup_insert']
      split
      · rename_i hp
        rw [hp, Tables.session, hl]
        rfl
      · rfl
    rw [hsame]
    exact ⟨fun hx => ⟨hx, fun _ => hother⟩, And.left⟩
  · have hall := (h.erase_eq_empty_iff hl).mp hlast
    rw [heq]
    show ((t.sessions.erase p).lookup p').map _ = some x ↔ _
    rw [Table.lookup_erase']
    by_cases hp : p' = p
    · rw [if_pos hp]
      refine ⟨fun hx => (by cases hx), fun hand => ?_⟩
      obtain ⟨c', hne, hc'⟩ := hand.2 hp
      exact absurd hc' (hall c' hne)
    · rw [if_neg hp]
      exact ⟨fun hx => ⟨hx, fun hpp => absurd hpp hp⟩, And.left⟩

/-- **What a leave reports**: a marked session without other connections. -/
theorem Grouped.leave_eq_some_iff (h : Grouped t place) (hc : place c = some p)
    {w : WalletSession} : (t.leave c).1 = some w ↔
      p.1 = w.pubkey ∧ t.session p = some (w.id, true) ∧ ∀ c', c' ≠ c → place c' ≠ some p := by
  obtain ⟨e, hl, ⟨hmore, heq⟩ | ⟨hlast, heq⟩⟩ := h.leave_eq hc
  · rw [heq]
    refine ⟨fun hx => (by cases hx), fun hand => ?_⟩
    exact absurd ((h.erase_eq_empty_iff hl).mpr hand.2.2) hmore
  · have hall := (h.erase_eq_empty_iff hl).mp hlast
    have hs : t.session p = some (e.id, e.admitted) := session_eq_some_iff.mpr ⟨e, hl, rfl, rfl⟩
    rw [heq, hs]
    cases hadm : e.admitted with
    | false => simp
    | true =>
      simp only [if_true, Option.some.injEq, Prod.mk.injEq, and_true]
      constructor
      · rintro rfl
        exact ⟨rfl, rfl, hall⟩
      · rintro ⟨hkey, hid, -⟩
        cases w
        cases hkey
        cases hid
        rfl

theorem mem_live {w : WalletSession} :
    w ∈ t.live ↔ ∃ ipv4, t.session (w.pubkey, ipv4) = some (w.id, true) := by
  simp only [Tables.live, List.mem_map, List.mem_filter, session_eq_some_iff]
  constructor
  · rintro ⟨e, ⟨hmem, hadm⟩, rfl⟩
    exact ⟨e.1.2, e.2, Table.lookup_of_mem_entries hmem, rfl, hadm⟩
  · rintro ⟨ipv4, e, hl, hid, hadm⟩
    refine ⟨⟨(w.pubkey, ipv4), e⟩, ⟨Table.mem_entries_iff.mpr hl, hadm⟩, ?_⟩
    cases w
    cases hid
    rfl

/-! ### One step -/

/-- What the phase of a connection says of the tables: it is in a session from its slot
until it leaves, and in the one it asked about. -/
def Ledger.Stands (s : Ledger) (c : ConnId) : Phase → Prop
  | .setup => s.place c = none
  | .asking w => s.Holds c w
  | .told w => s.Holds c w ∧ w.id ∈ s.admitted
  | .settled => ∃ p, s.place c = some p
  | .left => True

/-- The phases and the tables; an id that is admitted and not marked is about to be. -/
structure Standing (s : Ledger) : Prop where
  grouped : Grouped s.tables s.place
  stands : ∀ c, s.Stands c (s.phase c)
  pending : ∀ id ∈ s.admitted, id ∈ s.marked ∨ ∃ c w, s.phase c = .told w ∧ w.id = id

/-- The ids: a session has an id of its own, which was drawn, and knows whether it is
marked. -/
structure Numbered (s : Ledger) : Prop where
  distinct : DistinctIds s.tables
  drawn : ∀ {p id m}, s.tables.session p = some (id, m) → id ∈ s.drawn
  flag : ∀ {p id m}, s.tables.session p = some (id, m) → (m = true ↔ id ∈ s.marked)
  admitted : ∀ {id}, id ∈ s.admitted → id ∈ s.drawn
  marked : ∀ {id}, id ∈ s.marked → id ∈ s.admitted

/-- The reports: a marked id is reported once its session has ended, and not again. -/
structure Settled (s : Ledger) : Prop where
  nodup : (s.reported.map WalletSession.id).Nodup
  ended : ∀ {id}, id ∈ s.reported.map WalletSession.id →
    id ∈ s.marked ∧ ∀ p m, s.tables.session p ≠ some (id, m)
  owed : ∀ {id}, id ∈ s.marked →
    id ∈ s.reported.map WalletSession.id ∨ ∃ p m, s.tables.session p = some (id, m)

structure Accounts (s : Ledger) : Prop where
  standing : Standing s
  numbered : Numbered s
  settled : Settled s

variable {s s' : Ledger} {w : WalletSession} {pubkey : Pubkey} {ipv4 : Ipv4Addr}
  {fresh : SessionId}

theorem Accounts.start : Accounts .start where
  standing := ⟨.empty, fun _ => rfl, fun _ h => absurd h (Finset.notMem_empty _)⟩
  numbered := ⟨fun _ _ _ _ _ h => (by cases h), fun h => (by cases h), fun h => (by cases h),
    fun h => absurd h (Finset.notMem_empty _), fun h => absurd h (Finset.notMem_empty _)⟩
  settled := ⟨List.nodup_nil, fun h => absurd h List.not_mem_nil,
    fun h => absurd h (Finset.notMem_empty _)⟩

variable {id : SessionId}

theorem Numbered.drawn_of_marked (h : Numbered s) (hid : id ∈ s.marked) : id ∈ s.drawn :=
  h.admitted (h.marked hid)

/-- A step of the connection `c`, as the others see it: their phases and places are as they
were, and their sessions keep their ids. -/
structure Frame (c : ConnId) (s s' : Ledger) : Prop where
  phase : ∀ c', c' ≠ c → s'.phase c' = s.phase c'
  place : ∀ c', c' ≠ c → s'.place c' = s.place c'
  session : ∀ c' p id m, c' ≠ c → s.place c' = some p → s.tables.session p = some (id, m) →
    ∃ m', s'.tables.session p = some (id, m')
  admitted : s.admitted ⊆ s'.admitted

theorem Frame.holds (h : Frame c s s') {c' : ConnId} (hne : c' ≠ c) (hw : s.Holds c' w) :
    s'.Holds c' w := by
  obtain ⟨ipv4, m, hp, hs⟩ := hw
  obtain ⟨m', hs'⟩ := h.session c' _ _ _ hne hp hs
  exact ⟨ipv4, m', (h.place c' hne).trans hp, hs'⟩

/-- **The rule for a step**: the other connections stand where they stood. -/
theorem Frame.standing (h : Frame c s s') (hst : Standing s)
    (hgrouped : Grouped s'.tables s'.place) (hmine : s'.Stands c (s'.phase c))
    (hpending : ∀ id ∈ s'.admitted, id ∈ s'.marked ∨ ∃ c w, s'.phase c = .told w ∧ w.id = id) :
    Standing s' := by
  refine ⟨hgrouped, fun c' => ?_, hpending⟩
  by_cases hne : c' = c
  · rw [hne]
    exact hmine
  have hstands := hst.stands c'
  rw [h.phase c' hne]
  cases hphase : s.phase c' <;> rw [hphase] at hstands
  case setup => exact (h.place c' hne).trans hstands
  case asking w => exact h.holds hne hstands
  case told w => exact ⟨h.holds hne hstands.1, h.admitted hstands.2⟩
  case settled =>
    obtain ⟨p, hp⟩ := hstands
    exact ⟨p, (h.place c' hne).trans hp⟩
  case left => trivial

theorem Frame.told (h : Frame c s s') (hc : ∀ w, s.phase c ≠ .told w)
    (htold : ∃ c w, s.phase c = .told w ∧ w.id = id) : ∃ c w, s'.phase c = .told w ∧ w.id = id := by
  obtain ⟨c', w, hc', hw⟩ := htold
  have hne : c' ≠ c := by
    rintro rfl
    exact hc w hc'
  exact ⟨c', w, (h.phase c' hne).trans hc', hw⟩

theorem Standing.stands_of (h : Standing s) {x : Phase} (hc : s.phase c = x) : s.Stands c x :=
  hc ▸ h.stands c

/-! #### A connection takes its slot -/

theorem session_slot_cases (h : (t.slot pubkey ipv4 c fresh).2.session p = some (id, m)) :
    t.session p = some (id, m) ∨
      p = (pubkey, ipv4) ∧ t.session (pubkey, ipv4) = none ∧ id = fresh ∧ m = false := by
  rw [session_slot] at h
  split at h
  · rename_i hp
    rcases hs : t.session (pubkey, ipv4) with _ | x <;> rw [hs] at h
    · cases h
      exact .inr ⟨hp, rfl, rfl, rfl⟩
    · exact .inl (hp ▸ hs.trans h)
  · exact .inl h

theorem session_slot_of_some {x : SessionId × Bool} (h : t.session p = some x) :
    (t.slot pubkey ipv4 c fresh).2.session p = some x := by
  rw [session_slot]
  split
  · rename_i hp
    rw [← hp, h]
    rfl
  · exact h

theorem session_slot_self :
    (t.slot pubkey ipv4 c fresh).2.session (pubkey, ipv4)
      = some ((t.entryOr (pubkey, ipv4) fresh).id, (t.entryOr (pubkey, ipv4) fresh).admitted) := by
  rw [session_slot, if_pos rfl, entryOr_eq]

theorem phase_takeSlot (s : Ledger) (c pubkey ipv4 fresh) :
    (s.takeSlot c pubkey ipv4 fresh).phase c = .settled ∨
      (s.takeSlot c pubkey ipv4 fresh).phase c
        = .asking ⟨pubkey, (s.tables.entryOr (pubkey, ipv4) fresh).id⟩ := by
  have hphase : (s.takeSlot c pubkey ipv4 fresh).phase c
      = match (s.tables.slot pubkey ipv4 c fresh).1 with
        | .admitted => .settled
        | .needsGate session => .asking session := update_self ..
  rw [hphase, Tables.slot]
  cases (s.tables.entryOr (pubkey, ipv4) fresh).admitted with
  | true => exact .inl rfl
  | false => exact .inr rfl

theorem Standing.takeSlot (h : Standing s) (hc : s.phase c = .setup) (pubkey ipv4 fresh) :
    Standing (s.takeSlot c pubkey ipv4 fresh) := by
  have hplace : s.place c = none := h.stands_of hc
  have hself : (s.takeSlot c pubkey ipv4 fresh).place c = some (pubkey, ipv4) :=
    update_self ..
  have hframe : Frame c s (s.takeSlot c pubkey ipv4 fresh) :=
    ⟨fun c' hne => update_of_ne hne .., fun c' hne => update_of_ne hne ..,
      fun c' p id m _ _ hs => ⟨m, session_slot_of_some hs⟩, Finset.Subset.refl _⟩
  refine hframe.standing h (h.grouped.slot hplace pubkey ipv4 fresh) ?_ fun id hid =>
    (h.pending id hid).imp_right (hframe.told fun w hx => (by rw [hc] at hx; cases hx))
  rcases phase_takeSlot s c pubkey ipv4 fresh with hx | hx <;> rw [hx]
  · exact ⟨_, hself⟩
  · exact ⟨ipv4, _, hself, session_slot_self⟩

theorem Numbered.takeSlot (h : Numbered s) (c) (hfresh : s.FreshId (.slot pubkey ipv4 fresh)) :
    Numbered (s.takeSlot c pubkey ipv4 fresh) := by
  have hnew : s.tables.session (pubkey, ipv4) = none → fresh ∉ s.drawn := fun hs =>
    hfresh (Option.map_eq_none_iff.mp hs)
  refine ⟨fun p p' id m m' hp hp' => ?_, fun {p id m} hp => ?_, fun {p id m} hp => ?_,
    fun hid => Finset.mem_insert_of_mem (h.admitted hid), h.marked⟩
  · rcases session_slot_cases hp with hs | ⟨rfl, hnone, rfl, -⟩ <;>
      rcases session_slot_cases hp' with hs' | ⟨rfl, hnone', hid, -⟩
    · exact h.distinct hs hs'
    · exact absurd (h.drawn hs) (hid ▸ hnew hnone')
    · exact absurd (h.drawn hs') (hnew hnone)
    · rfl
  · rcases session_slot_cases hp with hs | ⟨rfl, -, -, -⟩
    · exact Finset.mem_insert_of_mem (h.drawn hs)
    · have hself := session_slot_self.symm.trans hp
      cases hself
      exact Finset.mem_insert_self ..
  · rcases session_slot_cases hp with hs | ⟨rfl, hnone, rfl, rfl⟩
    · exact h.flag hs
    · exact ⟨fun hx => (by cases hx), fun hid => absurd (h.drawn_of_marked hid) (hnew hnone)⟩

theorem Settled.takeSlot (h : Settled s) (hn : Numbered s) (c)
    (hfresh : s.FreshId (.slot pubkey ipv4 fresh)) : Settled (s.takeSlot c pubkey ipv4 fresh) := by
  refine ⟨h.nodup, fun {id} hid => ?_, fun {id} hid => ?_⟩
  · obtain ⟨hmarked, hgone⟩ := h.ended hid
    refine ⟨hmarked, fun p m hp => ?_⟩
    rcases session_slot_cases hp with hs | ⟨rfl, hnone, rfl, -⟩
    · exact hgone p m hs
    · -- the new id was never drawn, so never marked
      exact absurd (hn.drawn_of_marked hmarked) (hfresh (Option.map_eq_none_iff.mp hnone))
  · refine (h.owed hid).imp_right ?_
    rintro ⟨p, m, hs⟩
    exact ⟨p, m, session_slot_of_some hs⟩

/-! #### The gate answers, and the session is marked -/

theorem Accounts.answered (h : Accounts s) (hc : s.phase c = .asking w)
    (verdict : WalletAdmission) : Accounts (s.answered c w verdict) := by
  have hst := h.standing
  have hn := h.numbered
  have hholds : s.Holds c w := hst.stands_of hc
  obtain ⟨ipv4, m, hp, hs⟩ := hholds
  have hnot : ∀ w', s.phase c ≠ .told w' := fun w' hx => (by rw [hc] at hx; cases hx)
  have hrefused : Accounts (s.moveTo c .settled) := by
    have hframe : Frame c s (s.moveTo c .settled) :=
      ⟨fun c' hne => update_of_ne hne .., fun c' _ => rfl,
        fun c' p id m _ _ hs => ⟨m, hs⟩, Finset.Subset.refl _⟩
    have hphase : (s.moveTo c .settled).phase c = .settled := update_self ..
    refine ⟨hframe.standing hst hst.grouped ?_ fun id hid =>
        (hst.pending id hid).imp_right (hframe.told hnot),
      ⟨hn.distinct, hn.drawn, hn.flag, hn.admitted, hn.marked⟩,
      ⟨h.settled.nodup, h.settled.ended, h.settled.owed⟩⟩
    rw [hphase]
    exact ⟨_, hp⟩
  cases verdict with
  | deviceLimit => exact hrefused
  | retired => exact hrefused
  | admits =>
    have hframe : Frame c s (s.answered c w .admits) :=
      ⟨fun c' hne => update_of_ne hne .., fun c' _ => rfl,
        fun c' p id m _ _ hs => ⟨m, hs⟩, Finset.subset_insert ..⟩
    have hphase : (s.answered c w .admits).phase c = .told w := update_self ..
    refine ⟨hframe.standing hst hst.grouped ?_ fun id hid => ?_,
      ⟨hn.distinct, hn.drawn, hn.flag, fun {id} hid => ?_,
        fun hid => Finset.mem_insert_of_mem (hn.marked hid)⟩,
      ⟨h.settled.nodup, h.settled.ended, h.settled.owed⟩⟩
    · rw [hphase]
      exact ⟨⟨ipv4, m, hp, hs⟩, Finset.mem_insert_self ..⟩
    · rcases Finset.mem_insert.mp hid with rfl | hid
      · exact .inr ⟨c, w, hphase, rfl⟩
      · exact (hst.pending id hid).imp_right (hframe.told hnot)
    · rcases Finset.mem_insert.mp hid with rfl | hid
      · exact hn.drawn hs
      · exact hn.admitted hid

theorem session_markAdmitted_cases (hd : DistinctIds t)
    (h : (t.markAdmitted w).session p = some (id, m)) :
    ∃ m', t.session p = some (id, m') ∧ m = (m' || decide (id = w.id)) := by
  rw [session_markAdmitted hd, Option.map_eq_some_iff] at h
  obtain ⟨⟨id', m'⟩, hs, hx⟩ := h
  cases hx
  exact ⟨m', hs, rfl⟩

theorem session_markAdmitted_of_some (hd : DistinctIds t)
    (h : t.session p = some (id, m)) : ∃ m', (t.markAdmitted w).session p = some (id, m') := by
  rw [session_markAdmitted hd, h]
  exact ⟨_, rfl⟩

theorem Accounts.markSession (h : Accounts s) (hc : s.phase c = .told w) :
    Accounts (s.markSession c w) := by
  have hst := h.standing
  have hn := h.numbered
  have hd := hn.distinct
  have hstands : s.Holds c w ∧ w.id ∈ s.admitted := hst.stands_of hc
  obtain ⟨⟨ipv4, m, hp, hs⟩, hadm⟩ := hstands
  have hframe : Frame c s (s.markSession c w) :=
    ⟨fun c' hne => update_of_ne hne .., fun c' _ => rfl,
      fun c' p id m _ _ hs => session_markAdmitted_of_some hd hs, Finset.Subset.refl _⟩
  have hphase : (s.markSession c w).phase c = .settled := update_self ..
  refine ⟨hframe.standing hst (hst.grouped.markAdmitted w) ?_ fun id hid => ?_, ?_, ?_⟩
  · rw [hphase]
    exact ⟨_, hp⟩
  · rcases hst.pending id hid with hmarked | ⟨c', w', hc', rfl⟩
    · exact .inl (Finset.mem_insert_of_mem hmarked)
    · by_cases hne : c' = c
      · -- this connection has just marked it
        rw [hne, hc] at hc'
        cases hc'
        exact .inl (Finset.mem_insert_self ..)
      · exact .inr ⟨c', w', (hframe.phase c' hne).trans hc', rfl⟩
  · refine ⟨fun _ _ _ _ _ hp hp' => ?_, fun hp => ?_, fun hp => ?_, hn.admitted, fun hid => ?_⟩
    · obtain ⟨m, hs, -⟩ := session_markAdmitted_cases hd hp
      obtain ⟨m', hs', -⟩ := session_markAdmitted_cases hd hp'
      exact hd hs hs'
    · obtain ⟨m, hs, -⟩ := session_markAdmitted_cases hd hp
      exact hn.drawn hs
    · obtain ⟨m, hs, rfl⟩ := session_markAdmitted_cases hd hp
      rw [Bool.or_eq_true, decide_eq_true_eq, hn.flag hs, or_comm]
      exact Finset.mem_insert.symm
    · rcases Finset.mem_insert.mp hid with rfl | hid
      · exact hadm
      · exact hn.marked hid
  · refine ⟨h.settled.nodup, fun hid => ?_, fun {id} hid => ?_⟩
    · obtain ⟨hmarked, hgone⟩ := h.settled.ended hid
      refine ⟨Finset.mem_insert_of_mem hmarked, fun p m hp => ?_⟩
      obtain ⟨m', hs', -⟩ := session_markAdmitted_cases hd hp
      exact hgone p m' hs'
    · rcases Finset.mem_insert.mp hid with rfl | hid
      · exact .inr ⟨_, session_markAdmitted_of_some hd hs⟩
      · refine (h.settled.owed hid).imp_right ?_
        rintro ⟨p, m, hs⟩
        exact ⟨p, session_markAdmitted_of_some hd hs⟩

/-! #### A connection leaves -/

theorem Standing.leaveSession (h : Standing s) (hc : s.phase c = .settled)
    (hp : s.place c = some p) : Standing (s.leaveSession c) := by
  have hframe : Frame c s (s.leaveSession c) := by
    refine ⟨fun c' hne => update_of_ne hne .., fun c' hne => update_of_ne hne ..,
      fun c' p' id m hne hp' hs => ⟨m, ?_⟩, Finset.Subset.refl _⟩
    exact (h.grouped.session_leave hp).mpr ⟨hs, fun heq => ⟨c', hne, heq ▸ hp'⟩⟩
  have hphase : (s.leaveSession c).phase c = .left := update_self ..
  refine hframe.standing h (h.grouped.leave hp) ?_ fun id hid =>
    (h.pending id hid).imp_right (hframe.told fun w hx => (by rw [hc] at hx; cases hx))
  rw [hphase]
  trivial

theorem Numbered.leaveSession (h : Numbered s) (hg : Grouped s.tables s.place)
    (hp : s.place c = some p) : Numbered (s.leaveSession c) := by
  refine ⟨fun _ _ _ _ _ hs hs' => ?_, fun hs => ?_, fun hs => ?_, h.admitted, h.marked⟩
  · exact h.distinct ((hg.session_leave hp).mp hs).1 ((hg.session_leave hp).mp hs').1
  · exact h.drawn ((hg.session_leave hp).mp hs).1
  · exact h.flag ((hg.session_leave hp).mp hs).1

/-- **The end of a session is settled**: it is reported if it is marked, and then only. -/
theorem Settled.leaveSession (h : Settled s) (hn : Numbered s) (hg : Grouped s.tables s.place)
    (hp : s.place c = some p) : Settled (s.leaveSession c) := by
  have hmem : ∀ {id}, id ∈ (s.leaveSession c).reported.map WalletSession.id ↔
      id ∈ s.reported.map WalletSession.id ∨ ∃ w, (s.tables.leave c).1 = some w ∧ w.id = id := by
    intro id
    simp [Ledger.leaveSession]
  -- a session that is reported is there before the leave
  have hthere : ∀ {w}, (s.tables.leave c).1 = some w → s.tables.session p = some (w.id, true) :=
    fun hw => ((hg.leave_eq_some_iff hp).mp hw).2.1
  refine ⟨?_, fun {id} hid => ?_, fun {id} hid => ?_⟩
  · show ((s.reported ++ (s.tables.leave c).1.toList).map WalletSession.id).Nodup
    rw [List.map_append, List.nodup_append]
    refine ⟨h.nodup, ?_, fun id hid id' hid' heq => ?_⟩
    · cases (s.tables.leave c).1 <;> simp
    · obtain ⟨w, hw, rfl⟩ := List.mem_map.mp hid'
      exact (h.ended (heq ▸ hid)).2 _ _ (hthere (Option.mem_toList.mp hw))
  · rcases hmem.mp hid with hid | ⟨w, hw, rfl⟩
    · obtain ⟨hmarked, hgone⟩ := h.ended hid
      exact ⟨hmarked, fun p' m hs => hgone p' m ((hg.session_leave hp).mp hs).1⟩
    · refine ⟨(hn.flag (hthere hw)).mp rfl, fun p' m hs => ?_⟩
      obtain ⟨hs, hothers⟩ := (hg.session_leave hp).mp hs
      obtain ⟨c', hne, hc'⟩ := hothers (hn.distinct hs (hthere hw))
      exact ((hg.leave_eq_some_iff hp).mp hw).2.2 c' hne hc'
  · rw [hmem]
    rcases h.owed hid with hrep | ⟨p', m, hs⟩
    · exact .inl (.inl hrep)
    by_cases hstays : p' = p → ∃ c', c' ≠ c ∧ s.place c' = some p
    · exact .inr ⟨p', m, (hg.session_leave hp).mpr ⟨hs, hstays⟩⟩
    · -- the session ends here, and it is marked
      obtain ⟨rfl, hlast⟩ := Classical.not_imp.mp hstays
      obtain rfl : m = true := (hn.flag hs).mpr hid
      refine .inl (.inr ⟨⟨p'.1, id⟩, (hg.leave_eq_some_iff hp).mpr ⟨rfl, hs, ?_⟩, rfl⟩)
      exact fun c' hne hc' => hlast ⟨c', hne, hc'⟩

/-! ### Every run -/

theorem Accounts.step (h : Accounts s) (i : ConnId × Input) (hfresh : s.FreshId i.2) :
    Accounts (s.step i) := by
  obtain ⟨c, input⟩ := i
  show Accounts (s.stepFrom c (s.phase c) input)
  cases hc : s.phase c <;> cases input
  case setup.slot pubkey ipv4 fresh =>
    exact ⟨h.standing.takeSlot hc pubkey ipv4 fresh, h.numbered.takeSlot c hfresh,
      h.settled.takeSlot h.numbered c hfresh⟩
  case asking.answer w verdict => exact h.answered hc verdict
  case told.mark w => exact h.markSession hc
  case settled.leave =>
    obtain ⟨p, hp⟩ : ∃ p, s.place c = some p := h.standing.stands_of hc
    exact ⟨h.standing.leaveSession hc hp, h.numbered.leaveSession h.standing.grouped hp,
      h.settled.leaveSession h.numbered h.standing.grouped hp⟩
  all_goals exact h

theorem Ledger.Reachable.accounts (h : s.Reachable) : Accounts s := by
  refine Transition.Reachable.invariant (I := Accounts) ?_ ?_ h
  · rintro s rfl
    exact .start
  · rintro s s' hs ⟨i, hfresh, rfl⟩
    exact hs.step i hfresh

namespace Accounts

theorem holds_of_session (h : Accounts s) {m : Bool} (hs : s.tables.session p = some (id, m)) :
    ∃ c, s.Holds c ⟨p.1, id⟩ := by
  obtain ⟨e, hl, -, -⟩ := session_eq_some_iff.mp hs
  obtain ⟨c, hc⟩ := h.standing.grouped.inhabited hl
  exact ⟨c, p.2, m, hc, hs⟩

theorem place_eq_of_holds (h : Accounts s) {m : Bool} (hs : s.tables.session p = some (id, m))
    (hw : s.Holds c w) (hid : w.id = id) : s.place c = some p := by
  obtain ⟨ipv4, m', hp, hs'⟩ := hw
  rw [hid] at hs'
  rw [hp, h.numbered.distinct hs' hs]

end Accounts

/-- **Sessions are accounted for.**  In every interleaving:

* no id is reported twice;
* an id that is reported was admitted by the gate, and no connection holds it;
* an id the gate admitted is reported, unless a connection holds it;
* the leave of a connection reports the session it holds, if the gate admitted it and no
  other connection holds it;
* `live` lists the sessions that are marked and held;
* an id that is admitted and not marked is about to be marked by a connection. -/
theorem wallet_sessions_accounted (h : s.Reachable) :
    (s.reported.map WalletSession.id).Nodup ∧
    (∀ w ∈ s.reported, w.id ∈ s.admitted ∧ ∀ c w', s.Holds c w' → w'.id ≠ w.id) ∧
    (∀ id ∈ s.admitted, id ∈ s.reported.map WalletSession.id ∨ ∃ c w, s.Holds c w ∧ w.id = id) ∧
    (∀ c w, s.phase c = .settled → ((s.tables.leave c).1 = some w ↔
      w.id ∈ s.admitted ∧ s.Holds c w ∧ ∀ c', c' ≠ c → ¬ s.Holds c' w)) ∧
    (∀ w, w ∈ s.tables.live ↔ w.id ∈ s.marked ∧ ∃ c, s.Holds c w) ∧
    (∀ id ∈ s.admitted, id ∈ s.marked ∨ ∃ c w, s.phase c = .told w ∧ w.id = id) := by
  have hacc := h.accounts
  obtain ⟨hst, hn, hset⟩ := h.accounts
  refine ⟨hset.nodup, fun w hw => ?_, fun id hid => ?_, fun c w hc => ?_, fun w => ?_, hst.pending⟩
  · obtain ⟨hmarked, hgone⟩ := hset.ended (List.mem_map_of_mem hw)
    refine ⟨hn.marked hmarked, ?_⟩
    rintro c w' ⟨ipv4, m, -, hs⟩ heq
    exact hgone _ m (heq ▸ hs)
  · rcases hst.pending id hid with hmarked | ⟨c, w, hc, hw⟩
    · refine (hset.owed hmarked).imp_right ?_
      rintro ⟨p, m, hs⟩
      obtain ⟨c, hw⟩ := hacc.holds_of_session hs
      exact ⟨c, _, hw, rfl⟩
    · have htold : s.Holds c w ∧ _ := hst.stands_of hc
      exact .inr ⟨c, w, htold.1, hw⟩
  · obtain ⟨p, hp⟩ : ∃ p, s.place c = some p := hst.stands_of hc
    rw [hst.grouped.leave_eq_some_iff hp]
    constructor
    · rintro ⟨hkey, hs, hlast⟩
      refine ⟨hn.marked ((hn.flag hs).mp rfl), ⟨p.2, true, hkey ▸ hp, hkey ▸ hs⟩, ?_⟩
      exact fun c' hne hw => hlast c' hne (hacc.place_eq_of_holds hs hw rfl)
    · rintro ⟨hadm, ⟨ipv4, m, hp', hs⟩, hlast⟩
      obtain rfl : p = (w.pubkey, ipv4) := Option.some.inj (hp.symm.trans hp')
      have halone : ∀ c', c' ≠ c → s.place c' ≠ some (w.pubkey, ipv4) :=
        fun c' hne hc' => hlast c' hne ⟨ipv4, m, hc', hs⟩
      refine ⟨rfl, ?_, halone⟩
      have hmarked : w.id ∈ s.marked := by
        rcases hst.pending w.id hadm with hmarked | ⟨c', w', hc', hid⟩
        · exact hmarked
        · -- a connection about to mark it would hold it, and is not `c`, which has settled
          have htold : s.Holds c' w' ∧ _ := hst.stands_of hc'
          have hne : c' ≠ c := by
            rintro rfl
            rw [hc] at hc'
            cases hc'
          exact absurd (hacc.place_eq_of_holds hs htold.1 hid) (halone c' hne)
      rw [hs, (hn.flag hs).mpr hmarked]
  · rw [mem_live]
    constructor
    · rintro ⟨ipv4, hs⟩
      exact ⟨(hn.flag hs).mp rfl, hacc.holds_of_session hs⟩
    · rintro ⟨hmarked, c, ipv4, m, -, hs⟩
      exact ⟨ipv4, hs.trans (by rw [(hn.flag hs).mpr hmarked])⟩

/-- Two connections of account 7 hold one address and are with the gate at once; one is
admitted, the other refused.  The admitted one leaves first. -/
def bonded : List (ConnId × Input) :=
  [(1, .slot 7 10 100), (2, .slot 7 10 0), (1, .answer .admits), (2, .answer .deviceLimit),
    (1, .mark), (1, .leave), (2, .leave)]

theorem wallet_sessions_accounted_bonded : ∃ s : Ledger, s.Reachable ∧ s.reported = [⟨7, 100⟩] ∧
    (s.reported.map WalletSession.id).Nodup := by
  have hstart : Ledger.start.Reachable := .start rfl
  have hreach : (bonded.foldl Ledger.step .start).Reachable := hstart.run (by decide)
  exact ⟨_, hreach, by decide, (wallet_sessions_accounted hreach).1⟩

/-- **Between the gate's answer and the mark**, an admitted session is held and not listed. -/
theorem live_before_mark : ∃ s : Ledger, s.Reachable ∧
    s = [(1, Input.slot 7 10 100), (1, .answer .admits)].foldl Ledger.step .start ∧
    100 ∈ s.admitted ∧ s.Holds 1 ⟨7, 100⟩ ∧ s.tables.live = [] := by
  have hstart : Ledger.start.Reachable := .start rfl
  exact ⟨_, hstart.run (by decide), rfl, by decide, ⟨10, false, by decide, by decide⟩, by decide⟩

end WarrenGuard.Wallet
