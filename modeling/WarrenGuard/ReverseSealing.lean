/-
The reverse direction of an exit (`process_setup_frame`, `serve_terminating_connection`,
`serve_pq_datagram_pump` and the emitters of `warrenguard-multihop-server/src/multihop.rs`).

A reverse frame is sealed under the session of a client (encapsulated key and epoch) and a
sequence number.  Sessions are looked up by key, in caches all connections share, but each
connection counts its reverse frames from 0.  So where one key is accepted on two connections the
same numbers are used under it twice:

* `replayed_setup_repeats` — a relay replays a captured setup frame on a new connection after the
  cache TTL;
* `reverse_frames_distinct` — no two reverse frames share key, epoch and number, where no
  encapsulated key is accepted on two connections, and no counter runs over.

Design notes: a frame that does not decode or names another exit is dropped, with its connection
if it was to set it up (`hangUp`), and is left out.  What a frame decapsulates and authenticates
to is part of the frame, what an admission check answers is part of the answer.  Looking a session
up and recording a number in its windows are two steps, and so are reading the current session,
drawing a number and sealing.
-/
import WarrenGuard.SessionCache
import WarrenGuard.Tickets
import WarrenGuard.Transition

namespace WarrenGuard.Multihop

open Function

/-- A forward frame as a relay delivers it. -/
structure ForwardFrame where
  version : Version
  encapsulatedKey : EncapsulatedKey
  epoch : UInt32
  seq : UInt64
  /-- A `/v2` frame that carries the ML-KEM ciphertext. -/
  pqCt : Bool
  /-- A session can be derived from it. -/
  builds : Bool
  /-- It authenticates under the session of its key. -/
  opens : Bool
deriving DecidableEq

def ForwardFrame.tag (frame : ForwardFrame) : SealTag := ⟨frame.encapsulatedKey, frame.epoch⟩

/-- Where a connection stands; `windows` are those of the handle looked up. -/
inductive ConnPhase where
  | accepted
  /-- The setup frame has its session, and is not opened yet. -/
  | setup (frame : ForwardFrame) (windows : ℕ)
  /-- The setup frame was accepted, and is not answered yet. -/
  | answering (version : Version) (tag : SealTag)
  | serving (version : Version)
  /-- A data frame has its session, and is not opened yet. -/
  | received (frame : ForwardFrame) (windows : ℕ)
  | closed

/-- A task that seals reverse frames: the session it has read, the number it has drawn. -/
structure Emitter where
  session : Option SealTag
  seq : Option UInt64

structure Connection where
  phase : ConnPhase
  reverseSeq : UInt64
  /-- The session reverse frames go under. -/
  current : Option SealTag
  emitters : ℕ → Emitter

def Connection.new : Connection := ⟨.accepted, 0, none, fun _ => ⟨none, none⟩⟩

/-- The version of the pump that runs on the connection. -/
def Connection.servedVersion (conn : Connection) : Option Version :=
  match conn.phase with
  | .serving version => some version
  | .received frame _ => some frame.version
  | _ => none

/-- The frame whose session was looked up and that is not recorded yet, with the windows
of its handle. -/
def Connection.inFlight (conn : Connection) : Option (ForwardFrame × ℕ) :=
  match conn.phase with
  | .setup frame windows | .received frame windows => some (frame, windows)
  | _ => none

/-- A sealed reverse frame, and the connection it was sealed on. -/
structure ReverseFrame where
  conn : ConnId
  tag : SealTag
  seq : UInt64
  plaintext : List UInt8
deriving DecidableEq

def ReverseFrame.triple (e : ReverseFrame) : SealTag × UInt64 := (e.tag, e.seq)

structure TerminatingExit where
  cache : SessionCache
  /-- The `/v2` cache, of an exit that has published a post-quantum key. -/
  pqCache : Option SessionCache
  conns : ConnId → Connection
  /-- The time of the latest lookup. -/
  clock : ℕ
  /-- The keys of the frames accepted so far, and where. -/
  accepted : List (EncapsulatedKey × ConnId)
  /-- Every reverse frame sealed so far. -/
  sealed : List ReverseFrame

namespace TerminatingExit

def start (pq : Bool) : TerminatingExit where
  cache := .new
  pqCache := if pq then some .new else none
  conns := fun _ => .new
  clock := 0
  accepted := []
  sealed := []

variable (x : TerminatingExit)

variable (c : ConnId)

def setConn (conn : Connection) : TerminatingExit :=
  { x with conns := Function.update x.conns c conn }

def setPhase (phase : ConnPhase) : TerminatingExit :=
  x.setConn c { x.conns c with phase := phase }

/-- The handle of the session of a frame.  A setup frame must carry what a `/v2` session
is derived from; another finds its session or is dropped. -/
def lookup (setup : Bool) (frame : ForwardFrame) (budget : Bool) (now : ℕ) :
    Option ℕ × TerminatingExit :=
  match frame.version, x.pqCache with
  | .v1, _ =>
    let (windows, cache) := x.cache.getOrInsertAt frame.encapsulatedKey budget frame.builds now
    (windows, { x with cache := cache })
  | .v2, none => (none, x)
  | .v2, some pq =>
    if frame.pqCt then
      let (windows, pq) := pq.establishOrGetAt frame.encapsulatedKey budget frame.builds now
      (windows, { x with pqCache := some pq })
    else if setup then (none, x)
    else
      let (windows, pq) := pq.getAt frame.encapsulatedKey now
      (windows, { x with pqCache := some pq })

def openAndRecord (frame : ForwardFrame) (windows : ℕ) :
    Bool × TerminatingExit :=
  if frame.opens then
    match frame.version, x.pqCache with
    | .v1, _ =>
      let (verdict, cache) := x.cache.recordIn windows frame.seq frame.epoch
      (verdict.isOk, { x with cache := cache })
    | .v2, none => (false, x)
    | .v2, some pq =>
      let (verdict, pq) := pq.recordIn windows frame.seq frame.epoch
      (verdict.isOk, { x with pqCache := some pq })
  else (false, x)

/-- A frame comes in on a connection, as its setup frame or as data. -/
def receive (frame : ForwardFrame) (now : ℕ) (budget : Bool) :
    TerminatingExit :=
  let x := { x with clock := now }
  match (x.conns c).phase with
  | .accepted =>
    match x.lookup true frame budget now with
    | (some windows, x) => x.setPhase c (.setup frame windows)
    -- a connection has one setup frame: if it is dropped, so is the connection
    | (none, x) => x.setPhase c .closed
  | .serving version =>
    if frame.version = version then
      match x.lookup false frame budget now with
      | (some windows, x) => x.setPhase c (.received frame windows)
      | (none, x) => x
    else x
  | _ => x

def acceptSetup (frame : ForwardFrame) : TerminatingExit :=
  { x.setPhase c (.answering frame.version frame.tag) with
    accepted := (frame.encapsulatedKey, c) :: x.accepted }

def acceptData (frame : ForwardFrame) : TerminatingExit :=
  { x.setConn c { x.conns c with phase := .serving frame.version, current := some frame.tag } with
    accepted := (frame.encapsulatedKey, c) :: x.accepted }

/-- The frame whose session was looked up is opened and checked against the windows. -/
def record : TerminatingExit :=
  match (x.conns c).phase with
  | .setup frame windows =>
    match x.openAndRecord frame windows with
    | (true, x) => x.acceptSetup c frame
    | (false, x) => x.setPhase c .closed
  | .received frame windows =>
    match x.openAndRecord frame windows with
    | (true, x) => x.acceptData c frame
    -- a rejected data frame is dropped, and the pump goes on
    | (false, x) => x.setPhase c (.serving frame.version)
  | _ => x

/-- The reply to a setup frame, an assignment or a refusal, and the pump after it. -/
def answer (plaintext : List UInt8) (served : Bool) :
    TerminatingExit :=
  match (x.conns c).phase with
  | .answering version tag =>
    { x.setConn c
        { x.conns c with
          reverseSeq := (x.conns c).reverseSeq + 1
          phase := if served then .serving version else .closed
          current := if served then some tag else none } with
      sealed := ⟨c, tag, (x.conns c).reverseSeq, plaintext⟩ :: x.sealed }
  | _ => x

/-- The keepalive of a `/v2` connection that is being served. -/
def refresh (now : ℕ) : TerminatingExit :=
  let x := { x with clock := now }
  match (x.conns c).servedVersion, x.pqCache, (x.conns c).current with
  | some .v2, some pq, some tag =>
    { x with pqCache := some (pq.refreshAt tag.encapsulatedKey now).2 }
  | _, _, _ => x

def setEmitter (task : ℕ) (e : Emitter) : TerminatingExit :=
  x.setConn c { x.conns c with emitters := Function.update (x.conns c).emitters task e }

def readCurrent (task : ℕ) : TerminatingExit :=
  x.setEmitter c task { (x.conns c).emitters task with session := (x.conns c).current }

/-- An emitter of a served connection draws a number (`fetch_add`). -/
def draw (task : ℕ) : TerminatingExit :=
  match (x.conns c).current with
  | none => x
  | some _ =>
    x.setConn c
      { x.conns c with
        reverseSeq := (x.conns c).reverseSeq + 1
        emitters := Function.update (x.conns c).emitters task
          { (x.conns c).emitters task with seq := some (x.conns c).reverseSeq } }

/-- An emitter seals with the session it has read and the number it has drawn. -/
def emit (task : ℕ) (plaintext : List UInt8) :
    TerminatingExit :=
  match (x.conns c).emitters task with
  | ⟨some tag, some seq⟩ =>
    -- the session stays: the cover timer seals several frames with one it has read
    { x.setEmitter c task ⟨some tag, none⟩ with sealed := ⟨c, tag, seq, plaintext⟩ :: x.sealed }
  | _ => x

inductive Event where
  | receive (c : ConnId) (frame : ForwardFrame) (now : ℕ) (budget : Bool)
  | record (c : ConnId)
  | answer (c : ConnId) (plaintext : List UInt8) (served : Bool)
  | hangUp (c : ConnId)
  | refresh (c : ConnId) (now : ℕ)
  | readCurrent (c : ConnId) (task : ℕ)
  | draw (c : ConnId) (task : ℕ)
  | emit (c : ConnId) (task : ℕ) (plaintext : List UInt8)

def step : Event → TerminatingExit
  | .receive c frame now budget => x.receive c frame now budget
  | .record c => x.record c
  | .answer c plaintext served => x.answer c plaintext served
  | .hangUp c => x.setPhase c .closed
  | .refresh c now => x.refresh c now
  | .readCurrent c task => x.readCurrent c task
  | .draw c task => x.draw c task
  | .emit c task plaintext => x.emit c task plaintext

def TimeForward : Event → Prop
  | .receive _ _ now _ | .refresh _ now => x.clock ≤ now
  | _ => True

/-- The key of the frame was accepted on no other connection. -/
def HomeFor (frame : ForwardFrame) : Prop :=
  ∀ e ∈ x.accepted, e.1 = frame.encapsulatedKey → e.2 = c

/-- The condition on an event: a frame that authenticates and passes the windows has a key
that was accepted on no other connection, and a counter that is drawn from has room. -/
def OneHome : Event → Prop
  | .record c => ∀ f ∈ (x.conns c).inFlight, (x.openAndRecord f.1 f.2).1 = true → x.HomeFor c f.1
  | .answer c _ _ | .draw c _ => (x.conns c).reverseSeq.toNat + 1 < 2 ^ 64
  | _ => True

def Reachable (ok : TerminatingExit → Event → Prop) : TerminatingExit → Prop :=
  Transition.Reachable (fun x => ∃ pq, x = start pq) (Transition.Guarded ok step)

theorem reachable_of_allowed {ok : TerminatingExit → Event → Prop} {pq : Bool}
    {events : List Event} (h : Transition.Allowed ok step (start pq) events) :
    Reachable ok (events.foldl step (start pq)) := by
  have hstart : Reachable ok (start pq) := .start ⟨pq, rfl⟩
  exact hstart.run h

end TerminatingExit

def Connection.InHand (conn : Connection) (task : ℕ) (seq : UInt64) : Prop :=
  (conn.emitters task).seq = some seq

/-- The keys a connection may seal under. -/
inductive Connection.Holds (conn : Connection) : EncapsulatedKey → Prop
  | answering {version : Version} {tag : SealTag} (h : conn.phase = .answering version tag) :
      Holds conn tag.encapsulatedKey
  | current {tag : SealTag} (h : conn.current = some tag) : Holds conn tag.encapsulatedKey
  | emitter {task : ℕ} {tag : SealTag} (h : (conn.emitters task).session = some tag) :
      Holds conn tag.encapsulatedKey

section
variable {conn conn' : Connection} {task task' : ℕ} {e : Emitter}

theorem Connection.InHand.of_update {seq : UInt64}
    (hem : conn'.emitters = Function.update conn.emitters task e) (h : conn'.InHand task' seq) :
    (task' = task ∧ e.seq = some seq) ∨ (task' ≠ task ∧ conn.InHand task' seq) := by
  rw [Connection.InHand, hem] at h
  by_cases ht : task' = task
  · rw [ht, update_self] at h
    exact .inl ⟨ht, h⟩
  · rw [update_of_ne ht] at h
    exact .inr ⟨ht, h⟩

theorem Connection.Holds.of_update {key : EncapsulatedKey} (h : conn'.Holds key)
    (hphase : conn'.phase = conn.phase) (hcurrent : conn'.current = conn.current)
    (hem : conn'.emitters = Function.update conn.emitters task e)
    (hsession : ∀ tag, e.session = some tag → conn.Holds tag.encapsulatedKey) : conn.Holds key := by
  cases h with
  | answering h => exact .answering (hphase ▸ h)
  | current h => exact .current (hcurrent ▸ h)
  | @emitter task' tag h =>
    rw [hem] at h
    by_cases ht : task' = task
    · rw [ht, update_self] at h
      exact hsession tag h
    · rw [update_of_ne ht] at h
      exact .emitter h

end

variable {frame : ForwardFrame}

namespace TerminatingExit

variable {x x' : TerminatingExit} {c : ConnId}

variable {budget : Bool} {conn : Connection} {now task : ℕ}

@[simp] theorem conns_setConn (x : TerminatingExit) (c conn) :
    (x.setConn c conn).conns c = conn :=
  update_self ..

theorem conns_setConn_of_ne (conn) {c' : ConnId} (h : c' ≠ c) :
    (x.setConn c conn).conns c' = x.conns c' :=
  update_of_ne h ..

/-- At most the connection `c` changes, it draws and seals nothing, and a key it newly
holds was accepted on it and on no other. -/
structure Settles (c : ConnId) (x x' : TerminatingExit) : Prop where
  others : ∀ c', c' ≠ c → x'.conns c' = x.conns c'
  sealed : x'.sealed = x.sealed
  reverseSeq : (x'.conns c).reverseSeq = (x.conns c).reverseSeq
  inHand : ∀ task seq, (x'.conns c).InHand task seq → (x.conns c).InHand task seq
  holds : ∀ key, (x'.conns c).Holds key → (x.conns c).Holds key ∨ (key, c) ∈ x'.accepted
  accepted : ∀ e ∈ x.accepted, e ∈ x'.accepted
  one_home : ∀ e ∈ x'.accepted, e ∈ x.accepted ∨
    (e.2 = c ∧ ∀ e' ∈ x.accepted, e'.1 = e.1 → e'.2 = c)

theorem Settles.refl (c x) : Settles c x x where
  others := fun _ _ => rfl
  sealed := rfl
  reverseSeq := rfl
  inHand := fun _ _ => id
  holds := fun _ => .inl
  accepted := fun _ => id
  one_home := fun _ => .inl

/-- At most the caches and the clock have changed. -/
structure Unmoved (x x' : TerminatingExit) : Prop where
  conns : x'.conns = x.conns
  accepted : x'.accepted = x.accepted
  sealed : x'.sealed = x.sealed

theorem Settles.of_unmoved {x₁ : TerminatingExit} (h : Unmoved x x₁) (hs : Settles c x₁ x') :
    Settles c x x' := by
  obtain ⟨hconns, haccepted, hsealed⟩ := h
  obtain ⟨h1, h2, h3, h4, h5, h6, h7⟩ := hs
  rw [hconns] at h1 h3 h4 h5
  rw [hsealed] at h2
  rw [haccepted] at h6 h7
  exact ⟨h1, h2, h3, h4, h5, h6, h7⟩

theorem lookup_unmoved (x) (setup : Bool) (frame) (budget now) :
    Unmoved x (x.lookup setup frame budget now).2 := by
  unfold lookup
  split
  · exact ⟨rfl, rfl, rfl⟩
  · exact ⟨rfl, rfl, rfl⟩
  · split
    · exact ⟨rfl, rfl, rfl⟩
    · split <;> exact ⟨rfl, rfl, rfl⟩

theorem openAndRecord_unmoved (x frame) (windows : ℕ) :
    Unmoved x (x.openAndRecord frame windows).2 := by
  unfold openAndRecord
  split
  · split <;> exact ⟨rfl, rfl, rfl⟩
  · exact ⟨rfl, rfl, rfl⟩

theorem settles_setPhase (x c) {phase : ConnPhase}
    (hphase : ∀ version tag, phase ≠ .answering version tag) :
    Settles c x (x.setPhase c phase) := by
  refine { Settles.refl c x with
    others := fun c' hne => conns_setConn_of_ne _ hne
    reverseSeq := by rw [setPhase, conns_setConn]
    inHand := ?_
    holds := ?_ }
  · intro task seq h
    rw [setPhase, conns_setConn] at h
    exact h
  · intro key h
    rw [setPhase, conns_setConn] at h
    left
    cases h with
    | answering h => exact absurd h (hphase _ _)
    | current h => exact .current h
    | emitter h => exact .emitter h

theorem settles_accept (h : x.HomeFor c frame)
    (hseq : conn.reverseSeq = (x.conns c).reverseSeq) (hem : conn.emitters = (x.conns c).emitters)
    (hholds : ∀ key, conn.Holds key → (x.conns c).Holds key ∨ key = frame.encapsulatedKey) :
    Settles c x { x.setConn c conn with
      accepted := (frame.encapsulatedKey, c) :: x.accepted } where
  others := fun c' hne => conns_setConn_of_ne _ hne
  sealed := rfl
  reverseSeq := by
    show ((x.setConn c conn).conns c).reverseSeq = _
    rw [conns_setConn, hseq]
  inHand := by
    intro task seq hand
    change ((x.setConn c conn).conns c).InHand task seq at hand
    rwa [conns_setConn, Connection.InHand, hem] at hand
  holds := by
    intro key hkey
    change ((x.setConn c conn).conns c).Holds key at hkey
    rw [conns_setConn] at hkey
    refine (hholds key hkey).imp_right ?_
    rintro rfl
    exact List.mem_cons_self
  accepted := fun _ => List.mem_cons_of_mem _
  one_home := by
    intro e he
    rcases List.mem_cons.mp he with rfl | he
    · exact .inr ⟨rfl, h⟩
    · exact .inl he

theorem settles_acceptSetup (h : x.HomeFor c frame) : Settles c x (x.acceptSetup c frame) := by
  refine settles_accept h rfl rfl fun key hkey => ?_
  cases hkey with
  | answering hp =>
    cases hp
    exact .inr rfl
  | current hc => exact .inl (.current hc)
  | emitter he => exact .inl (.emitter he)

theorem settles_acceptData (h : x.HomeFor c frame) : Settles c x (x.acceptData c frame) := by
  refine settles_accept h rfl rfl fun key hkey => ?_
  cases hkey with
  | answering hp => exact nomatch hp
  | current hc =>
    cases hc
    exact .inr rfl
  | emitter he => exact .inl (.emitter he)

theorem settles_lookup (setup : Bool) (frame) (budget now)
    {found : ℕ → TerminatingExit → TerminatingExit} {dropped : TerminatingExit → TerminatingExit}
    (hfound : ∀ windows x₁, Settles c x₁ (found windows x₁))
    (hdropped : ∀ x₁, Settles c x₁ (dropped x₁)) :
    Settles c x (match x.lookup setup frame budget now with
      | (some windows, x₁) => found windows x₁
      | (none, x₁) => dropped x₁) := by
  refine .of_unmoved (lookup_unmoved x setup frame budget now) ?_
  obtain ⟨_ | windows, x₁⟩ := x.lookup setup frame budget now
  · exact hdropped x₁
  · exact hfound windows x₁

theorem settles_receive (x c frame) (now budget) : Settles c x (x.receive c frame now budget) := by
  have hclock : Unmoved x { x with clock := now } := ⟨rfl, rfl, rfl⟩
  refine .of_unmoved hclock ?_
  unfold receive
  dsimp only
  split
  · exact settles_lookup true frame budget now
      (fun windows x₁ => settles_setPhase x₁ c fun _ _ h => nomatch h)
      (fun x₁ => settles_setPhase x₁ c fun _ _ h => nomatch h)
  · split
    · exact settles_lookup false frame budget now
        (fun windows x₁ => settles_setPhase x₁ c fun _ _ h => nomatch h) (Settles.refl c)
    · exact .refl c _
  · exact .refl c _

theorem settles_openAndRecord {windows : ℕ}
    (hhome : (x.openAndRecord frame windows).1 = true → x.HomeFor c frame)
    {accept reject : TerminatingExit → TerminatingExit}
    (haccept : ∀ x₁, x₁.HomeFor c frame → Settles c x₁ (accept x₁))
    (hreject : ∀ x₁, Settles c x₁ (reject x₁)) :
    Settles c x (match x.openAndRecord frame windows with
      | (true, x₁) => accept x₁
      | (false, x₁) => reject x₁) := by
  have hopen := openAndRecord_unmoved x frame windows
  generalize x.openAndRecord frame windows = r at hhome hopen ⊢
  refine .of_unmoved hopen ?_
  obtain ⟨_ | _, x₁⟩ := r
  · exact hreject x₁
  · refine haccept x₁ fun e he => hhome rfl e ?_
    rwa [← hopen.accepted]

theorem settles_record
    (h : ∀ f ∈ (x.conns c).inFlight, (x.openAndRecord f.1 f.2).1 = true → x.HomeFor c f.1) :
    Settles c x (x.record c) := by
  unfold record
  split
  · next frame windows hphase =>
    exact settles_openAndRecord (h (frame, windows) (by simp [Connection.inFlight, hphase]))
      (fun _ => settles_acceptSetup) (fun x₁ => settles_setPhase x₁ c fun _ _ h => nomatch h)
  · next frame windows hphase =>
    exact settles_openAndRecord (h (frame, windows) (by simp [Connection.inFlight, hphase]))
      (fun _ => settles_acceptData) (fun x₁ => settles_setPhase x₁ c fun _ _ h => nomatch h)
  · exact .refl c x

theorem settles_refresh (x c) (now) :
    Settles c x (x.refresh c now) := by
  have hunmoved : Unmoved x (x.refresh c now) := by
    unfold refresh
    dsimp only
    split <;> exact ⟨rfl, rfl, rfl⟩
  exact .of_unmoved hunmoved (.refl c _)

/-! ### Emitters -/

theorem emitters_setEmitter (x : TerminatingExit) (c task) (e : Emitter) :
    ((x.setEmitter c task e).conns c) =
      { x.conns c with emitters := update (x.conns c).emitters task e } :=
  conns_setConn ..

theorem settles_readCurrent (x c task) :
    Settles c x (x.readCurrent c task) := by
  refine { Settles.refl c x with
    others := fun c' hne => conns_setConn_of_ne _ hne
    reverseSeq := by rw [readCurrent, emitters_setEmitter]
    inHand := ?_
    holds := ?_ }
  · intro task' seq h
    rw [readCurrent, emitters_setEmitter] at h
    rcases h.of_update rfl with ⟨rfl, hseq⟩ | ⟨-, hold⟩
    · exact hseq
    · exact hold
  · intro key h
    rw [readCurrent, emitters_setEmitter] at h
    exact .inl (h.of_update rfl rfl rfl fun tag htag => .current htag)

/-! ### What every step keeps -/

def UsedOn (x : TerminatingExit) (c : ConnId) (seq : UInt64) : Prop :=
  ∃ e ∈ x.sealed, e.conn = c ∧ e.seq = seq

/-- Each accepted key has one connection, a connection seals under keys accepted on it
only, and the numbers it has used or drawn are the tickets of its counter. -/
structure Kept (x : TerminatingExit) : Prop where
  one_home : ∀ a ∈ x.accepted, ∀ b ∈ x.accepted, a.1 = b.1 → a.2 = b.2
  holds_accepted : ∀ c key, (x.conns c).Holds key → (key, c) ∈ x.accepted
  sealed_accepted : ∀ e ∈ x.sealed, (e.tag.encapsulatedKey, e.conn) ∈ x.accepted
  tickets : ∀ c, Tickets (x.conns c).reverseSeq.toNat (x.conns c).InHand (x.UsedOn c)
  apart : x.sealed.Pairwise fun e e' => e.conn = e'.conn → e.seq ≠ e'.seq

theorem kept_start (pq : Bool) : Kept (start pq) where
  one_home := fun _ h => absurd h List.not_mem_nil
  holds_accepted := by
    intro c key h
    cases h with
    | answering h => exact nomatch h
    | current h => exact nomatch h
    | emitter h => exact nomatch h
  sealed_accepted := fun _ h => absurd h List.not_mem_nil
  tickets := fun c =>
    ⟨(fun _ ⟨_, h, _⟩ => absurd h List.not_mem_nil), (fun _ _ h => nomatch h),
      (fun _ _ h => nomatch h), (fun _ _ _ h => nomatch h)⟩
  apart := List.Pairwise.nil

theorem Kept.settles (h : Kept x) (hs : Settles c x x') : Kept x' where
  one_home := by
    intro a ha b hb hab
    -- two entries of one key: old ones agree, and a new one is of the connection `c`
    rcases hs.one_home a ha with ha' | ⟨hac, hhome⟩ <;>
      rcases hs.one_home b hb with hb' | ⟨hbc, hhome'⟩
    · exact h.one_home a ha' b hb' hab
    · rw [hbc, hhome' a ha' hab]
    · rw [hac, hhome b hb' hab.symm]
    · rw [hac, hbc]
  holds_accepted := by
    intro c' key hkey
    by_cases hc : c' = c
    · subst hc
      rcases hs.holds key hkey with hold | hnew
      · exact hs.accepted _ (h.holds_accepted c' key hold)
      · exact hnew
    · rw [hs.others c' hc] at hkey
      exact hs.accepted _ (h.holds_accepted c' key hkey)
  sealed_accepted := by
    intro e he
    rw [hs.sealed] at he
    exact hs.accepted _ (h.sealed_accepted e he)
  tickets := by
    intro c'
    have hused : ∀ seq, x'.UsedOn c' seq → x.UsedOn c' seq := by
      rintro seq ⟨e, he, hseq⟩
      rw [hs.sealed] at he
      exact ⟨e, he, hseq⟩
    by_cases hc : c' = c
    · subst hc
      rw [hs.reverseSeq]
      exact (h.tickets c').anti hs.inHand hused
    · rw [hs.others c' hc]
      exact (h.tickets c').anti (fun _ _ => id) hused
  apart := by
    rw [hs.sealed]
    exact h.apart

theorem usedOn_of_cons {e : ReverseFrame} (hsealed : x'.sealed = e :: x.sealed) {seq : UInt64}
    (h : x'.UsedOn c seq) : (e.conn = c ∧ seq = e.seq) ∨ x.UsedOn c seq := by
  obtain ⟨e', he', hconn, hseq⟩ := h
  rw [hsealed] at he'
  rcases List.mem_cons.mp he' with rfl | he'
  · exact .inl ⟨hconn, hseq.symm⟩
  · exact .inr ⟨e', he', hconn, hseq⟩

/-- **One more sealed frame**, under a key held by its connection and with a number not
used on it. -/
theorem Kept.seals (h : Kept x) {e : ReverseFrame} (hsealed : x'.sealed = e :: x.sealed)
    (haccepted : x'.accepted = x.accepted)
    (hothers : ∀ c', c' ≠ e.conn → x'.conns c' = x.conns c')
    (hholds : ∀ key, (x'.conns e.conn).Holds key → (x.conns e.conn).Holds key)
    (hkey : (x.conns e.conn).Holds e.tag.encapsulatedKey) (hnew : ¬ x.UsedOn e.conn e.seq)
    (htickets : Tickets (x'.conns e.conn).reverseSeq.toNat (x'.conns e.conn).InHand
      (x'.UsedOn e.conn)) : Kept x' where
  one_home := by
    rw [haccepted]
    exact h.one_home
  holds_accepted := by
    intro c' key hk
    rw [haccepted]
    by_cases hc : c' = e.conn
    · subst hc
      exact h.holds_accepted _ key (hholds key hk)
    · rw [hothers c' hc] at hk
      exact h.holds_accepted c' key hk
  sealed_accepted := by
    intro e' he'
    rw [haccepted]
    rw [hsealed] at he'
    rcases List.mem_cons.mp he' with rfl | he'
    · exact h.holds_accepted _ _ hkey
    · exact h.sealed_accepted e' he'
  tickets := by
    intro c'
    by_cases hc : c' = e.conn
    · subst hc
      exact htickets
    · rw [hothers c' hc]
      refine (h.tickets c').anti (fun _ _ => id) fun seq hseq => ?_
      rcases usedOn_of_cons hsealed hseq with ⟨hconn, -⟩ | hold
      · exact absurd hconn.symm hc
      · exact hold
  apart := by
    rw [hsealed]
    refine List.pairwise_cons.mpr ⟨fun e' he' hconn hseq => hnew ?_, h.apart⟩
    exact ⟨e', he', hconn.symm, hseq.symm⟩

theorem Kept.answer (h : Kept x) (hroom : (x.conns c).reverseSeq.toNat + 1 < 2 ^ 64)
    (plaintext : List UInt8) (served : Bool) : Kept (x.answer c plaintext served) := by
  unfold TerminatingExit.answer
  split
  · next version tag hphase =>
    have hused := (h.tickets c).used_below (x.conns c).reverseSeq
    refine h.seals rfl rfl (fun c' hne => conns_setConn_of_ne _ hne) ?_ (.answering hphase)
      (fun hmem => Nat.lt_irrefl _ (hused hmem)) ?_
    · intro key hkey
      change ((x.setConn c _).conns c).Holds key at hkey
      rw [conns_setConn] at hkey
      cases hkey with
      | answering hp => cases served <;> exact nomatch hp
      | current hc =>
        cases served
        · exact nomatch hc
        · cases hc
          exact .answering hphase
      | emitter he => exact .emitter he
    · -- the reply draws its number and uses it at once
      show Tickets ((x.setConn c _).conns c).reverseSeq.toNat ((x.setConn c _).conns c).InHand _
      rw [conns_setConn, Tickets.toNat_add_one hroom]
      refine (h.tickets c).drawAndUse rfl (fun _ _ => id) fun seq hseq => ?_
      exact (usedOn_of_cons rfl hseq).imp_left And.right
  · exact h

theorem Kept.draw (h : Kept x) (hroom : (x.conns c).reverseSeq.toNat + 1 < 2 ^ 64) (task) :
    Kept (x.draw c task) := by
  unfold TerminatingExit.draw
  split
  · exact h
  · refine { h with holds_accepted := ?_, tickets := ?_ }
    · intro c' key hkey
      by_cases hc : c' = c
      · subst hc
        rw [conns_setConn] at hkey
        refine h.holds_accepted c' key ?_
        exact hkey.of_update rfl rfl rfl fun tag htag => .emitter htag
      · rw [conns_setConn_of_ne _ hc] at hkey
        exact h.holds_accepted c' key hkey
    · intro c'
      by_cases hc : c' = c
      · subst hc
        rw [conns_setConn, Tickets.toNat_add_one hroom]
        refine (h.tickets c').draw (i := task) rfl fun task' seq hseq => ?_
        rcases hseq.of_update rfl with ⟨ht, hnew⟩ | ⟨-, hold⟩
        · exact .inl ⟨ht, (Option.some.inj hnew).symm⟩
        · exact .inr hold
      · rw [conns_setConn_of_ne _ hc]
        exact h.tickets c'

theorem Kept.emit (h : Kept x) (task) (plaintext : List UInt8) :
    Kept (x.emit c task plaintext) := by
  unfold TerminatingExit.emit
  split
  · next tag seq htask =>
    have hhand : (x.conns c).InHand task seq := by rw [Connection.InHand, htask]
    have hsession : ((x.conns c).emitters task).session = some tag := by rw [htask]
    have hholds : (x.conns c).Holds tag.encapsulatedKey := .emitter hsession
    refine h.seals rfl rfl (fun c' hne => conns_setConn_of_ne _ hne) ?_ hholds
      ((h.tickets c).hand_unused task seq hhand) ?_
    · intro key hkey
      change ((x.setEmitter c task _).conns c).Holds key at hkey
      rw [emitters_setEmitter] at hkey
      refine hkey.of_update rfl rfl rfl fun tag' htag => ?_
      cases htag
      exact hholds
    · show Tickets ((x.setEmitter c task _).conns c).reverseSeq.toNat
        ((x.setEmitter c task _).conns c).InHand _
      rw [emitters_setEmitter]
      refine (h.tickets c).use hhand ?_ fun s hs => (usedOn_of_cons rfl hs).imp_left And.right
      intro task' s hs
      rcases hs.of_update rfl with ⟨-, hnone⟩ | ⟨hne, hold⟩
      · exact nomatch hnone
      · exact ⟨hold, fun heq => absurd heq hne⟩
  · exact h

theorem Kept.step (h : Kept x) {event : Event} (hok : x.OneHome event) : Kept (x.step event) := by
  cases event with
  | receive c frame now budget => exact h.settles (settles_receive x c frame now budget)
  | record c => exact h.settles (settles_record hok)
  | answer c plaintext served => exact h.answer hok plaintext served
  | hangUp c => exact h.settles (settles_setPhase x c fun _ _ h => nomatch h)
  | refresh c now => exact h.settles (settles_refresh x c now)
  | readCurrent c task => exact h.settles (settles_readCurrent x c task)
  | draw c task => exact h.draw hok task
  | emit c task plaintext => exact h.emit task plaintext

/-! ### Whole runs -/

def Homed (x : TerminatingExit) (event : Event) : Prop := x.TimeForward event ∧ x.OneHome event

/-- **No two reverse frames share a packet key**, in every run in which no encapsulated
key is accepted on two connections and no counter runs over. -/
theorem reverse_frames_distinct (h : Reachable Homed x) :
    (x.sealed.map ReverseFrame.triple).Nodup := by
  have hkept : Kept x := by
    refine Transition.Reachable.invariant ?_ ?_ h
    · rintro _ ⟨pq, rfl⟩
      exact kept_start pq
    · rintro x₁ x₂ hx ⟨event, hok, rfl⟩
      exact hx.step hok.2
  rw [List.Nodup, List.pairwise_map]
  refine hkept.apart.imp_of_mem fun {e e'} he he' hapart htriple => ?_
  -- frames under one key are of one connection, where the numbers differ
  obtain ⟨htag, hseq⟩ := Prod.mk.inj htriple
  refine hapart ?_ hseq
  refine hkept.one_home _ (hkept.sealed_accepted e he) _ (hkept.sealed_accepted e' he') ?_
  exact congrArg SealTag.encapsulatedKey htag

instance (x : TerminatingExit) : (event : Event) → Decidable (x.TimeForward event)
  | .receive _ _ now _ => inferInstanceAs (Decidable (x.clock ≤ now))
  | .refresh _ now => inferInstanceAs (Decidable (x.clock ≤ now))
  | .record _ | .answer _ _ _ | .hangUp _ | .readCurrent _ _ | .draw _ _ | .emit _ _ _ =>
    inferInstanceAs (Decidable True)

instance (x : TerminatingExit) : (event : Event) → Decidable (x.OneHome event)
  | .record c => inferInstanceAs (Decidable (∀ f ∈ (x.conns c).inFlight,
      (x.openAndRecord f.1 f.2).1 = true → ∀ e ∈ x.accepted, e.1 = f.1.encapsulatedKey → e.2 = c))
  | .answer c _ _ => inferInstanceAs (Decidable ((x.conns c).reverseSeq.toNat + 1 < 2 ^ 64))
  | .draw c _ => inferInstanceAs (Decidable ((x.conns c).reverseSeq.toNat + 1 < 2 ^ 64))
  | .receive _ _ _ _ | .hangUp _ | .refresh _ _ | .readCurrent _ _ | .emit _ _ _ =>
    inferInstanceAs (Decidable True)

instance (x : TerminatingExit) (event : Event) : Decidable (x.Homed event) :=
  inferInstanceAs (Decidable (_ ∧ _))

def setupFrame (key : EncapsulatedKey) : ForwardFrame := ⟨.v1, key, 0, 0, false, true, true⟩

def serveOne (c : ConnId) (key : EncapsulatedKey) (now : ℕ) (reply packet : List UInt8) :
    List Event :=
  [.receive c (setupFrame key) now true, .record c, .answer c reply true, .readCurrent c 0,
    .draw c 0, .emit c 0 packet]

/-- Two clients, each on a connection of its own, and between them a replay of the first
one's setup frame, which its windows still reject. -/
def rejectedReplay : List Event :=
  serveOne 1 7 0 [1] [2] ++ [.receive 2 (setupFrame 7) nanosPerSec true, .record 2] ++
    serveOne 3 8 nanosPerSec [3] [4]

theorem reverse_frames_distinct_rejected_replay :
    Transition.Allowed Homed step (start false) rejectedReplay ∧
      (rejectedReplay.foldl step (start false)).sealed.length = 4 ∧
      ((rejectedReplay.foldl step (start false)).sealed.map ReverseFrame.triple).Nodup := by
  have hok : Transition.Allowed Homed step (start false) rejectedReplay := by decide
  exact ⟨hok, by decide, reverse_frames_distinct (reachable_of_allowed hok)⟩

/-- A client is served, and when the TTL is over its setup frame comes again, on another
connection. -/
def replayedSetup : List Event :=
  serveOne 1 7 0 [1] [2] ++ serveOne 2 7 sessionCacheTtl [3] [4]

/-- **The replay repeats the numbers of the session**, for other plaintexts. -/
theorem replayed_setup_repeats :
    Reachable TimeForward (replayedSetup.foldl step (start false)) ∧
      ⟨1, ⟨7, 0⟩, 1, [2]⟩ ∈ (replayedSetup.foldl step (start false)).sealed ∧
      ⟨2, ⟨7, 0⟩, 1, [4]⟩ ∈ (replayedSetup.foldl step (start false)).sealed := by
  have hok : Transition.Allowed TimeForward step (start false) replayedSetup := by decide
  exact ⟨reachable_of_allowed hok, by decide, by decide⟩

end TerminatingExit

end WarrenGuard.Multihop
