/-
Replies are delivered once (`ReplayState`, `open_replay_gated`, `rekey` and the prunes of
`warrenguard-transport/src/multihop.rs`).

A `recv` probes the replay window of the frame's epoch, opens the frame without a lock and then
records its number; a `rekey` replaces the session, and then, under another lock, moves the
current window to the pending slot and installs an empty one; a prune empties the pending slot of
the session and then that of the windows.  All these steps interleave, two rekeys may install
their windows in the other order, and a window may be gone when a frame that was probed against it
is to be recorded.

* `Once` — an epoch is drawn from the session by one rekey, which installs one window for it; the
  window has recorded what was delivered in the epoch (`Once.step`);
* `Traced` — what a caller did before it delivers (`Traced.step`);
* `replies_delivered_once` — what the two give over every run.

Design notes: the AEAD and the HPKE setup are parameters; the choice of the context by epoch is
the source's.  No step reads the log.  Metrics, the acknowledgement of a `/v2` epoch and the
forward direction are left out.
-/
import WarrenGuard.Basic
import WarrenGuard.ReplayWindow
import WarrenGuard.Tickets
import WarrenGuard.Transition

namespace WarrenGuard.Multihop

open Function

/-- A decoded reverse frame; `body` is the ciphertext with its tag. -/
structure ReplyFrame (Body : Type) where
  version : UInt8
  exitId : ExitId
  epoch : UInt32
  seq : UInt64
  body : Body
deriving DecidableEq

/-! ### The session -/

/-- The receiving state of a client session, with a context for the current epoch and one
for the epoch before a rekey. -/
structure ReplySession (Ctx : Type) where
  version : Version
  exitId : ExitId
  epoch : UInt32
  ctx : Ctx
  pendingOldEpoch : Option (UInt32 × Ctx)

section Session

variable {Ctx Body Plain : Type}

/-- `open_response`, with the AEAD under the packet key that a context exports. -/
def ReplySession.openResponse (aead : Ctx → ReplyFrame Body → Option Plain)
    (sess : ReplySession Ctx) (frame : ReplyFrame Body) : Option Plain :=
  if frame.exitId ≠ sess.exitId then none
  else if frame.version ≠ versionByte sess.version then none
  else if frame.epoch = sess.epoch then aead sess.ctx frame
  else match sess.pendingOldEpoch with
    | some (epoch, ctx) => if epoch = frame.epoch then aead ctx frame else none
    | none => none

/-- `ClientSession::rekey`, with the outcome of the HPKE setup. -/
def ReplySession.rekey (sess : ReplySession Ctx) (setup : Option Ctx) :
    Option (ReplySession Ctx) :=
  -- `checked_add` on the epoch
  if sess.epoch.toNat + 1 < 2 ^ 32 then
    setup.map fun ctx =>
      { sess with
        epoch := sess.epoch + 1
        ctx := ctx
        pendingOldEpoch := some (sess.epoch, sess.ctx) }
  else none

def ReplySession.prunePendingOldEpoch (sess : ReplySession Ctx) : ReplySession Ctx :=
  { sess with pendingOldEpoch := none }

end Session

/-! ### The replay state -/

structure EpochReplay where
  epoch : UInt32
  window : ReplayWindow
deriving DecidableEq

/-- Current and pending replay windows. -/
structure ReplayState where
  current : EpochReplay
  pending : Option EpochReplay
deriving DecidableEq

namespace ReplayState

def new : ReplayState := ⟨⟨0, .new⟩, none⟩

variable (st : ReplayState)

/-- `slot_mut`: the window of an epoch, and whether it is the pending one. -/
def slotMut (epoch : UInt32) : Option (ReplayWindow × Bool) :=
  if epoch = st.current.epoch then some (st.current.window, false)
  else match st.pending with
    | some pending => if pending.epoch = epoch then some (pending.window, true) else none
    | none => none

/-- Write through the reference that `slot_mut` gave. -/
def putBack (isPending : Bool) (window : ReplayWindow) : ReplayState :=
  if isPending then { st with pending := st.pending.map fun p => { p with window := window } }
  else { st with current := { st.current with window := window } }

/-- The first critical section of `open_replay_gated`. -/
def check (epoch : UInt32) (seq : UInt64) : Except MultihopError Unit :=
  match st.slotMut epoch with
  | none => .error (.replay seq epoch)
  | some (window, _) => window.check seq epoch

/-- The second critical section of `open_replay_gated`. -/
def checkAndRecord (epoch : UInt32) (seq : UInt64) :
    Except MultihopError Bool × ReplayState :=
  match st.slotMut epoch with
  | none => (.error (.replay seq epoch), st)
  | some (window, isPending) =>
    match window.checkAndRecord seq epoch with
    | (.error e, window) => (.error e, st.putBack isPending window)
    | (.ok (), window) => (.ok isPending, st.putBack isPending window)

def install (epoch : UInt32) : ReplayState := ⟨⟨epoch, .new⟩, some st.current⟩

def prune : ReplayState := { st with pending := none }

def Knows (epoch : UInt32) : Prop :=
  st.current.epoch = epoch ∨ ∃ p ∈ st.pending, p.epoch = epoch

end ReplayState

/-! ### The callers -/

inductive ReplyPhase (Body Plain : Type) where
  | idle
  /-- In `recv`, after the probe and before the open. -/
  | opening (frame : ReplyFrame Body)
  /-- In `recv`, after the open and before the record. -/
  | recording (frame : ReplyFrame Body) (plaintext : Plain)
  /-- In `rekey`, after the session step. -/
  | installing (epoch : UInt32)
  /-- In a prune, after the session step. -/
  | pruning

/-- What a caller is told from outside at a step. -/
inductive ReplyInput (Ctx Body : Type) where
  | recv (frame : ReplyFrame Body)
  | rekey (setup : Option Ctx)
  | prune
  | go

inductive ReplyEvent (Ctx Body Plain : Type) where
  | probed (caller : ℕ) (frame : ReplyFrame Body) (replay : ReplayState)
  | opened (caller : ℕ) (frame : ReplyFrame Body) (session : ReplySession Ctx) (plaintext : Plain)
  | delivered (caller : ℕ) (frame : ReplyFrame Body) (replay : ReplayState) (plaintext : Plain)

def ReplyEvent.caller {Ctx Body Plain : Type} : ReplyEvent Ctx Body Plain → ℕ
  | .probed caller _ _ | .opened caller _ _ _ | .delivered caller _ _ _ => caller

def ReplyEvent.delivery? {Ctx Body Plain : Type} :
    ReplyEvent Ctx Body Plain → Option (UInt32 × UInt64)
  | .delivered _ frame _ _ => some (frame.epoch, frame.seq)
  | .probed _ _ _ | .opened _ _ _ _ => none

/-- The parts of a client that its receivers share, and the callers. -/
structure ReplyClient (Ctx Body Plain : Type) where
  exitId : ExitId
  session : ReplySession Ctx
  replay : ReplayState
  phase : ℕ → ReplyPhase Body Plain
  log : List (ReplyEvent Ctx Body Plain)

namespace ReplyClient

variable {Ctx Body Plain : Type}

def connected (version : Version) (exitId : ExitId) (ctx : Ctx) : ReplyClient Ctx Body Plain where
  exitId := exitId
  session := ⟨version, exitId, 0, ctx, none⟩
  replay := .new
  phase := fun _ => .idle
  log := []

variable (s : ReplyClient Ctx Body Plain)

variable (caller : ℕ)

def moveTo (phase : ReplyPhase Body Plain) :
    ReplyClient Ctx Body Plain :=
  { s with phase := Function.update s.phase caller phase }

/-- A decoded frame, up to the probe of its window. -/
def probe (frame : ReplyFrame Body) :
    ReplyClient Ctx Body Plain :=
  if frame.exitId ≠ s.exitId then s
  else match s.replay.check frame.epoch frame.seq with
    | .error _ => s
    | .ok () =>
      { s.moveTo caller (.opening frame) with log := .probed caller frame s.replay :: s.log }

variable (aead : Ctx → ReplyFrame Body → Option Plain)

/-- The AEAD open, under the read lock of the session; a failure ends the call. -/
def openFrame (s : ReplyClient Ctx Body Plain)
    (caller : ℕ) (frame : ReplyFrame Body) : ReplyClient Ctx Body Plain :=
  match s.session.openResponse aead frame with
  | none => s.moveTo caller .idle
  | some plaintext =>
    { s.moveTo caller (.recording frame plaintext) with
      log := .opened caller frame s.session plaintext :: s.log }

/-- The record, and the return to the caller. -/
def recordFrame (frame : ReplyFrame Body)
    (plaintext : Plain) : ReplyClient Ctx Body Plain :=
  match s.replay.checkAndRecord frame.epoch frame.seq with
  | (.error _, replay) => { s.moveTo caller .idle with replay := replay }
  | (.ok _, replay) =>
    { s.moveTo caller .idle with
      replay := replay
      log := .delivered caller frame s.replay plaintext :: s.log }

/-- The session step of `rekey`; a failure ends the call. -/
def rekeySession (setup : Option Ctx) :
    ReplyClient Ctx Body Plain :=
  match s.session.rekey setup with
  | none => s
  | some session => { s.moveTo caller (.installing session.epoch) with session := session }

def installWindow (epoch : UInt32) :
    ReplyClient Ctx Body Plain :=
  { s.moveTo caller .idle with replay := s.replay.install epoch }

def pruneSession : ReplyClient Ctx Body Plain :=
  { s.moveTo caller .pruning with session := s.session.prunePendingOldEpoch }

def pruneWindow : ReplyClient Ctx Body Plain :=
  { s.moveTo caller .idle with replay := s.replay.prune }

def stepFrom (s : ReplyClient Ctx Body Plain)
    (caller : ℕ) : ReplyPhase Body Plain → ReplyInput Ctx Body → ReplyClient Ctx Body Plain
  | .idle, .recv frame => s.probe caller frame
  | .opening frame, .go => s.openFrame aead caller frame
  | .recording frame plaintext, .go => s.recordFrame caller frame plaintext
  | .idle, .rekey setup => s.rekeySession caller setup
  | .installing epoch, .go => s.installWindow caller epoch
  | .idle, .prune => s.pruneSession caller
  | .pruning, .go => s.pruneWindow caller
  | _, _ => s

def step (s : ReplyClient Ctx Body Plain)
    (i : ℕ × ReplyInput Ctx Body) : ReplyClient Ctx Body Plain :=
  s.stepFrom aead i.1 (s.phase i.1) i.2

def Reachable : ReplyClient Ctx Body Plain → Prop :=
  Transition.Reachable (fun s => ∃ version exitId ctx, s = connected version exitId ctx)
    fun s s' => ∃ i, s' = s.step aead i

def deliveries : List (UInt32 × UInt64) :=
  s.log.filterMap ReplyEvent.delivery?

def deliveredIn (epoch : UInt32) : Set ℕ :=
  {n | ∃ seq, (epoch, seq) ∈ s.deliveries ∧ seq.toNat = n}

end ReplyClient

/-! ### Windows -/

namespace ReplayState

variable {st : ReplayState} {epoch epoch' : UInt32} {window window' : ReplayWindow}
  {isPending : Bool}

theorem knows_of_slotMut (h : st.slotMut epoch = some (window, isPending)) : st.Knows epoch := by
  unfold slotMut at h
  split at h
  · rename_i heq
    exact .inl heq.symm
  · split at h
    · rename_i p hp
      split at h
      · rename_i heq
        exact .inr ⟨p, hp, heq⟩
      · cases h
    · cases h

theorem slotMut_putBack (h : st.slotMut epoch = some (window, isPending)) :
    (st.putBack isPending window').slotMut epoch'
      = if epoch' = epoch then some (window', isPending) else st.slotMut epoch' := by
  unfold slotMut at h
  split at h
  · rename_i heq
    cases h
    by_cases he : epoch' = epoch <;> simp [slotMut, putBack, he, ← heq]
  · rename_i hne
    split at h
    · rename_i p hp
      split at h
      · rename_i heq
        cases h
        by_cases he : epoch' = epoch
        · simp [slotMut, putBack, he, hp, heq, hne]
        · simp [slotMut, putBack, he, hp, heq, Ne.symm he]
      · cases h
    · cases h

theorem putBack_self (h : st.slotMut epoch = some (window, isPending)) :
    st.putBack isPending window = st := by
  unfold slotMut at h
  split at h
  · cases h
    rfl
  · split at h
    · rename_i p hp
      split at h
      · cases h
        obtain ⟨current, pending⟩ := st
        cases hp
        rfl
      · cases h
    · cases h

/-- **The second critical section**: refused, with the windows as they were, or recorded in
the window of the epoch. -/
theorem checkAndRecord_cases (st : ReplayState) (epoch) (seq : UInt64) :
    (∃ e, st.checkAndRecord epoch seq = (.error e, st)) ∨
      ∃ window isPending, st.slotMut epoch = some (window, isPending) ∧
        (window.checkAndRecord seq epoch).1 = .ok () ∧
        st.checkAndRecord epoch seq
          = (.ok isPending, st.putBack isPending (window.checkAndRecord seq epoch).2) := by
  unfold checkAndRecord
  rcases hslot : st.slotMut epoch with _ | ⟨window, isPending⟩
  · exact .inl ⟨_, rfl⟩
  dsimp only
  rcases hrec : window.checkAndRecord seq epoch with ⟨verdict, window'⟩
  cases verdict with
  | error e =>
    have hsame : (window.checkAndRecord seq epoch).2 = window := by
      refine ReplayWindow.checkAndRecord_of_error ?_
      rw [hrec]
      simp
    rw [hrec] at hsame
    refine .inl ⟨e, ?_⟩
    show (Except.error e, st.putBack isPending window') = _
    rw [show window' = window from hsame, putBack_self hslot]
  | ok u => exact .inr ⟨window, isPending, rfl, by rw [hrec], by rw [hrec]⟩

theorem slotMut_install (h : (st.install epoch).slotMut epoch' = some (window, isPending)) :
    epoch' = epoch ∧ window = .new ∨ ∃ b, st.slotMut epoch' = some (window, b) := by
  unfold slotMut install at h
  dsimp only at h
  split at h
  · rename_i heq
    cases h
    exact .inl ⟨heq, rfl⟩
  · split at h
    · rename_i heq
      cases h
      exact .inr ⟨false, by rw [slotMut, if_pos heq.symm]⟩
    · cases h

theorem slotMut_prune (h : st.prune.slotMut epoch = some (window, isPending)) :
    st.slotMut epoch = some (window, isPending) := by
  unfold slotMut prune at h
  split at h
  · rename_i heq
    rw [slotMut, if_pos heq]
    exact h
  · cases h

end ReplayState

/-! ### One window for an epoch -/

namespace ReplyClient

variable {Ctx Body Plain : Type} {s s' : ReplyClient Ctx Body Plain} {caller : ℕ}

def InHand (s : ReplyClient Ctx Body Plain) (caller : ℕ) (n : UInt64) : Prop :=
  ∃ epoch, s.phase caller = .installing epoch ∧ epoch.toUInt64 = n

def Used (s : ReplyClient Ctx Body Plain) (epoch : UInt32) : Prop :=
  (∃ x, s.replay.slotMut epoch = some x) ∨ ∃ seq, (epoch, seq) ∈ s.deliveries

/-- **One window for an epoch**: an epoch is drawn once, and its window has recorded what was
delivered in it. -/
structure Once (s : ReplyClient Ctx Body Plain) : Prop where
  tickets : Tickets (s.session.epoch.toNat + 1) (InHand s)
    fun n => ∃ epoch, Used s epoch ∧ epoch.toUInt64 = n
  represents : ∀ {epoch window isPending}, s.replay.slotMut epoch = some (window, isPending) →
    ReplayWindow.Represents window (s.deliveredIn epoch)
  nodup : s.deliveries.Nodup

theorem Once.connected (version : Version) (exitId : ExitId) (ctx : Ctx) :
    Once (ReplyClient.connected version exitId ctx : ReplyClient Ctx Body Plain) := by
  have hempty : ∀ epoch,
      (ReplyClient.connected version exitId ctx : ReplyClient Ctx Body Plain).deliveredIn epoch
        = ∅ := by
    intro epoch
    simp [deliveredIn, deliveries, ReplyClient.connected]
  have hslot : ∀ {epoch x}, ReplayState.new.slotMut epoch = some x →
      epoch = 0 ∧ x = (.new, false) := by
    intro epoch x h
    unfold ReplayState.slotMut at h
    split at h
    · rename_i heq
      cases h
      exact ⟨heq, rfl⟩
    · cases h
  refine ⟨⟨?_, ?_, ?_, ?_⟩, fun {epoch window isPending} hx => ?_, List.nodup_nil⟩
  · rintro n ⟨epoch, ⟨x, hx⟩ | ⟨seq, hmem⟩, rfl⟩
    · rw [(hslot hx).1]
      exact Nat.zero_lt_one
    · exact absurd hmem List.not_mem_nil
  · rintro c n ⟨epoch, hphase, -⟩
    cases hphase
  · rintro c n ⟨epoch, hphase, -⟩
    cases hphase
  · rintro c c' n ⟨epoch, hphase, -⟩
    cases hphase
  · rw [hempty]
    cases (hslot hx).2
    exact ReplayWindow.represents_new

/-- Nothing new: the epoch of the session and the deliveries stay, and windows and drawn
epochs are as they were or gone. -/
theorem Once.anti (h : Once s) (hepoch : s'.session.epoch = s.session.epoch)
    (hhand : ∀ c epoch, s'.phase c = .installing epoch → s.phase c = .installing epoch)
    (hslot : ∀ epoch window b, s'.replay.slotMut epoch = some (window, b) →
      s.replay.slotMut epoch = some (window, b))
    (hdel : s'.deliveries = s.deliveries) : Once s' := by
  have hin : ∀ epoch, s'.deliveredIn epoch = s.deliveredIn epoch := by
    intro epoch
    rw [deliveredIn, deliveredIn, hdel]
  refine ⟨?_, fun {epoch window b} hx => ?_, hdel ▸ h.nodup⟩
  · rw [hepoch]
    refine h.tickets.anti ?_ ?_
    · rintro c n ⟨epoch, hphase, hn⟩
      exact ⟨epoch, hhand c epoch hphase, hn⟩
    · rintro n ⟨epoch, hused | hused, hn⟩
      · obtain ⟨⟨window, b⟩, hx⟩ := hused
        exact ⟨epoch, .inl ⟨_, hslot epoch window b hx⟩, hn⟩
      · exact ⟨epoch, .inr (hdel ▸ hused), hn⟩
  · rw [hin]
    exact h.represents (hslot epoch window b hx)

theorem installing_of_moveTo {phase : ReplyPhase Body Plain} (hphase : ∀ e, phase ≠ .installing e)
    (c : ℕ) (epoch : UInt32) (h : (s.moveTo caller phase).phase c = .installing epoch) :
    s.phase c = .installing epoch := by
  have h' : update s.phase caller phase c = .installing epoch := h
  rw [update_apply] at h'
  split at h'
  · exact absurd h' (hphase epoch)
  · exact h'

/-- **A delivery**: the number is new in its epoch, and the window has it now. -/
theorem Once.recordFrame (h : Once s) (frame : ReplyFrame Body) (plaintext : Plain) :
    Once (s.recordFrame caller frame plaintext) := by
  unfold ReplyClient.recordFrame
  rcases s.replay.checkAndRecord_cases frame.epoch frame.seq with
    ⟨e, heq⟩ | ⟨window, isPending, hslot, hok, heq⟩
  · rw [heq]
    exact h.anti rfl (installing_of_moveTo (by simp)) (fun _ _ _ hx => hx) rfl
  rw [heq]
  have hrep := h.represents hslot
  have hnew : frame.seq.toNat ∉ s.deliveredIn frame.epoch :=
    ((ReplayWindow.checkAndRecord_ok_iff hrep).mp hok).1
  refine ⟨?_, fun {epoch window' b} hx => ?_, ?_⟩
  · refine h.tickets.anti ?_ ?_
    · rintro c n ⟨epoch, hphase, hn⟩
      exact ⟨epoch, installing_of_moveTo (by simp) c epoch hphase, hn⟩
    · -- an epoch with a new delivery has a window
      rintro n ⟨epoch, ⟨x, hx⟩ | ⟨seq, hmem⟩, hn⟩
      · refine ⟨epoch, .inl ?_, hn⟩
        by_cases he : epoch = frame.epoch
        · exact ⟨_, he ▸ hslot⟩
        · have hx' : (s.replay.putBack isPending _).slotMut epoch = some x := hx
          rw [ReplayState.slotMut_putBack hslot, if_neg he] at hx'
          exact ⟨x, hx'⟩
      · rcases List.mem_cons.mp hmem with hhead | hmem
        · cases hhead
          exact ⟨_, .inl ⟨_, hslot⟩, hn⟩
        · exact ⟨epoch, .inr ⟨seq, hmem⟩, hn⟩
  · have hx' : (s.replay.putBack isPending _).slotMut epoch = some (window', b) := hx
    rw [ReplayState.slotMut_putBack hslot] at hx'
    by_cases he : epoch = frame.epoch
    · rw [if_pos he] at hx'
      cases hx'
      convert ReplayWindow.represents_checkAndRecord hrep hok using 1
      ext n
      simp [deliveredIn, deliveries, ReplyEvent.delivery?, he, eq_comm]
    · rw [if_neg he] at hx'
      convert h.represents hx' using 1
      ext n
      simp [deliveredIn, deliveries, ReplyEvent.delivery?, he]
  · refine List.nodup_cons.mpr ⟨fun hmem => hnew ⟨frame.seq, hmem, rfl⟩, h.nodup⟩

/-- **A rekey draws an epoch** nobody has drawn. -/
theorem Once.rekeySession (h : Once s) (setup : Option Ctx) :
    Once (s.rekeySession caller setup) := by
  unfold ReplyClient.rekeySession
  rcases hrekey : s.session.rekey setup with _ | session
  · exact h
  have hepoch : session.epoch.toNat = s.session.epoch.toNat + 1 := by
    unfold ReplySession.rekey at hrekey
    split at hrekey
    · rename_i hroom
      obtain ⟨ctx, -, rfl⟩ := Option.map_eq_some_iff.mp hrekey
      show (s.session.epoch + 1).toNat = _
      rw [UInt32.toNat_add]
      exact Nat.mod_eq_of_lt hroom
    · cases hrekey
  refine ⟨?_, h.represents, h.nodup⟩
  show Tickets (session.epoch.toNat + 1) _ _
  rw [hepoch]
  have hdrawn : session.epoch.toUInt64.toNat = s.session.epoch.toNat + 1 := by simp [hepoch]
  refine h.tickets.draw (i := caller) hdrawn ?_
  rintro c n ⟨epoch, hphase, hn⟩
  have hphase' : update s.phase caller (.installing session.epoch) c
      = .installing epoch := hphase
  rw [update_apply] at hphase'
  split at hphase'
  · rename_i hc
    cases hphase'
    exact .inl ⟨hc, hn.symm⟩
  · exact .inr ⟨epoch, hphase', hn⟩

/-- **The window of a drawn epoch**: nothing was delivered in it so far. -/
theorem Once.installWindow (h : Once s) {epoch : UInt32} (hc : s.phase caller = .installing epoch) :
    Once (s.installWindow caller epoch) := by
  have hhand : InHand s caller epoch.toUInt64 := ⟨epoch, hc, rfl⟩
  have hunused : ¬ Used s epoch := fun hused =>
    h.tickets.hand_unused caller _ hhand ⟨epoch, hused, rfl⟩
  refine ⟨?_, fun {epoch' window b} hx => ?_, h.nodup⟩
  · refine h.tickets.use hhand ?_ ?_
    · rintro c n ⟨epoch', hphase, hn⟩
      refine ⟨⟨epoch', installing_of_moveTo (by simp) c epoch' hphase, hn⟩, ?_⟩
      rintro rfl
      have hidle : (s.installWindow c epoch).phase c = .idle := update_self ..
      rw [hidle] at hphase
      cases hphase
    · rintro n ⟨epoch', ⟨⟨window, b⟩, hx⟩ | hdel, hn⟩
      · rcases ReplayState.slotMut_install hx with ⟨rfl, -⟩ | ⟨b', hx'⟩
        · exact .inl hn.symm
        · exact .inr ⟨epoch', .inl ⟨_, hx'⟩, hn⟩
      · exact .inr ⟨epoch', .inr hdel, hn⟩
  · rcases ReplayState.slotMut_install hx with ⟨rfl, rfl⟩ | ⟨b', hx'⟩
    · have hnone : s.deliveredIn epoch' = ∅ := by
        refine Set.eq_empty_of_forall_notMem ?_
        rintro n ⟨seq, hmem, -⟩
        exact hunused (.inr ⟨seq, hmem⟩)
      show ReplayWindow.Represents .new (s.deliveredIn epoch')
      rw [hnone]
      exact ReplayWindow.represents_new
    · exact h.represents hx'

theorem Once.step (h : Once s) (aead : Ctx → ReplyFrame Body → Option Plain)
    (i : ℕ × ReplyInput Ctx Body) : Once (s.step aead i) := by
  obtain ⟨c, input⟩ := i
  show Once (s.stepFrom aead c (s.phase c) input)
  cases hc : s.phase c <;> cases input
  case idle.recv frame =>
    show Once (s.probe c frame)
    unfold ReplyClient.probe
    split
    · exact h
    · split
      · exact h
      · exact h.anti rfl (installing_of_moveTo (by simp)) (fun _ _ _ hx => hx) rfl
  case opening.go frame =>
    show Once (s.openFrame aead c frame)
    unfold ReplyClient.openFrame
    split
    · exact h.anti rfl (installing_of_moveTo (by simp)) (fun _ _ _ hx => hx) rfl
    · exact h.anti rfl (installing_of_moveTo (by simp)) (fun _ _ _ hx => hx) rfl
  case recording.go frame plaintext => exact h.recordFrame frame plaintext
  case idle.rekey setup => exact h.rekeySession setup
  case installing.go epoch => exact h.installWindow hc
  case idle.prune =>
    exact h.anti rfl (installing_of_moveTo (by simp)) (fun _ _ _ hx => hx) rfl
  case pruning.go =>
    exact h.anti rfl (installing_of_moveTo (by simp))
      (fun _ _ _ hx => ReplayState.slotMut_prune hx) rfl
  all_goals exact h

end ReplyClient

/-! ### What a caller did before -/

namespace ReplyClient

variable {Ctx Body Plain : Type} {aead : Ctx → ReplyFrame Body → Option Plain}
  {s s' : ReplyClient Ctx Body Plain} {log : List (ReplyEvent Ctx Body Plain)}
  {ev : ReplyEvent Ctx Body Plain} {caller : ℕ} {frame : ReplyFrame Body} {plaintext : Plain}

def doneBy (caller : ℕ) (log : List (ReplyEvent Ctx Body Plain)) :
    List (ReplyEvent Ctx Body Plain) :=
  log.filter fun ev => decide (ev.caller = caller)

/-- The last thing the caller did was a probe of the frame, with its epoch known. -/
def Probed (log : List (ReplyEvent Ctx Body Plain)) (caller : ℕ) (frame : ReplyFrame Body) : Prop :=
  ∃ replay rest, doneBy caller log = .probed caller frame replay :: rest ∧
    replay.Knows frame.epoch

/-- The last things the caller did were such a probe and an open that succeeded. -/
def Opened (aead : Ctx → ReplyFrame Body → Option Plain) (log : List (ReplyEvent Ctx Body Plain))
    (caller : ℕ) (frame : ReplyFrame Body) (plaintext : Plain) : Prop :=
  ∃ session replay rest,
    doneBy caller log
      = .opened caller frame session plaintext :: .probed caller frame replay :: rest ∧
    session.openResponse aead frame = some plaintext ∧ replay.Knows frame.epoch

theorem doneBy_cons_self (h : ev.caller = caller) :
    doneBy caller (ev :: log) = ev :: doneBy caller log := by
  simp [doneBy, h]

theorem doneBy_cons_of_ne (h : caller ≠ ev.caller) :
    doneBy caller (ev :: log) = doneBy caller log := by
  simp [doneBy, h.symm]

/-- The phase of a caller says what it did last, and a delivery what was done before it. -/
structure Traced (aead : Ctx → ReplyFrame Body → Option Plain) (s : ReplyClient Ctx Body Plain) :
    Prop where
  opening : ∀ {c frame}, s.phase c = .opening frame → Probed s.log c frame
  recording : ∀ {c frame plaintext}, s.phase c = .recording frame plaintext →
    Opened aead s.log c frame plaintext
  delivered : ∀ {c frame replay plaintext earlier},
    .delivered c frame replay plaintext :: earlier <:+ s.log →
      replay.Knows frame.epoch ∧ Opened aead earlier c frame plaintext

theorem Traced.connected (version : Version) (exitId : ExitId) (ctx : Ctx) :
    Traced aead (ReplyClient.connected version exitId ctx) where
  opening h := by cases h
  recording h := by cases h
  delivered h := by cases List.suffix_nil.mp h

namespace Traced

variable (h : Traced aead s)
include h

theorem quiet {phase : ReplyPhase Body Plain} (hopening : ∀ frame, phase ≠ .opening frame)
    (hrecording : ∀ frame plaintext, phase ≠ .recording frame plaintext)
    (hphase : s'.phase = Function.update s.phase caller phase) (hlog : s'.log = s.log) :
    Traced aead s' := by
  have hother : ∀ {c x}, s'.phase c = x → x ≠ phase → s.phase c = x := by
    intro c x hc hne
    rw [hphase, update_apply] at hc
    split at hc
    · exact absurd hc.symm hne
    · exact hc
  refine ⟨fun hc => ?_, fun hc => ?_, fun hs => h.delivered (hlog ▸ hs)⟩
  · rw [hlog]
    exact h.opening (hother hc (hopening _).symm)
  · rw [hlog]
    exact h.recording (hother hc (hrecording _ _).symm)

theorem event (ev) {phase : ReplyPhase Body Plain}
    (hphase : s'.phase = Function.update s.phase caller phase)
    (hlog : s'.log = ev :: s.log) (hev : ev.caller = caller)
    (hopening : ∀ frame, phase = .opening frame → Probed s'.log caller frame)
    (hrecording : ∀ frame plaintext, phase = .recording frame plaintext →
      Opened aead s'.log caller frame plaintext)
    (hdelivered : ∀ frame replay plaintext, ev = .delivered caller frame replay plaintext →
      replay.Knows frame.epoch ∧ Opened aead s.log caller frame plaintext) : Traced aead s' := by
  -- what the others did is unchanged
  have hothers : ∀ {c}, c ≠ caller → s'.phase c = s.phase c ∧ doneBy c s'.log = doneBy c s.log := by
    intro c hne
    rw [hphase, hlog]
    exact ⟨update_of_ne hne .., doneBy_cons_of_ne (hev ▸ hne)⟩
  have hself : s'.phase caller = phase := by
    rw [hphase]
    exact update_self ..
  refine ⟨fun {c frame} hc => ?_, fun {c frame plaintext} hc => ?_,
    fun {c frame replay plaintext earlier} hs => ?_⟩
  · by_cases hne : c = caller
    · subst hne
      exact hopening frame (hself.symm.trans hc)
    · obtain ⟨hsame, hdone⟩ := hothers hne
      obtain ⟨replay, rest, heq, hknows⟩ := h.opening (hsame.symm.trans hc)
      exact ⟨replay, rest, hdone.trans heq, hknows⟩
  · by_cases hne : c = caller
    · subst hne
      exact hrecording frame plaintext (hself.symm.trans hc)
    · obtain ⟨hsame, hdone⟩ := hothers hne
      obtain ⟨session, replay, rest, heq, hrest⟩ := h.recording (hsame.symm.trans hc)
      exact ⟨session, replay, rest, hdone.trans heq, hrest⟩
  · rw [hlog] at hs
    rcases List.suffix_cons_iff.mp hs with heq | hs
    · cases heq
      cases hev
      exact hdelivered frame replay plaintext rfl
    · exact h.delivered hs

theorem probe : Traced aead (s.probe caller frame) := by
  unfold ReplyClient.probe
  split
  · exact h
  split
  · exact h
  · rename_i hcheck
    refine h.event (.probed caller frame s.replay) rfl rfl rfl (fun frame' heq => ?_)
      (fun _ _ heq => (by cases heq)) fun _ _ _ heq => (by cases heq)
    cases heq
    refine ⟨s.replay, _, doneBy_cons_self rfl, ?_⟩
    unfold ReplayState.check at hcheck
    rcases hslot : s.replay.slotMut frame.epoch with _ | ⟨window, isPending⟩
    · rw [hslot] at hcheck
      cases hcheck
    · exact ReplayState.knows_of_slotMut hslot

theorem openFrame (hc : s.phase caller = .opening frame) :
    Traced aead (s.openFrame aead caller frame) := by
  unfold ReplyClient.openFrame
  split
  · exact h.quiet (by simp) (by simp) rfl rfl
  · rename_i plaintext hopen
    refine h.event (.opened caller frame s.session plaintext) rfl rfl rfl
      (fun _ heq => (by cases heq)) (fun frame' plaintext' heq => ?_)
      fun _ _ _ heq => (by cases heq)
    cases heq
    obtain ⟨replay, rest, heq, hknows⟩ := h.opening hc
    refine ⟨s.session, replay, rest, ?_, hopen, hknows⟩
    exact (doneBy_cons_self rfl).trans (congrArg _ heq)

theorem recordFrame (hc : s.phase caller = .recording frame plaintext) :
    Traced aead (s.recordFrame caller frame plaintext) := by
  unfold ReplyClient.recordFrame
  rcases s.replay.checkAndRecord_cases frame.epoch frame.seq with
    ⟨e, heq⟩ | ⟨window, isPending, hslot, -, heq⟩
  · rw [heq]
    exact h.quiet (by simp) (by simp) rfl rfl
  · rw [heq]
    refine h.event (.delivered caller frame s.replay plaintext) rfl rfl rfl
      (fun _ heq => (by cases heq)) (fun _ _ heq => (by cases heq)) fun _ _ _ heq => ?_
    cases heq
    exact ⟨ReplayState.knows_of_slotMut hslot, h.recording hc⟩

theorem step (i : ℕ × ReplyInput Ctx Body) : Traced aead (s.step aead i) := by
  obtain ⟨c, input⟩ := i
  show Traced aead (s.stepFrom aead c (s.phase c) input)
  cases hc : s.phase c <;> cases input
  case idle.recv frame => exact h.probe
  case opening.go frame => exact h.openFrame hc
  case recording.go frame plaintext => exact h.recordFrame hc
  case idle.rekey setup =>
    show Traced aead (s.rekeySession c setup)
    unfold ReplyClient.rekeySession
    split
    · exact h
    · exact h.quiet (by simp) (by simp) rfl rfl
  case installing.go epoch => exact h.quiet (by simp) (by simp) rfl rfl
  case idle.prune => exact h.quiet (by simp) (by simp) rfl rfl
  case pruning.go => exact h.quiet (by simp) (by simp) rfl rfl
  all_goals exact h

/-- A step that changes the windows is the second one of a rekey or of a prune, or the record
of a frame that opened. -/
theorem replay_step (i : ℕ × ReplyInput Ctx Body) (hne : (s.step aead i).replay ≠ s.replay) :
    (∃ epoch, s.phase i.1 = .installing epoch) ∨ s.phase i.1 = .pruning ∨
      ∃ frame plaintext, s.phase i.1 = .recording frame plaintext ∧
        Opened aead s.log i.1 frame plaintext := by
  obtain ⟨c, input⟩ := i
  have hne' : (s.stepFrom aead c (s.phase c) input).replay ≠ s.replay := hne
  cases hc : s.phase c with
  | installing epoch => exact .inl ⟨epoch, rfl⟩
  | pruning => exact .inr (.inl rfl)
  | recording frame plaintext => exact .inr (.inr ⟨frame, plaintext, rfl, h.recording hc⟩)
  | idle =>
    rw [hc] at hne'
    cases input with
    | recv frame =>
      refine absurd ?_ hne'
      show (s.probe c frame).replay = s.replay
      unfold ReplyClient.probe
      split
      · rfl
      · split <;> rfl
    | rekey setup =>
      refine absurd ?_ hne'
      show (s.rekeySession c setup).replay = s.replay
      unfold ReplyClient.rekeySession
      split <;> rfl
    | prune => exact absurd rfl hne'
    | go => exact absurd rfl hne'
  | opening frame =>
    rw [hc] at hne'
    cases input with
    | go =>
      refine absurd ?_ hne'
      show (s.openFrame aead c frame).replay = s.replay
      unfold ReplyClient.openFrame
      split <;> rfl
    | recv _ => exact absurd rfl hne'
    | rekey _ => exact absurd rfl hne'
    | prune => exact absurd rfl hne'

end Traced

end ReplyClient

/-! ### Every run -/

/-- **Replies are delivered once.**  In every interleaving:

* no number of an epoch is delivered twice;
* a caller that is delivered a frame had last probed it and then opened it, with success,
  and its epoch was the current or the pending one of the replay state both at the probe and
  at the record;
* a step that changes a window is one of a rekey or of a prune, or the record of a frame
  that had opened; the step of a `recv` whose frame does not open is its last. -/
theorem replies_delivered_once {Ctx Body Plain : Type}
    {aead : Ctx → ReplyFrame Body → Option Plain} {s : ReplyClient Ctx Body Plain}
    (h : s.Reachable aead) :
    s.deliveries.Nodup ∧
    (∀ c frame replay plaintext earlier,
      .delivered c frame replay plaintext :: earlier <:+ s.log →
        replay.Knows frame.epoch ∧ ∃ session replay' rest,
          ReplyClient.doneBy c earlier
            = .opened c frame session plaintext :: .probed c frame replay' :: rest ∧
          session.openResponse aead frame = some plaintext ∧ replay'.Knows frame.epoch) ∧
    (∀ i, (s.step aead i).replay ≠ s.replay →
      (∃ epoch, s.phase i.1 = .installing epoch) ∨ s.phase i.1 = .pruning ∨
        ∃ frame plaintext, s.phase i.1 = .recording frame plaintext ∧
          ReplyClient.Opened aead s.log i.1 frame plaintext) ∧
    (∀ c frame, s.phase c = .opening frame → s.session.openResponse aead frame = none →
      s.step aead (c, .go) = s.moveTo c .idle) := by
  have hinv : s.Once ∧ s.Traced aead := by
    refine Transition.Reachable.invariant (I := fun s => s.Once ∧ s.Traced aead) ?_ ?_ h
    · rintro s ⟨version, exitId, ctx, rfl⟩
      exact ⟨.connected version exitId ctx, .connected version exitId ctx⟩
    · rintro s s' ⟨honce, htraced⟩ ⟨i, rfl⟩
      exact ⟨honce.step aead i, htraced.step i⟩
  refine ⟨hinv.1.nodup, fun c frame replay plaintext earlier hs => hinv.2.delivered hs,
    fun i hne => hinv.2.replay_step i hne, fun c frame hc hopen => ?_⟩
  show s.stepFrom aead c (s.phase c) .go = _
  rw [hc]
  show s.openFrame aead c frame = _
  rw [ReplyClient.openFrame, hopen]

def echoAead (ctx : ℕ) (frame : ReplyFrame ℕ) : Option ℕ :=
  if ctx = frame.body then some frame.body else none

def lateReply : ReplyFrame ℕ := ⟨0x01, 1, 0, 5, 7⟩

def duplicated : List (ℕ × ReplyInput ℕ ℕ) :=
  [(1, .recv lateReply), (2, .recv lateReply), (3, .rekey (some 8)), (1, .go), (3, .go),
    (1, .go), (2, .go), (2, .go)]

theorem replies_delivered_once_duplicated : ∃ s : ReplyClient ℕ ℕ ℕ, s.Reachable echoAead ∧
    s.deliveries = [(0, 5)] ∧ s.deliveries.Nodup := by
  have hstart : (ReplyClient.connected .v1 1 7 : ReplyClient ℕ ℕ ℕ).Reachable echoAead :=
    .start ⟨.v1, 1, 7, rfl⟩
  have hreach : (duplicated.foldl (ReplyClient.step echoAead) (.connected .v1 1 7)).Reachable
      echoAead := Transition.Reachable.foldl (fun _ i => ⟨i, rfl⟩) duplicated hstart
  exact ⟨_, hreach, by decide, (replies_delivered_once hreach).1⟩

end WarrenGuard.Multihop
