/-
When a post-quantum epoch counts as acknowledged (`decode_and_open_reply`, `open_replay_gated`,
`rekey`, `seal_next_forward_frame` of `warrenguard-transport/src/multihop.rs`).

On a `/v2` client a flag says that the exit has the key of the current epoch, and data frames go
under that epoch once it is set.  A `recv` sets it after its frame was recorded in the current
window; a `rekey` clears it with the change of the session, and only later installs the window of
the new epoch.  An old frame that is recorded or noted in between sets the flag for an epoch the
exit has never answered in (`stale_reply_acknowledges`).

* `PqClient` — the client of `ReplyDelivery` with the flag, the counter and the data frames; each
  of its steps is one of that client, or none (`reply_step`), and so it too is delivered each
  reply once (`pq_replies_delivered_once`);
* `pq_ack_truthful` — the flag is truthful where records and session changes do not overlap.

Design notes: setup pings are left out, they are not data and carry the key themselves.
-/
import WarrenGuard.ReplyDelivery

namespace WarrenGuard.Multihop

/-! ### The client -/

/-- What a caller has to do before its next step on the session or the windows. -/
inductive PqTask where
  /-- In `recv`, after a record in the current window. -/
  | storeAck
  /-- In `rekey`, after the session step. -/
  | resetCounter
  /-- In `seal_next_forward_frame`, with the number drawn. -/
  | sealing (seq : UInt64)
deriving DecidableEq

/-- A data frame, with the session at the time and what had been done with replies. -/
structure DataFrame (Ctx Body Plain : Type) where
  epoch : UInt32
  seq : UInt64
  /-- Sealed under the retained epoch. -/
  old : Bool
  session : ReplySession Ctx
  seen : List (ReplyEvent Ctx Body Plain)

structure PqClient (Ctx Body Plain : Type) where
  reply : ReplyClient Ctx Body Plain
  pqSetupAcked : Bool
  seqSend : UInt64
  task : ℕ → Option PqTask
  sent : List (DataFrame Ctx Body Plain)

inductive PqInput (Ctx Body : Type) where
  | reply (input : ReplyInput Ctx Body)
  | sealNext

namespace PqClient

variable {Ctx Body Plain : Type}

/-- A connected `/v2` client; the setup stream may have been answered already. -/
def connected (exitId : ExitId) (ctx : Ctx) (setupAcked : Bool) : PqClient Ctx Body Plain where
  reply := .connected .v2 exitId ctx
  pqSetupAcked := setupAcked
  seqSend := 0
  task := fun _ => none
  sent := []

variable (s : PqClient Ctx Body Plain)

variable (caller : ℕ)

def setTask (task : Option PqTask) :
    PqClient Ctx Body Plain :=
  { s with task := Function.update s.task caller task }

/-- The record of a reply; in the current window it is still to be noted. -/
def recordReply (frame : ReplyFrame Body)
    (plaintext : Plain) : PqClient Ctx Body Plain :=
  let s' := { s with reply := s.reply.recordFrame caller frame plaintext }
  match (s.reply.replay.checkAndRecord frame.epoch frame.seq).1 with
  | .ok false => s'.setTask caller (some .storeAck)
  | .ok true => s'
  | .error _ => s'

def storeAck : PqClient Ctx Body Plain :=
  { s.setTask caller none with pqSetupAcked := true }

/-- The session step of `rekey`: under the same lock the flag is cleared. -/
def rekeySession (setup : Option Ctx) :
    PqClient Ctx Body Plain :=
  match s.reply.session.rekey setup with
  | none => s
  | some _ =>
    { s.setTask caller (some .resetCounter) with
      reply := s.reply.rekeySession caller setup
      pqSetupAcked := false }

def resetCounter : PqClient Ctx Body Plain :=
  { s.setTask caller none with seqSend := 0 }

/-- `seal_next_forward_frame` up to the number. -/
def drawSeq : PqClient Ctx Body Plain :=
  match s.reply.phase caller with
  | .idle => { s.setTask caller (some (.sealing s.seqSend)) with seqSend := s.seqSend + 1 }
  | _ => s

/-- The epoch a data frame is sealed under, and whether it is the retained one. -/
def dataEpoch : UInt32 × Bool :=
  if s.pqSetupAcked then (s.reply.session.epoch, false)
  else match s.reply.session.pendingOldEpoch with
    | some (epoch, _) => (epoch, true)
    | none => (s.reply.session.epoch, false)

/-- The rest of `seal_next_forward_frame`, under the read lock of the session. -/
def sealNextForwardFrame (seq : UInt64) :
    PqClient Ctx Body Plain :=
  let frame : DataFrame Ctx Body Plain :=
    { epoch := s.dataEpoch.1, seq, old := s.dataEpoch.2, session := s.reply.session,
      seen := s.reply.log }
  { s.setTask caller none with sent := frame :: s.sent }

/-- A step on the session or the windows. -/
def replyStep (aead : Ctx → ReplyFrame Body → Option Plain) (s : PqClient Ctx Body Plain)
    (caller : ℕ) (input : ReplyInput Ctx Body) : PqClient Ctx Body Plain :=
  match s.reply.phase caller, input with
  | .recording frame plaintext, .go => s.recordReply caller frame plaintext
  | .idle, .rekey setup => s.rekeySession caller setup
  | _, _ => { s with reply := s.reply.step aead (caller, input) }

def step (aead : Ctx → ReplyFrame Body → Option Plain) (s : PqClient Ctx Body Plain)
    (i : ℕ × PqInput Ctx Body) : PqClient Ctx Body Plain :=
  match s.task i.1 with
  | some .storeAck => s.storeAck i.1
  | some .resetCounter => s.resetCounter i.1
  | some (.sealing seq) => s.sealNextForwardFrame i.1 seq
  | none =>
    match i.2 with
    | .sealNext => s.drawSeq i.1
    | .reply input => s.replyStep aead i.1 input

def Reachable (aead : Ctx → ReplyFrame Body → Option Plain)
    (ok : PqClient Ctx Body Plain → ℕ × PqInput Ctx Body → Prop) : PqClient Ctx Body Plain → Prop :=
  Transition.Reachable (fun s => ∃ exitId ctx setupAcked, s = connected exitId ctx setupAcked)
    (Transition.Guarded ok (step aead))

end PqClient

/-! ### What the exit is known to have -/

def ReplyEvent.openedEpoch? {Ctx Body Plain : Type} : ReplyEvent Ctx Body Plain → Option UInt32
  | .opened _ frame _ _ => some frame.epoch
  | .probed _ _ _ | .delivered _ _ _ _ => none

/-- The exit is known to have the key of the epoch: it is the first one, which the setup
brought, or a reply of the epoch was opened. -/
def Known {Ctx Body Plain : Type} (log : List (ReplyEvent Ctx Body Plain)) (epoch : UInt32) :
    Prop :=
  epoch = 0 ∨ epoch ∈ log.filterMap ReplyEvent.openedEpoch?

section Replies

variable {Ctx Body Plain : Type} {aead : Ctx → ReplyFrame Body → Option Plain}
  {s : ReplyClient Ctx Body Plain} {log log' : List (ReplyEvent Ctx Body Plain)} {epoch : UInt32}
  {caller : ℕ} {frame : ReplyFrame Body} {plaintext : Plain}

theorem Known.mono (h : Known log epoch) (hlog : log <:+ log') : Known log' epoch :=
  h.imp_right fun hmem => (hlog.filterMap _).subset hmem

theorem ReplyClient.Opened.known (h : ReplyClient.Opened aead log caller frame plaintext) :
    Known log frame.epoch := by
  obtain ⟨session, replay, rest, hdone, -, -⟩ := h
  have hmem : ReplyEvent.opened caller frame session plaintext ∈ ReplyClient.doneBy caller log := by
    rw [hdone]
    exact List.mem_cons_self
  exact .inr (List.mem_filterMap.mpr ⟨_, List.mem_of_mem_filter hmem, rfl⟩)

theorem ReplayState.epoch_of_recorded {st : ReplayState} {seq : UInt64}
    (h : (st.checkAndRecord epoch seq).1 = .ok false) : epoch = st.current.epoch := by
  rcases st.checkAndRecord_cases epoch seq with ⟨e, heq⟩ | ⟨window, isPending, hslot, -, heq⟩
  · rw [heq] at h
    cases h
  · rw [heq] at h
    cases h
    unfold slotMut at hslot
    split at hslot
    · assumption
    · split at hslot
      · split at hslot <;> cases hslot
      · cases hslot

/-- The client is in the same epoch as before, and may have lost the retained one. -/
structure ReplyClient.Keeps (s s' : ReplyClient Ctx Body Plain) : Prop where
  epoch : s'.session.epoch = s.session.epoch
  old : ∀ e ∈ s'.session.pendingOldEpoch, e ∈ s.session.pendingOldEpoch
  log : s.log <:+ s'.log

theorem ReplyClient.Keeps.refl (s : ReplyClient Ctx Body Plain) : s.Keeps s :=
  ⟨rfl, fun _ h => h, List.suffix_rfl⟩

theorem ReplyClient.keeps_recordFrame (s : ReplyClient Ctx Body Plain) (caller frame plaintext) :
    s.Keeps (s.recordFrame caller frame plaintext) := by
  unfold ReplyClient.recordFrame
  split
  · exact ⟨rfl, fun _ h => h, List.suffix_rfl⟩
  · exact ⟨rfl, fun _ h => h, List.suffix_cons _ _⟩

/-- **Only a rekey leaves an epoch.** -/
theorem ReplyClient.keeps_step (s : ReplyClient Ctx Body Plain) (caller)
    (input : ReplyInput Ctx Body) (hno : ∀ setup, s.phase caller = .idle → input ≠ .rekey setup) :
    s.Keeps (s.step aead (caller, input)) := by
  show s.Keeps (s.stepFrom aead caller (s.phase caller) input)
  cases hphase : s.phase caller <;> cases input
  case idle.recv frame =>
    show s.Keeps (s.probe caller frame)
    unfold ReplyClient.probe
    split
    · exact .refl s
    · split
      · exact .refl s
      · exact ⟨rfl, fun _ h => h, List.suffix_cons _ _⟩
  case idle.rekey setup => exact absurd rfl (hno setup hphase)
  case idle.prune => exact ⟨rfl, fun _ h => (by cases h), List.suffix_rfl⟩
  case opening.go frame =>
    show s.Keeps (s.openFrame aead caller frame)
    unfold ReplyClient.openFrame
    split
    · exact ⟨rfl, fun _ h => h, List.suffix_rfl⟩
    · exact ⟨rfl, fun _ h => h, List.suffix_cons _ _⟩
  case recording.go frame plaintext => exact s.keeps_recordFrame caller frame plaintext
  case installing.go epoch => exact ⟨rfl, fun _ h => h, List.suffix_rfl⟩
  case pruning.go => exact ⟨rfl, fun _ h => h, List.suffix_rfl⟩
  all_goals exact .refl s

end Replies

/-! ### One step -/

namespace PqClient

variable {Ctx Body Plain : Type} {aead : Ctx → ReplyFrame Body → Option Plain}
  {s s' : PqClient Ctx Body Plain} {all : Prop} {caller : ℕ}

/-- A reply is recorded in the current window only while that is the window of the session's epoch,
and the session changes only while no recorded reply is to be noted. -/
structure Orderly (s : PqClient Ctx Body Plain) (i : ℕ × PqInput Ctx Body) : Prop where
  recording : s.task i.1 = none → ∀ frame plaintext,
    s.reply.phase i.1 = .recording frame plaintext →
    frame.epoch = s.reply.replay.current.epoch → frame.epoch = s.reply.session.epoch
  rekeying : ∀ setup, i.2 = .reply (.rekey setup) → ∀ c, s.task c ≠ some .storeAck

/-- The session changes only when its epoch is the first one or acknowledged. -/
def AckedFirst (s : PqClient Ctx Body Plain) (i : ℕ × PqInput Ctx Body) : Prop :=
  ∀ setup, i.2 = .reply (.rekey setup) → s.pqSetupAcked = true ∨ s.reply.session.epoch = 0

/-- **What is kept**; `all` says whether rekeys wait for the acknowledgement. -/
structure Truthful (aead : Ctx → ReplyFrame Body → Option Plain) (all : Prop)
    (s : PqClient Ctx Body Plain) : Prop where
  traced : s.reply.Traced aead
  acked : s.pqSetupAcked = true → Known s.reply.log s.reply.session.epoch
  storing : ∀ c, s.task c = some .storeAck → Known s.reply.log s.reply.session.epoch
  retained : all → ∀ e ∈ s.reply.session.pendingOldEpoch, Known s.reply.log e.1
  sent : ∀ d ∈ s.sent, d.session.pendingOldEpoch.isSome → d.old = false ∨ all →
    Known d.seen d.epoch

theorem Truthful.connected (exitId : ExitId) (ctx : Ctx) (setupAcked : Bool) :
    Truthful aead all (PqClient.connected exitId ctx setupAcked) where
  traced := .connected .v2 exitId ctx
  acked _ := .inl rfl
  storing _ _ := .inl rfl
  retained _ _ h := by cases h
  sent _ h := by cases h

theorem Truthful.keeps (h : Truthful aead all s) (htraced : s'.reply.Traced aead)
    (hkeeps : s.reply.Keeps s'.reply) (hacked : s'.pqSetupAcked = s.pqSetupAcked)
    (htask : ∀ c, s'.task c = some .storeAck → s.task c = some .storeAck)
    (hsent : s'.sent = s.sent) : Truthful aead all s' := by
  refine ⟨htraced, fun hset => ?_, fun c hc => ?_, fun hall e he => ?_, hsent ▸ h.sent⟩
  · rw [hkeeps.epoch]
    exact (h.acked (hacked ▸ hset)).mono hkeeps.log
  · rw [hkeeps.epoch]
    exact (h.storing c (htask c hc)).mono hkeeps.log
  · exact (h.retained hall e (hkeeps.old e he)).mono hkeeps.log

theorem storing_of_setTask {task : Option PqTask} (htask : task ≠ some .storeAck) (c : ℕ)
    (h : (s.setTask caller task).task c = some .storeAck) : s.task c = some .storeAck := by
  have h' : Function.update s.task caller task c = some .storeAck := h
  rw [Function.update_apply] at h'
  split at h'
  · exact absurd h' htask
  · exact h'

namespace Truthful

variable (h : Truthful aead all s)
include h

theorem storeAck (hc : s.task caller = some .storeAck) : Truthful aead all (s.storeAck caller) :=
  { h with
    acked := fun _ => h.storing caller hc
    storing := fun c hc' => h.storing c (storing_of_setTask (by simp) c hc') }

/-- **What a data frame is sealed under.** -/
theorem sealNextForwardFrame (caller) (seq : UInt64) :
    Truthful aead all (s.sealNextForwardFrame caller seq) := by
  refine { h with
    storing := fun c hc => h.storing c (storing_of_setTask (by simp) c hc)
    sent := fun d hd hoverlap hold => ?_ }
  rcases List.mem_cons.mp hd with rfl | hd
  · dsimp only at hoverlap hold ⊢
    unfold dataEpoch at hold ⊢
    split
    · next hacked => exact h.acked hacked
    · next hacked =>
      rw [if_neg hacked] at hold
      cases hp : s.reply.session.pendingOldEpoch with
      | none =>
        rw [hp] at hoverlap
        cases hoverlap
      | some e =>
        rw [hp] at hold
        exact h.retained (hold.resolve_left nofun) e hp
  · exact h.sent d hd hoverlap hold

/-- **The record of a reply**: of the current epoch, if it is to be noted. -/
theorem recordReply {frame : ReplyFrame Body} {plaintext : Plain}
    (hphase : s.reply.phase caller = .recording frame plaintext)
    (hepoch : frame.epoch = s.reply.replay.current.epoch → frame.epoch = s.reply.session.epoch) :
    Truthful aead all (s.recordReply caller frame plaintext) := by
  have hkeeps := s.reply.keeps_recordFrame caller frame plaintext
  have hrecorded : Truthful aead all
      { s with reply := s.reply.recordFrame caller frame plaintext } :=
    h.keeps (h.traced.recordFrame hphase) hkeeps rfl (fun _ hc => hc) rfl
  unfold PqClient.recordReply
  split
  · next hok =>
    have hknown : Known s.reply.log s.reply.session.epoch := by
      rw [← hepoch (ReplayState.epoch_of_recorded hok)]
      exact (h.traced.recording hphase).known
    refine { hrecorded with storing := fun _ _ => ?_ }
    have hknown' := hknown.mono hkeeps.log
    rwa [← hkeeps.epoch] at hknown'
  · exact hrecorded
  · exact hrecorded

theorem rekeySession (setup : Option Ctx)
    (hphase : s.reply.phase caller = .idle) (hnone : ∀ c, s.task c ≠ some .storeAck)
    (hacked : all → s.pqSetupAcked = true ∨ s.reply.session.epoch = 0) :
    Truthful aead all (s.rekeySession caller setup) := by
  have htraced : (s.reply.rekeySession caller setup).Traced aead := by
    have hstep := h.traced.step (caller, .rekey setup)
    rwa [ReplyClient.step, hphase] at hstep
  unfold PqClient.rekeySession
  split
  · exact h
  · next session hrekey =>
    refine ⟨htraced, fun hset => (by cases hset), fun c hc => ?_, fun hall e he => ?_, h.sent⟩
    · exact absurd (storing_of_setTask (by simp) c hc) (hnone c)
    · -- what is retained is the epoch that was left
      have hsession : (s.reply.rekeySession caller setup).session = session := by
        rw [ReplyClient.rekeySession, hrekey]
      have hlog : (s.reply.rekeySession caller setup).log = s.reply.log := by
        rw [ReplyClient.rekeySession, hrekey]
        rfl
      rw [hsession] at he
      rw [hlog]
      unfold ReplySession.rekey at hrekey
      split at hrekey
      · obtain ⟨ctx, -, rfl⟩ := Option.map_eq_some_iff.mp hrekey
        cases he
        exact (hacked hall).elim h.acked .inl
      · cases hrekey

/-- **One step of one caller.** -/
theorem step {i : ℕ × PqInput Ctx Body} (hi : s.Orderly i)
    (hall : all → s.AckedFirst i) : Truthful aead all (s.step aead i) := by
  obtain ⟨caller, input⟩ := i
  unfold PqClient.step
  cases htask : s.task caller with
  | some task =>
    cases task with
    | storeAck => exact h.storeAck htask
    | resetCounter =>
      exact h.keeps h.traced (.refl s.reply) rfl (storing_of_setTask (by simp)) rfl
    | sealing seq => exact h.sealNextForwardFrame caller seq
  | none =>
    cases input with
    | sealNext =>
      show Truthful aead all (s.drawSeq caller)
      unfold drawSeq
      split
      · exact h.keeps h.traced (.refl s.reply) rfl (storing_of_setTask (by simp)) rfl
      · exact h
    | reply input =>
      show Truthful aead all (s.replyStep aead caller input)
      unfold replyStep
      split
      · next frame plaintext hphase =>
        exact h.recordReply hphase (hi.recording htask frame plaintext hphase)
      · next setup hphase =>
        exact h.rekeySession setup hphase (hi.rekeying setup rfl) fun ha => hall ha setup rfl
      · next hno =>
        exact h.keeps (h.traced.step _) (s.reply.keeps_step caller _ hno) rfl (fun _ hc => hc) rfl

end Truthful

theorem reachable_truthful {ok : PqClient Ctx Body Plain → ℕ × PqInput Ctx Body → Prop}
    (hok : ∀ s i, ok s i → s.Orderly i ∧ (all → s.AckedFirst i)) (h : s.Reachable aead ok) :
    Truthful aead all s := by
  refine Transition.Reachable.invariant ?_ ?_ h
  · rintro s ⟨exitId, ctx, setupAcked, rfl⟩
    exact .connected exitId ctx setupAcked
  · rintro s _ hs ⟨i, hi, rfl⟩
    exact hs.step (hok s i hi).1 (hok s i hi).2

/-! ### Every run -/

theorem reply_step (s : PqClient Ctx Body Plain) (i : ℕ × PqInput Ctx Body) :
    (s.step aead i).reply = s.reply ∨ ∃ j, (s.step aead i).reply = s.reply.step aead j := by
  obtain ⟨caller, input⟩ := i
  unfold step
  cases s.task caller with
  | some task => cases task <;> exact .inl rfl
  | none =>
    cases input with
    | sealNext =>
      left
      show (s.drawSeq caller).reply = s.reply
      unfold drawSeq
      split <;> rfl
    | reply input =>
      show (s.replyStep aead caller input).reply = s.reply ∨
        ∃ j, (s.replyStep aead caller input).reply = s.reply.step aead j
      unfold replyStep
      split
      · next frame plaintext hphase =>
        refine .inr ⟨(caller, .go), ?_⟩
        rw [ReplyClient.step, hphase]
        unfold recordReply
        split <;> rfl
      · next setup hphase =>
        unfold rekeySession
        split
        · exact .inl rfl
        · refine .inr ⟨(caller, .rekey setup), ?_⟩
          rw [ReplyClient.step, hphase]
          rfl
      · exact .inr ⟨_, rfl⟩

end PqClient

/-- **The acknowledgement of an epoch is truthful**, in every interleaving where a reply is
recorded in the current window only while that is the window of the session's epoch, and the
session changes only while no recorded reply is still to be noted: whenever the flag is set,
the exit is known to have the current epoch, and so it was at every data frame that was sealed
under the current epoch while the old one was retained.  Where a rekey also waits for the
acknowledgement, every data frame that was sealed while an old epoch was retained went under an
epoch the exit was known to have. -/
theorem pq_ack_truthful {Ctx Body Plain : Type} {aead : Ctx → ReplyFrame Body → Option Plain}
    {s : PqClient Ctx Body Plain} (h : s.Reachable aead PqClient.Orderly) :
    (s.pqSetupAcked = true → Known s.reply.log s.reply.session.epoch) ∧
    (∀ d ∈ s.sent, d.session.pendingOldEpoch.isSome → d.old = false → Known d.seen d.epoch) ∧
    (s.Reachable aead (fun s i => s.Orderly i ∧ s.AckedFirst i) →
      ∀ d ∈ s.sent, d.session.pendingOldEpoch.isSome → Known d.seen d.epoch) := by
  have hflag : PqClient.Truthful aead False s :=
    PqClient.reachable_truthful (fun _ _ hi => ⟨hi, False.elim⟩) h
  refine ⟨hflag.acked, fun d hd hoverlap hold => hflag.sent d hd hoverlap (.inl hold),
    fun hwaits d hd hoverlap => ?_⟩
  have hall : PqClient.Truthful aead True s :=
    PqClient.reachable_truthful (fun _ _ hi => ⟨hi.1, fun _ => hi.2⟩) hwaits
  exact hall.sent d hd hoverlap (.inr trivial)

/-! A run that keeps the order, and two that do not. -/

instance {Ctx Body Plain : Type} (log : List (ReplyEvent Ctx Body Plain)) (epoch : UInt32) :
    Decidable (Known log epoch) :=
  inferInstanceAs (Decidable (_ ∨ _))

/-- A caller about to record has a frame of the session's epoch. -/
def PqClient.recordsCurrent {Ctx Body Plain : Type} (s : PqClient Ctx Body Plain) (caller : ℕ) :
    Bool :=
  match s.reply.phase caller with
  | .recording frame _ => decide (frame.epoch = s.reply.session.epoch)
  | _ => true

theorem PqClient.Orderly.of_recordsCurrent {Ctx Body Plain : Type} {s : PqClient Ctx Body Plain}
    {i : ℕ × PqInput Ctx Body} (h : s.recordsCurrent i.1 = true)
    (hinput : ∀ setup, i.2 ≠ .reply (.rekey setup)) : s.Orderly i := by
  refine ⟨fun _ frame plaintext hphase _ => ?_, fun setup heq => absurd heq (hinput setup)⟩
  unfold recordsCurrent at h
  rw [hphase] at h
  exact of_decide_eq_true h

def pqReply (epoch : UInt32) : ReplyFrame ℕ := ⟨0x02, 1, epoch, 5, if epoch = 0 then 7 else 8⟩

def answeredRekey : List (ℕ × PqInput ℕ ℕ) :=
  [(1, .reply (.rekey (some 8))), (1, .reply .go), (1, .reply .go),
    (2, .reply (.recv (pqReply 1))), (2, .reply .go), (2, .reply .go), (2, .reply .go),
    (3, .sealNext), (3, .sealNext)]

theorem pq_ack_truthful_answered :
    let s : PqClient ℕ ℕ ℕ := answeredRekey.foldl (PqClient.step echoAead) (.connected 1 7 true)
    s.pqSetupAcked = true ∧ s.reply.session.epoch = 1 ∧ s.reply.session.pendingOldEpoch.isSome ∧
      s.sent.map (·.epoch) = [1] ∧ Known s.reply.log s.reply.session.epoch := by
  intro s
  have hrekey : (PqClient.connected 1 7 true : PqClient ℕ ℕ ℕ).Orderly
      (1, .reply (.rekey (some 8))) :=
    ⟨fun _ _ _ hphase => (by cases hphase), fun _ _ _ htask => (by cases htask)⟩
  have hstart : (PqClient.connected 1 7 true : PqClient ℕ ℕ ℕ).Reachable echoAead
      PqClient.Orderly := .start ⟨1, 7, true, rfl⟩
  have hreach : s.Reachable echoAead PqClient.Orderly :=
    hstart.run ⟨hrekey, .of_recordsCurrent rfl nofun, .of_recordsCurrent rfl nofun,
      .of_recordsCurrent rfl nofun, .of_recordsCurrent rfl nofun, .of_recordsCurrent rfl nofun,
      .of_recordsCurrent rfl nofun, .of_recordsCurrent rfl nofun, .of_recordsCurrent rfl nofun,
      trivial⟩
  exact ⟨by decide, by decide, by decide, by decide, (pq_ack_truthful hreach).1 (by decide)⟩

def staleReply : List (ℕ × PqInput ℕ ℕ) :=
  [(1, .reply (.rekey (some 8))), (2, .reply (.recv (pqReply 0))), (2, .reply .go),
    (2, .reply .go), (2, .reply .go), (1, .reply .go), (1, .reply .go),
    (3, .sealNext), (3, .sealNext)]

def rekeyedTwice : List (ℕ × PqInput ℕ ℕ) :=
  [(1, .reply (.rekey (some 8))), (1, .reply .go), (1, .reply .go),
    (1, .reply (.rekey (some 9))), (1, .reply .go), (1, .reply .go),
    (3, .sealNext), (3, .sealNext)]

/-- The stale reply sets the flag for epoch 1, of which no reply was opened, and a data frame
goes under epoch 1 while epoch 0 is retained.  After two rekeys the retained epoch is one that
the exit has never answered in, and a data frame goes under it. -/
theorem stale_reply_acknowledges :
    (∃ s : PqClient ℕ ℕ ℕ, s.Reachable echoAead (fun _ _ => True) ∧ s.pqSetupAcked = true ∧
      ¬ Known s.reply.log s.reply.session.epoch ∧
      ∃ d ∈ s.sent, d.session.pendingOldEpoch.isSome ∧ ¬ Known d.seen d.epoch) ∧
    ∃ s : PqClient ℕ ℕ ℕ, s.Reachable echoAead (fun _ _ => True) ∧
      ∃ d ∈ s.sent, d.session.pendingOldEpoch.isSome ∧ ¬ Known d.seen d.epoch := by
  have hstart : (PqClient.connected 1 7 true : PqClient ℕ ℕ ℕ).Reachable echoAead
      (fun _ _ => True) := .start ⟨1, 7, true, rfl⟩
  have hrun := fun labels => hstart.foldl (fun _ i => ⟨i, trivial, rfl⟩) labels
  exact ⟨⟨_, hrun staleReply, by decide, by decide, by decide⟩,
    ⟨_, hrun rekeyedTwice, by decide⟩⟩

/-- **Replies are delivered once** to a client of version 2 as well, while its callers seal, rekey
and store acknowledgements in any order: no number of an epoch is delivered twice, and a caller
that is delivered a frame had last probed it and then opened it, in an epoch known both times. -/
theorem pq_replies_delivered_once {Ctx Body Plain : Type}
    {aead : Ctx → ReplyFrame Body → Option Plain} {s : PqClient Ctx Body Plain}
    {ok : PqClient Ctx Body Plain → ℕ × PqInput Ctx Body → Prop} (h : s.Reachable aead ok) :
    s.reply.deliveries.Nodup ∧
    ∀ c frame replay plaintext earlier,
      .delivered c frame replay plaintext :: earlier <:+ s.reply.log →
        replay.Knows frame.epoch ∧ ∃ session replay' rest,
          ReplyClient.doneBy c earlier
            = .opened c frame session plaintext :: .probed c frame replay' :: rest ∧
          session.openResponse aead frame = some plaintext ∧ replay'.Knows frame.epoch := by
  have hinv : s.reply.Once ∧ s.reply.Traced aead := by
    refine Transition.Reachable.invariant
      (I := fun s : PqClient Ctx Body Plain => s.reply.Once ∧ s.reply.Traced aead) ?_ ?_ h
    · rintro s ⟨exitId, ctx, setupAcked, rfl⟩
      exact ⟨.connected .v2 exitId ctx, .connected .v2 exitId ctx⟩
    · rintro s _ ⟨honce, htraced⟩ ⟨i, -, rfl⟩
      rcases s.reply_step i with hsame | ⟨j, hj⟩
      · rw [hsame]
        exact ⟨honce, htraced⟩
      · rw [hj]
        exact ⟨honce.step aead j, htraced.step j⟩
  exact ⟨hinv.1.nodup, fun c frame replay plaintext earlier hs => hinv.2.delivered hs⟩

/-- The reply that came during the rekey comes again after it. -/
def repeatedReply : PqClient ℕ ℕ ℕ :=
  List.foldl (PqClient.step echoAead) (.connected 1 7 true)
    (staleReply ++ [(4, .reply (.recv (pqReply 0))), (4, .reply .go), (4, .reply .go)])

theorem pq_replies_delivered_once_repeated :
    repeatedReply.reply.deliveries = [(0, 5)] ∧ repeatedReply.reply.deliveries.Nodup := by
  have hstart : (PqClient.connected 1 7 true : PqClient ℕ ℕ ℕ).Reachable echoAead
      fun _ _ => True := .start ⟨1, 7, true, rfl⟩
  have hreach : repeatedReply.Reachable echoAead fun _ _ => True :=
    Transition.Reachable.foldl (fun _ i => ⟨i, trivial, rfl⟩) _ hstart
  exact ⟨by decide, (pq_replies_delivered_once hreach).1⟩

end WarrenGuard.Multihop
