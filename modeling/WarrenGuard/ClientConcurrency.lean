/-
Concurrent calls on one `/v1` client (`send_packet`, `seal_next_forward_frame` and `rekey` of
`warrenguard-transport/src/multihop.rs`).

The counter of forward frames is an atomic, the session stands behind a lock of its own, and no
lock spans the two.  A `send_packet` draws a number, then takes the read lock and seals with it; a
`rekey` replaces the session under the write lock, then stores 0 into the counter.  The steps of
any number of callers interleave:

* `rekey_between_draw_and_seal` — a number drawn before the reset is sealed under the new session,
  and given out again;
* `interleaved_frames_distinct` — no two frames share key, epoch and number, in the interleavings
  without that.

Design notes: `should_rekey` reads a clock and a counter that other callers change, so its answer
is an input.  `resets` counts the stores of 0; no step reads it.
-/
import WarrenGuard.ClientSealing

namespace WarrenGuard.Multihop

inductive Phase where
  | idle
  /-- In `send_packet`, before `should_rekey`. -/
  | check
  /-- In `rekey`, before the write lock; `inSend` if `send_packet` called it. -/
  | lock (inSend : Bool)
  /-- In `rekey`, after the write lock and before the store of 0. -/
  | reset (inSend : Bool)
  /-- Before `fetch_add`. -/
  | draw
  /-- Between `fetch_add`, which returned `seq` after `resets` stores, and the seal. -/
  | drawn (seq : UInt64) (resets : ℕ)

inductive Input where
  | send
  | rekey
  | shouldRekey (due : Bool)
  /-- The outcome of a fresh HPKE setup. -/
  | setup (key : Option EncapsulatedKey)
  | go

/-- The parts of a `/v1` client that its callers share, and the callers. -/
structure SharedClient where
  session : SealTag
  seqSend : UInt64
  phase : ℕ → Phase
  resets : ℕ
  keys : List EncapsulatedKey
  sealed : List (SealTag × UInt64)

namespace SharedClient

def connected (key : EncapsulatedKey) : SharedClient where
  session := ⟨key, 0⟩
  seqSend := 0
  phase := fun _ => .idle
  resets := 0
  keys := [key]
  sealed := []

variable (s : SharedClient)

def moveTo (caller : ℕ) (phase : Phase) : SharedClient :=
  { s with phase := Function.update s.phase caller phase }

/-- `seq_send.fetch_add(1)`. -/
def fetchAdd (caller : ℕ) : SharedClient :=
  { s.moveTo caller (.drawn s.seqSend s.resets) with seqSend := s.seqSend + 1 }

/-- `seal` under the read lock, with the session found there. -/
def sealFrame (caller : ℕ) (seq : UInt64) : SharedClient :=
  { s.moveTo caller .idle with sealed := (s.session, seq) :: s.sealed }

/-- `ClientSession::rekey` under the write lock; a failure ends the call. -/
def rekeySession (caller : ℕ) (inSend : Bool) :
    Option EncapsulatedKey → SharedClient
  | none => s.moveTo caller .idle
  | some key =>
    if s.session.epoch.toNat + 1 < 2 ^ 32 then
      -- the lock is released here, with the counter not yet reset
      { s.moveTo caller (.reset inSend) with
        session := ⟨key, s.session.epoch + 1⟩
        keys := key :: s.keys }
    else s.moveTo caller .idle

/-- `seq_send.store(0)`; `send_packet` then goes on to its frame. -/
def storeZero (caller : ℕ) (inSend : Bool) : SharedClient :=
  { s.moveTo caller (if inSend then .draw else .idle) with
    seqSend := 0
    resets := s.resets + 1 }

def stepFrom (caller : ℕ) : Phase → Input → SharedClient
  | .idle, .send => s.moveTo caller .check
  | .idle, .rekey => s.moveTo caller (.lock false)
  | .check, .shouldRekey due => s.moveTo caller (if due then .lock true else .draw)
  | .lock inSend, .setup key => s.rekeySession caller inSend key
  | .reset inSend, .go => s.storeZero caller inSend
  | .draw, .go => s.fetchAdd caller
  | .drawn seq _, .go => s.sealFrame caller seq
  | _, _ => s

def step (i : ℕ × Input) : SharedClient := s.stepFrom i.1 (s.phase i.1) i.2

/-- Encapsulated keys of different setups are distinct. -/
def FreshKey (i : ℕ × Input) : Prop :=
  match i.2 with
  | .setup (some key) => key ∉ s.keys
  | _ => True

/-- What a caller's next step must find. -/
def Timely : Phase → Prop
  | .drawn _ resets => resets = s.resets
  | .reset _ => ∀ e ∈ s.sealed, e.1 ≠ s.session
  | .draw => s.seqSend.toNat + 1 < 2 ^ 64
  | .idle | .check | .lock _ => True

/-- The condition on a step: a frame is sealed with a number drawn since the last reset, which came
before the first frame of its session, and the counter has room. -/
def Undisturbed (i : ℕ × Input) : Prop := s.FreshKey i ∧ s.Timely (s.phase i.1)

def Reachable (ok : SharedClient → ℕ × Input → Prop) : SharedClient → Prop :=
  Transition.Reachable (fun s => ∃ key, s = connected key) (Transition.Guarded ok step)

theorem reachable_of_allowed {ok : SharedClient → ℕ × Input → Prop} {key : EncapsulatedKey}
    {steps : List (ℕ × Input)} (h : Transition.Allowed ok step (connected key) steps) :
    Reachable ok (steps.foldl step (connected key)) := by
  have hstart : Reachable ok (connected key) := .start ⟨key, rfl⟩
  exact hstart.run h

/-! ### Numbers in hand -/

def InHand (caller : ℕ) (seq : UInt64) : Prop :=
  s.phase caller = .drawn seq s.resets

/-- No frame is repeated, and none will be: the numbers used under the current session
and those in hand are the tickets of the counter. -/
structure Unrepeated (s : SharedClient) : Prop where
  nodup : s.sealed.Nodup
  tickets : Tickets s.seqSend.toNat s.InHand fun seq => (s.session, seq) ∈ s.sealed
  sealed_seen : ∀ e ∈ s.sealed, e.1.encapsulatedKey ∈ s.keys
  session_seen : s.session.encapsulatedKey ∈ s.keys
  drawn_past : ∀ caller seq r, s.phase caller = .drawn seq r → r ≤ s.resets

variable {s : SharedClient} {caller : ℕ}

theorem unrepeated_connected (key : EncapsulatedKey) : Unrepeated (connected key) where
  nodup := List.nodup_nil
  tickets := ⟨fun _ h => absurd h List.not_mem_nil, (fun _ _ h => nomatch h),
    fun _ _ _ => List.not_mem_nil, (fun _ _ _ h => nomatch h)⟩
  sealed_seen := fun _ he => absurd he List.not_mem_nil
  session_seen := List.mem_cons_self
  drawn_past := fun _ _ _ h => nomatch h

/-! ### What one step leaves -/

theorem other_of_update {p : Phase} (hp : ∀ seq r, p ≠ .drawn seq r) {a : ℕ} {seq : UInt64} {r : ℕ}
    (h : Function.update s.phase caller p a = .drawn seq r) :
    a ≠ caller ∧ s.phase a = .drawn seq r := by
  by_cases ha : a = caller
  · rw [ha, Function.update_self] at h
    exact absurd h (hp seq r)
  · rw [Function.update_of_ne ha] at h
    exact ⟨ha, h⟩

namespace Unrepeated

variable (h : Unrepeated s)
include h

theorem moveTo {p : Phase} (hp : ∀ seq r, p ≠ .drawn seq r) : Unrepeated (s.moveTo caller p) :=
  { h with
    tickets := h.tickets.anti (fun _ _ ha => (other_of_update hp ha).2) fun _ => id
    drawn_past := fun _ _ _ ha => h.drawn_past _ _ _ (other_of_update hp ha).2 }

theorem fetchAdd (hroom : s.seqSend.toNat + 1 < 2 ^ 64) : Unrepeated (s.fetchAdd caller) := by
  have hcases : ∀ {a seq r}, (s.fetchAdd caller).phase a = .drawn seq r →
      (a = caller ∧ seq = s.seqSend ∧ r = s.resets) ∨ s.phase a = .drawn seq r := by
    intro a seq r ha
    change Function.update s.phase caller _ a = _ at ha
    by_cases hac : a = caller
    · rw [hac, Function.update_self] at ha
      cases ha
      exact .inl ⟨hac, rfl, rfl⟩
    · rw [Function.update_of_ne hac] at ha
      exact .inr ha
  refine ⟨h.nodup, ?_, h.sealed_seen, h.session_seen, ?_⟩
  · show Tickets (s.seqSend + 1).toNat _ _
    rw [Tickets.toNat_add_one hroom]
    exact h.tickets.draw rfl fun a seq ha => (hcases ha).imp_left fun hnew => ⟨hnew.1, hnew.2.1⟩
  · intro a seq r ha
    rcases hcases ha with ⟨-, -, rfl⟩ | hold
    · exact Nat.le_refl _
    · exact h.drawn_past a seq r hold

theorem sealFrame {seq : UInt64} (hseq : s.InHand caller seq) :
    Unrepeated (s.sealFrame caller seq) := by
  have hidle : ∀ seq r, Phase.idle ≠ .drawn seq r := fun _ _ h => nomatch h
  refine { h.moveTo hidle with
    nodup := List.nodup_cons.mpr ⟨h.tickets.hand_unused caller seq hseq, h.nodup⟩
    tickets := h.tickets.use hseq ?_ ?_
    sealed_seen := ?_ }
  · intro a seq' ha
    obtain ⟨hne, ha'⟩ := other_of_update hidle ha
    exact ⟨ha', fun heq => absurd heq hne⟩
  · intro seq' hmem
    rcases List.mem_cons.mp hmem with heq | hmem
    · exact .inl (Prod.mk.inj heq).2
    · exact .inr hmem
  · intro e he
    rcases List.mem_cons.mp he with rfl | he
    · exact h.session_seen
    · exact h.sealed_seen e he

/-- A new session has sealed nothing, so any number may be used under it. -/
theorem rekeySession {inSend : Bool} {key : Option EncapsulatedKey}
    (hkey : ∀ k, key = some k → k ∉ s.keys) : Unrepeated (s.rekeySession caller inSend key) := by
  have hidle : Unrepeated (s.moveTo caller .idle) := h.moveTo fun _ _ h => nomatch h
  have hreset : Unrepeated (s.moveTo caller (.reset inSend)) := h.moveTo fun _ _ h => nomatch h
  cases key with
  | none => exact hidle
  | some k =>
    simp only [SharedClient.rekeySession]
    split
    · have hunused : ∀ seq, (⟨k, s.session.epoch + 1⟩, seq) ∉ s.sealed :=
        fun seq hmem => hkey k rfl (h.sealed_seen _ hmem)
      exact { hreset with
        tickets := hreset.tickets.anti (fun _ _ => id) fun seq hmem => absurd hmem (hunused seq)
        sealed_seen := fun e he => List.mem_cons_of_mem _ (h.sealed_seen e he)
        session_seen := List.mem_cons_self }
    · exact hidle

theorem storeZero (inSend : Bool)
    (hnone : ∀ e ∈ s.sealed, e.1 ≠ s.session) : Unrepeated (s.storeZero caller inSend) := by
  have hempty : ∀ seq r, (if inSend then Phase.draw else .idle) ≠ .drawn seq r := by
    intro seq r
    split <;> exact fun h => nomatch h
  have hmove : Unrepeated (s.moveTo caller (if inSend then .draw else .idle)) := h.moveTo hempty
  have hno : ∀ a seq, ¬ (s.storeZero caller inSend).InHand a seq := by
    intro a seq ha
    have hpast : s.resets + 1 ≤ s.resets := hmove.drawn_past a seq _ ha
    omega
  exact { hmove with
    tickets := ⟨fun _ hmem => absurd rfl (hnone _ hmem), fun a seq ha => absurd ha (hno a seq),
      fun a seq ha => absurd ha (hno a seq), fun a _ seq ha => absurd ha (hno a seq)⟩
    drawn_past := fun a seq r ha => Nat.le_succ_of_le (hmove.drawn_past a seq r ha) }

theorem step {i : ℕ × Input} (hok : s.Undisturbed i) : Unrepeated (s.step i) := by
  obtain ⟨caller, input⟩ := i
  obtain ⟨hkey, htimely⟩ := hok
  unfold SharedClient.step
  dsimp only at htimely ⊢
  -- the caller's phase decides both the step and its condition
  generalize hp : s.phase caller = p at htimely ⊢
  unfold stepFrom
  split
  · exact h.moveTo fun _ _ h => nomatch h
  · exact h.moveTo fun _ _ h => nomatch h
  · refine h.moveTo fun _ _ => ?_
    split <;> exact fun h => nomatch h
  · refine h.rekeySession ?_
    rintro k rfl
    exact hkey
  · exact h.storeZero _ htimely
  · exact h.fetchAdd htimely
  · refine h.sealFrame ?_
    rw [InHand, hp, htimely]
  · exact h

end Unrepeated

/-! ### Every interleaving -/

/-- **No two frames share a packet key**, in every interleaving whose steps meet
`Undisturbed`. -/
theorem interleaved_frames_distinct (h : Reachable Undisturbed s) : s.sealed.Nodup := by
  have hinv : Unrepeated s := by
    refine Transition.Reachable.invariant ?_ ?_ h
    · rintro _ ⟨key, rfl⟩
      exact unrepeated_connected key
    · rintro s₁ s₂ hs ⟨i, hok, rfl⟩
      exact hs.step hok
  exact hinv.nodup

instance (s : SharedClient) : (i : ℕ × Input) → Decidable (s.FreshKey i)
  | (_, .setup (some key)) => inferInstanceAs (Decidable (key ∉ s.keys))
  | (_, .setup none) => inferInstanceAs (Decidable True)
  | (_, .send) | (_, .rekey) | (_, .shouldRekey _) | (_, .go) => inferInstanceAs (Decidable True)

instance (s : SharedClient) : (p : Phase) → Decidable (s.Timely p)
  | .drawn _ resets => inferInstanceAs (Decidable (resets = s.resets))
  | .reset _ => inferInstanceAs (Decidable (∀ e ∈ s.sealed, e.1 ≠ s.session))
  | .draw => inferInstanceAs (Decidable (s.seqSend.toNat + 1 < 2 ^ 64))
  | .idle | .check | .lock _ => inferInstanceAs (Decidable True)

instance (s : SharedClient) (i : ℕ × Input) : Decidable (s.Undisturbed i) :=
  inferInstanceAs (Decidable (_ ∧ _))

def overlappingSends : List (ℕ × Input) :=
  [(1, .send), (2, .send), (1, .shouldRekey false), (2, .shouldRekey false), (1, .go), (2, .go),
    (2, .go), (3, .rekey), (1, .go), (3, .setup (some 2)), (1, .send), (3, .go),
    (1, .shouldRekey false), (1, .go), (1, .go)]

theorem interleaved_frames_distinct_overlapping :
    Transition.Allowed Undisturbed step (connected 1) overlappingSends ∧
      (overlappingSends.foldl step (connected 1)).sealed.length = 3 ∧
      (overlappingSends.foldl step (connected 1)).sealed.Nodup := by
  have hok : Transition.Allowed Undisturbed step (connected 1) overlappingSends := by decide
  exact ⟨hok, by decide, interleaved_frames_distinct (reachable_of_allowed hok)⟩

def rekeyedSend : List (ℕ × Input) :=
  [(1, .send), (1, .shouldRekey false), (1, .go), (2, .rekey), (2, .setup (some 2)), (2, .go),
    (1, .go), (1, .send), (1, .shouldRekey false), (1, .go), (1, .go)]

/-- **A rekey between the draw and the seal repeats a number of the new session.** -/
theorem rekey_between_draw_and_seal :
    Reachable FreshKey (rekeyedSend.foldl step (connected 1)) ∧
      (rekeyedSend.foldl step (connected 1)).sealed.count (⟨2, 1⟩, 0) = 2 := by
  have hok : Transition.Allowed FreshKey step (connected 1) rekeyedSend := by decide
  exact ⟨reachable_of_allowed hok, by decide⟩

end SharedClient

end WarrenGuard.Multihop
