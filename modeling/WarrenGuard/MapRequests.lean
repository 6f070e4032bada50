/-
The NAT-PMP server's backend worker and its requesters
(`warrenguard-natpmp-server/src/server.rs`).

A Map request takes the one backend slot, and a worker of its own runs the backend with it: it
allocates, hands the result over on a channel, rolls the allocation back if nobody takes it, and
frees the slot.  The requester looks at the channel and at its deadline, and answers.  All these
steps interleave:

* `move` — the steps of one request, and `Moved`, what each of them changes;
* `Sound` — what holds in every run;
* `Settled` — what holds where no result is handed over between a requester's last look and the
  drop: an allocation whose worker is through is released, or its requester has it or will have it
  (`Kept`).

Design notes: `log` records grants of the slot, allocations and releases, and no step reads it.
Any answer of the clock is possible at any time.  The hook for a granted credential changes
nothing here, and the workspace aborts on a panic, so that a worker never goes away without
handing over.
-/
import WarrenGuard.PortAllocator
import WarrenGuard.Transition

namespace WarrenGuard.NatPmpServer

open NatPmp (Allocation NatPmpError ResultCode)

/-! ### Requests, workers and answers -/

/-- What the backend fails with: an error of the allocator, or one of its own. -/
inductive BackendError where
  | allocator (error : NatPmpError)
  | backend (message : String)
deriving DecidableEq

/-- The code of `map_failure_response`. -/
def BackendError.resultCode : BackendError → ResultCode
  | .allocator (.rateLimited _ _) => .rateLimited
  | .allocator .exhausted => .outOfResources
  | .allocator (.quotaExceeded _) => .outOfResources
  | .allocator (.suggestedPortInUse _) => .suggestedPortUnavailable
  | .backend _ => .networkFailure

/-- A Map request creates or renews a mapping, or deletes it (lifetime 0). -/
inductive Kind where
  | map
  | delete
deriving DecidableEq

inductive Outcome where
  | granted (alloc : Allocation)
  | deleted (existed : Bool)
  | failed (error : BackendError)
deriving DecidableEq

def Outcome.fits : Outcome → Kind → Bool
  | .granted _, .map => true
  | .deleted _, .delete => true
  | .failed _, _ => true
  | _, _ => false

structure Answer where
  code : ResultCode
  alloc : Option Allocation
deriving DecidableEq

@[grind] def Outcome.answer (kind : Kind) : Outcome → Answer
  | .granted alloc => ⟨.success, some alloc⟩
  | .deleted _ => ⟨.success, none⟩
  | .failed error =>
    match kind with
    | .map => ⟨error.resultCode, none⟩
    | .delete => ⟨.networkFailure, none⟩

def Answer.timedOut : Answer := ⟨.networkFailure, none⟩

inductive Requester where
  /-- The credential is with the authority. -/
  | presenting
  /-- Waiting for the backend slot. -/
  | waiting
  | polling
  /-- The channel was empty; the deadline is still to be looked at. -/
  | looked
  /-- The deadline has passed; the receiver is still there. -/
  | expired
  | dropped
  | got (outcome : Outcome)
  | answered (answer : Answer)
deriving DecidableEq

inductive Worker where
  | idle
  | working
  | computed (outcome : Outcome)
  | rollingBack (alloc : Allocation)
  | finishing
  | ended
deriving DecidableEq

/-- The worker holds the permit of the backend slot. -/
@[grind] def Worker.busy : Worker → Bool
  | .idle => false
  | .ended => false
  | _ => true

structure Request where
  kind : Kind
  requester : Requester
  worker : Worker
  /-- The value in the channel, and whether the receiver is gone. -/
  channel : Option Outcome
  closed : Bool
deriving DecidableEq

inductive Entry where
  | granted (id : ℕ)
  | allocated (id : ℕ) (alloc : Allocation)
  | released (id : ℕ) (alloc : Allocation)
deriving DecidableEq

def Entry.id : Entry → ℕ
  | .granted id => id
  | .allocated id _ => id
  | .released id _ => id

structure Server where
  requests : List Request
  slot : Option ℕ
  log : List Entry

def Server.start : Server := ⟨[], none, []⟩

/-! ### Steps -/

inductive Verdict where
  | grant
  | refuse
  | timeout
deriving DecidableEq

@[grind] def Verdict.next : Verdict → Requester
  | .grant => .waiting
  | .refuse => .answered ⟨.notAuthorized, none⟩
  | .timeout => .answered .timedOut

inductive Act where
  | verdict (verdict : Verdict)
  /-- The wait for the slot runs out. -/
  | giveUp
  | acquire
  /-- The call to the backend returns. -/
  | backend (outcome : Outcome)
  | handOver
  /-- The call to the backend's `release` returns. -/
  | rollBack (ok : Bool)
  | freeSlot
  | look
  | checkClock (passed : Bool)
  | dropReceiver
  | answer
deriving DecidableEq

@[grind] def Outcome.entries (id : ℕ) : Outcome → List Entry
  | .granted alloc => [.allocated id alloc]
  | _ => []

/-- What the worker does when its result comes back to it. -/
@[grind] def Outcome.refused : Outcome → Worker
  | .granted alloc => .rollingBack alloc
  | _ => .finishing

/-- One step of request `i`: the request, the slot and the log entries after it. -/
def move (i : ℕ) (slot : Option ℕ) (r : Request) : Act → Option (Request × Option ℕ × List Entry)
  | .verdict verdict =>
    match r.requester with
    | .presenting => some ({ r with requester := verdict.next }, slot, [])
    | _ => none
  | .giveUp =>
    match r.requester with
    | .waiting => some ({ r with requester := .answered .timedOut }, slot, [])
    | _ => none
  | .acquire =>
    match r.requester, slot with
    | .waiting, none =>
      some ({ r with requester := .polling, worker := .working }, some i, [.granted i])
    | _, _ => none
  | .backend outcome =>
    match r.worker with
    | .working =>
      if outcome.fits r.kind then
        some ({ r with worker := .computed outcome }, slot, outcome.entries i)
      else none
    | _ => none
  | .handOver =>
    match r.worker with
    | .computed outcome =>
      if r.closed then some ({ r with worker := outcome.refused }, slot, [])
      else some ({ r with worker := .finishing, channel := some outcome }, slot, [])
    | _ => none
  | .rollBack ok =>
    match r.worker with
    | .rollingBack alloc =>
      some ({ r with worker := .finishing }, slot, if ok then [.released i alloc] else [])
    | _ => none
  | .freeSlot =>
    match r.worker with
    | .finishing => some ({ r with worker := .ended }, none, [])
    | _ => none
  | .look =>
    match r.requester, r.channel with
    | .polling, some outcome =>
      some ({ r with requester := .got outcome, channel := none }, slot, [])
    | .polling, none => some ({ r with requester := .looked }, slot, [])
    | _, _ => none
  | .checkClock passed =>
    match r.requester with
    | .looked => some ({ r with requester := if passed then .expired else .polling }, slot, [])
    | _ => none
  | .dropReceiver =>
    match r.requester with
    | .expired => some ({ r with requester := .dropped, channel := none, closed := true }, slot, [])
    | _ => none
  | .answer =>
    match r.requester with
    | .got outcome => some ({ r with requester := .answered (outcome.answer r.kind) }, slot, [])
    | .dropped => some ({ r with requester := .answered .timedOut }, slot, [])
    | _ => none

inductive Event where
  /-- A request comes in; `gated` if its credential goes to an authority first. -/
  | arrive (kind : Kind) (gated : Bool)
  | act (i : ℕ) (act : Act)
deriving DecidableEq

def Request.new (kind : Kind) (gated : Bool) : Request :=
  ⟨kind, if kind = .map ∧ gated then .presenting else .waiting, .idle, none, false⟩

def step (s : Server) : Event → Server
  | .arrive kind gated => { s with requests := s.requests ++ [Request.new kind gated] }
  | .act i act =>
    match s.requests[i]? with
    | none => s
    | some r =>
      match move i s.slot r act with
      | none => s
      | some (r', slot, new) => ⟨s.requests.set i r', slot, new ++ s.log⟩

abbrev Reachable (ok : Server → Event → Prop) : Server → Prop :=
  Transition.Reachable (· = Server.start) (Transition.Guarded ok step)

def AnyOrder (_ : Server) (_ : Event) : Prop := True

def orderly (s : Server) : Event → Bool
  | .act i .dropReceiver => (s.requests[i]?).all fun r => r.channel.isNone
  | .act _ (.rollBack ok) => ok
  | _ => true

/-- Nothing was handed over since the last look when a receiver is dropped, and the backend's
`release` does what it is asked. -/
def Orderly (s : Server) (e : Event) : Prop := orderly s e = true

instance (s : Server) (e : Event) : Decidable (Orderly s e) :=
  inferInstanceAs (Decidable (orderly s e = true))

/-! ### What a step changes -/

/-- The moves of request `i`, each with what it needs and what it changes. -/
inductive Moved (i : ℕ) (slot : Option ℕ) (r : Request) :
    Act → Request → Option ℕ → List Entry → Prop
  | verdict (v : Verdict) (hr : r.requester = .presenting) :
    Moved i slot r (.verdict v) { r with requester := v.next } slot []
  | giveUp (hr : r.requester = .waiting) :
    Moved i slot r .giveUp { r with requester := .answered .timedOut } slot []
  | acquire (hr : r.requester = .waiting) (hslot : slot = none) :
    Moved i slot r .acquire { r with requester := .polling, worker := .working } (some i)
      [.granted i]
  | backend (o : Outcome) (hw : r.worker = .working) (hfits : o.fits r.kind = true) :
    Moved i slot r (.backend o) { r with worker := .computed o } slot (o.entries i)
  | refused (o : Outcome) (hw : r.worker = .computed o) (hclosed : r.closed = true) :
    Moved i slot r .handOver { r with worker := o.refused } slot []
  | handOver (o : Outcome) (hw : r.worker = .computed o) (hopen : r.closed = false) :
    Moved i slot r .handOver { r with worker := .finishing, channel := some o } slot []
  | rollBack (ok : Bool) (alloc : Allocation) (hw : r.worker = .rollingBack alloc) :
    Moved i slot r (.rollBack ok) { r with worker := .finishing } slot
      (if ok then [.released i alloc] else [])
  | freeSlot (hw : r.worker = .finishing) :
    Moved i slot r .freeSlot { r with worker := .ended } none []
  | take (o : Outcome) (hr : r.requester = .polling) (hc : r.channel = some o) :
    Moved i slot r .look { r with requester := .got o, channel := none } slot []
  | look (hr : r.requester = .polling) (hc : r.channel = none) :
    Moved i slot r .look { r with requester := .looked } slot []
  | checkClock (passed : Bool) (hr : r.requester = .looked) :
    Moved i slot r (.checkClock passed)
      { r with requester := if passed then .expired else .polling } slot []
  | dropReceiver (hr : r.requester = .expired) :
    Moved i slot r .dropReceiver
      { r with requester := .dropped, channel := none, closed := true } slot []
  | answerGot (o : Outcome) (hr : r.requester = .got o) :
    Moved i slot r .answer { r with requester := .answered (o.answer r.kind) } slot []
  | answerDropped (hr : r.requester = .dropped) :
    Moved i slot r .answer { r with requester := .answered .timedOut } slot []

theorem moved_of_move {i : ℕ} {slot slot' : Option ℕ} {r r' : Request} {a : Act}
    {new : List Entry} (h : move i slot r a = some (r', slot', new)) :
    Moved i slot r a r' slot' new := by
  -- from a place the move does not start from it is not possible
  cases a <;> simp only [move] at h
  case verdict v =>
    split at h <;> cases h
    exact .verdict v ‹_›
  case giveUp =>
    split at h <;> cases h
    exact .giveUp ‹_›
  case acquire =>
    split at h <;> cases h
    exact .acquire ‹_› rfl
  case backend o =>
    split at h
    · split at h <;> cases h
      exact .backend o ‹_› ‹_›
    · cases h
  case handOver =>
    split at h
    · rename_i o hw
      split at h <;> cases h
      · exact .refused o hw ‹_›
      · exact .handOver o hw (by simpa using ‹¬ r.closed = true›)
    · cases h
  case rollBack ok =>
    split at h <;> cases h
    exact .rollBack ok _ ‹_›
  case freeSlot =>
    split at h <;> cases h
    exact .freeSlot ‹_›
  case look =>
    split at h <;> cases h
    · exact .take _ ‹_› ‹_›
    · exact .look ‹_› ‹_›
  case checkClock passed =>
    split at h <;> cases h
    exact .checkClock passed ‹_›
  case dropReceiver =>
    split at h <;> cases h
    exact .dropReceiver ‹_›
  case answer =>
    split at h <;> cases h
    · exact .answerGot _ ‹_›
    · exact .answerDropped ‹_›

/-- **What a step does**: nothing, one more request, or one move of one request. -/
theorem step_cases (s : Server) (e : Event) :
    step s e = s
      ∨ (∃ kind gated, step s e = { s with requests := s.requests ++ [Request.new kind gated] })
      ∨ ∃ i a r r' slot new, e = .act i a ∧ s.requests[i]? = some r
        ∧ Moved i s.slot r a r' slot new
        ∧ step s e = ⟨s.requests.set i r', slot, new ++ s.log⟩ := by
  cases e with
  | arrive kind gated => exact .inr (.inl ⟨kind, gated, rfl⟩)
  | act i a =>
    cases hr : s.requests[i]? with
    | none => exact .inl (by simp only [step, hr])
    | some r =>
      cases hm : move i s.slot r a with
      | none => exact .inl (by simp only [step, hr, hm])
      | some res =>
        obtain ⟨r', slot, new⟩ := res
        exact .inr (.inr ⟨i, a, r, r', slot, new, rfl, hr, moved_of_move hm,
          by simp only [step, hr, hm]⟩)

/-- A move is logged under its own request, and the slot goes to a request that had to wait
for it and comes from one that is through. -/
theorem Moved.frame {i : ℕ} {slot slot' : Option ℕ} {r r' : Request} {a : Act}
    {new : List Entry} (hm : Moved i slot r a r' slot' new) :
    (∀ x ∈ new, x.id = i) ∧
      (slot' = slot ∨ (slot = none ∧ slot' = some i)
        ∨ (r.worker = .finishing ∧ slot' = none)) := by
  cases hm with
  | acquire hr hslot => exact ⟨by simp [Entry.id], .inr (.inl ⟨hslot, rfl⟩)⟩
  | freeSlot hw => exact ⟨by simp, .inr (.inr ⟨hw, rfl⟩)⟩
  | backend o hw hfits =>
    refine ⟨fun x hx => ?_, .inl rfl⟩
    cases o with
    | granted alloc =>
      rw [List.mem_singleton.mp hx]
      rfl
    | deleted existed => cases hx
    | failed error => cases hx
  | rollBack ok alloc hw =>
    refine ⟨fun x hx => ?_, .inl rfl⟩
    cases ok with
    | true =>
      rw [List.mem_singleton.mp hx]
      rfl
    | false => cases hx
  | verdict | giveUp | refused | handOver | take | look | checkClock | dropReceiver | answerGot
  | answerDropped => exact ⟨by simp, .inl rfl⟩

variable {s : Server}

/-- **The rule for properties of single requests**: of one that comes in, of the one that moved,
and of the others. -/
theorem forall_step {P : ℕ → Option ℕ → List Entry → Request → Prop} {e : Event}
    (hall : ∀ i r, s.requests[i]? = some r → P i s.slot s.log r)
    (harrive : ∀ kind gated, P s.requests.length s.slot s.log (Request.new kind gated))
    (hmoved : ∀ i a r r' slot new, e = .act i a → s.requests[i]? = some r →
      Moved i s.slot r a r' slot new → P i slot (new ++ s.log) r' ∧
        ∀ j q, i ≠ j → s.requests[j]? = some q → P j slot (new ++ s.log) q) :
    ∀ i r, (step s e).requests[i]? = some r → P i (step s e).slot (step s e).log r := by
  obtain h | ⟨kind, gated, h⟩ | ⟨i, a, r, r', slot, new, he, hr, hm, h⟩ := step_cases s e
  · rw [h]
    exact hall
  · rw [h]
    intro j q hq
    rw [List.getElem?_append] at hq
    split at hq
    · exact hall j q hq
    · rename_i hlen
      have hj : j = s.requests.length ∧ q = Request.new kind gated := by grind
      rw [hj.1, hj.2]
      exact harrive kind gated
  · obtain ⟨hown, hothers⟩ := hmoved i a r r' slot new he hr hm
    rw [h]
    intro j q hq
    rw [List.getElem?_set] at hq
    split at hq
    · rename_i hij
      subst hij
      have hq' : q = r' := by grind
      rw [hq']
      exact hown
    · rename_i hij
      exact hothers j q hij hq

/-! ### What holds in every run -/

/-- The requester has dropped its end of the channel, or it was never there to take anything. -/
@[grind] def Request.gone (r : Request) : Prop :=
  r.requester = .dropped ∨ r.requester = .answered .timedOut

/-- The requester has its eye on the channel. -/
@[grind] def Request.listens (r : Request) : Prop :=
  r.requester = .polling ∨ r.requester = .looked ∨ r.requester = .expired

/-- The worker is past the hand-over and any rollback. -/
@[grind] def Request.through (r : Request) : Prop := r.worker = .finishing ∨ r.worker = .ended

structure SoundAt (i : ℕ) (slot : Option ℕ) (log : List Entry) (r : Request) : Prop where
  busy_iff : r.worker.busy = true ↔ slot = some i
  idle : r.requester = .presenting ∨ r.requester = .waiting → r.worker = .idle
  listens : r.worker = .working ∨ (∃ o, r.worker = .computed o) → r.closed = false → r.listens
  empty : r.worker = .idle ∨ r.worker = .working ∨ (∃ o, r.worker = .computed o) →
    r.channel = none
  gone_of_closed : r.closed = true → r.gone
  allocated : ∀ a, .allocated i a ∈ log →
    r.worker = .computed (.granted a) ∨ r.worker = .rollingBack a ∨ r.through
  gone_of_rollingBack : ∀ a, r.worker = .rollingBack a → r.gone
  gone_of_released : ∀ a, .released i a ∈ log → r.gone

structure Sound (s : Server) : Prop where
  at_request : ∀ i r, s.requests[i]? = some r → SoundAt i s.slot s.log r
  slot_lt : ∀ i, s.slot = some i → i < s.requests.length
  log_lt : ∀ x ∈ s.log, x.id < s.requests.length

section Moves

variable {i j : ℕ} {slot slot' : Option ℕ} {log new : List Entry} {r r' q : Request} {a : Act}

theorem SoundAt.of_requester (hs : SoundAt i slot log r) {next : Requester}
    (hidle : next = .presenting ∨ next = .waiting → r.worker = .idle)
    (hlistens : r.worker = .working ∨ (∃ o, r.worker = .computed o) → r.listens →
      Request.listens { r with requester := next })
    (hgone : r.gone → Request.gone { r with requester := next }) :
    SoundAt i slot log { r with requester := next } where
  busy_iff := hs.busy_iff
  idle := hidle
  listens hw hopen := hlistens hw (hs.listens hw hopen)
  empty := hs.empty
  gone_of_closed h := hgone (hs.gone_of_closed h)
  allocated := hs.allocated
  gone_of_rollingBack a h := hgone (hs.gone_of_rollingBack a h)
  gone_of_released a h := hgone (hs.gone_of_released a h)

theorem SoundAt.of_channel_taken (hs : SoundAt i slot log r) :
    SoundAt i slot log { r with channel := none } :=
  { hs with empty := fun _ => rfl }

theorem SoundAt.started (hs : SoundAt i slot log r) (hw : r.worker ≠ .idle) :
    ¬ (r.requester = .presenting ∨ r.requester = .waiting) := fun h => hw (hs.idle h)

theorem SoundAt.of_acquire (hs : SoundAt i none log r) (hr : r.requester = .waiting) :
    SoundAt i (some i) (.granted i :: log)
      { r with requester := .polling, worker := .working } where
  busy_iff := ⟨fun _ => rfl, fun _ => rfl⟩
  idle h := by simp at h
  listens _ _ := .inl rfl
  empty _ := hs.empty (.inl (hs.idle (.inr hr)))
  gone_of_closed h := by simpa [Request.gone, hr] using hs.gone_of_closed h
  allocated a ha := by
    have hold := hs.allocated a (by simpa using ha)
    simp [hs.idle (.inr hr), Request.through] at hold
  gone_of_rollingBack a h := by simp at h
  gone_of_released a ha := by
    have hold := hs.gone_of_released a (by simpa using ha)
    simp [Request.gone, hr] at hold

section

variable (hs : SoundAt i slot log r)
include hs

theorem SoundAt.of_backend (hw : r.worker = .working) (o : Outcome) :
    SoundAt i slot (o.entries i ++ log) { r with worker := .computed o } where
  busy_iff := by
    rw [← hs.busy_iff, hw]
    rfl
  idle h := absurd h (hs.started (by simp [hw]))
  listens _ hopen := hs.listens (.inl hw) hopen
  empty _ := hs.empty (.inr (.inl hw))
  gone_of_closed := hs.gone_of_closed
  allocated a ha := by
    rcases List.mem_append.mp ha with ha | ha
    · cases o <;> simp_all [Outcome.entries]
    · have hold := hs.allocated a ha
      simp [hw, Request.through] at hold
  gone_of_rollingBack a h := by simp at h
  gone_of_released a ha := by
    rcases List.mem_append.mp ha with ha | ha
    · cases o <;> simp [Outcome.entries] at ha
    · exact hs.gone_of_released a ha

theorem SoundAt.of_refused {o : Outcome} (hw : r.worker = .computed o)
    (hclosed : r.closed = true) : SoundAt i slot log { r with worker := o.refused } where
  busy_iff := by
    rw [← hs.busy_iff, hw]
    cases o <;> simp [Outcome.refused, Worker.busy]
  idle h := absurd h (hs.started (by simp [hw]))
  listens _ hopen := by simp [hclosed] at hopen
  empty _ := hs.empty (.inr (.inr ⟨o, hw⟩))
  gone_of_closed := hs.gone_of_closed
  allocated a ha := by
    have hold := hs.allocated a ha
    cases o <;> simp_all [Outcome.refused, Request.through]
  gone_of_rollingBack _ _ := hs.gone_of_closed hclosed
  gone_of_released := hs.gone_of_released

theorem SoundAt.of_through (hw : r.worker ≠ .idle) {w : Worker}
    {channel : Option Outcome} (hthrough : w = .finishing ∨ w = .ended)
    (hbusy : w.busy = true ↔ slot' = some i) (hreleased : ∀ a, .released i a ∈ new → r.gone) :
    SoundAt i slot' (new ++ log) { r with worker := w, channel := channel } where
  busy_iff := hbusy
  idle h := absurd h (hs.started hw)
  listens h := by rcases hthrough with rfl | rfl <;> simp at h
  empty h := by rcases hthrough with rfl | rfl <;> simp at h
  gone_of_closed := hs.gone_of_closed
  allocated _ _ := .inr (.inr hthrough)
  gone_of_rollingBack a h := by rcases hthrough with rfl | rfl <;> cases h
  gone_of_released a ha := (List.mem_append.mp ha).elim (hreleased a) (hs.gone_of_released a)

theorem SoundAt.of_dropReceiver :
    SoundAt i slot log { r with requester := .dropped, channel := none, closed := true } where
  busy_iff := hs.busy_iff
  idle h := by simp at h
  listens _ hopen := by simp at hopen
  empty _ := rfl
  gone_of_closed _ := .inl rfl
  allocated := hs.allocated
  gone_of_rollingBack _ _ := .inl rfl
  gone_of_released _ _ := .inl rfl

theorem SoundAt.moved (hm : Moved i slot r a r' slot' new) : SoundAt i slot' (new ++ log) r' := by
  cases hm with
  | verdict v hr =>
    exact hs.of_requester (fun _ => hs.idle (.inl hr)) (by simp [Request.listens, hr])
      (by simp [Request.gone, hr])
  | giveUp hr =>
    exact hs.of_requester (by simp) (by simp [Request.listens, hr]) (by simp [Request.gone])
  | acquire hr hslot =>
    subst hslot
    exact hs.of_acquire hr
  | backend o hw => exact hs.of_backend hw o
  | refused o hw hclosed => exact hs.of_refused hw hclosed
  | handOver o hw =>
    exact hs.of_through (by simp [hw]) (.inl rfl) (by rw [← hs.busy_iff, hw]; rfl) nofun
  | rollBack ok alloc hw =>
    exact hs.of_through (by simp [hw]) (.inl rfl) (by rw [← hs.busy_iff, hw]; rfl)
      fun _ _ => hs.gone_of_rollingBack alloc hw
  | freeSlot hw => exact hs.of_through (by simp [hw]) (.inr rfl) (by simp [Worker.busy]) nofun
  | take o hr hc =>
    -- a worker that has yet to hand over has put nothing into the channel
    have hover : ¬ (r.worker = .working ∨ ∃ o, r.worker = .computed o) := fun hw => by
      rw [hs.empty (.inr hw)] at hc
      cases hc
    have htaken : SoundAt i slot log { r with requester := .got o } :=
      hs.of_requester (by simp) (fun hw => absurd hw hover) (by simp [Request.gone, hr])
    exact htaken.of_channel_taken
  | look hr =>
    exact hs.of_requester (by simp) (by simp [Request.listens]) (by simp [Request.gone, hr])
  | checkClock passed hr =>
    exact hs.of_requester (by cases passed <;> simp) (by cases passed <;> simp [Request.listens])
      (by simp [Request.gone, hr])
  | dropReceiver hr => exact hs.of_dropReceiver
  | answerGot o hr =>
    exact hs.of_requester (by simp) (by simp [Request.listens, hr]) (by simp [Request.gone, hr])
  | answerDropped hr =>
    exact hs.of_requester (by simp) (by simp [Request.listens, hr]) (by simp [Request.gone])

end

theorem SoundAt.frame (hq : SoundAt j slot log q) (hs : SoundAt i slot log r) (hne : i ≠ j)
    (hm : Moved i slot r a r' slot' new) : SoundAt j slot' (new ++ log) q := by
  obtain ⟨hnew, hslot⟩ := hm.frame
  have hlog : ∀ x ∈ new ++ log, x.id = j → x ∈ log := by
    intro x hx hid
    rcases List.mem_append.mp hx with hx | hx
    · exact absurd ((hnew x hx).symm.trans hid) hne
    · exact hx
  refine ⟨?_, hq.idle, hq.listens, hq.empty, hq.gone_of_closed,
    fun b hb => hq.allocated b (hlog _ hb rfl), hq.gone_of_rollingBack,
    fun b hb => hq.gone_of_released b (hlog _ hb rfl)⟩
  rw [hq.busy_iff]
  obtain rfl | ⟨rfl, rfl⟩ | ⟨hw, rfl⟩ := hslot
  · rfl
  · simp [hne]
  · have hi : slot = some i := hs.busy_iff.mp (by rw [hw]; rfl)
    simp [hi, hne]

end Moves

theorem soundAt_new (i : ℕ) {slot : Option ℕ} {log : List Entry} (kind : Kind) (gated : Bool)
    (hslot : slot ≠ some i) (hlog : ∀ x ∈ log, x.id ≠ i) :
    SoundAt i slot log (Request.new kind gated) where
  busy_iff := by simpa [Request.new, Worker.busy] using hslot
  idle _ := rfl
  listens h := by simp [Request.new] at h
  empty _ := rfl
  gone_of_closed h := by simp [Request.new] at h
  allocated a ha := absurd rfl (hlog _ ha)
  gone_of_rollingBack a h := by simp [Request.new] at h
  gone_of_released a ha := absurd rfl (hlog _ ha)

theorem Sound.step (hs : Sound s) (e : Event) : Sound (step s e) := by
  refine ⟨forall_step hs.at_request (fun kind gated => ?_) ?_, ?_, ?_⟩
  · refine soundAt_new _ kind gated (fun hslot => ?_) fun x hx => ?_
    · exact absurd (hs.slot_lt _ hslot) (Nat.lt_irrefl _)
    · exact Nat.ne_of_lt (hs.log_lt x hx)
  · intro i a r r' slot new _ hr hm
    have hi := hs.at_request i r hr
    exact ⟨hi.moved hm, fun j q hij hq => (hs.at_request j q hq).frame hi hij hm⟩
  all_goals
    obtain h | ⟨kind, gated, h⟩ | ⟨i, a, r, r', slot, new, -, hr, hm, h⟩ := step_cases s e
    all_goals rw [h]
  · exact hs.slot_lt
  · intro i hi
    have hlt := hs.slot_lt i hi
    rw [List.length_append]
    omega
  · have hlt : i < s.requests.length := (List.getElem?_eq_some_iff.mp hr).1
    intro j hj
    rw [List.length_set]
    obtain rfl | ⟨-, rfl⟩ | ⟨-, rfl⟩ := hm.frame.2
    · exact hs.slot_lt j hj
    · rwa [← Option.some.inj hj]
    · cases hj
  · exact hs.log_lt
  · intro x hx
    have hlt := hs.log_lt x hx
    rw [List.length_append]
    omega
  · have hlt : i < s.requests.length := (List.getElem?_eq_some_iff.mp hr).1
    intro x hx
    rw [List.length_set]
    rcases List.mem_append.mp hx with hx | hx
    · rwa [hm.frame.1 x hx]
    · exact hs.log_lt x hx

theorem Reachable.sound {ok : Server → Event → Prop} (h : Reachable ok s) : Sound s := by
  refine h.invariant ?_ ?_
  · rintro s rfl
    exact ⟨fun i r hr => by simp [Server.start] at hr, fun i hi => (by cases hi),
      fun x hx => (by cases hx)⟩
  · rintro s s' hs ⟨e, -, rfl⟩
    exact hs.step e

/-! ### What holds if nothing is handed over to a requester that has looked away -/

/-- The allocation is in the channel of a requester that listens, or with the requester. -/
@[grind] def Kept (alloc : Allocation) (r : Request) : Prop :=
  (r.channel = some (.granted alloc) ∧ r.listens) ∨ r.requester = .got (.granted alloc)
    ∨ r.requester = .answered ⟨.success, some alloc⟩

/-- What holds of request `i`: once its worker is through, and whenever the slot is granted to
another request. -/
structure SettledAt (i : ℕ) (log : List Entry) (r : Request) : Prop where
  of_through : ∀ a, .allocated i a ∈ log → r.through → .released i a ∈ log ∨ Kept a r
  of_granted : ∀ l₁ j l₂, log = l₁ ++ .granted j :: l₂ → ∀ a, .allocated i a ∈ l₂ →
    .released i a ∈ l₂ ∨ Kept a r

section Settling

variable {i j : ℕ} {slot slot' : Option ℕ} {log new : List Entry} {r r' q : Request} {a : Act}
  {alloc : Allocation}

def Act.Orderly (r : Request) (a : Act) : Prop :=
  (a = .dropReceiver → r.channel = none) ∧ a ≠ .rollBack false

theorem Kept.moved (hk : Kept alloc r) (hs : SoundAt i slot log r)
    (hm : Moved i slot r a r' slot' new) (ha : a.Orderly r) : Kept alloc r' := by
  have hempty := hs.empty
  have hdrop := ha.1
  cases hm with
  | verdict v hr => cases v <;> grind
  | checkClock passed hr => cases passed <;> grind
  | giveUp | acquire | backend | refused | handOver | rollBack | freeSlot | take | look
  | dropReceiver | answerGot | answerDropped => grind

theorem SettledAt.of_free (h : SettledAt i log r) (hs : SoundAt i none log r)
    (ha : .allocated i alloc ∈ log) : .released i alloc ∈ log ∨ Kept alloc r := by
  have hbusy : r.worker.busy = false := by
    rw [← Bool.not_eq_true, hs.busy_iff]
    simp
  obtain hw | hw | hthrough := hs.allocated alloc ha
  · rw [hw] at hbusy
    cases hbusy
  · rw [hw] at hbusy
    cases hbusy
  · exact h.of_through alloc ha hthrough

theorem Moved.new_cases (hm : Moved i slot r a r' slot' new) :
    new = [] ∨ ∃ x, new = [x] ∧ ∀ j, x = .granted j → slot = none := by
  cases hm with
  | acquire hr hslot => exact .inr ⟨.granted i, rfl, fun _ _ => hslot⟩
  | backend o hw hfits =>
    cases o with
    | granted alloc => exact .inr ⟨.allocated i alloc, rfl, fun _ h => by cases h⟩
    | deleted existed => exact .inl rfl
    | failed error => exact .inl rfl
  | rollBack ok alloc hw =>
    cases ok with
    | true => exact .inr ⟨.released i alloc, rfl, fun _ h => by cases h⟩
    | false => exact .inl rfl
  | verdict | giveUp | refused | handOver | freeSlot | take | look | checkClock | dropReceiver
  | answerGot | answerDropped => exact .inl rfl

theorem SettledAt.of_granted_moved {q' : Request} (h : SettledAt j log q)
    (hs : SoundAt j slot log q) (hm : Moved i slot r a r' slot' new)
    (hkept : ∀ b, Kept b q → Kept b q') :
    ∀ l₁ k l₂, new ++ log = l₁ ++ .granted k :: l₂ → ∀ b, .allocated j b ∈ l₂ →
      .released j b ∈ l₂ ∨ Kept b q' := by
  intro l₁ k l₂ hlog b hb
  obtain rfl | ⟨x, rfl, hgrant⟩ := hm.new_cases
  · exact (h.of_granted l₁ k l₂ hlog b hb).imp_right (hkept b)
  · cases l₁ with
    | nil =>
      -- this is the grant the move made, on a free slot
      obtain ⟨rfl, rfl⟩ : x = .granted k ∧ log = l₂ := by simpa using hlog
      rw [hgrant k rfl] at hs
      exact (h.of_free hs hb).imp_right (hkept b)
    | cons y l₁ =>
      have hlog' : log = l₁ ++ .granted k :: l₂ := (List.cons.inj hlog).2
      exact (h.of_granted l₁ k l₂ hlog' b hb).imp_right (hkept b)

theorem SettledAt.moved (h : SettledAt i log r) (hs : SoundAt i slot log r)
    (hm : Moved i slot r a r' slot' new) (ha : a.Orderly r) : SettledAt i (new ++ log) r' := by
  refine ⟨fun b hb hthrough => ?_, h.of_granted_moved hs hm fun b hk => hk.moved hs hm ha⟩
  have hkept : ∀ b, Kept b r → Kept b r' := fun b hk => hk.moved hs hm ha
  have hthrough_of := h.of_through b
  have halloc := hs.allocated b
  have hlistens := hs.listens
  have hidle := hs.idle
  have hroll := ha.2
  have hk := hkept b
  cases hm with
  | verdict v hr => cases v <;> grind
  | backend o hw hfits => cases o <;> grind
  | refused o hw hclosed => cases o <;> grind
  | checkClock passed hr => cases passed <;> grind
  | rollBack ok alloc hw =>
    cases ok with
    | true => grind
    | false => exact absurd rfl hroll
  | giveUp | acquire | handOver | freeSlot | take | look | dropReceiver | answerGot
  | answerDropped => grind

theorem SettledAt.frame (h : SettledAt j log q) (hq : SoundAt j slot log q) (hne : i ≠ j)
    (hm : Moved i slot r a r' slot' new) : SettledAt j (new ++ log) q := by
  refine ⟨fun b hb hthrough => ?_, h.of_granted_moved hq hm fun b hk => hk⟩
  have hold : .allocated j b ∈ log := by
    rcases List.mem_append.mp hb with hb | hb
    · exact absurd (hm.frame.1 _ hb).symm hne
    · exact hb
  exact (h.of_through b hold hthrough).imp_left (List.mem_append_right new)

end Settling

def Settled (s : Server) : Prop := ∀ i r, s.requests[i]? = some r → SettledAt i s.log r

theorem settledAt_new (i : ℕ) {log : List Entry} (kind : Kind) (gated : Bool)
    (hlog : ∀ x ∈ log, x.id ≠ i) : SettledAt i log (Request.new kind gated) where
  of_through a ha := absurd rfl (hlog _ ha)
  of_granted l₁ j l₂ h a ha := by
    refine absurd rfl (hlog (.allocated i a) ?_)
    rw [h]
    exact List.mem_append_right l₁ (List.mem_cons_of_mem _ ha)

theorem Orderly.act {i : ℕ} {a : Act} {r : Request} (h : Orderly s (.act i a))
    (hr : s.requests[i]? = some r) : a.Orderly r := by
  refine ⟨?_, ?_⟩
  · rintro rfl
    simpa [Orderly, orderly, hr] using h
  · rintro rfl
    cases h

theorem Settled.step (hset : Settled s) (hs : Sound s) {e : Event} (he : Orderly s e) :
    Settled (step s e) := by
  refine forall_step (P := fun i _ log r => SettledAt i log r) hset (fun kind gated => ?_) ?_
  · exact settledAt_new _ kind gated fun x hx => Nat.ne_of_lt (hs.log_lt x hx)
  · rintro i a r r' slot new rfl hr hm
    refine ⟨(hset i r hr).moved (hs.at_request i r hr) hm (he.act hr), fun j q hij hq => ?_⟩
    exact (hset j q hq).frame (hs.at_request j q hq) hij hm

theorem Reachable.settled (h : Reachable Orderly s) : Settled s := by
  have hboth := h.invariant (I := fun s => Sound s ∧ Settled s) ?_ ?_
  · exact hboth.2
  · rintro s rfl
    have hstart : Reachable Orderly Server.start := .start rfl
    exact ⟨hstart.sound, fun i r hr => by simp [Server.start] at hr⟩
  · rintro s s' ⟨hs, hset⟩ ⟨e, he, rfl⟩
    exact ⟨hs.step e, hset.step hs he⟩

/-- **A timed-out grant is rolled back.** In every run, an allocation that was answered with
success is never released by its worker.  In the runs in which nothing is handed over between
a requester's last look and the drop, and `release` works, a request that was answered with a
network failure although its allocation succeeded has it released before the slot goes on. -/
theorem timed_out_grant_rolled_back (s : Server) (i : ℕ) (r : Request)
    (hr : s.requests[i]? = some r) :
    (Reachable AnyOrder s → ∀ a, r.requester = .answered ⟨.success, some a⟩ →
      ∀ b, .released i b ∉ s.log) ∧
    (Reachable Orderly s → ∀ x, r.requester = .answered ⟨.networkFailure, x⟩ →
      ∀ a, .allocated i a ∈ s.log →
        (s.slot ≠ some i → .released i a ∈ s.log) ∧
        ∀ l₁ j l₂, s.log = l₁ ++ .granted j :: l₂ → .allocated i a ∈ l₂ → .released i a ∈ l₂) := by
  refine ⟨fun hreach a hans b hb => ?_, fun hreach x hans a ha => ?_⟩
  · have hgone := (hreach.sound.at_request i r hr).gone_of_released b hb
    simp [Request.gone, hans, Answer.timedOut] at hgone
  · have hs := hreach.sound.at_request i r hr
    have hset := hreach.settled i r hr
    have hnot : ¬ Kept a r := by simp [Kept, Request.listens, hans]
    refine ⟨fun hslot => ?_, fun l₁ j l₂ hlog hin => ?_⟩
    · have hbusy : r.worker.busy = false := by
        rw [← Bool.not_eq_true, hs.busy_iff]
        exact hslot
      have hthrough : r.through := by
        obtain hw | hw | hthrough := hs.allocated a ha
        · rw [hw] at hbusy
          cases hbusy
        · rw [hw] at hbusy
          cases hbusy
        · exact hthrough
      exact (hset.of_through a ha hthrough).resolve_right hnot
    · exact (hset.of_granted l₁ j l₂ hlog a hin).resolve_right hnot

def forward : Allocation := ⟨49152, 0x0a420002#32, 80, .tcp, 0⟩

/-- The deadline passes while the backend works; the worker rolls back, and the next request
gets the slot. -/
def rolledBackRun : List Event :=
  [.arrive .map false, .act 0 .acquire, .act 0 .look, .act 0 (.checkClock true),
    .act 0 .dropReceiver, .act 0 .answer, .act 0 (.backend (.granted forward)), .act 0 .handOver,
    .act 0 (.rollBack true), .act 0 .freeSlot, .arrive .delete false, .act 1 .acquire]

theorem timed_out_grant_rolled_back_run :
    let s := rolledBackRun.foldl step Server.start
    s.slot = some 1 ∧ .released 0 forward ∈ s.log := by
  intro s
  have hstart : Reachable Orderly Server.start := .start rfl
  have hrun : Reachable Orderly s := hstart.run (by decide)
  have hr : s.requests[0]? = some ⟨.map, .answered .timedOut, .ended, none, true⟩ := by decide
  have hall := (timed_out_grant_rolled_back s 0 _ hr).2 hrun none rfl forward (by decide)
  exact ⟨by decide, hall.1 (by decide)⟩

/-- The worker hands over after the requester has found the deadline passed and before it drops
its end. -/
def lostGrantRun : List Event :=
  [.arrive .map false, .act 0 .acquire, .act 0 (.backend (.granted forward)), .act 0 .look,
    .act 0 (.checkClock true), .act 0 .handOver, .act 0 .freeSlot, .act 0 .dropReceiver,
    .act 0 .answer, .arrive .map false, .act 1 .acquire]

/-- The request is answered with a network failure, the slot is with another request, and the
allocation was never released. -/
theorem lost_grant_not_released :
    let s := lostGrantRun.foldl step Server.start
    Reachable AnyOrder s ∧ (s.requests[0]?).map Request.requester = some (.answered .timedOut) ∧
      .allocated 0 forward ∈ s.log ∧ s.slot = some 1 ∧ .released 0 forward ∉ s.log := by
  intro s
  have hstart : Reachable AnyOrder Server.start := .start rfl
  refine ⟨hstart.foldl (fun _ e => ⟨e, trivial, rfl⟩) lostGrantRun, by decide, by decide,
    by decide, by decide⟩

end WarrenGuard.NatPmpServer
