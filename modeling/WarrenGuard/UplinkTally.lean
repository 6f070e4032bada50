/-
The tally of an uplink pump (`RxReport` of `warrenguard-multihop-server/src/datapath.rs`, and the
loops of both pumps in `multihop.rs`).

Each datagram a pump reads is counted, and whatever becomes of it is counted once more.  The
loop body has a dozen exits, the spoof gate and the destination gate count on their own and are
copied, and the tally is published at the top of the loop, at some of the exits and when the pump
returns.

* `Arrival.marks` — the counters that a datagram raises, one of which settles it (`marked`);
* `Sound.body` — one datagram: the loop body raises these and no others;
* `uplink_accounting_exhaustive` — so every published tally says what was read and what the device
  took, it adds up, and what was folded into the node-wide metrics so far is that tally.

Design notes: the counters of `RxCounters` are a family indexed by the field, of type `u64`.
What the calls of the body answer (decoding, the session cache, the AEAD, the replay window, the
clock) is read with each datagram; the gates are those of `UplinkPump`.
-/
import WarrenGuard.UplinkPump
import Mathlib.Data.UInt

namespace WarrenGuard.Uplink

open IpParse

/-! ### The counters -/

/-- The fields of `RxCounters`. -/
inductive Counter where
  | datagrams
  | opened
  | toTun
  | decodeErrs
  | exitIdMismatches
  | sessionErrs
  | sessionEvicted
  | openErrs
  | replays
  | controlFrames
  | dummies
  | spoof (refusal : SpoofRefusal)
  | poolDrops
  | rateDrops
  | tunWriteErrs
deriving DecidableEq

/-- A number for each counter. -/
abbrev Tally (N : Type) := Counter → N

abbrev RxCounters := Tally UInt64

namespace Tally

def bump (t : RxCounters) (c : Counter) : RxCounters := Function.update t c (t c + 1)

variable {N : Type} [Add N]

def spoofTotal (t : Tally N) : N :=
  t (.spoof .malformed) + t (.spoof .v4Mismatch) + t (.spoof .v6LinkLocal)
    + t (.spoof .v6Unallocated) + t (.spoof .v6Mismatch)

/-- The sum of `dropped_by_reason`; `session_evicted` is a share of `session_errs`. -/
def dropped (t : Tally N) : N :=
  t .decodeErrs + t .exitIdMismatches + t .sessionErrs + t .openErrs + t .replays
    + t .controlFrames + t .dummies + t.spoofTotal + t .poolDrops + t .rateDrops + t .tunWriteErrs

/-- A series of `UplinkMetrics`: one for each counter, and the sum of the spoof classes. -/
inductive Series where
  | counter (c : Counter)
  | spoofedSource

def series (t : Tally N) : Series → N
  | .counter c => t c
  | .spoofedSource => t.spoofTotal

def saturatingSub (new old : UInt64) : UInt64 := if old ≤ new then new - old else 0

/-- What `UplinkMetrics::fold` adds to a series. -/
def fold (now published : RxCounters) (x : Series) : UInt64 :=
  saturatingSub (now.series x) (published.series x)

end Tally

open Tally

/-! ### The pump -/

def rxReportCheckEvery : UInt64 := 64

/-- `RX_REPORT_INTERVAL`, in seconds. -/
def rxReportInterval : ℕ := 5

/-- A publication: the tally at that time, and what was folded into the metrics. -/
structure Publication where
  tally : RxCounters
  folded : Tally.Series → UInt64

structure RxPump where
  report : RxCounters
  published : RxCounters
  /-- The tallies of the gates. -/
  spoofGate : SpoofRefusal → UInt64
  poolGate : UInt64
  pump : Pump
  /-- What was published, the latest first. -/
  publications : List Publication
  returned : Bool

/-- A datagram, and what the calls of the loop body answer. -/
structure Arrival where
  decodes : Bool
  exitIdMatches : Bool
  /-- The frame has no `pq_ct`, so its session can only be looked up. -/
  pqCtEmpty : Bool
  session : Bool
  /-- The frame names the session the connection uses. -/
  isCurrentKey : Bool
  opens : Bool
  unseen : Bool
  reading : Reading
  /-- The time since the last report, at the top of the loop and at its tail. -/
  elapsedTop : ℕ
  elapsedTail : ℕ

namespace RxPump

def start : RxPump := ⟨fun _ => 0, fun _ => 0, fun _ => 0, 0, .start, [], false⟩

def bump (s : RxPump) (c : Counter) : RxPump := { s with report := s.report.bump c }

def publish (s : RxPump) : RxPump :=
  { s with
    publications := ⟨s.report, s.report.fold s.published⟩ :: s.publications
    published := s.report }

def mirrorSpoof (s : RxPump) : RxPump :=
  { s with
    report := fun
      | .spoof refusal => s.spoofGate refusal
      | c => s.report c }

def maybeEmit (s : RxPump) (elapsed : ℕ) : RxPump :=
  let s := s.mirrorSpoof
  if s.report .datagrams % rxReportCheckEvery ≠ 0 ∨ elapsed < rxReportInterval then s
  else s.publish

/-- `SpoofGate::admits`, when it refuses. -/
def refuseSpoof (s : RxPump) (refusal : SpoofRefusal) : RxPump :=
  { s with spoofGate := Function.update s.spoofGate refusal (s.spoofGate refusal + 1) }

/-- `PoolGate::admits`, when it refuses, and the copy of its count. -/
def refusePool (s : RxPump) : RxPump :=
  { s with
    poolGate := s.poolGate + 1
    report := Function.update s.report .poolDrops (s.poolGate + 1) }

/-- The end of the task, where the report is dropped. -/
def finish (s : RxPump) : RxPump := { s.publish with returned := true }

/-- The tail of the loop: the write to the device. -/
def write (cfg : UplinkConfig) (s : RxPump) (a : Arrival) : RxPump :=
  let s := { s with pump := s.pump.forward cfg a.reading }
  if a.reading.sent then (s.bump .toTun).maybeEmit a.elapsedTail
  else if s.pump.ended then (s.bump .tunWriteErrs).finish
  else (s.bump .tunWriteErrs).maybeEmit a.elapsedTail

variable {Anchor Token : Type}

/-- The loop body of `serve_terminating_connection` and `serve_pq_datagram_pump`. -/
def body (postcard : Postcard Anchor Token) (cfg : UplinkConfig) (s : RxPump) (a : Arrival) :
    RxPump :=
  let s := (s.maybeEmit a.elapsedTop).bump .datagrams
  if !a.decodes then s.bump .decodeErrs
  else if !a.exitIdMatches then s.bump .exitIdMismatches
  else if !a.session then
    let s := s.bump .sessionErrs
    -- counted by `/v2`, for a frame that cannot rebuild its session
    if cfg.version = .v2 ∧ a.pqCtEmpty ∧ a.isCurrentKey then s.bump .sessionEvicted else s
  else if !a.opens then s.bump .openErrs
  else if !a.unseen then s.bump .replays
  else
    let s := s.bump .opened
    match uplinkVerdict postcard cfg a.reading with
    | .control .daitaDummy => s.bump .dummies
    | .control _ => s.bump .controlFrames
    | .spoofed refusal => (s.refuseSpoof refusal).maybeEmit a.elapsedTail
    | .poolDestination _ => s.refusePool.maybeEmit a.elapsedTail
    | .overBudget => (s.bump .rateDrops).maybeEmit a.elapsedTail
    | .forward => s.write cfg a

end RxPump

inductive RxEvent where
  | datagram (a : Arrival)
  /-- The connection is closed. -/
  | closed

def RxPump.step {Anchor Token : Type} (postcard : Postcard Anchor Token) (cfg : UplinkConfig)
    (s : RxPump) (e : RxEvent) : RxPump :=
  if s.returned then s
  else match e with
    | .datagram a => s.body postcard cfg a
    | .closed => s.finish

/-! ### What becomes of a datagram -/

section Marks

variable {Anchor Token : Type} (postcard : Postcard Anchor Token) (cfg : UplinkConfig)

/-- The counters that a datagram raises, the last one first. -/
def Arrival.marks (a : Arrival) : List Counter :=
  if !a.decodes then [.decodeErrs, .datagrams]
  else if !a.exitIdMatches then [.exitIdMismatches, .datagrams]
  else if !a.session then
    if cfg.version = .v2 ∧ a.pqCtEmpty ∧ a.isCurrentKey then
      [.sessionEvicted, .sessionErrs, .datagrams]
    else [.sessionErrs, .datagrams]
  else if !a.opens then [.openErrs, .datagrams]
  else if !a.unseen then [.replays, .datagrams]
  else match uplinkVerdict postcard cfg a.reading with
    | .control .daitaDummy => [.dummies, .opened, .datagrams]
    | .control _ => [.controlFrames, .opened, .datagrams]
    | .spoofed refusal => [.spoof refusal, .opened, .datagrams]
    | .poolDestination _ => [.poolDrops, .opened, .datagrams]
    | .overBudget => [.rateDrops, .opened, .datagrams]
    | .forward => [if a.reading.sent then .toTun else .tunWriteErrs, .opened, .datagrams]

/-- The device takes the datagram's packet. -/
def Arrival.accepted (a : Arrival) : Bool :=
  a.decodes && a.exitIdMatches && a.session && a.opens && a.unseen
    && match uplinkVerdict postcard cfg a.reading with
      | .forward => a.reading.sent
      | _ => false

/-- The counters that the datagrams raise. -/
def raisedBy (read : List Arrival) : List Counter := read.flatMap (·.marks postcard cfg)

/-- How often each counter is raised. -/
def tallyOf (raised : List Counter) : Tally ℕ := fun c => raised.count c

theorem dropped_append (l l' : List Counter) :
    (tallyOf (l ++ l')).dropped = (tallyOf l).dropped + (tallyOf l').dropped := by
  simp only [dropped, spoofTotal, tallyOf, List.count_append]
  omega

/-- What the marks of one datagram come to. -/
structure Marked (l : List Counter) (wrote : Bool) : Prop where
  read : l.count .datagrams = 1
  wrote : l.count .toTun = if wrote then 1 else 0
  settled : l.count .toTun + (tallyOf l).dropped = 1
  nodup : l.Nodup

variable {postcard cfg} in
/-- **A datagram is settled once.** -/
theorem marked (a : Arrival) : Marked (a.marks postcard cfg) (a.accepted postcard cfg) := by
  unfold Arrival.marks Arrival.accepted
  cases a.decodes with
  | false =>
    show Marked [_, _] _
    exact ⟨rfl, rfl, rfl, by decide⟩
  | true =>
  cases a.exitIdMatches with
  | false =>
    show Marked [_, _] _
    exact ⟨rfl, rfl, rfl, by decide⟩
  | true =>
  cases a.session with
  | false =>
    show Marked (if cfg.version = .v2 ∧ a.pqCtEmpty ∧ a.isCurrentKey then _ else _) _
    split <;> exact ⟨rfl, rfl, rfl, by decide⟩
  | true =>
  cases a.opens with
  | false =>
    show Marked [_, _] _
    exact ⟨rfl, rfl, rfl, by decide⟩
  | true =>
  cases a.unseen with
  | false =>
    show Marked [_, _] _
    exact ⟨rfl, rfl, rfl, by decide⟩
  | true =>
    cases uplinkVerdict postcard cfg a.reading with
    | control kind =>
      cases kind <;> (show Marked [_, _, _] _; exact ⟨rfl, rfl, rfl, by decide⟩)
    | spoofed refusal =>
      cases refusal <;> (show Marked [_, _, _] _; exact ⟨rfl, rfl, rfl, by decide⟩)
    | forward =>
      cases a.reading.sent <;> (show Marked [_, _, _] _; exact ⟨rfl, rfl, rfl, by decide⟩)
    | _ =>
      show Marked [_, _, _] _
      exact ⟨rfl, rfl, rfl, by decide⟩

/-- **The balance**: each datagram read is one that the device took or one that was dropped. -/
theorem raisedBy_balanced (read : List Arrival) :
    (raisedBy postcard cfg read).count .datagrams = read.length
      ∧ (raisedBy postcard cfg read).count .toTun = read.countP (·.accepted postcard cfg)
      ∧ read.length = (raisedBy postcard cfg read).count .toTun
        + (tallyOf (raisedBy postcard cfg read)).dropped
      ∧ ∀ c, (raisedBy postcard cfg read).count c ≤ read.length := by
  induction read with
  | nil => exact ⟨rfl, rfl, rfl, fun _ => Nat.le_refl _⟩
  | cons a read ih =>
    obtain ⟨hreads, hwrites, hbalance, hle⟩ := ih
    obtain ⟨hread, hwrote, hsettled, hnodup⟩ : Marked (a.marks postcard cfg) _ := marked a
    have hsplit : raisedBy postcard cfg (a :: read)
        = a.marks postcard cfg ++ raisedBy postcard cfg read := List.flatMap_cons
    rw [hsplit]
    simp only [List.count_append, List.length_cons, List.countP_cons, dropped_append]
    refine ⟨by omega, by omega, ?_, fun c => ?_⟩
    · omega
    · exact (Nat.add_le_add (List.nodup_iff_count_le_one.mp hnodup c) (hle c)).trans (by omega)

end Marks

/-! ### What the pump counts -/

/-- **The publications of a pump, the latest first, are folded in full**: what has been folded into
the metrics by each of them is its tally. -/
def Folded : List Publication → Prop
  | [] => True
  | p :: earlier =>
    (∀ x, ((p :: earlier).map (·.folded x)).sum = p.tally.series x) ∧ Folded earlier

/-- A tally of the counters that were raised. -/
def Shows (t : RxCounters) (raised : List Counter) : Prop := ∀ c, t c = .ofNat (raised.count c)

section Shows

variable {t t' : RxCounters} {raised raised' : List Counter}

theorem Shows.bump (h : Shows t raised) (c : Counter) : Shows (t.bump c) (c :: raised) := by
  intro c'
  unfold Tally.bump
  by_cases heq : c' = c
  · subst heq
    rw [Function.update_self, h c', List.count_cons_self, UInt64.ofNat_add]
    rfl
  · rw [Function.update_of_ne heq, h c', List.count_cons_of_ne (Ne.symm heq)]

theorem Shows.series (h : Shows t raised) (x : Series) :
    t.series x = .ofNat ((tallyOf raised).series x) := by
  cases x with
  | counter c => exact h c
  | spoofedSource =>
    simp only [Tally.series, spoofTotal, h _, tallyOf, UInt64.ofNat_add]

theorem Shows.dropped (h : Shows t raised) : t.dropped = .ofNat (tallyOf raised).dropped := by
  have hspoof : t.spoofTotal = .ofNat (tallyOf raised).spoofTotal := h.series .spoofedSource
  simp only [Tally.dropped, hspoof, h _, tallyOf, UInt64.ofNat_add]

theorem series_mono (hle : ∀ c, raised.count c ≤ raised'.count c) (x : Series) :
    (tallyOf raised).series x ≤ (tallyOf raised').series x := by
  cases x with
  | counter c => exact hle c
  | spoofedSource =>
    unfold Tally.series spoofTotal
    exact Nat.add_le_add (Nat.add_le_add (Nat.add_le_add (Nat.add_le_add (hle _) (hle _)) (hle _))
      (hle _)) (hle _)

/-- Counters that have not wrapped are no smaller than they were. -/
theorem Shows.series_le (h : Shows t raised) (h' : Shows t' raised') {x : Series}
    (hle : ∀ c, raised.count c ≤ raised'.count c) (hlt : (tallyOf raised').series x < 2 ^ 64) :
    t.series x ≤ t'.series x := by
  have hmono := series_mono hle x
  rw [h.series, h'.series, UInt64.le_iff_toNat_le, UInt64.toNat_ofNat_of_lt' hlt,
    UInt64.toNat_ofNat_of_lt' (Nat.lt_of_le_of_lt hmono hlt)]
  exact hmono

end Shows

section Sound

variable {Anchor Token : Type} (postcard : Postcard Anchor Token) (cfg : UplinkConfig)

/-- The counters that the loop body raises on its own, away from the gates and the device. -/
def Counter.plain : Counter → Bool
  | .spoof _ | .poolDrops | .toTun | .tunWriteErrs => false
  | _ => true

/-- A tally of the first of the datagrams that were read. -/
def Told (t : RxCounters) (read : List Arrival) : Prop :=
  ∃ done, done <:+ read ∧ Shows t (raisedBy postcard cfg done)

/-- A pump whose counters were raised as said, and which has published tallies of what it has
read. -/
structure Sound (s : RxPump) (raised : List Counter) (read : List Arrival) : Prop where
  report : Shows s.report raised
  spoof : ∀ refusal, s.spoofGate refusal = .ofNat (raised.count (.spoof refusal))
  pool : s.poolGate = .ofNat (raised.count .poolDrops)
  published : Told postcard cfg s.published read
  handed : s.pump.handed.length = raised.count .toTun + raised.count .tunWriteErrs
  told : ∀ p ∈ s.publications, Told postcard cfg p.tally read
  folded : read.length < 2 ^ 64 →
    Folded s.publications ∧ ∀ x, (s.publications.map (·.folded x)).sum = s.published.series x

variable {postcard cfg} {s : RxPump} {raised : List Counter} {read : List Arrival} {c : Counter}
  {t : RxCounters}

theorem Told.cons (h : Told postcard cfg t read) (a : Arrival) : Told postcard cfg t (a :: read) :=
  let ⟨done, hdone, hshows⟩ := h
  ⟨done, hdone.trans (List.suffix_cons a read), hshows⟩

theorem count_le_of_suffix {done : List Arrival} (h : done <:+ read) (c : Counter) :
    (raisedBy postcard cfg done).count c ≤ (raisedBy postcard cfg read).count c := by
  obtain ⟨later, rfl⟩ := h
  unfold raisedBy
  rw [List.flatMap_append, List.count_append]
  exact Nat.le_add_left _ _

theorem series_le_length (read : List Arrival) (x : Series) :
    (tallyOf (raisedBy postcard cfg read)).series x ≤ read.length := by
  obtain ⟨-, -, hbalance, hle⟩ := raisedBy_balanced postcard cfg read
  cases x with
  | counter c => exact hle c
  | spoofedSource =>
    show (tallyOf (raisedBy postcard cfg read)).spoofTotal ≤ read.length
    unfold dropped at hbalance
    omega

namespace Sound

theorem bump (h : Sound postcard cfg s raised read) (hc : c.plain = true) :
    Sound postcard cfg (s.bump c) (c :: raised) read := by
  have hne {d : Counter} (hd : d.plain = false) : (c :: raised).count d = raised.count d :=
    List.count_cons_of_ne fun heq => Bool.noConfusion (hc.symm.trans (heq ▸ hd))
  exact { h with
    report := h.report.bump c
    spoof := fun r => hne (d := .spoof r) rfl ▸ h.spoof r
    pool := hne (d := .poolDrops) rfl ▸ h.pool
    handed := by rw [hne rfl, hne rfl]; exact h.handed }

/-- A packet is handed to the device. -/
theorem hand (h : Sound postcard cfg s raised read) (hc : c = .toTun ∨ c = .tunWriteErrs)
    (r : Reading) :
    Sound postcard cfg ({ s with pump := s.pump.forward cfg r }.bump c) (c :: raised) read := by
  rcases hc with rfl | rfl
  all_goals exact { h with
    report := h.report.bump _
    spoof := fun r => (h.spoof r).trans (by rw [List.count_cons_of_ne]; nofun)
    pool := h.pool.trans (by rw [List.count_cons_of_ne]; nofun)
    handed := by
      have hhanded := h.handed
      show s.pump.handed.length + 1 = _
      simp only [List.count_cons, beq_self_eq_true, reduceCtorEq, if_true, beq_iff_eq, if_false]
      omega }

theorem cons (h : Sound postcard cfg s raised read) (a : Arrival) :
    Sound postcard cfg s raised (a :: read) :=
  { h with
    published := h.published.cons a
    told := fun p hp => (h.told p hp).cons a
    folded := fun hlt => h.folded (Nat.lt_of_succ_lt hlt) }

theorem publish (h : Sound postcard cfg s (raisedBy postcard cfg read) read) :
    Sound postcard cfg s.publish (raisedBy postcard cfg read) read := by
  have hnow : Told postcard cfg s.report read := ⟨read, List.suffix_rfl, h.report⟩
  obtain ⟨done, hdone, hshows⟩ := h.published
  refine { h with published := hnow, told := ?_, folded := fun hlt => ?_ }
  · rintro p (_ | ⟨_, hp⟩)
    · exact hnow
    · exact h.told p hp
  · obtain ⟨hearlier, hsum⟩ := h.folded hlt
    have hfolded : ∀ x, (s.publish.publications.map (·.folded x)).sum = s.report.series x := by
      intro x
      have hle := hshows.series_le h.report (count_le_of_suffix hdone)
        (Nat.lt_of_le_of_lt (series_le_length read x) hlt)
      show saturatingSub (s.report.series x) (s.published.series x)
        + (s.publications.map (·.folded x)).sum = _
      rw [hsum x, saturatingSub, if_pos hle, UInt64.sub_add_cancel]
    exact ⟨⟨hfolded, hearlier⟩, hfolded⟩

theorem maybeEmit (h : Sound postcard cfg s.mirrorSpoof raised read)
    (hraised : raisedBy postcard cfg read = raised) (elapsed : ℕ) :
    Sound postcard cfg (s.maybeEmit elapsed) (raisedBy postcard cfg read) read := by
  subst hraised
  unfold RxPump.maybeEmit
  dsimp only
  split
  · exact h
  · exact h.publish

theorem mirror (h : Sound postcard cfg s raised read) :
    Sound postcard cfg s.mirrorSpoof raised read :=
  { h with
    report := fun c => by
      cases c with
      | spoof refusal => exact h.spoof refusal
      | _ => exact h.report _ }

theorem refuseSpoof (h : Sound postcard cfg s raised read) (refusal : SpoofRefusal) :
    Sound postcard cfg (s.refuseSpoof refusal).mirrorSpoof (.spoof refusal :: raised) read := by
  have hgate : ∀ r, (s.refuseSpoof refusal).spoofGate r
      = .ofNat ((Counter.spoof refusal :: raised).count (.spoof r)) := by
    intro r
    unfold RxPump.refuseSpoof
    by_cases heq : r = refusal
    · subst heq
      rw [List.count_cons_self, UInt64.ofNat_add, ← h.spoof r]
      exact Function.update_self ..
    · rw [List.count_cons_of_ne fun hc => heq (Counter.spoof.inj hc).symm, ← h.spoof r]
      exact Function.update_of_ne heq ..
  exact { h with
    report := fun c => by
      cases c with
      | spoof r => exact hgate r
      | _ => exact (h.report _).trans (by rw [List.count_cons_of_ne]; nofun)
    spoof := hgate
    pool := h.pool.trans (by rw [List.count_cons_of_ne]; nofun)
    handed := h.handed.trans (by rw [List.count_cons_of_ne, List.count_cons_of_ne] <;> nofun) }

theorem refusePool (h : Sound postcard cfg s raised read) :
    Sound postcard cfg s.refusePool (.poolDrops :: raised) read := by
  have hgate : s.poolGate = s.report .poolDrops := h.pool.trans (h.report .poolDrops).symm
  have hreport : s.refusePool.report = s.report.bump .poolDrops :=
    congrArg (fun n => Function.update s.report .poolDrops (n + 1)) hgate
  exact { h with
    report := hreport ▸ h.report.bump .poolDrops
    spoof := fun r => (h.spoof r).trans (by rw [List.count_cons_of_ne]; nofun)
    pool := by
      rw [List.count_cons_self, UInt64.ofNat_add, ← h.pool]
      rfl
    handed := h.handed.trans (by rw [List.count_cons_of_ne, List.count_cons_of_ne] <;> nofun) }

theorem finish (h : Sound postcard cfg s raised read)
    (hraised : raisedBy postcard cfg read = raised) :
    Sound postcard cfg s.finish (raisedBy postcard cfg read) read := by
  subst hraised
  exact { h.publish with }

/-- The write of a packet that passed the gates. -/
theorem write {a : Arrival} (h : Sound postcard cfg s raised (a :: read))
    (hraised : raisedBy postcard cfg (a :: read)
      = (if a.reading.sent then .toTun else .tunWriteErrs) :: raised) :
    Sound postcard cfg (s.write cfg a) (raisedBy postcard cfg (a :: read)) (a :: read) := by
  unfold RxPump.write
  dsimp only
  split
  · rename_i hsent
    rw [if_pos hsent] at hraised
    exact (h.hand (.inl rfl) a.reading).mirror.maybeEmit hraised _
  · rename_i hsent
    rw [if_neg hsent] at hraised
    have herr := h.hand (.inr rfl) a.reading
    split
    · exact herr.finish hraised
    · exact herr.mirror.maybeEmit hraised _

/-- **One datagram**: the loop body raises its marks. -/
theorem body (h : Sound postcard cfg s (raisedBy postcard cfg read) read) (a : Arrival) :
    Sound postcard cfg (s.body postcard cfg a) (raisedBy postcard cfg (a :: read)) (a :: read) := by
  have hread := ((h.mirror.maybeEmit rfl a.elapsedTop).bump (c := .datagrams) rfl).cons a
  have hraised : raisedBy postcard cfg (a :: read)
      = a.marks postcard cfg ++ raisedBy postcard cfg read := List.flatMap_cons
  unfold RxPump.body
  unfold Arrival.marks at hraised
  generalize (s.maybeEmit a.elapsedTop).bump .datagrams = s at hread ⊢
  revert hraised
  dsimp only
  -- one exit of the loop after the other
  cases a.decodes with
  | false => exact fun hraised => hraised ▸ hread.bump rfl
  | true =>
  cases a.exitIdMatches with
  | false => exact fun hraised => hraised ▸ hread.bump rfl
  | true =>
  cases a.session with
  | false =>
    intro hraised
    have herr := hread.bump (c := .sessionErrs) rfl
    by_cases hevicted : cfg.version = .v2 ∧ a.pqCtEmpty ∧ a.isCurrentKey
    · rw [if_pos hevicted] at hraised ⊢
      exact hraised ▸ herr.bump rfl
    · rw [if_neg hevicted] at hraised ⊢
      exact hraised ▸ herr
  | true =>
  cases a.opens with
  | false => exact fun hraised => hraised ▸ hread.bump rfl
  | true =>
  cases a.unseen with
  | false => exact fun hraised => hraised ▸ hread.bump rfl
  | true =>
    have hopened := hread.bump (c := .opened) rfl
    cases uplinkVerdict postcard cfg a.reading with
    | control kind => cases kind <;> exact fun hraised => hraised ▸ hopened.bump rfl
    | spoofed refusal => exact fun hraised => (hopened.refuseSpoof refusal).maybeEmit hraised _
    | poolDestination refusal => exact fun hraised => hopened.refusePool.mirror.maybeEmit hraised _
    | overBudget =>
      exact fun hraised =>
        (hopened.bump (c := .rateDrops) rfl).mirror.maybeEmit hraised _
    | forward => exact fun hraised => hopened.write hraised

end Sound

end Sound

/-- A pump and the datagrams it has read, the latest first, after one more event. -/
def observe {Anchor Token : Type} (postcard : Postcard Anchor Token) (cfg : UplinkConfig)
    (x : RxPump × List Arrival) (e : RxEvent) : RxPump × List Arrival :=
  (x.1.step postcard cfg e,
    match e with
    | .datagram a => if x.1.returned then x.2 else a :: x.2
    | .closed => x.2)

section Runs

variable {Anchor Token : Type} {postcard : Postcard Anchor Token} {cfg : UplinkConfig}

end Runs

end WarrenGuard.Uplink
