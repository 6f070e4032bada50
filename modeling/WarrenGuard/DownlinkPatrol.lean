/-
Whom the downlink patrol evicts (`RouteTable::patrol_round`, `PatrolWatch::observe` of
`warrenguard-multihop-server/src/multihop.rs`).

A round of the patrol takes the senders of all shared slots once, under the lock, and then reads
and judges them one after another without it, while connections come, go and count packets.

* `Patrolled.look`, `Patrolled.work` — a round in pieces; undisturbed they are the round of
  `RouteTable` (`works_eq_patrolRound`);
* `Backed` — a watch that has counted silent rounds has seen that many, one right after the other;
* `patrol_convicts_dead` — whom a round removes.

Design notes: reading the handles of a sender and removing it are one piece, since nothing in
between depends on the table.  No step depends on `looks` and `log`.
-/
import WarrenGuard.DownlinkDispatch
import WarrenGuard.FlowOwners

namespace WarrenGuard.Router

open RouteTable

section Watches

/-! ### What a watch stands for -/

structure Sighting (A : Type) where
  round : ℕ
  ip : A
  who : PatrolCandidate
  activity : ℕ
  packets : ℕ

/-- A watch of the last of `rounds` rounds: as far back as it counts silent rounds, the sender was
seen with the same reading. -/
def Backed {A : Type} (log : List (Sighting A)) (rounds : ℕ) (ip : A) (w : PatrolWatch) : Prop :=
  ∃ ago : ℕ → Sighting A,
    (∀ i, i ≤ w.appSilentRounds ∨ i ≤ w.peerSilentRounds →
      ago i ∈ log ∧ (ago i).round + i + 1 = rounds ∧ (ago i).ip = ip ∧
        (ago i).who.tx = w.who.tx) ∧
    (∀ i ≤ w.appSilentRounds, (ago i).activity = w.activitySeen) ∧
    ∀ i ≤ w.peerSilentRounds, (ago i).packets = w.peerPacketsSeen

def before {A : Type} (g : Sighting A) (ago : ℕ → Sighting A) : ℕ → Sighting A
  | 0 => g
  | i + 1 => ago i

variable {A : Type} {log log' : List (Sighting A)} {rounds : ℕ} {ip : A} {w : PatrolWatch}

theorem Backed.mono (h : Backed log rounds ip w) (hsub : log ⊆ log') : Backed log' rounds ip w := by
  obtain ⟨ago, hago, happ, hpeer⟩ := h
  exact ⟨ago, fun i hi => ⟨hsub (hago i hi).1, (hago i hi).2⟩, happ, hpeer⟩

theorem saturatingSucc_le (n : ℕ) : saturatingSucc n ≤ n + 1 := Nat.min_le_left _ _

theorem Backed.new {g : Sighting A} (hg : g ∈ log) (hround : g.round + 1 = rounds) :
    Backed log rounds g.ip (.new g.who g.activity g.packets) := by
  refine ⟨fun _ => g, fun i hi => ?_, fun _ _ => rfl, fun _ _ => rfl⟩
  have hi : i = 0 := by
    rcases hi with hi | hi
    · exact Nat.le_zero.mp hi
    · exact Nat.le_zero.mp hi
  subst hi
  exact ⟨hg, hround, rfl, rfl⟩

/-- **A round later.**  A counter that did not move has been silent for one more round. -/
theorem Backed.observe (h : Backed log rounds ip w) {g : Sighting A} (hg : g ∈ log)
    (hround : g.round = rounds) (hip : g.ip = ip) (htx : g.who.tx = w.who.tx) :
    Backed log (rounds + 1) ip (w.observe g.activity g.packets) := by
  obtain ⟨ago, hago, happ, hpeer⟩ := h
  have happ' : ∀ i, i + 1 ≤ (w.observe g.activity g.packets).appSilentRounds →
      i ≤ w.appSilentRounds ∧ g.activity = w.activitySeen := by
    intro i hi
    unfold PatrolWatch.observe at hi
    dsimp only at hi
    split at hi
    · next hsame =>
      have hle := saturatingSucc_le w.appSilentRounds
      exact ⟨by omega, hsame⟩
    · omega
  have hpeer' : ∀ i, i + 1 ≤ (w.observe g.activity g.packets).peerSilentRounds →
      i ≤ w.peerSilentRounds ∧ g.packets = w.peerPacketsSeen := by
    intro i hi
    unfold PatrolWatch.observe at hi
    dsimp only at hi
    split at hi
    · next hsame =>
      have hle := saturatingSucc_le w.peerSilentRounds
      exact ⟨by omega, hsame⟩
    · omega
  refine ⟨before g ago, ?_, ?_, ?_⟩
  · intro i hi
    cases i with
    | zero => exact ⟨hg, congrArg (· + 1) hround, hip, htx⟩
    | succ i =>
      obtain ⟨hmem, hback, hrest⟩ :=
        hago i (hi.imp (fun h => (happ' i h).1) fun h => (hpeer' i h).1)
      exact ⟨hmem, congrArg (· + 1) hback, hrest⟩
  · intro i hi
    cases i with
    | zero => rfl
    | succ i =>
      obtain ⟨hle, hsame⟩ := happ' i hi
      exact (happ i hle).trans hsame.symm
  · intro i hi
    cases i with
    | zero => rfl
    | succ i =>
      obtain ⟨hle, hsame⟩ := hpeer' i hi
      exact (hpeer i hle).trans hsame.symm

/-- **What convicts**: six rounds in a row with the same two readings. -/
theorem Backed.convicts (h : Backed log rounds ip w)
    (hsilent : patrolSilentRounds ≤ w.silentRounds) :
    ∀ i ≤ 5, ∃ g ∈ log, g.round + i + 1 = rounds ∧ g.ip = ip ∧ g.who.tx = w.who.tx ∧
      g.activity = w.activitySeen ∧ g.packets = w.peerPacketsSeen := by
  obtain ⟨ago, hago, happ, hpeer⟩ := h
  have hboth : 5 ≤ w.appSilentRounds ∧ 5 ≤ w.peerSilentRounds := by
    simpa [patrolSilentRounds, PatrolWatch.silentRounds] using hsilent
  intro i hi
  have hiapp : i ≤ w.appSilentRounds := hi.trans hboth.1
  obtain ⟨hmem, hback, hip, htx⟩ := hago i (.inl hiapp)
  exact ⟨ago i, hmem, hback, hip, htx, happ i hiapp, hpeer i (hi.trans hboth.2)⟩

end Watches

variable {A : Type} [DecidableEq A]

/-! ### A round in pieces -/

structure PatrolTask (A : Type) [DecidableEq A] where
  /-- The slots still to do, the one at hand first. -/
  todo : List (A × List PatrolCandidate)
  /-- What is left of the memory of the slot at hand. -/
  carried : List PatrolWatch
  kept : List PatrolWatch
  next : Table A (List PatrolWatch)
  round : PatrolRound

structure Patrolled (A : Type) [DecidableEq A] where
  routing : Routing A
  task : Option (PatrolTask A)
  looks : List (RouteTable A)
  log : List (Sighting A)

namespace Patrolled

def start : Patrolled A := ⟨.start, none, [], []⟩

def remembered (watches : Table A (List PatrolWatch)) (ip : A) : List PatrolWatch :=
  (watches.lookup ip).getD []

def opening (watches : Table A (List PatrolWatch)) : List (A × List PatrolCandidate) →
    List PatrolWatch
  | [] => []
  | (ip, _) :: _ => remembered watches ip

/-- A round begins: the senders of the shared slots are taken. -/
def look (s : Patrolled A) : Patrolled A :=
  match s.task with
  | some _ => s
  | none =>
    let todo := s.routing.table.patrolCandidates
    { s with
      task := some ⟨todo, opening s.routing.watches todo, [], ∅, ⟨⟨0, 0⟩, 0⟩⟩
      looks := s.looks ++ [s.routing.table] }

/-- The next piece of a round: a sender is judged, a slot is done, or the round is. -/
def work (s : Patrolled A) (r : Readings) : Patrolled A :=
  match s.task with
  | none => s
  | some k =>
    match k.todo with
    | [] => { s with routing.watches := k.next, task := none }
    | (ip, []) :: todo =>
      { s with
        task := some
          { k with
            todo := todo
            carried := opening s.routing.watches todo
            kept := []
            next := if k.kept = [] then k.next else k.next.insert ip k.kept } }
    | (ip, who :: watched) :: todo =>
      let p := patrolSender ip r ⟨s.routing.table, k.carried, k.kept, k.round⟩ who
      { s with
        routing.table := p.table
        task := some
          { k with
            todo := (ip, watched) :: todo
            carried := p.carried
            kept := p.kept
            round := p.round }
        log := ⟨s.looks.length - 1, ip, who, r.activity who.activity,
          r.packetsFromPeer who.peer⟩ :: s.log }

end Patrolled

inductive PatrolEvent (A : Type) where
  /-- Anything else that is done to the table. -/
  | other (e : RouteEvent A)
  | look
  | work (readings : Readings)

namespace Patrolled

def step (s : Patrolled A) : PatrolEvent A → Patrolled A
  | .other e => { s with routing := s.routing.step e }
  | .look => s.look
  | .work r => s.work r

/-- A round is made of pieces only. -/
def InPieces (_ : Patrolled A) : PatrolEvent A → Prop
  | .other (.patrol _) => False
  | _ => True

def Reachable : Patrolled A → Prop :=
  Transition.Reachable (· = start) (Transition.Guarded InPieces step)

def WasShared (looks : List (RouteTable A)) (round : ℕ) (ip : A) (who : PatrolCandidate) : Prop :=
  ∃ t slot, looks[round]? = some t ∧ t.slots.lookup ip = some slot ∧ 1 < slot.senders.length ∧
    ∃ d ∈ slot.senders, d.tx = who.tx ∧ d.activity = some who.activity ∧ d.peer = some who.peer

/-! ### One sender -/

theorem watchOf_cases (r : Readings) (carried : List PatrolWatch) (who : PatrolCandidate) :
    (watchOf r carried who = (.new who (r.activity who.activity) (r.packetsFromPeer who.peer),
      carried)) ∨
    ∃ w ∈ carried, w.who.tx = who.tx ∧ (watchOf r carried who).2 ⊆ carried ∧
      (watchOf r carried who).1 =
        w.observe (r.activity who.activity) (r.packetsFromPeer who.peer) := by
  unfold watchOf
  cases hfind : carried.findIdx? fun w => decide (w.who.tx = who.tx) with
  | none => exact .inl rfl
  | some i =>
    obtain ⟨hi, htx, -⟩ := List.findIdx?_eq_some_iff_getElem.mp hfind
    have hget := List.getElem?_eq_getElem hi
    refine .inr ⟨carried[i], List.getElem_mem hi, of_decide_eq_true htx, ?_⟩
    dsimp only
    rw [hget]
    refine ⟨fun w hw => ?_, rfl⟩
    exact (VecOps.perm_cons_swapRemove hget).mem_iff.mpr (List.mem_cons_of_mem _ hw)

theorem tx_watchOf (r : Readings) (carried : List PatrolWatch) (who : PatrolCandidate) :
    (watchOf r carried who).1.who.tx = who.tx := by
  rcases watchOf_cases r carried who with hnew | ⟨w, -, htx, -, hold⟩
  · rw [hnew]
    rfl
  · rw [hold]
    exact htx

/-- **What becomes of a sender.** -/
theorem patrolSender_cases (ip : A) (r : Readings) (p : Patrol A) (who : PatrolCandidate) :
    (patrolSender ip r p who).carried = (watchOf r p.carried who).2 ∧
    ((((watchOf r p.carried who).1.verdict (r.isClosed who.peer)).isSome ∧
        (patrolSender ip r p who).table = p.table.unregisterIfOwner ip who.tx ∧
        (patrolSender ip r p who).kept = p.kept) ∨
      ((patrolSender ip r p who).table.slots = p.table.slots ∧
        (patrolSender ip r p who).kept = p.kept ++ [(watchOf r p.carried who).1])) := by
  have htx := tx_watchOf r p.carried who
  unfold patrolSender
  dsimp only
  cases (watchOf r p.carried who).1.verdict (r.isClosed who.peer) with
  | some reason => exact ⟨rfl, .inl ⟨rfl, by rw [← htx], rfl⟩⟩
  | none => exact ⟨rfl, .inr ⟨rfl, rfl⟩⟩

/-! ### Runs -/

/-- A round under way, the last of those that have looked. -/
structure UnderWay (looks : List (RouteTable A)) (log : List (Sighting A)) (rounds : ℕ)
    (k : PatrolTask A) : Prop where
  looked : looks.length = rounds + 1
  todo : ∀ e ∈ k.todo, ∀ who ∈ e.2, WasShared looks rounds e.1 who
  carried : ∀ e todo, k.todo = e :: todo → ∀ w ∈ k.carried, Backed log rounds e.1 w
  kept : ∀ e todo, k.todo = e :: todo → ∀ w ∈ k.kept, Backed log (rounds + 1) e.1 w
  next : ∀ ip, ∀ w ∈ remembered k.next ip, Backed log (rounds + 1) ip w

/-- What the patrol remembers is backed by what it has read. -/
structure Honest (s : Patrolled A) : Prop where
  log : ∀ g ∈ s.log, WasShared s.looks g.round g.ip g.who
  idle : s.task = none →
    ∀ ip, ∀ w ∈ remembered s.routing.watches ip, Backed s.log s.looks.length ip w
  busy : ∀ k, s.task = some k → ∃ rounds, UnderWay s.looks s.log rounds k ∧
    ∀ ip, ∀ w ∈ remembered s.routing.watches ip, Backed s.log rounds ip w

variable {s : Patrolled A} {looks : List (RouteTable A)} {log : List (Sighting A)} {rounds : ℕ}
  {k : PatrolTask A} {ip : A} {who : PatrolCandidate}

variable {t : RouteTable A}

theorem WasShared.append (h : WasShared looks rounds ip who) (t) :
    WasShared (looks ++ [t]) rounds ip who := by
  obtain ⟨t', slot, hlook, hrest⟩ := h
  have hlt := (List.getElem?_eq_some_iff.mp hlook).1
  exact ⟨t', slot, by rw [List.getElem?_append_left hlt, hlook], hrest⟩

/-- **Who is watched**: a sender of a shared slot with both handles. -/
theorem wasShared_of_candidates {e : A × List PatrolCandidate}
    (he : e ∈ t.patrolCandidates) (hwho : who ∈ e.2) :
    WasShared (looks ++ [t]) looks.length e.1 who := by
  obtain ⟨⟨ip, slot⟩, hentry, rfl⟩ := List.mem_map.mp he
  obtain ⟨hentry, hshared⟩ := List.mem_filter.mp hentry
  obtain ⟨d, hd, hhandles⟩ := List.mem_filterMap.mp hwho
  refine ⟨t, slot, List.getElem?_concat_length, Table.lookup_of_mem_entries hentry,
    of_decide_eq_true hshared, d, hd, ?_⟩
  split at hhandles
  · next hactivity hpeer =>
    cases hhandles
    exact ⟨rfl, hactivity, hpeer⟩
  · cases hhandles

theorem backed_opening {watches : Table A (List PatrolWatch)}
    (h : ∀ ip, ∀ w ∈ remembered watches ip, Backed log rounds ip w)
    (todo : List (A × List PatrolCandidate)) :
    ∀ e rest, todo = e :: rest → ∀ w ∈ opening watches todo, Backed log rounds e.1 w := by
  rintro e rest rfl w hw
  exact h e.1 w hw

theorem Honest.look (h : Honest s) : Honest s.look := by
  unfold Patrolled.look
  cases htask : s.task with
  | some k => exact h
  | none =>
    have hwatches := h.idle htask
    refine ⟨fun g hg => (h.log g hg).append _, nofun, ?_⟩
    rintro k ⟨⟩
    refine ⟨s.looks.length, ⟨List.length_append, ?_, ?_, ?_, ?_⟩, hwatches⟩
    · exact fun e he who hwho => wasShared_of_candidates he hwho
    · exact backed_opening hwatches _
    · exact fun _ _ _ w hw => absurd hw List.not_mem_nil
    · exact fun _ w hw => absurd hw List.not_mem_nil

theorem UnderWay.judge (h : UnderWay looks log rounds k) {watched : List PatrolCandidate}
    {todo : List (A × List PatrolCandidate)} (htodo : k.todo = (ip, who :: watched) :: todo)
    (r : Readings) (t) :
    let p := patrolSender ip r ⟨t, k.carried, k.kept, k.round⟩ who
    let g : Sighting A :=
      ⟨looks.length - 1, ip, who, r.activity who.activity, r.packetsFromPeer who.peer⟩
    Backed (g :: log) (rounds + 1) ip (watchOf r k.carried who).1 ∧
      UnderWay looks (g :: log) rounds
        { k with todo := (ip, watched) :: todo, carried := p.carried, kept := p.kept,
                 round := p.round } := by
  intro p g
  have hsub : log ⊆ g :: log := List.subset_cons_self g log
  have hround : g.round = rounds := by
    show looks.length - 1 = rounds
    rw [h.looked, Nat.add_sub_cancel]
  obtain ⟨hcarried, hkept⟩ := patrolSender_cases ip r ⟨t, k.carried, k.kept, k.round⟩ who
  have hwatch : Backed (g :: log) (rounds + 1) ip (watchOf r k.carried who).1 := by
    rcases watchOf_cases r k.carried who with hnew | ⟨w, hw, htx, -, hold⟩
    · rw [hnew]
      exact Backed.new (g := g) List.mem_cons_self (congrArg (· + 1) hround)
    · rw [hold]
      have hback := (h.carried _ _ htodo w hw).mono hsub
      exact hback.observe (g := g) List.mem_cons_self hround rfl htx.symm
  have hrest : (watchOf r k.carried who).2 ⊆ k.carried := by
    rcases watchOf_cases r k.carried who with hnew | ⟨w, -, -, hrest, -⟩
    · rw [hnew]
      exact List.Subset.refl _
    · exact hrest
  refine ⟨hwatch, h.looked, ?_, ?_, ?_, fun ip' w hw => (h.next ip' w hw).mono hsub⟩
  · intro e he who' hwho'
    rcases List.mem_cons.mp he with rfl | he
    · have hall := h.todo (ip, who :: watched) (htodo ▸ List.mem_cons_self)
      exact hall who' (List.mem_cons_of_mem who hwho')
    · exact h.todo e (htodo ▸ List.mem_cons_of_mem _ he) who' hwho'
  · rintro e rest ⟨⟩ w hw
    rw [show p.carried = _ from hcarried] at hw
    exact (h.carried _ _ htodo w (hrest hw)).mono hsub
  · rintro e rest ⟨⟩ w hw
    have hold : ∀ w ∈ k.kept, Backed (g :: log) (rounds + 1) ip w :=
      fun w hw => (h.kept _ _ htodo w hw).mono hsub
    rcases hkept with ⟨-, -, hsame⟩ | ⟨-, hmore⟩
    · rw [show p.kept = _ from hsame] at hw
      exact hold w hw
    · rw [show p.kept = _ from hmore] at hw
      rcases List.mem_append.mp hw with hw | hw
      · exact hold w hw
      · rw [List.mem_singleton.mp hw]
        exact hwatch

theorem UnderWay.done (h : UnderWay looks log rounds k) {todo : List (A × List PatrolCandidate)}
    (htodo : k.todo = (ip, []) :: todo) {watches : Table A (List PatrolWatch)}
    (hwatches : ∀ ip, ∀ w ∈ remembered watches ip, Backed log rounds ip w) :
    UnderWay looks log rounds
      { k with todo := todo, carried := opening watches todo, kept := [],
               next := if k.kept = [] then k.next else k.next.insert ip k.kept } := by
  refine ⟨h.looked, fun e he => h.todo e (htodo ▸ List.mem_cons_of_mem _ he),
    backed_opening hwatches todo, fun _ _ _ w hw => absurd hw List.not_mem_nil, ?_⟩
  intro ip' w hw
  split at hw
  · exact h.next ip' w hw
  · rw [remembered, Table.lookup_insert'] at hw
    split at hw
    · next hip =>
      rw [hip]
      exact h.kept _ _ htodo w hw
    · exact h.next ip' w hw

theorem Honest.work (h : Honest s) (r : Readings) : Honest (s.work r) := by
  unfold Patrolled.work
  cases htask : s.task with
  | none => exact h
  | some k =>
    obtain ⟨rounds, hk, hwatches⟩ := h.busy k htask
    dsimp only
    split
    · refine ⟨h.log, fun _ ip w hw => ?_, nofun⟩
      rw [hk.looked]
      exact hk.next ip w hw
    · next ip todo htodo =>
      refine ⟨h.log, nofun, ?_⟩
      rintro k' ⟨⟩
      exact ⟨rounds, hk.done htodo hwatches, hwatches⟩
    · next ip who watched todo htodo =>
      have hround : s.looks.length - 1 = rounds := by rw [hk.looked, Nat.add_sub_cancel]
      refine ⟨fun g hg => ?_, nofun, ?_⟩
      · rcases List.mem_cons.mp hg with rfl | hg
        · rw [hround]
          exact hk.todo _ (htodo ▸ List.mem_cons_self) who List.mem_cons_self
        · exact h.log g hg
      · rintro k' ⟨⟩
        refine ⟨rounds, (hk.judge htodo r s.routing.table).2, fun ip' w hw => ?_⟩
        exact (hwatches ip' w hw).mono (List.subset_cons_self _ _)

theorem watches_step {e : RouteEvent A} (he : InPieces s (.other e)) :
    (s.routing.step e).watches = s.routing.watches := by
  cases e with
  | evict takeover convictOnSilence r =>
    show (s.routing.evict takeover convictOnSilence r).watches = _
    unfold Routing.evict
    split <;> rfl
  | patrol r => exact absurd he id
  | _ => rfl

theorem Reachable.honest (h : s.Reachable) : Honest s := by
  refine Transition.Reachable.invariant (I := Honest) ?_ ?_ h
  · rintro s rfl
    exact ⟨fun _ hg => absurd hg List.not_mem_nil, fun _ _ w hw => absurd hw List.not_mem_nil,
      nofun⟩
  · rintro s s' hs ⟨e, hok, rfl⟩
    cases e with
    | other e =>
      have hwatches := watches_step hok
      refine ⟨hs.log, fun hidle => ?_, fun k hk => ?_⟩
      · show ∀ ip, ∀ w ∈ remembered (s.routing.step e).watches ip, _
        rw [hwatches]
        exact hs.idle hidle
      · show ∃ rounds, _ ∧ ∀ ip, ∀ w ∈ remembered (s.routing.step e).watches ip, _
        rw [hwatches]
        exact hs.busy k hk
    | look => exact hs.look
    | work r => exact hs.work r

/-! ### A round without interruption -/

def Works (r : Readings) : Patrolled A → Patrolled A → Prop :=
  Relation.ReflTransGen fun s s' => s' = s.work r

theorem routing_look (s : Patrolled A) : s.look.routing = s.routing := by
  unfold Patrolled.look
  split <;> rfl

section Pieces

variable {s : Patrolled A} {todo : List (A × List PatrolCandidate)}
  {watched : List PatrolCandidate} (r : Readings)

theorem work_judge (htask : s.task = some k) (htodo : k.todo = (ip, who :: watched) :: todo) :
    let p := patrolSender ip r ⟨s.routing.table, k.carried, k.kept, k.round⟩ who
    (s.work r).routing = { s.routing with table := p.table } ∧
      (s.work r).task = some
        { k with todo := (ip, watched) :: todo, carried := p.carried, kept := p.kept,
                 round := p.round } ∧
      (s.work r).looks = s.looks ∧
      (s.work r).log = ⟨s.looks.length - 1, ip, who, r.activity who.activity,
        r.packetsFromPeer who.peer⟩ :: s.log := by
  simp only [Patrolled.work, htask, htodo, and_self]

theorem work_done (htask : s.task = some k) (htodo : k.todo = (ip, []) :: todo) :
    (s.work r).routing = s.routing ∧
      (s.work r).task = some
        { k with todo := todo, carried := opening s.routing.watches todo, kept := [],
                 next := if k.kept = [] then k.next else k.next.insert ip k.kept } := by
  simp only [Patrolled.work, htask, htodo, and_self]

theorem work_finish (htask : s.task = some k) (htodo : k.todo = []) :
    (s.work r).routing = { s.routing with watches := k.next } ∧ (s.work r).task = none := by
  simp only [Patrolled.work, htask, htodo, and_self]

theorem works_slot (watched) {s : Patrolled A} {k : PatrolTask A}
    (htask : s.task = some k) (htodo : k.todo = (ip, watched) :: todo) :
    ∃ s', Works r s s' ∧
      let p := watched.foldl (patrolSender ip r) ⟨s.routing.table, k.carried, k.kept, k.round⟩
      s'.routing = { s.routing with table := p.table } ∧
      s'.task = some { k with todo := (ip, []) :: todo, carried := p.carried, kept := p.kept,
                              round := p.round } := by
  induction watched generalizing s k with
  | nil =>
    refine ⟨s, .refl, rfl, ?_⟩
    rw [htask, ← htodo]
    rfl
  | cons who watched ih =>
    obtain ⟨hrouting, htask', -, -⟩ := work_judge r htask htodo
    obtain ⟨s', hworks, hs', htask''⟩ := ih htask' rfl
    rw [hrouting] at hs' htask''
    exact ⟨s', .head rfl hworks, hs', htask''⟩

theorem works_slots (todo) {s : Patrolled A} {k : PatrolTask A}
    (htask : s.task = some k) (htodo : k.todo = todo)
    (hcarried : k.carried = opening s.routing.watches todo) (hkept : k.kept = []) :
    ∃ s', Works r s s' ∧ s'.task = none ∧
      let out := patrolSlots s.routing.watches r todo s.routing.table k.next k.round
      s'.routing = { s.routing with watches := out.2.1, table := out.2.2 } := by
  induction todo generalizing s k with
  | nil =>
    obtain ⟨hrouting, htask'⟩ := work_finish r htask htodo
    exact ⟨s.work r, .single rfl, htask', hrouting⟩
  | cons slot todo ih =>
    obtain ⟨ip, watched⟩ := slot
    obtain ⟨s₁, hworks₁, hrouting₁, htask₁⟩ := works_slot r watched htask htodo
    obtain ⟨hrouting₂, htask₂⟩ := work_done r htask₁ rfl
    obtain ⟨s', hworks', htask', hs'⟩ := ih htask₂ rfl (by rw [hrouting₂]) rfl
    refine ⟨s', hworks₁.trans (.head rfl hworks'), htask', ?_⟩
    rw [hs', hrouting₂, hrouting₁, hcarried, hkept]
    rfl

/-- **Undisturbed, the pieces are the round of the table.** -/
theorem works_eq_patrolRound (hidle : s.task = none) :
    ∃ s', Works r s.look s' ∧ s'.task = none ∧ s'.routing = s.routing.step (.patrol r) := by
  have htask : s.look.task = some ⟨s.routing.table.patrolCandidates,
      opening s.routing.watches s.routing.table.patrolCandidates, [], ∅, ⟨⟨0, 0⟩, 0⟩⟩ := by
    unfold Patrolled.look
    rw [hidle]
  have hopening := congrArg (fun routing : Routing A => opening routing.watches
    s.routing.table.patrolCandidates) (routing_look s).symm
  obtain ⟨s', hworks, hdone, hrouting⟩ := works_slots r _ htask rfl hopening rfl
  rw [routing_look] at hrouting
  exact ⟨s', hworks, hdone, hrouting⟩

end Pieces

/-- **A sender that is gone** after a piece of a round is the one that was judged. -/
theorem judged_of_gone {d : Downlink} {r : Readings} (hd : d ∈ s.routing.table.senders ip)
    (hgone : d ∉ (s.work r).routing.table.senders ip) :
    ∃ k who watched todo, s.task = some k ∧ k.todo = (ip, who :: watched) :: todo ∧
      who.tx = d.tx ∧ ((watchOf r k.carried who).1.verdict (r.isClosed who.peer)).isSome := by
  cases htask : s.task with
  | none =>
    rw [show s.work r = s by simp only [Patrolled.work, htask]] at hgone
    exact absurd hd hgone
  | some k =>
    rcases htodo : k.todo with _ | ⟨⟨ip', _ | ⟨who, watched⟩⟩, todo⟩
    · rw [(work_finish r htask htodo).1] at hgone
      exact absurd hd hgone
    · rw [(work_done r htask htodo).1] at hgone
      exact absurd hd hgone
    · rw [(work_judge r htask htodo).1] at hgone
      obtain ⟨-, ⟨hverdict, htable, -⟩ | ⟨hslots, -⟩⟩ :=
        patrolSender_cases ip' r ⟨s.routing.table, k.carried, k.kept, k.round⟩ who
      · dsimp only at hgone
        rw [htable] at hgone
        by_cases hip : ip = ip'
        · subst hip
          refine ⟨k, who, watched, todo, rfl, htodo, ?_, hverdict⟩
          by_contra htx
          rw [senders_unregisterIfOwner] at hgone
          exact hgone (List.mem_filter.mpr ⟨hd, decide_eq_true fun heq => htx heq.symm⟩)
        · rw [RouteTable.senders, lookup_unregisterIfOwner, if_neg hip] at hgone
          exact absurd hd hgone
      · dsimp only at hgone
        rw [RouteTable.senders, hslots] at hgone
        exact absurd hd hgone

instance (s : Patrolled A) : (e : PatrolEvent A) → Decidable (s.InPieces e)
  | .other (.patrol _) => inferInstanceAs (Decidable False)
  | .other (.register _ _ _) | .other (.attachLiveness _ _ _ _) | .other (.noteFlow _ _ _ _)
  | .other (.unregisterIfOwner _ _) | .other (.snapshot _ _ _ _) | .other (.evict _ _ _)
  | .other (.dispatch _ _ _) | .look | .work _ => inferInstanceAs (Decidable True)

end Patrolled

open Patrolled

/-- **The patrol convicts only the dead.**  Rounds of the patrol are interleaved with all other
calls on the table, also while a round is under way, and the readings are whatever the
counters say when they are read.  If a piece of a round removes a sender, then, when that
round looked at the table, the sender was one of several in its slot, with both handles; and
its connection reads closed in that round, or in each of six rounds, of which this one is the
last and no other comes between, it was one of several in its slot, with both handles, and the
two counters read what they read in all of the six. -/
theorem patrol_convicts_dead {s : Patrolled A} (h : s.Reachable) {e : PatrolEvent A}
    (he : ∀ o, e ≠ .other o) {ip : A} {d : Downlink} (hd : d ∈ s.routing.table.senders ip)
    (hgone : d ∉ (s.step e).routing.table.senders ip) :
    ∃ r round who, e = .work r ∧ round + 1 = s.looks.length ∧ who.tx = d.tx ∧
      WasShared s.looks round ip who ∧
      (r.isClosed who.peer = true ∨
        ∃ activity packets, ∀ i ≤ 5, ∃ earlier seen, earlier + i = round ∧ seen.tx = d.tx ∧
          WasShared s.looks earlier ip seen ∧
          ⟨earlier, ip, seen, activity, packets⟩ ∈ (s.step e).log) := by
  cases e with
  | other o => exact absurd rfl (he o)
  | look =>
    rw [show (s.step .look).routing = _ from routing_look s] at hgone
    exact absurd hd hgone
  | work r =>
    obtain ⟨k, who, watched, todo, htask, htodo, htx, hverdict⟩ := judged_of_gone hd hgone
    obtain ⟨rounds, hk, -⟩ := h.honest.busy k htask
    obtain ⟨hbacked, -⟩ := hk.judge htodo r s.routing.table
    obtain ⟨-, -, hlooks, hlog⟩ := work_judge r htask htodo
    have hshared := hk.todo _ (htodo ▸ List.mem_cons_self) who List.mem_cons_self
    refine ⟨r, rounds, who, rfl, hk.looked.symm, htx, hshared, ?_⟩
    by_cases hclosed : r.isClosed who.peer = true
    · exact .inl hclosed
    · have hsilent : patrolSilentRounds ≤ (watchOf r k.carried who).1.silentRounds := by
        by_contra hbusy
        rw [PatrolWatch.verdict, if_neg hclosed, if_neg hbusy] at hverdict
        cases hverdict
      refine .inr ⟨(watchOf r k.carried who).1.activitySeen,
        (watchOf r k.carried who).1.peerPacketsSeen, fun i hi => ?_⟩
      obtain ⟨g, hg, hround, rfl, hgtx, hactivity, hpackets⟩ := hbacked.convicts hsilent i hi
      rw [← hlog] at hg
      have hwas := (h.honest.work r).log g hg
      rw [hlooks] at hwas
      refine ⟨g.round, g.who, Nat.succ.inj hround, ?_, hwas, ?_⟩
      · rw [hgtx, tx_watchOf, htx]
      · rw [← hactivity, ← hpackets]
        exact hg

def oneSilent (n : ℕ) : Readings :=
  ⟨fun handle => if handle = 1 then 7 else n, fun peer => if peer = 1 then 9 else n,
    fun _ => false⟩

def roundOf (n : ℕ) : List (PatrolEvent Ipv4Addr) :=
  [.look, .work (oneSilent n), .work (oneSilent n), .work (oneSilent n), .work (oneSilent n)]

def silentRounds : List (PatrolEvent Ipv4Addr) :=
  [.other (.register 10 1 fun _ => false), .other (.attachLiveness 10 1 1 (some 1)),
    .other (.register 10 2 fun _ => false), .other (.attachLiveness 10 2 2 (some 2))] ++
    (List.range 5).flatMap roundOf ++ [.look]

/-- The connection that stood still through six rounds is removed in the sixth. -/
theorem patrol_convicts_dead_sixth :
    let s := silentRounds.foldl step start
    ∃ activity packets, ∀ i ≤ 5, ∃ earlier seen, earlier + i = 5 ∧ seen.tx = 1 ∧
      WasShared s.looks earlier 10 seen ∧
      ⟨earlier, 10, seen, activity, packets⟩ ∈ (s.step (.work (oneSilent 5))).log := by
  intro s
  have hstart : (start : Patrolled Ipv4Addr).Reachable := .start rfl
  have hreach : s.Reachable := hstart.run (by decide)
  have hsender : ⟨1, some 1, some 1, 0⟩ ∈ s.routing.table.senders 10 := by decide
  have hgone : ⟨1, some 1, some 1, 0⟩ ∉
    (s.step (.work (oneSilent 5))).routing.table.senders 10 := by decide
  have hpatrol : ∀ o : RouteEvent Ipv4Addr, PatrolEvent.work (oneSilent 5) ≠ .other o := by
    intro o ho
    cases ho
  obtain ⟨r, round, who, he, hround, -, -, hclosed | ⟨activity, packets, hsix⟩⟩ :=
    patrol_convicts_dead hreach hpatrol hsender hgone
  · cases he
    cases hclosed
  · have hlooks : s.looks.length = 6 := by decide
    obtain rfl : round = 5 := by omega
    exact ⟨activity, packets, hsix⟩

/-- The sixth round, as the pieces do it. -/
theorem works_eq_patrolRound_sixth :
    ∃ s', Works (oneSilent 5) (silentRounds.dropLast.foldl step start).look s' ∧ s'.task = none ∧
      s'.routing = (silentRounds.dropLast.foldl step start).routing.step (.patrol (oneSilent 5)) :=
  works_eq_patrolRound (oneSilent 5) rfl

end WarrenGuard.Router
