/-
The downlink route table (`RouteTable` of `warrenguard-multihop-server/src/multihop.rs`).

An address has a slot with one sender for each connection of the client, and what the uplink has
shown about which connection carries a flow.  A packet goes to the owner of its flow if that is
still a sender, and otherwise to one picked by a hash of the flow, or in turn (`dispatch`).
Connections that are gone leave the slot on several paths: `unregisterIfOwner`, the connection
ends; `register`, the slot is full; `evictStalePredecessors`, a connection that took the address
over looks at those that were there before; `patrolRound`, a sender has been silent too long;
`dispatch`, a channel turns out to be closed.  All but the second go through the first: the table
after them is `Pruned`.

Design notes: a channel is a number, and `same_channel` equality.  The handles of a sender are
names, and what a call reads off them is its input (`Readings`); so is the state of each channel.
The flag that marks a sender stale is shared between the slot and the patrol, so it is a cell
(`stale`).  `pick` stands for the iteration order of the flow table.  Metrics and logs are left
out.
-/
import WarrenGuard.UplinkPump
import WarrenGuard.Table
import WarrenGuard.VecOps

namespace WarrenGuard.Router

open ByteString Uplink

/-! ### Flows -/

/-- The hash of the flow of a TCP or UDP packet, in the packet's direction. -/
def flowHash5tuple (pkt : List UInt8) : Option UInt64 :=
  (flowFields pkt).map fun (proto, addrs, len, ports) =>
    fnv1a (fnv1a (fnv1a 0xcbf29ce484222325 [proto]) (slice pkt addrs (2 * len))) (slice pkt ports 4)

/-! ### Slots -/

abbrev Channel := ℕ

def maxSendersPerIp : ℕ := 16

/-- What a call reads off the handles of senders. -/
structure Readings where
  activity : ℕ → ℕ
  packetsFromPeer : ℕ → ℕ
  isClosed : ℕ → Bool

structure Downlink where
  tx : Channel
  activity : Option ℕ
  peer : Option ℕ
  /-- The cell of its stale flag. -/
  stale : ℕ
deriving DecidableEq

structure RouteSlot where
  senders : List Downlink
  rr : UInt64
  flows : Table UInt64 Channel

namespace RouteSlot

def new (tx : Channel) (cell : ℕ) : RouteSlot := ⟨[⟨tx, none, none, cell⟩], 0, ∅⟩

variable (slot : RouteSlot)

def channels : List Channel := slot.senders.map Downlink.tx

/-- First writer wins.  At the cap some flow is forgotten. -/
def noteFlow (key : UInt64) (tx : Channel) (pick : ℕ) : RouteSlot :=
  if (slot.flows.lookup key).isSome then slot
  else
    let flows :=
      if flowTableCapPerIp ≤ slot.flows.keys.length then
        match slot.flows.keys[pick % slot.flows.keys.length]? with
        | some victim => slot.flows.erase victim
        | none => slot.flows
      else slot.flows
    { slot with flows := flows.insert key tx }

/-- The position of the sender that makes room in a full slot: one whose connection is closed,
or the oldest. -/
def victim (isClosed : ℕ → Bool) : ℕ :=
  (slot.senders.findIdx? fun d => d.peer.any isClosed).getD 0

/-- Another sender, at the end. -/
def push (tx : Channel) (cell : ℕ) (isClosed : ℕ → Bool) : RouteSlot :=
  let senders :=
    if maxSendersPerIp ≤ slot.senders.length then slot.senders.eraseIdx (slot.victim isClosed)
    else slot.senders
  { slot with senders := senders ++ [⟨tx, none, none, cell⟩] }

def attachLiveness (tx : Channel) (activity : ℕ) (peer : Option ℕ) :
    RouteSlot :=
  { slot with
    senders := slot.senders.modify (slot.senders.findIdx fun d => decide (d.tx = tx))
      fun d => { d with activity := some activity, peer := peer } }

/-- A channel leaves, with the flows it owned. -/
def without (owner : Channel) : RouteSlot :=
  { slot with
    senders := slot.senders.filter fun d => decide (d.tx ≠ owner)
    flows := Table.retain (fun _ tx => decide (tx ≠ owner)) slot.flows }

/-- The senders that take packets: those that are not stale, or all if all are. -/
def pool (stale : ℕ → Bool) : List Downlink :=
  let serving := slot.senders.filter fun d => !stale d.stale
  if serving.length = 0 then slot.senders else serving

def owner? (stale : ℕ → Bool) (pkt : List UInt8) : Option Channel :=
  ((canonicalFlowKey pkt).bind fun key => slot.flows.lookup key).filter fun owner =>
    (slot.pool stale).any fun d => decide (d.tx = owner)

/-- The channel a packet is handed to, and the counter after it. -/
def select (stale : ℕ → Bool) (pkt : List UInt8) : Option (Channel × UInt64) :=
  match slot.owner? stale pkt with
  | some owner => some (owner, slot.rr)
  | none =>
    let pool := slot.pool stale
    let (idx, rr) := match flowHash5tuple pkt with
      | some h => (h.toNat % pool.length, slot.rr)
      | none => (slot.rr.toNat % pool.length, slot.rr + 1)
    (pool[idx]? <|> slot.senders[idx % slot.senders.length]?).map fun d => (d.tx, rr)

end RouteSlot

/-! ### The table -/

structure RouteTable (A : Type) [DecidableEq A] where
  slots : Table A RouteSlot
  /-- The cells of the stale flags, of which `cells` have been made. -/
  stale : ℕ → Bool
  cells : ℕ

inductive EvictReason where
  | closed
  | silent
deriving DecidableEq

structure Evictions where
  closed : ℕ
  silent : ℕ
deriving DecidableEq

def Evictions.note (e : Evictions) : EvictReason → Evictions
  | .closed => { e with closed := e.closed + 1 }
  | .silent => { e with silent := e.silent + 1 }

/-- What a takeover has read of a sender that was there before. -/
structure PredecessorSnapshot where
  tx : Channel
  activity : ℕ
  activitySeen : ℕ
  peer : Option ℕ
  peerPacketsSeen : ℕ

/-- What proves a predecessor dead. -/
def PredecessorSnapshot.verdict (p : PredecessorSnapshot) (convictOnSilence : Bool) (r : Readings) :
    Option EvictReason :=
  if p.peer.any r.isClosed then some .closed
  else if convictOnSilence && decide (r.activity p.activity = p.activitySeen) &&
      p.peer.all (fun c => decide (r.packetsFromPeer c = p.peerPacketsSeen)) then some .silent
  else none

structure PatrolCandidate where
  tx : Channel
  activity : ℕ
  peer : ℕ
  stale : ℕ
deriving DecidableEq

structure PatrolWatch where
  who : PatrolCandidate
  activitySeen : ℕ
  peerPacketsSeen : ℕ
  appSilentRounds : ℕ
  peerSilentRounds : ℕ
deriving DecidableEq

def patrolSilentRounds : ℕ := 5

def patrolStaleRounds : ℕ := 24

def saturatingSucc (n : ℕ) : ℕ := min (n + 1) (2 ^ 32 - 1)

namespace PatrolWatch

def new (who : PatrolCandidate) (activity packets : ℕ) : PatrolWatch :=
  ⟨who, activity, packets, 0, 0⟩

/-- A counter that moved starts its run of silence afresh. -/
def observe (w : PatrolWatch) (activity packets : ℕ) : PatrolWatch where
  who := w.who
  activitySeen := activity
  appSilentRounds := if activity = w.activitySeen then saturatingSucc w.appSilentRounds else 0
  peerPacketsSeen := packets
  peerSilentRounds := if packets = w.peerPacketsSeen then saturatingSucc w.peerSilentRounds else 0

def silentRounds (w : PatrolWatch) : ℕ := min w.appSilentRounds w.peerSilentRounds

/-- What the patrol concludes of a sender. -/
def verdict (w : PatrolWatch) (isClosed : Bool) : Option EvictReason :=
  if isClosed then some .closed
  else if patrolSilentRounds ≤ w.silentRounds then some .silent
  else none

end PatrolWatch

structure PatrolRound where
  evicted : Evictions
  stale : ℕ
deriving DecidableEq

inductive TrySend where
  | sent
  | full
  | closed
deriving DecidableEq

inductive Dispatched where
  | noRoute
  | sent (tx : Channel)
  | dropped (tx : Channel)
  /-- Not decided within the attempts given. -/
  | unfinished
deriving DecidableEq

namespace RouteTable

variable {A : Type} [DecidableEq A]

def new : RouteTable A := ⟨∅, fun _ => false, 0⟩

variable (t : RouteTable A)

/-- Writes a slot that has a new sender, whose flag is in the next cell. -/
def putFresh (ip : A) (slot : RouteSlot) : RouteTable A where
  slots := t.slots.insert ip slot
  stale := Function.update t.stale t.cells false
  cells := t.cells + 1

def register (ip : A) (tx : Channel) (isClosed : ℕ → Bool) : RouteTable A :=
  match t.slots.lookup ip with
  | none => t.putFresh ip (.new tx t.cells)
  | some slot =>
    if tx ∈ slot.channels then t else t.putFresh ip (slot.push tx t.cells isClosed)

def attachLiveness (ip : A) (tx : Channel) (activity : ℕ) (peer : Option ℕ) :
    RouteTable A :=
  match t.slots.lookup ip with
  | none => t
  | some slot => { t with slots := t.slots.insert ip (slot.attachLiveness tx activity peer) }

def noteFlow (ip : A) (key : UInt64) (owner : Channel) (pick : ℕ) :
    RouteTable A :=
  match t.slots.lookup ip with
  | none => t
  | some slot => { t with slots := t.slots.insert ip (slot.noteFlow key owner pick) }

def unregisterIfOwner (ip : A) (owner : Channel) : RouteTable A :=
  match t.slots.lookup ip with
  | none => t
  | some slot =>
    if (slot.without owner).senders = [] then { t with slots := t.slots.erase ip }
    else { t with slots := t.slots.insert ip (slot.without owner) }

/-- The other senders under the address of a newcomer that can be judged. -/
def snapshotPredecessors (ip : A) (newcomer : Channel) (r : Readings) :
    List PredecessorSnapshot :=
  match t.slots.lookup ip with
  | none => []
  | some slot =>
    (slot.senders.filter fun d => decide (d.tx ≠ newcomer)).filterMap fun d =>
      d.activity.map fun activity =>
        ⟨d.tx, activity, r.activity activity, d.peer, d.peer.elim 0 r.packetsFromPeer⟩

/-- One look at the predecessors; what is left of the snapshot are those not evicted. -/
def evictStalePredecessors (t : RouteTable A) (ip : A) (convictOnSilence : Bool) (r : Readings) :
    List PredecessorSnapshot → Evictions × List PredecessorSnapshot × RouteTable A
  | [] => (⟨0, 0⟩, [], t)
  | p :: snapshot =>
    match p.verdict convictOnSilence r with
    | some reason =>
      let (evicted, kept, t) :=
        (t.unregisterIfOwner ip p.tx).evictStalePredecessors ip convictOnSilence r snapshot
      (evicted.note reason, kept, t)
    | none =>
      let (evicted, kept, t) := t.evictStalePredecessors ip convictOnSilence r snapshot
      (evicted, p :: kept, t)

/-- The senders of the shared slots the patrol can judge. -/
def patrolCandidates : List (A × List PatrolCandidate) :=
  (t.slots.entries.filter fun e => decide (1 < e.2.senders.length)).map fun e =>
    (e.1, e.2.senders.filterMap fun d =>
      match d.activity, d.peer with
      | some activity, some peer => some ⟨d.tx, activity, peer, d.stale⟩
      | _, _ => none)

structure Patrol (A : Type) [DecidableEq A] where
  table : RouteTable A
  /-- What is left of the memory of this address. -/
  carried : List PatrolWatch
  kept : List PatrolWatch
  round : PatrolRound

/-- The watch of a sender, new or carried over, and the rest of the memory. -/
def watchOf (r : Readings) (carried : List PatrolWatch) (who : PatrolCandidate) :
    PatrolWatch × List PatrolWatch :=
  match carried.findIdx? fun w => decide (w.who.tx = who.tx) with
  | some i => match carried[i]? with
    | some w => (w.observe (r.activity who.activity) (r.packetsFromPeer who.peer),
        VecOps.swapRemove carried i)
    | none => (.new who (r.activity who.activity) (r.packetsFromPeer who.peer), carried)
  | none => (.new who (r.activity who.activity) (r.packetsFromPeer who.peer), carried)

def patrolSender (ip : A) (r : Readings) (p : Patrol A) (who : PatrolCandidate) : Patrol A :=
  let (watch, carried) := watchOf r p.carried who
  match watch.verdict (r.isClosed who.peer) with
  | some reason =>
    { p with
      table := p.table.unregisterIfOwner ip watch.who.tx
      carried := carried
      round.evicted := p.round.evicted.note reason }
  | none =>
    let stale := decide (patrolStaleRounds ≤ watch.appSilentRounds)
    { table := { p.table with stale := Function.update p.table.stale watch.who.stale stale }
      carried := carried
      kept := p.kept ++ [watch]
      round.evicted := p.round.evicted
      round.stale := if stale then p.round.stale + 1 else p.round.stale }

/-- One round over the candidates, with the memory of the round before. -/
def patrolSlots (state : Table A (List PatrolWatch)) (r : Readings) :
    List (A × List PatrolCandidate) → RouteTable A → Table A (List PatrolWatch) → PatrolRound →
      PatrolRound × Table A (List PatrolWatch) × RouteTable A
  | [], t, next, round => (round, next, t)
  | (ip, watched) :: candidates, t, next, round =>
    let p := watched.foldl (patrolSender ip r) ⟨t, (state.lookup ip).getD [], [], round⟩
    let next := if p.kept = [] then next else next.insert ip p.kept
    patrolSlots state r candidates p.table next p.round

def patrolRound (state : Table A (List PatrolWatch)) (r : Readings) :
    PatrolRound × Table A (List PatrolWatch) × RouteTable A :=
  patrolSlots state r t.patrolCandidates t ∅ ⟨⟨0, 0⟩, 0⟩

/-- The loop of `dispatch`: a closed channel is unregistered, and the packet tried again. -/
def dispatchLoop (ip : A) (pkt : List UInt8) (channel : Channel → TrySend) :
    ℕ → RouteTable A → Dispatched × RouteTable A
  | 0, t => (.unfinished, t)
  | attempts + 1, t =>
    match t.slots.lookup ip with
    | none => (.noRoute, t)
    | some slot =>
      match slot.select t.stale pkt with
      | none => (.noRoute, t)
      | some (tx, rr) =>
        let t := { t with slots := t.slots.insert ip { slot with rr := rr } }
        match channel tx with
        | .sent => (.sent tx, t)
        | .full => (.dropped tx, t)
        | .closed => dispatchLoop ip pkt channel attempts (t.unregisterIfOwner ip tx)

def dispatch (ip : A) (pkt : List UInt8) (channel : Channel → TrySend) :
    Dispatched × RouteTable A :=
  dispatchLoop ip pkt channel (((t.slots.lookup ip).elim 0 fun slot => slot.senders.length) + 1) t

/-! ### What becomes of a slot -/

variable {t t' : RouteTable A} {ip ip' : A} {tx : Channel} {slot : RouteSlot}

theorem lookup_unregisterIfOwner (t : RouteTable A) (ip ip') (owner : Channel) :
    (t.unregisterIfOwner ip owner).slots.lookup ip' =
      if ip' = ip then (t.slots.lookup ip).bind fun slot =>
        if (slot.without owner).senders = [] then none else some (slot.without owner)
      else t.slots.lookup ip' := by
  unfold unregisterIfOwner
  cases hslot : t.slots.lookup ip with
  | none =>
    by_cases hip : ip' = ip
    · rw [if_pos hip, hip]
      exact hslot
    · rw [if_neg hip]
  | some slot =>
    dsimp only [Option.bind_some]
    by_cases hempty : (slot.without owner).senders = []
    · rw [if_pos hempty, if_pos hempty]
      exact Table.lookup_erase' ..
    · rw [if_neg hempty, if_neg hempty]
      exact Table.lookup_insert' ..

/-- The table after some senders have left: slots change only by `unregisterIfOwner`. -/
inductive Pruned : RouteTable A → RouteTable A → Prop
  | refl (t : RouteTable A) : Pruned t t
  | unregister {t t' : RouteTable A} (h : Pruned t t') (ip : A) (owner : Channel) :
    Pruned t (t'.unregisterIfOwner ip owner)
  | counter {t t' : RouteTable A} {ip : A} {slot : RouteSlot} (h : Pruned t t')
    (hslot : t'.slots.lookup ip = some slot) (rr : UInt64) :
    Pruned t { t' with slots := t'.slots.insert ip { slot with rr := rr } }
  | stale {t t' : RouteTable A} (h : Pruned t t') (stale : ℕ → Bool) : Pruned t { t' with stale }

theorem Pruned.trans {t₁ t₂ t₃ : RouteTable A} (h : Pruned t₁ t₂) (h' : Pruned t₂ t₃) :
    Pruned t₁ t₃ := by
  induction h' with
  | refl => exact h
  | unregister _ ip owner ih => exact ih.unregister ip owner
  | counter _ hslot rr ih => exact ih.counter hslot rr
  | stale _ stale ih => exact ih.stale stale

theorem pruned_evictStalePredecessors (ip : A) (convictOnSilence : Bool) (r : Readings)
    (snapshot : List PredecessorSnapshot) (t) :
    Pruned t (t.evictStalePredecessors ip convictOnSilence r snapshot).2.2 := by
  induction snapshot generalizing t with
  | nil => exact .refl t
  | cons p snapshot ih =>
    rw [evictStalePredecessors]
    split
    · exact ((Pruned.refl t).unregister ip p.tx).trans (ih _)
    · exact ih t

variable {r : Readings}

theorem pruned_patrolSender (ip r) (p : Patrol A) (who : PatrolCandidate) :
    Pruned p.table (patrolSender ip r p who).table := by
  unfold patrolSender
  dsimp only
  split
  · exact (Pruned.refl _).unregister ip _
  · exact (Pruned.refl _).stale _

theorem pruned_foldl_patrolSender (ip r) (watched : List PatrolCandidate)
    (p : Patrol A) : Pruned p.table (watched.foldl (patrolSender ip r) p).table := by
  induction watched generalizing p with
  | nil => exact .refl _
  | cons who watched ih => exact (pruned_patrolSender ip r p who).trans (ih _)

theorem pruned_patrolSlots (state : Table A (List PatrolWatch)) (r)
    (candidates : List (A × List PatrolCandidate)) (t)
    (next : Table A (List PatrolWatch)) (round : PatrolRound) :
    Pruned t (patrolSlots state r candidates t next round).2.2 := by
  induction candidates generalizing t next round with
  | nil => exact .refl t
  | cons candidate candidates ih =>
    exact (pruned_foldl_patrolSender candidate.1 r candidate.2
      ⟨t, (state.lookup candidate.1).getD [], [], round⟩).trans (ih _ _ _)

theorem pruned_patrolRound (t) (state : Table A (List PatrolWatch)) (r) :
    Pruned t (t.patrolRound state r).2.2 :=
  pruned_patrolSlots state r _ t _ _

theorem pruned_dispatchLoop (ip : A) (pkt : List UInt8) (channel : Channel → TrySend)
    (attempts : ℕ) (t) : Pruned t (dispatchLoop ip pkt channel attempts t).2 := by
  induction attempts generalizing t with
  | zero => exact .refl t
  | succ attempts ih =>
    unfold dispatchLoop
    split
    · exact .refl t
    · rename_i slot hslot
      split
      · exact .refl t
      · rename_i tx rr hselect
        have hcounter := (Pruned.refl t).counter hslot rr
        dsimp only
        split
        · exact hcounter
        · exact hcounter
        · exact (hcounter.unregister ip tx).trans (ih _)

theorem pruned_dispatch (t : RouteTable A) (ip) (pkt : List UInt8)
    (channel : Channel → TrySend) : Pruned t (t.dispatch ip pkt channel).2 :=
  pruned_dispatchLoop ip pkt channel _ t

end RouteTable

end WarrenGuard.Router
