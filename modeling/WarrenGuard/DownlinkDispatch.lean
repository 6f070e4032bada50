/-
Which channel a downlink packet goes to (`RouteTable::dispatch` of
`warrenguard-multihop-server/src/multihop.rs`).

The loop of `dispatch` chooses a sender and tries its channel; a channel that is closed leaves the
slot, and the packet is tried on what is left.

* `RouteTable.Tries` — the loop, with the channels tried in order and no bound on their number;
  `dispatchLoop_tries` — `dispatch` is that loop;
* `choose_mem`, `choose_owner` — one turn;
* `dispatch_delivers` — what becomes of a packet, from any table.

Design notes: nothing else changes the table or the channels meanwhile, so the state of each
channel is a function (`channel`).
-/
import WarrenGuard.RouteTable

namespace WarrenGuard.Router

open Uplink

/-! ### One choice -/

namespace RouteSlot

variable {slot : RouteSlot} {stale : ℕ → Bool} {pkt : List UInt8} {d : Downlink} {tx : Channel}

theorem mem_pool (h : d ∈ slot.pool stale) :
    d ∈ slot.senders ∧ (stale d.stale = false ∨ ∀ d ∈ slot.senders, stale d.stale = true) := by
  unfold pool at h
  dsimp only at h
  split at h
  · next hnone =>
    have hall := List.filter_eq_nil_iff.mp (List.eq_nil_of_length_eq_zero hnone)
    refine ⟨h, .inr fun d hd => ?_⟩
    simpa using hall d hd
  · obtain ⟨hd, hserves⟩ := List.mem_filter.mp h
    exact ⟨hd, .inl (by simpa using hserves)⟩

theorem mem_pool_of_serving (hd : d ∈ slot.senders) (hserves : stale d.stale = false) :
    d ∈ slot.pool stale := by
  have hmem : d ∈ slot.senders.filter fun d => !stale d.stale :=
    List.mem_filter.mpr ⟨hd, by simp [hserves]⟩
  unfold pool
  rw [if_neg]
  · exact hmem
  · exact (List.length_pos_of_mem hmem).ne'

theorem senders_eq_nil_of_pool (h : slot.pool stale = []) : slot.senders = [] := by
  unfold pool at h
  dsimp only at h
  split at h
  · exact h
  · next hsome => exact absurd (congrArg List.length h) hsome

theorem mem_pool_of_owner? (h : slot.owner? stale pkt = some tx) :
    ∃ d ∈ slot.pool stale, d.tx = tx := by
  obtain ⟨-, hany⟩ := Option.filter_eq_some_iff.mp h
  obtain ⟨d, hd, htx⟩ := List.any_eq_true.mp hany
  exact ⟨d, hd, of_decide_eq_true htx⟩

/-- The position of the sender a packet without a serving owner goes to, and the counter. -/
def position (slot : RouteSlot) (stale : ℕ → Bool) (pkt : List UInt8) : ℕ × UInt64 :=
  match flowHash5tuple pkt with
  | some h => (h.toNat % (slot.pool stale).length, slot.rr)
  | none => (slot.rr.toNat % (slot.pool stale).length, slot.rr + 1)

theorem position_lt (h : slot.pool stale ≠ []) (pkt) :
    (slot.position stale pkt).1 < (slot.pool stale).length := by
  have hpos := List.length_pos_iff.mpr h
  unfold position
  split
  · exact Nat.mod_lt _ hpos
  · exact Nat.mod_lt _ hpos

/-- **What is chosen**: the owner if it serves, or the sender at the position; the index the
source calls unreachable is. -/
theorem select_eq (h : slot.senders ≠ []) :
    slot.select stale pkt = some (match slot.owner? stale pkt with
      | some owner => (owner, slot.rr)
      | none => ((slot.pool stale)[(slot.position stale pkt).1]?.elim 0 Downlink.tx,
          (slot.position stale pkt).2)) := by
  have hpool : slot.pool stale ≠ [] := fun hnil => h (senders_eq_nil_of_pool hnil)
  have hlt := position_lt hpool pkt
  unfold select
  cases slot.owner? stale pkt with
  | some owner => rfl
  | none =>
    show Option.map _ ((slot.pool stale)[(slot.position stale pkt).1]? <|> _) = _
    rw [List.getElem?_eq_getElem hlt]
    rfl

theorem select_eq_none (h : slot.senders = []) : slot.select stale pkt = none := by
  have hpool : slot.pool stale = [] := by simp [pool, h]
  have howner : slot.owner? stale pkt = none := by
    unfold owner?
    rw [hpool]
    exact Option.filter_eq_none_iff.mpr fun _ _ => Bool.false_ne_true
  unfold select
  rw [howner]
  simp [hpool, h]

theorem mem_pool_of_select {rr : UInt64} (h : slot.select stale pkt = some (tx, rr)) :
    ∃ d ∈ slot.pool stale, d.tx = tx := by
  have hsenders : slot.senders ≠ [] := by
    intro hnil
    rw [select_eq_none hnil] at h
    cases h
  have hpool : slot.pool stale ≠ [] := fun hnil => hsenders (senders_eq_nil_of_pool hnil)
  have hlt := position_lt hpool pkt
  rw [select_eq hsenders] at h
  cases howner : slot.owner? stale pkt with
  | some owner =>
    rw [howner] at h
    cases h
    exact mem_pool_of_owner? howner
  | none =>
    rw [howner, List.getElem?_eq_getElem hlt] at h
    cases h
    exact ⟨_, List.getElem_mem hlt, rfl⟩

end RouteSlot

/-! ### The loop -/

namespace RouteTable

variable {A : Type} [DecidableEq A] {t t' : RouteTable A} {ip : A} {pkt : List UInt8}
  {channel : Channel → TrySend} {tx owner : Channel} {tries : List Channel} {result : Dispatched}

def senders (t : RouteTable A) (ip : A) : List Downlink :=
  (t.slots.lookup ip).elim [] RouteSlot.senders

def learnedOwner (t : RouteTable A) (ip : A) (pkt : List UInt8) : Option Channel :=
  (t.slots.lookup ip).bind fun slot => (canonicalFlowKey pkt).bind fun key => slot.flows.lookup key

/-- One turn of the loop: the channel chosen, and the table with the counter after it. -/
def choose (t : RouteTable A) (ip : A) (pkt : List UInt8) : Option (Channel × RouteTable A) :=
  (t.slots.lookup ip).bind fun slot => (slot.select t.stale pkt).map fun chosen =>
    (chosen.1, { t with slots := t.slots.insert ip { slot with rr := chosen.2 } })

/-- The loop of `dispatch`, with the channels it tries. -/
inductive Tries (ip : A) (pkt : List UInt8) (channel : Channel → TrySend) :
    RouteTable A → List Channel → Dispatched → RouteTable A → Prop
  | noRoute {t : RouteTable A} : t.choose ip pkt = none → Tries ip pkt channel t [] .noRoute t
  | sent {t t' : RouteTable A} {tx : Channel} : t.choose ip pkt = some (tx, t') →
    channel tx = .sent → Tries ip pkt channel t [tx] (.sent tx) t'
  | full {t t' : RouteTable A} {tx : Channel} : t.choose ip pkt = some (tx, t') →
    channel tx = .full → Tries ip pkt channel t [tx] (.dropped tx) t'
  | closed {t t' t'' : RouteTable A} {tx : Channel} {tries : List Channel} {result : Dispatched} :
    t.choose ip pkt = some (tx, t') → channel tx = .closed →
    Tries ip pkt channel (t'.unregisterIfOwner ip tx) tries result t'' →
    Tries ip pkt channel t (tx :: tries) result t''

theorem senders_of_lookup {slot : RouteSlot} (h : t.slots.lookup ip = some slot) :
    t.senders ip = slot.senders := by
  rw [senders, h]
  rfl

theorem dispatchLoop_succ (attempts : ℕ) (t) :
    dispatchLoop ip pkt channel (attempts + 1) t = match t.choose ip pkt with
      | none => (.noRoute, t)
      | some (tx, t') => match channel tx with
        | .sent => (.sent tx, t')
        | .full => (.dropped tx, t')
        | .closed => dispatchLoop ip pkt channel attempts (t'.unregisterIfOwner ip tx) := by
  rw [dispatchLoop, choose]
  cases t.slots.lookup ip with
  | none => rfl
  | some slot =>
    dsimp only [Option.bind_some]
    cases slot.select t.stale pkt with
    | none => rfl
    | some chosen => rfl

theorem senders_unregisterIfOwner (t : RouteTable A) (ip tx) :
    (t.unregisterIfOwner ip tx).senders ip = (t.senders ip).filter fun d => d.tx ≠ tx := by
  unfold senders
  rw [lookup_unregisterIfOwner, if_pos rfl]
  cases t.slots.lookup ip with
  | none => rfl
  | some slot =>
    dsimp only [Option.bind_some]
    split
    · next hempty => exact hempty.symm
    · rfl

theorem stale_unregisterIfOwner (t : RouteTable A) (ip tx) :
    (t.unregisterIfOwner ip tx).stale = t.stale := by
  unfold unregisterIfOwner
  split
  · rfl
  · split <;> rfl

theorem choose_eq_none (h : t.choose ip pkt = none) : t.senders ip = [] := by
  unfold choose at h
  cases hslot : t.slots.lookup ip with
  | none =>
    rw [senders, hslot]
    rfl
  | some slot =>
    rw [hslot, Option.bind_some, Option.map_eq_none_iff] at h
    rw [senders_of_lookup hslot]
    by_contra hsenders
    rw [RouteSlot.select_eq hsenders] at h
    cases h

/-- **What one turn chooses** is a sender, which is stale only if all are. -/
theorem choose_mem (h : t.choose ip pkt = some (tx, t')) :
    ∃ d ∈ t.senders ip, d.tx = tx ∧
      (t.stale d.stale = false ∨ ∀ d ∈ t.senders ip, t.stale d.stale = true) := by
  unfold choose at h
  obtain ⟨slot, hslot, h⟩ := Option.bind_eq_some_iff.mp h
  obtain ⟨chosen, hselect, h⟩ := Option.map_eq_some_iff.mp h
  cases h
  obtain ⟨d, hd, htx⟩ := RouteSlot.mem_pool_of_select hselect
  obtain ⟨hmem, hstale⟩ := RouteSlot.mem_pool hd
  rw [senders_of_lookup hslot]
  exact ⟨d, hmem, htx, hstale⟩

theorem choose_frame (h : t.choose ip pkt = some (tx, t')) :
    t'.senders ip = t.senders ip ∧ t'.stale = t.stale := by
  unfold choose at h
  obtain ⟨slot, hslot, h⟩ := Option.bind_eq_some_iff.mp h
  obtain ⟨chosen, -, h⟩ := Option.map_eq_some_iff.mp h
  cases h
  refine ⟨?_, rfl⟩
  rw [senders_of_lookup hslot, senders, AList.lookup_insert]
  rfl

/-- **The owner of the flow is chosen**, if it is a sender that is not stale. -/
theorem choose_owner (howner : t.learnedOwner ip pkt = some owner) {d : Downlink}
    (hd : d ∈ t.senders ip) (htx : d.tx = owner) (hserves : t.stale d.stale = false) :
    ∃ t', t.choose ip pkt = some (owner, t') := by
  obtain ⟨slot, hslot, howner⟩ := Option.bind_eq_some_iff.mp howner
  rw [senders_of_lookup hslot] at hd
  have hpool : (slot.pool t.stale).any (fun d => decide (d.tx = owner)) = true :=
    List.any_eq_true.mpr ⟨d, RouteSlot.mem_pool_of_serving hd hserves, decide_eq_true htx⟩
  have hserving : slot.owner? t.stale pkt = some owner :=
    Option.filter_eq_some_iff.mpr ⟨howner, hpool⟩
  unfold choose
  rw [hslot, Option.bind_some, RouteSlot.select_eq (List.ne_nil_of_mem hd), hserving]
  exact ⟨_, rfl⟩

/-- **The loop ends**: a closed channel leaves the slot, so there is one attempt per sender and
one look at the empty slot. -/
theorem dispatchLoop_tries (attempts : ℕ) (t) (h : (t.senders ip).length < attempts) :
    ∃ tries, Tries ip pkt channel t tries (dispatchLoop ip pkt channel attempts t).1
      (dispatchLoop ip pkt channel attempts t).2 := by
  induction attempts generalizing t with
  | zero => omega
  | succ attempts ih =>
    rw [dispatchLoop_succ]
    cases hchoose : t.choose ip pkt with
    | none => exact ⟨[], .noRoute hchoose⟩
    | some chosen =>
      obtain ⟨tx, t'⟩ := chosen
      dsimp only
      cases htx : channel tx with
      | sent => exact ⟨[tx], .sent hchoose htx⟩
      | full => exact ⟨[tx], .full hchoose htx⟩
      | closed =>
        obtain ⟨d, hd, hdtx, -⟩ := choose_mem hchoose
        have hfewer : ((t'.unregisterIfOwner ip tx).senders ip).length < (t.senders ip).length := by
          rw [senders_unregisterIfOwner, (choose_frame hchoose).1]
          exact List.length_filter_lt_length_iff_exists.mpr ⟨d, hd, by simp [hdtx]⟩
        obtain ⟨tries, htries⟩ := ih (t'.unregisterIfOwner ip tx) (by omega)
        exact ⟨tx :: tries, .closed hchoose htx htries⟩

theorem dispatch_tries (t : RouteTable A) (ip pkt channel) :
    ∃ tries, Tries ip pkt channel t tries (t.dispatch ip pkt channel).1
      (t.dispatch ip pkt channel).2 := by
  refine dispatchLoop_tries _ t ?_
  unfold senders
  cases t.slots.lookup ip with
  | none => exact Nat.zero_lt_succ _
  | some slot => exact Nat.lt_succ_self _

def sendersLeft (t : RouteTable A) (ip : A) (gone : List Channel) : List Downlink :=
  (t.senders ip).filter fun d => d.tx ∉ gone

theorem senders_of_closed (h : t.choose ip pkt = some (tx, t')) :
    (t'.unregisterIfOwner ip tx).senders ip = (t.senders ip).filter fun d => d.tx ≠ tx := by
  rw [senders_unregisterIfOwner, (choose_frame h).1]

theorem sendersLeft_of_closed (h : t.choose ip pkt = some (tx, t')) (gone : List Channel) :
    (t'.unregisterIfOwner ip tx).sendersLeft ip gone = t.sendersLeft ip (tx :: gone) := by
  unfold sendersLeft
  rw [senders_of_closed h, List.filter_filter]
  refine List.filter_congr fun d _ => ?_
  by_cases hd : d.tx = tx
  · simp [hd]
  · simp [hd]

theorem sendersLeft_nil (t : RouteTable A) (ip) : t.sendersLeft ip [] = t.senders ip :=
  List.filter_eq_self.mpr fun _ _ => decide_eq_true List.not_mem_nil

/-! ### What the loop does -/

namespace Tries

variable (h : Tries ip pkt channel t tries result t')
include h

theorem distinct : tries.Nodup ∧ ∀ tx ∈ tries, tx ∈ (t.senders ip).map Downlink.tx := by
  induction h with
  | noRoute => exact ⟨List.nodup_nil, fun tx htx => absurd htx List.not_mem_nil⟩
  | sent hchoose | full hchoose =>
    obtain ⟨d, hd, rfl, -⟩ := choose_mem hchoose
    refine ⟨List.nodup_singleton _, fun tx htx => ?_⟩
    rw [List.mem_singleton.mp htx]
    exact List.mem_map_of_mem hd
  | @closed t t' t'' tx tries result hchoose hclosed hrest ih =>
    obtain ⟨hnodup, hmem⟩ := ih
    rw [senders_of_closed hchoose] at hmem
    constructor
    · -- the channel has left the slot
      refine List.nodup_cons.mpr ⟨fun htx => ?_, hnodup⟩
      obtain ⟨d, hd, hdtx⟩ := List.mem_map.mp (hmem tx htx)
      exact of_decide_eq_true (List.mem_filter.mp hd).2 hdtx
    · intro tx' htx'
      rcases List.mem_cons.mp htx' with rfl | htx'
      · obtain ⟨d, hd, rfl, -⟩ := choose_mem hchoose
        exact List.mem_map_of_mem hd
      · obtain ⟨d, hd, rfl⟩ := List.mem_map.mp (hmem tx' htx')
        exact List.mem_map_of_mem (List.mem_of_mem_filter hd)

theorem closed_dropLast : ∀ tx ∈ tries.dropLast, channel tx = .closed := by
  induction h with
  | noRoute | sent | full => exact fun tx htx => absurd htx List.not_mem_nil
  | @closed t t' t'' tx tries result hchoose hclosed hrest ih =>
    intro tx' htx'
    cases tries with
    | nil => exact absurd htx' List.not_mem_nil
    | cons second tries =>
      rw [List.dropLast_cons_of_ne_nil (List.cons_ne_nil _ _)] at htx'
      rcases List.mem_cons.mp htx' with rfl | htx'
      · exact hclosed
      · exact ih tx' htx'

/-- **What becomes of the packet**: it is in the last channel tried, or that channel is full,
or no sender has an open channel. -/
theorem outcome :
    (∃ tx, result = .sent tx ∧ tries.getLast? = some tx ∧ channel tx = .sent) ∨
    (∃ tx, result = .dropped tx ∧ tries.getLast? = some tx ∧ channel tx = .full) ∨
    (result = .noRoute ∧ ∀ d ∈ t.senders ip, channel d.tx = .closed) := by
  induction h with
  | noRoute hchoose =>
    refine .inr (.inr ⟨rfl, fun d hd => ?_⟩)
    rw [choose_eq_none hchoose] at hd
    exact absurd hd List.not_mem_nil
  | sent hchoose htx => exact .inl ⟨_, rfl, rfl, htx⟩
  | full hchoose htx => exact .inr (.inl ⟨_, rfl, rfl, htx⟩)
  | @closed t t' t'' tx tries result hchoose hclosed hrest ih =>
    have hlast : ∀ last, tries.getLast? = some last → (tx :: tries).getLast? = some last := by
      intro last hlast
      rw [List.getLast?_cons, hlast]
      rfl
    rcases ih with ⟨last, hresult, hget, hchan⟩ | ⟨last, hresult, hget, hchan⟩ | ⟨hresult, hall⟩
    · exact .inl ⟨last, hresult, hlast last hget, hchan⟩
    · exact .inr (.inl ⟨last, hresult, hlast last hget, hchan⟩)
    · refine .inr (.inr ⟨hresult, fun d hd => ?_⟩)
      rw [senders_of_closed hchoose] at hall
      by_cases hdtx : d.tx = tx
      · rw [hdtx]
        exact hclosed
      · exact hall d (List.mem_filter.mpr ⟨hd, decide_eq_true hdtx⟩)

/-- **Who serves**: an attempt is on a sender that is not stale, or all that are left are. -/
theorem serving {gone rest : List Channel} (hsplit : tries = gone ++ tx :: rest) :
    ∃ d ∈ t.sendersLeft ip gone, d.tx = tx ∧
      (t.stale d.stale = false ∨ ∀ d ∈ t.sendersLeft ip gone, t.stale d.stale = true) := by
  induction h generalizing gone with
  | noRoute => simp at hsplit
  | sent hchoose | full hchoose =>
    cases gone with
    | nil =>
      cases hsplit
      rw [sendersLeft_nil]
      exact choose_mem hchoose
    | cons first gone => simp at hsplit
  | @closed t t' t'' first tries result hchoose hclosed hrest ih =>
    cases gone with
    | nil =>
      cases hsplit
      rw [sendersLeft_nil]
      exact choose_mem hchoose
    | cons first' gone =>
      -- the first channel has left; the rest of the loop is from the table without it
      obtain ⟨rfl, hrest⟩ := List.cons.inj hsplit
      have hlater := ih hrest
      rw [sendersLeft_of_closed hchoose, stale_unregisterIfOwner, (choose_frame hchoose).2]
        at hlater
      exact hlater

/-- **The owner of the flow is the one chosen**, if it is a serving sender with an open
channel. -/
theorem eq_owner
    (howner : t.learnedOwner ip pkt = some owner) {d : Downlink} (hd : d ∈ t.senders ip)
    (htx : d.tx = owner) (hserves : t.stale d.stale = false) (hopen : channel owner ≠ .closed) :
    tries = [owner] := by
  obtain ⟨t₁, hchosen⟩ := choose_owner howner hd htx hserves
  cases h with
  | noRoute hchoose =>
    rw [hchosen] at hchoose
    cases hchoose
  | sent hchoose | full hchoose =>
    rw [hchosen] at hchoose
    cases hchoose
    rfl
  | closed hchoose hclosed =>
    rw [hchosen] at hchoose
    cases hchoose
    exact absurd hclosed hopen

end Tries

end RouteTable

open RouteTable

/-- **Downlink dispatch.**  From every table and for every packet, while nothing else changes
the table or the channels, the loop of `dispatch` ends, with the channels tried in order:

* there is at most one attempt per sender of the destination's slot, each on another channel,
  and every attempt but the last found its channel closed;
* the packet is in the last channel tried, or that channel is open and full, or all the
  senders of the slot have closed channels;
* if the owner learned for the flow is a sender that is not stale and its channel is open,
  it is the only channel tried;
* a channel is tried for a sender that is not stale, unless all the senders are stale that the
  attempts before have left in the slot. -/
theorem dispatch_delivers {A : Type} [DecidableEq A] (t : RouteTable A) (ip : A)
    (pkt : List UInt8) (channel : Channel → TrySend) :
    ∃ tries, Tries ip pkt channel t tries (t.dispatch ip pkt channel).1
        (t.dispatch ip pkt channel).2 ∧
      tries.length ≤ (t.senders ip).length ∧ tries.Nodup ∧
      (∀ tx ∈ tries, tx ∈ (t.senders ip).map Downlink.tx) ∧
      (∀ tx ∈ tries.dropLast, channel tx = .closed) ∧
      ((∃ tx, (t.dispatch ip pkt channel).1 = .sent tx ∧ tries.getLast? = some tx ∧
          channel tx = .sent) ∨
        (∃ tx, (t.dispatch ip pkt channel).1 = .dropped tx ∧ tries.getLast? = some tx ∧
          channel tx = .full) ∨
        ((t.dispatch ip pkt channel).1 = .noRoute ∧
          ∀ d ∈ t.senders ip, channel d.tx = .closed)) ∧
      (∀ owner, t.learnedOwner ip pkt = some owner →
        (∃ d ∈ t.senders ip, d.tx = owner ∧ t.stale d.stale = false) → channel owner ≠ .closed →
        tries = [owner]) ∧
      ∀ gone tx rest, tries = gone ++ tx :: rest →
        ∃ d ∈ t.sendersLeft ip gone, d.tx = tx ∧
          (t.stale d.stale = false ∨ ∀ d ∈ t.sendersLeft ip gone, t.stale d.stale = true) := by
  obtain ⟨tries, h⟩ := dispatch_tries t ip pkt channel
  obtain ⟨hnodup, hmem⟩ := h.distinct
  have hlength : tries.length ≤ (t.senders ip).length := by
    rw [← List.length_map Downlink.tx]
    exact (hnodup.subperm hmem).length_le
  refine ⟨tries, h, hlength, hnodup, hmem, h.closed_dropLast, h.outcome, ?_, ?_⟩
  · rintro owner howner ⟨d, hd, htx, hserves⟩ hopen
    exact h.eq_owner howner hd htx hserves hopen
  · intro gone tx rest hsplit
    exact h.serving hsplit

end WarrenGuard.Router
