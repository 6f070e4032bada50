/-
Who owns the flows of a route slot (`RouteTable` of
`warrenguard-multihop-server/src/multihop.rs`).

The downlink prefers the owner of a flow, so the owners should be senders.  A sender that leaves
through `unregisterIfOwner` takes its flows with it (`RouteTable.Pruned`):

* `RouteSlot.Formed` — a slot has between one and sixteen senders, and no channel twice;
* `flow_owners_registered` — the flows of a slot are owned by its senders, where who learns a flow
  is a sender, and who makes room in a full slot owns none; `flow_owner_gone` — otherwise they are
  not.
-/
import WarrenGuard.RouteTable
import WarrenGuard.Transition

namespace WarrenGuard.Router

/-! ### Slots -/

namespace RouteSlot

variable {slot : RouteSlot} {tx owner : Channel}

/-- Between one and sixteen senders, no channel twice. -/
structure Formed (slot : RouteSlot) : Prop where
  nonempty : slot.senders ≠ []
  bounded : slot.senders.length ≤ maxSendersPerIp
  distinct : slot.channels.Nodup

def Owned (slot : RouteSlot) : Prop :=
  ∀ key owner, slot.flows.lookup key = some owner → owner ∈ slot.channels

theorem channels_without : (slot.without owner).channels = slot.channels.filter (· ≠ owner) := by
  unfold channels without
  rw [List.filter_map]
  rfl

theorem channels_attachLiveness (activity : ℕ) (peer : Option ℕ) :
    (slot.attachLiveness tx activity peer).channels = slot.channels := by
  unfold channels attachLiveness
  refine List.ext_getElem? fun i => ?_
  rw [List.getElem?_map, List.getElem?_map, List.getElem?_modify]
  cases slot.senders[i]? with
  | none => rfl
  | some d =>
    by_cases hi : slot.senders.findIdx (fun d => decide (d.tx = tx)) = i
    · simp [hi]
    · simp [hi]

theorem victim_lt (h : slot.senders ≠ []) (isClosed : ℕ → Bool) :
    slot.victim isClosed < slot.senders.length := by
  unfold victim
  cases hfound : slot.senders.findIdx? fun d => d.peer.any isClosed with
  | none => exact List.length_pos_iff.mpr h
  | some i => exact (List.findIdx?_eq_some_iff_findIdx_eq.mp hfound).1

/-! What the operations do to the senders. -/

theorem Formed.new (tx : Channel) (cell : ℕ) : Formed (.new tx cell) :=
  ⟨List.cons_ne_nil _ _, show 1 ≤ 16 by decide, List.nodup_singleton tx⟩

theorem Formed.push (h : Formed slot) (htx : tx ∉ slot.channels) (cell : ℕ)
    (isClosed : ℕ → Bool) : Formed (slot.push tx cell isClosed) := by
  have hlt := victim_lt h.nonempty isClosed
  have hbound := h.bounded
  unfold RouteSlot.push
  refine ⟨List.append_ne_nil_of_right_ne_nil _ (List.cons_ne_nil _ _), ?_, ?_⟩
  · show (_ ++ [_]).length ≤ _
    rw [List.length_append, List.length_singleton]
    split
    · rw [List.length_eraseIdx_of_lt hlt]
      omega
    · omega
  · show ((_ ++ [_]).map Downlink.tx).Nodup
    rw [List.map_append, List.map_singleton]
    -- what is left of the senders are some of their channels, the new one not among them
    have hsub : ((if maxSendersPerIp ≤ slot.senders.length then
        slot.senders.eraseIdx (slot.victim isClosed) else slot.senders).map Downlink.tx).Sublist
        slot.channels := by
      split
      · exact (List.eraseIdx_sublist _ _).map _
      · exact List.Sublist.refl _
    refine List.nodup_append.mpr ⟨h.distinct.sublist hsub, List.nodup_singleton tx, ?_⟩
    rintro a ha b hb rfl
    have hnew : a = tx := List.mem_singleton.mp hb
    exact htx (hnew ▸ hsub.mem ha)

theorem Formed.of_channels {slot' : RouteSlot} (h : Formed slot)
    (hsame : slot'.channels = slot.channels) : Formed slot' := by
  have hlength : slot'.senders.length = slot.senders.length := by
    have := congrArg List.length hsame
    rwa [channels, channels, List.length_map, List.length_map] at this
  refine ⟨?_, hlength ▸ h.bounded, hsame ▸ h.distinct⟩
  have hpos := List.length_pos_iff.mpr h.nonempty
  exact List.length_pos_iff.mp (hlength ▸ hpos)

theorem Formed.without (h : Formed slot) (hrest : (slot.without owner).senders ≠ []) :
    Formed (slot.without owner) := by
  refine ⟨hrest, (List.length_filter_le _ _).trans h.bounded, ?_⟩
  rw [channels_without]
  exact h.distinct.filter _

/-! What the operations do to the flows. -/

theorem Owned.new (tx : Channel) (cell : ℕ) : Owned (.new tx cell) := nofun

theorem Owned.without (h : Owned slot) : Owned (slot.without owner) := by
  intro key owner' hl
  rw [show (slot.without owner).flows.lookup key = _ from Table.lookup_retain ..] at hl
  obtain ⟨hl, hne⟩ := Option.filter_eq_some_iff.mp hl
  rw [channels_without]
  exact List.mem_filter.mpr ⟨h key owner' hl, hne⟩

def MayPush (slot : RouteSlot) (tx : Channel) (isClosed : ℕ → Bool) : Prop :=
  tx ∈ slot.channels ∨ slot.senders.length < maxSendersPerIp ∨
    ∀ e ∈ slot.flows.entries, (slot.senders[slot.victim isClosed]?).map Downlink.tx ≠ some e.2

/-- Who learns a flow is a sender, or the flow is known. -/
def MayNote (slot : RouteSlot) (key : UInt64) (tx : Channel) : Prop :=
  (slot.flows.lookup key).isSome ∨ tx ∈ slot.channels

instance (slot : RouteSlot) (tx : Channel) (isClosed : ℕ → Bool) :
    Decidable (slot.MayPush tx isClosed) := inferInstanceAs (Decidable (_ ∨ _ ∨ _))

instance (slot : RouteSlot) (key : UInt64) (tx : Channel) : Decidable (slot.MayNote key tx) :=
  inferInstanceAs (Decidable (_ ∨ _))

theorem Owned.push (h : Owned slot) {isClosed : ℕ → Bool} (hok : slot.MayPush tx isClosed)
    (htx : tx ∉ slot.channels) (cell : ℕ) : Owned (slot.push tx cell isClosed) := by
  intro key owner hl
  show owner ∈ (_ ++ [_]).map Downlink.tx
  rw [List.map_append]
  refine List.mem_append_left _ ?_
  have hmem := h key owner hl
  split
  · rename_i hfull
    rcases hok with hin | hroom | hspared
    · exact absurd hin htx
    · omega
    · -- the owner of a flow is not the sender that makes room
      obtain ⟨d, hd, rfl⟩ := List.mem_map.mp hmem
      obtain ⟨i, hi⟩ := List.mem_iff_getElem?.mp hd
      refine List.mem_map_of_mem (List.mem_eraseIdx_iff_getElem?.mpr ⟨i, ?_, hi⟩)
      rintro rfl
      exact hspared ⟨key, d.tx⟩ (Table.mem_entries_iff.mpr hl) (by rw [hi]; rfl)
  · exact hmem

theorem Owned.noteFlow (h : Owned slot) {key : UInt64} (hok : slot.MayNote key tx) (pick : ℕ) :
    Owned (slot.noteFlow key tx pick) := by
  unfold RouteSlot.noteFlow
  split
  · exact h
  · rename_i hnew
    have htx : tx ∈ slot.channels := hok.resolve_left hnew
    intro key' owner hl
    show owner ∈ slot.channels
    rw [Table.lookup_insert'] at hl
    split at hl
    · cases hl
      exact htx
    · -- the flows that were there, less one at the cap
      split at hl
      · split at hl
        · rw [Table.lookup_erase'] at hl
          split at hl
          · cases hl
          · exact h key' owner hl
        · exact h key' owner hl
      · exact h key' owner hl

end RouteSlot

/-! ### Tables -/

namespace RouteTable

variable {A : Type} [DecidableEq A] {P : RouteSlot → Prop} {t t' : RouteTable A} {ip : A}
  {slot : RouteSlot}

def Each (P : RouteSlot → Prop) (t : RouteTable A) : Prop :=
  ∀ ⦃ip slot⦄, t.slots.lookup ip = some slot → P slot

theorem Each.insert (h : Each P t) (hslot : P slot) (hslots : t'.slots = t.slots.insert ip slot) :
    Each P t' := by
  intro ip' slot' hl
  rw [hslots, Table.lookup_insert'] at hl
  split at hl
  · cases hl
    exact hslot
  · exact h hl

/-- **The rule for senders that leave.** -/
theorem Each.pruned
    (hwithout : ∀ {slot owner}, P slot → (RouteSlot.without slot owner).senders ≠ [] →
      P (slot.without owner))
    (hcounter : ∀ {slot : RouteSlot} (rr), P slot → P { slot with rr := rr })
    (hp : Pruned t t') (h : Each P t) : Each P t' := by
  induction hp with
  | refl => exact h
  | unregister _ ip owner ih =>
    intro ip' slot' hl
    rw [lookup_unregisterIfOwner] at hl
    split at hl
    · obtain ⟨slot, hslot, hl⟩ := Option.bind_eq_some_iff.mp hl
      split at hl
      · cases hl
      · rename_i hrest
        cases hl
        exact hwithout (ih hslot) hrest
    · exact ih hl
  | counter _ hslot rr ih => exact ih.insert (hcounter rr (ih hslot)) rfl
  | stale _ stale ih => exact ih

end RouteTable

/-! ### Runs -/

/-- The table of one address family, with what its patrol and the takeovers remember. -/
structure Routing (A : Type) [DecidableEq A] where
  table : RouteTable A
  watches : Table A (List PatrolWatch)
  takeovers : ℕ → Option (A × List PredecessorSnapshot)

inductive RouteEvent (A : Type) where
  | register (ip : A) (tx : Channel) (isClosed : ℕ → Bool)
  | attachLiveness (ip : A) (tx : Channel) (activity : ℕ) (peer : Option ℕ)
  | noteFlow (ip : A) (key : UInt64) (tx : Channel) (pick : ℕ)
  | unregisterIfOwner (ip : A) (tx : Channel)
  /-- A takeover looks at who is there. -/
  | snapshot (takeover : ℕ) (ip : A) (newcomer : Channel) (readings : Readings)
  | evict (takeover : ℕ) (convictOnSilence : Bool) (readings : Readings)
  | patrol (readings : Readings)
  | dispatch (ip : A) (pkt : List UInt8) (channel : Channel → TrySend)

namespace Routing

open RouteTable

variable {A : Type} [DecidableEq A]

def start : Routing A := ⟨.new, ∅, fun _ => none⟩

def evict (s : Routing A) (takeover : ℕ) (convictOnSilence : Bool) (r : Readings) : Routing A :=
  match s.takeovers takeover with
  | none => s
  | some (ip, snapshot) =>
    let (_, kept, table) := s.table.evictStalePredecessors ip convictOnSilence r snapshot
    { s with table, takeovers := Function.update s.takeovers takeover (some (ip, kept)) }

def step (s : Routing A) : RouteEvent A → Routing A
  | .register ip tx isClosed => { s with table := s.table.register ip tx isClosed }
  | .attachLiveness ip tx activity peer =>
    { s with table := s.table.attachLiveness ip tx activity peer }
  | .noteFlow ip key tx pick => { s with table := s.table.noteFlow ip key tx pick }
  | .unregisterIfOwner ip tx => { s with table := s.table.unregisterIfOwner ip tx }
  | .snapshot takeover ip newcomer r =>
    { s with
      takeovers := Function.update s.takeovers takeover
        (some (ip, s.table.snapshotPredecessors ip newcomer r)) }
  | .evict takeover convictOnSilence r => s.evict takeover convictOnSilence r
  | .patrol r =>
    let (_, watches, table) := s.table.patrolRound s.watches r
    { s with table, watches }
  | .dispatch ip pkt channel => { s with table := (s.table.dispatch ip pkt channel).2 }

def Reachable (ok : Routing A → RouteEvent A → Prop) : Routing A → Prop :=
  Transition.Reachable (· = start) (Transition.Guarded ok step)

def Learned (s : Routing A) : RouteEvent A → Prop
  | .register ip tx isClosed => ∀ slot ∈ s.table.slots.lookup ip, slot.MayPush tx isClosed
  | .noteFlow ip key tx _ => ∀ slot ∈ s.table.slots.lookup ip, slot.MayNote key tx
  | _ => True

instance (s : Routing A) : (e : RouteEvent A) → Decidable (s.Learned e)
  | .register ip tx isClosed =>
    inferInstanceAs (Decidable (∀ slot ∈ s.table.slots.lookup ip, slot.MayPush tx isClosed))
  | .noteFlow ip key tx _ =>
    inferInstanceAs (Decidable (∀ slot ∈ s.table.slots.lookup ip, slot.MayNote key tx))
  | .attachLiveness _ _ _ _ | .unregisterIfOwner _ _ | .snapshot _ _ _ _ | .evict _ _ _ | .patrol _
  | .dispatch _ _ _ => inferInstanceAs (Decidable True)

variable {s : Routing A} {P : RouteSlot → Prop}

/-- **The rule for one call**: what it can do to a slot. -/
theorem each_step (hnew : ∀ tx cell, P (.new tx cell))
    (hchannels : ∀ {slot : RouteSlot} (tx activity peer), P slot →
      P (slot.attachLiveness tx activity peer))
    (hwithout : ∀ {slot owner}, P slot → (RouteSlot.without slot owner).senders ≠ [] →
      P (slot.without owner))
    (hcounter : ∀ {slot : RouteSlot} (rr), P slot → P { slot with rr := rr }) {e : RouteEvent A}
    (hpush : ∀ {ip tx isClosed slot}, e = .register ip tx isClosed →
      s.table.slots.lookup ip = some slot → tx ∉ slot.channels → P slot →
      P (slot.push tx s.table.cells isClosed))
    (hnote : ∀ {ip key tx pick slot}, e = .noteFlow ip key tx pick →
      s.table.slots.lookup ip = some slot → P slot → P (slot.noteFlow key tx pick))
    (h : Each P s.table) : Each P (s.step e).table := by
  cases e with
  | register ip tx isClosed =>
    show Each P (s.table.register ip tx isClosed)
    unfold RouteTable.register
    split
    · exact h.insert (hnew tx _) rfl
    · rename_i slot hslot
      split
      · exact h
      · rename_i htx
        exact h.insert (hpush rfl hslot htx (h hslot)) rfl
  | attachLiveness ip tx activity peer =>
    show Each P (s.table.attachLiveness ip tx activity peer)
    unfold RouteTable.attachLiveness
    split
    · exact h
    · rename_i slot hslot
      exact h.insert (hchannels tx activity peer (h hslot)) rfl
  | noteFlow ip key tx pick =>
    show Each P (s.table.noteFlow ip key tx pick)
    unfold RouteTable.noteFlow
    split
    · exact h
    · rename_i slot hslot
      exact h.insert (hnote rfl hslot (h hslot)) rfl
  | unregisterIfOwner ip tx => exact h.pruned hwithout hcounter ((Pruned.refl _).unregister ip tx)
  | snapshot => exact h
  | evict takeover convictOnSilence r =>
    show Each P (s.evict takeover convictOnSilence r).table
    unfold Routing.evict
    split
    · exact h
    · exact h.pruned hwithout hcounter (pruned_evictStalePredecessors ..)
  | patrol r => exact h.pruned hwithout hcounter (pruned_patrolRound ..)
  | dispatch ip pkt channel => exact h.pruned hwithout hcounter (pruned_dispatch ..)

/-- **Slots are well formed**, whatever is called. -/
theorem Reachable.formed {ok : Routing A → RouteEvent A → Prop} (h : s.Reachable ok) :
    Each RouteSlot.Formed s.table := by
  refine Transition.Reachable.invariant (I := fun s : Routing A => Each RouteSlot.Formed s.table)
    ?_ ?_ h
  · rintro s rfl
    exact nofun
  · rintro s s' hs ⟨e, -, rfl⟩
    refine each_step RouteSlot.Formed.new ?_ RouteSlot.Formed.without ?_ ?_ ?_ hs
    · intro slot tx activity peer hslot
      exact hslot.of_channels (RouteSlot.channels_attachLiveness activity peer)
    · intro slot rr hslot
      exact hslot.of_channels rfl
    · intro ip tx isClosed slot _ _ htx hslot
      exact hslot.push htx _ _
    · intro ip key tx pick slot _ _ hslot
      refine hslot.of_channels ?_
      unfold RouteSlot.noteFlow
      split <;> rfl

/-- **The owners of flows are senders**, as long as only senders learn flows. -/
theorem Reachable.owned (h : s.Reachable Learned) : Each RouteSlot.Owned s.table := by
  refine Transition.Reachable.invariant (I := fun s : Routing A => Each RouteSlot.Owned s.table)
    ?_ ?_ h
  · rintro s rfl
    exact nofun
  · rintro s s' hs ⟨e, hok, rfl⟩
    refine each_step RouteSlot.Owned.new ?_ (fun hslot _ => hslot.without) ?_ ?_ ?_ hs
    · intro slot tx activity peer hslot key owner hl
      rw [RouteSlot.channels_attachLiveness]
      exact hslot key owner hl
    · intro slot rr hslot
      exact hslot
    · rintro ip tx isClosed slot rfl hl htx hslot
      exact hslot.push (hok slot hl) htx _
    · rintro ip key tx pick slot rfl hl hslot
      exact hslot.noteFlow (hok slot hl) pick

end Routing

open Routing

/-- **Flow owners are registered.**  After any sequence of calls on any addresses and channels
in which a sender that makes room owns no flow, and who learns a flow is a sender or the
flow is known: every slot has between one and sixteen senders, no channel twice, and every
flow of a slot is owned by one of its senders. -/
theorem flow_owners_registered {A : Type} [DecidableEq A] {s : Routing A}
    (h : s.Reachable Learned) {ip : A} {slot : RouteSlot}
    (hl : s.table.slots.lookup ip = some slot) :
    1 ≤ slot.senders.length ∧ slot.senders.length ≤ 16 ∧ slot.channels.Nodup ∧
      ∀ key owner, slot.flows.lookup key = some owner → owner ∈ slot.channels := by
  have hformed := h.formed hl
  exact ⟨List.length_pos_iff.mpr hformed.nonempty, hformed.bounded, hformed.distinct, h.owned hl⟩

def learnedAgain : List (RouteEvent Ipv4Addr) :=
  [.register 10 1 fun _ => false, .register 10 2 fun _ => false, .noteFlow 10 100 1 0,
    .noteFlow 10 200 2 0, .unregisterIfOwner 10 1, .noteFlow 10 100 2 0]

theorem flow_owners_registered_again : ∃ (s : Routing Ipv4Addr) (slot : RouteSlot),
    s.Reachable Learned ∧ s.table.slots.lookup 10 = some slot ∧
    slot.flows.lookup 100 = some 2 ∧ slot.channels = [2] ∧
    ∀ key owner, slot.flows.lookup key = some owner → owner ∈ slot.channels := by
  have hstart : (start : Routing Ipv4Addr).Reachable Learned := .start rfl
  have hreach : (learnedAgain.foldl step start).Reachable Learned := hstart.run (by decide)
  obtain ⟨slot, hl⟩ := Option.isSome_iff_exists.mp
    (show ((learnedAgain.foldl step start).table.slots.lookup 10).isSome = true by decide)
  have hflow : ((learnedAgain.foldl step start).table.slots.lookup 10).map
      (fun slot => (slot.flows.lookup 100, slot.channels)) = some (some 2, [2]) := by decide
  rw [hl] at hflow
  obtain ⟨hflow, hchannels⟩ := Prod.mk.inj (Option.some.inj hflow)
  exact ⟨_, slot, hreach, hl, hflow, hchannels, (flow_owners_registered hreach hl).2.2.2⟩

def oneTooMany : List (RouteEvent Ipv4Addr) :=
  (List.range 16).map (fun tx => .register 10 tx fun _ => false) ++
    [.noteFlow 10 100 0 0, .register 10 16 fun _ => false]

def notedLate : List (RouteEvent Ipv4Addr) :=
  [.register 10 1 fun _ => false, .register 10 2 fun _ => false, .unregisterIfOwner 10 1,
    .noteFlow 10 100 1 0, .noteFlow 10 100 2 0]

/-- **A flow keeps an owner that is gone**: the sender that makes room leaves its flow behind;
and a connection that is no sender learns one, which the sender that is there then cannot. -/
theorem flow_owner_gone :
    (∃ s : Routing Ipv4Addr, s.Reachable (fun _ _ => True) ∧
      (s.table.slots.lookup 10).map (fun slot =>
        (slot.flows.lookup 100, decide (0 ∈ slot.channels), slot.channels.length)) =
          some (some 0, false, 16)) ∧
    ∃ s : Routing Ipv4Addr, s.Reachable (fun _ _ => True) ∧
      (s.table.slots.lookup 10).map (fun slot => (slot.flows.lookup 100, slot.channels)) =
        some (some 1, [2]) := by
  have hstart : (start : Routing Ipv4Addr).Reachable fun _ _ => True := .start rfl
  have hreach : ∀ es : List (RouteEvent Ipv4Addr),
      (es.foldl step start).Reachable fun _ _ => True :=
    fun es => hstart.foldl (fun _ e => ⟨e, trivial, rfl⟩) es
  exact ⟨⟨_, hreach oneTooMany, by decide⟩, ⟨_, hreach notedLate, by decide⟩⟩

end WarrenGuard.Router
