/-
Flows are learned again (`FlowNoter` of `warrenguard-multihop-server/src/datapath.rs`, and the
route slots of `multihop.rs`).

The pump of a connection announces to the router only the flows that it does not remember to have
announced.  But a flow loses its owner when that leaves, and no pump is told.

* `Learning` — the connections of one address, with their memos;
* `flow_relearned` — a flow has an owner after each packet of it, where no flow is forgotten that
  a sender still remembers (`Relearns`);
* `flow_not_relearned` — a flow that two connections carry has none after the first of them
  leaves.

Design notes: whoever evicts a connection calls `unregister_if_owner` for it, as its end does, so
both are `leave`.  A connection that registers again has the memo it had.
-/
import WarrenGuard.FlowOwners

namespace WarrenGuard.Router

open RouteSlot

open Uplink (FlowNoter canonicalFlowKey flowTableCapPerIp)

/-- The route table and, for each connection, the flows that its pump has announced. -/
structure Learning (A : Type) [DecidableEq A] where
  table : RouteTable A
  memo : Channel → FlowNoter

inductive LearnEvent where
  | register (tx : Channel) (isClosed : ℕ → Bool)
  | attachLiveness (tx : Channel) (activity : ℕ) (peer : Option ℕ)
  /-- The connection ends or is evicted. -/
  | leave (tx : Channel)
  | uplink (tx : Channel) (pkt : List UInt8) (pick : ℕ)

/-- The flow that is forgotten for a new one. -/
def RouteSlot.forgotten (slot : RouteSlot) (pick : ℕ) : Option UInt64 :=
  if flowTableCapPerIp ≤ slot.flows.keys.length then
    slot.flows.keys[pick % slot.flows.keys.length]?
  else none

theorem RouteSlot.channels_noteFlow (slot : RouteSlot) (key : UInt64) (tx : Channel) (pick : ℕ) :
    (slot.noteFlow key tx pick).channels = slot.channels := by
  unfold noteFlow
  split <;> rfl

theorem RouteSlot.mem_channels_push {slot : RouteSlot} {tx tx' : Channel} {cell : ℕ}
    {isClosed : ℕ → Bool} (h : tx' ∈ (slot.push tx cell isClosed).channels) :
    tx' ∈ slot.channels ∨ tx' = tx := by
  change tx' ∈ (_ ++ [_]).map Downlink.tx at h
  rw [List.map_append, List.mem_append, List.map_singleton, List.mem_singleton] at h
  refine h.imp_left fun hmem => ?_
  split at hmem
  · exact List.map_subset _ (List.eraseIdx_subset ..) hmem
  · exact hmem

namespace Learning

variable {A : Type} [DecidableEq A]

def start : Learning A := ⟨.new, fun _ => ∅⟩

/-- `note_uplink`, for a packet from the address. -/
def noteUplink (ip : A) (t : RouteTable A) (pkt : List UInt8) (owner : Channel) (pick : ℕ) :
    RouteTable A :=
  match canonicalFlowKey pkt with
  | none => t
  | some key => t.noteFlow ip key owner pick

def uplink (ip : A) (s : Learning A) (tx : Channel) (pkt : List UInt8) (pick : ℕ) : Learning A :=
  let noted := (s.memo tx).isFirstOfFlow pkt
  { table := if noted.1 then noteUplink ip s.table pkt tx pick else s.table
    memo := Function.update s.memo tx noted.2 }

def step (ip : A) (s : Learning A) : LearnEvent → Learning A
  | .register tx isClosed => { s with table := s.table.register ip tx isClosed }
  | .attachLiveness tx activity peer =>
    { s with table := s.table.attachLiveness ip tx activity peer }
  | .leave tx => { s with table := s.table.unregisterIfOwner ip tx }
  | .uplink tx pkt pick => s.uplink ip tx pkt pick

/-- **What does not go wrong**: who makes room owns no flow, and who announces a flow is a sender;
a new connection remembers only flows with an owner; and a flow that loses its owner is remembered
by none of the senders that stay. -/
def Relearns (ip : A) (s : Learning A) : LearnEvent → Prop
  | .register tx isClosed =>
    (∀ slot ∈ s.table.slots.lookup ip, slot.MayPush tx isClosed) ∧
      ∀ key ∈ s.memo tx, ∃ slot ∈ s.table.slots.lookup ip, (slot.flows.lookup key).isSome = true
  | .attachLiveness _ _ _ => True
  | .leave tx => ∀ slot ∈ s.table.slots.lookup ip, ∀ e ∈ slot.flows.entries, e.2 = tx →
      ∀ other ∈ slot.channels, other ≠ tx → e.1 ∉ s.memo other
  | .uplink tx pkt pick => ((s.memo tx).isFirstOfFlow pkt).1 = true →
      ∀ slot ∈ s.table.slots.lookup ip, (∀ key ∈ canonicalFlowKey pkt, slot.MayNote key tx) ∧
        ∀ key ∈ slot.forgotten pick, ∀ other ∈ slot.channels, key ∉ s.memo other

-- The keys are of a finite type, so a search for these instances may find one that tries them all.
instance (ip : A) (s : Learning A) : (e : LearnEvent) → Decidable (s.Relearns ip e)
  | .register _ _ => @instDecidableAnd _ _ inferInstance Finset.decidableDforallFinset
  | .attachLiveness _ _ _ => inferInstanceAs (Decidable True)
  | .leave tx => inferInstanceAs (Decidable (∀ slot ∈ s.table.slots.lookup ip,
      ∀ e ∈ slot.flows.entries, e.2 = tx →
        ∀ other ∈ slot.channels, other ≠ tx → e.1 ∉ s.memo other))
  | .uplink _ _ _ => @instDecidableForall _ _ inferInstance (@Option.decidableForallMem _ _
      (fun _ =>
        @instDecidableAnd _ _ (Option.decidableForallMem _) (Option.decidableForallMem _)) _)

def Reached (ip : A) (ok : Learning A → LearnEvent → Prop) : Learning A → Prop :=
  Transition.Reachable (· = start) (Transition.Guarded ok (step ip))

variable {ip : A} {s : Learning A} {slot : RouteSlot} {tx : Channel} {pkt : List UInt8}
  {key : UInt64}

/-! ### One step -/

/-- **The memos are right**: the owners of flows are senders, and what a sender remembers has an
owner. -/
def Right (ip : A) (s : Learning A) : Prop :=
  ∀ slot, s.table.slots.lookup ip = some slot → slot.Owned ∧
    ∀ tx ∈ slot.channels, ∀ key ∈ s.memo tx, (slot.flows.lookup key).isSome = true

theorem isSome_lookup_noteFlow {key' : UInt64} {pick : ℕ}
    (h : key' = key ∨ (slot.flows.lookup key').isSome = true ∧ key' ∉ slot.forgotten pick) :
    ((slot.noteFlow key tx pick).flows.lookup key').isSome = true := by
  unfold noteFlow
  split
  · rename_i hknown
    rcases h with rfl | ⟨hknown', -⟩
    · exact hknown
    · exact hknown'
  · dsimp only
    rw [Table.lookup_insert']
    split
    · rfl
    · rename_i hne
      obtain ⟨hknown, hstays⟩ := h.resolve_left hne
      unfold forgotten at hstays
      split
      · rename_i hfull
        rw [if_pos hfull] at hstays
        split
        · rename_i victim hvictim
          rw [Table.lookup_erase', if_neg]
          · exact hknown
          · rintro rfl
            exact hstays hvictim
        · exact hknown
      · exact hknown

theorem uplink_of_none (hkey : canonicalFlowKey pkt = none) (pick : ℕ) :
    s.uplink ip tx pkt pick = s := by
  have hsame : (s.memo tx).isFirstOfFlow pkt = (false, s.memo tx) := by
    unfold Uplink.FlowNoter.isFirstOfFlow
    rw [hkey]
  unfold uplink
  rw [hsame]
  dsimp only
  rw [Function.update_eq_self]
  rfl

/-- **A packet of a flow** that the connection remembers changes nothing; another one is announced,
and remembered with some of what was. -/
theorem uplink_of_some (ip) (s : Learning A) (tx)
    (hkey : canonicalFlowKey pkt = some key) (pick : ℕ) :
    ∃ flows, key ∈ flows ∧ flows ⊆ insert key (s.memo tx) ∧
      (key ∈ s.memo tx ∧
          s.uplink ip tx pkt pick = ⟨s.table, Function.update s.memo tx flows⟩ ∨
        ((s.memo tx).isFirstOfFlow pkt).1 = true ∧ s.uplink ip tx pkt pick
          = ⟨s.table.noteFlow ip key tx pick, Function.update s.memo tx flows⟩) := by
  have hmemo : (s.memo tx).isFirstOfFlow pkt = (decide (key ∉ if flowTableCapPerIp ≤
      (s.memo tx).card then ∅ else s.memo tx), insert key (if flowTableCapPerIp ≤
      (s.memo tx).card then ∅ else s.memo tx)) := by
    unfold Uplink.FlowNoter.isFirstOfFlow
    rw [hkey]
  have hsub : (if flowTableCapPerIp ≤ (s.memo tx).card then ∅ else s.memo tx) ⊆ s.memo tx := by
    split
    · exact Finset.empty_subset _
    · exact Finset.Subset.refl _
  unfold uplink noteUplink
  rw [hmemo, hkey]
  generalize (if flowTableCapPerIp ≤ (s.memo tx).card then ∅ else s.memo tx) = kept at hsub
  refine ⟨insert key kept, Finset.mem_insert_self _ _, Finset.insert_subset_insert _ hsub, ?_⟩
  by_cases hfirst : key ∈ kept
  · exact .inl ⟨hsub hfirst, by simp [hfirst]⟩
  · exact .inr ⟨by simp [hfirst], by simp [hfirst]⟩

theorem Right.register (h : Right ip s) {isClosed : ℕ → Bool}
    (hok : s.Relearns ip (.register tx isClosed)) :
    Right ip (s.step ip (.register tx isClosed)) := by
  obtain ⟨hpush, hmemo⟩ := hok
  intro slot hslot
  change (s.table.register ip tx isClosed).slots.lookup ip = some slot at hslot
  unfold RouteTable.register at hslot
  split at hslot
  · -- the first sender of the address remembers nothing
    rename_i hnone
    rw [show (s.table.putFresh ip _).slots.lookup ip = _ from AList.lookup_insert _] at hslot
    cases hslot
    refine ⟨.new tx _, fun tx' htx' key hkey => ?_⟩
    obtain rfl : tx' = tx := List.mem_singleton.mp htx'
    obtain ⟨slot, hslot, -⟩ := hmemo key hkey
    rw [hnone] at hslot
    cases hslot
  · rename_i slot' hslot'
    obtain ⟨howned, hright⟩ := h slot' hslot'
    split at hslot
    · cases hslot'.symm.trans hslot
      exact ⟨howned, hright⟩
    · rename_i hnew
      rw [show (s.table.putFresh ip _).slots.lookup ip = _ from AList.lookup_insert _] at hslot
      cases hslot
      refine ⟨howned.push (hpush slot' hslot') hnew _, fun tx' htx' key hkey => ?_⟩
      rcases mem_channels_push htx' with hold | rfl
      · exact hright tx' hold key hkey
      · obtain ⟨slot'', hslot'', hknown⟩ := hmemo key hkey
        cases hslot'.symm.trans hslot''
        exact hknown

theorem Right.attachLiveness (h : Right ip s) (tx) (activity : ℕ) (peer : Option ℕ) :
    Right ip (s.step ip (.attachLiveness tx activity peer)) := by
  intro slot hslot
  change (s.table.attachLiveness ip tx activity peer).slots.lookup ip = some slot at hslot
  unfold RouteTable.attachLiveness at hslot
  split at hslot
  · rename_i hnone
    rw [hnone] at hslot
    cases hslot
  · rename_i slot' hslot'
    rw [AList.lookup_insert] at hslot
    cases hslot
    obtain ⟨howned, hright⟩ := h slot' hslot'
    unfold RouteSlot.Owned
    rw [channels_attachLiveness]
    exact ⟨howned, hright⟩

theorem Right.leave (h : Right ip s) (hok : s.Relearns ip (.leave tx)) :
    Right ip (s.step ip (.leave tx)) := by
  intro slot hslot
  change (s.table.unregisterIfOwner ip tx).slots.lookup ip = some slot at hslot
  rw [RouteTable.lookup_unregisterIfOwner, if_pos rfl] at hslot
  obtain ⟨slot', hslot', hslot⟩ := Option.bind_eq_some_iff.mp hslot
  split at hslot
  · cases hslot
  cases hslot
  obtain ⟨howned, hright⟩ := h slot' hslot'
  refine ⟨howned.without, fun other hother key hkey => ?_⟩
  rw [channels_without] at hother
  obtain ⟨hsender, hne⟩ := List.mem_filter.mp hother
  obtain ⟨owner, howner⟩ := Option.isSome_iff_exists.mp (hright other hsender key hkey)
  rw [show (slot'.without tx).flows.lookup key = _ from Table.lookup_retain .., howner]
  have hstays : owner ≠ tx := by
    rintro rfl
    exact hok slot' hslot' ⟨key, owner⟩ (Table.mem_entries_iff.mpr howner) rfl other hsender
      (of_decide_eq_true hne) hkey
  simp [hstays]

theorem Right.uplink (h : Right ip s) {pick : ℕ} (hok : s.Relearns ip (.uplink tx pkt pick)) :
    Right ip (s.step ip (.uplink tx pkt pick)) := by
  show Right ip (s.uplink ip tx pkt pick)
  cases hkey : canonicalFlowKey pkt with
  | none =>
    rw [uplink_of_none hkey]
    exact h
  | some key =>
    obtain ⟨flows, -, hflows, hcases⟩ := uplink_of_some ip s tx hkey pick
    have hmemo : ∀ {tx' key'}, key' ∈ Function.update s.memo tx flows tx' →
        tx' = tx ∧ key' = key ∨ key' ∈ s.memo tx' := by
      intro tx' key' hmem
      by_cases hsame : tx' = tx
      · subst hsame
        rw [Function.update_self] at hmem
        exact (Finset.mem_insert.mp (hflows hmem)).imp_left fun heq => ⟨rfl, heq⟩
      · rw [Function.update_of_ne hsame] at hmem
        exact .inr hmem
    intro slot hslot
    rcases hcases with ⟨hknown, huplink⟩ | ⟨hfirst, huplink⟩
    · rw [huplink] at hslot ⊢
      obtain ⟨howned, hright⟩ := h slot hslot
      refine ⟨howned, fun tx' htx' key' hkey' => ?_⟩
      rcases hmemo hkey' with ⟨rfl, rfl⟩ | hkey'
      · exact hright tx' htx' key' hknown
      · exact hright tx' htx' key' hkey'
    · rw [huplink] at hslot ⊢
      change (s.table.noteFlow ip key tx pick).slots.lookup ip = some slot at hslot
      unfold RouteTable.noteFlow at hslot
      split at hslot
      · rename_i hnone
        rw [hnone] at hslot
        cases hslot
      · rename_i slot' hslot'
        rw [AList.lookup_insert] at hslot
        cases hslot
        obtain ⟨howned, hright⟩ := h slot' hslot'
        obtain ⟨hnote, hforgotten⟩ := hok hfirst slot' hslot'
        refine ⟨howned.noteFlow (hnote key hkey) pick, fun tx' htx' key' hkey' => ?_⟩
        rw [channels_noteFlow] at htx'
        rcases hmemo hkey' with ⟨-, rfl⟩ | hkey'
        · exact isSome_lookup_noteFlow (.inl rfl)
        · exact isSome_lookup_noteFlow (.inr ⟨hright tx' htx' key' hkey', fun hgone =>
            hforgotten key' hgone tx' htx' hkey'⟩)

theorem Reached.right (h : s.Reached ip (Relearns ip)) : Right ip s := by
  refine Transition.Reachable.invariant ?_ ?_ h
  · rintro _ rfl slot hslot
    cases hslot
  · rintro s _ hs ⟨e, hok, rfl⟩
    cases e with
    | register tx isClosed => exact hs.register hok
    | attachLiveness tx activity peer => exact hs.attachLiveness tx activity peer
    | leave tx => exact hs.leave hok
    | uplink tx pkt pick => exact hs.uplink hok

end Learning

open Learning

/-- **Flows are learned again.**  Over every run of the connections of an address in which no flow
is forgotten that a sender still remembers: right after a packet of a flow that the pump of a
sender lets through, the flow has an owner, and that is a sender. -/
theorem flow_relearned {A : Type} [DecidableEq A] {ip : A} {s : Learning A} {slot : RouteSlot}
    {tx : Channel} {pkt : List UInt8} {key : UInt64} {pick : ℕ}
    (h : s.Reached ip (Relearns ip)) (hok : s.Relearns ip (.uplink tx pkt pick))
    (hslot : s.table.slots.lookup ip = some slot) (htx : tx ∈ slot.channels)
    (hkey : canonicalFlowKey pkt = some key) :
    ∃ slot' owner, (s.step ip (.uplink tx pkt pick)).table.slots.lookup ip = some slot' ∧
      slot'.flows.lookup key = some owner ∧ owner ∈ slot'.channels := by
  have hright := h.right.uplink hok
  obtain ⟨flows, hmem, -, hcases⟩ := uplink_of_some ip s tx hkey pick
  have hafter : ∃ slot', (s.uplink ip tx pkt pick).table.slots.lookup ip = some slot' ∧
      slot'.channels = slot.channels ∧ key ∈ (s.uplink ip tx pkt pick).memo tx := by
    have hnew : key ∈ Function.update s.memo tx flows tx := by rwa [Function.update_self]
    rcases hcases with ⟨-, huplink⟩ | ⟨-, huplink⟩
    · rw [huplink]
      exact ⟨slot, hslot, rfl, hnew⟩
    · rw [huplink]
      refine ⟨slot.noteFlow key tx pick, ?_, slot.channels_noteFlow .., hnew⟩
      dsimp only
      unfold RouteTable.noteFlow
      rw [hslot]
      exact AList.lookup_insert _
  obtain ⟨slot', hslot', hchannels, hremembered⟩ := hafter
  obtain ⟨howned, hknown⟩ := hright slot' hslot'
  obtain ⟨owner, howner⟩ :=
    Option.isSome_iff_exists.mp (hknown tx (hchannels ▸ htx) key hremembered)
  exact ⟨slot', owner, hslot', howner, howned key owner howner⟩

def flowPacket : List UInt8 :=
  [0x45, 0, 0, 24, 0, 0, 0, 0, 64, 6, 0, 0, 10, 0, 0, 1, 1, 1, 1, 1, 0, 1, 1, 187]

def flowPacketKey : UInt64 := (canonicalFlowKey flowPacket).getD 0

theorem flow_relearned_after_leave : ∃ (s : Learning Ipv4Addr) (slot : RouteSlot),
    s.Reached 10 (Relearns 10) ∧ s.table.slots.lookup 10 = some slot ∧
    slot.flows.lookup flowPacketKey = none ∧
    ∃ slot' owner, (s.step 10 (.uplink 2 flowPacket 0)).table.slots.lookup 10 = some slot' ∧
      slot'.flows.lookup flowPacketKey = some owner ∧ owner ∈ slot'.channels := by
  have hstart : Reached (10 : Ipv4Addr) (Relearns 10) start := Transition.Reachable.start rfl
  have hreached : Reached (10 : Ipv4Addr) (Relearns 10) _ := Transition.Reachable.run hstart
    (show Transition.Allowed _ _ _ [.register 1 fun _ => false, .register 2 fun _ => false,
      .uplink 1 flowPacket 0, .leave 1] by decide)
  generalize hs : List.foldl _ _ _ = s at hreached
  have hfacts : (s.table.slots.lookup 10).map (fun slot =>
      (slot.flows.lookup flowPacketKey, decide (2 ∈ slot.channels))) = some (none, true) := by
    rw [← hs]
    decide
  obtain ⟨slot, hslot, hfacts⟩ := Option.map_eq_some_iff.mp hfacts
  obtain ⟨hflow, hsender⟩ := Prod.mk.inj hfacts
  refine ⟨s, slot, hreached, hslot, hflow, flow_relearned hreached ?_ hslot
    (of_decide_eq_true hsender) (by decide)⟩
  rw [← hs]
  decide

/-- **A flow is not learned again**: both connections carry it, its owner leaves, and the next
packet of it on the other connection is not announced. -/
theorem flow_not_relearned : ∃ s : Learning Ipv4Addr, s.Reached 10 (fun _ _ => True) ∧
    canonicalFlowKey flowPacket = some flowPacketKey ∧
    (s.table.slots.lookup 10).map RouteSlot.channels = some [2] ∧
    ((s.step 10 (.uplink 2 flowPacket 0)).table.slots.lookup 10).map
      (fun slot => slot.flows.lookup flowPacketKey) = some none := by
  have hstart : Reached (10 : Ipv4Addr) (fun _ _ => True) start := Transition.Reachable.start rfl
  have hreached : Reached (10 : Ipv4Addr) (fun _ _ => True) _ := Transition.Reachable.run hstart
    (show Transition.Allowed _ _ _ [.register 1 fun _ => false, .register 2 fun _ => false,
      .uplink 1 flowPacket 0, .uplink 2 flowPacket 0, .leave 1] by decide)
  exact ⟨_, hreached, by decide, by decide, by decide⟩

end WarrenGuard.Router
