/-
The live allocations of an address pool.

`Holdings` keeps three tables: the address of each connection, the key that authenticated it, and
the connections of each address.  They tell one story (`Agree`), the book of who holds what for
which key (`lease`); every operation keeps the agreement and is the matching change of the book:

* `hold` grants an address (`Agree.hold`, `lease_hold`);
* `release` takes the entry of a connection away (`release_cases`);
* `transferOwner` renames a key (`Agree.transferOwner`, `lease_transferOwner`).
-/
import WarrenGuard.Basic
import WarrenGuard.LeasePool
import WarrenGuard.Table

namespace WarrenGuard

namespace IpPool

open LeasePool

structure Holdings (α : Type) where
  byConn : Table ConnId α
  owners : Table ConnId Pubkey
  byAddr : Table α (List ConnId)

namespace Holdings

variable {α : Type}

def new : Holdings α := ⟨∅, ∅, ∅⟩

variable (h : Holdings α)

def addressOf (conn : ConnId) : Option α := h.byConn.lookup conn

def ownerOf (conn : ConnId) : Option Pubkey := h.owners.lookup conn

def transferOwner (src dst : Pubkey) : Holdings α :=
  { h with owners := h.owners.retainMut fun _ owner => some (if owner = src then dst else owner) }

/-! ### The book -/

def lease : Book ConnId α Pubkey :=
  fun conn => (h.addressOf conn).map fun addr => (addr, h.ownerOf conn)

variable {addr : α} {conn : ConnId} {h : Holdings α}

theorem holds_lease : h.lease.Holds conn addr ↔ h.addressOf conn = some addr := by
  simp [Book.Holds, lease]

theorem lease_eq_none : h.lease conn = none ↔ h.addressOf conn = none := by
  simp [lease]

variable {conn' : ConnId} {owner : Option Pubkey}

theorem lease_eq_some :
    h.lease conn = some (addr, owner) ↔
      h.addressOf conn = some addr ∧ h.ownerOf conn = owner := by
  simp [lease]

theorem lease_new : (new : Holdings α).lease = fun _ => none := by
  funext conn
  simp [lease, new, addressOf]

theorem ownerOf_transferOwner (h : Holdings α) (src dst : Pubkey) (conn) :
    (h.transferOwner src dst).ownerOf conn =
      (h.ownerOf conn).map fun owner => if owner = src then dst else owner := by
  unfold transferOwner ownerOf
  rw [Table.lookup_retainMut]
  cases h.owners.lookup conn <;> rfl

theorem lease_transferOwner (h : Holdings α) (src dst : Pubkey) :
    (h.transferOwner src dst).lease = h.lease.transfer src dst := by
  funext conn
  unfold lease Book.transfer
  rw [ownerOf_transferOwner, Option.map_map]
  refine congrArg (fun f => (h.addressOf conn).map f) (funext fun addr => ?_)
  cases ho : h.ownerOf conn with
  | none => simp [Book.renamed]
  | some owner =>
    by_cases hs : owner = src
    · simp [Book.renamed, hs]
    · simp [Book.renamed, hs]

/-! ### The address tables -/

variable [DecidableEq α]

def holders (h : Holdings α) (addr : α) : List ConnId := (h.byAddr.lookup addr).getD []

def isHeld (h : Holdings α) (addr : α) : Bool := (h.byAddr.lookup addr).isSome

def heldBy (h : Holdings α) (addr : α) (pubkey : Pubkey) : Bool :=
  (h.holders addr).any fun c => decide (h.owners.lookup c = some pubkey)

/-- Records that `conn`, which holds nothing yet, holds `addr`. -/
def hold (h : Holdings α) (conn : ConnId) (addr : α) (owner : Option Pubkey) : Holdings α where
  byConn := h.byConn.insert conn addr
  byAddr := h.byAddr.insert addr (h.holders addr ++ [conn])
  owners :=
    match owner with
    | some owner => h.owners.insert conn owner
    | none => h.owners

/-- Forgets `conn`; answers the address it held, and whether it is vacant now. -/
def release (h : Holdings α) (conn : ConnId) : Option (α × Bool) × Holdings α :=
  let owners := h.owners.erase conn
  match h.byConn.lookup conn with
  | none => (none, { h with owners := owners })
  | some addr =>
    let byConn := h.byConn.erase conn
    match h.byAddr.lookup addr with
    | none => (some (addr, true), ⟨byConn, owners, h.byAddr.erase addr⟩)
    | some holders =>
      let rest := holders.filter (· ≠ conn)
      if rest.isEmpty then (some (addr, true), ⟨byConn, owners, h.byAddr.erase addr⟩)
      else (some (addr, false), ⟨byConn, owners, h.byAddr.insert addr rest⟩)

/-! ### The three tables agree -/

/-- **The per-connection, per-address and owner tables tell one story.** -/
structure Agree (h : Holdings α) : Prop where
  mem_holders : ∀ conn addr, conn ∈ h.holders addr ↔ h.addressOf conn = some addr
  listed : ∀ addr holders, h.byAddr.lookup addr = some holders → holders ≠ [] ∧ holders.Nodup
  owned : ∀ conn, (h.ownerOf conn).isSome → (h.addressOf conn).isSome

theorem Agree.new : Agree (new : Holdings α) where
  mem_holders conn addr := by simp [Holdings.new, holders, addressOf]
  listed addr holders h := by simp [Holdings.new] at h
  owned conn h := by simp [Holdings.new, ownerOf] at h

/-! ### Questions -/

theorem isHeld_iff (ha : h.Agree) : h.isHeld addr = true ↔ ∃ conn, h.lease.Holds conn addr := by
  simp only [holds_lease, ← ha.mem_holders]
  unfold isHeld holders
  cases hl : h.byAddr.lookup addr with
  | none => simp
  | some l =>
    obtain ⟨conn, hmem⟩ := List.exists_mem_of_ne_nil l (ha.listed addr l hl).1
    exact ⟨fun _ => ⟨conn, hmem⟩, fun _ => rfl⟩

theorem heldBy_iff (ha : h.Agree) {pubkey : Pubkey} :
    h.heldBy addr pubkey = true ↔ ∃ conn, h.lease conn = some (addr, some pubkey) := by
  simp only [heldBy, List.any_eq_true, decide_eq_true_eq, ha.mem_holders, lease_eq_some, ownerOf]

/-! ### Granting -/

theorem addressOf_hold (h : Holdings α) (conn conn' addr owner) :
    (h.hold conn addr owner).addressOf conn' =
      if conn' = conn then some addr else h.addressOf conn' :=
  Table.lookup_insert' _ _ _ _

theorem ownerOf_hold (ha : h.Agree) (hnew : h.addressOf conn = none) (conn' addr owner) :
    (h.hold conn addr owner).ownerOf conn' = if conn' = conn then owner else h.ownerOf conn' := by
  cases owner with
  | some owner => exact Table.lookup_insert' _ _ _ _
  | none =>
    by_cases hc : conn' = conn
    · -- a connection without address has no recorded key
      subst hc
      have hno : h.ownerOf conn' = none := by
        by_contra hsome
        have := ha.owned conn' (Option.isSome_iff_ne_none.mpr hsome)
        rw [hnew] at this
        cases this
      rw [if_pos rfl]
      exact hno
    · rw [if_neg hc]
      rfl

theorem holders_hold (h : Holdings α) (conn) (addr addr' : α) (owner) :
    (h.hold conn addr owner).holders addr' =
      if addr' = addr then h.holders addr ++ [conn] else h.holders addr' := by
  by_cases hc : addr' = addr
  · subst hc
    simp [holders, hold]
  · simp [holders, hold, hc]

theorem Agree.hold (ha : h.Agree) (hnew : h.addressOf conn = none) :
    (h.hold conn addr owner).Agree := by
  -- a connection without address is listed nowhere
  have hfresh : ∀ addr', conn ∉ h.holders addr' := by
    intro addr' hmem
    rw [ha.mem_holders, hnew] at hmem
    cases hmem
  refine ⟨fun conn' addr' => ?_, fun addr' l hl => ?_, fun conn' ho => ?_⟩
  · rw [holders_hold, addressOf_hold]
    by_cases hc : conn' = conn
    · subst hc
      by_cases hd : addr' = addr
      · simp [hd]
      · simp [hd, hfresh addr', Ne.symm hd]
    · by_cases hd : addr' = addr
      · simp [hd, hc, ha.mem_holders]
      · simp [hd, hc, ha.mem_holders]
  · change (h.byAddr.insert addr (h.holders addr ++ [conn])).lookup addr' = some l at hl
    rw [Table.lookup_insert'] at hl
    by_cases hd : addr' = addr
    · rw [if_pos hd] at hl
      cases hl
      refine ⟨by simp, List.nodup_append_comm.mp (List.nodup_cons.mpr ⟨hfresh addr, ?_⟩)⟩
      unfold holders
      cases hold : h.byAddr.lookup addr with
      | none => exact List.nodup_nil
      | some l => exact (ha.listed addr l hold).2
    · rw [if_neg hd] at hl
      exact ha.listed addr' l hl
  · rw [ownerOf_hold ha hnew] at ho
    rw [addressOf_hold]
    by_cases hc : conn' = conn
    · rw [if_pos hc]
      rfl
    · rw [if_neg hc] at ho ⊢
      exact ha.owned conn' ho

theorem lease_hold (ha : h.Agree) (hnew : h.addressOf conn = none) :
    (h.hold conn addr owner).lease = Function.update h.lease conn (some (addr, owner)) := by
  funext conn'
  unfold lease
  rw [addressOf_hold, ownerOf_hold ha hnew]
  by_cases hc : conn' = conn
  · subst hc
    simp
  · simp [hc]

/-! ### Giving up -/

theorem addressOf_release (h : Holdings α) (conn conn') :
    (h.release conn).2.addressOf conn' = if conn' = conn then none else h.addressOf conn' := by
  unfold release
  split
  · rename_i hnone
    by_cases hc : conn' = conn
    · rw [if_pos hc, hc]
      exact hnone
    · rw [if_neg hc]
      rfl
  · have herase := Table.lookup_erase' h.byConn conn conn'
    unfold addressOf
    rw [← herase]
    split
    · rfl
    · dsimp only
      split <;> rfl

theorem ownerOf_release (h : Holdings α) (conn conn') :
    (h.release conn).2.ownerOf conn' = if conn' = conn then none else h.ownerOf conn' := by
  rw [ownerOf, ownerOf, ← Table.lookup_erase']
  unfold release
  split
  · rfl
  · split
    · rfl
    · dsimp only
      split <;> rfl

theorem lease_release (h : Holdings α) (conn) :
    (h.release conn).2.lease = Function.update h.lease conn none := by
  funext conn'
  unfold lease
  rw [addressOf_release, ownerOf_release]
  by_cases hc : conn' = conn
  · subst hc
    simp
  · simp [hc]

/-- **What a release does.**  A connection without address is a no-op on the
address table; otherwise the address stays with the holders that are left. -/
theorem release_cases (ha : h.Agree) (conn) :
    (h.addressOf conn = none ∧ (h.release conn).1 = none ∧
      (h.release conn).2.byAddr = h.byAddr) ∨
    ∃ addr holders, h.addressOf conn = some addr ∧ h.byAddr.lookup addr = some holders ∧
      ((holders.filter (· ≠ conn) = [] ∧ (h.release conn).1 = some (addr, true) ∧
          (h.release conn).2.byAddr = h.byAddr.erase addr) ∨
        (holders.filter (· ≠ conn) ≠ [] ∧ (h.release conn).1 = some (addr, false) ∧
          (h.release conn).2.byAddr = h.byAddr.insert addr (holders.filter (· ≠ conn)))) := by
  cases hconn : h.addressOf conn with
  | none =>
    refine Or.inl ⟨rfl, ?_⟩
    unfold addressOf at hconn
    unfold release
    rw [hconn]
    exact ⟨rfl, rfl⟩
  | some addr =>
    obtain ⟨holders, hl⟩ : ∃ holders, h.byAddr.lookup addr = some holders := by
      have hmem : conn ∈ h.holders addr := (ha.mem_holders conn addr).mpr hconn
      unfold Holdings.holders at hmem
      cases hl : h.byAddr.lookup addr with
      | none => rw [hl] at hmem; cases hmem
      | some l => exact ⟨l, rfl⟩
    refine Or.inr ⟨addr, holders, rfl, hl, ?_⟩
    unfold addressOf at hconn
    unfold release
    rw [hconn]
    dsimp only
    rw [hl]
    dsimp only
    -- the address is vacant when the last of its connections leaves
    by_cases hrest : holders.filter (· ≠ conn) = []
    · refine Or.inl ⟨hrest, ?_⟩
      rw [if_pos (List.isEmpty_iff.mpr hrest)]
      exact ⟨rfl, rfl⟩
    · refine Or.inr ⟨hrest, ?_⟩
      rw [if_neg (fun he => hrest (List.isEmpty_iff.mp he))]
      exact ⟨rfl, rfl⟩

private theorem holders_release (ha : h.Agree) (conn addr) :
    (h.release conn).2.holders addr = (h.holders addr).filter (· ≠ conn) := by
  -- an address the connection does not hold has no holder to filter out
  have hother : h.addressOf conn ≠ some addr →
      (h.holders addr).filter (· ≠ conn) = h.holders addr := by
    intro hne
    refine List.filter_eq_self.mpr fun c hc => decide_eq_true ?_
    rintro rfl
    exact hne ((ha.mem_holders _ _).mp hc)
  rcases release_cases ha conn with ⟨hnone, -, hby⟩ | ⟨addr₀, l, hsome, hl, hby⟩
  · rw [hother (by rw [hnone]; exact fun h => by cases h)]
    exact congrArg (fun t => (AList.lookup addr t).getD []) hby
  · by_cases hd : addr = addr₀
    · subst hd
      have hhold : h.holders addr = l := congrArg (·.getD []) hl
      rw [hhold]
      rcases hby with ⟨hrest, -, hby⟩ | ⟨-, -, hby⟩
      · rw [hrest, holders, hby, AList.lookup_erase]
        rfl
      · rw [holders, hby, AList.lookup_insert]
        rfl
    · have hne : h.addressOf conn ≠ some addr := by
        rw [hsome]
        exact fun heq => hd (Option.some.inj heq).symm
      rw [hother hne]
      rcases hby with ⟨-, -, hby⟩ | ⟨-, -, hby⟩
      · rw [holders, hby, AList.lookup_erase_ne hd]
        rfl
      · rw [holders, hby, AList.lookup_insert_ne hd]
        rfl

theorem Agree.release (ha : h.Agree) (conn) : (h.release conn).2.Agree := by
  refine ⟨fun conn' addr => ?_, fun addr l hl => ?_, fun conn' ho => ?_⟩
  · rw [holders_release ha, List.mem_filter, ha.mem_holders, addressOf_release]
    by_cases hc : conn' = conn
    · simp [hc]
    · simp [hc]
  · rcases release_cases ha conn with ⟨-, -, hby⟩ | ⟨addr₀, l₀, -, hl₀, hby⟩
    · rw [hby] at hl
      exact ha.listed addr l hl
    · rcases hby with ⟨-, -, hby⟩ | ⟨hrest, -, hby⟩
      · rw [hby, Table.lookup_erase'] at hl
        by_cases hd : addr = addr₀
        · rw [if_pos hd] at hl; cases hl
        · rw [if_neg hd] at hl
          exact ha.listed addr l hl
      · rw [hby, Table.lookup_insert'] at hl
        by_cases hd : addr = addr₀
        · rw [if_pos hd] at hl
          cases hl
          exact ⟨hrest, (ha.listed addr₀ l₀ hl₀).2.filter _⟩
        · rw [if_neg hd] at hl
          exact ha.listed addr l hl
  · rw [ownerOf_release] at ho
    rw [addressOf_release]
    by_cases hc : conn' = conn
    · rw [if_pos hc] at ho; cases ho
    · rw [if_neg hc] at ho ⊢
      exact ha.owned conn' ho

theorem release_answer (ha : h.Agree) (conn) :
    (h.addressOf conn = none ∧ (h.release conn).1 = none) ∨
    (∃ addr, h.lease.Holds conn addr ∧ (h.release conn).1 = some (addr, true) ∧
      ∀ conn', conn' ≠ conn → ¬ h.lease.Holds conn' addr) ∨
    ∃ addr conn', h.lease.Holds conn addr ∧ (h.release conn).1 = some (addr, false) ∧
      conn' ≠ conn ∧ h.lease.Holds conn' addr := by
  rcases release_cases ha conn with ⟨hnone, hout, -⟩ | ⟨addr, l, hsome, hl, hby⟩
  · exact Or.inl ⟨hnone, hout⟩
  · have hhold : h.holders addr = l := congrArg (·.getD []) hl
    rcases hby with ⟨hrest, hout, -⟩ | ⟨hrest, hout, -⟩
    · refine Or.inr (Or.inl ⟨addr, holds_lease.mpr hsome, hout, fun conn' hne hheld => ?_⟩)
      have hmem : conn' ∈ l := hhold ▸ (ha.mem_holders conn' addr).mpr (holds_lease.mp hheld)
      exact List.filter_eq_nil_iff.mp hrest conn' hmem (decide_eq_true hne)
    · obtain ⟨conn', hmem⟩ := List.exists_mem_of_ne_nil _ hrest
      obtain ⟨hmem, hne⟩ := List.mem_filter.mp hmem
      refine Or.inr (Or.inr ⟨addr, conn', holds_lease.mpr hsome, hout, of_decide_eq_true hne, ?_⟩)
      exact holds_lease.mpr ((ha.mem_holders conn' addr).mp (hhold ▸ hmem))

/-! ### Renaming a key -/

theorem Agree.transferOwner (ha : h.Agree) (src dst : Pubkey) :
    (h.transferOwner src dst).Agree := by
  refine ⟨ha.mem_holders, ha.listed, fun conn ho => ha.owned conn ?_⟩
  rwa [ownerOf_transferOwner, Option.isSome_map] at ho

end Holdings

end IpPool

end WarrenGuard
