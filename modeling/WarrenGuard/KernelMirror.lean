/-
The nftables backend (`warrenguard-natpmp-server/src/nftables.rs`): the kernel's DNAT maps mirror
the allocator's table.

Every operation of the backend changes the table and then sends scripts to the kernel; the
executor may fail to apply a script, and may report a failure although it has applied it.
Operations run one at a time, under the backend's lock.

* `Agree R` — the kernel and the table agree slot by slot, in the sense of `R`; the operations
  keep it (`Consistent.allocateAt`, `Consistent.release`, `Consistent.releaseByClient`,
  `Consistent.restore`);
* `kernel_mirrors_active` — with an executor that applies every script;
* `kernel_key_is_active` — if only `add element` can fail, unless a restore is told that an
  element was not added that was (`restore_leaves_stray_element`).

Left out: the setup script, after which both maps are empty, and the Port Fail guard, which has a
set of its own.
-/
import WarrenGuard.PortEviction

namespace WarrenGuard

namespace Nftables

open NatPmp

/-! ### Scripts -/

def mapName : Proto → String
  | .tcp => "natpmp_tcp_dnat"
  | .udp => "natpmp_udp_dnat"

def displayIp (ip : Ipv4Addr) : String :=
  toString (ip.toNat / 2 ^ 24) ++ "." ++ toString (ip.toNat / 2 ^ 16 % 256) ++ "." ++
    toString (ip.toNat / 2 ^ 8 % 256) ++ "." ++ toString (ip.toNat % 256)

def renderAddElement (table : String) (proto : Proto) (externalPort : ℕ) (internalIp : Ipv4Addr)
    (internalPort : ℕ) : String :=
  "add element inet " ++ table ++ " " ++ mapName proto ++ " \x7b " ++ toString externalPort ++
    " : " ++ displayIp internalIp ++ " . " ++ toString internalPort ++ " \x7d"

def renderDeleteElement (table : String) (proto : Proto) (externalPort : ℕ) : String :=
  "delete element inet " ++ table ++ " " ++ mapName proto ++ " \x7b " ++ toString externalPort ++
    " \x7d"

/-- The two scripts the backend sends after its setup. -/
inductive Script where
  | addElement (proto : Proto) (externalPort : ℕ) (internalIp : Ipv4Addr) (internalPort : ℕ)
  | deleteElement (proto : Proto) (externalPort : ℕ)

def Script.render (table : String) : Script → String
  | .addElement proto externalPort internalIp internalPort =>
    renderAddElement table proto externalPort internalIp internalPort
  | .deleteElement proto externalPort => renderDeleteElement table proto externalPort

/-- The elements of both DNAT maps: an external port of a protocol, and where its
traffic goes. -/
abbrev Elements := Table Slot (Ipv4Addr × ℕ)

def Script.apply (elements : Elements) : Script → Elements
  | .addElement proto externalPort internalIp internalPort =>
    elements.insert (externalPort, proto) (internalIp, internalPort)
  | .deleteElement proto externalPort => elements.erase (externalPort, proto)

/-- What becomes of a script: whether the kernel has applied it, and the error that
is reported. -/
structure Answer where
  applied : Bool
  error : Option String

/-- `NftExecutor`: what becomes of the n-th script. -/
abbrev Executor := ℕ → String → Answer

/-! ### The backend -/

/-- `NftablesBackend`: the allocator's maps, the kernel's maps, and the number of
scripts run. -/
structure Backend where
  inner : Inner
  kernel : Elements
  calls : ℕ

def Backend.new : Backend := ⟨Inner.empty, ∅, 0⟩

/-- The errors of an operation: the allocator's, or what `nft` has reported. -/
inductive BackendError where
  | natPmp (error : NatPmpError)
  | backend (stderr : String)

section Operations

variable (cfg : AllocatorConfig) (exec : Executor) (table : String)

variable (b : Backend)

def runScript (script : Script) : Option String × Backend :=
  let answer := exec b.calls (script.render table)
  (answer.error,
    { b with
      kernel := if answer.applied then script.apply b.kernel else b.kernel
      calls := b.calls + 1 })

/-- A client that binds no port of its own is forwarded to on the external one. -/
def dnatPort (alloc : Allocation) : ℕ :=
  if alloc.internalPort = 0 then alloc.externalPort else alloc.internalPort

/-- Tear down the elements of evicted mappings; a failure is only logged. -/
def deleteEvicted (evicted : List Allocation) : Backend :=
  evicted.foldl (fun b ev => (runScript exec table b (.deleteElement ev.proto ev.externalPort)).2) b

/-- The last part of `allocate_at`: the element of a granted mapping is added, or the
grant is rolled back, at `releasedAt`. -/
def installElement (proto : Proto) (alloc : Allocation) (releasedAt : ℕ) :
    Except BackendError Allocation × Backend :=
  match runScript exec table b
      (.addElement proto alloc.externalPort alloc.internalIp (dnatPort alloc)) with
  | (none, b) => (.ok alloc, b)
  | (some stderr, b) =>
    -- the script may have been applied all the same
    match runScript exec table b (.deleteElement proto alloc.externalPort) with
    | (none, b) =>
      (.error (.backend stderr), { b with inner := releaseAt cfg b.inner alloc releasedAt })
    | (some _, b) => (.error (.backend stderr), b)

def allocateAt (deployer : Deployer) (draws : ℕ → ℕ) (b : Backend) (clientIp : Ipv4Addr)
    (proto : Proto) (internalPort suggested lifetime now releasedAt : ℕ) :
    Except BackendError Allocation × Backend :=
  let lifetimeSecs := min (lifetime / nanosPerSec) (2 ^ 32 - 1)
  let (outcome, inner) := allocateAtCollecting cfg deployer draws b.inner clientIp proto
    internalPort suggested lifetimeSecs now
  -- first and unconditionally: the result may be a failure, or one of these slots again
  let b := deleteEvicted exec table { b with inner } outcome.evicted
  match outcome.result with
  | .error error => (.error (.natPmp error), b)
  | .ok alloc => installElement cfg exec table b proto alloc releasedAt

/-- `release`: the mapping is kept until its element is gone. -/
def release (alloc : Allocation) (now : ℕ) : Except BackendError Unit × Backend :=
  match runScript exec table b (.deleteElement alloc.proto alloc.externalPort) with
  | (some stderr, b) => (.error (.backend stderr), b)
  | (none, b) => (.ok (), { b with inner := releaseAt cfg b.inner alloc now })

def releaseByClient (clientIp : Ipv4Addr) (internalPort : ℕ) (proto : Proto)
    (now : ℕ) : Except BackendError Bool × Backend :=
  match (b.inner.active.entries.map Sigma.snd).find? fun alloc =>
      decide (alloc.internalIp = clientIp) && decide (alloc.internalPort = internalPort) &&
        decide (alloc.proto = proto) with
  | none => (.ok false, b)
  | some alloc =>
    match runScript exec table b (.deleteElement proto alloc.externalPort) with
    | (some stderr, b) => (.error (.backend stderr), b)
    | (none, b) => (.ok true, { b with inner := releaseAt cfg b.inner alloc now })

/-- One restored mapping: its element is added, or else it is dropped again. -/
def restoreElement (acc : List Allocation × Backend) (alloc : Allocation) :
    List Allocation × Backend :=
  let (live, b) := acc
  match runScript exec table b
      (.addElement alloc.proto alloc.externalPort alloc.internalIp (dnatPort alloc)) with
  | (some _, b) =>
    (live, { b with inner := (takeActiveForSlot b.inner alloc.externalPort alloc.proto).2 })
  | (none, b) => (live ++ [alloc], b)

def restore (entries : List Allocation) (now : ℕ) : List Allocation × Backend :=
  let (inner, kept) := restoreAt b.inner entries now
  kept.foldl (restoreElement exec table) ([], { b with inner })

/-- The operations of the backend, each with what it is given. -/
inductive Op where
  | allocate (deployer : Deployer) (draws : ℕ → ℕ) (clientIp : Ipv4Addr) (proto : Proto)
      (internalPort suggested lifetime now releasedAt : ℕ)
  | release (alloc : Allocation) (now : ℕ)
  | releaseByClient (clientIp : Ipv4Addr) (internalPort : ℕ) (proto : Proto) (now : ℕ)
  | rateLimitStatus (clientIp : Ipv4Addr) (now : ℕ)
  | restore (entries : List Allocation) (now : ℕ)

def Op.apply : Op → Backend
  | .allocate deployer draws clientIp proto internalPort suggested lifetime now releasedAt =>
    (allocateAt cfg exec table deployer draws b clientIp proto internalPort suggested lifetime now
      releasedAt).2
  | .release alloc now => (Nftables.release cfg exec table b alloc now).2
  | .releaseByClient clientIp internalPort proto now =>
    (Nftables.releaseByClient cfg exec table b clientIp internalPort proto now).2
  | .rateLimitStatus clientIp now =>
    { b with inner := (rateLimitStatusAt cfg b.inner clientIp now).2 }
  | .restore entries now => (Nftables.restore exec table b entries now).2

/-- One step: an operation that `ok` allows, or another iteration order of the
allocator's hash map. -/
inductive BackendStep (ok : Backend → Op → Prop) (b : Backend) : Backend → Prop
  | op (o : Op) (h : ok b o) : BackendStep ok b (o.apply cfg exec table b)
  | reorder (entries : List (Σ _ : Slot, Allocation)) (h : b.inner.active.entries.Perm entries) :
      BackendStep ok b
        { b with inner := b.inner.withActive (Table.reorder b.inner.active entries h) }

def Reachable (ok : Backend → Op → Prop) : Backend → Prop :=
  Transition.Reachable (· = Backend.new) (BackendStep cfg exec table ok)

end Operations

/-! ### The kernel and the table agree -/

def target (alloc : Allocation) : Ipv4Addr × ℕ := (alloc.internalIp, dnatPort alloc)

/-- **The kernel and the table agree** slot by slot, in the sense of `R`. -/
def Agree (R : Option (Ipv4Addr × ℕ) → Option Allocation → Prop) (k : Elements)
    (t : Table Slot Allocation) : Prop :=
  ∀ slot, R (k.lookup slot) (t.lookup slot)

variable {cfg : AllocatorConfig} {exec : Executor} {table : String}
  {R : Option (Ipv4Addr × ℕ) → Option Allocation → Prop} {k k' : Elements}
  {t t' : Table Slot Allocation} {b : Backend}

/-- A backend whose kernel agrees with its table. -/
structure Consistent (R : Option (Ipv4Addr × ℕ) → Option Allocation → Prop) (b : Backend) :
    Prop where
  wf : Wf b.inner
  agree : Agree R b.kernel b.inner.active

theorem Agree.update (h : Agree R k t) (s : Slot)
    (hk : ∀ slot, slot ≠ s → k'.lookup slot = k.lookup slot)
    (ht : ∀ slot, slot ≠ s → t'.lookup slot = t.lookup slot)
    (hs : R (k'.lookup s) (t'.lookup s)) : Agree R k' t' := by
  intro slot
  by_cases heq : slot = s
  · rw [heq]
    exact hs
  · rw [hk slot heq, ht slot heq]
    exact h slot

theorem Agree.evict (hnone : R none none) (h : Agree R k t) {removed : List Allocation}
    (ht : Evicts t t' removed)
    (hk : ∀ slot, k'.lookup slot
      = if slot ∈ removed.map Allocation.slot then none else k.lookup slot) : Agree R k' t' := by
  intro slot
  rw [hk slot, ht slot]
  split
  · exact hnone
  · exact h slot

/-- **What sending the element of a mapping does**: it touches the slot of the mapping
only, and what becomes of it is the executor's answer. -/
structure Sent (exec : Executor) (table : String) (b : Backend) (alloc : Allocation)
    (answer : Answer) (error : Option String) (b' : Backend) : Prop where
  answer_eq : answer = exec b.calls (renderAddElement table alloc.proto alloc.externalPort
    alloc.internalIp (dnatPort alloc))
  error_eq : error = answer.error
  inner : b'.inner = b.inner
  calls : b'.calls = b.calls + 1
  others : ∀ slot, slot ≠ alloc.slot →
    b'.kernel.lookup slot = b.kernel.lookup slot
  self : b'.kernel.lookup alloc.slot
    = if answer.applied then some (target alloc)
      else b.kernel.lookup alloc.slot

theorem runScript_add (exec table b) (alloc : Allocation) :
    ∃ answer error b', runScript exec table b (.addElement alloc.proto alloc.externalPort
      alloc.internalIp (dnatPort alloc)) = (error, b') ∧
      Sent exec table b alloc answer error b' := by
  set answer := exec b.calls (renderAddElement table alloc.proto alloc.externalPort
    alloc.internalIp (dnatPort alloc)) with hanswer
  have hkernel : (runScript exec table b (.addElement alloc.proto alloc.externalPort
      alloc.internalIp (dnatPort alloc))).2.kernel
        = if answer.applied then b.kernel.insert alloc.slot (target alloc)
          else b.kernel := rfl
  refine ⟨answer, _, (runScript exec table b (.addElement alloc.proto alloc.externalPort
    alloc.internalIp (dnatPort alloc))).2, rfl, hanswer, rfl, rfl, rfl, fun slot hne => ?_, ?_⟩
  · rw [hkernel]
    split
    · rw [Table.lookup_insert', if_neg hne]
    · rfl
  · rw [hkernel]
    split
    · rw [Table.lookup_insert', if_pos rfl]
    · rfl

section

variable (hdelete : ∀ n proto port, exec n (renderDeleteElement table proto port) = ⟨true, none⟩)
include hdelete

theorem runScript_delete (b) (proto : Proto) (port : ℕ) :
    runScript exec table b (.deleteElement proto port)
      = (none, { b with kernel := b.kernel.erase (port, proto), calls := b.calls + 1 }) := by
  unfold runScript
  dsimp only [Script.render]
  rw [hdelete]
  rfl

theorem deleteEvicted_spec (b) (evicted : List Allocation) :
    (deleteEvicted exec table b evicted).inner = b.inner ∧
      ∀ slot, (deleteEvicted exec table b evicted).kernel.lookup slot
        = if slot ∈ evicted.map Allocation.slot then none else b.kernel.lookup slot := by
  unfold deleteEvicted
  induction evicted generalizing b with
  | nil => exact ⟨rfl, fun slot => by simp⟩
  | cons ev evicted ih =>
    rw [List.foldl_cons, runScript_delete hdelete]
    obtain ⟨hinner, hkernel⟩ :=
      ih { b with kernel := b.kernel.erase (ev.externalPort, ev.proto), calls := b.calls + 1 }
    refine ⟨hinner, fun slot => ?_⟩
    rw [hkernel, Table.lookup_erase', List.map_cons, Allocation.slot]
    by_cases hmem : slot ∈ evicted.map Allocation.slot
    · rw [if_pos hmem, if_pos (List.mem_cons_of_mem _ hmem)]
    · rw [if_neg hmem]
      by_cases heq : slot = (ev.externalPort, ev.proto)
      · rw [if_pos heq, if_pos (List.mem_cons.mpr (.inl heq))]
      · rw [if_neg heq, if_neg fun hin => (List.mem_cons.mp hin).elim heq hmem]

end

theorem active_releaseAt (g : Inner) (alloc : Allocation) (now : ℕ) (slot : Slot) :
    (releaseAt cfg g alloc now).active.lookup slot
      = if slot = alloc.slot then none else g.active.lookup slot := by
  unfold releaseAt
  split
  · rename_i hnone
    split
    · rename_i heq
      rw [heq]
      exact hnone
    · rfl
  · exact Table.lookup_erase' _ _ _

section

variable (hnone : R none none)
include hnone

theorem Agree.releaseAt {g : Inner} (h : Agree R k g.active) (alloc : Allocation) (now : ℕ) :
    Agree R (k.erase alloc.slot) (releaseAt cfg g alloc now).active := by
  refine h.update alloc.slot (fun slot hne => ?_) (fun slot hne => ?_) ?_
  · rw [Table.lookup_erase', if_neg hne]
  · rw [active_releaseAt, if_neg hne]
  · rw [active_releaseAt, Table.lookup_erase', if_pos rfl, if_pos rfl]
    exact hnone

variable (hdelete : ∀ n proto port, exec n (renderDeleteElement table proto port) = ⟨true, none⟩)
include hdelete

theorem Consistent.release (h : Consistent R b) (alloc : Allocation) (now : ℕ) :
    Consistent R (release cfg exec table b alloc now).2 := by
  unfold Nftables.release
  rw [runScript_delete hdelete]
  exact ⟨h.wf.apply cfg (.release alloc now), h.agree.releaseAt hnone alloc now⟩

theorem Consistent.releaseByClient (h : Consistent R b) (clientIp : Ipv4Addr)
    (internalPort : ℕ) (proto : Proto) (now : ℕ) :
    Consistent R (releaseByClient cfg exec table b clientIp internalPort proto now).2 := by
  unfold Nftables.releaseByClient
  split
  · exact h
  · rename_i alloc hfind
    -- the mapping found has the protocol that was asked for
    have hproto : alloc.proto = proto := by
      have hsat := List.find?_some hfind
      simp only [Bool.and_eq_true, decide_eq_true_eq] at hsat
      exact hsat.2
    subst hproto
    rw [runScript_delete hdelete]
    exact ⟨h.wf.apply cfg (.release alloc now), h.agree.releaseAt hnone alloc now⟩

variable (hadd : ∀ n text alloc k, (exec n text).error = none →
  R (if (exec n text).applied then some (target alloc) else k) (some alloc))
include hadd

theorem Consistent.installElement (hwf : Wf b.inner) (alloc : Allocation)
    (hactive : b.inner.active = t.insert alloc.slot alloc)
    (h : Agree R b.kernel t) (releasedAt : ℕ) :
    Consistent R (installElement cfg exec table b alloc.proto alloc releasedAt).2 := by
  obtain ⟨answer, error, b', hrun, hsent⟩ := runScript_add exec table b alloc
  unfold Nftables.installElement
  rw [hrun]
  cases error with
  | none =>
    show Consistent R b'
    refine ⟨hsent.inner ▸ hwf, ?_⟩
    rw [hsent.inner, hactive]
    refine h.update alloc.slot hsent.others (fun slot hne => ?_) ?_
    · rw [Table.lookup_insert', if_neg hne]
    · rw [hsent.self, Table.lookup_insert', if_pos rfl, hsent.answer_eq]
      exact hadd _ _ alloc _ (by rw [← hsent.answer_eq, ← hsent.error_eq])
  | some stderr =>
    -- applied or not, the element is deleted, and then the mapping is released
    dsimp only
    rw [runScript_delete hdelete]
    refine ⟨(hsent.inner ▸ hwf : Wf b'.inner).apply cfg (.release alloc releasedAt), ?_⟩
    show Agree R (b'.kernel.erase alloc.slot)
      (NatPmp.releaseAt cfg b'.inner alloc releasedAt).active
    refine h.update alloc.slot (fun slot hne => ?_) (fun slot hne => ?_) ?_
    · rw [Table.lookup_erase', if_neg hne, hsent.others slot hne]
    · rw [active_releaseAt, if_neg hne, hsent.inner, hactive, Table.lookup_insert', if_neg hne]
    · rw [active_releaseAt, Table.lookup_erase', if_pos rfl, if_pos rfl]
      exact hnone

/-- **A request keeps the kernel in agreement**, whether it is granted, refused, or
granted and rolled back. -/
theorem Consistent.allocateAt (h : Consistent R b) (deployer : Deployer) (draws : ℕ → ℕ)
    (clientIp : Ipv4Addr) (proto : Proto)
    (internalPort suggested lifetime now releasedAt : ℕ) :
    Consistent R (allocateAt cfg exec table deployer draws b clientIp proto internalPort suggested
      lifetime now releasedAt).2 := by
  obtain ⟨hwf, hleaves, hproto, -⟩ := allocateAtCollecting_leaves h.wf cfg deployer draws clientIp
    proto internalPort suggested (min (lifetime / nanosPerSec) (2 ^ 32 - 1)) now
  unfold Nftables.allocateAt
  dsimp only
  set r := allocateAtCollecting cfg deployer draws b.inner clientIp proto internalPort suggested
    (min (lifetime / nanosPerSec) (2 ^ 32 - 1)) now
  -- first the evicted elements, then the result
  obtain ⟨hinner, kernel_eq⟩ := deleteEvicted_spec hdelete { b with inner := r.2 } r.1.evicted
  set d := deleteEvicted exec table { b with inner := r.2 } r.1.evicted
  have hwf' : Wf d.inner := hinner ▸ hwf
  have hactive : d.inner.active = r.2.active := congrArg Inner.active hinner
  rcases hresult : r.1.result with error | alloc
  · rw [hresult, ← hactive] at hleaves
    exact ⟨hwf', h.agree.evict hnone hleaves.evicts kernel_eq⟩
  · rw [hresult, ← hactive] at hleaves
    obtain ⟨base, hevicts, hinsert⟩ := hleaves.exists_base
    obtain rfl := hproto alloc hresult
    exact .installElement hnone hdelete hadd hwf' alloc hinsert
      (h.agree.evict hnone hevicts kernel_eq) releasedAt

end

/-! ### Restoring -/

/-- Mappings already in the table whose elements are still to be added. -/
structure Pending (R : Option (Ipv4Addr × ℕ) → Option Allocation → Prop)
    (pending : List Allocation) (b : Backend) : Prop where
  wf : Wf b.inner
  nodup : (pending.map Allocation.slot).Nodup
  active : ∀ a ∈ pending, b.inner.active.lookup a.slot = some a
  kernel : ∀ a ∈ pending, R (b.kernel.lookup a.slot) none
  others : ∀ slot, slot ∉ pending.map Allocation.slot →
    R (b.kernel.lookup slot) (b.inner.active.lookup slot)

/-- What the kernel is told about the mappings of `kept` from its n-th script on: no
element that is reported as failed has been added. -/
def FailedUnapplied (exec : Executor) (table : String) (n : ℕ) (kept : List Allocation) : Prop :=
  ∀ i a, kept[i]? = some a →
    (exec (n + i) (renderAddElement table a.proto a.externalPort a.internalIp
      (dnatPort a))).error ≠ none →
    (exec (n + i) (renderAddElement table a.proto a.externalPort a.internalIp
      (dnatPort a))).applied = false

theorem FailedUnapplied.tail {n : ℕ} {alloc : Allocation} {kept : List Allocation}
    (h : FailedUnapplied exec table n (alloc :: kept)) :
    FailedUnapplied exec table (n + 1) kept := by
  intro i a hi
  have hnext := h (i + 1) a hi
  rwa [← Nat.add_assoc, Nat.add_right_comm] at hnext

section

variable (hadd : ∀ n text alloc k, (exec n text).error = none →
  R (if (exec n text).applied then some (target alloc) else k) (some alloc))
include hadd

theorem Pending.restoreElement {alloc : Allocation} {pending : List Allocation}
    (h : Pending R (alloc :: pending) b) (live : List Allocation)
    (hfailed : FailedUnapplied exec table b.calls (alloc :: pending)) :
    Pending R pending (restoreElement exec table (live, b) alloc).2 ∧
      (restoreElement exec table (live, b) alloc).2.calls = b.calls + 1 := by
  obtain ⟨hnew, hnodup⟩ := List.nodup_cons.mp h.nodup
  have hne : ∀ a ∈ pending, a.slot ≠ alloc.slot :=
    fun a ha heq => hnew (heq ▸ List.mem_map_of_mem ha)
  obtain ⟨answer, error, b', hrun, hsent⟩ := runScript_add exec table b alloc
  have hanswer := hsent.answer_eq
  unfold Nftables.restoreElement
  dsimp only
  rw [hrun]
  cases error with
  | none =>
    show Pending R pending b' ∧ b'.calls = b.calls + 1
    refine ⟨⟨hsent.inner ▸ h.wf, hnodup, fun a ha => ?_, fun a ha => ?_, fun slot hnot => ?_⟩,
      hsent.calls⟩
    · rw [hsent.inner]
      exact h.active a (List.mem_cons_of_mem alloc ha)
    · rw [hsent.others a.slot (hne a ha)]
      exact h.kernel a (List.mem_cons_of_mem alloc ha)
    · rw [hsent.inner]
      by_cases heq : slot = alloc.slot
      · rw [heq, hsent.self, h.active alloc List.mem_cons_self, hanswer]
        exact hadd _ _ alloc _ (by rw [← hanswer, ← hsent.error_eq])
      · rw [hsent.others slot heq]
        exact h.others slot fun hmem => (List.mem_cons.mp hmem).elim heq hnot
  | some stderr =>
    -- the element was not added, and the mapping leaves its slot again
    have hunapplied : answer.applied = false := by
      rw [hanswer]
      refine hfailed 0 alloc rfl ?_
      rw [Nat.add_zero, ← hanswer, ← hsent.error_eq]
      exact Option.some_ne_none stderr
    have hkernel : b'.kernel.lookup alloc.slot = b.kernel.lookup alloc.slot := by
      rw [hsent.self, hunapplied, if_neg Bool.false_ne_true]
    have hactive : ∀ slot,
        (takeActiveForSlot b'.inner alloc.externalPort alloc.proto).2.active.lookup slot
          = if slot = alloc.slot then none else b.inner.active.lookup slot := by
      intro slot
      rw [← hsent.inner]
      exact Table.lookup_erase' _ _ _
    refine ⟨⟨?_, hnodup, fun a ha => ?_, fun a ha => ?_, fun slot hnot => ?_⟩, hsent.calls⟩
    · exact (hsent.inner ▸ h.wf : Wf b'.inner).shrink (.of_erase alloc.slot rfl rfl)
    · rw [hactive, if_neg (hne a ha)]
      exact h.active a (List.mem_cons_of_mem alloc ha)
    · show R (b'.kernel.lookup a.slot) none
      rw [hsent.others a.slot (hne a ha)]
      exact h.kernel a (List.mem_cons_of_mem alloc ha)
    · rw [hactive]
      show R (b'.kernel.lookup slot) _
      by_cases heq : slot = alloc.slot
      · rw [if_pos heq, heq, hkernel]
        exact h.kernel alloc List.mem_cons_self
      · rw [if_neg heq, hsent.others slot heq]
        exact h.others slot fun hmem => (List.mem_cons.mp hmem).elim heq hnot

/-- **A restore keeps the kernel in agreement**, if no element reported as failed has
been added. -/
theorem Consistent.restore (h : Consistent R b) (entries : List Allocation) (now : ℕ)
    (hfailed : FailedUnapplied exec table b.calls (restoreAt b.inner entries now).2) :
    Consistent R (restore exec table b entries now).2 := by
  have hrestores := restoreAt_restores b.inner entries now
  have hwf := h.wf.restoreAt entries now
  unfold Nftables.restore
  generalize restoreAt b.inner entries now = r at hfailed hrestores hwf
  -- mapping by mapping: those to come are in the table, but not in the kernel yet
  suffices hloop : ∀ (kept : List Allocation) (acc : List Allocation × Backend),
      Pending R kept acc.2 → FailedUnapplied exec table acc.2.calls kept →
      Consistent R (kept.foldl (Nftables.restoreElement exec table) acc).2 by
    refine hloop r.2 ([], { b with inner := r.1 }) ⟨hwf, hrestores.nodup, hrestores.restored,
      fun a ha => ?_, fun slot hnot => ?_⟩ hfailed
    · rw [← hrestores.free a ha]
      exact h.agree a.slot
    · show R (b.kernel.lookup slot) (r.1.active.lookup slot)
      rw [hrestores.others slot hnot]
      exact h.agree slot
  intro kept
  induction kept with
  | nil => exact fun acc hacc _ => ⟨hacc.wf, fun slot => hacc.others slot (List.not_mem_nil)⟩
  | cons alloc kept ih =>
    intro acc hacc hfail
    obtain ⟨hnext, hcalls⟩ := hacc.restoreElement hadd acc.1 hfail
    exact ih _ hnext (hcalls ▸ hfail.tail)

end

/-! ### Whole runs -/

/-- No restore is told that an element was not added that was. -/
def Op.FailsClean (exec : Executor) (table : String) (b : Backend) : Op → Prop
  | .restore entries now => FailedUnapplied exec table b.calls (restoreAt b.inner entries now).2
  | _ => True

/-- **Every run keeps the kernel in agreement.** -/
theorem consistent_of_reachable {ok : Backend → Op → Prop} (hnone : R none none)
    (hdelete : ∀ n proto port, exec n (renderDeleteElement table proto port) = ⟨true, none⟩)
    (hadd : ∀ n text alloc k, (exec n text).error = none →
      R (if (exec n text).applied then some (target alloc) else k) (some alloc))
    (hok : ∀ b o, ok b o → o.FailsClean exec table b) (h : Reachable cfg exec table ok b) :
    Consistent R b := by
  refine Transition.Reachable.invariant ?_ ?_ h
  · rintro b rfl
    exact ⟨Wf.empty, fun slot => hnone⟩
  rintro b b' hb hstep
  cases hstep with
  | op o ho =>
    cases o with
    | allocate deployer draws clientIp proto internalPort suggested lifetime now releasedAt =>
      exact hb.allocateAt hnone hdelete hadd ..
    | release alloc now => exact hb.release hnone hdelete alloc now
    | releaseByClient clientIp internalPort proto now =>
      exact hb.releaseByClient hnone hdelete clientIp internalPort proto now
    | rateLimitStatus clientIp now =>
      have hs := shrinks_rateLimitStatusAt cfg b.inner clientIp now
      refine ⟨hb.wf.shrink hs, ?_⟩
      obtain ⟨log, hlog⟩ := rateLimitStatusAt_withLog cfg b.inner clientIp now
      show Agree R b.kernel (rateLimitStatusAt cfg b.inner clientIp now).2.active
      rw [hlog]
      exact hb.agree
    | restore entries now => exact hb.restore hadd entries now (hok b _ ho)
  | reorder entries hperm =>
    refine ⟨hb.wf.shrink (shrinks_reorder b.inner entries hperm), fun slot => ?_⟩
    show R (b.kernel.lookup slot) ((Table.reorder b.inner.active entries hperm).lookup slot)
    rw [Table.lookup_reorder]
    exact hb.agree slot

def mapPort (clientIp : Ipv4Addr) (suggested : ℕ) : Op :=
  .allocate ⟨none, none, none⟩ id clientIp .tcp 80 suggested (60 * nanosPerSec) 0 0

/-- **No stray forward.**  If every `delete element` succeeds, and no restore is told
that an element was not added that was, then in every state a backend can reach a key
of the kernel's maps is the key of an active mapping, however the other `add element`
scripts end. -/
theorem kernel_key_is_active
    (hdelete : ∀ n proto port, exec n (renderDeleteElement table proto port) = ⟨true, none⟩)
    (h : Reachable cfg exec table (fun b o => o.FailsClean exec table b) b) {slot : Slot}
    {element : Ipv4Addr × ℕ} (hkey : b.kernel.lookup slot = some element) :
    ∃ a, b.inner.active.lookup slot = some a ∧ slot = (a.externalPort, a.proto) := by
  have hcovered : Consistent (fun element alloc => element.isSome → alloc.isSome) b := by
    refine consistent_of_reachable ?_ hdelete ?_ (fun _ _ ho => ho) h
    · exact id
    · intro _ _ _ _ _ _
      rfl
  have hsome : (b.inner.active.lookup slot).isSome = true :=
    hcovered.agree slot (by rw [hkey]; rfl)
  obtain ⟨a, ha⟩ := Option.isSome_iff_exists.mp hsome
  exact ⟨a, ha, hcovered.wf.keyed slot a ha⟩

/-- An executor that loses the result of one `add element`, which the kernel has applied
all the same. -/
def addTimesOut : Executor := fun _ text =>
  if text = renderAddElement "warren" .tcp 49152 1 80 then
    ⟨true, some "nft command timed out while waiting for exit"⟩
  else ⟨true, none⟩

theorem renderDeleteElement_ne (table table' : String) (proto proto' : Proto) (port port' : ℕ)
    (ip : Ipv4Addr) (internalPort : ℕ) :
    renderDeleteElement table proto port
      ≠ renderAddElement table' proto' port' ip internalPort := by
  have hword : ∀ x y : String, "delete element inet " ++ x ≠ "add element inet " ++ y := by
    intro x y h
    have hchars := congrArg String.toList h
    rw [String.toList_append, String.toList_append] at hchars
    have hdelete : "delete element inet ".toList = 'd' :: "elete element inet ".toList := by decide
    have hadd : "add element inet ".toList = 'a' :: "dd element inet ".toList := by decide
    rw [hdelete, hadd, List.cons_append, List.cons_append] at hchars
    exact absurd (List.cons.inj hchars).1 (by decide)
  unfold renderDeleteElement renderAddElement
  simp only [String.append_assoc]
  exact hword _ _

theorem addTimesOut_delete (n : ℕ) (proto : Proto) (port : ℕ) :
    addTimesOut n (renderDeleteElement "warren" proto port) = ⟨true, none⟩ :=
  if_neg (renderDeleteElement_ne _ _ _ _ _ _ _ _)

/-- **A restore can leave a stray element.**  The kernel adds the element of a restored
mapping and the result is lost: the mapping is dropped, and its element stays. -/
theorem restore_leaves_stray_element : ∃ b,
    (∀ n proto port, addTimesOut n (renderDeleteElement "warren" proto port) = ⟨true, none⟩) ∧
    Reachable .warrenDefault addTimesOut "warren" (fun _ _ => True) b ∧
    b.kernel.lookup (49152, .tcp) = some (1, 80) ∧
    b.inner.active.lookup (49152, .tcp) = none := by
  have hreach : Reachable .warrenDefault addTimesOut "warren" (fun _ _ => True)
      (Op.apply .warrenDefault addTimesOut "warren" Backend.new
        (.restore [⟨49152, 1, 80, .tcp, 60 * nanosPerSec⟩] 0)) :=
    .next (.start rfl) (.op _ trivial)
  exact ⟨_, addTimesOut_delete, hreach, by rfl, by rfl⟩

/-- After a request whose element could not be added, that of the next one is there,
and so is its mapping. -/
theorem kernel_key_is_active_next : ∃ b a,
    Reachable .warrenDefault addTimesOut "warren"
      (fun b o => o.FailsClean addTimesOut "warren" b) b ∧
    b.kernel.lookup (49153, .tcp) = some (2, 80) ∧
    b.inner.active.lookup (49153, .tcp) = some a ∧ (49153, .tcp) = (a.externalPort, a.proto) := by
  have hreach : Reachable .warrenDefault addTimesOut "warren"
      (fun b o => o.FailsClean addTimesOut "warren" b)
      ((mapPort 2 49153).apply .warrenDefault addTimesOut "warren"
        ((mapPort 1 49152).apply .warrenDefault addTimesOut "warren" Backend.new)) :=
    .next (.next (.start rfl) (.op (mapPort 1 49152) trivial)) (.op (mapPort 2 49153) trivial)
  have hkey : ((mapPort 2 49153).apply .warrenDefault addTimesOut "warren"
      ((mapPort 1 49152).apply .warrenDefault addTimesOut "warren" Backend.new)).kernel.lookup
        (49153, .tcp) = some (2, 80) := by rfl
  obtain ⟨a, ha, hslot⟩ := kernel_key_is_active addTimesOut_delete hreach hkey
  exact ⟨_, a, hreach, hkey, ha, hslot⟩

end Nftables

end WarrenGuard
