/-
The allowlist of an exit and the broadcast of its revocations
(`warrenguard-server/src/allowlist.rs`).

One task refreshes the entries by snapshots and deltas, another replaces the certificate
revocation list (CRL), and a key that stops being allowed has to be sent on the revocation
channel.  The CRL task reads the entries, to see which of its keys have sessions, and writes the
list afterwards, under another lock: a key that a refresh adds in between is refused, and nobody
is told.

* `mem_of_swap` — what a refresh takes off the entries is in the set it sends;
* `revocations_broadcast` — every revocation is sent, where no refresh adds a key of the CRL that
  is being applied;
* `added_key_not_broadcast` — a key added between the two sections of the CRL task.

Design notes: the atomics of the refresh task are its own, so the gate of an operation is one
step.  The channel's receiver is alive.  No step reads `ops` and `lost`.
-/
import Mathlib.Data.Finset.Card
import WarrenGuard.Basic
import WarrenGuard.Table
import WarrenGuard.Transition

namespace WarrenGuard.Exit

/-! ### Refreshes -/

/-- What a poll of the control plane brings; the values of keys are their expiries. -/
inductive Refresh where
  | snapshot (generation : ℕ) (pubkeys : Table Pubkey ℕ) (fetchedAt : ℕ)
  | delta (added : List (Pubkey × ℕ)) (removed : List Pubkey) (toGeneration fetchedAt : ℕ)

namespace Refresh

def generation : Refresh → ℕ
  | .snapshot generation _ _ => generation
  | .delta _ _ toGeneration _ => toGeneration

def fetchedAt : Refresh → ℕ
  | .snapshot _ _ fetchedAt => fetchedAt
  | .delta _ _ _ fetchedAt => fetchedAt

def insertAll (added : List (Pubkey × ℕ)) (entries : Table Pubkey ℕ) : Table Pubkey ℕ :=
  added.foldl (fun entries e => entries.insert e.1 e.2) entries

def removeOne (acc : Table Pubkey ℕ × Finset Pubkey) (pk : Pubkey) :
    Table Pubkey ℕ × Finset Pubkey :=
  if (acc.1.lookup pk).isSome then (acc.1.erase pk, insert pk acc.2) else acc

/-- What a refresh does under the write lock: the new entries, and the keys it retires. -/
def swap (entries : Table Pubkey ℕ) : Refresh → Table Pubkey ℕ × Finset Pubkey
  | .snapshot _ pubkeys _ =>
    (pubkeys, (entries.keys.filter fun pk => (pubkeys.lookup pk).isNone).toFinset)
  | .delta added removed _ _ => removed.foldl removeOne (insertAll added entries, ∅)

variable {pk : Pubkey}

theorem isSome_insertAll (added : List (Pubkey × ℕ)) {entries : Table Pubkey ℕ}
    (h : (entries.lookup pk).isSome = true) :
    ((insertAll added entries).lookup pk).isSome = true := by
  induction added generalizing entries with
  | nil => exact h
  | cons e added ih =>
    refine ih ?_
    rw [Table.lookup_insert']
    split
    · rfl
    · exact h

theorem mem_of_removeAll (removed : List Pubkey) {acc : Table Pubkey ℕ × Finset Pubkey}
    (h : (acc.1.lookup pk).isSome = true ∨ pk ∈ acc.2) :
    ((removed.foldl removeOne acc).1.lookup pk).isSome = true ∨
      pk ∈ (removed.foldl removeOne acc).2 := by
  induction removed generalizing acc with
  | nil => exact h
  | cons pk' removed ih =>
    refine ih ?_
    unfold removeOne
    split
    · by_cases heq : pk = pk'
      · exact .inr (heq ▸ Finset.mem_insert_self _ _)
      · refine h.imp (fun hin => ?_) fun hin => Finset.mem_insert_of_mem hin
        rw [Table.lookup_erase', if_neg heq]
        exact hin
    · exact h

/-- **What a refresh takes off the entries is in the set it sends.** -/
theorem mem_of_swap (payload : Refresh) {entries : Table Pubkey ℕ}
    (hin : (entries.lookup pk).isSome = true)
    (hout : ((payload.swap entries).1.lookup pk).isSome = false) :
    pk ∈ (payload.swap entries).2 := by
  cases payload with
  | snapshot generation pubkeys fetchedAt =>
    refine List.mem_toFinset.mpr (List.mem_filter.mpr ⟨?_, ?_⟩)
    · exact AList.lookup_isSome.mp hin
    · rw [Option.isNone_iff_eq_none, ← Option.not_isSome_iff_eq_none, Bool.not_eq_true]
      exact hout
  | delta added removed toGeneration fetchedAt =>
    refine (mem_of_removeAll removed (.inl (isSome_insertAll added hin))).resolve_left ?_
    rw [Bool.not_eq_true]
    exact hout

end Refresh

/-! ### The two tasks -/

inductive RefreshTask where
  | idle
  /-- The payload has passed the generation gate. -/
  | gated (op : ℕ) (payload : Refresh)
  /-- The entries are swapped; the generation and the revocations are still to come. -/
  | swapped (op generation : ℕ) (removed : Finset Pubkey)

def RefreshTask.op : RefreshTask → Option ℕ
  | .idle => none
  | .gated op _ => some op
  | .swapped op _ _ => some op

inductive CrlTask where
  | idle
  /-- The entries were read; the list is not written yet. -/
  | read (op : ℕ) (revocations : Table Pubkey UInt8) (tearDown : Finset Pubkey)
  | written (op : ℕ) (tearDown : Finset Pubkey)

def CrlTask.op : CrlTask → Option ℕ
  | .idle => none
  | .read op _ _ => some op
  | .written op _ => some op

structure Allowlist where
  entries : Table Pubkey ℕ
  crlRevocations : Table Pubkey UInt8
  lastGeneration : ℕ
  lastSuccess : ℕ
  refresh : RefreshTask
  crl : CrlTask
  /-- The sets sent on the revocation channel, each with its operation. -/
  sent : List (ℕ × Finset Pubkey)
  ops : ℕ
  /-- The keys that stopped being allowed, each with the operation that did it. -/
  lost : List (ℕ × Pubkey)

inductive TaskEvent where
  | refreshBegin (payload : Refresh)
  | refreshSwap
  | refreshEnd
  | crlRead (revocations : Table Pubkey UInt8)
  | crlWrite
  | crlEnd

namespace Allowlist

def start : Allowlist := ⟨∅, ∅, 0, 0, .idle, .idle, [], 0, []⟩

def isAllowed (s : Allowlist) (pk : Pubkey) : Bool :=
  if (s.crlRevocations.lookup pk).isSome then false else (s.entries.lookup pk).isSome

def send (s : Allowlist) (op : ℕ) (keys : Finset Pubkey) : Allowlist :=
  if keys = ∅ then s else { s with sent := s.sent ++ [(op, keys)] }

/-- The keys that are allowed in `s` and not in `s'`. -/
def lostKeys (s s' : Allowlist) : List Pubkey :=
  s.entries.keys.filter fun pk => s.isAllowed pk && !s'.isAllowed pk

/-- The state `s'` that the operation `op` makes of `s`, with the keys it lost. -/
def note (op : ℕ) (s s' : Allowlist) : Allowlist :=
  { s' with lost := s'.lost ++ (lostKeys s s').map fun pk => (op, pk) }

def step (s : Allowlist) : TaskEvent → Allowlist
  | .refreshBegin payload =>
    match s.refresh with
    | .idle =>
      let firstApply := decide (s.lastSuccess = 0)
      let refused := !firstApply && decide (payload.generation ≤ s.lastGeneration)
      { s with
        lastSuccess := max s.lastSuccess payload.fetchedAt
        refresh := if refused then .idle else .gated s.ops payload
        ops := s.ops + 1 }
    | _ => s
  | .refreshSwap =>
    match s.refresh with
    | .gated op payload =>
      s.note op { s with
        entries := (payload.swap s.entries).1
        refresh := .swapped op payload.generation (payload.swap s.entries).2 }
    | _ => s
  | .refreshEnd =>
    match s.refresh with
    | .swapped op generation removed =>
      { s with lastGeneration := generation, refresh := .idle }.send op removed
    | _ => s
  | .crlRead revocations =>
    match s.crl with
    | .idle =>
      { s with
        crl := .read s.ops revocations
          (revocations.keys.filter fun pk => (s.entries.lookup pk).isSome).toFinset
        ops := s.ops + 1 }
    | _ => s
  | .crlWrite =>
    match s.crl with
    | .read op revocations tearDown =>
      s.note op { s with crlRevocations := revocations, crl := .written op tearDown }
    | _ => s
  | .crlEnd =>
    match s.crl with
    | .written op tearDown => { s with crl := .idle }.send op tearDown
    | _ => s

def Reachable (ok : Allowlist → TaskEvent → Prop) : Allowlist → Prop :=
  Transition.Reachable (· = start) (Transition.Guarded ok step)

def Ended (s : Allowlist) (op : ℕ) : Prop := s.refresh.op ≠ some op ∧ s.crl.op ≠ some op

instance (s : Allowlist) (op : ℕ) : Decidable (s.Ended op) :=
  inferInstanceAs (Decidable (_ ∧ _))

/-- **When every revocation is broadcast**: a refresh that swaps the entries while a CRL is applied
brings in no key of that CRL that the task has not seen, other than those refused already. -/
def Orderly (s : Allowlist) : TaskEvent → Prop
  | .refreshSwap =>
    match s.refresh, s.crl with
    | .gated _ payload, .read _ revocations tearDown =>
      ∀ pk ∈ (payload.swap s.entries).1.keys, (revocations.lookup pk).isSome = true →
        pk ∈ tearDown ∨ (s.crlRevocations.lookup pk).isSome = true
    | _, _ => True
  | _ => True

/-- **What holds in every orderly run**: a lost key was sent, or its operation still has it
in hand; and a CRL in hand knows of every key of it that is allowed. -/
structure Broadcasts (s : Allowlist) : Prop where
  told : ∀ op pk, (op, pk) ∈ s.lost →
    (∃ keys, (op, keys) ∈ s.sent ∧ pk ∈ keys) ∨
      (∃ generation removed, s.refresh = .swapped op generation removed ∧ pk ∈ removed) ∨
      ∃ tearDown, s.crl = .written op tearDown ∧ pk ∈ tearDown
  known : ∀ op revocations tearDown, s.crl = .read op revocations tearDown →
    ∀ pk, (revocations.lookup pk).isSome = true → (s.entries.lookup pk).isSome = true →
      pk ∈ tearDown ∨ (s.crlRevocations.lookup pk).isSome = true

variable {s s' : Allowlist} {op : ℕ} {pk : Pubkey}

theorem mem_lostKeys : pk ∈ lostKeys s s' ↔ s.isAllowed pk = true ∧ s'.isAllowed pk = false := by
  unfold lostKeys
  rw [List.mem_filter, Bool.and_eq_true, Bool.not_eq_true', and_iff_right_iff_imp]
  rintro ⟨hallowed, -⟩
  refine AList.lookup_isSome.mp ?_
  unfold isAllowed at hallowed
  split at hallowed
  · cases hallowed
  · exact hallowed

theorem mem_lost_note {op' : ℕ} (h : (op', pk) ∈ (note op s s').lost) :
    (op', pk) ∈ s'.lost ∨ op' = op ∧ s.isAllowed pk = true ∧ s'.isAllowed pk = false := by
  rcases List.mem_append.mp h with hold | hnew
  · exact .inl hold
  · obtain ⟨pk', hpk', heq⟩ := List.mem_map.mp hnew
    cases heq
    exact .inr ⟨rfl, mem_lostKeys.mp hpk'⟩

theorem isAllowed_eq_true : s.isAllowed pk = true ↔
    (s.crlRevocations.lookup pk).isSome = false ∧ (s.entries.lookup pk).isSome = true := by
  unfold isAllowed
  cases (s.crlRevocations.lookup pk).isSome <;> simp

theorem isAllowed_eq_false : s.isAllowed pk = false ↔
    (s.crlRevocations.lookup pk).isSome = true ∨ (s.entries.lookup pk).isSome = false := by
  unfold isAllowed
  cases (s.crlRevocations.lookup pk).isSome <;> simp

variable {keys : Finset Pubkey}

theorem mem_send_of_mem {e : ℕ × Finset Pubkey} (h : e ∈ s.sent) (op keys) :
    e ∈ (s.send op keys).sent := by
  unfold send
  split
  · exact h
  · exact List.mem_append_left _ h

theorem mem_send (h : pk ∈ keys) : (op, keys) ∈ (s.send op keys).sent := by
  unfold send
  rw [if_neg (Finset.ne_empty_of_mem h)]
  exact List.mem_append_right _ List.mem_cons_self

@[simp] theorem send_lost (op keys) : (s.send op keys).lost = s.lost := by
  unfold send
  split <;> rfl

@[simp] theorem send_refresh (op keys) :
    (s.send op keys).refresh = s.refresh := by
  unfold send
  split <;> rfl

@[simp] theorem send_crl (op keys) : (s.send op keys).crl = s.crl := by
  unfold send
  split <;> rfl

@[simp] theorem send_entries (op keys) :
    (s.send op keys).entries = s.entries := by
  unfold send
  split <;> rfl

@[simp] theorem send_crlRevocations (op keys) :
    (s.send op keys).crlRevocations = s.crlRevocations := by
  unfold send
  split <;> rfl

/-! ### The steps -/

namespace Broadcasts

variable (h : Broadcasts s)
include h

theorem refreshBegin (payload : Refresh) : Broadcasts (s.step (.refreshBegin payload)) := by
  rw [step]
  split
  · rename_i hidle
    refine ⟨fun op pk hlost => ?_, h.known⟩
    refine (h.told op pk hlost).imp_right (Or.imp_left ?_)
    rintro ⟨generation, removed, hswapped, -⟩
    rw [hidle] at hswapped
    cases hswapped
  · exact h

theorem refreshSwap (hok : s.Orderly .refreshSwap) : Broadcasts (s.step .refreshSwap) := by
  rw [step]
  split
  · rename_i op payload hgated
    refine ⟨fun op' pk hlost => ?_, fun op' revocations tearDown hread pk hrev hin => ?_⟩
    · rcases mem_lost_note hlost with hold | ⟨rfl, hbefore, hafter⟩
      · refine (h.told op' pk hold).imp_right (Or.imp_left ?_)
        rintro ⟨generation, removed, hswapped, -⟩
        rw [hgated] at hswapped
        cases hswapped
      · -- the key was allowed and is not on the CRL, so it left the entries
        obtain ⟨hcrl, hin⟩ := isAllowed_eq_true.mp hbefore
        have hout := (isAllowed_eq_false.mp hafter).resolve_left
          (by rw [hcrl]; exact Bool.false_ne_true)
        exact .inr (.inl ⟨_, _, rfl, payload.mem_of_swap hin hout⟩)
    · have hread' : s.crl = .read op' revocations tearDown := hread
      unfold Orderly at hok
      rw [hgated, hread'] at hok
      exact hok pk (AList.lookup_isSome.mp hin) hrev
  · exact h

theorem refreshEnd : Broadcasts (s.step .refreshEnd) := by
  rw [step]
  split
  · rename_i op generation removed hswapped
    refine ⟨fun op' pk hlost => ?_, fun op' revocations tearDown hread pk hrev hin => ?_⟩
    · rw [send_lost] at hlost
      rw [send_crl]
      rcases h.told op' pk hlost with ⟨keys, hsent, hpk⟩ | ⟨_, removed', heq, hpk⟩ | hcrl
      · refine .inl ⟨keys, mem_send_of_mem ?_ _ _, hpk⟩
        exact hsent
      · rw [hswapped] at heq
        cases heq
        exact .inl ⟨removed, mem_send hpk, hpk⟩
      · exact .inr (.inr hcrl)
    · rw [send_crl] at hread
      rw [send_entries] at hin
      rw [send_crlRevocations]
      exact h.known op' revocations tearDown hread pk hrev hin
  · exact h

theorem crlRead (revocations : Table Pubkey UInt8) :
    Broadcasts (s.step (.crlRead revocations)) := by
  rw [step]
  split
  · rename_i hidle
    refine ⟨fun op pk hlost => ?_, fun op revocations' tearDown hread pk hrev hin => ?_⟩
    · refine (h.told op pk hlost).imp_right (Or.imp_right ?_)
      rintro ⟨tearDown, hwritten, -⟩
      rw [hidle] at hwritten
      cases hwritten
    · cases hread
      exact .inl (List.mem_toFinset.mpr (List.mem_filter.mpr ⟨AList.lookup_isSome.mp hrev, hin⟩))
  · exact h

theorem crlWrite : Broadcasts (s.step .crlWrite) := by
  rw [step]
  split
  · rename_i op revocations tearDown hread
    refine ⟨fun op' pk hlost => ?_, fun op' revocations' tearDown' hread' => by cases hread'⟩
    rcases mem_lost_note hlost with hold | ⟨rfl, hbefore, hafter⟩
    · refine (h.told op' pk hold).imp_right (Or.imp_right ?_)
      rintro ⟨tearDown', hwritten, -⟩
      rw [hread] at hwritten
      cases hwritten
    · -- the key is still among the entries, so it is the new CRL that refuses it
      obtain ⟨hcrl, hin⟩ := isAllowed_eq_true.mp hbefore
      have hrev : (revocations.lookup pk).isSome = true :=
        (isAllowed_eq_false.mp hafter).resolve_right (by rw [hin]; exact Bool.true_eq_false.mp)
      refine .inr (.inr ⟨tearDown, rfl, ?_⟩)
      refine (h.known op' revocations tearDown hread pk hrev hin).resolve_right ?_
      rw [hcrl]
      exact Bool.false_ne_true
  · exact h

theorem crlEnd : Broadcasts (s.step .crlEnd) := by
  rw [step]
  split
  · rename_i op tearDown hwritten
    refine ⟨fun op' pk hlost => ?_, fun op' revocations tearDown' hread => ?_⟩
    · rw [send_lost] at hlost
      rw [send_refresh]
      rcases h.told op' pk hlost with ⟨keys, hsent, hpk⟩ | hrefresh | ⟨tearDown', heq, hpk⟩
      · refine .inl ⟨keys, mem_send_of_mem ?_ _ _, hpk⟩
        exact hsent
      · exact .inr (.inl hrefresh)
      · rw [hwritten] at heq
        cases heq
        exact .inl ⟨tearDown, mem_send hpk, hpk⟩
    · rw [send_crl] at hread
      cases hread
  · exact h

end Broadcasts

theorem broadcasts_of_reachable (h : Reachable Orderly s) : Broadcasts s := by
  refine Transition.Reachable.invariant ?_ ?_ h
  · rintro s rfl
    refine ⟨fun op pk hlost => ?_, fun op revocations tearDown hread => ?_⟩
    · cases hlost
    · cases hread
  · rintro s s' hs ⟨e, hok, rfl⟩
    cases e with
    | refreshBegin payload => exact hs.refreshBegin payload
    | refreshSwap => exact hs.refreshSwap hok
    | refreshEnd => exact hs.refreshEnd
    | crlRead revocations => exact hs.crlRead revocations
    | crlWrite => exact hs.crlWrite
    | crlEnd => exact hs.crlEnd

/-- **Every revocation is broadcast.**  In every orderly run of the two tasks: a key that
an operation made refused is in a set that this operation has sent by its end. -/
theorem revocations_broadcast (h : Reachable Orderly s) (hlost : (op, pk) ∈ s.lost)
    (hended : s.Ended op) : ∃ keys, (op, keys) ∈ s.sent ∧ pk ∈ keys := by
  obtain ⟨hrefresh, hcrl⟩ := hended
  rcases (broadcasts_of_reachable h).told op pk hlost with hsent | ⟨_, _, heq, -⟩ | ⟨_, heq, -⟩
  · exact hsent
  · rw [heq] at hrefresh
    exact absurd rfl hrefresh
  · rw [heq] at hcrl
    exact absurd rfl hcrl

def only (pk : Pubkey) : Table Pubkey UInt8 := AList.singleton pk 0

def revoked : List TaskEvent :=
  [.refreshBegin (.snapshot 1 (AList.singleton 7 100) 1), .refreshSwap, .refreshEnd,
    .crlRead (only 7), .crlWrite, .crlEnd]

def crossed : List TaskEvent :=
  [.crlRead (only 7), .refreshBegin (.snapshot 1 (AList.singleton 7 100) 1), .refreshSwap,
    .refreshEnd, .crlWrite, .crlEnd]

theorem revocations_broadcast_revoked : ∃ keys,
    (1, keys) ∈ (revoked.foldl step start).sent ∧ 7 ∈ keys := by
  have hstart : Reachable Orderly start := .start rfl
  have hreach : Reachable Orderly (revoked.foldl step start) :=
    hstart.run ⟨trivial, trivial, trivial, trivial, trivial, trivial, trivial⟩
  exact revocations_broadcast hreach (by decide) (by decide)

/-- **A key added under the hands of the CRL task is not broadcast.**  The CRL task finds
key 7 not among the entries; a snapshot adds it; the CRL that refuses it is written.  Key 7
was allowed and is refused by an operation that has ended, and no set was sent. -/
theorem added_key_not_broadcast : ∃ s pk op, Reachable (fun _ _ => True) s ∧
    (op, pk) ∈ s.lost ∧ s.Ended op ∧ s.sent = [] := by
  have hstart : Reachable (fun _ _ => True) start := .start rfl
  refine ⟨crossed.foldl step start, 7, 0, hstart.foldl (fun _ e => ⟨e, trivial, rfl⟩) crossed,
    by decide, by decide, by decide⟩

end Allowlist

end WarrenGuard.Exit
