/-
The shared networks of the Linux route split.

`BypassNetworkRules` keeps a list of networks off the tunnel: one kernel rule sends each of them
to the table `main`, and one rule per network of the tunnel itself goes ahead of them.  Every rule
is one `ip` command that may fail, and `apply` goes on after a failure.  The host records the
state after each command:

* `Safe` — a shared network is in the kernel only together with the keep rule of every tunnel
  network; it holds after every command of every sequence of calls, whatever fails
  (`calls_consistent`);
* `apply_steady` — a shared network that is wanted again is not taken out in between;
* `apply_installs` — if every command of a call succeeds, the shared networks are the wanted ones,
  for tunnel networks without duplicates: `apply` compares the number of networks kept with the
  number of tunnel networks, and it keeps a network once.
-/
import Mathlib.Data.Finset.Basic
import WarrenGuard.Commands

namespace WarrenGuard.RouteSplit

open Commands

variable {N : Type}

/-! ### The rules and their commands -/

def rulePrefBypassCidr : ℕ := 49

def rulePrefKeepInTunnel : ℕ := 48

def routeTableStr : String := "100"

/-- A rule of the kernel's rule database: `to network action pref n`. -/
structure IpRule (N : Type) where
  network : N
  action : List String
  pref : ℕ
deriving DecidableEq, Repr

inductive Verb where
  | add
  | del
deriving DecidableEq, Repr

inductive BypassChange (N : Type) where
  | add (network : N)
  | remove (network : N)
  | keepInTunnel (network : N)
  | stopKeeping (network : N)
deriving DecidableEq, Repr

def sharedRule (network : N) : IpRule N :=
  ⟨network, ["lookup", "main", "suppress_prefixlength", "0"], rulePrefBypassCidr⟩

def keepRule (network : N) : IpRule N := ⟨network, ["lookup", routeTableStr], rulePrefKeepInTunnel⟩

def BypassChange.command : BypassChange N → Verb × IpRule N
  | .add network => (.add, sharedRule network)
  | .remove network => (.del, sharedRule network)
  | .keepInTunnel network => (.add, keepRule network)
  | .stopKeeping network => (.del, keepRule network)

/-- What a command that succeeds does to the kernel: an added rule may exist already, and a
deleted one may be gone. -/
def execute [DecidableEq N] (kernel : Finset (IpRule N)) : Verb × IpRule N → Finset (IpRule N)
  | (.add, rule) => insert rule kernel
  | (.del, rule) => kernel.erase rule

@[simp] theorem sharedRule_inj {n m : N} : sharedRule n = sharedRule m ↔ n = m := by
  simp [sharedRule]

@[simp] theorem keepRule_inj {n m : N} : keepRule n = keepRule m ↔ n = m := by
  simp [keepRule]

@[simp] theorem sharedRule_ne_keepRule (n m : N) : sharedRule n ≠ keepRule m := by
  simp [sharedRule, keepRule]

@[simp] theorem keepRule_ne_sharedRule (n m : N) : keepRule n ≠ sharedRule m :=
  (sharedRule_ne_keepRule m n).symm

variable {c : BypassChange N} {installed wanted : List N}

section Plan

variable [DecidableEq N]

def planAdds (installed wanted : List N) : List N :=
  wanted.foldl (fun adds network =>
    if network ∉ installed ∧ network ∉ adds then adds ++ [network] else adds) []

def planBypassUpdate (installed wanted : List N) : List (BypassChange N) :=
  (planAdds installed wanted).map .add ++ (installed.filter (· ∉ wanted)).map .remove

theorem mem_planAdds {n : N} : n ∈ planAdds installed wanted ↔ n ∈ wanted ∧ n ∉ installed := by
  -- what the loop has collected so far is only ever added to
  have hloop : ∀ (l adds : List N), (∀ a ∈ adds, a ∉ installed) →
      (n ∈ l.foldl (fun adds network =>
        if network ∉ installed ∧ network ∉ adds then adds ++ [network] else adds) adds
          ↔ n ∈ adds ∨ n ∈ l ∧ n ∉ installed) := by
    intro l
    induction l with
    | nil => intro adds _; simp
    | cons m l ih =>
      intro adds hadds
      rw [List.foldl_cons]
      split
      · rename_i hm
        rw [ih _ (by simpa [or_imp, forall_and] using ⟨hadds, hm.1⟩)]
        grind
      · rename_i hm
        rw [ih _ hadds]
        grind
  have hwhole := hloop wanted [] (by simp)
  rw [planAdds]
  simpa using hwhole

theorem add_mem_planBypassUpdate {n : N} :
    .add n ∈ planBypassUpdate installed wanted ↔ n ∈ wanted ∧ n ∉ installed := by
  simp [planBypassUpdate, mem_planAdds]

theorem remove_mem_planBypassUpdate {n : N} :
    .remove n ∈ planBypassUpdate installed wanted ↔ n ∈ installed ∧ n ∉ wanted := by
  simp [planBypassUpdate]

theorem eq_add_or_remove_of_mem_plan (hc : c ∈ planBypassUpdate installed wanted) :
    (∃ n, c = .add n) ∨ ∃ n, c = .remove n := by
  simp only [planBypassUpdate, List.mem_append, List.mem_map] at hc
  obtain ⟨n, -, rfl⟩ | ⟨n, -, rfl⟩ := hc
  · exact .inl ⟨n, rfl⟩
  · exact .inr ⟨n, rfl⟩

end Plan

/-! ### `BypassNetworkRules` -/

/-- The rules in the kernel, the fields of `BypassNetworkRules`, and the change that failed first
in the call. -/
structure Router (N : Type) where
  kernel : Finset (IpRule N)
  tunnelNetworks : List N
  tunnelNetworksKept : List N
  installed : List N
  firstError : Option (BypassChange N)

namespace Router

/-- The command of a change succeeded: what it does to the kernel, and the bookkeeping. -/
def succeeded [DecidableEq N] (change : BypassChange N) (s : Router N) : Router N :=
  { s with
    kernel := execute s.kernel change.command
    tunnelNetworksKept :=
      match change with
      | .keepInTunnel network => s.tunnelNetworksKept ++ [network]
      | _ => s.tunnelNetworksKept
    installed :=
      match change with
      | .add network => s.installed ++ [network]
      | .remove network => s.installed.filter (· ≠ network)
      | _ => s.installed }

/-- The command of a change failed: the first error stays, and a keep rule that could not be
removed stays on the books. -/
def failed (change : BypassChange N) (s : Router N) : Router N :=
  { s with
    firstError := s.firstError.or (some change)
    tunnelNetworksKept :=
      match change with
      | .stopKeeping network => s.tunnelNetworksKept ++ [network]
      | _ => s.tunnelNetworksKept }

end Router

/-- `BypassNetworkRules::with_runner`, on a kernel that has rules already. -/
def withRunner (kernel : Finset (IpRule N)) (tunnelNetworks : List N) : Host (Router N) :=
  Host.new ⟨kernel, tunnelNetworks, [], [], none⟩

section Calls

variable [DecidableEq N] (outcome : ℕ → Bool)

def runChange (change : BypassChange N) (h : Host (Router N)) : Host (Router N) :=
  (h.run outcome (Router.succeeded change) (Router.failed change)).2

variable (h : Host (Router N))

/-- The first loop of `apply`. -/
def keepTurn (network : N) : Host (Router N) :=
  if network ∈ h.state.tunnelNetworksKept then h else runChange outcome (.keepInTunnel network) h

def updateTurn (tunnelKeptIn : Bool) (h : Host (Router N)) (change : BypassChange N) :
    Host (Router N) :=
  match change, tunnelKeptIn with
  | .add _, false => h
  | change, _ => runChange outcome change h

def stopTurn (network : N) : Host (Router N) :=
  runChange outcome (.stopKeeping network) h

def keepNetworks (wanted : List N) (h : Host (Router N)) : Host (Router N) :=
  if wanted ≠ [] then h.state.tunnelNetworks.foldl (keepTurn outcome) h else h

def updateNetworks (wanted : List N) (h : Host (Router N)) : Host (Router N) :=
  let tunnelKeptIn := h.state.tunnelNetworksKept.length == h.state.tunnelNetworks.length
  (planBypassUpdate h.state.installed wanted).foldl (updateTurn outcome tunnelKeptIn) h

def releaseNetworks : Host (Router N) :=
  if h.state.installed = [] then
    h.state.tunnelNetworksKept.foldl (stopTurn outcome)
      (h.modify fun s => { s with tunnelNetworksKept := [] })
  else h

/-- `BypassNetworkRules::apply`: the host after the call, with `firstError` the change whose
error the call returns. -/
def apply (wanted : List N) (h : Host (Router N)) : Host (Router N) :=
  releaseNetworks outcome (updateNetworks outcome wanted
    (keepNetworks outcome wanted (h.modify fun s => { s with firstError := none })))

def clear : Host (Router N) := apply outcome [] h

/-- `IpRules::run_blocking`: best effort, and nobody looks at how it ended. -/
def runBlocking (change : BypassChange N) (h : Host (Router N)) : Host (Router N) :=
  (h.run outcome (fun s => { s with kernel := execute s.kernel change.command }) id).2

def dropShared : Host (Router N) :=
  h.state.installed.foldl (fun h network => runBlocking outcome (.remove network) h)
    (h.modify fun s => { s with installed := [] })

def dropKept : Host (Router N) :=
  h.state.tunnelNetworksKept.foldl (fun h network => runBlocking outcome (.stopKeeping network) h)
    (h.modify fun s => { s with tunnelNetworksKept := [] })

def drop : Host (Router N) := dropKept outcome (dropShared outcome h)

/-- A sequence of calls: `some wanted` is an `apply`, `none` a `clear`. -/
def calls (cs : List (Option (List N))) (h : Host (Router N)) : Host (Router N) :=
  cs.foldl (fun h c => match c with
    | some wanted => apply outcome wanted h
    | none => clear outcome h) h

end Calls

/-! ### The invariant -/

/-- A shared network goes with the keep rule of every tunnel network, and `installed` names
the shared networks in the kernel. -/
structure Safe (tunnel : List N) (s : Router N) : Prop where
  kept_of_shared : ∀ n, sharedRule n ∈ s.kernel → ∀ t ∈ tunnel, keepRule t ∈ s.kernel
  shared_iff : ∀ n, sharedRule n ∈ s.kernel ↔ n ∈ s.installed

/-- What holds between the commands of the first two loops, and between calls.  The networks
of `held` are those that must stay shared. -/
structure Consistent (tunnel : List N) (held : Set N) (s : Router N) : Prop where
  tunnel_eq : s.tunnelNetworks = tunnel
  shared_iff : ∀ n, sharedRule n ∈ s.kernel ↔ n ∈ s.installed
  keep_mem : ∀ t ∈ s.tunnelNetworksKept, keepRule t ∈ s.kernel
  kept_subset : s.tunnelNetworksKept ⊆ tunnel
  kept_nodup : s.tunnelNetworksKept.Nodup
  all_kept : s.installed ≠ [] → ∀ t ∈ tunnel, t ∈ s.tunnelNetworksKept
  held_mem : ∀ n ∈ held, n ∈ s.installed

/-- What holds after every command of a call. -/
def Watched (tunnel : List N) (held : Set N) (s : Router N) : Prop :=
  Safe tunnel s ∧ ∀ n ∈ held, sharedRule n ∈ s.kernel

section Invariant

variable {tunnel : List N} {held : Set N} {s : Router N}

theorem Consistent.watched (hs : Consistent tunnel held s) : Watched tunnel held s := by
  refine ⟨⟨fun n hn t ht => ?_, hs.shared_iff⟩,
    fun n hn => (hs.shared_iff n).mpr (hs.held_mem n hn)⟩
  have hinstalled : n ∈ s.installed := (hs.shared_iff n).mp hn
  exact hs.keep_mem t (hs.all_kept (List.ne_nil_of_mem hinstalled) t ht)

theorem Consistent.hold (hs : Consistent tunnel ∅ s) {held : Set N}
    (hheld : ∀ n ∈ held, sharedRule n ∈ s.kernel) : Consistent tunnel held s :=
  ⟨hs.1, hs.2, hs.3, hs.4, hs.5, hs.6, fun n hn => (hs.shared_iff n).mp (hheld n hn)⟩

theorem Consistent.all_kept_of_length (hs : Consistent tunnel held s)
    (hlen : s.tunnelNetworksKept.length = s.tunnelNetworks.length) :
    ∀ t ∈ tunnel, t ∈ s.tunnelNetworksKept := by
  have hsub : s.tunnelNetworksKept.Subperm tunnel := hs.kept_nodup.subperm hs.kept_subset
  have hperm : s.tunnelNetworksKept.Perm tunnel :=
    hsub.perm_of_length_le (by rw [hlen, hs.tunnel_eq])
  intro t ht
  exact hperm.mem_iff.mpr ht

theorem Consistent.length_of_all_kept (hs : Consistent tunnel held s) (hnodup : tunnel.Nodup)
    (hall : ∀ t ∈ tunnel, t ∈ s.tunnelNetworksKept) :
    s.tunnelNetworksKept.length = s.tunnelNetworks.length := by
  have hle : s.tunnelNetworksKept.length ≤ tunnel.length :=
    (hs.kept_nodup.subperm hs.kept_subset).length_le
  have hge : tunnel.length ≤ s.tunnelNetworksKept.length :=
    (hnodup.subperm hall).length_le
  rw [hs.tunnel_eq]
  omega

/-- A command that fails leaves everything but the error as it was, save for a keep rule that
`apply` wanted to take out. -/
theorem Consistent.failed (hs : Consistent tunnel held s) (hc : ∀ n, c ≠ .stopKeeping n) :
    Consistent tunnel held (s.failed c) := by
  cases c with
  | stopKeeping n => exact absurd rfl (hc n)
  | add n => exact ⟨hs.1, hs.2, hs.3, hs.4, hs.5, hs.6, hs.7⟩
  | remove n => exact ⟨hs.1, hs.2, hs.3, hs.4, hs.5, hs.6, hs.7⟩
  | keepInTunnel n => exact ⟨hs.1, hs.2, hs.3, hs.4, hs.5, hs.6, hs.7⟩

/-- What holds in the third loop: nothing is shared, and the networks still on the list
`pending` are not back on the books. -/
structure Closing (tunnel pending : List N) (s : Router N) : Prop where
  tunnel_eq : s.tunnelNetworks = tunnel
  installed_nil : s.installed = []
  not_shared : ∀ n, sharedRule n ∉ s.kernel
  keep_mem : ∀ t ∈ s.tunnelNetworksKept ++ pending, keepRule t ∈ s.kernel
  kept_subset : s.tunnelNetworksKept ++ pending ⊆ tunnel
  kept_nodup : (s.tunnelNetworksKept ++ pending).Nodup

theorem Closing.safe {pending : List N} (hs : Closing tunnel pending s) : Safe tunnel s where
  kept_of_shared n hn := absurd hn (hs.not_shared n)
  shared_iff n := by simp [hs.not_shared n, hs.installed_nil]

theorem Closing.consistent (hs : Closing tunnel [] s) : Consistent tunnel ∅ s where
  tunnel_eq := hs.tunnel_eq
  shared_iff := hs.safe.shared_iff
  keep_mem t ht := hs.keep_mem t (by simpa using ht)
  kept_subset := by simpa using hs.kept_subset
  kept_nodup := by simpa using hs.kept_nodup
  all_kept hi := absurd hs.installed_nil hi
  held_mem _ hm := hm.elim

end Invariant

section Steps

variable [DecidableEq N] {tunnel : List N} {held : Set N} {s : Router N} {n : N}
  {h : Host (Router N)} (outcome : ℕ → Bool)

theorem Consistent.keepInTunnel (hs : Consistent tunnel held s) (hn : n ∈ tunnel)
    (hnew : n ∉ s.tunnelNetworksKept) :
    Consistent tunnel held (s.succeeded (.keepInTunnel n)) where
  tunnel_eq := hs.tunnel_eq
  shared_iff m := by
    simpa [Router.succeeded, execute, BypassChange.command] using hs.shared_iff m
  keep_mem t ht := by
    have ht' : t ∈ s.tunnelNetworksKept ∨ t = n := by simpa [Router.succeeded] using ht
    rcases ht' with ht' | rfl
    · exact Finset.mem_insert_of_mem (hs.keep_mem t ht')
    · exact Finset.mem_insert_self _ _
  kept_subset := by
    simpa [Router.succeeded] using ⟨hs.kept_subset, hn⟩
  kept_nodup := by
    simpa [Router.succeeded, List.nodup_append, hs.kept_nodup] using fun t ht => by
      rintro rfl
      exact hnew ht
  all_kept hi t ht := List.mem_append_left _ (hs.all_kept hi t ht)
  held_mem := hs.held_mem

theorem Consistent.add (hs : Consistent tunnel held s)
    (hall : ∀ t ∈ tunnel, t ∈ s.tunnelNetworksKept) :
    Consistent tunnel held (s.succeeded (.add n)) where
  tunnel_eq := hs.tunnel_eq
  shared_iff m := by
    simp [Router.succeeded, execute, BypassChange.command, hs.shared_iff m, or_comm]
  keep_mem t ht := Finset.mem_insert_of_mem (hs.keep_mem t ht)
  kept_subset := hs.kept_subset
  kept_nodup := hs.kept_nodup
  all_kept _ := hall
  held_mem m hm := List.mem_append_left _ (hs.held_mem m hm)

theorem Consistent.remove (hs : Consistent tunnel held s) (hn : n ∉ held) :
    Consistent tunnel held (s.succeeded (.remove n)) where
  tunnel_eq := hs.tunnel_eq
  shared_iff m := by
    simp [Router.succeeded, execute, BypassChange.command, hs.shared_iff m, and_comm]
  keep_mem t ht := Finset.mem_erase_of_ne_of_mem (keepRule_ne_sharedRule t n) (hs.keep_mem t ht)
  kept_subset := hs.kept_subset
  kept_nodup := hs.kept_nodup
  all_kept hi := by
    refine hs.all_kept fun hnil => hi ?_
    simp [Router.succeeded, hnil]
  held_mem m hm := by
    have hne : m ≠ n := by
      rintro rfl
      exact hn hm
    simpa [Router.succeeded, hne] using hs.held_mem m hm

theorem runChange_consistent (hs : Consistent tunnel held h.state) (hc : ∀ n, c ≠ .stopKeeping n)
    (hok : Consistent tunnel held (h.state.succeeded c)) :
    Consistent tunnel held (runChange outcome c h).state
      ∧ Through (Watched tunnel held) h (runChange outcome c h) := by
  have hstate : Consistent tunnel held (runChange outcome c h).state := by
    rw [runChange, Host.run_state]
    split
    · exact hok
    · exact hs.failed hc
  exact ⟨hstate, through_run hstate.watched⟩

/-! ### The loops of `apply` -/

theorem keepNetworks_consistent (wanted) (hs : Consistent tunnel held h.state) :
    Consistent tunnel held (keepNetworks outcome wanted h).state
      ∧ Through (Watched tunnel held) h (keepNetworks outcome wanted h) := by
  unfold keepNetworks
  split
  · refine foldl_through (fun h n hn hs' => ?_) hs
    unfold keepTurn
    split
    · exact ⟨hs', .refl h⟩
    · rename_i hnew
      exact runChange_consistent outcome hs' (by simp) (hs'.keepInTunnel (hs.tunnel_eq ▸ hn) hnew)
  · exact ⟨hs, .refl h⟩

theorem updateTurn_true (c) :
    updateTurn outcome true h c = runChange outcome c h := by
  cases c <;> rfl

theorem updateTurn_remove (kept : Bool) :
    updateTurn outcome kept h (.remove n) = runChange outcome (.remove n) h := rfl

/-- The second loop: the keep rules do not change, so what their number said before the loop
stays true in it. -/
theorem updateNetworks_consistent (wanted) (hheld : ∀ n ∈ held, n ∈ wanted)
    (hs : Consistent tunnel held h.state) :
    Consistent tunnel held (updateNetworks outcome wanted h).state
      ∧ Through (Watched tunnel held) h (updateNetworks outcome wanted h) := by
  suffices hloop : (Consistent tunnel held (updateNetworks outcome wanted h).state
      ∧ (updateNetworks outcome wanted h).state.tunnelNetworksKept = h.state.tunnelNetworksKept)
      ∧ Through (Watched tunnel held) h (updateNetworks outcome wanted h) from
    ⟨hloop.1.1, hloop.2⟩
  refine foldl_through (I := fun s => Consistent tunnel held s
    ∧ s.tunnelNetworksKept = h.state.tunnelNetworksKept) ?_ ⟨hs, rfl⟩
  rintro h' c hc ⟨hs', hkept⟩
  have hsame : ∀ c : BypassChange N, (∃ n, c = .add n) ∨ (∃ n, c = .remove n) →
      (runChange outcome c h').state.tunnelNetworksKept = h.state.tunnelNetworksKept := by
    rintro c (⟨n, rfl⟩ | ⟨n, rfl⟩) <;>
    · rw [runChange, Host.run_state, ← hkept]
      split <;> rfl
  obtain ⟨n, rfl⟩ | ⟨n, rfl⟩ := eq_add_or_remove_of_mem_plan hc
  · cases hlen : (h.state.tunnelNetworksKept.length == h.state.tunnelNetworks.length) with
    | false => exact ⟨⟨hs', hkept⟩, .refl h'⟩
    | true =>
      have hall : ∀ t ∈ tunnel, t ∈ h'.state.tunnelNetworksKept := by
        rw [hkept]
        exact hs.all_kept_of_length (by simpa using hlen)
      obtain ⟨hok, hthrough⟩ :=
        runChange_consistent outcome hs' (by simp) (hs'.add (n := n) hall)
      rw [updateTurn_true]
      exact ⟨⟨hok, hsame _ (.inl ⟨n, rfl⟩)⟩, hthrough⟩
  · have hn : n ∉ held := fun hn => (remove_mem_planBypassUpdate.mp hc).2 (hheld n hn)
    obtain ⟨hok, hthrough⟩ :=
      runChange_consistent outcome hs' (by simp) (hs'.remove hn)
    rw [updateTurn_remove]
    exact ⟨⟨hok, hsame _ (.inr ⟨n, rfl⟩)⟩, hthrough⟩

theorem stopTurn_closing {pending : List N} (hs : Closing tunnel (n :: pending) h.state) :
    Closing tunnel pending (stopTurn outcome h n).state := by
  have hnodup := hs.kept_nodup
  rw [stopTurn, runChange, Host.run_state]
  split
  · refine ⟨hs.tunnel_eq, hs.installed_nil, fun m hm => ?_, fun t ht => ?_, fun t ht => ?_, ?_⟩
    · exact hs.not_shared m (Finset.mem_of_mem_erase hm)
    · have hne : t ≠ n := by
        rintro rfl
        simp only [Router.succeeded] at ht
        grind
      refine Finset.mem_erase_of_ne_of_mem (by simpa using hne) (hs.keep_mem t ?_)
      simp only [Router.succeeded] at ht
      grind
    · refine hs.kept_subset ?_
      simp only [Router.succeeded] at ht
      grind
    · simp only [Router.succeeded]
      grind
  · -- the network goes back on the books, from the front of the list to the end of the books
    have hmove : (h.state.failed (.stopKeeping n)).tunnelNetworksKept ++ pending
        = h.state.tunnelNetworksKept ++ n :: pending := by
      simp [Router.failed]
    refine ⟨hs.tunnel_eq, hs.installed_nil, hs.not_shared, ?_, ?_, ?_⟩
    · rw [hmove]
      exact hs.keep_mem
    · rw [hmove]
      exact hs.kept_subset
    · rw [hmove]
      exact hs.kept_nodup

theorem foldl_stopTurn {pending : List N} (hs : Closing tunnel pending h.state) :
    Consistent tunnel ∅ (pending.foldl (stopTurn outcome) h).state
      ∧ Through (Watched tunnel ∅) h (pending.foldl (stopTurn outcome) h) := by
  induction pending generalizing h with
  | nil => exact ⟨hs.consistent, .refl h⟩
  | cons n pending ih =>
    have hturn := stopTurn_closing outcome hs
    have hrest := ih hturn
    have hwatched : Watched tunnel ∅ (stopTurn outcome h n).state :=
      ⟨hturn.safe, fun _ hm => hm.elim⟩
    exact ⟨hrest.1, (through_run hwatched).trans hrest.2⟩

theorem releaseNetworks_consistent (hs : Consistent tunnel held h.state) :
    Consistent tunnel held (releaseNetworks outcome h).state
      ∧ Through (Watched tunnel held) h (releaseNetworks outcome h) := by
  unfold releaseNetworks
  split
  · rename_i hnil
    -- nothing is shared, so nothing has to stay shared
    have hheld : held = ∅ := by
      refine Set.eq_empty_of_forall_notMem fun n hn => ?_
      simpa [hnil] using hs.held_mem n hn
    subst hheld
    have hclosing : Closing tunnel h.state.tunnelNetworksKept
        (h.modify fun s => { s with tunnelNetworksKept := [] }).state := by
      refine ⟨hs.tunnel_eq, hnil, fun n hn => ?_, ?_, ?_, ?_⟩
      · simpa [hnil] using (hs.shared_iff n).mp hn
      · simpa using hs.keep_mem
      · simpa using hs.kept_subset
      · simpa using hs.kept_nodup
    obtain ⟨hdone, hthrough⟩ := foldl_stopTurn outcome hclosing
    exact ⟨hdone, hthrough.of_modify⟩
  · exact ⟨hs, .refl h⟩

/-- **One call.** The networks of `held`, wanted and shared before the call, stay shared. -/
theorem apply_steady (wanted) (hheld : ∀ n ∈ held, n ∈ wanted)
    (hs : Consistent tunnel held h.state) :
    Consistent tunnel held (apply outcome wanted h).state
      ∧ Through (Watched tunnel held) h (apply outcome wanted h) := by
  have hstart : Consistent tunnel held (h.modify fun s => { s with firstError := none }).state :=
    ⟨hs.1, hs.2, hs.3, hs.4, hs.5, hs.6, hs.7⟩
  obtain ⟨hs₁, ht₁⟩ := keepNetworks_consistent outcome wanted hstart
  obtain ⟨hs₂, ht₂⟩ := updateNetworks_consistent outcome wanted hheld hs₁
  obtain ⟨hs₃, ht₃⟩ := releaseNetworks_consistent outcome hs₂
  exact ⟨hs₃, (ht₁.of_modify.trans ht₂).trans ht₃⟩

theorem calls_consistent (cs : List (Option (List N))) (hs : Consistent tunnel ∅ h.state) :
    Consistent tunnel ∅ (calls outcome cs h).state
      ∧ Through (Watched tunnel ∅) h (calls outcome cs h) := by
  refine foldl_through (fun h c _ hs => ?_) hs
  cases c with
  | none => exact apply_steady outcome [] (by simp) hs
  | some wanted => exact apply_steady outcome wanted (by simp) hs

/-! ### Calls whose commands all succeed -/

theorem runChange_of_succeeds (hok : Succeeds outcome h (runChange outcome c h)) :
    (runChange outcome c h).state = h.state.succeeded c :=
  hok.run_state

theorem length_le_runChange (c : BypassChange N) (h) :
    h.history.length ≤ (runChange outcome c h).history.length :=
  Nat.le_succ _

theorem length_le_keepTurn (h : Host (Router N)) (n) :
    h.history.length ≤ (keepTurn outcome h n).history.length := by
  unfold keepTurn
  split
  · exact Nat.le_refl _
  · exact length_le_runChange outcome _ h

theorem length_le_updateTurn (kept : Bool) (h : Host (Router N)) (c) :
    h.history.length ≤ (updateTurn outcome kept h c).history.length := by
  unfold updateTurn
  split
  · exact Nat.le_refl _
  · exact length_le_runChange outcome _ h

theorem foldl_keepTurn_of_succeeds
    (hok : Succeeds outcome h (h.state.tunnelNetworks.foldl (keepTurn outcome) h)) :
    (∀ t ∈ h.state.tunnelNetworks,
        t ∈ (h.state.tunnelNetworks.foldl (keepTurn outcome) h).state.tunnelNetworksKept)
      ∧ (h.state.tunnelNetworks.foldl (keepTurn outcome) h).state.firstError
        = h.state.firstError := by
  -- each tunnel network is on the books already or has its turn still to come
  have hdone := hok.foldl (R := fun rest s =>
    (∀ t ∈ h.state.tunnelNetworks, t ∈ s.tunnelNetworksKept ∨ t ∈ rest)
      ∧ s.firstError = h.state.firstError) (length_le_keepTurn outcome) ?_ ⟨fun t => .inr, rfl⟩
  · exact ⟨fun t ht => (hdone.1 t ht).resolve_right (by simp), hdone.2⟩
  rintro h' n rest ⟨hkept, herror⟩ hturn
  unfold keepTurn at hturn ⊢
  split at hturn
  · rename_i hmem
    rw [if_pos hmem]
    refine ⟨fun t ht => ?_, herror⟩
    rcases hkept t ht with hin | hin
    · exact .inl hin
    · rcases List.mem_cons.mp hin with rfl | hin
      · exact .inl hmem
      · exact .inr hin
  · rename_i hmem
    rw [if_neg hmem, runChange_of_succeeds outcome hturn]
    refine ⟨fun t ht => ?_, herror⟩
    have hin := hkept t ht
    simp only [Router.succeeded, List.mem_append, List.mem_cons, List.not_mem_nil,
      or_false] at hin ⊢
    tauto

theorem keepNetworks_of_succeeds {wanted : List N}
    (hok : Succeeds outcome h (keepNetworks outcome wanted h)) :
    (wanted ≠ [] → ∀ t ∈ h.state.tunnelNetworks,
        t ∈ (keepNetworks outcome wanted h).state.tunnelNetworksKept)
      ∧ (keepNetworks outcome wanted h).state.firstError = h.state.firstError := by
  unfold keepNetworks at hok ⊢
  split at hok
  · rename_i hwanted
    rw [if_pos hwanted]
    obtain ⟨hkept, herror⟩ := foldl_keepTurn_of_succeeds outcome hok
    exact ⟨fun _ => hkept, herror⟩
  · rename_i hwanted
    rw [if_neg hwanted]
    exact ⟨fun hne => absurd hne hwanted, rfl⟩

/-- The changes of a plan that are still to be made take the installed networks to the wanted
ones. -/
structure Leads (wanted : List N) (changes : List (BypassChange N)) (installed : List N) :
    Prop where
  only : ∀ c ∈ changes, (∃ n, c = .add n) ∨ ∃ n, c = .remove n
  wanted_of_add : ∀ n, .add n ∈ changes → n ∈ wanted
  not_wanted_of_remove : ∀ n, .remove n ∈ changes → n ∉ wanted
  of_wanted : ∀ n ∈ wanted, n ∈ installed ∨ .add n ∈ changes
  of_installed : ∀ n ∈ installed, n ∈ wanted ∨ .remove n ∈ changes

theorem leads_planBypassUpdate (installed wanted : List N) :
    Leads wanted (planBypassUpdate installed wanted) installed where
  only _ := eq_add_or_remove_of_mem_plan
  wanted_of_add _ hn := (add_mem_planBypassUpdate.mp hn).1
  not_wanted_of_remove _ hn := (remove_mem_planBypassUpdate.mp hn).2
  of_wanted n hn := by
    by_cases hin : n ∈ installed
    · exact .inl hin
    · exact .inr (add_mem_planBypassUpdate.mpr ⟨hn, hin⟩)
  of_installed n hn := by
    by_cases hin : n ∈ wanted
    · exact .inl hin
    · exact .inr (remove_mem_planBypassUpdate.mpr ⟨hn, hin⟩)

theorem Leads.succeeded {wanted : List N} {rest : List (BypassChange N)}
    (hl : Leads wanted (c :: rest) s.installed) : Leads wanted rest (s.succeeded c).installed := by
  have honly := fun c hc => hl.only c (List.mem_cons_of_mem _ hc)
  have hadd := fun n hn => hl.wanted_of_add n (List.mem_cons_of_mem _ hn)
  have hremove := fun n hn => hl.not_wanted_of_remove n (List.mem_cons_of_mem _ hn)
  obtain ⟨m, rfl⟩ | ⟨m, rfl⟩ := hl.only c List.mem_cons_self
  · have hm : m ∈ wanted := hl.wanted_of_add m List.mem_cons_self
    refine ⟨honly, hadd, hremove, fun n hn => ?_, fun n hn => ?_⟩
    · have hin := hl.of_wanted n hn
      simp only [Router.succeeded, List.mem_append, List.mem_cons, List.not_mem_nil, or_false,
        BypassChange.add.injEq] at hin ⊢
      tauto
    · simp only [Router.succeeded, List.mem_append, List.mem_singleton] at hn
      rcases hn with hn | rfl
      · simpa using hl.of_installed n hn
      · exact .inl hm
  · have hm : m ∉ wanted := hl.not_wanted_of_remove m List.mem_cons_self
    refine ⟨honly, hadd, hremove, fun n hn => ?_, fun n hn => ?_⟩
    · have hne : n ≠ m := by
        rintro rfl
        exact hm hn
      simpa [Router.succeeded, hne] using hl.of_wanted n hn
    · simp only [Router.succeeded, List.mem_filter, decide_eq_true_eq] at hn
      simpa [hn.2] using hl.of_installed n hn.1

/-- After the second loop the installed networks are the wanted ones, if the keep rules let
them be added. -/
theorem updateNetworks_of_succeeds {wanted : List N}
    (hkept : wanted ≠ [] → h.state.tunnelNetworksKept.length = h.state.tunnelNetworks.length)
    (hok : Succeeds outcome h (updateNetworks outcome wanted h)) :
    (∀ n, n ∈ (updateNetworks outcome wanted h).state.installed ↔ n ∈ wanted)
      ∧ (updateNetworks outcome wanted h).state.firstError = h.state.firstError := by
  have hdone := Succeeds.foldl (R := fun rest s =>
    Leads wanted rest s.installed ∧ s.firstError = h.state.firstError)
    (length_le_updateTurn outcome _) ?_ hok ⟨leads_planBypassUpdate _ _, rfl⟩
  · obtain ⟨hl, herror⟩ := hdone
    refine ⟨fun n => ⟨fun hn => ?_, fun hn => ?_⟩, herror⟩
    · exact (hl.of_installed n hn).resolve_right (by simp)
    · exact (hl.of_wanted n hn).resolve_right (by simp)
  rintro h' c rest ⟨hl, herror⟩ hturn
  have hrun : updateTurn outcome
      (h.state.tunnelNetworksKept.length == h.state.tunnelNetworks.length) h' c
        = runChange outcome c h' := by
    obtain ⟨n, rfl⟩ | ⟨n, rfl⟩ := hl.only c List.mem_cons_self
    · have hwanted := List.ne_nil_of_mem (hl.wanted_of_add n List.mem_cons_self)
      rw [beq_iff_eq.mpr (hkept hwanted), updateTurn_true]
    · exact updateTurn_remove outcome _
  rw [hrun] at hturn ⊢
  rw [runChange_of_succeeds outcome hturn]
  exact ⟨hl.succeeded, herror⟩

theorem releaseNetworks_of_succeeds (hok : Succeeds outcome h (releaseNetworks outcome h)) :
    (releaseNetworks outcome h).state.installed = h.state.installed
      ∧ (releaseNetworks outcome h).state.firstError = h.state.firstError := by
  unfold releaseNetworks at hok ⊢
  split at hok
  · rename_i hnil
    rw [if_pos hnil]
    refine Succeeds.foldl (R := fun _ s => s.installed = h.state.installed
      ∧ s.firstError = h.state.firstError)
      (fun h n => length_le_runChange outcome (.stopKeeping n) h) ?_ (hok.modify _) ⟨rfl, rfl⟩
    rintro h' n rest ⟨hinstalled, herror⟩ hturn
    rw [runChange_of_succeeds outcome hturn]
    exact ⟨hinstalled, herror⟩
  · rename_i hnil
    rw [if_neg hnil]
    exact ⟨rfl, rfl⟩

/-- **A call whose commands all succeed.** Its error is none, and the shared networks are the
wanted ones. -/
theorem apply_installs {wanted : List N} (hnodup : tunnel.Nodup)
    (hs : Consistent tunnel ∅ h.state) (hok : Succeeds outcome h (apply outcome wanted h)) :
    (apply outcome wanted h).state.firstError = none
      ∧ ∀ n, n ∈ (apply outcome wanted h).state.installed ↔ n ∈ wanted := by
  -- the three loops and the hosts between them
  set h₀ := h.modify fun s => { s with firstError := none } with hh₀
  set h₁ := keepNetworks outcome wanted h₀ with hh₁
  set h₂ := updateNetworks outcome wanted h₁ with hh₂
  have hs₀ : Consistent tunnel ∅ h₀.state := ⟨hs.1, hs.2, hs.3, hs.4, hs.5, hs.6, hs.7⟩
  obtain ⟨hs₁, ht₁⟩ := keepNetworks_consistent outcome wanted hs₀
  obtain ⟨hs₂, ht₂⟩ := updateNetworks_consistent outcome wanted (by simp) hs₁
  obtain ⟨-, ht₃⟩ := releaseNetworks_consistent outcome hs₂
  have hok₁ : Succeeds outcome h₀ h₁ := hok.left (ht₂.trans ht₃).length_le
  have hok₂ : Succeeds outcome h₁ h₂ := (hok.right ht₁.length_le).left ht₃.length_le
  have hok₃ : Succeeds outcome h₂ (apply outcome wanted h) := hok.right (ht₁.trans ht₂).length_le
  obtain ⟨hkept, herror₁⟩ := keepNetworks_of_succeeds outcome hok₁
  obtain ⟨hinstalled, herror₂⟩ := updateNetworks_of_succeeds outcome
    (fun hwanted => hs₁.length_of_all_kept hnodup fun t ht =>
      hkept hwanted t (hs₀.tunnel_eq.symm ▸ ht)) hok₂
  obtain ⟨hsame, herror₃⟩ := releaseNetworks_of_succeeds outcome hok₃
  refine ⟨herror₃.trans (herror₂.trans herror₁), fun n => ?_⟩
  rw [← hinstalled n]
  exact hsame ▸ Iff.rfl

/-! ### Dropping the rules -/

/-- The part of `Safe` that outlives the bookkeeping. -/
def KeptOfShared (tunnel : List N) (s : Router N) : Prop :=
  ∀ n, sharedRule n ∈ s.kernel → ∀ t ∈ tunnel, keepRule t ∈ s.kernel

theorem runBlocking_kernel (c) :
    (runBlocking outcome c h).state.kernel
      = if outcome h.history.length then execute h.state.kernel c.command else h.state.kernel := by
  rw [runBlocking, Host.run_state]
  split <;> rfl

theorem sharedRule_mem_of_runBlocking_remove {m : N}
    (hm : sharedRule m ∈ (runBlocking outcome (.remove n) h).state.kernel) :
    sharedRule m ∈ h.state.kernel := by
  rw [runBlocking_kernel] at hm
  split at hm
  · exact Finset.mem_of_mem_erase hm
  · exact hm

theorem sharedRule_mem_of_runBlocking_stopKeeping {m : N}
    (hm : sharedRule m ∈ (runBlocking outcome (.stopKeeping n) h).state.kernel) :
    sharedRule m ∈ h.state.kernel := by
  rw [runBlocking_kernel] at hm
  split at hm
  · exact Finset.mem_of_mem_erase hm
  · exact hm

theorem keepRule_mem_runBlocking_remove {t : N} (ht : keepRule t ∈ h.state.kernel) :
    keepRule t ∈ (runBlocking outcome (.remove n) h).state.kernel := by
  rw [runBlocking_kernel]
  split
  · exact Finset.mem_erase_of_ne_of_mem (keepRule_ne_sharedRule t n) ht
  · exact ht

theorem dropShared_through (hs : Consistent tunnel held h.state) :
    Through (KeptOfShared tunnel) h (dropShared outcome h) := by
  have hstart : KeptOfShared tunnel (h.modify fun s => { s with installed := [] }).state :=
    hs.watched.1.kept_of_shared
  refine (foldl_through (I := KeptOfShared tunnel) ?_ hstart).2.of_modify
  intro h n _ hkept
  have hstep : KeptOfShared tunnel (runBlocking outcome (.remove n) h).state := by
    intro m hm t ht
    have hm' := sharedRule_mem_of_runBlocking_remove outcome hm
    exact keepRule_mem_runBlocking_remove outcome (hkept m hm' t ht)
  exact ⟨hstep, through_run hstep⟩

theorem dropShared_of_succeeds (hs : Consistent tunnel held h.state)
    (hok : Succeeds outcome h (dropShared outcome h)) (n) :
    sharedRule n ∉ (dropShared outcome h).state.kernel := by
  have hdone := Succeeds.foldl (R := fun rest s => ∀ m, sharedRule m ∈ s.kernel → m ∈ rest)
    (fun h n => Nat.le_succ _) ?_ (hok.modify _) (fun m hm => (hs.shared_iff m).mp hm)
  · intro hn
    simpa using hdone n hn
  intro h' m rest hrest hturn l hl
  have hkernel : (runBlocking outcome (.remove m) h').state.kernel
      = h'.state.kernel.erase (sharedRule m) := congrArg Router.kernel hturn.run_state
  rw [hkernel, Finset.mem_erase] at hl
  have hne : l ≠ m := by simpa using hl.1
  exact (List.mem_cons.mp (hrest l hl.2)).resolve_left hne

/-- `drop` removes the keep rules whether or not the shared networks went out before them, so what
it needs is that these did. -/
theorem drop_through (hs : Consistent tunnel held h.state)
    (hok : Succeeds outcome h (dropShared outcome h)) :
    Through (KeptOfShared tunnel) h (drop outcome h) := by
  have hstart : ∀ n, sharedRule n ∉
      ((dropShared outcome h).modify fun s => { s with tunnelNetworksKept := [] }).state.kernel :=
    dropShared_of_succeeds outcome hs hok
  refine (dropShared_through outcome hs).trans (foldl_through (I := fun s =>
    ∀ n, sharedRule n ∉ s.kernel) ?_ hstart).2.of_modify
  intro h t _ hnone
  have hstep : ∀ n, sharedRule n ∉ (runBlocking outcome (.stopKeeping t) h).state.kernel :=
    fun n hn => hnone n (sharedRule_mem_of_runBlocking_stopKeeping outcome hn)
  exact ⟨hstep, through_run fun n hn => absurd hn (hstep n)⟩

end Steps

/-! ### Every sequence of calls -/

theorem consistent_withRunner {kernel : Finset (IpRule N)} (tunnel : List N)
    (hfresh : ∀ n, sharedRule n ∉ kernel) :
    Consistent tunnel ∅ (withRunner kernel tunnel).state where
  tunnel_eq := rfl
  shared_iff n := by simp [withRunner, Host.new, hfresh n]
  keep_mem _ ht := by cases ht
  kept_subset := List.nil_subset tunnel
  kept_nodup := List.nodup_nil
  all_kept hne := absurd rfl hne
  held_mem _ hn := hn.elim

/-- **The tunnel's own networks stay in the tunnel.** Start on a kernel without shared
networks, and let any of the commands fail.  After every command of every sequence of calls
the rules are `Safe`; a wanted network that is shared when a call starts is shared after each
of its commands; and if the tunnel networks have no duplicates, a call whose commands succeed
shares the wanted networks and no other. -/
theorem bypass_rules_keep_tunnel [DecidableEq N] (outcome : ℕ → Bool) (kernel : Finset (IpRule N))
    (tunnel : List N) (cs : List (Option (List N))) (hfresh : ∀ n, sharedRule n ∉ kernel) :
    let h := calls outcome cs (withRunner kernel tunnel)
    (∀ s ∈ h.history, Safe tunnel s) ∧ Safe tunnel h.state ∧
    ∀ wanted : List N,
      (∀ n ∈ wanted, sharedRule n ∈ h.state.kernel →
        Through (fun s => sharedRule n ∈ s.kernel) h (apply outcome wanted h)) ∧
      (tunnel.Nodup → Succeeds outcome h (apply outcome wanted h) →
        (apply outcome wanted h).state.firstError = none ∧
        ∀ n, n ∈ (apply outcome wanted h).state.installed ↔ n ∈ wanted) := by
  intro h
  obtain ⟨hs, hthrough⟩ := calls_consistent outcome cs (consistent_withRunner tunnel hfresh)
  refine ⟨?_, hs.watched.1, fun wanted => ⟨fun n hn hshared => ?_, fun hnodup hok => ?_⟩⟩
  · exact (hthrough.mono fun s hw => hw.1).forall_mem fun s hs => by cases hs
  · have hheld : Consistent tunnel {n} h.state := hs.hold fun m hm => by
      rw [Set.mem_singleton_iff.mp hm]
      exact hshared
    have hsteady := apply_steady outcome wanted
      (fun m hm => Set.mem_singleton_iff.mp hm ▸ hn) hheld
    exact hsteady.2.mono fun s hw => hw.2 n rfl
  · exact apply_installs outcome hnodup hs hok

theorem bypass_rules_keep_tunnel_resharing :
    let h := calls (fun _ => true) [some [1, 2]] (withRunner ∅ [7])
    Through (fun s => sharedRule 2 ∈ s.kernel) h (apply (fun _ => true) [2, 3] h) ∧
    ∀ n, n ∈ (apply (fun _ => true) [2, 3] h).state.installed ↔ n ∈ [2, 3] := by
  have hall := (bypass_rules_keep_tunnel (fun _ => true) ∅ [7] [some [1, 2]] (by simp)).2.2 [2, 3]
  exact ⟨hall.1 2 (by decide) (by decide), (hall.2 (by decide) fun _ _ _ => rfl).2⟩

/-- With a tunnel network named twice, a call whose commands all succeed reports no error and
shares nothing: one network kept is never as many as two named. -/
theorem duplicate_tunnel_network_shares_nothing :
    let h := withRunner ∅ [0, 0]
    let h' := apply (fun _ => true) [1] h
    Succeeds (fun _ => true) h h' ∧ h'.state.firstError = none ∧ h'.state.installed = [] ∧
      sharedRule 1 ∉ h'.state.kernel := by
  refine ⟨fun _ _ _ => rfl, rfl, rfl, by decide⟩

/-- **Dropping the rules.** After every sequence of calls, of whose commands any may fail: if the
shared networks go out, then the tunnel's own networks are kept after every command of `drop` for
as long as any network is shared. -/
theorem drop_keeps_tunnel [DecidableEq N] (outcome : ℕ → Bool) (kernel : Finset (IpRule N))
    (tunnel : List N) (cs : List (Option (List N))) (hfresh : ∀ n, sharedRule n ∉ kernel)
    (hok : Succeeds outcome (calls outcome cs (withRunner kernel tunnel))
      (dropShared outcome (calls outcome cs (withRunner kernel tunnel)))) :
    Through (KeptOfShared tunnel) (calls outcome cs (withRunner kernel tunnel))
      (drop outcome (calls outcome cs (withRunner kernel tunnel))) := by
  have hs := (calls_consistent outcome cs (consistent_withRunner tunnel hfresh)).1
  exact drop_through outcome hs hok

theorem drop_keeps_tunnel_shared :
    Through (KeptOfShared [7]) (calls (fun _ => true) [some [1, 2]] (withRunner ∅ [7]))
      (drop (fun _ => true) (calls (fun _ => true) [some [1, 2]] (withRunner ∅ [7]))) :=
  drop_keeps_tunnel (fun _ => true) ∅ [7] [some [1, 2]] (by simp) fun _ _ _ => rfl

end WarrenGuard.RouteSplit
