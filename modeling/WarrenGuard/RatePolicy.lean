/-
The rate policy that can be changed at run time (`warrenguard-ratelimit/src/policy.rs`, and the
token bucket of `lib.rs`).

A consume takes the bucket of its key, and builds one from the policy if there is none.
`set_policy` writes the policy and clears the buckets, so that "every key re-resolves against the
new policy on its next consume".  The two are under different locks: a consume that has resolved
the old policy may put its bucket into the map after the clearing.

* `Limiter` — any number of calls of `set_policy` and `try_consume`, one lock section at a time;
* `policy_takes_effect` — a policy takes effect where no consume holds an outdated specification
  when the buckets are cleared, and policies are written in the order of the calls;
* `stale_bucket_survives` — a consume between its two sections keeps the old cap alive.

Design notes: tokens are counted in billionths of a byte, exactly, where the code has `f64`.  A
bucket is shared (`Arc`), so the map holds numbers of buckets in `heap`.  No step reads `writer`,
`cleared` and the `after` of a consume.
-/
import WarrenGuard.Basic
import WarrenGuard.Table
import WarrenGuard.Transition

namespace WarrenGuard.RateLimit

/-! ### Specifications, policies and buckets -/

/-- `RateSpec`, in bytes and bytes per second; its constructor refuses a zero rate. -/
structure RateSpec where
  capacityBytes : ℕ
  rateBps : ℕ
  refills : 0 < rateBps
deriving DecidableEq

inductive RateOverride where
  | unlimited
  | limit (spec : RateSpec)
deriving DecidableEq

structure Policy (K : Type) [DecidableEq K] where
  default : Option RateSpec
  overrides : Table K RateOverride

variable {K : Type} [DecidableEq K]

def Policy.empty : Policy K := ⟨none, ∅⟩

/-- `resolve`: the specification of a key, `none` when it is not limited. -/
def Policy.resolve (p : Policy K) (key : K) : Option RateSpec :=
  match p.overrides.lookup key with
  | some .unlimited => none
  | some (.limit spec) => some spec
  | none => p.default

structure TokenBucket where
  capacityBytes : ℕ
  rateBps : ℕ
  tokens : ℕ
  lastRefill : ℕ
deriving DecidableEq

namespace TokenBucket

def new (spec : RateSpec) (now : ℕ) : TokenBucket :=
  ⟨spec.capacityBytes, spec.rateBps, nanosPerSec * spec.capacityBytes, now⟩

/-- `try_consume_at`: refill, then take the bytes if they are there. -/
def tryConsumeAt (b : TokenBucket) (bytes now : ℕ) : Bool × TokenBucket :=
  let added := (now - b.lastRefill) * b.rateBps
  let tokens := min (b.tokens + added) (nanosPerSec * b.capacityBytes)
  let need := nanosPerSec * bytes
  (decide (need ≤ tokens),
    { b with tokens := if need ≤ tokens then tokens - need else tokens, lastRefill := now })

def BuiltFrom (b : TokenBucket) (spec : RateSpec) : Prop :=
  b.capacityBytes = spec.capacityBytes ∧ b.rateBps = spec.rateBps

theorem builtFrom_new (spec : RateSpec) (now : ℕ) : (new spec now).BuiltFrom spec := ⟨rfl, rfl⟩

theorem BuiltFrom.tryConsumeAt {b : TokenBucket} {spec : RateSpec} (h : b.BuiltFrom spec)
    (bytes now : ℕ) : (b.tryConsumeAt bytes now).2.BuiltFrom spec := ⟨h.1, h.2⟩

end TokenBucket

/-! ### Calls -/

inductive SetPhase where
  | started
  /-- The policy is written, the buckets are not cleared yet. -/
  | written
  | returned
deriving DecidableEq

structure SetCall (K : Type) [DecidableEq K] where
  policy : Policy K
  phase : SetPhase

inductive Verdict where
  /-- The key is not limited. -/
  | unlimited
  | bucket (b : ℕ) (admitted : Bool)
deriving DecidableEq

inductive Consume where
  | started
  /-- There is no bucket for the key. -/
  | missed
  /-- The policy was read; the bucket is not in the map yet. -/
  | resolved (spec : RateSpec)
  /-- The bucket was taken from the map, or put there. -/
  | holding (b : ℕ)
  | decided (verdict : Verdict)
deriving DecidableEq

structure ConsumeCall (K : Type) where
  key : K
  bytes : ℕ
  now : ℕ
  /-- The calls of `set_policy` that had returned when this one started. -/
  after : List ℕ
  phase : Consume
deriving DecidableEq

structure Limiter (K : Type) [DecidableEq K] where
  policy : Policy K
  buckets : Table K ℕ
  heap : List TokenBucket
  setters : Table ℕ (SetCall K)
  consumers : Table ℕ (ConsumeCall K)
  /-- The calls of `set_policy` are numbered as they start. -/
  started : ℕ
  /-- The call that wrote the policy, and whether the buckets were cleared since. -/
  writer : Option ℕ
  cleared : Bool

inductive LimiterEvent (K : Type) [DecidableEq K] where
  | startSet (policy : Policy K)
  | writePolicy (c : ℕ)
  | clearBuckets (c : ℕ)
  | startConsume (d : ℕ) (key : K) (bytes now : ℕ)
  | readBuckets (d : ℕ)
  | readPolicy (d : ℕ)
  | insertBucket (d created : ℕ)
  | consume (d : ℕ)
  | remove (key : K)
  | retainActive (idle now : ℕ)

namespace Limiter

def start : Limiter K := ⟨.empty, ∅, [], ∅, ∅, 0, none, true⟩

variable (s : Limiter K)

def returned : List ℕ :=
  (s.setters.entries.filter fun e => decide (e.2.phase = .returned)).map Sigma.fst

def move (d : ℕ) (call : ConsumeCall K) (phase : Consume) : Limiter K :=
  { s with consumers := s.consumers.insert d { call with phase := phase } }

def decideBy (d : ℕ) (call : ConsumeCall K) (b : ℕ) : Limiter K :=
  match s.heap[b]? with
  | some bucket =>
    let (admitted, bucket) := bucket.tryConsumeAt call.bytes call.now
    { s with heap := s.heap.set b bucket }.move d call (.decided (.bucket b admitted))
  | none => s

/-- One lock section of one call, or the start of a call. -/
def step : LimiterEvent K → Limiter K
  | .startSet policy =>
    { s with setters := s.setters.insert s.started ⟨policy, .started⟩, started := s.started + 1 }
  | .writePolicy c =>
    match s.setters.lookup c with
    | some ⟨policy, .started⟩ =>
      { s with
        policy := policy
        setters := s.setters.insert c ⟨policy, .written⟩
        writer := some c
        cleared := false }
    | _ => s
  | .clearBuckets c =>
    match s.setters.lookup c with
    | some ⟨policy, .written⟩ =>
      { s with
        buckets := ∅
        setters := s.setters.insert c ⟨policy, .returned⟩
        cleared := true }
    | _ => s
  | .startConsume d key bytes now =>
    match s.consumers.lookup d with
    | none => { s with consumers := s.consumers.insert d ⟨key, bytes, now, s.returned, .started⟩ }
    | some _ => s
  | .readBuckets d =>
    match s.consumers.lookup d with
    | some call =>
      if call.phase = .started then
        match s.buckets.lookup call.key with
        -- decided while the map is locked for reading
        | some b => s.decideBy d call b
        | none => s.move d call .missed
      else s
    | none => s
  | .readPolicy d =>
    match s.consumers.lookup d with
    | some call =>
      if call.phase = .missed then
        match s.policy.resolve call.key with
        | some spec => s.move d call (.resolved spec)
        | none => s.move d call (.decided .unlimited)
      else s
    | none => s
  | .insertBucket d created =>
    match s.consumers.lookup d with
    | some call =>
      match call.phase with
      | .resolved spec =>
        match s.buckets.lookup call.key with
        -- another consume was faster
        | some b => s.move d call (.holding b)
        | none =>
          { s with
            heap := s.heap ++ [TokenBucket.new spec created]
            buckets := s.buckets.insert call.key s.heap.length }.move d call
              (.holding s.heap.length)
      | _ => s
    | none => s
  | .consume d =>
    match s.consumers.lookup d with
    | some call =>
      match call.phase with
      | .holding b => s.decideBy d call b
      | _ => s
    | none => s
  | .remove key => { s with buckets := s.buckets.erase key }
  | .retainActive idle now =>
    { s with buckets := s.buckets.retain fun _ b =>
        (s.heap[b]?).any fun bucket => decide (now - bucket.lastRefill < idle) }

def Reachable (ok : Limiter K → LimiterEvent K → Prop) : Limiter K → Prop :=
  Transition.Reachable (· = start) (Transition.Guarded ok step)

/-! ### What decides a consume -/

def BuiltFor (key : K) (b : ℕ) : Prop :=
  ∃ spec bucket, s.policy.resolve key = some spec ∧ s.heap[b]? = some bucket ∧
    bucket.BuiltFrom spec

/-- **What the phase of a consume promises** under the policy in force. -/
def Right (key : K) : Consume → Prop
  | .started => True
  | .missed => True
  | .resolved spec => s.policy.resolve key = some spec
  | .holding b => s.BuiltFor key b
  | .decided .unlimited => s.policy.resolve key = none
  | .decided (.bucket b _) => s.BuiltFor key b

/-- The call `c` is the last call of `set_policy` that was started. -/
def Latest (c : ℕ) : Prop :=
  ∀ c', (s.setters.lookup c').isSome = true → c' ≤ c

/-- What a consume has resolved, and not yet put into the map, is of the policy in force. -/
def UpToDate (call : ConsumeCall K) : Prop :=
  match call.phase with
  | .resolved spec => s.policy.resolve call.key = some spec
  | _ => True

instance (call : ConsumeCall K) : Decidable (s.UpToDate call) := by
  unfold UpToDate
  cases call.phase <;> infer_instance

/-- **The condition under which a policy takes effect.**  No call that started later has
written its policy when a policy is written, and when the buckets are cleared, every
consume that has read the policy and not yet put its bucket into the map has the
specification of the policy in force. -/
def Orderly : LimiterEvent K → Prop
  | .writePolicy c => ∀ e ∈ s.setters.entries, c < e.1 → e.2.phase = .started
  | .clearBuckets _ => ∀ e ∈ s.consumers.entries, s.UpToDate e.2
  | _ => True

instance (e : LimiterEvent K) : Decidable (s.Orderly e) := by
  cases e <;> unfold Orderly <;> infer_instance

/-- **What holds in every orderly run.** -/
structure Current (s : Limiter K) : Prop where
  numbered : ∀ c, (s.setters.lookup c).isSome = true → c < s.started
  wrote : ∀ w, s.writer = some w → ∃ call, s.setters.lookup w = some call ∧
    call.policy = s.policy ∧ (call.phase = .returned → s.cleared = true)
  ordered : ∀ c call, s.setters.lookup c = some call → call.phase ≠ .started →
    ∃ w, s.writer = some w ∧ c ≤ w
  buckets : s.cleared = true → ∀ key b, s.buckets.lookup key = some b → s.BuiltFor key b
  resolved : s.cleared = true → ∀ d call spec, s.consumers.lookup d = some call →
    call.phase = .resolved spec → s.policy.resolve call.key = some spec
  after : ∀ d call, s.consumers.lookup d = some call → ∀ c ∈ call.after,
    (∃ set, s.setters.lookup c = some set ∧ set.phase = .returned) ∧
      (s.Latest c → s.Right call.key call.phase)

variable {s s' : Limiter K} {d c : ℕ} {key : K} {call : ConsumeCall K}

variable {b : ℕ} {heap : List TokenBucket} {set : SetCall K}

theorem Current.of_latest (h : Current s) (hset : s.setters.lookup c = some set)
    (hreturned : set.phase = .returned) (hlatest : s.Latest c) :
    s.policy = set.policy ∧ s.cleared = true := by
  obtain ⟨w, hw, hle⟩ := h.ordered c set hset (by rw [hreturned]; exact SetPhase.noConfusion)
  obtain ⟨call, hcall, hpolicy, hcleared⟩ := h.wrote w hw
  obtain rfl : w = c := Nat.le_antisymm (hlatest w (by rw [hcall]; rfl)) hle
  rw [hset] at hcall
  cases hcall
  exact ⟨hpolicy.symm, hcleared hreturned⟩

/-! ### Steps of a consume -/

def Keeps (heap heap' : List TokenBucket) : Prop :=
  ∀ (b : ℕ) (bucket : TokenBucket) (spec : RateSpec), heap[b]? = some bucket →
    bucket.BuiltFrom spec → ∃ bucket', heap'[b]? = some bucket' ∧ bucket'.BuiltFrom spec

theorem keeps_refl (heap) : Keeps heap heap :=
  fun _ bucket _ hb hspec => ⟨bucket, hb, hspec⟩

theorem keeps_append (heap) (bucket : TokenBucket) :
    Keeps heap (heap ++ [bucket]) := by
  intro b bucket' spec hb hspec
  refine ⟨bucket', ?_, hspec⟩
  obtain ⟨hlt, -⟩ := List.getElem?_eq_some_iff.mp hb
  rw [List.getElem?_append_left hlt, hb]

theorem keeps_set {bucket : TokenBucket} (hb : heap[b]? = some bucket) (bytes now : ℕ) :
    Keeps heap (heap.set b (bucket.tryConsumeAt bytes now).2) := by
  intro b' bucket' spec hb' hspec
  by_cases heq : b = b'
  · subst heq
    obtain rfl : bucket' = bucket := Option.some.inj (hb'.symm.trans hb)
    obtain ⟨hlt, -⟩ := List.getElem?_eq_some_iff.mp hb
    exact ⟨_, List.getElem?_set_self hlt, hspec.tryConsumeAt bytes now⟩
  · exact ⟨bucket', (List.getElem?_set_ne heq).trans hb', hspec⟩

theorem BuiltFor.keeps (h : s.BuiltFor key b) (hpolicy : s'.policy = s.policy)
    (hheap : Keeps s.heap s'.heap) : s'.BuiltFor key b := by
  obtain ⟨spec, bucket, hspec, hb, hbuilt⟩ := h
  obtain ⟨bucket', hb', hbuilt'⟩ := hheap b bucket spec hb hbuilt
  exact ⟨spec, bucket', by rw [hpolicy]; exact hspec, hb', hbuilt'⟩

theorem Right.keeps {phase : Consume} (h : s.Right key phase) (hpolicy : s'.policy = s.policy)
    (hheap : Keeps s.heap s'.heap) : s'.Right key phase := by
  cases phase with
  | started => trivial
  | missed => trivial
  | resolved spec =>
    show s'.policy.resolve key = some spec
    rw [hpolicy]
    exact h
  | holding b => exact BuiltFor.keeps h hpolicy hheap
  | decided verdict =>
    cases verdict with
    | unlimited =>
      show s'.policy.resolve key = none
      rw [hpolicy]
      exact h
    | bucket b admitted => exact BuiltFor.keeps h hpolicy hheap

/-- **The rule for a section of a consume.**  It may add buckets for the policy in force;
what it resolves is of that policy; and the call comes to a phase that is right if it
started after the last call of `set_policy` had returned. -/
theorem Current.moves (h : Current s) {buckets : Table K ℕ}
    {phase : Consume} (hd : s.consumers.lookup d = some call) (hheap : Keeps s.heap heap)
    (hbuckets : s.cleared = true → ∀ key b, buckets.lookup key = some b →
      s.buckets.lookup key = some b ∨ { s with heap := heap }.BuiltFor key b)
    (hspec : ∀ spec, phase = .resolved spec → s.policy.resolve call.key = some spec)
    (hright : s.cleared = true → ∀ c ∈ call.after, s.Latest c →
      { s with heap := heap }.Right call.key phase) :
    Current ({ s with heap := heap, buckets := buckets }.move d call phase) := by
  refine ⟨h.numbered, h.wrote, h.ordered, fun hcleared key b hb => ?_,
    fun hcleared d' call' spec hd' hphase => ?_, fun d' call' hd' c hc => ?_⟩
  · rcases hbuckets hcleared key b hb with hold | hnew
    · exact (h.buckets hcleared key b hold).keeps rfl hheap
    · exact hnew
  · rw [move, Table.lookup_insert'] at hd'
    split at hd'
    · cases hd'
      exact hspec spec hphase
    · exact h.resolved hcleared d' call' spec hd' hphase
  · rw [move, Table.lookup_insert'] at hd'
    split at hd'
    · cases hd'
      obtain ⟨hret, -⟩ := h.after d call hd c hc
      refine ⟨hret, fun hlatest => ?_⟩
      obtain ⟨set, hset, hreturned⟩ := hret
      exact hright (h.of_latest hset hreturned hlatest).2 c hc hlatest
    · obtain ⟨hret, hold⟩ := h.after d' call' hd' c hc
      exact ⟨hret, fun hlatest => (hold hlatest).keeps rfl hheap⟩

theorem Current.decideBy (h : Current s) (hd : s.consumers.lookup d = some call)
    (hright : s.cleared = true → ∀ c ∈ call.after, s.Latest c → s.BuiltFor call.key b) :
    Current (s.decideBy d call b) := by
  unfold Limiter.decideBy
  split
  · rename_i bucket hb
    have hheap := keeps_set hb call.bytes call.now
    refine h.moves hd hheap (fun _ _ _ hold => .inl hold) (fun spec heq => by cases heq) ?_
    exact fun hcleared c hc hlatest => (hright hcleared c hc hlatest).keeps rfl hheap
  · exact h

/-! ### The other steps -/

theorem Current.start : Current (start : Limiter K) := by
  refine ⟨fun c hc => ?_, fun w hw => ?_, fun c call hc _ => ?_, fun _ key b hb => ?_,
    fun _ d call spec hd _ => ?_, fun d call hd => ?_⟩
  · cases hc
  · cases hw
  · cases hc
  · cases hb
  · cases hd
  · cases hd

theorem mem_returned : c ∈ s.returned ↔
    ∃ set, s.setters.lookup c = some set ∧ set.phase = .returned := by
  simp only [returned, Table.mem_keys_filter, decide_eq_true_eq]

theorem lookup_insert_set (hset : s.setters.lookup c = some set) (set' : SetCall K) (c' : ℕ) :
    ((s.setters.insert c set').lookup c').isSome = (s.setters.lookup c').isSome :=
  Table.isSome_lookup_insert_of_isSome (by rw [hset]; rfl) set' c'

/-- A call that has returned is none that goes on. -/
theorem ne_of_returned {c' : ℕ} {set set' : SetCall K} (hset : s.setters.lookup c = some set)
    (hset' : s.setters.lookup c' = some set') (hphase : set'.phase = .returned)
    (hne : set.phase ≠ .returned) : c' ≠ c := by
  rintro rfl
  rw [hset] at hset'
  cases hset'
  exact hne hphase

namespace Current

variable (h : Current s)
include h

theorem startSet (policy : Policy K) : Current (s.step (.startSet policy)) := by
  have hfresh : ∀ c, (s.setters.lookup c).isSome = true → c ≠ s.started :=
    fun c hc => Nat.ne_of_lt (h.numbered c hc)
  have hold : ∀ c set, s.setters.lookup c = some set →
      (s.setters.insert s.started ⟨policy, .started⟩).lookup c = some set := by
    intro c set hset
    rw [Table.lookup_insert', if_neg (hfresh c (by rw [hset]; rfl)), hset]
  refine ⟨fun c hc => ?_, fun w hw => ?_, fun c call hc hphase => ?_, h.buckets, h.resolved,
    fun d call hd c hc => ?_⟩
  · rw [step, Table.lookup_insert'] at hc
    split at hc
    · rename_i heq
      rw [heq]
      exact Nat.lt_succ_self _
    · exact Nat.lt_succ_of_lt (h.numbered c hc)
  · obtain ⟨call, hcall, hrest⟩ := h.wrote w hw
    exact ⟨call, hold w call hcall, hrest⟩
  · rw [step, Table.lookup_insert'] at hc
    split at hc
    · cases hc
      exact absurd rfl hphase
    · exact h.ordered c call hc hphase
  · obtain ⟨⟨set, hset, hphase⟩, -⟩ := h.after d call hd c hc
    refine ⟨⟨set, hold c set hset, hphase⟩, fun hlatest => ?_⟩
    -- `c` is not the last call any more
    have hlt := h.numbered c (by rw [hset]; rfl)
    have hle := hlatest s.started (by rw [step, AList.lookup_insert]; rfl)
    omega

theorem writePolicy (c) (hok : s.Orderly (.writePolicy c)) :
    Current (s.step (.writePolicy c)) := by
  rw [step]
  split
  · rename_i policy hset
    refine ⟨fun c' hc' => ?_, fun w hw => ?_, fun c' call hc' hphase => ?_,
      fun hcleared => ?_, fun hcleared => ?_, fun d call hd c' hc' => ?_⟩
    · rw [lookup_insert_set hset] at hc'
      exact h.numbered c' hc'
    · obtain rfl : c = w := Option.some.inj hw
      exact ⟨_, AList.lookup_insert _, rfl, fun heq => by cases heq⟩
    · rw [Table.lookup_insert'] at hc'
      split at hc'
      · rename_i heq
        exact ⟨c, rfl, Nat.le_of_eq heq⟩
      · refine ⟨c, rfl, Nat.le_of_not_lt fun hlt => ?_⟩
        exact hphase (hok ⟨c', call⟩ (Table.mem_entries_iff.mpr hc') hlt)
    · cases hcleared
    · cases hcleared
    · obtain ⟨⟨set, hset', hphase⟩, -⟩ := h.after d call hd c' hc'
      have hne : c' ≠ c := ne_of_returned hset hset' hphase nofun
      refine ⟨⟨set, by rw [Table.lookup_insert', if_neg hne, hset'], hphase⟩, fun hlatest => ?_⟩
      -- a later call would have written before this one
      have hlt : c < c' :=
        lt_of_le_of_ne (hlatest c (by rw [AList.lookup_insert]; rfl)) (Ne.symm hne)
      have hstarted := hok ⟨c', set⟩ (Table.mem_entries_iff.mpr hset') hlt
      dsimp only at hstarted
      rw [hphase] at hstarted
      cases hstarted
  · exact h

theorem clearBuckets (c) (hok : s.Orderly (.clearBuckets c)) :
    Current (s.step (.clearBuckets c)) := by
  rw [step]
  split
  · rename_i policy hset
    refine ⟨fun c' hc' => ?_, fun w hw => ?_, fun c' call hc' hphase => ?_,
      fun _ key b hb => ?_, fun _ d call spec hd hphase => ?_, fun d call hd c' hc' => ?_⟩
    · rw [lookup_insert_set hset] at hc'
      exact h.numbered c' hc'
    · obtain ⟨call, hcall, hpolicy, -⟩ := h.wrote w hw
      by_cases heq : w = c
      · subst heq
        rw [hset] at hcall
        cases hcall
        exact ⟨_, AList.lookup_insert _, hpolicy, fun _ => rfl⟩
      · exact ⟨call, by rw [Table.lookup_insert', if_neg heq, hcall], hpolicy, fun _ => rfl⟩
    · rw [Table.lookup_insert'] at hc'
      split at hc'
      · rename_i heq
        rw [heq]
        exact h.ordered c _ hset SetPhase.noConfusion
      · exact h.ordered c' call hc' hphase
    · cases hb
    · have hcurrent := hok ⟨d, call⟩ (Table.mem_entries_iff.mpr hd)
      rw [UpToDate, hphase] at hcurrent
      exact hcurrent
    · obtain ⟨⟨set, hset', hphase⟩, hright⟩ := h.after d call hd c' hc'
      have hne : c' ≠ c := ne_of_returned hset hset' hphase nofun
      refine ⟨⟨set, by rw [Table.lookup_insert', if_neg hne, hset'], hphase⟩, fun hlatest => ?_⟩
      refine (hright fun c'' hc'' => hlatest c'' ?_).keeps rfl (keeps_refl _)
      rw [lookup_insert_set hset]
      exact hc''
  · exact h

theorem startConsume (d key) (bytes now : ℕ) :
    Current (s.step (.startConsume d key bytes now)) := by
  rw [step]
  split
  · refine ⟨h.numbered, h.wrote, h.ordered, h.buckets,
      fun hcleared d' call spec hd' hphase => ?_, fun d' call hd' c hc => ?_⟩
    · rw [Table.lookup_insert'] at hd'
      split at hd'
      · cases hd'
        cases hphase
      · exact h.resolved hcleared d' call spec hd' hphase
    · rw [Table.lookup_insert'] at hd'
      split at hd'
      · cases hd'
        exact ⟨mem_returned.mp hc, fun _ => trivial⟩
      · exact h.after d' call hd' c hc
  · exact h

theorem readBuckets (d) : Current (s.step (.readBuckets d)) := by
  rw [step]
  split
  · rename_i call hd
    split
    · split
      · rename_i b hb
        exact h.decideBy hd fun hcleared _ _ _ => h.buckets hcleared call.key b hb
      · exact h.moves hd (keeps_refl _) (fun _ _ _ hold => .inl hold)
          (fun spec heq => by cases heq) fun _ _ _ _ => trivial
    · exact h
  · exact h

theorem readPolicy (d) : Current (s.step (.readPolicy d)) := by
  rw [step]
  split
  · rename_i call hd
    split
    · split
      · rename_i spec hspec
        refine h.moves hd (keeps_refl _) (fun _ _ _ hold => .inl hold) (fun spec' heq => ?_)
          fun _ _ _ _ => hspec
        cases heq
        exact hspec
      · rename_i hnone
        exact h.moves hd (keeps_refl _) (fun _ _ _ hold => .inl hold)
          (fun spec heq => by cases heq) fun _ _ _ _ => hnone
    · exact h
  · exact h

theorem insertBucket (d created : ℕ) : Current (s.step (.insertBucket d created)) := by
  rw [step]
  split
  · rename_i call hd
    split
    · rename_i spec hphase
      split
      · rename_i b hb
        exact h.moves hd (keeps_refl _) (fun _ _ _ hold => .inl hold)
          (fun spec' heq => by cases heq)
          fun hcleared _ _ _ => h.buckets hcleared call.key b hb
      · -- the new bucket is built from what the call resolved
        have hnew : s.cleared = true → BuiltFor
            { s with heap := s.heap ++ [TokenBucket.new spec created] } call.key s.heap.length :=
          fun hcleared => ⟨spec, .new spec created, h.resolved hcleared d call spec hd hphase,
            List.getElem?_concat_length, TokenBucket.builtFrom_new spec created⟩
        refine h.moves hd (keeps_append _ _) (fun hcleared key b hb => ?_)
          (fun spec' heq => by cases heq) fun hcleared _ _ _ => hnew hcleared
        rw [Table.lookup_insert'] at hb
        split at hb
        · rename_i heq
          cases hb
          rw [heq]
          exact .inr (hnew hcleared)
        · exact .inl hb
    · exact h
  · exact h

theorem consume (d) : Current (s.step (.consume d)) := by
  rw [step]
  split
  · rename_i call hd
    split
    · rename_i b hphase
      refine h.decideBy hd fun _ c hc hlatest => ?_
      have hright := (h.after d call hd c hc).2 hlatest
      rw [hphase] at hright
      exact hright
    · exact h
  · exact h

theorem drop {buckets : Table K ℕ}
    (hsub : ∀ key b, buckets.lookup key = some b → s.buckets.lookup key = some b) :
    Current { s with buckets := buckets } :=
  ⟨h.numbered, h.wrote, h.ordered,
    fun hcleared key b hb => (h.buckets hcleared key b (hsub key b hb)).keeps rfl (keeps_refl _),
    h.resolved, fun d call hd c hc =>
      ⟨(h.after d call hd c hc).1,
        fun hlatest => ((h.after d call hd c hc).2 hlatest).keeps rfl (keeps_refl _)⟩⟩

theorem step {e : LimiterEvent K} (hok : s.Orderly e) : Current (s.step e) := by
  cases e with
  | startSet policy => exact h.startSet policy
  | writePolicy c => exact h.writePolicy c hok
  | clearBuckets c => exact h.clearBuckets c hok
  | startConsume d key bytes now => exact h.startConsume d key bytes now
  | readBuckets d => exact h.readBuckets d
  | readPolicy d => exact h.readPolicy d
  | insertBucket d created => exact h.insertBucket d created
  | consume d => exact h.consume d
  | remove key =>
    refine h.drop fun key' b hb => ?_
    rw [Table.lookup_erase'] at hb
    split at hb
    · cases hb
    · exact hb
  | retainActive idle now =>
    refine h.drop fun key b hb => ?_
    rw [Table.lookup_retain] at hb
    exact (Option.filter_eq_some_iff.mp hb).1

end Current

theorem current_of_reachable (h : Reachable Orderly s) : Current s := by
  refine Transition.Reachable.invariant ?_ ?_ h
  · rintro s rfl
    exact Current.start
  · rintro s s' hs ⟨e, hok, rfl⟩
    exact hs.step hok

/-! ### A policy takes effect -/

/-- What the policy says of `key` decided the consume: a bucket built from its
specification, or nothing where the key is not limited. -/
def DecidedUnder (s : Limiter K) (policy : Policy K) (key : K) : Verdict → Prop
  | .unlimited => policy.resolve key = none
  | .bucket b _ => ∃ spec bucket, policy.resolve key = some spec ∧ s.heap[b]? = some bucket ∧
      bucket.BuiltFrom spec

/-- **A policy takes effect.**  In every orderly run: a consume that was decided, had
started after the call `c` of `set_policy` returned, with no later call of `set_policy`
started until then, was decided under the policy of `c`. -/
theorem policy_takes_effect (h : Reachable Orderly s) {verdict : Verdict}
    (hd : s.consumers.lookup d = some call) (hdecided : call.phase = .decided verdict)
    (hafter : c ∈ call.after) (hlatest : s.Latest c) :
    ∃ set, s.setters.lookup c = some set ∧ set.phase = .returned ∧
      s.DecidedUnder set.policy call.key verdict := by
  have hinv := current_of_reachable h
  obtain ⟨⟨set, hset, hreturned⟩, hright⟩ := hinv.after d call hd c hafter
  refine ⟨set, hset, hreturned, ?_⟩
  rw [← (hinv.of_latest hset hreturned hlatest).1]
  have hr := hright hlatest
  rw [hdecided] at hr
  cases verdict with
  | unlimited => exact hr
  | bucket b admitted => exact hr

def capOf (n : ℕ) : RateSpec := ⟨n, 1, Nat.one_pos⟩

def capAll (n : ℕ) : Policy ℕ := ⟨some (capOf n), ∅⟩

def setPolicy (c n : ℕ) : List (LimiterEvent ℕ) :=
  [.startSet (capAll n), .writePolicy c, .clearBuckets c]

def resolves (d : ℕ) : List (LimiterEvent ℕ) :=
  [.startConsume d 7 10 0, .readBuckets d, .readPolicy d]

def finishes (d : ℕ) : List (LimiterEvent ℕ) := [.insertBucket d 0, .consume d]

theorem latest_of_entries (h : ∀ e ∈ s.setters.entries, e.1 ≤ c) : s.Latest c := by
  intro c' hc'
  obtain ⟨set, hset⟩ := Option.isSome_iff_exists.mp hc'
  exact h ⟨c', set⟩ (Table.mem_entries_iff.mpr hset)

def recapped : Limiter ℕ :=
  (setPolicy 0 100 ++ resolves 0 ++ finishes 0 ++ setPolicy 1 50 ++ resolves 1 ++
    finishes 1).foldl step start

theorem policy_takes_effect_recapped : ∃ verdict,
    (recapped.consumers.lookup 1).map ConsumeCall.phase = some (.decided verdict) ∧
      recapped.DecidedUnder (capAll 50) 7 verdict := by
  have hstart : Reachable Orderly (start : Limiter ℕ) := .start rfl
  have hreach : Reachable Orderly recapped := hstart.run (by decide)
  have hcall : recapped.consumers.lookup 1
      = some ⟨7, 10, 0, [1, 0], .decided (.bucket 1 true)⟩ := by decide
  obtain ⟨set, hset, -, hunder⟩ := policy_takes_effect (c := 1) hreach hcall rfl (by decide)
    (latest_of_entries (by decide))
  have hnew : recapped.setters.lookup 1 = some ⟨capAll 50, .returned⟩ := rfl
  rw [hnew] at hset
  cases hset
  exact ⟨_, by rw [hcall]; rfl, hunder⟩

/-- A consume for key 7 has read the cap of 100 bytes when the cap is set to 50 bytes; it
puts its bucket into the map, and another consume for key 7 starts and finds it. -/
def overtaken : List (LimiterEvent ℕ) :=
  setPolicy 0 100 ++ resolves 0 ++ setPolicy 1 50 ++
    [.insertBucket 0 0, .startConsume 1 7 10 0, .readBuckets 1]

/-- **A stale bucket survives a change of the policy.**  The cap is 100 bytes, and a consume
for key 7 has read it.  The cap is set to 50 bytes: the policy is written, the buckets are
cleared, the call returns.  The consume puts its bucket into the map.  A consume for key 7
that starts now is decided by that bucket of 100 bytes. -/
theorem stale_bucket_survives : ∃ (s : Limiter ℕ) (call : ConsumeCall ℕ) (verdict : Verdict),
    Reachable (fun _ _ => True) s ∧ s.consumers.lookup 1 = some call ∧ call.key = 7 ∧
    call.phase = .decided verdict ∧ 1 ∈ call.after ∧ s.Latest 1 ∧
    (s.setters.lookup 1).map SetCall.policy = some (capAll 50) ∧
    ¬ s.DecidedUnder (capAll 50) 7 verdict := by
  have hstart : Reachable (fun _ _ => True) (start : Limiter ℕ) := .start rfl
  refine ⟨overtaken.foldl step start, ⟨7, 10, 0, [1, 0], .decided (.bucket 0 true)⟩, _,
    hstart.foldl (fun _ e => ⟨e, trivial, rfl⟩) overtaken, by decide, rfl, rfl, by decide,
    latest_of_entries (by decide), rfl, ?_⟩
  have hheap : (overtaken.foldl step start).heap.map TokenBucket.capacityBytes = [100] := by decide
  rintro ⟨spec, bucket, hspec, hbucket, hcapacity, -⟩
  obtain rfl : capOf 50 = spec := Option.some.inj hspec
  have hfirst :
      ((overtaken.foldl step start).heap.map TokenBucket.capacityBytes)[0]? = some 100 := by
    rw [hheap]
    rfl
  rw [List.getElem?_map, hbucket, Option.map_some, hcapacity] at hfirst
  exact absurd hfirst (by decide)

end Limiter

end WarrenGuard.RateLimit
