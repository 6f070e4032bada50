/-
Attribution against liveness (`record_assigned_ipv4`, `tombstone_attribution` and `terminate` of
`warrenguard-multihop-server/src/multihop.rs`).

An address stays attributed to a key while the key has a live session, and for a retention after
its last connection has left: the entry is then marked with a deadline.  The registry and the
attribution are behind two locks, and every operation takes them one after the other.

* `Attributed` — the mark of an entry against what its key is doing (`Attributed.step`);
* `attribution_follows_liveness` — when nothing is under way the mark says whether the key is
  live, in the runs that are `Orderly`;
* `attribution_not_live` — three runs that are not.
-/
import WarrenGuard.SessionLifecycle

namespace WarrenGuard.Registry

def Phase.underWay : Phase → Bool
  | .registered _ | .rechecked _ | .refusing _ | .leaving _ => true
  | .idle | .checked _ | .served _ | .left _ => false

def Task.underWay : Task → Bool
  | .taken _ _ => true
  | .idle | .removed _ | .closing _ _ => false

namespace Lifecycle

structure Quiescent (s : Lifecycle) : Prop where
  conns : ∀ c, (s.phase c).underWay = false
  tasks : ∀ t, (s.task t).underWay = false

/-- The key has a live registered connection, in whatever role. -/
def Live (s : Lifecycle) (pubkey : Pubkey) : Prop :=
  (s.conns (.wallet pubkey)).Nonempty ∨ (s.conns (.tokenSerial pubkey)).Nonempty ∨
    (s.conns (.route pubkey)).Nonempty

instance (s : Lifecycle) (pubkey : Pubkey) : Decidable (s.Live pubkey) :=
  inferInstanceAs (Decidable (_ ∨ _ ∨ _))

variable {s s' : Lifecycle} {c c' : ConnId} {key key' : SessionKey} {t : ℕ} {p : Pubkey}
  {cs : Finset ConnId}

theorem live_iff : s.Live p ↔ ∃ key c, key.value = p ∧ c ∈ s.conns key := by
  constructor
  · rintro (⟨c, hc⟩ | ⟨c, hc⟩ | ⟨c, hc⟩)
    · exact ⟨_, c, rfl, hc⟩
    · exact ⟨_, c, rfl, hc⟩
    · exact ⟨_, c, rfl, hc⟩
  · rintro ⟨key, c, rfl, hc⟩
    cases key with
    | wallet _ => exact .inl ⟨c, hc⟩
    | tokenSerial _ => exact .inr (.inl ⟨c, hc⟩)
    | route _ => exact .inr (.inr ⟨c, hc⟩)

/-- The key is live, or its end or revocation has not come to the attribution yet. -/
def Backed (s : Lifecycle) (pubkey : Pubkey) : Prop :=
  s.Live pubkey ∨ (∃ c key, s.phase c = .leaving key ∧ key.value = pubkey) ∨
    ∃ t conns, s.task t = .taken pubkey conns

theorem Backed.mono (h : s.Backed p) (hlive : s.Live p → s'.Live p)
    (hphase : ∀ c key, s.phase c = .leaving key → s'.phase c = .leaving key)
    (htask : ∀ t conns, s.task t = .taken p conns → s'.task t = .taken p conns) :
    s'.Backed p := by
  rcases h with h | ⟨c, key, hc, hkey⟩ | ⟨t, conns, ht⟩
  · exact .inl (hlive h)
  · exact .inr (.inl ⟨c, key, hphase c key hc, hkey⟩)
  · exact .inr (.inr ⟨t, conns, htask t conns ht⟩)

/-- **The mark of an entry against what its key is doing.** -/
structure Attributed (s : Lifecycle) : Prop where
  departed : ∀ {ip owner}, s.attribution.lookup ip = some owner → owner.departedDeadline ≠ none →
    ∀ key c, key.value = owner.pubkey → c ∈ s.conns key → (s.phase c).underWay = true
  standing : ∀ {ip owner}, s.attribution.lookup ip = some owner → owner.departedDeadline = none →
    s.Backed owner.pubkey

theorem Attributed.start : Attributed start := ⟨nofun, nofun⟩

/-- **The rule for steps that write no entry.** -/
theorem Attributed.keep (h : Attributed s)
    (hentries : ∀ {ip owner}, s'.attribution.lookup ip = some owner →
      s.attribution.lookup ip = some owner ∧ (s.Backed owner.pubkey → s'.Backed owner.pubkey))
    (hconns : ∀ key c, c ∈ s'.conns key →
      (s'.phase c).underWay = true ∨ c ∈ s.conns key ∧ s'.phase c = s.phase c) :
    Attributed s' := by
  constructor
  · intro ip owner hl hd key c hkey hc
    rcases hconns key c hc with hc | ⟨hc, hphase⟩
    · exact hc
    · rw [hphase]
      exact h.departed (hentries hl).1 hd key c hkey hc
  · intro ip owner hl hd
    obtain ⟨hl, hbacked⟩ := hentries hl
    exact hbacked (h.standing hl hd)

/-! ### The steps of a connection -/

namespace Attributed

variable (h : Attributed s) (hinv : Revocable s)
include h hinv

/-- **The rule for a connection that moves and writes no entry.** -/
theorem move {phase : Phase} (hphase : s'.phase = Function.update s.phase c phase)
    (hattribution : s'.attribution = s.attribution) (htask : s'.task = s.task)
    (hc : ∀ key, s.phase c ≠ .leaving key)
    (hlive : ∀ p, s.Live p → s'.Live p ∨ ∃ key, phase = .leaving key ∧ key.value = p)
    (hconns : ∀ key c', c' ∈ s'.conns key → c' = c ∧ phase.underWay = true ∨
      c' ∈ s.conns key ∧ ¬ (c' = c ∧ (s.phase c).enrolled? = some key)) : Attributed s' := by
  have hphase' : ∀ c', s'.phase c' = if c' = c then phase else s.phase c' := by
    intro c'
    rw [hphase, Function.update_apply]
  refine h.keep (fun hl => ⟨by rwa [hattribution] at hl, ?_⟩) ?_
  · rintro (hbacked | ⟨c', key, hc', hkey⟩ | ⟨t, cs, ht⟩)
    · rcases hlive _ hbacked with hbacked | ⟨key, hleaving, hkey⟩
      · exact .inl hbacked
      · exact .inr (.inl ⟨c, key, by rw [hphase', if_pos rfl, hleaving], hkey⟩)
    · have hne : c' ≠ c := fun heq => hc key (heq ▸ hc')
      exact .inr (.inl ⟨c', key, by rw [hphase', if_neg hne, hc'], hkey⟩)
    · exact .inr (.inr ⟨t, cs, by rw [htask, ht]⟩)
  · intro key c' hmem
    rcases hconns key c' hmem with ⟨rfl, hway⟩ | ⟨hmem, hnot⟩
    · exact .inl (by rw [hphase', if_pos rfl, hway])
    · -- a connection in the registry is there under its own key
      have hne : c' ≠ c := fun heq => hnot ⟨heq, heq ▸ hinv.enrolled hmem⟩
      exact .inr ⟨hmem, by rw [hphase', if_neg hne]⟩

theorem check (hc : s.phase c = .idle)
    (key : SessionKey) (unexpired : Bool) : Attributed (s.check c key unexpired) := by
  have hout : ∀ key' c', c' ∈ s.conns key' →
      ¬ (c' = c ∧ (s.phase c).enrolled? = some key') := by
    rintro key' c' - ⟨-, henr⟩
    rw [hc] at henr
    cases henr
  have hnot : ∀ key', s.phase c ≠ .leaving key' := by
    intro key'
    rw [hc]
    nofun
  unfold Lifecycle.check
  split <;> exact h.move hinv rfl rfl rfl hnot (fun _ hlive => .inl hlive)
    fun key' c' hmem => .inr ⟨hmem, hout key' c' hmem⟩

theorem register (hc : s.phase c = .checked key) : Attributed (s.register c key) := by
  refine h.move hinv rfl rfl rfl (fun key' => by rw [hc]; nofun) (fun p hlive => .inl ?_) ?_
  · obtain ⟨key', c', hkey, hmem⟩ := live_iff.mp hlive
    exact live_iff.mpr ⟨key', c', hkey, mem_conns_register.mpr (.inl hmem)⟩
  · intro key' c' hmem
    rcases mem_conns_register.mp hmem with hmem | ⟨rfl, -⟩
    · refine .inr ⟨hmem, ?_⟩
      rintro ⟨-, henr⟩
      rw [hc] at henr
      cases henr
    · exact .inl ⟨rfl, rfl⟩

theorem recheck (hc : s.phase c = .registered key) (unexpired : Bool) :
    Attributed (s.recheck c key unexpired) := by
  have hconns : ∀ key' c', c' ∈ s.conns key' →
      c' = c ∨ c' ∈ s.conns key' ∧ ¬ (c' = c ∧ (s.phase c).enrolled? = some key') := by
    intro key' c' hmem
    by_cases hcc : c' = c
    · exact .inl hcc
    · exact .inr ⟨hmem, fun hboth => hcc hboth.1⟩
  have hnot : ∀ key', s.phase c ≠ .leaving key' := by
    intro key'
    rw [hc]
    nofun
  unfold Lifecycle.recheck
  split <;> exact h.move hinv rfl rfl rfl hnot (fun _ hlive => .inl hlive)
    fun key' c' hmem => (hconns key' c' hmem).imp_left fun hcc => ⟨hcc, rfl⟩

/-- **The last connection of a key goes on to the attribution.** -/
theorem unregister (hc : (s.phase c).enrolled? = some key) : Attributed (s.unregister c key) := by
  refine h.move hinv rfl rfl rfl (fun key' hl => ?_) (fun p hlive => ?_) fun key' c' hmem => ?_
  · rw [hl] at hc
    cases hc
  · obtain ⟨key', c', hkey, hmem⟩ := live_iff.mp hlive
    by_cases hcc : c' = c ∧ key' = key
    · obtain ⟨rfl, rfl⟩ := hcc
      have hin : s.registry.live.contains key' = true :=
        LiveSessions.contains_iff.mpr (Finset.ne_empty_of_mem hmem)
      by_cases hstays : (s.registry.unregisterKey key' c').2.live.contains key' = true
      · obtain ⟨c'', hmem''⟩ :=
          Finset.nonempty_iff_ne_empty.mpr (LiveSessions.contains_iff.mp hstays)
        exact .inl (live_iff.mpr ⟨key', c'', hkey, hmem''⟩)
      · refine .inr ⟨key', ?_, hkey⟩
        simp [hin, hstays]
    · exact .inl (live_iff.mpr ⟨key', c', hkey, mem_conns_unregister.mpr ⟨hmem, hcc⟩⟩)
  · obtain ⟨hmem, hnot⟩ := mem_conns_unregister.mp hmem
    refine .inr ⟨hmem, fun hboth => hnot ⟨hboth.1, ?_⟩⟩
    rw [hc] at hboth
    exact (Option.some.inj hboth.2).symm

end Attributed

/-! ### The steps that write the attribution -/

/-- What a setup finds when it records its address. -/
def MayRecord (s : Lifecycle) (ipv4 : Ipv4Addr) : Phase → Prop
  | .rechecked key => s.Live key.value ∧ ∀ e ∈ s.attribution.entries,
      e.2.pubkey = key.value → e.2.departedDeadline ≠ none → e.1 = ipv4
  | _ => True

/-- What the end of the last connection finds when it comes to the attribution. -/
def MayTombstone (s : Lifecycle) : Phase → Prop
  | .leaving key => ¬ s.Live key.value
  | _ => True

/-- A setup records while its key is registered and has no other address marked; an end marks
while no connection of its key is registered. -/
def Orderly (s : Lifecycle) : LifecycleEvent → Prop
  | .record c ipv4 => s.MayRecord ipv4 (s.phase c)
  | .tombstone c _ => s.MayTombstone (s.phase c)
  | _ => True

instance MayRecord.decidable (s : Lifecycle) (ipv4 : Ipv4Addr) :
    (phase : Phase) → Decidable (s.MayRecord ipv4 phase)
  | .rechecked _ => inferInstanceAs (Decidable (_ ∧ _))
  | .idle | .checked _ | .registered _ | .served _ | .refusing _ | .leaving _ | .left _ =>
    inferInstanceAs (Decidable True)

instance MayTombstone.decidable (s : Lifecycle) : (phase : Phase) → Decidable (s.MayTombstone phase)
  | .leaving _ => inferInstanceAs (Decidable (¬ _))
  | .idle | .checked _ | .registered _ | .rechecked _ | .served _ | .refusing _ | .left _ =>
    inferInstanceAs (Decidable True)

instance Orderly.decidable (s : Lifecycle) : (e : LifecycleEvent) → Decidable (s.Orderly e)
  | .record _ _ => inferInstanceAs (Decidable (s.MayRecord _ _))
  | .tombstone _ _ => inferInstanceAs (Decidable (s.MayTombstone _))
  | .check _ _ _ | .register _ | .recheck _ _ | .unregister _ | .sweep _ | .allow _ | .revoke _ _
  | .takeSession _ | .clear _ | .close _ _ => inferInstanceAs (Decidable True)

theorem Attributed.record (h : Attributed s) (hinv : Revocable s) (hc : s.phase c = .rechecked key)
    {ipv4 : Ipv4Addr} (hok : s.MayRecord ipv4 (.rechecked key)) :
    Attributed (s.record c key ipv4) := by
  obtain ⟨hlive, hmarked⟩ := hok
  have hlookup : ∀ ip, (s.record c key ipv4).attribution.lookup ip =
      if ip = ipv4 then some ⟨key.value, none⟩ else s.attribution.lookup ip :=
    fun ip => Table.lookup_insert' s.attribution ipv4 ip _
  constructor
  · intro ip owner hl hd key' c' hkey hmem
    rw [hlookup] at hl
    split at hl
    · cases hl
      exact absurd rfl hd
    · rename_i hip
      have hne : c' ≠ c := by
        -- the key of this connection has no marked entry but the one that was overwritten
        rintro rfl
        have henr := hinv.enrolled hmem
        rw [hc] at henr
        cases henr
        exact hip (hmarked ⟨ip, owner⟩ (Table.mem_entries_iff.mpr hl) hkey.symm hd)
      rw [show (s.record c key ipv4).phase c' = s.phase c' from Function.update_of_ne hne ..]
      exact h.departed hl hd key' c' hkey hmem
  · intro ip owner hl hd
    rw [hlookup] at hl
    split at hl
    · cases hl
      exact .inl hlive
    · refine (h.standing hl hd).mono id (fun c' key' hc' => ?_) fun _ _ => id
      have hne : c' ≠ c := by
        rintro rfl
        rw [hc] at hc'
        cases hc'
      exact (Function.update_of_ne hne ..).trans hc'

theorem Attributed.tombstone (h : Attributed s) (hinv : Revocable s)
    (hc : s.phase c = .leaving key) (hok : s.MayTombstone (.leaving key)) (now : ℕ) :
    Attributed (s.tombstone c key now) := by
  have hphase : ∀ {c'}, c' ≠ c → (s.tombstone c key now).phase c' = s.phase c' :=
    fun hne => Function.update_of_ne hne ..
  have hlookup : ∀ {ip owner'}, (s.tombstone c key now).attribution.lookup ip = some owner' →
      ∃ owner, s.attribution.lookup ip = some owner ∧
        Attribution.depart key.value now owner = owner' := by
    intro ip owner' hl
    rw [show (s.tombstone c key now).attribution.lookup ip = _ from
      Table.lookup_retainMut _ s.attribution ip] at hl
    obtain ⟨owner, hl, howner⟩ := Option.bind_eq_some_iff.mp hl
    exact ⟨owner, hl, Option.some.inj howner⟩
  constructor
  · intro ip owner' hl hd key' c' hkey hmem
    obtain ⟨owner, hold, rfl⟩ := hlookup hl
    have hne : c' ≠ c := by
      rintro rfl
      have henr := hinv.enrolled hmem
      rw [hc] at henr
      cases henr
    rw [hphase hne]
    unfold Attribution.depart at hkey hd
    split at hkey
    · rename_i hown
      exact absurd (live_iff.mpr ⟨key', c', hkey.trans hown.1, hmem⟩) hok
    · rename_i hown
      rw [if_neg hown] at hd
      exact h.departed hold hd key' c' hkey hmem
  · intro ip owner' hl hd
    obtain ⟨owner, hold, rfl⟩ := hlookup hl
    unfold Attribution.depart at hd ⊢
    split at hd
    · cases hd
    · rename_i hown
      rw [if_neg hown]
      -- what is not marked now is another key's
      have hother : owner.pubkey ≠ key.value := fun heq => hown ⟨heq, hd⟩
      rcases h.standing hold hd with hlive | ⟨c', key', hc', hkey⟩ | htask
      · exact .inl hlive
      · refine .inr (.inl ⟨c', key', ?_, hkey⟩)
        rw [hphase, hc']
        rintro rfl
        rw [hc] at hc'
        cases hc'
        exact hother hkey.symm
      · exact .inr (.inr htask)

/-! ### The steps of a revocation -/

namespace Attributed

variable (h : Attributed s)
include h

theorem retask {x : Task}
    (htask : s'.task = Function.update s.task t x) (hphase : s'.phase = s.phase)
    (hregistry : s'.registry = s.registry) (hattribution : s'.attribution = s.attribution)
    (ht : (s.task t).underWay = false) : Attributed s' := by
  have hconns : ∀ key, s'.conns key = s.conns key := fun key => by rw [conns, conns, hregistry]
  refine h.keep (fun hl => ⟨by rwa [hattribution] at hl, fun hbacked => ?_⟩) ?_
  · refine hbacked.mono (fun hlive => ?_) (fun c key hc => by rw [hphase, hc]) fun t' cs ht' => ?_
    · obtain ⟨key, c, hkey, hmem⟩ := live_iff.mp hlive
      exact live_iff.mpr ⟨key, c, hkey, by rwa [hconns]⟩
    · have hne : t' ≠ t := by
        rintro rfl
        rw [ht'] at ht
        cases ht
      rw [htask, Function.update_of_ne hne, ht']
  · intro key c hmem
    rw [hconns] at hmem
    exact .inr ⟨hmem, by rw [hphase]⟩

theorem takeSession (ht : s.task t = .removed p) : Attributed (s.takeSession t p) := by
  have htask : ∀ t', (s.takeSession t p).task t' =
      if t' = t then .taken p (s.registry.takeSession p).1 else s.task t' :=
    fun t' => Function.update_apply ..
  refine h.keep (fun {ip owner} hl => ⟨hl, fun hbacked => ?_⟩) fun key c hmem =>
    .inr ⟨(mem_conns_takeSession.mp hmem).1, rfl⟩
  by_cases hp : owner.pubkey = p
  · exact .inr (.inr ⟨t, _, by rw [htask, if_pos rfl, hp]⟩)
  · refine hbacked.mono (fun hlive => ?_) (fun _ _ => id) fun t' cs ht' => ?_
    · obtain ⟨key, c, hkey, hmem⟩ := live_iff.mp hlive
      refine live_iff.mpr ⟨key, c, hkey, mem_conns_takeSession.mpr ⟨hmem, ?_⟩⟩
      rintro rfl
      exact hp hkey.symm
    · have hne : t' ≠ t := by
        rintro rfl
        rw [ht] at ht'
        cases ht'
      rw [htask, if_neg hne, ht']

theorem clear (ht : s.task t = .taken p cs) : Attributed (s.clear t p cs) := by
  refine h.keep (fun {ip owner} hl => ?_) fun key c hmem => .inr ⟨hmem, rfl⟩
  rw [show (s.clear t p cs).attribution.lookup ip = _ from Table.lookup_retain ..] at hl
  obtain ⟨hl, hother⟩ := Option.filter_eq_some_iff.mp hl
  refine ⟨hl, fun hbacked => hbacked.mono id (fun _ _ => id) fun t' cs' ht' => ?_⟩
  have hne : t' ≠ t := by
    rintro rfl
    rw [ht] at ht'
    cases ht'
    simp at hother
  exact (Function.update_of_ne hne ..).trans ht'

theorem sweep (now : ℕ) : Attributed { s with attribution := s.attribution.sweep now } := by
  refine h.keep (fun {ip owner} hl => ?_) fun key c hmem => .inr ⟨hmem, rfl⟩
  rw [Attribution.lookup_sweep] at hl
  exact ⟨(Option.filter_eq_some_iff.mp hl).1, id⟩

end Attributed

/-! ### Runs -/

theorem Attributed.stepConn (h : Attributed s) (hinv : Revocable s) {phase : Phase}
    (hc : s.phase c = phase) {e : LifecycleEvent} (hconn : e.conn? = some c) (hok : s.Orderly e) :
    Attributed (s.stepConn c phase e) := by
  unfold Lifecycle.stepConn
  split
  · exact h.check hinv hc _ _
  · exact h.register hinv hc
  · exact h.recheck hinv hc _
  · cases hconn
    exact h.record hinv hc (hc ▸ hok)
  · exact h.unregister hinv (by rw [hc]; rfl)
  · exact h.unregister hinv (by rw [hc]; rfl)
  · exact h.unregister hinv (by rw [hc]; rfl)
  · exact h.unregister hinv (by rw [hc]; rfl)
  · cases hconn
    exact h.tombstone hinv hc (hc ▸ hok) _
  · exact h

theorem Attributed.stepTask (h : Attributed s) {task : Task} (ht : s.task t = task)
    (e : LifecycleEvent) : Attributed (s.stepTask t task e) := by
  unfold Lifecycle.stepTask
  split
  · exact h.retask rfl rfl rfl rfl (by rw [ht]; rfl)
  · exact h.takeSession ht
  · exact h.clear ht
  · split
    · exact h.retask rfl rfl rfl rfl (by rw [ht]; rfl)
    · exact h
  · exact h

theorem Attributed.step (h : Attributed s) (hinv : Revocable s) {e : LifecycleEvent}
    (hok : s.Orderly e) : Attributed (s.step e) := by
  cases e with
  | sweep now => exact h.sweep now
  | allow p =>
    show Attributed (if p ∈ s.gone then s else { s with allowed := insert p s.allowed })
    split
    · exact h
    · exact ⟨h.departed, h.standing⟩
  | check | register | recheck | record | unregister | tombstone =>
    exact h.stepConn hinv rfl rfl hok
  | revoke | takeSession | clear | close => exact h.stepTask rfl _

theorem Reachable.attributed (h : s.Reachable Orderly) : Attributed s := by
  refine (Transition.Reachable.invariant (I := fun s => Revocable s ∧ Attributed s) ?_ ?_ h).2
  · rintro s rfl
    exact ⟨.start, .start⟩
  · rintro s s' ⟨hinv, hs⟩ ⟨e, hok, rfl⟩
    exact ⟨hinv.step e, hs.step hinv hok⟩

section

variable (h : Attributed s) (hquiet : s.Quiescent) {ip : Ipv4Addr} {owner : Ipv4Owner}
  (hl : s.attribution.lookup ip = some owner) (hlive : s.Live owner.pubkey)
include h hquiet hl hlive

theorem Attributed.unmarked : owner.departedDeadline = none := by
  obtain ⟨key, c, hkey, hmem⟩ := live_iff.mp hlive
  by_contra hd
  have hway := h.departed hl hd key c hkey hmem
  rw [hquiet.conns c] at hway
  cases hway

end

end Lifecycle

open Lifecycle

/-- **Attribution follows liveness.**  In every interleaving of orderly steps: when no setup,
end or revocation is under way, an entry is unmarked exactly when its key has a live
registered connection. -/
theorem attribution_follows_liveness {s : Lifecycle} (h : s.Reachable Orderly)
    (hquiet : s.Quiescent) {ip : Ipv4Addr} {owner : Ipv4Owner}
    (hl : s.attribution.lookup ip = some owner) :
    owner.departedDeadline = none ↔ s.Live owner.pubkey := by
  have hinv := h.attributed
  constructor
  · intro hd
    rcases hinv.standing hl hd with hlive | ⟨c, key, hc, -⟩ | ⟨t, cs, ht⟩
    · exact hlive
    · have hidle := hquiet.conns c
      rw [hc] at hidle
      cases hidle
    · have hidle := hquiet.tasks t
      rw [ht] at hidle
      cases hidle
  · exact hinv.unmarked hquiet hl

theorem Lifecycle.quiescent_foldl {es : List LifecycleEvent}
    (hconns : ∀ c ∈ es.filterMap LifecycleEvent.conn?,
      ((es.foldl step start).phase c).underWay = false)
    (htasks : ∀ t ∈ es.filterMap LifecycleEvent.task?,
      ((es.foldl step start).task t).underWay = false) : (es.foldl step start).Quiescent := by
  constructor
  · intro c
    by_cases hc : c ∈ es.filterMap LifecycleEvent.conn?
    · exact hconns c hc
    · rw [phase_foldl_step fun e he heq => hc (List.mem_filterMap.mpr ⟨e, he, heq⟩)]
      rfl
  · intro t
    by_cases ht : t ∈ es.filterMap LifecycleEvent.task?
    · exact htasks t ht
    · rw [task_foldl_step fun e he heq => ht (List.mem_filterMap.mpr ⟨e, he, heq⟩)]
      rfl

def setupOn (c : ConnId) (pubkey : Pubkey) (ipv4 : Ipv4Addr) : List LifecycleEvent :=
  [.check c (.wallet pubkey) true, .register c, .recheck c true, .record c ipv4]

def bondedEnds : List LifecycleEvent :=
  .allow 7 :: .allow 8 :: setupOn 1 7 10 ++ setupOn 2 7 10 ++ setupOn 3 8 11 ++
    [.unregister 1, .unregister 2, .tombstone 2 0]

theorem attribution_follows_liveness_bonded : ∃ s : Lifecycle, s.Reachable Orderly ∧
    s.Quiescent ∧ ¬ s.Live 7 ∧ s.Live 8 := by
  have hstart : start.Reachable Orderly := .start rfl
  have hreach : (bondedEnds.foldl step start).Reachable Orderly := hstart.run (by decide)
  have hquiet : (bondedEnds.foldl step start).Quiescent :=
    quiescent_foldl (by decide) (by decide)
  have hseven : (bondedEnds.foldl step start).attribution.lookup 10 =
    some ⟨7, some departedAttributionRetention⟩ := by decide
  have hkept : (bondedEnds.foldl step start).attribution.lookup 11 = some ⟨8, none⟩ := by decide
  refine ⟨_, hreach, hquiet, fun hlive => ?_, ?_⟩
  · have hd := (attribution_follows_liveness hreach hquiet hseven).mpr hlive
    cases hd
  · exact (attribution_follows_liveness hreach hquiet hkept).mp rfl

/-- **The readers show all the addresses of a live key.**  In every interleaving of orderly steps:
when nothing is under way, then at any time the snapshot lists each address of a live key under
it, and the group of such an address is all the addresses of the key and no other. -/
theorem live_key_shown {s : Lifecycle} (h : s.Reachable Orderly) (hquiet : s.Quiescent)
    {pubkey : Pubkey} (hlive : s.Live pubkey) {ip : Ipv4Addr} {owner : Ipv4Owner}
    (hl : s.attribution.lookup ip = some owner) (hkey : owner.pubkey = pubkey) (now : ℕ) :
    (ip, pubkey) ∈ (s.attribution.snapshotIpv4ToPubkeyAt now).1 ∧
    ∀ ip', ip' ∈ (s.attribution.addressesSharingOwnerAt ip now).1 ↔
      ∃ owner', s.attribution.lookup ip' = some owner' ∧ owner'.pubkey = pubkey := by
  -- No address of the key is marked, so the sweep of the readers keeps them all.
  have hkept : ∀ {ip owner}, s.attribution.lookup ip = some owner → owner.pubkey = pubkey →
      (s.attribution.sweep now).lookup ip = some owner := by
    intro ip owner hl hkey
    rw [Attribution.lookup_sweep, hl, Option.filter_some,
      h.attributed.unmarked hquiet hl (hkey ▸ hlive)]
    rfl
  refine ⟨Attribution.mem_snapshotIpv4ToPubkeyAt.mpr ⟨owner, hkept hl hkey, hkey⟩, fun ip' => ?_⟩
  rw [Attribution.mem_addressesSharingOwnerAt]
  constructor
  · rintro (rfl | ⟨o, owner', ho, hl', hsame⟩)
    · exact ⟨owner, hl, hkey⟩
    · cases (hkept hl hkey).symm.trans ho
      rw [Attribution.lookup_sweep] at hl'
      exact ⟨owner', (Option.filter_eq_some_iff.mp hl').1, hsame.trans hkey⟩
  · rintro ⟨owner', hl', hkey'⟩
    exact .inr ⟨owner, owner', hkept hl hkey, hkept hl' hkey', hkey'.trans hkey.symm⟩

theorem live_key_shown_bonded :
    (11, 8) ∈ ((bondedEnds.foldl step start).attribution.snapshotIpv4ToPubkeyAt 0).1 := by
  have hstart : start.Reachable Orderly := .start rfl
  have hreach : (bondedEnds.foldl step start).Reachable Orderly := hstart.run (by decide)
  have hlive : (bondedEnds.foldl step start).Live 8 := by decide
  have hkept : (bondedEnds.foldl step start).attribution.lookup 11 = some ⟨8, none⟩ := by decide
  exact (live_key_shown hreach (quiescent_foldl (by decide) (by decide)) hlive hkept rfl 0).1

def markedLate : List LifecycleEvent :=
  .allow 7 :: setupOn 1 7 10 ++ .unregister 1 :: setupOn 2 7 10 ++ [.tombstone 1 0]

def backElsewhere : List LifecycleEvent :=
  .allow 7 :: setupOn 1 7 10 ++ .unregister 1 :: .tombstone 1 0 :: setupOn 2 7 11

def recordedLate : List LifecycleEvent :=
  [.allow 7, .check 1 (.wallet 7) true, .register 1, .recheck 1 true, .revoke 0 7, .takeSession 0,
    .clear 0, .close 0 1, .record 1 10, .unregister 1]

/-- **The mark of an entry says nothing about its key**: with nothing under way, the address in
use by a live key is marked; a live key has a marked address from before; and an address of a
key without connection is not marked, and no step of the key is left to mark it. -/
theorem attribution_not_live :
    (∃ s : Lifecycle, s.Reachable (fun _ _ => True) ∧ s.Quiescent ∧ s.Live 7 ∧
      s.attribution.lookup 10 = some ⟨7, some departedAttributionRetention⟩ ∧
      s.phase 2 = .served (.wallet 7)) ∧
    (∃ s : Lifecycle, s.Reachable (fun _ _ => True) ∧ s.Quiescent ∧ s.Live 7 ∧
      s.attribution.lookup 10 = some ⟨7, some departedAttributionRetention⟩ ∧
      s.attribution.lookup 11 = some ⟨7, none⟩) ∧
    ∃ s : Lifecycle, s.Reachable (fun _ _ => True) ∧ s.Quiescent ∧ ¬ s.Live 7 ∧
      s.attribution.lookup 10 = some ⟨7, none⟩ ∧ s.phase 1 = .left (.wallet 7) := by
  have hstart : start.Reachable fun _ _ => True := .start rfl
  have hreach : ∀ es : List LifecycleEvent, (es.foldl step start).Reachable fun _ _ => True :=
    fun es => hstart.foldl (fun _ e => ⟨e, trivial, rfl⟩) es
  refine ⟨⟨_, hreach markedLate, quiescent_foldl (by decide) (by decide), ?_⟩,
    ⟨_, hreach backElsewhere, quiescent_foldl (by decide) (by decide), ?_⟩,
    ⟨_, hreach recordedLate, quiescent_foldl (by decide) (by decide), ?_⟩⟩
  · decide
  · decide
  · decide

end WarrenGuard.Registry
