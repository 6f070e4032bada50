/-
The verdicts on the legs of a bond (`LegVerdicts` of `warrenguard-transport/src/path_health.rs`).

A prober sends a small and a large probe over every leg, round after round.  A leg that returns
neither is silent, one that returns the small one only has stopped carrying large packets.  A
round in which a leg got the large reply and not the small one proves that the exit loses replies,
and says nothing about any leg.  So a leg is convicted by two rounds in a row that do not.

* `silent_record`, `size_record` — the two verdicts are convictions that need confirmation, and
  differ in what keeps them up;
* `leg_verdicts_exact` — who is convicted after any round.
-/
import WarrenGuard.Confirmation
import WarrenGuard.Basic
import Mathlib.Data.List.Sort

namespace WarrenGuard.PathHealth

/-! ### A round -/

/-- What came back in one round, for each of `legs` legs. -/
structure Sweep (legs : ℕ) where
  smallOk : List Bool
  largeOk : List Bool
  length_smallOk : smallOk.length = legs
  length_largeOk : largeOk.length = legs

namespace Sweep

variable {legs : ℕ}

def new (legs : ℕ) : Sweep legs where
  smallOk := List.replicate legs false
  largeOk := List.replicate legs false
  length_smallOk := List.length_replicate
  length_largeOk := List.length_replicate

variable (s : Sweep legs)

/-- A reply; one for a leg there is not changes nothing. -/
def record (leg : ℕ) (large : Bool) : Sweep legs :=
  if large then
    { s with
      largeOk := s.largeOk.set leg true
      length_largeOk := List.length_set.trans s.length_largeOk }
  else
    { s with
      smallOk := s.smallOk.set leg true
      length_smallOk := List.length_set.trans s.length_smallOk }

def small (leg : ℕ) : Bool := s.smallOk.getD leg false

def large (leg : ℕ) : Bool := s.largeOk.getD leg false

def legsWhere (p : Bool → Bool → Bool) : List ℕ :=
  ((s.smallOk.zip s.largeOk).zipIdx.filter fun e => p e.1.1 e.1.2).map Prod.snd

def unresponsiveLegs : List ℕ := s.legsWhere fun small large => !small && !large

def sizeBlackholedLegs : List ℕ := s.legsWhere fun small large => small && !large

def returnPathLostAReply : Bool :=
  (s.smallOk.zip s.largeOk).any fun e => e.2 && !e.1

end Sweep

/-! ### The verdicts -/

structure LegVerdicts where
  silent : List ℕ
  size : List ℕ
  silentSuspects : List ℕ
  sizeSuspects : List ℕ
deriving DecidableEq

namespace LegVerdicts

def default : LegVerdicts := ⟨[], [], [], []⟩

/-- Adds who fails now and was a suspect already. -/
def convict (convicted suspects now : List ℕ) : List ℕ :=
  (now.foldl (fun convicted leg =>
    if suspects.contains leg && !convicted.contains leg then convicted ++ [leg] else convicted)
    convicted).mergeSort

def judge {legs : ℕ} (v : LegVerdicts) (sweep : Sweep legs) : LegVerdicts :=
  let silentNow := sweep.unresponsiveLegs
  let sizeNow := sweep.sizeBlackholedLegs
  let silent := v.silent.filter fun leg => silentNow.contains leg
  let size := v.size.filter fun leg => !sweep.large leg
  if sweep.returnPathLostAReply then
    { silent, size, silentSuspects := [], sizeSuspects := [] }
  else
    { silent := convict silent v.silentSuspects silentNow
      size := convict size v.sizeSuspects sizeNow
      silentSuspects := silentNow
      sizeSuspects := sizeNow }

def after {legs : ℕ} (rounds : ℕ → Sweep legs) : ℕ → LegVerdicts
  | 0 => .default
  | n + 1 => (after rounds n).judge (rounds n)

end LegVerdicts

/-! ### What a round finds -/

namespace Sweep

variable {legs : ℕ} {s : Sweep legs} {leg : ℕ}

def SilentAt (s : Sweep legs) (leg : ℕ) : Prop := s.small leg = false ∧ s.large leg = false

def LosesLargeAt (s : Sweep legs) (leg : ℕ) : Prop := s.small leg = true ∧ s.large leg = false

def LostReply (s : Sweep legs) : Prop := ∃ leg < legs, s.large leg = true ∧ s.small leg = false

theorem getElem?_zip (h : leg < legs) :
    (s.smallOk.zip s.largeOk)[leg]? = some (s.small leg, s.large leg) := by
  have hsmall : leg < s.smallOk.length := by
    rw [s.length_smallOk]
    exact h
  have hlarge : leg < s.largeOk.length := by
    rw [s.length_largeOk]
    exact h
  rw [List.getElem?_zip_eq_some, small, large, List.getD_eq_getElem?_getD,
    List.getD_eq_getElem?_getD, List.getElem?_eq_getElem hsmall, List.getElem?_eq_getElem hlarge]
  exact ⟨rfl, rfl⟩

theorem lt_of_getElem?_zip {e : Bool × Bool} (h : (s.smallOk.zip s.largeOk)[leg]? = some e) :
    leg < legs ∧ e = (s.small leg, s.large leg) := by
  have hlt : leg < legs := by
    have hin := (List.getElem?_eq_some_iff.mp h).1
    rw [List.length_zip, s.length_smallOk, s.length_largeOk, min_self] at hin
    exact hin
  exact ⟨hlt, Option.some.inj (h.symm.trans (getElem?_zip hlt))⟩

/-- **The lists of a round.** -/
theorem mem_legsWhere {p : Bool → Bool → Bool} :
    leg ∈ s.legsWhere p ↔ leg < legs ∧ p (s.small leg) (s.large leg) = true := by
  unfold legsWhere
  constructor
  · intro h
    obtain ⟨⟨e, i⟩, hentry, hi⟩ := List.mem_map.mp h
    obtain rfl : i = leg := hi
    obtain ⟨hentry, hp⟩ := List.mem_filter.mp hentry
    obtain ⟨hlt, he⟩ := lt_of_getElem?_zip (List.mem_zipIdx_iff_getElem?.mp hentry)
    dsimp only at hlt he hp
    rw [he] at hp
    exact ⟨hlt, hp⟩
  · rintro ⟨hlt, hp⟩
    exact List.mem_map.mpr ⟨((s.small leg, s.large leg), leg), List.mem_filter.mpr
      ⟨List.mem_zipIdx_iff_getElem?.mpr (getElem?_zip hlt), hp⟩, rfl⟩

theorem mem_unresponsiveLegs : leg ∈ s.unresponsiveLegs ↔ leg < legs ∧ s.SilentAt leg := by
  rw [unresponsiveLegs, mem_legsWhere, Bool.and_eq_true, Bool.not_eq_true', Bool.not_eq_true']
  rfl

theorem mem_sizeBlackholedLegs : leg ∈ s.sizeBlackholedLegs ↔ leg < legs ∧ s.LosesLargeAt leg := by
  rw [sizeBlackholedLegs, mem_legsWhere, Bool.and_eq_true, Bool.not_eq_true']
  rfl

theorem returnPathLostAReply_iff : s.returnPathLostAReply = true ↔ s.LostReply := by
  unfold returnPathLostAReply
  rw [List.any_eq_true]
  constructor
  · rintro ⟨e, hmem, he⟩
    obtain ⟨i, hi⟩ := List.mem_iff_getElem?.mp hmem
    obtain ⟨hlt, rfl⟩ := lt_of_getElem?_zip hi
    rw [Bool.and_eq_true, Bool.not_eq_true'] at he
    exact ⟨i, hlt, he⟩
  · rintro ⟨i, hlt, hlarge, hsmall⟩
    refine ⟨_, List.mem_of_getElem? (getElem?_zip hlt), ?_⟩
    rw [hlarge, hsmall]
    rfl

end Sweep

/-! ### What a round does to the verdicts -/

namespace LegVerdicts

variable {legs : ℕ} {v : LegVerdicts} {s : Sweep legs} {leg : ℕ}

theorem mem_convict {convicted suspects now : List ℕ} :
    leg ∈ convict convicted suspects now ↔ leg ∈ convicted ∨ (leg ∈ suspects ∧ leg ∈ now) := by
  unfold convict
  rw [List.mem_mergeSort]
  induction now generalizing convicted with
  | nil => simp
  | cons x now ih =>
    rw [List.foldl_cons, ih, List.mem_cons]
    by_cases hnew : (suspects.contains x && !convicted.contains x) = true
    · rw [if_pos hnew, List.mem_append, List.mem_singleton]
      rw [Bool.and_eq_true, List.contains_iff_mem] at hnew
      constructor
      · rintro ((hin | rfl) | ⟨hsuspect, hnow⟩)
        · exact .inl hin
        · exact .inr ⟨hnew.1, .inl rfl⟩
        · exact .inr ⟨hsuspect, .inr hnow⟩
      · rintro (hin | ⟨hsuspect, rfl | hnow⟩)
        · exact .inl (.inl hin)
        · exact .inl (.inr rfl)
        · exact .inr ⟨hsuspect, hnow⟩
    · rw [if_neg hnew]
      constructor
      · rintro (hin | ⟨hsuspect, hnow⟩)
        · exact .inl hin
        · exact .inr ⟨hsuspect, .inr hnow⟩
      · rintro (hin | ⟨hsuspect, rfl | hnow⟩)
        · exact .inl hin
        · -- a suspect that is not added has been convicted
          refine .inl (by_contra fun hout => hnew ?_)
          simp [hsuspect, hout]
        · exact .inr ⟨hsuspect, hnow⟩

theorem mem_convict_unless {lost : Bool} {convicted suspects now : List ℕ} :
    leg ∈ (if lost then convicted else convict convicted suspects now) ↔
      leg ∈ convicted ∨ (¬ lost = true ∧ leg ∈ suspects ∧ leg ∈ now) := by
  cases lost with
  | true => simp
  | false => simpa using mem_convict

theorem mem_silent_judge :
    leg ∈ (v.judge s).silent ↔ (leg ∈ v.silent ∧ leg < legs ∧ s.SilentAt leg) ∨
      (¬ s.LostReply ∧ leg ∈ v.silentSuspects ∧ leg < legs ∧ s.SilentAt leg) := by
  unfold judge
  rw [apply_ite LegVerdicts.silent, mem_convict_unless, List.mem_filter, List.contains_iff_mem,
    Sweep.mem_unresponsiveLegs, Sweep.returnPathLostAReply_iff]

theorem mem_silentSuspects_judge :
    leg ∈ (v.judge s).silentSuspects ↔ ¬ s.LostReply ∧ leg < legs ∧ s.SilentAt leg := by
  unfold judge
  rw [apply_ite LegVerdicts.silentSuspects, List.mem_ite_nil_left, Sweep.mem_unresponsiveLegs,
    Sweep.returnPathLostAReply_iff]

theorem mem_size_judge :
    leg ∈ (v.judge s).size ↔ (leg ∈ v.size ∧ s.large leg = false) ∨
      (¬ s.LostReply ∧ leg ∈ v.sizeSuspects ∧ leg < legs ∧ s.LosesLargeAt leg) := by
  unfold judge
  rw [apply_ite LegVerdicts.size, mem_convict_unless, List.mem_filter, Bool.not_eq_true',
    Sweep.mem_sizeBlackholedLegs, Sweep.returnPathLostAReply_iff]

theorem mem_sizeSuspects_judge :
    leg ∈ (v.judge s).sizeSuspects ↔ ¬ s.LostReply ∧ leg < legs ∧ s.LosesLargeAt leg := by
  unfold judge
  rw [apply_ite LegVerdicts.sizeSuspects, List.mem_ite_nil_left, Sweep.mem_sizeBlackholedLegs,
    Sweep.returnPathLostAReply_iff]

end LegVerdicts

/-! ### Runs -/

open Confirmation LegVerdicts

section Runs

variable {legs : ℕ} (rounds : ℕ → Sweep legs) (leg : ℕ)

theorem silent_record :
    Record (fun n => ¬ (rounds n).LostReply) (fun n => leg < legs ∧ (rounds n).SilentAt leg)
      (fun n => leg < legs ∧ (rounds n).SilentAt leg) (fun n => leg ∈ (after rounds n).silent)
      (fun n => leg ∈ (after rounds n).silentSuspects) where
  innocent := List.not_mem_nil
  unsuspected := List.not_mem_nil
  suspect_succ _ := mem_silentSuspects_judge
  convicted_succ _ := mem_silent_judge

theorem size_record :
    Record (fun n => ¬ (rounds n).LostReply) (fun n => leg < legs ∧ (rounds n).LosesLargeAt leg)
      (fun n => (rounds n).large leg = false) (fun n => leg ∈ (after rounds n).size)
      (fun n => leg ∈ (after rounds n).sizeSuspects) where
  innocent := List.not_mem_nil
  unsuspected := List.not_mem_nil
  suspect_succ _ := mem_sizeSuspects_judge
  convicted_succ _ := mem_size_judge

end Runs

/-- **Who is convicted.**  For every sequence of rounds over the same legs, after round `r`: a
leg is convicted as silent exactly if there are two rounds in a row up to `r`, neither of which
showed a lost reply on any leg, and from the first of them on every round found it silent; and
on size exactly if there are two such rounds in both of which it returned the small probe and
lost the large one, and from the second of them on it lost the large one in every round. -/
theorem leg_verdicts_exact {legs : ℕ} (rounds : ℕ → Sweep legs) (r leg : ℕ) :
    (leg ∈ (after rounds (r + 1)).silent ↔
      leg < legs ∧ ∃ k, k + 1 ≤ r ∧ ¬ (rounds k).LostReply ∧ ¬ (rounds (k + 1)).LostReply ∧
        ∀ j, k ≤ j → j ≤ r → (rounds j).SilentAt leg) ∧
    (leg ∈ (after rounds (r + 1)).size ↔
      leg < legs ∧ ∃ k, k + 1 ≤ r ∧ ¬ (rounds k).LostReply ∧ ¬ (rounds (k + 1)).LostReply ∧
        (rounds k).LosesLargeAt leg ∧ (rounds (k + 1)).LosesLargeAt leg ∧
        ∀ j, k + 1 ≤ j → j ≤ r → (rounds j).large leg = false) := by
  have hsilent := (silent_record rounds leg).convicted_iff (fun _ h => h) r
  have hsize := (size_record rounds leg).convicted_iff (fun _ h => h.2.2) r
  constructor
  · rw [hsilent]
    constructor
    · rintro ⟨k, hk, htwice, hkept⟩
      refine ⟨htwice.first_fails.1, k, hk, htwice.first_clean, htwice.second_clean,
        fun j hlo hhi => ?_⟩
      rcases Nat.lt_or_eq_of_le hlo with hlt | rfl
      · exact (hkept j hlt hhi).2
      · exact htwice.first_fails.2
    · rintro ⟨hleg, k, hk, hfirst, hsecond, hall⟩
      exact ⟨k, hk, ⟨hfirst, hsecond, ⟨hleg, hall k (Nat.le_refl k) (by omega)⟩,
        ⟨hleg, hall (k + 1) (by omega) hk⟩⟩, fun j hlo hhi => ⟨hleg, hall j (by omega) hhi⟩⟩
  · rw [hsize]
    constructor
    · rintro ⟨k, hk, htwice, hkept⟩
      exact ⟨htwice.first_fails.1, k, hk, htwice.first_clean, htwice.second_clean,
        htwice.first_fails.2, htwice.second_fails.2, hkept⟩
    · rintro ⟨hleg, k, hk, hfirst, hsecond, hfails, hfails', hall⟩
      exact ⟨k, hk, ⟨hfirst, hsecond, ⟨hleg, hfails⟩, ⟨hleg, hfails'⟩⟩, hall⟩

end WarrenGuard.PathHealth
