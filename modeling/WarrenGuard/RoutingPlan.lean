/-
Which leg of a bond carries a packet (`RoutingPlan` of `warrenguard-transport/src/bundle.rs`).

A client holds several connections to its exit and pins each flow to one of them.  A leg whose
path has collapsed below what inner QUIC needs is quarantined, unless it is the best there is; and
a leg that answers no probe is passed over, unless none that is left answers.

* `mem_usable` — the legs of a plan are those the two rules leave, and there is one;
* `route_usable`, `route_fits`, `route_widest`, `route_eq_pinned` — the leg a packet goes to;
* `route_follows_plan` — all of this, for every bond.

Design notes: the legs of a plan are positions in its list of budgets, so the default of `budget`
is never used.
-/
import WarrenGuard.Basic
import Mathlib.Data.List.MinMax

namespace WarrenGuard.Bundle

/-- `QUIC_SAFE_INNER_MTU`: what inner QUIC needs. -/
def quicSafeInnerMtu : ℕ := 1228

/-- `TUNNEL_MIN_MTU - MULTIHOP_FRAME_MAX_OVERHEAD`. -/
def minInnerBudget : ℕ := 1200 - 83

structure RoutingPlan where
  budgets : List ℕ
  /-- The legs that carry packets. -/
  usable : List ℕ
  published : ℕ
deriving DecidableEq

def budget (budgets : List ℕ) (leg : ℕ) : ℕ := budgets.getD leg 0

/-- The legs that are as good as the best, or good enough. -/
def keptLegs (budgets : List ℕ) (best : ℕ) : List ℕ :=
  (budgets.zipIdx.filter fun e => !(decide (e.1 < best) && decide (e.1 < quicSafeInnerMtu))).map
    Prod.snd

/-- The legs that answer, or all of them if none does. -/
def answeringLegs (kept unresponsive : List ℕ) : List ℕ :=
  let answering := kept.filter fun leg => !unresponsive.contains leg
  if answering.isEmpty then kept else answering

namespace RoutingPlan

def fromBudgets (budgets unresponsive : List ℕ) : RoutingPlan :=
  match budgets.max? with
  | none => ⟨budgets, [], minInnerBudget⟩
  | some best =>
    let kept := keptLegs budgets best
    { budgets
      usable := answeringLegs kept unresponsive
      published := ((kept.map (budget budgets)).min?).getD minInnerBudget }

/-- Where the search for a leg starts: by the hash of the flow, or in turn. -/
def start (plan : RoutingPlan) (hash : Option UInt64) (rr : ℕ) : ℕ :=
  match hash with
  | some h => h.toNat % plan.usable.length
  | none => rr % plan.usable.length

def pinned (plan : RoutingPlan) (hash : Option UInt64) (rr : ℕ) : ℕ :=
  plan.usable.getD (plan.start hash rr) 0

/-- The usable leg of the largest budget, the last of several. -/
def widest (plan : RoutingPlan) : Option ℕ :=
  plan.usable.reverse.argmax (budget plan.budgets)

def route (plan : RoutingPlan) (hash : Option UInt64) (rr pktLen : ℕ) : ℕ :=
  let n := plan.usable.length
  if n = 0 then 0
  else if pktLen ≤ budget plan.budgets (plan.pinned hash rr) then plan.pinned hash rr
  else
    let others := (List.range' 1 (n - 1)).map fun step =>
      plan.usable.getD ((plan.start hash rr + step) % n) 0
    match others.find? fun leg => decide (pktLen ≤ budget plan.budgets leg) with
    | some leg => leg
    | none => plan.widest.getD (plan.pinned hash rr)

end RoutingPlan

/-! ### The legs of a plan -/

/-- A leg is quarantined if another one is better and it is below the floor. -/
def Quarantined (budgets : List ℕ) (leg : ℕ) : Prop :=
  (∃ best ∈ budgets, budget budgets leg < best) ∧ budget budgets leg < quicSafeInnerMtu

structure Kept (budgets : List ℕ) (leg : ℕ) : Prop where
  lt : leg < budgets.length
  not_quarantined : ¬ Quarantined budgets leg

structure Usable (budgets unresponsive : List ℕ) (leg : ℕ) : Prop where
  kept : Kept budgets leg
  answers : (∃ other, Kept budgets other ∧ other ∉ unresponsive) → leg ∉ unresponsive

section Legs

variable {budgets unresponsive kept : List ℕ} {leg best : ℕ}

theorem budget_eq (h : budgets[leg]? = some best) : budget budgets leg = best := by
  rw [budget, List.getD_eq_getElem?_getD, h]
  rfl

theorem getElem?_budget (h : leg < budgets.length) :
    budgets[leg]? = some (budget budgets leg) := by
  rw [budget, List.getD_eq_getElem?_getD, List.getElem?_eq_getElem h]
  rfl

theorem mem_keptLegs (hbest : budgets.max? = some best) :
    leg ∈ keptLegs budgets best ↔ Kept budgets leg := by
  obtain ⟨hmem, hmax⟩ := List.max?_eq_some_iff.mp hbest
  have hquarantined : Quarantined budgets leg ↔
      budget budgets leg < best ∧ budget budgets leg < quicSafeInnerMtu := by
    constructor
    · rintro ⟨⟨b, hb, hlt⟩, hfloor⟩
      exact ⟨lt_of_lt_of_le hlt (hmax b hb), hfloor⟩
    · rintro ⟨hlt, hfloor⟩
      exact ⟨⟨best, hmem, hlt⟩, hfloor⟩
  unfold keptLegs
  constructor
  · intro h
    obtain ⟨⟨b, i⟩, hentry, rfl⟩ := List.mem_map.mp h
    obtain ⟨hentry, hok⟩ := List.mem_filter.mp hentry
    have hget : budgets[i]? = some b := List.mem_zipIdx_iff_getElem?.mp hentry
    refine ⟨(List.getElem?_eq_some_iff.mp hget).1, fun hq => ?_⟩
    rw [hquarantined, budget_eq hget] at hq
    simp [hq.1, hq.2] at hok
  · rintro ⟨hlt, hq⟩
    rw [hquarantined] at hq
    refine List.mem_map.mpr ⟨(budget budgets leg, leg), List.mem_filter.mpr
      ⟨List.mem_zipIdx_iff_getElem?.mpr (getElem?_budget hlt), ?_⟩, rfl⟩
    rw [Bool.not_eq_true', Bool.and_eq_false_iff, decide_eq_false_iff_not, decide_eq_false_iff_not]
    exact not_and_or.mp hq

/-- **The best leg is never quarantined.** -/
theorem not_quarantined_of_best (h : ∀ b ∈ budgets, b ≤ budget budgets leg) :
    ¬ Quarantined budgets leg := by
  rintro ⟨⟨best, hbest, hlt⟩, -⟩
  exact absurd (h best hbest) (Nat.not_le.mpr hlt)

theorem exists_kept (hne : budgets ≠ []) : ∃ leg, Kept budgets leg := by
  obtain ⟨best, hbest⟩ := Option.isSome_iff_exists.mp (List.isSome_max?_of_ne_nil hne)
  obtain ⟨hmem, hmax⟩ := List.max?_eq_some_iff.mp hbest
  obtain ⟨i, hi⟩ := List.mem_iff_getElem?.mp hmem
  refine ⟨i, (List.getElem?_eq_some_iff.mp hi).1, not_quarantined_of_best fun b hb => ?_⟩
  rw [budget_eq hi]
  exact hmax b hb

theorem mem_answeringLegs :
    leg ∈ answeringLegs kept unresponsive ↔
      leg ∈ kept ∧ ((∃ other ∈ kept, other ∉ unresponsive) → leg ∉ unresponsive) := by
  unfold answeringLegs
  dsimp only
  split
  · rename_i hempty
    have hnone : ¬ ∃ other ∈ kept, other ∉ unresponsive := by
      rintro ⟨other, hother, hanswers⟩
      have hin : other ∈ kept.filter fun leg => !unresponsive.contains leg :=
        List.mem_filter.mpr ⟨hother, by simpa using hanswers⟩
      rw [List.isEmpty_iff.mp hempty] at hin
      cases hin
    exact ⟨fun h => ⟨h, fun hsome => absurd hsome hnone⟩, And.left⟩
  · rename_i hsome
    obtain ⟨other, hother⟩ := List.exists_mem_of_ne_nil _ (mt List.isEmpty_iff.mpr hsome)
    obtain ⟨hkept, hanswers⟩ := List.mem_filter.mp hother
    constructor
    · intro h
      obtain ⟨hleg, hok⟩ := List.mem_filter.mp h
      exact ⟨hleg, fun _ => by simpa using hok⟩
    · rintro ⟨hleg, hok⟩
      have hleg' := hok ⟨other, hkept, by simpa using hanswers⟩
      exact List.mem_filter.mpr ⟨hleg, by simpa using hleg'⟩

end Legs

/-! ### The search for a leg -/

namespace RoutingPlan

variable {plan : RoutingPlan} {hash : Option UInt64} {rr pktLen leg : ℕ}

theorem start_lt (h : plan.usable ≠ []) : plan.start hash rr < plan.usable.length := by
  have hpos := List.length_pos_iff.mpr h
  unfold start
  split
  · exact Nat.mod_lt _ hpos
  · exact Nat.mod_lt _ hpos

theorem getD_mem_usable {i : ℕ} (h : i < plan.usable.length) :
    plan.usable.getD i 0 ∈ plan.usable := by
  rw [List.getD_eq_getElem?_getD, List.getElem?_eq_getElem h]
  exact List.getElem_mem h

theorem pinned_mem (h : plan.usable ≠ []) : plan.pinned hash rr ∈ plan.usable :=
  getD_mem_usable (start_lt h)

/-- Going round from any place, one step at a time, comes by every other place. -/
theorem exists_step {n start i : ℕ} (hstart : start < n) (hi : i < n) (hne : i ≠ start) :
    ∃ step, 1 ≤ step ∧ step ≤ n - 1 ∧ (start + step) % n = i := by
  rcases Nat.lt_or_gt_of_ne hne with hlt | hgt
  · refine ⟨i + n - start, by omega, by omega, ?_⟩
    rw [show start + (i + n - start) = i + n by omega, Nat.add_mod_right, Nat.mod_eq_of_lt hi]
  · refine ⟨i - start, by omega, by omega, ?_⟩
    rw [show start + (i - start) = i by omega, Nat.mod_eq_of_lt hi]

/-- **What `route` does**: the pinned leg if it takes the packet, else a leg that does, and the
widest only when none does. -/
theorem route_cases (h : plan.usable ≠ []) (hash rr pktLen) :
    (pktLen ≤ budget plan.budgets (plan.pinned hash rr) ∧
        plan.route hash rr pktLen = plan.pinned hash rr) ∨
      (plan.route hash rr pktLen ∈ plan.usable ∧
        pktLen ≤ budget plan.budgets (plan.route hash rr pktLen)) ∨
      ((∀ leg ∈ plan.usable, budget plan.budgets leg < pktLen) ∧
        plan.widest = some (plan.route hash rr pktLen)) := by
  have hpos := List.length_pos_iff.mpr h
  unfold route
  rw [if_neg (by omega)]
  by_cases hpinned : pktLen ≤ budget plan.budgets (plan.pinned hash rr)
  · exact .inl ⟨hpinned, if_pos hpinned⟩
  rw [if_neg hpinned]
  dsimp only
  split
  · rename_i leg hfound
    have hfits := List.find?_some hfound
    obtain ⟨step, -, rfl⟩ := List.mem_map.mp (List.mem_of_find?_eq_some hfound)
    exact .inr (.inl ⟨getD_mem_usable (Nat.mod_lt _ hpos), by simpa using hfits⟩)
  · rename_i hnone
    have hall : ∀ leg ∈ plan.usable, budget plan.budgets leg < pktLen := by
      intro leg hleg
      obtain ⟨i, hi, rfl⟩ := List.mem_iff_getElem.mp hleg
      have hget : plan.usable.getD i 0 = plan.usable[i] := by
        rw [List.getD_eq_getElem?_getD, List.getElem?_eq_getElem hi]
        rfl
      by_cases hne : i = plan.start hash rr
      · rw [← hget, hne]
        exact Nat.lt_of_not_le hpinned
      · obtain ⟨step, hlo, hhi, hstep⟩ := exists_step (start_lt h) hi hne
        have hmem : plan.usable[i] ∈ (List.range' 1 (plan.usable.length - 1)).map fun step =>
            plan.usable.getD ((plan.start hash rr + step) % plan.usable.length) 0 :=
          List.mem_map.mpr ⟨step, List.mem_range'_1.mpr ⟨hlo, by omega⟩, by rw [hstep, hget]⟩
        have hno := List.find?_eq_none.mp hnone _ hmem
        exact Nat.lt_of_not_le fun hle => hno (decide_eq_true hle)
    refine .inr (.inr ⟨hall, ?_⟩)
    cases hwidest : plan.widest with
    | none => exact absurd (List.reverse_eq_nil_iff.mp (List.argmax_eq_none.mp hwidest)) h
    | some leg => rfl

theorem widest_mem (h : plan.widest = some leg) : leg ∈ plan.usable :=
  List.mem_reverse.mp (List.argmax_mem h)

theorem route_mem (h : plan.usable ≠ []) : plan.route hash rr pktLen ∈ plan.usable := by
  rcases route_cases h hash rr pktLen with
    ⟨-, heq⟩ | ⟨hmem, -⟩ | ⟨-, hwidest⟩
  · rw [heq]
    exact pinned_mem h
  · exact hmem
  · exact widest_mem hwidest

theorem route_fits (hleg : leg ∈ plan.usable) (hfits : pktLen ≤ budget plan.budgets leg) :
    pktLen ≤ budget plan.budgets (plan.route hash rr pktLen) := by
  rcases route_cases (List.ne_nil_of_mem hleg) hash rr pktLen with
    ⟨hpinned, heq⟩ | ⟨-, hroute⟩ | ⟨hnone, -⟩
  · rw [heq]
    exact hpinned
  · exact hroute
  · exact absurd (hnone leg hleg) (Nat.not_lt.mpr hfits)

theorem route_widest (hnone : ∀ leg ∈ plan.usable, budget plan.budgets leg < pktLen)
    (hleg : leg ∈ plan.usable) :
    budget plan.budgets leg ≤ budget plan.budgets (plan.route hash rr pktLen) := by
  have hne := List.ne_nil_of_mem hleg
  rcases route_cases hne hash rr pktLen with
    ⟨hpinned, -⟩ | ⟨hmem, hroute⟩ | ⟨-, hwidest⟩
  · exact absurd (hnone _ (pinned_mem hne)) (Nat.not_lt.mpr hpinned)
  · exact absurd (hnone _ hmem) (Nat.not_lt.mpr hroute)
  · exact List.le_of_mem_argmax (List.mem_reverse.mpr hleg) hwidest

theorem route_eq_pinned (h : plan.usable ≠ [])
    (hfits : pktLen ≤ budget plan.budgets (plan.pinned hash rr)) :
    plan.route hash rr pktLen = plan.pinned hash rr := by
  have hpos := List.length_pos_iff.mpr h
  unfold route
  rw [if_neg (by omega), if_pos hfits]

end RoutingPlan

/-! ### Bonds -/

section Bonds

variable {budgets unresponsive : List ℕ} {leg : ℕ}

theorem fromBudgets_budgets (budgets unresponsive) :
    (RoutingPlan.fromBudgets budgets unresponsive).budgets = budgets := by
  unfold RoutingPlan.fromBudgets
  split <;> rfl

/-- **The legs of a plan.** -/
theorem mem_usable (hne : budgets ≠ []) :
    leg ∈ (RoutingPlan.fromBudgets budgets unresponsive).usable ↔
      Usable budgets unresponsive leg := by
  obtain ⟨best, hbest⟩ := Option.isSome_iff_exists.mp (List.isSome_max?_of_ne_nil hne)
  unfold RoutingPlan.fromBudgets
  rw [hbest]
  rw [mem_answeringLegs, mem_keptLegs hbest]
  simp only [mem_keptLegs hbest]
  exact ⟨fun ⟨hkept, hanswers⟩ => ⟨hkept, hanswers⟩, fun ⟨hkept, hanswers⟩ => ⟨hkept, hanswers⟩⟩

theorem usable_ne_nil (hne : budgets ≠ []) :
    (RoutingPlan.fromBudgets budgets unresponsive).usable ≠ [] := by
  obtain ⟨leg, hleg⟩ := exists_kept hne
  by_cases hanswers : ∃ other, Kept budgets other ∧ other ∉ unresponsive
  · obtain ⟨other, hother, hanswer⟩ := hanswers
    exact List.ne_nil_of_mem ((mem_usable hne).mpr ⟨hother, fun _ => hanswer⟩)
  · exact List.ne_nil_of_mem ((mem_usable hne).mpr ⟨hleg, fun hsome => absurd hsome hanswers⟩)

theorem published_le (hne : budgets ≠ []) (hleg : Kept budgets leg) :
    (RoutingPlan.fromBudgets budgets unresponsive).published ≤ budget budgets leg := by
  obtain ⟨best, hbest⟩ := Option.isSome_iff_exists.mp (List.isSome_max?_of_ne_nil hne)
  have hmem : budget budgets leg ∈ (keptLegs budgets best).map (budget budgets) :=
    List.mem_map_of_mem ((mem_keptLegs hbest).mpr hleg)
  unfold RoutingPlan.fromBudgets
  rw [hbest]
  dsimp only
  cases hmin : ((keptLegs budgets best).map (budget budgets)).min? with
  | none =>
    rw [List.min?_eq_none_iff.mp hmin] at hmem
    cases hmem
  | some least => exact (List.min?_eq_some_iff.mp hmin).2 _ hmem

end Bonds

/-- **Packets follow the plan.**  For every bond with a leg, every list of legs that do not
answer, every flow and every packet: the packet goes to a leg of the bond that is not
quarantined, and that answers if one of these does; its budget takes the packet if that of a
usable leg does, and is otherwise the largest of all usable legs; the best leg is never
quarantined; and a packet that is no longer than the published budget goes to the leg of its
flow, as does every other one up to that length. -/
theorem route_follows_plan (budgets unresponsive : List ℕ) (hne : budgets ≠ [])
    (hash : Option UInt64) (rr pktLen : ℕ) :
    Usable budgets unresponsive
      ((RoutingPlan.fromBudgets budgets unresponsive).route hash rr pktLen) ∧
    (∀ other, Usable budgets unresponsive other → pktLen ≤ budget budgets other → pktLen ≤
      budget budgets ((RoutingPlan.fromBudgets budgets unresponsive).route hash rr pktLen)) ∧
    ((∀ other, Usable budgets unresponsive other → budget budgets other < pktLen) →
      ∀ other, Usable budgets unresponsive other → budget budgets other ≤
        budget budgets ((RoutingPlan.fromBudgets budgets unresponsive).route hash rr pktLen)) ∧
    (∀ best, (∀ b ∈ budgets, b ≤ budget budgets best) → ¬ Quarantined budgets best) ∧
    (pktLen ≤ (RoutingPlan.fromBudgets budgets unresponsive).published →
      (RoutingPlan.fromBudgets budgets unresponsive).route hash rr pktLen
        = (RoutingPlan.fromBudgets budgets unresponsive).pinned hash rr ∧
      ∀ len ≤ (RoutingPlan.fromBudgets budgets unresponsive).published,
        (RoutingPlan.fromBudgets budgets unresponsive).route hash rr len
          = (RoutingPlan.fromBudgets budgets unresponsive).route hash rr pktLen) := by
  set plan := RoutingPlan.fromBudgets budgets unresponsive
  have husable : ∀ {other}, other ∈ plan.usable ↔ Usable budgets unresponsive other :=
    mem_usable hne
  have hbudgets : plan.budgets = budgets := fromBudgets_budgets budgets unresponsive
  have hplan : plan.usable ≠ [] := usable_ne_nil hne
  have hpinned : ∀ len ≤ plan.published, plan.route hash rr len = plan.pinned hash rr := by
    intro len hlen
    have hkept : Kept budgets (plan.pinned hash rr) :=
      (husable.mp (RoutingPlan.pinned_mem hplan)).kept
    exact RoutingPlan.route_eq_pinned hplan
      (hbudgets ▸ hlen.trans (published_le hne hkept))
  refine ⟨husable.mp (RoutingPlan.route_mem hplan), fun other hother hfits => ?_,
    fun hnone other hother => ?_, fun best hbest => not_quarantined_of_best hbest,
    fun hlen => ⟨hpinned pktLen hlen, fun len hle => ?_⟩⟩
  · rw [← hbudgets] at hfits ⊢
    exact RoutingPlan.route_fits (husable.mpr hother) hfits
  · have hall : ∀ leg ∈ plan.usable, budget plan.budgets leg < pktLen := by
      intro leg hleg
      rw [hbudgets]
      exact hnone leg (husable.mp hleg)
    rw [← hbudgets]
    exact RoutingPlan.route_widest hall (husable.mpr hother)
  · exact (hpinned len hle).trans (hpinned pktLen hlen).symm

/-- Four legs of which the last has collapsed and the second does not answer: a packet of 1240
bytes whose flow starts at the first leg goes on to the third. -/
theorem route_follows_plan_collapsed :
    (RoutingPlan.fromBudgets [1230, 1242, 1242, 1076] [1]).route (some 0) 0 1240 = 2 ∧
    Usable [1230, 1242, 1242, 1076] [1] 2 := by
  have h := (route_follows_plan [1230, 1242, 1242, 1076] [1] (List.cons_ne_nil _ _) (some 0) 0
    1240).1
  exact ⟨by decide, h⟩

end WarrenGuard.Bundle
