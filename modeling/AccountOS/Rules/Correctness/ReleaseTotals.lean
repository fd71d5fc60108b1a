import AccountOS.Rules.Correctness.Acceptance
import AccountOS.Rules.Correctness.EventKinds

/-!
# What a rule set can release of an inflow

The percentages of a PARALLEL account are checked to be at most 100 in sum, and a SEQUENTIAL account
executes one rule. The amounts of rules with a fixed amount are checked against nothing: when such a
rule is written, the inflows that it will be executed for are not known. So what an accepted rule
set releases of an inflow is at most the inflow and the fixed amounts of the rules that it matches.
-/

namespace AccountOS

open Conc Sql WebhookProcessor

/-! ### One rule -/

/-- The fixed amount that a rule releases of an inflow. -/
def Rule.fixedAmount (r : Rule) : ℚ := (r.payload.bind RulePayload.amountKobo).getD 0

/-- The most that a rule releases of an inflow. -/
def Rule.share (r : Rule) (amountKobo : Int) : ℚ :=
  r.percentage * (max 0 amountKobo : Int) / 100 + r.fixedAmount

/-- A release that the schema has accepted. -/
def Rule.ReleaseAccepted (r : Rule) : Prop :=
  r.action = .releaseFunds → ∃ p, r.payload = some p ∧ releaseFundsPayloadSchema p = true

/-- The quotient of a division that drops the fraction. -/
theorem tdiv_mul_le_max (x : Int) {d : Int} (hd : 0 < d) : x.tdiv d * d ≤ max 0 x := by
  rcases le_total 0 x with hx | hx
  · have hle : x / d * d ≤ x := Int.ediv_mul_le x (ne_of_gt hd)
    rw [Int.tdiv_eq_ediv_of_nonneg hx]
    exact hle.trans (le_max_right 0 x)
  · have hnonpos : x.tdiv d ≤ 0 := by
      rw [← neg_nonneg, ← Int.neg_tdiv]
      exact Int.tdiv_nonneg (neg_nonneg.2 hx) (le_of_lt hd)
    exact (mul_nonpos_of_nonpos_of_nonneg hnonpos (le_of_lt hd)).trans (le_max_left 0 x)

namespace Rule

variable {r : Rule}

theorem percentage_of_accepted (h : r.ReleaseAccepted) (haction : r.action = .releaseFunds) :
    0 ≤ r.percentage ∧ r.percentage ≤ 100 := by
  obtain ⟨p, hp, hschema⟩ := h haction
  rw [Rule.percentage, hp, Option.bind_some]
  cases hq : p.percentage with
  | none => norm_num
  | some q =>
    obtain ⟨n, rfl, hone, hhundred⟩ := (of_releaseFundsPayloadSchema hschema).1 q hq
    have hone : (1 : ℚ) ≤ n := by exact_mod_cast hone
    have hhundred : (n : ℚ) ≤ 100 := by exact_mod_cast hhundred
    rw [Option.getD_some]
    exact ⟨by linarith, hhundred⟩

theorem fixedAmount_nonneg (h : r.ReleaseAccepted) (haction : r.action = .releaseFunds) :
    0 ≤ r.fixedAmount := by
  obtain ⟨p, hp, hschema⟩ := h haction
  rw [Rule.fixedAmount, hp, Option.bind_some]
  cases hq : p.amountKobo with
  | none => norm_num
  | some q =>
    obtain ⟨n, rfl, hpos⟩ := (of_releaseFundsPayloadSchema hschema).2.1 q hq
    have hpos : (0 : ℚ) < n := by exact_mod_cast hpos
    rw [Option.getD_some]
    exact le_of_lt hpos

theorem share_nonneg (h : r.ReleaseAccepted) (haction : r.action = .releaseFunds)
    (amountKobo : Int) : 0 ≤ r.share amountKobo := by
  have hpercentage := (percentage_of_accepted h haction).1
  have hfixed := fixedAmount_nonneg h haction
  have hmax : (0 : ℚ) ≤ (max 0 amountKobo : Int) := by exact_mod_cast le_max_left 0 amountKobo
  unfold share
  positivity

/-- **What a release comes to.** -/
theorem releaseAmount_le_share (h : r.ReleaseAccepted) (haction : r.action = .releaseFunds)
    {inflow amount : Int}
    (hamount : releaseAmount (r.payload.getD {}) inflow = some (.ok amount)) :
    (amount : ℚ) ≤ r.share inflow := by
  obtain ⟨p, hp, hschema⟩ := h haction
  obtain ⟨hpercentage, hkobo, hexclusive⟩ := of_releaseFundsPayloadSchema hschema
  rw [hp, Option.getD_some, releaseAmount] at hamount
  rw [share, Rule.percentage, Rule.fixedAmount, hp, Option.bind_some, Option.bind_some]
  cases hq : p.percentage with
  | some q =>
    obtain ⟨n, rfl, hone, -⟩ := hpercentage q hq
    have hnone : p.amountKobo = none := by
      rcases hexclusive with hnone | hnone
      · rw [hq] at hnone
        cases hnone
      · exact hnone
    rw [hq] at hamount
    cases hamount
    rw [hnone, Option.getD_some, Option.getD_none, add_zero]
    -- the percentage is an integer, so that its hundredfold is not rounded
    have hround : mathRound (n * 100 : ℚ) = n * 100 := by
      exact_mod_cast mathRound_intCast (n * 100)
    rw [hround, bigIntDiv]
    have hdiv := tdiv_mul_le_max (n * 100 * inflow) (by norm_num : (0 : Int) < 10000)
    have hmax : max 0 (n * 100 * inflow) ≤ n * 100 * max 0 inflow := by
      refine max_le (by positivity) ?_
      exact mul_le_mul_of_nonneg_left (le_max_right 0 inflow) (by omega)
    have hcast : (((n * 100 * inflow).tdiv 10000 : Int) : ℚ) * 10000 ≤
        n * 100 * (max 0 inflow : Int) := by exact_mod_cast hdiv.trans hmax
    linarith
  | none =>
    rw [hq] at hamount
    cases hk : p.amountKobo with
    | none =>
      rw [hk] at hamount
      cases hamount
    | some q =>
      obtain ⟨n, rfl, -⟩ := hkobo q hk
      rw [hk] at hamount
      have hn : n = amount := by simpa using hamount
      rw [Option.getD_none, Option.getD_some, zero_mul, zero_div, zero_add, hn]

end Rule

/-! ### The rules that fire -/

section Firing

variable {db : Db} {rank : String → Nat} {accountId : String} {model : ExecutionModel}
  {event : RuleEvent}

/-- Joining each row with a row of another table leaves out those that have none. -/
theorem map_fst_filterMap_sublist {α β : Type} {join : α → Option (α × β)}
    (hjoin : ∀ x p, join x = some p → p.1 = x) (t : List α) :
    List.Sublist ((t.filterMap join).map Prod.fst) t := by
  induction t with
  | nil => exact List.Sublist.slnil
  | cons x t ih =>
    rw [List.filterMap_cons]
    cases hx : join x with
    | none => exact ih.cons x
    | some p =>
      rw [List.map_cons, hjoin x p hx]
      exact ih.cons_cons x

/-- The rules that fire are rules in force that match, in some order. -/
theorem map_fst_firing_sublist :
    List.Sublist ((firing model event (db.findRules rank accountId)).map Prod.fst)
      (((db.activeRules accountId).insertionSort (priorityLE rank)).filter
        fun r => ruleMatches r event) := by
  have hfilter : List.Sublist (firing model event (db.findRules rank accountId))
      ((db.findRules rank accountId).filter fun q => ruleMatches q.1 event) := by
    cases model with
    | parallel => exact List.Sublist.refl _
    | sequential =>
      show List.Sublist ((db.findRules rank accountId).find? _).toList _
      rw [← List.head?_filter]
      cases (db.findRules rank accountId).filter fun q => ruleMatches q.1 event with
      | nil => exact List.Sublist.slnil
      | cons q rules => exact (List.nil_sublist rules).cons_cons q
  have hjoin : List.Sublist ((db.findRules rank accountId).map Prod.fst)
      ((db.activeRules accountId).insertionSort (priorityLE rank)) := by
    refine map_fst_filterMap_sublist (fun r p hp => ?_) _
    obtain ⟨a, -, rfl⟩ := Option.map_eq_some_iff.1 hp
    rfl
  refine (hfilter.map Prod.fst).trans ?_
  have hmap : ((db.findRules rank accountId).filter fun q => ruleMatches q.1 event).map Prod.fst =
      ((db.findRules rank accountId).map Prod.fst).filter fun r => ruleMatches r event := by
    rw [List.filter_map]
    rfl
  rw [hmap]
  exact hjoin.filter _

/-- **What the rules that fire are worth** is at most what the rules in force are worth that match.
-/
theorem sumWhere_firing_le {P : Rule → Prop} [DecidablePred P] {g : Rule → ℚ}
    (hg : ∀ r ∈ db.activeRules accountId, P r → 0 ≤ g r) :
    sumWhere (fun q => P q.1) (fun q => g q.1) (firing model event (db.findRules rank accountId)) ≤
      sumWhere (fun r => P r ∧ ruleMatches r event = true) g (db.activeRules accountId) := by
  have hperm := List.perm_insertionSort (priorityLE rank) (db.activeRules accountId)
  have hsorted : sumWhere (fun r => P r ∧ ruleMatches r event = true) g
      (db.activeRules accountId) = ((((db.activeRules accountId).insertionSort
        (priorityLE rank)).filter fun r => P r ∧ ruleMatches r event = true).map g).sum :=
    (((hperm.filter _).map g).sum_eq).symm
  have hfiring : sumWhere (fun q => P q.1) (fun q => g q.1)
      (firing model event (db.findRules rank accountId)) =
        ((((firing model event (db.findRules rank accountId)).map Prod.fst).filter
          fun r => P r).map g).sum := by
    rw [sumWhere, List.filter_map, List.map_map]
    rfl
  rw [hsorted, hfiring]
  refine List.Sublist.sum_le_sum (List.Sublist.map g ?_) ?_
  · have hsub : List.Sublist
        (((firing model event (db.findRules rank accountId)).map Prod.fst).filter fun r => P r)
        ((((db.activeRules accountId).insertionSort (priorityLE rank)).filter
          fun r => ruleMatches r event).filter fun r => P r) :=
      map_fst_firing_sublist.filter _
    rw [List.filter_filter] at hsub
    simpa only [Bool.decide_and, Bool.decide_eq_true] using hsub
  · intro x hx
    obtain ⟨r, hr, rfl⟩ := List.mem_map.1 hx
    obtain ⟨hr, hP⟩ := List.mem_filter.1 hr
    exact hg r (hperm.subset hr) (of_decide_eq_true hP).1

end Firing

/-- The shares of rules, by their percentages and their fixed amounts. -/
theorem sumWhere_share (rules : List (Rule × RuleAccount)) (amountKobo : Int) :
    sumWhere (fun q => q.1.action = .releaseFunds) (fun q => q.1.share amountKobo) rules =
      sumWhere (fun q => q.1.action = .releaseFunds) (fun q => q.1.percentage) rules *
        (max 0 amountKobo : Int) / 100 +
      sumWhere (fun q => q.1.action = .releaseFunds) (fun q => q.1.fixedAmount) rules := by
  induction rules with
  | nil => simp
  | cons q rules ih =>
    rw [sumWhere_cons, sumWhere_cons, sumWhere_cons, ih]
    split
    next =>
      rw [Rule.share]
      ring
    next => ring

/-! ### An accepted rule set -/

namespace Db

/-- The fixed amounts of the releases in force that an inflow matches. -/
def fixedReleases (db : Db) (e : LedgerEntry) : ℚ :=
  sumWhere (fun r => r.action = .releaseFunds ∧
      ruleMatches r (inflowEvent e.amountKobo e.cumulativeAmountKobo) = true)
    Rule.fixedAmount (db.activeRules e.accountId)

namespace Accepted

variable {db : Db} {rank : String → Nat} {accountId : String} {model : ExecutionModel}
  {event : RuleEvent} (h : db.Accepted accountId)
include h

theorem percentages_firing_le
    (hmodel : ∀ a ∈ db.accounts, a.id = accountId → a.executionModel = model) :
    sumWhere (fun q => q.1.action = .releaseFunds) (fun q => q.1.percentage)
      (firing model event (db.findRules rank accountId)) ≤ 100 := by
  have hnonneg : ∀ r ∈ db.activeRules accountId, r.action = .releaseFunds → 0 ≤ r.percentage :=
    fun r hr haction => (Rule.percentage_of_accepted (h.payloads r hr) haction).1
  cases hfires : firing model event (db.findRules rank accountId) with
  | nil => norm_num
  | cons q rest =>
    have hq : q ∈ db.findRules rank accountId := by
      have hmem : q ∈ firing model event (db.findRules rank accountId) := by
        rw [hfires]
        exact List.mem_cons_self
      exact (mem_of_mem_firing hmem).1
    obtain ⟨hrule, hactive, a, ha, hid, -⟩ := mem_findRules hq
    rw [← hfires]
    cases model with
    | parallel =>
      have hparallel : db.IsParallel accountId := ⟨a, ha, hid, hmodel a ha hid⟩
      calc sumWhere (fun q => q.1.action = .releaseFunds) (fun q => q.1.percentage)
            (firing .parallel event (db.findRules rank accountId))
          ≤ sumWhere (fun r => r.action = .releaseFunds ∧ ruleMatches r event = true)
              Rule.percentage (db.activeRules accountId) := sumWhere_firing_le hnonneg
        _ ≤ sumWhere (fun r => r.action = .releaseFunds) Rule.percentage
              (db.activeRules accountId) := sumWhere_le_sumWhere _ (fun _ _ hr => hr.1) hnonneg
        _ ≤ 100 := by
          rw [← activePercentage_eq]
          exact h.percentages hparallel
    | sequential =>
      -- one rule fires
      have hone : rest = [] := by
        rw [firing] at hfires
        cases hfirst : (db.findRules rank accountId).find? fun q => ruleMatches q.1 event with
        | none => simp [hfirst] at hfires
        | some q' => simp_all
      rw [hfires, hone, sumWhere_cons, sumWhere_nil, add_zero]
      split
      next haction =>
        exact (Rule.percentage_of_accepted (h.payloads q.1 (mem_activeRules.2 ⟨hrule, hactive⟩))
          haction).2
      next => norm_num

/-- **What an accepted rule set releases of an inflow** is at most the inflow and the fixed amounts
of the rules that it matches. -/
theorem shares_firing_le {e : LedgerEntry}
    (hmodel : ∀ a ∈ db.accounts, a.id = e.accountId → a.executionModel = model)
    (haccount : accountId = e.accountId) :
    sumWhere (fun q => q.1.action = .releaseFunds) (fun q => q.1.share e.amountKobo)
      (firing model (inflowEvent e.amountKobo e.cumulativeAmountKobo)
        (db.findRules rank accountId)) ≤ (max 0 e.amountKobo : Int) + db.fixedReleases e := by
  subst haccount
  have hmax : (0 : ℚ) ≤ (max 0 e.amountKobo : Int) := by exact_mod_cast le_max_left 0 e.amountKobo
  have hpercentage : sumWhere (fun q => q.1.action = .releaseFunds) (fun q => q.1.percentage)
      (firing model (inflowEvent e.amountKobo e.cumulativeAmountKobo)
        (db.findRules rank e.accountId)) ≤ 100 := h.percentages_firing_le hmodel
  have hfixed : sumWhere (fun q => q.1.action = .releaseFunds) (fun q => q.1.fixedAmount)
      (firing model (inflowEvent e.amountKobo e.cumulativeAmountKobo)
        (db.findRules rank e.accountId)) ≤ db.fixedReleases e :=
    sumWhere_firing_le fun r hr haction => Rule.fixedAmount_nonneg (h.payloads r hr) haction
  have hpart := mul_le_mul_of_nonneg_right hpercentage hmax
  rw [sumWhere_share]
  linarith

end Accepted

end Db

end AccountOS
