import AccountOS.Rules.Correctness.EventKinds
import AccountOS.Store.Doubles

/-!
# What `evaluate` returns

The rows come in the order of their priorities, and in any order among those of one priority. For an
inflow the rules that match are those whose operators hold in exact arithmetic
(`evaluate_inflow`), although the amounts are compared as numbers. On a SEQUENTIAL account the first
of them is returned. That rule is determined by the rules in force only where no two of those that
match share the lowest priority (`sequential_deterministic_iff`).
-/

namespace AccountOS

open Conc Sql WebhookProcessor

/-! ### The query -/

instance (rank : String → Nat) : Std.Total (priorityLE rank) where
  total r s := by
    unfold priorityLE
    omega

instance (rank : String → Nat) : IsTrans Rule (priorityLE rank) where
  trans r s t := by
    unfold priorityLE
    omega

namespace Db

variable {db : Db} {rank : String → Nat} {accountId : String}

/-- The rows are in the order that the query asks for. -/
theorem pairwise_findRules :
    (db.findRules rank accountId).Pairwise fun q q' => priorityLE rank q.1 q'.1 := by
  have hsorted : ((db.activeRules accountId).insertionSort (priorityLE rank)).Pairwise
      (priorityLE rank) := List.pairwise_insertionSort (priorityLE rank) (db.activeRules accountId)
  refine hsorted.filterMap _ fun r s hrs q hq q' hq' => ?_
  obtain ⟨a, -, rfl⟩ := Option.map_eq_some_iff.1 hq
  obtain ⟨a', -, rfl⟩ := Option.map_eq_some_iff.1 hq'
  exact hrs

/-- An ACTIVE rule of an account that exists is returned. -/
theorem exists_mem_findRules (haccount : ∃ a ∈ db.accounts, a.id = accountId) {r : Rule}
    (hr : r ∈ db.activeRules accountId) : ∃ account, (r, account) ∈ db.findRules rank accountId := by
  obtain ⟨a, ha, hid⟩ := haccount
  obtain ⟨-, hrule, -⟩ := mem_activeRules.1 hr
  cases hfound : db.findAccountById r.accountId with
  | none =>
    have hno := List.find?_eq_none.1 hfound a ha
    exact absurd (hid.trans hrule.symm) (by simpa using hno)
  | some account =>
    refine ⟨account.forRule, List.mem_filterMap.2 ⟨r, (List.mem_insertionSort _).2 hr, ?_⟩⟩
    rw [hfound]
    rfl

/-- A row that is returned is the rule with its account. -/
theorem eq_of_mem_findRules {q : Rule × RuleAccount} (hq : q ∈ db.findRules rank accountId) :
    (db.findAccountById q.1.accountId).map (fun a => (q.1, a.forRule)) = some q := by
  obtain ⟨r, -, hjoin⟩ := List.mem_filterMap.1 hq
  obtain ⟨a, ha, rfl⟩ := Option.map_eq_some_iff.1 hjoin
  rw [ha]
  rfl

end Db

/-! ### Exact arithmetic -/

/-- The operators of a condition that are present hold of the amounts. -/
structure RuleCondition.HoldsOf (c : RuleCondition) (amountKobo cumulativeAmountKobo : Int) : Prop
    where
  amountGte : ∀ t ∈ c.amountGte, t ≤ amountKobo
  amountLte : ∀ t ∈ c.amountLte, amountKobo ≤ t
  amountLt : ∀ t ∈ c.amountLt, amountKobo < t
  amountEq : ∀ t ∈ c.amountEq, (amountKobo : ℚ) = t
  cumulativeGte : ∀ t ∈ c.cumulativeGte, t ≤ cumulativeAmountKobo

/-- A rule for inflows whose condition holds of the amounts. -/
def Rule.MeetsInflow (amountKobo cumulativeAmountKobo : Int) (r : Rule) : Prop :=
  r.trigger = .inflowReceived ∧ ∃ c ∈ r.condition, c.HoldsOf amountKobo cumulativeAmountKobo

/-- A threshold that the schema has accepted is an integer whose neighbours a double holds. -/
theorem exists_threshold_of_positiveInt {x : Option ℚ} (h : positiveInt x = true) {q : ℚ}
    (hq : q ∈ x) : ∃ t : Int, q = t ∧ |t| ≤ 2 ^ 53 - 1 := by
  rw [Option.mem_def.1 hq] at h
  simp only [positiveInt, Option.all_some, Bool.and_eq_true, decide_eq_true_eq] at h
  obtain ⟨hint, -⟩ := h
  obtain ⟨t, rfl⟩ := exists_int_of_isInt hint
  simp only [isInt, Bool.and_eq_true, decide_eq_true_eq] at hint
  obtain ⟨⟨-, hupper⟩, hlower⟩ := hint
  have hupper : t ≤ 9007199254740991 := by exact_mod_cast hupper
  have hlower : -9007199254740991 ≤ t := by exact_mod_cast hlower
  exact ⟨t, rfl, abs_le.2 ⟨by omega, by omega⟩⟩

/-- Two tests of an optional threshold that agree on the thresholds that the schema accepts. -/
theorem all_iff_of_positiveInt {x : Option ℚ} (h : positiveInt x = true) {p : ℚ → Bool}
    {P : ℚ → Prop} (hp : ∀ t : Int, |t| ≤ 2 ^ 53 - 1 → (p t = true ↔ P t)) :
    x.all p = true ↔ ∀ q ∈ x, P q := by
  rw [Option.all_eq_true]
  refine forall₂_congr fun q hq => ?_
  obtain ⟨t, rfl, ht⟩ := exists_threshold_of_positiveInt h hq
  exact hp t ht

/-- **The matcher is exact**: comparing the amounts as numbers makes no difference to a condition
that the schema has accepted. -/
theorem inflowMatches_iff {c : RuleCondition} (h : inflowConditionSchema c = true)
    (amountKobo cumulative : Int) :
    inflowMatches c (number amountKobo) (number cumulative) = true ↔
      c.HoldsOf amountKobo cumulative := by
  simp only [inflowConditionSchema, Bool.and_eq_true] at h
  obtain ⟨⟨⟨⟨⟨hgte, hlte⟩, hlt⟩, heq⟩, hcum⟩, -⟩ := h
  simp only [inflowMatches, Bool.and_eq_true]
  -- each operator that is absent holds; the others are compared with an accepted threshold
  rw [all_iff_of_positiveInt hgte (P := fun t => t ≤ amountKobo),
    all_iff_of_positiveInt hlte (P := fun t => (amountKobo : ℚ) ≤ t),
    all_iff_of_positiveInt hlt (P := fun t => (amountKobo : ℚ) < t),
    all_iff_of_positiveInt heq (P := fun t => (amountKobo : ℚ) = t),
    all_iff_of_positiveInt hcum (P := fun t => t ≤ cumulative)]
  · constructor
    · rintro ⟨⟨⟨⟨hgte, hlte⟩, hlt⟩, heq⟩, hcum⟩
      exact ⟨hgte, hlte, hlt, heq, hcum⟩
    · rintro ⟨hgte, hlte, hlt, heq, hcum⟩
      exact ⟨⟨⟨⟨hgte, hlte⟩, hlt⟩, heq⟩, hcum⟩
  · intro t ht
    rw [decide_eq_true_eq, Int.cast_le, Int.cast_le, le_number_iff ht]
  · intro t ht
    rw [decide_eq_true_eq, Int.cast_inj, Int.cast_inj, number_eq_iff ht]
  · intro t ht
    rw [decide_eq_true_eq, Int.cast_lt, Int.cast_lt, number_lt_iff ht]
  · intro t ht
    rw [decide_eq_true_eq, Int.cast_le, Int.cast_le, number_le_iff ht]
  · intro t ht
    rw [decide_eq_true_eq, Int.cast_le, Int.cast_le, le_number_iff ht]

/-- A stored rule for inflows has a condition that the schema has accepted. -/
theorem Rule.FromAccepted.inflowCondition {isUrl : String → Bool} {r : Rule}
    (h : r.FromAccepted isUrl) (htrigger : r.trigger = .inflowReceived) :
    ∃ c, r.condition = some c ∧ inflowConditionSchema c = true := by
  obtain ⟨accountRef, rules, d, accountId, kycTier, r₀, hvalid, hd, hstored, htrigger₀,
    hcondition⟩ := h
  obtain ⟨trigger, action, generated, hmap, -, rfl⟩ := hstored
  have hd := ruleSchema_of_mem hvalid hd
  rw [ruleSchema, Bool.and_eq_true, triggerConditionSchema, hmap, Bool.and_eq_true] at hd
  have hinflow : trigger = .inflowReceived := htrigger₀.symm.trans htrigger
  rw [hinflow] at hd
  exact ⟨d.condition, hcondition, hd.1.2⟩

theorem ruleMatches_inflow_iff {isUrl : String → Bool} {r : Rule} (h : r.FromAccepted isUrl)
    (amountKobo cumulative : Int) :
    ruleMatches r (inflowEvent amountKobo cumulative) = true ↔
      r.MeetsInflow amountKobo cumulative := by
  constructor
  · intro hmatch
    have htrigger := trigger_of_ruleMatches_inflowEvent hmatch
    obtain ⟨c, hc, hschema⟩ := h.inflowCondition htrigger
    refine ⟨htrigger, c, hc, (inflowMatches_iff hschema _ _).1 ?_⟩
    rw [ruleMatches, hc, htrigger] at hmatch
    exact hmatch
  · rintro ⟨htrigger, c, hc, hholds⟩
    obtain ⟨c', hc', hschema⟩ := h.inflowCondition htrigger
    obtain rfl : c' = c := Option.some.inj (hc'.symm.trans hc)
    rw [ruleMatches, hc', htrigger]
    exact (inflowMatches_iff hschema _ _).2 hholds

open Classical in
/-- The rules that an inflow is to trigger, of those that the query returned. -/
noncomputable def inflowRules (model : ExecutionModel) (amountKobo cumulativeAmountKobo : Int)
    (rules : List (Rule × RuleAccount)) : List (Rule × RuleAccount) :=
  let meeting := rules.filter fun q => q.1.MeetsInflow amountKobo cumulativeAmountKobo
  match model with
  | .parallel => meeting
  | .sequential => meeting.head?.toList

theorem firing_inflow {isUrl : String → Bool} {rules : List (Rule × RuleAccount)}
    (accepted : ∀ q ∈ rules, q.1.FromAccepted isUrl) (model : ExecutionModel)
    (amountKobo cumulative : Int) :
    firing model (inflowEvent amountKobo cumulative) rules =
      inflowRules model amountKobo cumulative rules := by
  classical
  have hfilter : (rules.filter fun q => ruleMatches q.1 (inflowEvent amountKobo cumulative)) =
      rules.filter fun q => decide (q.1.MeetsInflow amountKobo cumulative) := by
    refine List.filter_congr fun q hq => ?_
    rw [Bool.eq_iff_iff, decide_eq_true_eq]
    exact ruleMatches_inflow_iff (accepted q hq) amountKobo cumulative
  cases model with
  | parallel => exact hfilter
  | sequential =>
    show (rules.find? fun q => ruleMatches q.1 (inflowEvent amountKobo cumulative)).toList = _
    rw [← List.head?_filter, hfilter]
    rfl

/-- **Evaluation meets its specification on inflows.** Of the rules in force, in the order of their
priorities, a PARALLEL account gets those whose operators hold in exact arithmetic, and a SEQUENTIAL
account the first of them. -/
theorem evaluate_inflow {isUrl : String → Bool} {w : World} {accountId : String}
    (accepted : ∀ r ∈ w.db.activeRules accountId, r.FromAccepted isUrl) {model : ExecutionModel}
    {amountKobo cumulative : Int} {env : Call → Env} {fired : List EvaluatedRule} {w' : World}
    (returned : (evaluate accountId model (inflowEvent amountKobo cumulative)).runWith env w =
      (.ok fired, w')) :
    ∃ rules : List (Rule × RuleAccount),
      rules = w.db.findRules (env (.findRules accountId)).rank accountId ∧
      rules.Pairwise (fun q q' => q.1.priority ≤ q'.1.priority) ∧
      fired = (inflowRules model amountKobo cumulative rules).map fun q => q.1.evaluated q.2 := by
  refine ⟨_, rfl, Db.pairwise_findRules.imp ?_, ?_⟩
  · intro q q' hle
    unfold priorityLE at hle
    omega
  · rw [evaluate_returned returned, selectMatching_eq_map, firing_inflow]
    intro q hq
    obtain ⟨hrule, hactive, -⟩ := Db.mem_findRules hq
    exact accepted q.1 (Db.mem_activeRules.2 ⟨hrule, hactive⟩)

namespace Sample

/-- A payment above `2 ^ 53`, which the account's rule for small inflows does not take. -/
def largePayment : RuleEvent := inflowEvent (2 ^ 60 + 1) (2 ^ 60 + 1)

end Sample

/-- Nothing is returned for it. -/
theorem evaluate_inflow_large : ∃ rules : List (Rule × RuleAccount),
    rules = (Sample.shop [] [Sample.smallInflow]).db.findRules (fun _ => 0) "acc1" ∧
      rules.Pairwise (fun q q' => q.1.priority ≤ q'.1.priority) ∧
      [] = (inflowRules .parallel (2 ^ 60 + 1) (2 ^ 60 + 1) rules).map
        fun q => q.1.evaluated q.2 := by
  have returned : (evaluate "acc1" .parallel Sample.largePayment).runWith Sample.calm
      (Sample.shop [] [Sample.smallInflow]) = (.ok [], Sample.shop [] [Sample.smallInflow]) := rfl
  have accepted : ∀ r ∈ (Sample.shop [] [Sample.smallInflow]).db.activeRules "acc1",
      r.FromAccepted fun _ => true := by
    intro r hr
    obtain rfl : r = Sample.smallInflow := by
      simpa [Sample.shop] using (Db.mem_activeRules.1 hr).1
    exact Sample.smallInflow_fromAccepted
  exact evaluate_inflow accepted returned

/-! ### Rules of one priority -/

/-- The rule matches and no rule in force that matches has a lower priority. -/
def Db.IsFirst (db : Db) (accountId : String) (event : RuleEvent) (r : Rule) : Prop :=
  r ∈ db.activeRules accountId ∧ ruleMatches r event = true ∧
    ∀ s ∈ db.activeRules accountId, ruleMatches s event = true → r.priority ≤ s.priority

section Sequential

variable {w : World} {accountId : String} {event : RuleEvent} {rank : String → Nat}

/-- The first element with a property, in a sorted list, comes before all others that have it. -/
theorem rel_of_find?_eq_some {α : Type} {R : α → α → Prop} {p : α → Bool} {l : List α} {x y : α}
    (hsorted : l.Pairwise R) (hfirst : l.find? p = some x) (hy : y ∈ l) (hp : p y = true) :
    y = x ∨ R x y := by
  obtain ⟨-, before, later, rfl, hnone⟩ := List.find?_eq_some_iff_append.1 hfirst
  rcases List.mem_append.1 hy with hbefore | hlater
  · have hno := hnone y hbefore
    rw [hp] at hno
    cases hno
  · rcases List.mem_cons.1 hlater with rfl | hlater
    · exact .inl rfl
    · exact .inr (List.rel_of_pairwise_cons (List.pairwise_append.1 hsorted).2.1 hlater)

/-- What fires on a SEQUENTIAL account is of the lowest priority, and the first one of it. -/
theorem isFirst_of_find? (haccount : ∃ a ∈ w.db.accounts, a.id = accountId)
    {q : Rule × RuleAccount}
    (hfirst : (w.db.findRules rank accountId).find? (fun q => ruleMatches q.1 event) = some q) :
    w.db.IsFirst accountId event q.1 ∧
      ∀ s ∈ w.db.activeRules accountId, ruleMatches s event = true → s ≠ q.1 →
        priorityLE rank q.1 s := by
  have hq : ruleMatches q.1 event = true := by simpa using List.find?_some hfirst
  have hmem := List.mem_of_find?_eq_some hfirst
  obtain ⟨hrule, hactive, -⟩ := Db.mem_findRules hmem
  -- the rows are sorted, and so the first that matches comes before all others that do
  have hbefore : ∀ s ∈ w.db.activeRules accountId, ruleMatches s event = true → s ≠ q.1 →
      priorityLE rank q.1 s := by
    intro s hs hmatch hne
    obtain ⟨account, hrow⟩ := Db.exists_mem_findRules haccount hs
    rcases rel_of_find?_eq_some Db.pairwise_findRules hfirst hrow hmatch with heq | hle
    · exact absurd (congrArg Prod.fst heq) hne
    · exact hle
  refine ⟨⟨Db.mem_activeRules.2 ⟨hrule, hactive⟩, hq, fun s hs hmatch => ?_⟩, hbefore⟩
  by_cases hne : s = q.1
  · rw [hne]
  · have hle := hbefore s hs hmatch hne
    unfold priorityLE at hle
    omega

/-- A rule that matches makes some rule fire. -/
theorem exists_find?_of_matches (haccount : ∃ a ∈ w.db.accounts, a.id = accountId) {r : Rule}
    (hr : r ∈ w.db.activeRules accountId) (hmatch : ruleMatches r event = true) :
    ∃ q, (w.db.findRules rank accountId).find? (fun q => ruleMatches q.1 event) = some q := by
  obtain ⟨account, hrow⟩ : ∃ account, (r, account) ∈ w.db.findRules rank accountId :=
    Db.exists_mem_findRules haccount hr
  exact Option.isSome_iff_exists.1 (List.find?_isSome.2 ⟨_, hrow, hmatch⟩)

theorem selectMatching_sequential (rules : List (Rule × RuleAccount)) :
    selectMatching .sequential event rules =
      ((rules.find? fun q => ruleMatches q.1 event).map fun q => q.1.evaluated q.2).toList := by
  rw [selectMatching_eq_map, firing]
  cases rules.find? fun q => ruleMatches q.1 event <;> rfl

/-- An order in which the rule comes before its equals. -/
def preferring (r : Rule) (id : String) : Nat := if id = r.id then 0 else 1

/-- The rule of the lowest priority fires when the database returns it before its equals. -/
theorem find?_eq_of_isFirst (unique : w.db.UniqueColumns)
    (haccount : ∃ a ∈ w.db.accounts, a.id = accountId) {r : Rule}
    (hr : w.db.IsFirst accountId event r) :
    ∃ q, (w.db.findRules (preferring r) accountId).find?
      (fun q => ruleMatches q.1 event) = some q ∧ q.1 = r := by
  obtain ⟨hactive, hmatch, hlowest⟩ := hr
  obtain ⟨q, hq⟩ : ∃ q, (w.db.findRules (preferring r) accountId).find?
      (fun q => ruleMatches q.1 event) = some q := exists_find?_of_matches haccount hactive hmatch
  refine ⟨q, hq, ?_⟩
  obtain ⟨⟨hqactive, hqmatch, -⟩, hbefore⟩ := isFirst_of_find? haccount hq
  by_contra hne
  have hle := hbefore r hactive hmatch (Ne.symm hne)
  have hlow := hlowest q.1 hqactive hqmatch
  have hid : q.1.id = r.id := by
    unfold priorityLE preferring at hle
    rw [if_pos rfl] at hle
    split at hle
    next hid => exact hid
    next => omega
  exact hne (List.inj_on_of_nodup_map unique.rules (Db.mem_activeRules.1 hqactive).1
    (Db.mem_activeRules.1 hactive).1 hid)

/-- **When SEQUENTIAL conflict resolution is deterministic.** Whatever order the database returns
rows of one priority in, the same rule fires: exactly if no two of the rules in force that match
share the lowest priority. -/
theorem sequential_deterministic_iff (unique : w.db.UniqueColumns)
    (haccount : ∃ a ∈ w.db.accounts, a.id = accountId) :
    (∀ env env' fired fired' w₁ w₂,
      (evaluate accountId .sequential event).runWith env w = (.ok fired, w₁) →
      (evaluate accountId .sequential event).runWith env' w = (.ok fired', w₂) →
      fired = fired') ↔
      ∀ r s, w.db.IsFirst accountId event r → w.db.IsFirst accountId event s → r = s := by
  constructor
  · intro hsame r s hr hs
    obtain ⟨q, hq, rfl⟩ := find?_eq_of_isFirst unique haccount hr
    obtain ⟨q', hq', rfl⟩ := find?_eq_of_isFirst unique haccount hs
    -- two runs, one in which the database returns each of the two first
    have hrun : ∀ rank : String → Nat,
        (evaluate accountId .sequential event).runWith (fun _ => { rank }) w =
          (.ok (selectMatching .sequential event (w.db.findRules rank accountId)), w) := by
      intro rank
      rw [evaluate, Proc.bind_eq, Proc.runWith_bind, runWith_find fun _ => rfl]
      rfl
    have hfired := hsame _ _ _ _ _ _ (hrun (preferring q.1)) (hrun (preferring q'.1))
    rw [selectMatching_sequential, selectMatching_sequential, hq, hq'] at hfired
    have hid : q.1.id = q'.1.id := congrArg EvaluatedRule.id (List.singleton_inj.1 hfired)
    exact List.inj_on_of_nodup_map unique.rules (Db.mem_activeRules.1 hr.1).1
      (Db.mem_activeRules.1 hs.1).1 hid
  · intro hfirst env env' fired fired' w₁ w₂ returned returned'
    rw [evaluate_returned returned, evaluate_returned returned', selectMatching_sequential,
      selectMatching_sequential]
    generalize (env (.findRules accountId)).rank = rank
    generalize (env' (.findRules accountId)).rank = rank'
    have hpair : ∀ rank rank' q, (w.db.findRules rank accountId).find?
          (fun q => ruleMatches q.1 event) = some q →
        (w.db.findRules rank' accountId).find? (fun q => ruleMatches q.1 event) = some q := by
      intro rank rank' q hq
      have hqfirst := (isFirst_of_find? haccount hq).1
      obtain ⟨q', hq'⟩ : ∃ q', (w.db.findRules rank' accountId).find?
          (fun q => ruleMatches q.1 event) = some q' :=
        exists_find?_of_matches haccount hqfirst.1 hqfirst.2.1
      have heq : q.1 = q'.1 := hfirst _ _ hqfirst (isFirst_of_find? haccount hq').1
      have hrow := Db.eq_of_mem_findRules (List.mem_of_find?_eq_some hq)
      have hrow' := Db.eq_of_mem_findRules (List.mem_of_find?_eq_some hq')
      rw [heq, hrow'] at hrow
      rw [hq', hrow]
    congr 2
    cases hq : (w.db.findRules rank accountId).find? fun q => ruleMatches q.1 event with
    | some q => exact (hpair rank rank' q hq).symm
    | none =>
      cases hq' : (w.db.findRules rank' accountId).find? fun q => ruleMatches q.1 event with
      | none => rfl
      | some q' =>
        rw [hpair rank' rank q' hq'] at hq
        cases hq

end Sequential

namespace Sample

/-- Another rule for small inflows, which leaves its priority at the default, too. -/
def reviewInflow : Rule where
  id := "rule3"
  accountId := "acc1"
  trigger := .inflowReceived
  condition := some { amountLte := some 1000 }
  action := .flagForReview
  payload := none
  kycTierAtCreation := .tier1

def reviewRules : List RuleDefinition := [
  { trigger := "inflow_received", condition := { amountLte := some 1000 }
    action := "flag_for_review" }]

theorem reviewInflow_fromAccepted : reviewInflow.FromAccepted fun _ => true :=
  ⟨"shop", reviewRules, _, "acc1", .tier1, _, by decide +kernel, List.mem_cons_self,
    ⟨_, _, {}, rfl, rfl, rfl⟩, rfl, rfl⟩

end Sample

/-- The account's only rule that matches, for two orders of the rows. -/
theorem sequential_deterministic_iff_oneRule :
    ∃ fired fired',
      (evaluate "acc1" .sequential (inflowEvent 500 500)).runWith
          (fun _ => { rank := preferring Sample.smallInflow })
          (Sample.shop [] [Sample.smallInflow, Sample.orderShipped]) =
        (.ok fired, Sample.shop [] [Sample.smallInflow, Sample.orderShipped]) ∧
      (evaluate "acc1" .sequential (inflowEvent 500 500)).runWith
          (fun _ => { rank := preferring Sample.orderShipped })
          (Sample.shop [] [Sample.smallInflow, Sample.orderShipped]) =
        (.ok fired', Sample.shop [] [Sample.smallInflow, Sample.orderShipped]) ∧
      fired = fired' := by
  have honly : ∀ r, (Sample.shop [] [Sample.smallInflow, Sample.orderShipped]).db.IsFirst "acc1"
      (inflowEvent 500 500) r → r = Sample.smallInflow := by
    rintro r ⟨hr, hmatch, -⟩
    have hrules : r ∈ [Sample.smallInflow, Sample.orderShipped] := (Db.mem_activeRules.1 hr).1
    rcases List.mem_cons.1 hrules with heq | hrules
    · exact heq
    · rw [List.mem_singleton.1 hrules] at hmatch
      exact absurd hmatch (by decide)
  have unique : (Sample.shop [] [Sample.smallInflow, Sample.orderShipped]).db.UniqueColumns := by
    constructor <;> decide
  have haccount : ∃ a ∈ (Sample.shop [] [Sample.smallInflow, Sample.orderShipped]).db.accounts,
      a.id = "acc1" := ⟨Sample.account, List.mem_cons_self, rfl⟩
  have hsame := (sequential_deterministic_iff unique haccount).2 fun r s hr hs =>
    (honly r hr).trans (honly s hs).symm
  exact ⟨_, _, rfl, rfl, hsame (fun _ => { rank := preferring Sample.smallInflow })
    (fun _ => { rank := preferring Sample.orderShipped }) _ _ _ _ rfl rfl⟩

/-- **The row order decides.** Two accepted rules that leave their priority at the default both
match an inflow; which of them fires, and so whether the account is suspended, depends on the order
in which the database returns their rows. -/
theorem row_order_decides :
    (∀ r ∈ (Sample.shop [] [Sample.smallInflow, Sample.reviewInflow]).db.activeRules "acc1",
      r.FromAccepted fun _ => true) ∧
    ∃ env env' fired fired',
      (evaluate "acc1" .sequential (inflowEvent 500 500)).runWith env
          (Sample.shop [] [Sample.smallInflow, Sample.reviewInflow]) =
        (.ok fired, Sample.shop [] [Sample.smallInflow, Sample.reviewInflow]) ∧
      (evaluate "acc1" .sequential (inflowEvent 500 500)).runWith env'
          (Sample.shop [] [Sample.smallInflow, Sample.reviewInflow]) =
        (.ok fired', Sample.shop [] [Sample.smallInflow, Sample.reviewInflow]) ∧
      fired ≠ fired' := by
  constructor
  · intro r hr
    have hrules : r ∈ [Sample.smallInflow, Sample.reviewInflow] := (Db.mem_activeRules.1 hr).1
    rcases List.mem_cons.1 hrules with rfl | hrules
    · exact Sample.smallInflow_fromAccepted
    · rw [List.mem_singleton.1 hrules]
      exact Sample.reviewInflow_fromAccepted
  · exact ⟨fun _ => { rank := preferring Sample.smallInflow },
      fun _ => { rank := preferring Sample.reviewInflow },
      [Sample.smallInflow.evaluated Sample.account.forRule],
      [Sample.reviewInflow.evaluated Sample.account.forRule], rfl, rfl, by decide⟩

end AccountOS
