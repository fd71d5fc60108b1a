import AccountOS.Queue.WebhookProcessor
import AccountOS.Rules.Correctness.Steps
import AccountOS.Store.Alone

/-!
# Which rules an event triggers

Inflows and custom events go through one matcher, which gives a custom event the amount 0. A rule
for inflows of at least some amount refuses it, since the schema only lets positive amounts through.
A rule for inflows that sets no lower bound takes it for a small inflow, and on a SEQUENTIAL account
nothing that comes after such a rule is tried any more.
-/

namespace AccountOS

open Conc Sql WebhookProcessor

/-! ### The loop of `evaluate` -/

/-- The rules that fire, of the rules in their order: on a SEQUENTIAL account the first one that
matches, on a PARALLEL account every one. -/
def firing (model : ExecutionModel) (event : RuleEvent) (rules : List (Rule × RuleAccount)) :
    List (Rule × RuleAccount) :=
  match model with
  | .sequential => (rules.find? fun q => ruleMatches q.1 event).toList
  | .parallel => rules.filter fun q => ruleMatches q.1 event

section Select

variable {model : ExecutionModel} {event : RuleEvent} {rules : List (Rule × RuleAccount)}

theorem selectMatching_eq_map :
    selectMatching model event rules = (firing model event rules).map fun q =>
      q.1.evaluated q.2 := by
  induction rules with
  | nil => cases model <;> rfl
  | cons q rules ih =>
    unfold selectMatching
    cases model with
    | sequential =>
      rw [firing, List.find?_cons]
      cases ruleMatches q.1 event with
      | true => rfl
      | false => exact ih
    | parallel =>
      rw [firing, List.filter_cons]
      cases ruleMatches q.1 event with
      | true => exact congrArg (q.1.evaluated q.2 :: ·) ih
      | false => exact ih

theorem mem_of_mem_firing {q : Rule × RuleAccount} (h : q ∈ firing model event rules) :
    q ∈ rules ∧ ruleMatches q.1 event = true := by
  cases model with
  | sequential =>
    have hfirst := Option.mem_toList.1 h
    exact ⟨List.mem_of_find?_eq_some hfirst, by simpa using List.find?_some hfirst⟩
  | parallel => exact List.mem_filter.1 h

/-- **Rules of two kinds that match.** Only rules of the kind `B` fire exactly if no rule of the
kind `A` gets its turn. -/
theorem forall_mem_firing_iff {A B : Rule → Bool}
    (hmatch : ∀ q ∈ rules, ruleMatches q.1 event = (A q.1 || B q.1))
    (hapart : ∀ r, A r = true → B r = false) :
    (∀ q ∈ firing model event rules, B q.1 = true) ↔
      ∀ before q later, rules = before ++ q :: later → A q.1 = true →
        model = .sequential ∧ ∃ c ∈ before, B c.1 = true := by
  constructor
  · intro honly before q later hsplit hA
    have hmem : q ∈ rules := by simp [hsplit]
    have hq : ruleMatches q.1 event = true := by rw [hmatch q hmem, hA, Bool.true_or]
    -- a rule of the kind `A` does not fire
    have hnot : q ∉ firing model event rules := by
      intro hfires
      have hB := honly q hfires
      rw [hapart q.1 hA] at hB
      cases hB
    cases model with
    | parallel =>
      have hfires : q ∈ firing .parallel event rules := List.mem_filter.2 ⟨hmem, hq⟩
      exact absurd hfires hnot
    | sequential =>
      refine ⟨rfl, ?_⟩
      cases hfirst : before.find? (fun c => ruleMatches c.1 event) with
      | none =>
        refine absurd (Option.mem_toList.2 ?_) hnot
        rw [hsplit, List.find?_append, hfirst, Option.none_or, List.find?_cons, hq]
      | some c =>
        refine ⟨c, List.mem_of_find?_eq_some hfirst, honly c (Option.mem_toList.2 ?_)⟩
        rw [hsplit, List.find?_append, hfirst]
        rfl
  · intro hturn q hfires
    obtain ⟨hq, hqmatch⟩ := mem_of_mem_firing hfires
    rw [hmatch q hq, Bool.or_eq_true] at hqmatch
    refine hqmatch.resolve_left fun hA => ?_
    cases model with
    | parallel =>
      obtain ⟨before, later, hsplit⟩ := List.append_of_mem hq
      exact absurd (hturn before q later hsplit hA).1 (by simp)
    | sequential =>
      -- what comes before the first rule that matches does not match
      have hfirst := Option.mem_toList.1 hfires
      obtain ⟨-, before, later, hsplit, hnone⟩ := List.find?_eq_some_iff_append.1 hfirst
      obtain ⟨-, c, hc, hB⟩ := hturn before q later hsplit hA
      have hcnone := hnone c hc
      rw [hmatch c (by rw [hsplit]; exact List.mem_append_left _ hc), hB, Bool.or_true] at hcnone
      cases hcnone

end Select

/-! ### Rules that the schema has accepted -/

/-- The row has what was stored for a definition of an accepted rule set; the columns that say
whether the rule is in force may have changed since. -/
def Rule.FromAccepted (isUrl : String → Bool) (r : Rule) : Prop :=
  ∃ accountRef rules d accountId kycTier r₀, validateRuleSet isUrl accountRef rules = true ∧
    d ∈ rules ∧ RuleDefinition.StoredAs accountId kycTier d r₀ ∧ r.trigger = r₀.trigger ∧
    r.condition = r₀.condition

/-- A rule for inflows with no lower bound on the amount. -/
def Rule.noLowerBound (r : Rule) : Bool :=
  r.trigger = .inflowReceived && r.condition.any fun c =>
    c.amountGte.isNone && c.amountEq.isNone && c.cumulativeGte.isNone

/-- A rule for the custom events of a name. -/
def Rule.awaits (r : Rule) (eventName : Option String) : Bool :=
  r.trigger = .customEvent && r.condition.any fun c => c.eventName = eventName

/-- A bound that the schema has accepted is above 0. -/
theorem not_le_zero_of_positiveInt {x : Option ℚ} (h : positiveInt x = true) :
    x.all (· ≤ 0) = x.isNone := by
  cases x with
  | none => rfl
  | some q =>
    simp only [positiveInt, Option.all_some, Bool.and_eq_true, decide_eq_true_eq] at h
    have hq : ¬ q ≤ 0 := not_le.2 h.2
    simpa using hq

theorem zero_le_of_positiveInt {x : Option ℚ} (h : positiveInt x = true) :
    x.all (0 ≤ ·) = true ∧ x.all (0 < ·) = true ∧ x.all (0 = ·) = x.isNone := by
  cases x with
  | none => exact ⟨rfl, rfl, rfl⟩
  | some q =>
    simp only [positiveInt, Option.all_some, Bool.and_eq_true, decide_eq_true_eq] at h
    have hq : 0 < q := h.2
    have hle : 0 ≤ q := le_of_lt hq
    have hne : ¬ 0 = q := ne_of_lt hq
    exact ⟨by simpa using hle, by simpa using hq, by simpa using hne⟩

/-- **What the matcher makes of a condition on amounts** where there is no amount. -/
theorem inflowMatches_zero {c : RuleCondition} (h : inflowConditionSchema c = true) :
    inflowMatches c 0 0 = (c.amountGte.isNone && c.amountEq.isNone && c.cumulativeGte.isNone) := by
  simp only [inflowConditionSchema, Bool.and_eq_true] at h
  obtain ⟨⟨⟨⟨⟨hgte, hlte⟩, hlt⟩, heq⟩, hcum⟩, -⟩ := h
  have hlte₀ := (zero_le_of_positiveInt hlte).1
  have hlt₀ := (zero_le_of_positiveInt hlt).2.1
  have heq₀ := (zero_le_of_positiveInt heq).2.2
  unfold inflowMatches
  rw [not_le_zero_of_positiveInt hgte, hlte₀, hlt₀, heq₀, not_le_zero_of_positiveInt hcum,
    Bool.and_true, Bool.and_true]

/-- **What a custom event triggers**: the rules that await it, and the rules for inflows that set no
lower bound. -/
theorem ruleMatches_customEvent {isUrl : String → Bool} {r : Rule} (h : r.FromAccepted isUrl)
    {payload : InflowPayload} (hcustom : isCustomEvent payload = true) :
    ruleMatches r (customEvent payload) = (r.noLowerBound || r.awaits payload.eventType) := by
  obtain ⟨accountRef, rules, d, accountId, kycTier, r₀, hvalid, hd, hstored, htrigger,
    hcondition⟩ := h
  obtain ⟨trigger, action, row, hmap, -, rfl⟩ := hstored
  have htrigger : r.trigger = trigger := htrigger
  have hcondition : r.condition = some d.condition := hcondition
  have hschema : triggerConditionSchema d = true := by
    have := ruleSchema_of_mem hvalid hd
    rw [ruleSchema, Bool.and_eq_true] at this
    exact this.1
  obtain ⟨t, ht, hne, hkind⟩ : ∃ t, payload.eventType = some t ∧ t ≠ "" ∧ t ≠ "NOMBA_INFLOW" := by
    obtain ⟨t, ht, hne⟩ := (Option.any_eq_true _ _).1 hcustom
    simp only [Bool.and_eq_true, decide_eq_true_eq] at hne
    exact ⟨t, ht, hne⟩
  rw [triggerConditionSchema, hmap, Bool.and_eq_true] at hschema
  unfold ruleMatches Rule.noLowerBound Rule.awaits
  rw [hcondition, htrigger]
  cases trigger with
  | inflowReceived =>
    have hnumber : number 0 = 0 := by decide
    show inflowMatches d.condition (number 0) (number 0) = _
    rw [hnumber, Int.cast_zero, inflowMatches_zero hschema.2]
    simp
  | customEvent =>
    obtain ⟨name, hname, hnonempty⟩ := (Option.any_eq_true _ _).1 hschema.2
    have hnonempty : name ≠ "" := of_decide_eq_true hnonempty
    simp [customEvent, ht, hkind, hname, hne, hnonempty]
  | timeElapsed => simp
  | tierChanged => simp

/-- **What an inflow triggers** is for inflows. -/
theorem trigger_of_ruleMatches_inflowEvent {r : Rule} {amountKobo cumulative : Int}
    (h : ruleMatches r (inflowEvent amountKobo cumulative) = true) :
    r.trigger = .inflowReceived := by
  unfold ruleMatches at h
  split at h
  next => simp at h
  next =>
    split at h
    next htrigger => exact htrigger
    next => simp [inflowEvent] at h
    next => simp at h
    next => simp at h

/-! ### The events that are evaluated -/

/-- The events for which the worker calls `evaluate`. -/
inductive EvaluatedEvent
  | inflow (amountKobo cumulativeAmountKobo : Int)
  | custom (payload : InflowPayload) (isCustom : isCustomEvent payload = true)

namespace EvaluatedEvent

/-- What a condition is checked against. -/
def event : EvaluatedEvent → RuleEvent
  | inflow amountKobo cumulativeAmountKobo => inflowEvent amountKobo cumulativeAmountKobo
  | custom payload _ => customEvent payload

/-- The rule is for events of this kind and, for a custom event, of this name. -/
def IsFor (r : Rule) : EvaluatedEvent → Prop
  | inflow _ _ => r.trigger = .inflowReceived
  | custom payload _ => r.awaits payload.eventType = true

/-- A custom event meets no rule for inflows that sets no lower bound: on a SEQUENTIAL account a
rule that awaits the event comes first, on a PARALLEL account there is no such rule. -/
def MeetsNoInflowRule (model : ExecutionModel) (rules : List (Rule × RuleAccount)) :
    EvaluatedEvent → Prop
  | inflow _ _ => True
  | custom payload _ => ∀ before q later, rules = before ++ q :: later → q.1.noLowerBound = true →
      model = .sequential ∧ ∃ c ∈ before, c.1.awaits payload.eventType = true

end EvaluatedEvent

theorem not_awaits_of_noLowerBound {r : Rule} (h : r.noLowerBound = true) (name : Option String) :
    r.awaits name = false := by
  simp only [Rule.noLowerBound, Bool.and_eq_true, decide_eq_true_eq] at h
  simp [Rule.awaits, h.1]

section Evaluate

variable {isUrl : String → Bool} {w : World} {accountId : String} {rank : String → Nat}

/-- An evaluation that returns selects among the rules that the query returned. -/
theorem evaluate_returned {model : ExecutionModel} {event : RuleEvent} {env : Call → Env}
    {fired : List EvaluatedRule} {w' : World}
    (returned : (evaluate accountId model event).runWith env w = (.ok fired, w')) :
    fired = selectMatching model event
      (w.db.findRules (env (.findRules accountId)).rank accountId) := by
  simp only [evaluate, Proc.bind_eq, Proc.runWith_bind, find, Proc.runWith_call] at returned
  rcases findStep_cases (fun env db => db.findRules env.rank accountId)
      (env (.findRules accountId)) w with ⟨-, hstep⟩ | ⟨e, w₁, hstep, -⟩
  · rw [hstep] at returned
    cases returned
    rfl
  · rw [hstep] at returned
    cases returned

/-- **The rules that `evaluate` returns** are for the event exactly if the event meets no rule for
inflows that sets no lower bound. -/
theorem evaluate_fires_own_kind_iff (unique : w.db.UniqueColumns)
    (accepted : ∀ r ∈ w.db.activeRules accountId, r.FromAccepted isUrl) {model : ExecutionModel}
    (event : EvaluatedEvent) {env : Call → Env} {fired : List EvaluatedRule} {w' : World}
    (returned : (evaluate accountId model event.event).runWith env w = (.ok fired, w')) :
    (∀ e ∈ fired, ∀ r ∈ w.db.rules, r.id = e.id → event.IsFor r) ↔
      event.MeetsNoInflowRule model
        (w.db.findRules (env (.findRules accountId)).rank accountId) := by
  obtain rfl := evaluate_returned returned
  generalize hrules : w.db.findRules (env (.findRules accountId)).rank accountId = rules
  have hmem : ∀ q ∈ rules, q.1 ∈ w.db.rules ∧ q.1.FromAccepted isUrl := by
    intro q hq
    rw [← hrules] at hq
    obtain ⟨hrule, hactive, -⟩ := Db.mem_findRules hq
    exact ⟨hrule, accepted q.1 (Db.mem_activeRules.2 ⟨hrule, hactive⟩)⟩
  -- the row of an evaluated rule
  have hrows : (∀ e ∈ selectMatching model event.event rules, ∀ r ∈ w.db.rules, r.id = e.id →
      event.IsFor r) ↔ ∀ q ∈ firing model event.event rules, event.IsFor q.1 := by
    rw [selectMatching_eq_map, List.forall_mem_map]
    refine forall₂_congr fun q hq => ?_
    have hq := (hmem q (mem_of_mem_firing hq).1).1
    constructor
    · exact fun h => h q.1 hq rfl
    · intro h r hr hid
      rwa [List.inj_on_of_nodup_map unique.rules hr hq hid]
  rw [hrows]
  cases event with
  | inflow amountKobo cumulative =>
    exact iff_of_true (fun q hq => trigger_of_ruleMatches_inflowEvent (mem_of_mem_firing hq).2)
      trivial
  | custom payload hcustom =>
    refine forall_mem_firing_iff (A := Rule.noLowerBound) (B := (Rule.awaits · payload.eventType))
      (fun q hq => ruleMatches_customEvent (hmem q hq).2 hcustom) ?_
    exact fun r hopen => not_awaits_of_noLowerBound hopen _

end Evaluate

namespace Sample

/-- Suspends the account for a small inflow, and releases funds for a shipped order. -/
def smallInflow : Rule where
  id := "rule1"
  accountId := "acc1"
  trigger := .inflowReceived
  condition := some { amountLte := some 5000 }
  action := .suspendAccount
  payload := none
  kycTierAtCreation := .tier1

def orderShipped : Rule where
  id := "rule2"
  accountId := "acc1"
  trigger := .customEvent
  condition := some { eventName := some "order.shipped" }
  action := .reactivateAccount
  payload := none
  priority := 1
  kycTierAtCreation := .tier1

def shipped : InflowPayload where
  eventId := "evt1"
  transactionRef := "evt1"
  accountNumber := "0001112223"
  amountKobo := 0
  eventType := some "order.shipped"

/-- The definitions of the two rules. -/
def shippingRules : List RuleDefinition := [
  { trigger := "inflow_received", condition := { amountLte := some 5000 }
    action := "suspend_account" },
  { trigger := "custom_event", condition := { eventName := some "order.shipped" }
    action := "reactivate_account", priority := some 1 }]

theorem smallInflow_fromAccepted : smallInflow.FromAccepted fun _ => true :=
  ⟨"shop", shippingRules, _, "acc1", .tier1, _, by decide +kernel, List.mem_cons_self,
    ⟨_, _, {}, rfl, rfl, rfl⟩, rfl, rfl⟩

theorem orderShipped_fromAccepted : orderShipped.FromAccepted fun _ => true :=
  ⟨"shop", shippingRules, _, "acc1", .tier1, _, by decide +kernel,
    List.mem_cons_of_mem _ List.mem_cons_self, ⟨_, _, {}, rfl, rfl, rfl⟩, rfl, rfl⟩

/-- Nothing fails. -/
def calm (_ : Call) : Env := {}

end Sample

/-- An order is shipped, with the rule for it alone. -/
theorem shipped_fires_own_kind :
    ((evaluate "acc1" .sequential (customEvent Sample.shipped)).runWith Sample.calm
        (Sample.shop [] [Sample.orderShipped])).1.toOption =
          some [Sample.orderShipped.evaluated Sample.account.forRule] ∧
      ∀ e ∈ [Sample.orderShipped.evaluated Sample.account.forRule],
        ∀ r ∈ (Sample.shop [] [Sample.orderShipped]).db.rules, r.id = e.id →
          (EvaluatedEvent.custom Sample.shipped rfl).IsFor r := by
  refine ⟨by decide +kernel, (@evaluate_fires_own_kind_iff (fun _ => true)
    (Sample.shop [] [Sample.orderShipped]) "acc1" (by constructor <;> decide) ?_ .sequential
    (.custom Sample.shipped rfl) Sample.calm _ _ rfl).2 ?_⟩
  · intro r hr
    obtain rfl : r = Sample.orderShipped := by
      simpa [Sample.shop] using (Db.mem_activeRules.1 hr).1
    exact Sample.orderShipped_fromAccepted
  · intro before q later hsplit hopen
    have hq : q.1 ∈ (Sample.shop [] [Sample.orderShipped]).db.rules :=
      (Db.mem_findRules (hsplit ▸ List.mem_append_right _ List.mem_cons_self)).1
    rw [List.mem_singleton.1 hq] at hopen
    cases hopen

/-- **A rule for small inflows takes a custom event.** On a SEQUENTIAL account it comes first, so
that the shipped order suspends the account and the rule that awaits the order is never tried. -/
theorem shipped_fires_inflow_rule :
    Sample.smallInflow.FromAccepted (fun _ => true) ∧
      Sample.orderShipped.FromAccepted (fun _ => true) ∧
      ((evaluate "acc1" .sequential (customEvent Sample.shipped)).runWith Sample.calm
        (Sample.shop [] [Sample.smallInflow, Sample.orderShipped])).1.toOption =
          some [Sample.smallInflow.evaluated Sample.account.forRule] ∧
      Sample.smallInflow.trigger = .inflowReceived :=
  ⟨Sample.smallInflow_fromAccepted, Sample.orderShipped_fromAccepted, by decide +kernel, rfl⟩

end AccountOS
