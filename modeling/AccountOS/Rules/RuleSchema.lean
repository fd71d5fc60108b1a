import AccountOS.Store.Schema

/-!
# `rule-schema.ts`

What a valid rule looks like. Every path that writes rules calls `validateRuleSet` first, so that
the engine never meets a rule that the schema refuses. A rule is what triggers it (trigger and
condition) together with what it does (action and payload).

The texts of the issues are the validation library's; only whether there are any is modelled.
Whether a text is a URL is the library's decision too, and a parameter here.
-/

namespace AccountOS

/-- A rule as a request gives it. -/
structure RuleDefinition where
  trigger : String
  condition : RuleCondition
  action : String
  payload : Option RulePayload := none
  priority : Option ℚ := none
deriving DecidableEq, Repr

/-- `TRIGGER_MAP`; the triggers that the schema knows. -/
def toRuleTrigger (value : String) : Option RuleTrigger :=
  if value = "inflow_received" then some .inflowReceived
  else if value = "time_elapsed" then some .timeElapsed
  else if value = "tier_changed" then some .tierChanged
  else if value = "custom_event" then some .customEvent
  else none

/-- `ACTION_MAP`; the actions that the schema knows. -/
def toRuleAction (value : String) : Option RuleAction :=
  if value = "suspend_account" then some .suspendAccount
  else if value = "reactivate_account" then some .reactivateAccount
  else if value = "expire_account" then some .expireAccount
  else if value = "flag_for_review" then some .flagForReview
  else if value = "notify_webhook" then some .notifyWebhook
  else if value = "release_funds" then some .releaseFunds
  else none

/-- `z.number().int()`: an integer among those that a double holds exactly. -/
def isInt (x : ℚ) : Bool := x.den = 1 && x ≤ 9007199254740991 && -9007199254740991 ≤ x

/-- `z.number().int().positive().optional()`. -/
def positiveInt (x : Option ℚ) : Bool := x.all fun q => isInt q && 0 < q

/-- `z.string().min(1)`. -/
def nonEmpty (s : String) : Bool := s ≠ ""

def prioritySchema (priority : Option ℚ) : Bool :=
  priority.all fun q => isInt q && 0 ≤ q && q ≤ 1000

/-! ### Trigger and condition -/

def inflowConditionSchema (c : RuleCondition) : Bool :=
  positiveInt c.amountGte && positiveInt c.amountLte && positiveInt c.amountLt &&
    positiveInt c.amountEq && positiveInt c.cumulativeGte &&
    (c.amountGte.isSome || c.amountLte.isSome || c.amountLt.isSome || c.amountEq.isSome ||
      c.cumulativeGte.isSome)

def timeElapsedConditionSchema (c : RuleCondition) : Bool :=
  positiveInt c.noInflowForDays && positiveInt c.noEventForDays && c.eventName.all nonEmpty &&
    (c.noInflowForDays.isSome || c.noEventForDays.isSome) &&
    (c.noEventForDays.isNone || c.eventName.isSome)

def tierChangedConditionSchema (c : RuleCondition) : Bool :=
  c.fromTier.isSome || c.toTier.isSome

def customEventConditionSchema (c : RuleCondition) : Bool := c.eventName.any nonEmpty

def triggerConditionSchema (r : RuleDefinition) : Bool :=
  prioritySchema r.priority &&
    match toRuleTrigger r.trigger with
    | some .inflowReceived => inflowConditionSchema r.condition
    | some .timeElapsed => timeElapsedConditionSchema r.condition
    | some .tierChanged => tierChangedConditionSchema r.condition
    | some .customEvent => customEventConditionSchema r.condition
    | none => false

/-! ### Action and payload -/

def notifyWebhookPayloadSchema (isUrl : String → Bool) (p : RulePayload) : Bool := p.url.any isUrl

def releaseFundsPayloadSchema (p : RulePayload) : Bool :=
  p.destinationAccountRef.any nonEmpty &&
    p.percentage.all (fun q => isInt q && 1 ≤ q && q ≤ 100) && positiveInt p.amountKobo &&
    !(p.percentage.isSome && p.amountKobo.isSome)

def actionPayloadSchema (isUrl : String → Bool) (r : RuleDefinition) : Bool :=
  match toRuleAction r.action with
  | some .notifyWebhook => r.payload.any (notifyWebhookPayloadSchema isUrl)
  | some .releaseFunds => r.payload.any releaseFundsPayloadSchema
  | some .suspendAccount | some .reactivateAccount | some .expireAccount | some .flagForReview =>
    true
  | none => false

/-! ### Rule sets -/

def ruleSchema (isUrl : String → Bool) (r : RuleDefinition) : Bool :=
  triggerConditionSchema r && actionPayloadSchema isUrl r

/-- `validateRuleSet(…).success`. -/
def validateRuleSet (isUrl : String → Bool) (accountRef : String) (rules : List RuleDefinition) :
    Bool :=
  nonEmpty accountRef && !rules.isEmpty && rules.all (ruleSchema isUrl)

/-! ### What an accepted rule looks like -/

theorem exists_int_of_isInt {x : ℚ} (h : isInt x = true) : ∃ n : Int, x = n := by
  have hden : x.den = 1 := by
    simp only [isInt, Bool.and_eq_true, decide_eq_true_eq] at h
    exact h.1.1
  exact ⟨x.num, ((Rat.den_eq_one_iff x).1 hden).symm⟩

/-- A release is of an integral percentage from 1 to 100, or of a positive amount, or of neither. -/
theorem of_releaseFundsPayloadSchema {p : RulePayload} (h : releaseFundsPayloadSchema p = true) :
    (∀ q ∈ p.percentage, ∃ n : Int, q = n ∧ 1 ≤ n ∧ n ≤ 100) ∧
      (∀ q ∈ p.amountKobo, ∃ n : Int, q = n ∧ 0 < n) ∧
      (p.percentage = none ∨ p.amountKobo = none) := by
  simp only [releaseFundsPayloadSchema, Bool.and_eq_true] at h
  obtain ⟨⟨⟨-, hpercentage⟩, hamount⟩, hexclusive⟩ := h
  refine ⟨fun q hq => ?_, fun q hq => ?_, ?_⟩
  · rw [Option.mem_def.1 hq] at hpercentage
    simp only [Option.all_some, Bool.and_eq_true, decide_eq_true_eq] at hpercentage
    obtain ⟨⟨hint, hone⟩, hhundred⟩ := hpercentage
    obtain ⟨n, rfl⟩ := exists_int_of_isInt hint
    exact ⟨n, rfl, by exact_mod_cast hone, by exact_mod_cast hhundred⟩
  · rw [Option.mem_def.1 hq] at hamount
    simp only [positiveInt, Option.all_some, Bool.and_eq_true, decide_eq_true_eq] at hamount
    obtain ⟨n, rfl⟩ := exists_int_of_isInt hamount.1
    exact ⟨n, rfl, by exact_mod_cast hamount.2⟩
  · cases hp : p.percentage <;> cases ha : p.amountKobo <;> simp_all

/-- The rules of an accepted rule set are accepted. -/
theorem ruleSchema_of_mem {isUrl : String → Bool} {accountRef : String}
    {rules : List RuleDefinition} (h : validateRuleSet isUrl accountRef rules = true)
    {r : RuleDefinition} (hr : r ∈ rules) : ruleSchema isUrl r = true := by
  simp only [validateRuleSet, Bool.and_eq_true] at h
  exact List.all_eq_true.1 h.2 r hr

/-- An accepted release has a payload that is accepted. -/
theorem exists_payload_of_releaseFunds {isUrl : String → Bool} {r : RuleDefinition}
    (h : ruleSchema isUrl r = true) (haction : r.action = "release_funds") :
    ∃ p, r.payload = some p ∧ releaseFundsPayloadSchema p = true := by
  simp only [ruleSchema, Bool.and_eq_true] at h
  have hpayload := h.2
  rw [actionPayloadSchema, haction] at hpayload
  exact (Option.any_eq_true _ _).1 hpayload

end AccountOS
