import AccountOS.Rules.RuleEngine
import AccountOS.Rules.RuleSchema

/-!
# `RulesService`

The rules of an account are replaced as a set; a single rule can be disabled, deleted, or enabled
again after it was flagged for review. Nothing is ever removed: a rule that is no longer in force is
ARCHIVED.
-/

namespace AccountOS

open Conc Sql

/-! ### Queries -/

namespace Db

/-- `account.findFirst { accountRef, businessId }`. -/
def findAccountByRef (db : Db) (accountRef businessId : String) : Option Account :=
  db.accounts.find? fun a => a.accountRef = accountRef ∧ a.businessId = businessId

/-- All rules of an account, by priority. -/
def rulesOf (db : Db) (rank : String → Nat) (accountId : String) : List Rule :=
  (db.rules.filter fun r => r.accountId = accountId).insertionSort (priorityLE rank)

/-- `rule.findFirst { id, account: { accountRef, businessId } }`. -/
def findRuleOf (db : Db) (accountRef ruleId businessId : String) : Option Rule :=
  db.rules.find? fun r => r.id = ruleId ∧ ∃ a ∈ db.accounts,
    a.id = r.accountId ∧ a.accountRef = accountRef ∧ a.businessId = businessId

end Db

/-! ### `replaceRuleSet` -/

structure ReplaceRuleSetDto where
  executionModel : Option ExecutionModel := none
  rules : List RuleDefinition
deriving DecidableEq, Repr

/-- The percentage that `enforcePercentageSum` counts for a rule. -/
def RuleDefinition.countedPercentage (r : RuleDefinition) : ℚ :=
  if r.action = "release_funds" then (r.payload.bind RulePayload.percentage).getD 0 else 0

/-- `RulesService.enforcePercentageSum`. -/
def enforcePercentageSum (rules : List RuleDefinition) : Action Unit :=
  let totalPercentage := (rules.map RuleDefinition.countedPercentage).sum
  if 100 < totalPercentage then
    throw (.http 400 s!"Sum of RELEASE_FUNDS percentages ({totalPercentage}%) exceeds 100%"
      "PERCENTAGE_SUM_EXCEEDS_100" [])
  else
    return ()

/-- The row of a new rule. -/
def RuleDefinition.row (r : RuleDefinition) (accountId : String) (trigger : RuleTrigger)
    (action : RuleAction) (kycTierAtCreation : KycTier) (row : Generated) : Rule where
  id := row.id
  accountId := accountId
  trigger := trigger
  condition := some r.condition
  action := action
  payload := r.payload
  priority := (r.priority.getD 0).num
  kycTierAtCreation := kycTierAtCreation

/-- The nested `create` of the new rules; the client refuses a trigger or an action that it does not
know. -/
def createRules (accountId : String) (kycTierAtCreation : KycTier) (rows : Nat → Generated) :
    Nat → List RuleDefinition → TxBody Unit
  | _, [] => return ()
  | n, r :: rules =>
    match toRuleTrigger r.trigger, toRuleAction r.action with
    | some trigger, some action => do
      Tx.exec (.createRule (r.row accountId trigger action kycTierAtCreation (rows n)))
      createRules accountId kycTierAtCreation rows (n + 1) rules
    | _, _ => .throw (.other "Invalid value for argument")

/-- `account.update` with its nested create: the account's rules afterwards. -/
def updateRulesTx (accountId : String) (executionModel : ExecutionModel)
    (kycTierAtCreation : KycTier) (rules : List RuleDefinition) (env : Env) :
    TxBody (List Rule) := do
  Tx.exec (.updateAccountModel accountId executionModel)
  createRules accountId kycTierAtCreation env.rows 0 rules
  Tx.query [.rules] fun db => db.rulesOf env.rank accountId

/-- What `replaceRuleSet` returns. -/
structure RuleSetResult where
  accountRef : String
  executionModel : ExecutionModel
  rules : List Rule
deriving DecidableEq, Repr

/-- Steps 4 to 7, for a rule set that has been checked. -/
def storeRuleSet (account : Account) (executionModel : ExecutionModel)
    (rules : List RuleDefinition) (businessId : String) : Action RuleSetResult := do
  let customer ← find (.findCustomer (account.customerId.getD "")) fun _ db =>
    db.findCustomer (account.customerId.getD "")
  let kycTierAtCreation := (customer.map Customer.kycTier).getD .tier0
  statement (.archiveRules account.id) fun env => .archiveRules account.id env.now
  let updated ← transaction (.createRules account.id)
    (updateRulesTx account.id executionModel kycTierAtCreation rules)
  audit {
    actor := "system"
    action := .rulesUpdated
    accountId := some account.id
    customerId := account.customerId
    businessId := some businessId
    afterState := [
      ("accountRef", .str account.accountRef),
      ("executionModel", .str (toString executionModel)),
      ("ruleCount", .num updated.length)] }
  return ⟨account.accountRef, executionModel, updated⟩

/-- `RulesService.replaceRuleSet`. -/
def replaceRuleSet (isUrl : String → Bool) (accountRef businessId : String)
    (dto : ReplaceRuleSetDto) : Action RuleSetResult := do
  let account ← find (.findAccountByRef businessId accountRef) fun _ db =>
    db.findAccountByRef accountRef businessId
  match account with
  | none => throw (.http 404 "Account not found" "ACCOUNT_NOT_FOUND" [])
  | some account =>
    if validateRuleSet isUrl accountRef dto.rules then
      match dto.executionModel.getD account.executionModel with
      | .parallel => do
        enforcePercentageSum dto.rules
        storeRuleSet account .parallel dto.rules businessId
      | .sequential => storeRuleSet account .sequential dto.rules businessId
    else
      throw (.http 400 "Invalid rule set" "INVALID_RULE_SET" [])

/-! ### One rule -/

/-- `RulesService.resolveRule`. -/
def resolveRule (accountRef ruleId businessId : String) : Action Rule := do
  let rule ← find (.findRule ruleId) fun _ db => db.findRuleOf accountRef ruleId businessId
  match rule with
  | none => throw (.http 404 "Rule not found" "RULE_NOT_FOUND" [])
  | some rule => return rule

/-- Archive a rule by hand. -/
def archiveRule (rule : Rule) (accountRef ruleId businessId : String) : Action Unit := do
  statement (.updateRule ruleId .archived) fun env => .updateRule ruleId
    { status := .archived, archivedReason := some .manuallyArchived, archivedAt := some env.now }
  audit {
    actor := "system"
    action := .ruleArchived
    accountId := some rule.accountId
    businessId := some businessId
    metadata := [
      ("ruleId", .str ruleId),
      ("accountRef", .str accountRef),
      ("archivedReason", .str "MANUALLY_ARCHIVED")] }

/-- What `toggleRule` and `deleteRule` return. -/
structure ToggledRule where
  ruleId : String
  status : RuleStatus
deriving DecidableEq, Repr

/-- `RulesService.toggleRule`: only a rule that is FLAGGED_FOR_REVIEW can be enabled. -/
def toggleRule (accountRef ruleId businessId : String) (enabled : Bool) : Action ToggledRule := do
  let rule ← resolveRule accountRef ruleId businessId
  match enabled with
  | true =>
    if rule.status ≠ .flaggedForReview then
      throw (.http 400
        s!"Rule is {rule.status} — only FLAGGED_FOR_REVIEW rules can be re-enabled"
        "RULE_CONFLICT" [])
    else do
      statement (.updateRule ruleId .active) fun _ => .updateRule ruleId { status := .active }
      return ⟨ruleId, .active⟩
  | false => do
    archiveRule rule accountRef ruleId businessId
    return ⟨ruleId, .archived⟩

/-- `RulesService.deleteRule`. -/
def deleteRule (accountRef ruleId businessId : String) : Action ToggledRule := do
  let rule ← resolveRule accountRef ruleId businessId
  archiveRule rule accountRef ruleId businessId
  return ⟨ruleId, .archived⟩

end AccountOS
