import AccountOS.Identity.IdentityService
import AccountOS.Rules.RulesService

/-!
# `AccountLifecycleService`

An account is provisioned together with its first rule set, its status can be overridden by hand
between ACTIVE and SUSPENDED, and it is closed for good. The virtual account behind it lives at
Nomba.
-/

namespace AccountOS

open Conc Sql

/-! ### Queries -/

namespace Db

/-- `account.findUnique { accountRef }`. -/
def findAccountRef (db : Db) (accountRef : String) : Option Account :=
  db.accounts.find? fun a => a.accountRef = accountRef

/-- The executions of an account that are PENDING or RETRYING. -/
def unfinished (db : Db) (accountId : String) : List RuleExecution :=
  db.ruleExecutions.filter fun x =>
    x.accountId = accountId ∧ (x.status = .pending ∨ x.status = .retrying)

end Db

/-! ### `provisionAccount` -/

namespace AccountLifecycle

/-- `TRIGGER_MAP`. -/
def triggerMap : List (String × RuleTrigger) := [
  ("inflow_received", .inflowReceived),
  ("time_elapsed", .timeElapsed),
  ("tier_changed", .tierChanged),
  ("custom_event", .customEvent)]

/-- `ACTION_MAP`. -/
def actionMap : List (String × RuleAction) := [
  ("suspend_account", .suspendAccount),
  ("reactivate_account", .reactivateAccount),
  ("expire_account", .expireAccount),
  ("flag_for_review", .flagForReview),
  ("notify_webhook", .notifyWebhook),
  ("release_funds", .releaseFunds)]

def toRuleTrigger (trigger : String) : Option RuleTrigger := triggerMap.lookup trigger

def toRuleAction (action : String) : Option RuleAction := actionMap.lookup action

/-- The nested `create` of a new account's rules. -/
def createRules (accountId : String) (kycTierAtCreation : KycTier) (rows : Nat → Generated) :
    Nat → List RuleDefinition → TxBody Unit
  | _, [] => return ()
  | n, r :: rules =>
    match toRuleTrigger r.trigger, toRuleAction r.action with
    | some trigger, some action => do
      Tx.exec (.createRule {
        id := (rows n).id
        accountId
        trigger
        condition := some r.condition
        action
        payload := r.payload
        priority := (r.priority.getD 0).num
        kycTierAtCreation })
      createRules accountId kycTierAtCreation rows (n + 1) rules
    | _, _ => .throw (.other "Invalid value for argument")

end AccountLifecycle

structure ProvisionAccountDto where
  customerId : String
  accountRef : String
  executionModel : Option ExecutionModel := none
  rules : List RuleDefinition
deriving DecidableEq, Repr

/-- The new account. -/
def ProvisionAccountDto.account (dto : ProvisionAccountDto) (row : Generated)
    (nombaResult : ProvisionDvaResult) (customer : Customer) (businessId : String) : Account where
  id := row.id
  createdAt := row.createdAt
  accountRef := dto.accountRef
  nombaAccountId := nombaResult.accountRef
  accountNumber := nombaResult.accountNumber
  executionModel := dto.executionModel.getD .sequential
  customerId := some customer.id
  businessId := businessId

/-- What `provisionAccount` returns: the account with its rules. -/
structure ProvisionedAccount where
  account : Account
  rules : List Rule
deriving DecidableEq, Repr

/-- `account.create` with its nested create. -/
def createAccountTx (dto : ProvisionAccountDto) (nombaResult : ProvisionDvaResult)
    (customer : Customer) (businessId : String) (env : Env) : TxBody ProvisionedAccount := do
  let account := dto.account env.row nombaResult customer businessId
  Tx.exec (.createAccount account)
  AccountLifecycle.createRules account.id customer.kycTier env.rows 0 dto.rules
  let rules ← Tx.query [.rules] fun db => db.rulesOf env.rank account.id
  return ⟨account, rules⟩

/-- Step 5. When the account cannot be created, the virtual account that Nomba has provisioned for
it is expired, if that is possible. -/
def createProvisioned (dto : ProvisionAccountDto) (nombaResult : ProvisionDvaResult)
    (customer : Customer) (businessId : String) : Action ProvisionedAccount :=
  tryCatch
    (transaction (.createAccount dto.accountRef)
      (createAccountTx dto nombaResult customer businessId))
    fun err => do
      tryCatch (expireDva nombaResult.accountRef) fun _ => return ()
      throw err

/-- Steps 3 to 6, for a rule set that has been checked and a new reference. -/
def provisionFor (dto : ProvisionAccountDto) (businessId : String) : Action ProvisionedAccount := do
  let customer ← find (.findCustomer dto.customerId) fun _ db =>
    db.findCustomerOf dto.customerId businessId
  match customer with
  | none => throw (.http 404 "Customer not found" "CUSTOMER_NOT_FOUND" [])
  | some customer => do
    let business ← find (.findBusiness businessId) fun _ db => db.findBusiness businessId
    match business with
    | none => throw (.http 404 "Business not found" "BUSINESS_NOT_FOUND" [])
    | some _ => do
      let nombaResult ← provisionDva dto.accountRef
      let provisioned ← createProvisioned dto nombaResult customer businessId
      audit {
        actor := "system"
        action := .accountCreated
        accountId := some provisioned.account.id
        customerId := some customer.id
        businessId := some businessId
        afterState := [
          ("accountRef", .str provisioned.account.accountRef),
          ("executionModel", .str (toString provisioned.account.executionModel)),
          ("ruleCount", .num provisioned.rules.length)] }
      return provisioned

/-- `AccountLifecycleService.provisionAccount`. -/
def provisionAccount (isUrl : String → Bool) (dto : ProvisionAccountDto) (businessId : String) :
    Action ProvisionedAccount :=
  if validateRuleSet isUrl dto.accountRef dto.rules then do
    let existing ← find (.findAccountRef dto.accountRef) fun _ db =>
      db.findAccountRef dto.accountRef
    match existing with
    | some _ =>
      throw (.http 409 s!"Account with ref '{dto.accountRef}' already exists"
        "DUPLICATE_ACCOUNT_REF" [])
    | none => provisionFor dto businessId
  else
    throw (.http 400 "Invalid rule set" "INVALID_RULE_SET" [])

/-! ### `updateStatus` -/

structure UpdateStatusDto where
  status : AccountStatus
  reason : String
deriving DecidableEq, Repr

/-- The states that an account does not leave. -/
def AccountStatus.terminal : AccountStatus → Bool
  | closed | expired => true
  | active | suspended => false

/-- `validTransitions`. -/
def validTransitions : AccountStatus → List AccountStatus
  | .active => [.suspended]
  | .suspended => [.active]
  | .expired | .closed => []

/-- `account.update`: the row afterwards. -/
def updateAccountTx (id : String) (op : WriteOp) : TxBody (Option Account) := do
  Tx.exec op
  Tx.query [.account id] fun db => db.findAccountById id

/-- `AccountLifecycleService.updateStatus`. -/
def updateStatus (accountRef : String) (dto : UpdateStatusDto) (businessId actor : String) :
    Action (Option Account) := do
  let account ← find (.findAccountByRef businessId accountRef) fun _ db =>
    db.findAccountByRef accountRef businessId
  match account with
  | none => throw (.http 404 "Account not found" "ACCOUNT_NOT_FOUND" [])
  | some account =>
    if dto.status.terminal then
      throw (.http 400
        (s!"Cannot set status to '{dto.status}' via status override — " ++
          "use the account close endpoint instead")
        "ACCOUNT_TERMINAL_STATE" [])
    else if account.status.terminal then
      throw (.http 400
        (s!"Account is in terminal state '{account.status}' — " ++
          "no further status changes allowed")
        "ACCOUNT_TERMINAL_STATE" [])
    else if dto.status ∉ validTransitions account.status then
      throw (.http 400
        s!"Invalid status transition from '{account.status}' to '{dto.status}'"
        "ACCOUNT_TERMINAL_STATE" [])
    else do
      let updated ← transaction (.updateAccountStatus account.id dto.status) fun _ =>
        updateAccountTx account.id (.updateAccountStatus account.id dto.status)
      audit {
        actor
        action := .accountStatusOverride
        accountId := some account.id
        customerId := account.customerId
        businessId := some businessId
        beforeState := [("status", .str (toString account.status))]
        afterState := [
          ("status", .ofOption (updated.map fun a => toString a.status)),
          ("reason", .str dto.reason)]
        reasonCode := some dto.reason }
      return updated

/-! ### `closeAccount` -/

/-- Archive the executions of an account that are not finished, and count them. -/
def archiveExecutionsTx (accountId : String) : TxBody Nat := do
  let count ← Tx.query [.ruleExecutions] fun db => (db.unfinished accountId).length
  Tx.exec (.archiveExecutions accountId)
  return count

theorem archiveExecutionsTx_run_eq_ok {accountId : String} {db db' : Db} {count : Nat}
    (hrun : (archiveExecutionsTx accountId).run schema db = .ok (count, db')) :
    (WriteOp.archiveExecutions accountId).apply db = .ok db' := by
  simp only [archiveExecutionsTx, Tx.bind_eq, Tx.run_bind_eq_ok, Tx.run_exec_eq_ok, Tx.run_query,
    schema_apply, Tx.pure_eq, Tx.run_ret, Except.ok.injEq, Prod.mk.injEq] at hrun
  obtain ⟨_, _, ⟨rfl, rfl⟩, _, db₁, hop, rfl, rfl⟩ := hrun
  exact hop

/-- Archive the executions, expire the virtual account, and close the account. -/
def close (account : Account) (businessId actor : String) : Action (Option Account) := do
  let archivedCount ← transaction (.archiveExecutions account.id) fun _ =>
    archiveExecutionsTx account.id
  expireDva account.nombaAccountId
  let updated ← transaction (.updateAccountStatus account.id .closed) fun env =>
    updateAccountTx account.id (.closeAccount account.id env.now "Account closed via API")
  audit {
    actor
    action := .accountClosed
    accountId := some account.id
    customerId := account.customerId
    businessId := some businessId
    beforeState := [("status", .str (toString account.status))]
    afterState := [
      ("status", .str "CLOSED"),
      ("closedAt", .ofOption ((updated.bind Account.closedAt).map toString)),
      ("archivedExecutionCount", .num archivedCount)]
    reasonCode := some "ACCOUNT_CLOSED" }
  return updated

/-- `AccountLifecycleService.closeAccount` (EC-02). -/
def closeAccount (accountRef businessId actor : String) : Action (Option Account) := do
  let account ← find (.findAccountByRef businessId accountRef) fun _ db =>
    db.findAccountByRef accountRef businessId
  match account with
  | none => throw (.http 404 "Account not found" "ACCOUNT_NOT_FOUND" [])
  | some account =>
    match account.status with
    | .closed => throw (.http 400 "Account is already closed" "ACCOUNT_ALREADY_CLOSED" [])
    | .expired =>
      throw (.http 400 s!"Account is in terminal state '{account.status}' — cannot be closed"
        "ACCOUNT_TERMINAL_STATE" [])
    | .active | .suspended => close account businessId actor

end AccountOS
