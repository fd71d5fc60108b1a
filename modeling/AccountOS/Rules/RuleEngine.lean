import AccountOS.Ledger.Ledger
import AccountOS.Treasury.Allocation
import AccountOS.Treasury.Bucket
import Mathlib.Data.List.Sort

/-!
# `RuleEngineService`

`evaluate` selects the rules of an account that an event triggers, `execute` carries out the action
of one of them and records the outcome in a `RuleExecution` row. The action that moves value is
RELEASE_FUNDS: it credits part of an inflow to a treasury bucket.
-/

namespace AccountOS

open Conc Sql

/-! ### `evaluate` -/

/-- What a condition is checked against. -/
structure RuleEvent where
  amountKobo : Int
  cumulativeAmountKobo : Int
  eventType : String
  eventName : Option String := none
deriving DecidableEq, Repr

/-- The condition of an INFLOW_RECEIVED rule, on amounts that were converted to numbers. -/
def inflowMatches (condition : RuleCondition) (amt cum : ℚ) : Bool :=
  condition.amountGte.all (· ≤ amt) && condition.amountLte.all (amt ≤ ·) &&
    condition.amountLt.all (amt < ·) && condition.amountEq.all (amt = ·) &&
    condition.cumulativeGte.all (· ≤ cum)

/-- `RuleEngineService.matches`. Rules of the scheduler never match here. -/
def ruleMatches (rule : Rule) (event : RuleEvent) : Bool :=
  match rule.condition with
  | none => false
  | some condition =>
    match rule.trigger with
    | .inflowReceived =>
      inflowMatches condition (number event.amountKobo) (number event.cumulativeAmountKobo)
    | .customEvent =>
      if event.eventType = "NOMBA_INFLOW" then
        false
      else
        match condition.eventName, event.eventName with
        | some condEventName, some eventName =>
          condEventName ≠ "" && eventName ≠ "" && condEventName = eventName
        | _, _ => false
    | .timeElapsed | .tierChanged => false

/-- What the engine knows of the account of a rule. -/
structure RuleAccount where
  id : String
  accountRef : String
  accountNumber : String
  nombaAccountId : String
  businessId : String
deriving DecidableEq, Repr

def Account.forRule (a : Account) : RuleAccount :=
  ⟨a.id, a.accountRef, a.accountNumber, a.nombaAccountId, a.businessId⟩

/-- A matching rule with its account, as `execute` gets it. -/
structure EvaluatedRule where
  id : String
  action : RuleAction
  payload : Option RulePayload
  priority : Int
  account : RuleAccount
deriving DecidableEq, Repr

def Rule.evaluated (rule : Rule) (account : RuleAccount) : EvaluatedRule :=
  ⟨rule.id, rule.action, rule.payload, rule.priority, account⟩

/-- The loop of `evaluate` over the rules that the query returned. -/
def selectMatching (executionModel : ExecutionModel) (event : RuleEvent) :
    List (Rule × RuleAccount) → List EvaluatedRule
  | [] => []
  | (rule, account) :: rules =>
    if ruleMatches rule event then
      rule.evaluated account :: match executionModel with
        | .sequential => []
        | .parallel => selectMatching executionModel event rules
    else
      selectMatching executionModel event rules

theorem selectMatching_subset {model : ExecutionModel} {event : RuleEvent}
    {rules : List (Rule × RuleAccount)} {rule : EvaluatedRule}
    (h : rule ∈ selectMatching model event rules) : ∃ q ∈ rules, rule = q.1.evaluated q.2 := by
  induction rules with
  | nil => cases h
  | cons q rules ih =>
    unfold selectMatching at h
    split at h
    next =>
      rcases List.mem_cons.1 h with rfl | h
      · exact ⟨q, List.mem_cons_self, rfl⟩
      · cases model with
        | sequential => cases h
        | parallel =>
          obtain ⟨q', hq', heq⟩ := ih h
          exact ⟨q', List.mem_cons_of_mem _ hq', heq⟩
    next =>
      obtain ⟨q', hq', heq⟩ := ih h
      exact ⟨q', List.mem_cons_of_mem _ hq', heq⟩

/-- The order of `ORDER BY "priority" ASC`; rows of one priority come in any order. -/
def priorityLE (rank : String → Nat) (r s : Rule) : Prop :=
  r.priority < s.priority ∨ r.priority = s.priority ∧ rank r.id ≤ rank s.id

instance (rank : String → Nat) : DecidableRel (priorityLE rank) :=
  fun _ _ => inferInstanceAs (Decidable (_ ∨ _))

namespace Db

/-- The ACTIVE rules of an account. -/
def activeRules (db : Db) (accountId : String) : List Rule :=
  db.rules.filter fun r => r.accountId = accountId ∧ r.status = .active

/-- `business.findUnique`. -/
def findBusiness (db : Db) (id : String) : Option Business :=
  db.businesses.find? fun b => b.id = id

/-- `customer.findUnique`. -/
def findCustomer (db : Db) (id : String) : Option Customer :=
  db.customers.find? fun c => c.id = id

/-- `account.findUnique`. -/
def findAccountById (db : Db) (id : String) : Option Account :=
  db.accounts.find? fun a => a.id = id

/-- `rule.findMany { accountId, status: ACTIVE }` by priority, each with its account. -/
def findRules (db : Db) (rank : String → Nat) (accountId : String) : List (Rule × RuleAccount) :=
  ((db.activeRules accountId).insertionSort (priorityLE rank)).filterMap fun rule =>
    (db.findAccountById rule.accountId).map fun account => (rule, account.forRule)

theorem mem_activeRules {db : Db} {accountId : String} {r : Rule} :
    r ∈ db.activeRules accountId ↔ r ∈ db.rules ∧ r.accountId = accountId ∧ r.status = .active := by
  simp [activeRules]

theorem findAccountById_eq_some {db : Db} {id : String} {a : Account}
    (h : db.findAccountById id = some a) : a ∈ db.accounts ∧ a.id = id :=
  ⟨List.mem_of_find?_eq_some h, by simpa using List.find?_some h⟩

/-- What `findRules` returns: rules of the account, with the account. -/
theorem mem_findRules {db : Db} {rank : String → Nat} {accountId : String} {q : Rule × RuleAccount}
    (h : q ∈ db.findRules rank accountId) :
    q.1 ∈ db.rules ∧ (q.1.accountId = accountId ∧ q.1.status = .active) ∧
      ∃ a ∈ db.accounts, a.id = accountId ∧ q.2 = a.forRule := by
  obtain ⟨rule, hrule, hjoin⟩ := List.mem_filterMap.1 h
  obtain ⟨a, ha, rfl⟩ := Option.map_eq_some_iff.1 hjoin
  obtain ⟨hmem, hactive⟩ := List.mem_filter.1 ((List.mem_insertionSort _).1 hrule)
  have hactive : rule.accountId = accountId ∧ rule.status = .active := by simpa using hactive
  obtain ⟨ha, hid⟩ := findAccountById_eq_some ha
  exact ⟨hmem, hactive, a, ha, hid.trans hactive.1, rfl⟩

end Db

/-- `RuleEngineService.evaluate`. -/
def evaluate (accountId : String) (executionModel : ExecutionModel) (event : RuleEvent) :
    Action (List EvaluatedRule) := do
  let rules ← find (.findRules accountId) fun env db => db.findRules env.rank accountId
  return selectMatching executionModel event rules

/-! ### The outcome of an execution -/

inductive ExecutionOutcome
  | completed | failed | retrying
deriving DecidableEq, Repr

structure ExecutionResult where
  ruleExecutionId : String
  status : ExecutionOutcome
  errorMessage : Option String := none
  attempt : Option Nat := none
deriving DecidableEq, Repr

/-- What an execution is triggered by: a ledger entry, or for a custom event something that looks
like one. -/
structure TriggerEntry where
  id : String
  amountKobo : Int
  nombaTransactionRef : String
  nombaEventId : String
deriving DecidableEq, Repr

def LedgerEntry.trigger (e : LedgerEntry) : TriggerEntry :=
  ⟨e.id, e.amountKobo, e.nombaTransactionRef, e.nombaEventId⟩

/-- `realLedgerEntryId`: the foreign key of an execution, `null` for a custom event. -/
def TriggerEntry.realLedgerEntryId (e : TriggerEntry) : Option String :=
  if "custom_".toList <+: e.id.toList then none else some e.id

/-- Delay of the first retry. -/
def retryDelay : Nat := 60000

/-- `ruleExecution.update`, with data that may depend on the time. -/
def updateRuleExecution (executionId : String) (data : Nat → RuleExecutionData) : Action Unit :=
  statement (.updateRuleExecution executionId) fun env =>
    .updateRuleExecution executionId (data env.now)

/-- `RuleEngineService.markExecutionFailed`, and the result that goes with it. -/
def markExecutionFailed (executionId errorMessage : String) : Action ExecutionResult := do
  updateRuleExecution executionId fun _ =>
    { status := .failed, errorMessage := some (some errorMessage) }
  return { ruleExecutionId := executionId, status := .failed, errorMessage := some errorMessage }

/-- Mark an execution COMPLETED. -/
def markCompleted (executionId : String)
    (nombaApiResponse : Option (List (String × Json)) := none) : Action ExecutionResult := do
  updateRuleExecution executionId fun now =>
    { status := .completed, completedAt := some now, nombaApiResponse }
  return { ruleExecutionId := executionId, status := .completed }

/-- Mark an execution RETRYING; the caller enqueues the retry job. -/
def markRetrying (executionId errorMessage : String) : Action ExecutionResult := do
  updateRuleExecution executionId fun now =>
    { status := .retrying, attempt := some 1, errorMessage := some (some errorMessage)
      nextRetryAt := some (some (now + retryDelay)) }
  return {
    ruleExecutionId := executionId, status := .retrying, errorMessage := some errorMessage
    attempt := some 1 }

/-! ### The actions -/

/-- `RuleEngineService.handleStatusChange`: outside the allowed source statuses it is a no-op. -/
def handleStatusChange (executionId : String) (account : RuleAccount) (target : AccountStatus)
    (allowedFrom : List AccountStatus) (auditAction : AuditAction) : Action ExecutionResult := do
  let current ← find (.findAccountStatus account.id) fun _ db =>
    (db.findAccountById account.id).map Account.status
  match current with
  | some status =>
    if status ∈ allowedFrom then do
      statement (.updateAccountStatus account.id target) fun _ =>
        .updateAccountStatus account.id target
      audit {
        actor := "system"
        action := auditAction
        accountId := some account.id
        businessId := some account.businessId
        beforeState := [("status", .str (toString status))]
        afterState := [("status", .str (toString target))]
        reasonCode := some "RULE_ACTION" }
      markCompleted executionId
    else
      markCompleted executionId
  | none => markCompleted executionId

/-- Flag the triggering inflow, when there is one. -/
def flagLedgerEntry : Option String → Action Unit
  | some id =>
    statement (.updateReconciliation .flagged) fun _ => .updateReconciliationById id .flagged
  | none => return ()

/-- `RuleEngineService.handleFlagForReview`. -/
def handleFlagForReview (executionId : String) (account : RuleAccount)
    (ledgerEntryId : Option String) : Action ExecutionResult := do
  flagLedgerEntry ledgerEntryId
  audit {
    actor := "system"
    action := .ruleActionCompleted
    accountId := some account.id
    businessId := some account.businessId
    reasonCode := some "FLAG_FOR_REVIEW"
    metadata := [
      ("ruleExecutionId", .str executionId),
      ("ledgerEntryId", .ofOption ledgerEntryId)] }
  markCompleted executionId

/-- `RuleEngineService.handleNotifyWebhook`. -/
def handleNotifyWebhook (executionId : String) (payload : Option RulePayload)
    (account : RuleAccount) :
    Action ExecutionResult := do
  let url := ((payload.getD {}).url).getD ""
  if url = "" then
    markExecutionFailed executionId "NOTIFY_WEBHOOK missing url"
  else do
    let result ← deliver url
    match result with
    | .ok status => do
      let completed ← markCompleted executionId
        (some [("delivered", .bool true), ("status", .num status)])
      audit {
        actor := "system"
        action := .ruleActionCompleted
        accountId := some account.id
        businessId := some account.businessId
        reasonCode := some "NOTIFY_WEBHOOK"
        metadata := [
          ("ruleExecutionId", .str executionId),
          ("url", .str url),
          ("status", .num status)] }
      return completed
    | .error e => markRetrying executionId e

/-- The amount a RELEASE_FUNDS rule computes for an inflow, with its two errors: no amount is
configured, or the configured amount is not an integer. -/
def releaseAmount (payload : RulePayload) (inflow : Int) : Option (Except RangeError Int) :=
  match payload.percentage, payload.amountKobo with
  | some percentage, _ => some (.ok (bigIntDiv (mathRound (percentage * 100) * inflow) 10000))
  | none, some amountKobo => some (bigInt amountKobo)
  | none, none => none

/-- The idempotency key of an allocation, `alloc_${nombaTransactionRef}_${bucketId.slice(0, 8)}`. -/
def allocationReference (nombaTransactionRef bucketId : String) : String :=
  "alloc_" ++ nombaTransactionRef ++ "_" ++ slice8 bucketId

/-- The allocation made by a RELEASE_FUNDS rule. -/
def releaseCredit (bucketId : String) (account : RuleAccount) (ledgerEntry : TriggerEntry)
    (creditAmountKobo : Int) : CreditParams where
  bucketId := bucketId
  businessId := account.businessId
  amountKobo := creditAmountKobo
  reference := allocationReference ledgerEntry.nombaTransactionRef bucketId
  sourceLedgerEntryId := some ledgerEntry.id
  narration := some s!"RELEASE_FUNDS allocation from {account.accountRef}"
  sourceAccountRef := some account.accountRef

/-- The try block of `handleReleaseFunds`. -/
def allocate (executionId destinationAccountRef bucketId : String) (account : RuleAccount)
    (ledgerEntry : TriggerEntry) (creditAmountKobo : Int) : Action ExecutionResult := do
  let cumulative ← credit (releaseCredit bucketId account ledgerEntry creditAmountKobo)
  let completed ← markCompleted executionId (some [
    ("allocated", .bool true),
    ("bucketRef", .str destinationAccountRef),
    ("amountKobo", .str (toString creditAmountKobo)),
    ("bucketBalanceKobo", .str (toString cumulative))])
  audit {
    actor := "system"
    action := .ruleActionCompleted
    accountId := some account.id
    businessId := some account.businessId
    metadata := [
      ("ruleExecutionId", .str executionId),
      ("reference", .str (allocationReference ledgerEntry.nombaTransactionRef bucketId)),
      ("amountKobo", .str (toString creditAmountKobo)),
      ("destinationAccountRef", .str destinationAccountRef)] }
  return completed

/-- `RuleEngineService.handleReleaseFunds`. -/
def handleReleaseFunds (executionId : String) (payload : Option RulePayload) (account : RuleAccount)
    (ledgerEntry : TriggerEntry) : Action ExecutionResult := do
  let payload := payload.getD {}
  let destinationAccountRef := payload.destinationAccountRef.getD ""
  if destinationAccountRef = "" then
    markExecutionFailed executionId "Missing destinationAccountRef"
  else do
    let destinationBucket ← find (.findBucket account.businessId destinationAccountRef) fun _ db =>
      db.findBucket account.businessId destinationAccountRef
    match destinationBucket with
    | none =>
      markExecutionFailed executionId
        s!"Destination treasury bucket '{destinationAccountRef}' not found"
    | some bucket =>
      if bucket.status ≠ .active then
        markExecutionFailed executionId
          s!"Destination treasury bucket '{destinationAccountRef}' is {bucket.status}"
      else
        match releaseAmount payload ledgerEntry.amountKobo with
        | none =>
          markExecutionFailed executionId "RELEASE_FUNDS requires percentage or amountKobo"
        | some (.error e) => throw (.ofRangeError e)
        | some (.ok creditAmountKobo) =>
          if creditAmountKobo ≤ 0 then
            -- nothing to allocate, such as a percentage of a custom event
            markCompleted executionId
          else
            tryCatch
              (allocate executionId destinationAccountRef bucket.id account ledgerEntry
                creditAmountKobo)
              fun err => markRetrying executionId err.message

/-! ### `execute` -/

/-- The row that `execute` creates before it acts. -/
def pendingExecution (id : String) (rule : EvaluatedRule) (ledgerEntry : TriggerEntry) :
    RuleExecution where
  id := id
  ruleId := rule.id
  accountId := rule.account.id
  triggeredBy := ledgerEntry.nombaEventId
  triggeredByLedgerEntryId := ledgerEntry.realLedgerEntryId
  status := .pending

/-- `ruleExecution.create`. -/
def createRuleExecution (rule : EvaluatedRule) (ledgerEntry : TriggerEntry) : Action String :=
  transaction (.createRuleExecution rule.id ledgerEntry.nombaEventId) fun env => do
    Tx.exec (.createRuleExecution (pendingExecution env.row.id rule ledgerEntry))
    return env.row.id

/-- Its transaction adds the row and returns the row's id. -/
theorem createRuleExecution_run_eq_ok {rule : EvaluatedRule} {ledgerEntry : TriggerEntry}
    {env : Env} {db db' : Db} {id : String}
    (hrun : (do
      Tx.exec (.createRuleExecution (pendingExecution env.row.id rule ledgerEntry))
      return env.row.id : TxBody String).run schema db = .ok (id, db')) :
    (WriteOp.createRuleExecution (pendingExecution env.row.id rule ledgerEntry)).apply db = .ok db' ∧
      id = env.row.id := by
  simp only [Tx.bind_eq, Tx.run_bind_eq_ok, Tx.run_exec_eq_ok, schema_apply, Tx.pure_eq,
    Tx.run_ret, Except.ok.injEq, Prod.mk.injEq] at hrun
  obtain ⟨-, db₁, hop, rfl, rfl⟩ := hrun
  exact ⟨hop, rfl⟩

/-- The action of a rule, for an execution that has been recorded. -/
def act (executionId : String) (rule : EvaluatedRule) (ledgerEntry : TriggerEntry) :
    Action ExecutionResult :=
  match rule.action with
  | .releaseFunds => handleReleaseFunds executionId rule.payload rule.account ledgerEntry
  | .suspendAccount =>
    handleStatusChange executionId rule.account .suspended [.active] .accountSuspended
  | .expireAccount =>
    handleStatusChange executionId rule.account .expired [.active, .suspended] .accountExpired
  | .reactivateAccount =>
    handleStatusChange executionId rule.account .active [.suspended] .accountReactivated
  | .flagForReview => handleFlagForReview executionId rule.account ledgerEntry.realLedgerEntryId
  | .notifyWebhook => handleNotifyWebhook executionId rule.payload rule.account

/-- `RuleEngineService.execute`. -/
def execute (rule : EvaluatedRule) (ledgerEntry : TriggerEntry) : Action ExecutionResult := do
  let executionId ← createRuleExecution rule ledgerEntry
  act executionId rule ledgerEntry

/-! ### An account to try things on -/

namespace Sample

def account : Account where
  id := "acc1"
  accountRef := "shop"
  nombaAccountId := "nba1"
  accountNumber := "0001112223"
  executionModel := .parallel
  businessId := "biz"

/-- A rule that releases funds from every inflow. -/
def release (id : String) (payload : RulePayload) : Rule where
  id := id
  accountId := "acc1"
  trigger := .inflowReceived
  condition := some { amountGte := some 1 }
  action := .releaseFunds
  payload := some payload
  kycTierAtCreation := .tier1

/-- The account with its rules, and the buckets of its business. -/
def shop (buckets : List TreasuryBucket) (rules : List Rule) : World where
  db := {
    businesses := [{ id := "biz" }]
    accounts := [account]
    rules
    treasuryBuckets := buckets }

/-- Half of every inflow goes to `ops`. -/
def opsShop : World :=
  shop [{ id := "bkt1aaaaaaaa", bucketRef := "ops", businessId := "biz" }]
    [release "rule1" { destinationAccountRef := some "ops", percentage := some 50 }]

/-- ₦5.00 for the account. -/
def inflow : InflowPayload where
  eventId := "evt1"
  transactionRef := "trx1"
  accountNumber := "0001112223"
  amountKobo := 500

def unit : List Env → List (Unit × Env) := List.map fun env => ((), env)

end Sample

end AccountOS
