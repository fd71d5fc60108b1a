import AccountOS.Rules.RuleEngine

/-!
# `WebhookProcessorService`

The worker of the webhook queue: it takes the job of an inflow or of a custom event and processes
it once, whatever number of times the job is delivered. An inflow is written to the ledger, the
rules it triggers are executed and its `ProcessedEvent` row is written last; a custom event has no
ledger entry and claims its `ProcessedEvent` row first.
-/

namespace AccountOS

open Conc Sql

/-! ### Reading the account -/

namespace Db

/-- `processedEvent.findUnique { eventId }`. -/
def findProcessedEvent (db : Db) (eventId : String) : Option ProcessedEvent :=
  db.processedEvents.find? fun e => e.eventId = eventId

/-- `account.findUnique { accountNumber }`. -/
def findAccount (db : Db) (accountNumber : String) : Option Account :=
  db.accounts.find? fun a => a.accountNumber = accountNumber

end Db

/-- An account with its customer. -/
structure FoundAccount where
  account : Account
  customer : Option Customer
deriving DecidableEq, Repr

namespace WebhookProcessor

def lookUpAccount (accountNumber : String) : Action (Option FoundAccount) :=
  find (.findAccount accountNumber) fun _ db =>
    (db.findAccount accountNumber).map fun a => ⟨a, a.customerId.bind db.findCustomer⟩

/-! ### The rows it writes -/

/-- `isCustomEvent`. -/
def isCustomEvent (payload : InflowPayload) : Bool :=
  payload.eventType.any fun t => t ≠ "" && t ≠ "NOMBA_INFLOW"

/-- The argument of `writeInflow`. -/
def inflowDto (payload : InflowPayload) (found : FoundAccount) : WriteInflowDto where
  accountId := found.account.id
  nombaTransactionRef := payload.transactionRef
  nombaEventId := payload.eventId
  amountKobo := payload.amountKobo
  senderName := payload.senderName
  senderAccountNumber := payload.senderAccountNumber
  senderBankCode := payload.senderBankCode
  narration := payload.narration
  customerNameSnapshot := some ((found.customer.map Customer.displayName).getD "Unknown")
  kycTierAtTime := some ((found.customer.map Customer.kycTier).getD .tier0)

/-- `processedEvent.create`. -/
def createProcessedEvent (payload : InflowPayload) (eventType : String) (account : Account) :
    Action Unit :=
  statement (.createProcessedEvent payload.eventId) fun env => .createProcessedEvent {
    id := env.row.id
    eventId := payload.eventId
    eventType
    accountRef := some account.accountRef
    businessId := some account.businessId
    payload }

/-! ### Audit entries -/

def duplicateDiscarded (payload : InflowPayload) (reason : List (String × Json) := []) :
    AuditLogEntry where
  actor := "system"
  action := .duplicateEventDiscarded
  metadata := ("eventId", .str payload.eventId) :: reason

def unknownAccount (payload : InflowPayload) : AuditLogEntry where
  actor := "system"
  action := .unknownAccountWebhook
  metadata := [("accountNumber", .str payload.accountNumber), ("eventId", .str payload.eventId)]

def inflowReceived (payload : InflowPayload) (account : Account)
    (metadata : List (String × Json)) : AuditLogEntry where
  actor := "system"
  action := .inflowReceived
  accountId := some account.id
  businessId := some account.businessId
  metadata := ("eventId", .str payload.eventId) :: metadata

def customEventProcessed (payload : InflowPayload) (account : Account) (matchedRules : Nat) :
    AuditLogEntry where
  actor := "system"
  action := .customEventProcessed
  accountId := some account.id
  businessId := some account.businessId
  metadata := [
    ("eventId", .str payload.eventId),
    ("eventType", .ofOption payload.eventType),
    ("matchedRules", .num matchedRules)]

/-! ### Executing the matching rules -/

/-- The job that retries an execution. -/
def retryJob (result : ExecutionResult) : RetryJob where
  ruleExecutionId := result.ruleExecutionId
  attempt := result.attempt.getD 1
  maxAttempts := 5
  errorMessage := result.errorMessage
  delay := retryDelay
  attempts := 5
  backoffDelay := retryDelay

/-- Enqueue a retry job for an execution that asks for one. -/
def enqueueIfRetrying (result : ExecutionResult) : Action Unit :=
  if result.status = .retrying ∧ result.ruleExecutionId ≠ "" then
    enqueueRetry (retryJob result)
  else
    .ret ()

/-- The loop over the matching rules; `after` is what is done with each result. -/
def executeAll (after : ExecutionResult → Action Unit) (ledgerEntry : TriggerEntry) :
    List EvaluatedRule → Action Unit
  | [] => return ()
  | rule :: rules => do
    let result ← execute rule ledgerEntry
    after result
    executeAll after ledgerEntry rules

/-- The loop for an inflow. -/
def executeForInflow : TriggerEntry → List EvaluatedRule → Action Unit :=
  executeAll enqueueIfRetrying

/-- The loop for a custom event, which drops the results. -/
def executeForCustomEvent : TriggerEntry → List EvaluatedRule → Action Unit :=
  executeAll fun _ => .ret ()

/-! ### A custom event -/

/-- What stands in for the ledger entry of a custom event. -/
def pseudoLedgerEntry (payload : InflowPayload) : TriggerEntry where
  id := "custom_" ++ payload.eventId
  amountKobo := 0
  nombaTransactionRef := payload.transactionRef
  nombaEventId := payload.eventId

def customEvent (payload : InflowPayload) : RuleEvent where
  amountKobo := 0
  cumulativeAmountKobo := 0
  eventType := payload.eventType.getD "CUSTOM_EVENT"
  eventName := payload.eventType

/-- Claim the event; `false` when it has been claimed before. -/
def claim (payload : InflowPayload) (account : Account) : Action Bool :=
  tryCatch
    (do
      createProcessedEvent payload (payload.eventType.getD "CUSTOM_EVENT") account
      return true)
    fun err =>
      if err.hasCode "P2002" then do
        audit (duplicateDiscarded payload)
        return false
      else
        throw err

/-- Execute the rules that a custom event has triggered. -/
def executeForEvent (payload : InflowPayload) (account : Account)
    (matchingRules : List EvaluatedRule) : Action Unit :=
  if matchingRules = [] then
    return ()
  else do
    let business ← find (.findBusiness account.businessId) fun _ db =>
      db.findBusiness account.businessId
    match business with
    | none => return ()
    | some _ => executeForCustomEvent (pseudoLedgerEntry payload) matchingRules

def processCustomEvent (payload : InflowPayload) (account : Account) : Action Unit := do
  let claimed ← claim payload account
  if claimed then do
    let matchingRules ← evaluate account.id account.executionModel (customEvent payload)
    executeForEvent payload account matchingRules
    audit (customEventProcessed payload account matchingRules.length)
  else
    return ()

/-! ### An inflow -/

def inflowEvent (amountKobo cumulativeAmountKobo : Int) : RuleEvent where
  amountKobo := amountKobo
  cumulativeAmountKobo := cumulativeAmountKobo
  eventType := "NOMBA_INFLOW"

/-- An inflow to a SUSPENDED account is recorded, but triggers nothing. -/
def processSuspended (payload : InflowPayload) (found : FoundAccount) : Action Unit := do
  let _ ← writeInflow (inflowDto payload found) .flagged
  audit (inflowReceived payload found.account [
    ("amountKobo", .num payload.amountKobo),
    ("reconciliationStatus", .str "FLAGGED"),
    ("reason", .str "Account is SUSPENDED — rule evaluation skipped")])

/-- An inflow to a CLOSED or EXPIRED account is discarded. -/
def processTerminal (payload : InflowPayload) (account : Account) : Action Unit :=
  audit (inflowReceived payload account [
    ("amountKobo", .num payload.amountKobo),
    ("status", .str (toString account.status)),
    ("reason", .str s!"Account is {account.status} — inflow discarded")])

/-- Execute the rules that an inflow has triggered. -/
def executeMatching (payload : InflowPayload) (account : Account)
    (matchingRules : List EvaluatedRule) : Action Unit := do
  let business ← find (.findBusiness account.businessId) fun _ db =>
    db.findBusiness account.businessId
  match business with
  | none => return ()
  | some _ => do
    let ledgerEntryRecord ← find (.findLedgerEntry payload.transactionRef) fun _ db =>
      db.findLedgerEntry payload.transactionRef
    match ledgerEntryRecord with
    | none => return ()
    | some record => executeForInflow record.trigger matchingRules

/-- Set the entry's reconciliation status and log what was done. -/
def reconcile (payload : InflowPayload) (account : Account) (status : ReconciliationStatus)
    (matchedRules : List (String × Json)) : Action Unit := do
  updateReconciliationStatus payload.transactionRef status
  audit (inflowReceived payload account ([
    ("transactionRef", .str payload.transactionRef),
    ("amountKobo", .num payload.amountKobo),
    ("reconciliationStatus", .str (toString status))] ++ matchedRules))

def ruleActionName : RuleAction → String
  | .suspendAccount => "SUSPEND_ACCOUNT"
  | .reactivateAccount => "REACTIVATE_ACCOUNT"
  | .expireAccount => "EXPIRE_ACCOUNT"
  | .notifyWebhook => "NOTIFY_WEBHOOK"
  | .releaseFunds => "RELEASE_FUNDS"
  | .flagForReview => "FLAG_FOR_REVIEW"

/-- Steps 7 to 9: execute the matching rules, and set the entry's reconciliation status. -/
def settleInflow (payload : InflowPayload) (account : Account)
    (matchingRules : List EvaluatedRule) : Action Unit :=
  if matchingRules = [] then
    reconcile payload account .unmatched []
  else do
    executeMatching payload account matchingRules
    reconcile payload account .matched [
      ("matchedRules", .arr (matchingRules.map fun r =>
        .obj [("ruleId", .str r.id), ("action", .str (ruleActionName r.action))]))]

/-- Steps 6 to 10, for an inflow to an ACTIVE account. -/
def processInflow (payload : InflowPayload) (found : FoundAccount) : Action Unit := do
  let account := found.account
  let cumulativeAmount ← writeInflow (inflowDto payload found) .pending
  let amountKobo ← bigIntOrThrow payload.amountKobo
  let matchingRules ←
    evaluate account.id account.executionModel (inflowEvent amountKobo cumulativeAmount)
  settleInflow payload account matchingRules
  createProcessedEvent payload "NOMBA_INFLOW" account

/-! ### `process` -/

/-- Steps 2 to 10, for an event that has not been processed. -/
def processUnseen (payload : InflowPayload) : Action Unit := do
  let found ← lookUpAccount payload.accountNumber
  match found with
  | none => audit (unknownAccount payload)
  | some found =>
    if isCustomEvent payload then
      processCustomEvent payload found.account
    else
      match found.account.status with
      | .suspended => processSuspended payload found
      | .closed | .expired => processTerminal payload found.account
      | .active => processInflow payload found

/-- The try block of `process`. -/
def processEvent (payload : InflowPayload) : Action Unit := do
  let existing ← find (.findProcessedEvent payload.eventId) fun _ db =>
    db.findProcessedEvent payload.eventId
  match existing with
  | some _ => audit (duplicateDiscarded payload)
  | none => processUnseen payload

/-- `WebhookProcessorService.process`: a unique conflict anywhere means that the event is a
duplicate. -/
def process (payload : InflowPayload) : Action Unit :=
  tryCatch (processEvent payload) fun err =>
    if err.hasCode "P2002" then
      audit (duplicateDiscarded payload [("reason", .str "unique_conflict")])
    else
      throw err

end WebhookProcessor

end AccountOS
