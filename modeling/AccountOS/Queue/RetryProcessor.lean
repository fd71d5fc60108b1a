import AccountOS.Rules.RuleEngine

/-!
# `RetryProcessorService`

The worker of the retry queue. A job names a `RuleExecution` that failed on its first attempt; the
worker carries out its action again, with the rule as it is now. A transient failure is thrown, so
that the queue delivers the job again; after the last attempt the failure goes to the dead letters.
-/

namespace AccountOS

open Conc Sql

/-! ### Reading the execution -/

/-- An execution with its rule, the rule's account and the ledger entry that triggered it. -/
structure FoundExecution where
  execution : RuleExecution
  rule : Rule
  account : Account
  triggeredByLedgerEntry : Option LedgerEntry

namespace Db

/-- `rule.findUnique`. -/
def findRule (db : Db) (id : String) : Option Rule :=
  db.rules.find? fun r => r.id = id

/-- `ledgerEntry.findUnique { id }`. -/
def findLedgerEntryById (db : Db) (id : String) : Option LedgerEntry :=
  db.ledgerEntries.find? fun e => e.id = id

/-- `ruleExecution.findUnique` with what it includes. -/
def findRuleExecution (db : Db) (id : String) : Option FoundExecution := do
  let execution ← db.ruleExecutions.find? fun x => x.id = id
  let rule ← db.findRule execution.ruleId
  let account ← db.findAccountById rule.accountId
  return ⟨execution, rule, account, execution.triggeredByLedgerEntryId.bind db.findLedgerEntryById⟩

/-- What `ruleExecution.findUnique` has found. -/
theorem findRuleExecution_eq_some {db : Db} {id : String} {found : FoundExecution}
    (h : db.findRuleExecution id = some found) :
    (found.execution ∈ db.ruleExecutions ∧ found.execution.id = id) ∧
      (found.rule ∈ db.rules ∧ found.rule.id = found.execution.ruleId) ∧
      (found.account ∈ db.accounts ∧ found.account.id = found.rule.accountId) ∧
      found.triggeredByLedgerEntry =
        found.execution.triggeredByLedgerEntryId.bind db.findLedgerEntryById := by
  unfold findRuleExecution at h
  simp only [Option.bind_eq_bind, Option.bind_eq_some_iff] at h
  obtain ⟨execution, hx, rule, hr, account, ha, hfound⟩ := h
  obtain rfl : found = _ := (Option.some.inj hfound).symm
  exact ⟨⟨List.mem_of_find?_eq_some hx, by simpa using List.find?_some hx⟩,
    ⟨List.mem_of_find?_eq_some hr, by simpa using List.find?_some hr⟩,
    findAccountById_eq_some ha, rfl⟩

end Db

namespace RetryProcessor

/-- The outcome of one attempt. A terminal failure is not tried again. -/
structure AttemptOutcome where
  ok : Bool
  terminal : Bool := false
  error : Option String := none
  details : List (String × Json) := []

/-- A delivery of a retry job: its data and BullMQ's count of the attempts that failed. -/
structure RetryDelivery where
  ruleExecutionId : String
  maxAttempts : Nat
  attemptsMade : Nat
deriving DecidableEq, Repr

def terminalFailure (error : String) : AttemptOutcome :=
  { ok := false, terminal := true, error := some error }

/-! ### The two actions that are retried -/

/-- The allocation of a retry. -/
def retryCredit (bucketId : String) (account : Account) (ledgerEntry : LedgerEntry)
    (creditAmountKobo : Int) (attempt : Nat) : CreditParams where
  bucketId := bucketId
  businessId := account.businessId
  amountKobo := creditAmountKobo
  reference := allocationReference ledgerEntry.nombaTransactionRef bucketId
  sourceLedgerEntryId := some ledgerEntry.id
  narration := some s!"RELEASE_FUNDS retry {attempt}: {ledgerEntry.nombaTransactionRef}"

/-- The try block of `attemptRelease`. -/
def reallocate (p : CreditParams) (destinationAccountRef : String) : Action AttemptOutcome := do
  let cumulative ← credit p
  return {
    ok := true
    details := [
      ("reference", .str p.reference),
      ("amountKobo", .str (toString p.amountKobo)),
      ("bucketBalanceKobo", .str (toString cumulative)),
      ("destinationAccountRef", .str destinationAccountRef)] }

/-- `RetryProcessorService.attemptRelease`. -/
def attemptRelease (found : FoundExecution) (attempt : Nat) : Action AttemptOutcome := do
  let payload := found.rule.payload.getD {}
  let destinationAccountRef := payload.destinationAccountRef.getD ""
  let businessId := found.account.businessId
  if destinationAccountRef = "" then
    return terminalFailure "Missing destinationAccountRef"
  else do
    let destinationBucket ← find (.findBucket businessId destinationAccountRef) fun _ db =>
      db.findBucket businessId destinationAccountRef
    match destinationBucket, found.triggeredByLedgerEntry with
    | none, _ =>
      return terminalFailure s!"Destination treasury bucket '{destinationAccountRef}' not found"
    | some _, none => return terminalFailure "No ledger entry attached to execution"
    | some bucket, some ledgerEntry =>
      match releaseAmount payload ledgerEntry.amountKobo with
      | none => return terminalFailure "RELEASE_FUNDS requires percentage or amountKobo"
      | some (.error e) => throw (.ofRangeError e)
      | some (.ok creditAmountKobo) =>
        tryCatch
          (reallocate
            (retryCredit bucket.id found.account ledgerEntry creditAmountKobo attempt)
            destinationAccountRef)
          fun err => return { ok := false, error := some err.message }

/-- `RetryProcessorService.attemptNotify`. -/
def attemptNotify (found : FoundExecution) : Action AttemptOutcome := do
  let url := ((found.rule.payload.getD {}).url).getD ""
  if url = "" then
    return terminalFailure "NOTIFY_WEBHOOK missing url"
  else do
    let result ← deliver url
    match result with
    | .ok status => return { ok := true, details := [("url", .str url), ("status", .num status)] }
    | .error e => return { ok := false, error := some e }

/-! ### `process` -/

/-- What `process` does with the outcome of an attempt. -/
def settleOutcome (job : RetryDelivery) (found : FoundExecution) (outcome : AttemptOutcome) :
    Action Unit :=
  let currentAttempt := job.attemptsMade + 1
  let log (action : AuditAction) (metadata : List (String × Json)) : Action Unit := audit {
    actor := "system"
    action
    accountId := some found.rule.accountId
    businessId := some found.account.businessId
    metadata := ("ruleExecutionId", .str job.ruleExecutionId) :: metadata }
  if outcome.ok then do
    updateRuleExecution job.ruleExecutionId fun now =>
      { status := .completed, attempt := some currentAttempt, completedAt := some now
        nextRetryAt := some none, errorMessage := some none }
    log .ruleActionCompleted (("attempt", .num currentAttempt) :: outcome.details)
  else if outcome.terminal ∨ job.maxAttempts ≤ currentAttempt then do
    updateRuleExecution job.ruleExecutionId fun _ =>
      { status := .failed, attempt := some currentAttempt
        errorMessage := outcome.error.map some, nextRetryAt := some none }
    log .ruleActionFailed [
      ("ruleId", .str found.execution.ruleId),
      ("attempt", .num currentAttempt),
      ("errorMessage", .ofOption outcome.error),
      ("reason", .str (if outcome.terminal then "non_retryable" else "max_attempts"))]
  else do
    updateRuleExecution job.ruleExecutionId fun _ =>
      { status := .retrying, attempt := some currentAttempt
        errorMessage := outcome.error.map some }
    throw (.other (outcome.error.getD "Rule action retry failed"))

/-- `RetryProcessorService.process`. -/
def process (job : RetryDelivery) : Action Unit := do
  let execution ← find (.findRuleExecution job.ruleExecutionId) fun _ db =>
    db.findRuleExecution job.ruleExecutionId
  match execution with
  | none => return ()
  | some found =>
    if found.execution.status ∈ [RuleExecutionStatus.completed, .failed, .archived] then
      return ()
    else
      match found.rule.action with
      | .releaseFunds => do
        let outcome ← attemptRelease found (job.attemptsMade + 1)
        settleOutcome job found outcome
      | .notifyWebhook => do
        let outcome ← attemptNotify found
        settleOutcome job found outcome
      | _ =>
        updateRuleExecution job.ruleExecutionId fun now =>
          { status := .completed, completedAt := some now }

/-! ### `onFailed` -/

/-- What `AlertService.critical` is called with; it writes it to the log. -/
structure CriticalAlert where
  component : String
  message : String
  metadata : List (String × Json)

/-- `RetryProcessorService.onFailed`, with the alerts that it raises. BullMQ emits `failed` after
every attempt that has thrown; `attemptsMade` counts that attempt. -/
def onFailed (job : RetryDelivery) (jobId : String) (error : Error) :
    Action (List CriticalAlert) :=
  if job.attemptsMade < job.maxAttempts then
    return []
  else do
    audit {
      actor := "system"
      action := .ruleActionFailed
      metadata := [
        ("deadLetter", .bool true),
        ("ruleExecutionId", .str job.ruleExecutionId),
        ("attemptsMade", .num job.attemptsMade),
        ("maxAttempts", .num job.maxAttempts),
        ("queueName", .str "retry"),
        ("jobId", .str jobId),
        ("error", .str error.message)] }
    return [{
      component := "RetryProcessor.DLQ"
      message := s!"Rule execution {job.ruleExecutionId} exhausted all {job.maxAttempts} retry attempts"
      metadata := [
        ("ruleExecutionId", .str job.ruleExecutionId),
        ("attemptsMade", .num job.attemptsMade),
        ("error", .str error.message)] }]

end RetryProcessor

end AccountOS
