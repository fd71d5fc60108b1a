import AccountOS.Sql.Table
import AccountOS.Sql.Transaction
import AccountOS.Store.Schema

/-!
# Writing to the database

Every statement of the services that changes the database, with the constraints PostgreSQL
checks for it: primary keys and `@unique` columns (P2002), foreign keys (P2003) and the
existence of a row that is updated by its key (P2025). A statement that violates one leaves the
database as it is. For each statement there is one lemma that says when it succeeds and what it
leaves.
-/

namespace AccountOS

/-! ### The columns set by an update -/

/-- `data` of a `settlement.update`: an absent column keeps its value. -/
structure SettlementData where
  status : SettlementStatus
  nombaTransferReference : Option String := none
  failureReason : Option String := none
  completedAt : Option Nat := none

def SettlementData.set (d : SettlementData) (s : Settlement) : Settlement :=
  { s with
    status := d.status
    nombaTransferReference := d.nombaTransferReference <|> s.nombaTransferReference
    failureReason := d.failureReason <|> s.failureReason
    completedAt := d.completedAt <|> s.completedAt }

/-- `data` of a `ruleExecution.update`: an absent column keeps its value, `some none` is `null`. -/
structure RuleExecutionData where
  status : RuleExecutionStatus
  attempt : Option Nat := none
  nextRetryAt : Option (Option Nat) := none
  nombaApiResponse : Option (List (String × Json)) := none
  errorMessage : Option (Option String) := none
  completedAt : Option Nat := none

def RuleExecutionData.set (d : RuleExecutionData) (x : RuleExecution) : RuleExecution :=
  { x with
    status := d.status
    attempt := d.attempt.getD x.attempt
    nextRetryAt := d.nextRetryAt.getD x.nextRetryAt
    nombaApiResponse := d.nombaApiResponse <|> x.nombaApiResponse
    errorMessage := d.errorMessage.getD x.errorMessage
    completedAt := d.completedAt <|> x.completedAt }

/-- `data` of a `rule.update`: an absent column keeps its value. -/
structure RuleData where
  status : RuleStatus
  archivedReason : Option RuleArchivedReason := none
  archivedAt : Option Nat := none

def RuleData.set (d : RuleData) (r : Rule) : Rule :=
  { r with
    status := d.status
    archivedReason := d.archivedReason <|> r.archivedReason
    archivedAt := d.archivedAt <|> r.archivedAt }

/-! ### The statements -/

inductive WriteOp
  | createBucketLedgerEntry (data : BucketLedgerEntry)
  | createSettlement (data : Settlement)
  | updateSettlement (id : String) (data : SettlementData)
  | createLedgerEntry (data : LedgerEntry)
  | updateReconciliationByRef (nombaTransactionRef : String) (status : ReconciliationStatus)
  | updateReconciliationById (id : String) (status : ReconciliationStatus)
  | createProcessedEvent (data : ProcessedEvent)
  | createRuleExecution (data : RuleExecution)
  | updateRuleExecution (id : String) (data : RuleExecutionData)
  | updateAccountStatus (id : String) (status : AccountStatus)
  | updateAccountModel (id : String) (model : ExecutionModel)
  | archiveRules (accountId : String) (archivedAt : Nat)
  | createRule (data : Rule)
  | updateRule (id : String) (data : RuleData)
  | flagRules (ids : List String)
  | updateCustomerTier (id : String) (kycTier : KycTier)
  | createAccount (data : Account)
  | closeAccount (id : String) (closedAt : Nat) (closedReason : String)
  | archiveExecutions (accountId : String)

namespace Db

variable (db : Db)

def createBucketLedgerEntry (e : BucketLedgerEntry) : Except Error Db :=
  if ∃ x ∈ db.bucketLedgerEntries, x.id = e.id then
    .error (.uniqueViolation "id")
  else if ∃ x ∈ db.bucketLedgerEntries, x.reference = e.reference then
    .error (.uniqueViolation "reference")
  else if ∀ b ∈ db.treasuryBuckets, b.id ≠ e.bucketId then
    .error (.foreignKeyViolation "BucketLedgerEntry_bucketId_fkey")
  else if ∃ l ∈ e.sourceLedgerEntryId, ∀ x ∈ db.ledgerEntries, x.id ≠ l then
    .error (.foreignKeyViolation "BucketLedgerEntry_sourceLedgerEntryId_fkey")
  else
    .ok { db with bucketLedgerEntries := db.bucketLedgerEntries ++ [e] }

def createSettlement (s : Settlement) : Except Error Db :=
  if ∃ x ∈ db.settlements, x.id = s.id then
    .error (.uniqueViolation "id")
  else if ∃ r ∈ s.nombaTransferReference, ∃ x ∈ db.settlements,
      x.nombaTransferReference = some r then
    .error (.uniqueViolation "nombaTransferReference")
  else if ∀ b ∈ db.treasuryBuckets, b.id ≠ s.bucketId then
    .error (.foreignKeyViolation "Settlement_bucketId_fkey")
  else
    .ok { db with settlements := db.settlements ++ [s] }

def updateSettlement (id : String) (data : SettlementData) : Except Error Db :=
  if ∀ x ∈ db.settlements, x.id ≠ id then
    .error .recordNotFound
  else if ∃ r ∈ data.nombaTransferReference, ∃ x ∈ db.settlements,
      x.id ≠ id ∧ x.nombaTransferReference = some r then
    .error (.uniqueViolation "nombaTransferReference")
  else
    .ok { db with settlements := Sql.updateRow Settlement.id id data.set db.settlements }

def createLedgerEntry (e : LedgerEntry) : Except Error Db :=
  if ∃ x ∈ db.ledgerEntries, x.id = e.id then
    .error (.uniqueViolation "id")
  else if ∃ x ∈ db.ledgerEntries, x.nombaTransactionRef = e.nombaTransactionRef then
    .error (.uniqueViolation "nombaTransactionRef")
  else if ∀ a ∈ db.accounts, a.id ≠ e.accountId then
    .error (.foreignKeyViolation "LedgerEntry_accountId_fkey")
  else
    .ok { db with ledgerEntries := db.ledgerEntries ++ [e] }

def updateReconciliationByRef (ref : String) (status : ReconciliationStatus) : Except Error Db :=
  if ∀ x ∈ db.ledgerEntries, x.nombaTransactionRef ≠ ref then
    .error .recordNotFound
  else
    .ok { db with
      ledgerEntries := Sql.updateRow LedgerEntry.nombaTransactionRef ref
        (fun x => { x with reconciliationStatus := status }) db.ledgerEntries }

def updateReconciliationById (id : String) (status : ReconciliationStatus) : Except Error Db :=
  if ∀ x ∈ db.ledgerEntries, x.id ≠ id then
    .error .recordNotFound
  else
    .ok { db with
      ledgerEntries := Sql.updateRow LedgerEntry.id id
        (fun x => { x with reconciliationStatus := status }) db.ledgerEntries }

def createProcessedEvent (e : ProcessedEvent) : Except Error Db :=
  if ∃ x ∈ db.processedEvents, x.id = e.id then
    .error (.uniqueViolation "id")
  else if ∃ x ∈ db.processedEvents, x.eventId = e.eventId then
    .error (.uniqueViolation "eventId")
  else
    .ok { db with processedEvents := db.processedEvents ++ [e] }

def createRuleExecution (x : RuleExecution) : Except Error Db :=
  if ∃ y ∈ db.ruleExecutions, y.id = x.id then
    .error (.uniqueViolation "id")
  else if ∀ r ∈ db.rules, r.id ≠ x.ruleId then
    .error (.foreignKeyViolation "RuleExecution_ruleId_fkey")
  else if ∀ a ∈ db.accounts, a.id ≠ x.accountId then
    .error (.foreignKeyViolation "RuleExecution_accountId_fkey")
  else if ∃ l ∈ x.triggeredByLedgerEntryId, ∀ y ∈ db.ledgerEntries, y.id ≠ l then
    .error (.foreignKeyViolation "RuleExecution_triggeredByLedgerEntryId_fkey")
  else
    .ok { db with ruleExecutions := db.ruleExecutions ++ [x] }

def updateRuleExecution (id : String) (data : RuleExecutionData) : Except Error Db :=
  if ∀ x ∈ db.ruleExecutions, x.id ≠ id then
    .error .recordNotFound
  else
    .ok { db with
      ruleExecutions := Sql.updateRow RuleExecution.id id data.set db.ruleExecutions }

def updateAccountStatus (id : String) (status : AccountStatus) : Except Error Db :=
  if ∀ a ∈ db.accounts, a.id ≠ id then
    .error .recordNotFound
  else
    .ok { db with
      accounts := Sql.updateRow Account.id id (fun a => { a with status }) db.accounts }

def updateAccountModel (id : String) (model : ExecutionModel) : Except Error Db :=
  if ∀ a ∈ db.accounts, a.id ≠ id then
    .error .recordNotFound
  else
    .ok { db with
      accounts := Sql.updateRow Account.id id (fun a => { a with executionModel := model })
        db.accounts }

/-- `rule.updateMany`: archive every ACTIVE rule of an account. -/
def archiveRules (accountId : String) (archivedAt : Nat) : Except Error Db :=
  .ok { db with
    rules := db.rules.map fun r =>
      if r.accountId = accountId ∧ r.status = .active then
        { r with
          status := .archived
          archivedReason := some .supersededByUpdate
          archivedAt := some archivedAt }
      else r }

def createRule (r : Rule) : Except Error Db :=
  if ∃ x ∈ db.rules, x.id = r.id then
    .error (.uniqueViolation "id")
  else if ∀ a ∈ db.accounts, a.id ≠ r.accountId then
    .error (.foreignKeyViolation "Rule_accountId_fkey")
  else
    .ok { db with rules := db.rules ++ [r] }

def updateRule (id : String) (data : RuleData) : Except Error Db :=
  if ∀ r ∈ db.rules, r.id ≠ id then
    .error .recordNotFound
  else
    .ok { db with rules := Sql.updateRow Rule.id id data.set db.rules }

/-- `rule.updateMany { id: { in } }`: set rules FLAGGED_FOR_REVIEW. -/
def flagRules (ids : List String) : Except Error Db :=
  .ok { db with
    rules := db.rules.map fun r =>
      if r.id ∈ ids then { r with status := .flaggedForReview } else r }

def updateCustomerTier (id : String) (kycTier : KycTier) : Except Error Db :=
  if ∀ c ∈ db.customers, c.id ≠ id then
    .error .recordNotFound
  else
    .ok { db with
      customers := Sql.updateRow Customer.id id (fun c => { c with kycTier }) db.customers }

def createAccount (a : Account) : Except Error Db :=
  if ∃ x ∈ db.accounts, x.id = a.id then
    .error (.uniqueViolation "id")
  else if ∃ x ∈ db.accounts, x.accountRef = a.accountRef then
    .error (.uniqueViolation "accountRef")
  else if ∃ x ∈ db.accounts, x.nombaAccountId = a.nombaAccountId then
    .error (.uniqueViolation "nombaAccountId")
  else if ∃ x ∈ db.accounts, x.accountNumber = a.accountNumber then
    .error (.uniqueViolation "accountNumber")
  else if ∃ c ∈ a.customerId, ∀ x ∈ db.customers, x.id ≠ c then
    .error (.foreignKeyViolation "Account_customerId_fkey")
  else if ∀ b ∈ db.businesses, b.id ≠ a.businessId then
    .error (.foreignKeyViolation "Account_businessId_fkey")
  else
    .ok { db with accounts := db.accounts ++ [a] }

def closeAccount (id : String) (closedAt : Nat) (closedReason : String) : Except Error Db :=
  if ∀ a ∈ db.accounts, a.id ≠ id then
    .error .recordNotFound
  else
    .ok { db with
      accounts := Sql.updateRow Account.id id (fun a =>
        { a with status := .closed, closedAt := some closedAt, closedReason := some closedReason })
        db.accounts }

/-- `ruleExecution.updateMany`: archive the executions of an account that are not finished. -/
def archiveExecutions (accountId : String) : Except Error Db :=
  .ok { db with
    ruleExecutions := db.ruleExecutions.map fun x =>
      if x.accountId = accountId ∧ (x.status = .pending ∨ x.status = .retrying) then
        { x with status := .archived, archivedReason := some .closedBeforeCompletion }
      else x }

end Db

/-- The database after a statement, or the constraint it violates. -/
def WriteOp.apply : WriteOp → Db → Except Error Db
  | createBucketLedgerEntry e, db => db.createBucketLedgerEntry e
  | createSettlement s, db => db.createSettlement s
  | updateSettlement id data, db => db.updateSettlement id data
  | createLedgerEntry e, db => db.createLedgerEntry e
  | updateReconciliationByRef ref status, db => db.updateReconciliationByRef ref status
  | updateReconciliationById id status, db => db.updateReconciliationById id status
  | createProcessedEvent e, db => db.createProcessedEvent e
  | createRuleExecution x, db => db.createRuleExecution x
  | updateRuleExecution id data, db => db.updateRuleExecution id data
  | updateAccountStatus id status, db => db.updateAccountStatus id status
  | updateAccountModel id model, db => db.updateAccountModel id model
  | archiveRules accountId at_, db => db.archiveRules accountId at_
  | createRule r, db => db.createRule r
  | updateRule id data, db => db.updateRule id data
  | flagRules ids, db => db.flagRules ids
  | updateCustomerTier id kycTier, db => db.updateCustomerTier id kycTier
  | createAccount a, db => db.createAccount a
  | closeAccount id closedAt closedReason, db => db.closeAccount id closedAt closedReason
  | archiveExecutions accountId, db => db.archiveExecutions accountId

/-! ### When a statement succeeds -/

/-- A check that throws lets the rest succeed exactly when it does not fire. -/
theorem check_eq_ok {α : Type} {p : Prop} [Decidable p] {e : Error} {r : Except Error α} {a : α} :
    (if p then .error e else r) = .ok a ↔ ¬ p ∧ r = .ok a := by
  split <;> simp [*]

namespace Db

variable {db db' : Db}

theorem createBucketLedgerEntry_eq_ok {e : BucketLedgerEntry} :
    db.createBucketLedgerEntry e = .ok db' ↔
      (∀ x ∈ db.bucketLedgerEntries, x.id ≠ e.id) ∧
      (∀ x ∈ db.bucketLedgerEntries, x.reference ≠ e.reference) ∧
      (∃ b ∈ db.treasuryBuckets, b.id = e.bucketId) ∧
      (∀ l ∈ e.sourceLedgerEntryId, ∃ x ∈ db.ledgerEntries, x.id = l) ∧
      db' = { db with bucketLedgerEntries := db.bucketLedgerEntries ++ [e] } := by
  simp only [createBucketLedgerEntry, check_eq_ok, Except.ok.injEq]
  push Not
  simp only [eq_comm]

theorem createSettlement_eq_ok {s : Settlement} :
    db.createSettlement s = .ok db' ↔
      (∀ x ∈ db.settlements, x.id ≠ s.id) ∧
      (∀ r ∈ s.nombaTransferReference, ∀ x ∈ db.settlements,
        x.nombaTransferReference ≠ some r) ∧
      (∃ b ∈ db.treasuryBuckets, b.id = s.bucketId) ∧
      db' = { db with settlements := db.settlements ++ [s] } := by
  simp only [createSettlement, check_eq_ok, Except.ok.injEq]
  push Not
  simp only [eq_comm]

theorem updateSettlement_eq_ok {id : String} {data : SettlementData} :
    db.updateSettlement id data = .ok db' ↔
      (∃ x ∈ db.settlements, x.id = id) ∧
      (∀ r ∈ data.nombaTransferReference, ∀ x ∈ db.settlements,
        x.id ≠ id → x.nombaTransferReference ≠ some r) ∧
      db' = { db with
        settlements := Sql.updateRow Settlement.id id data.set db.settlements } := by
  simp only [updateSettlement, check_eq_ok, Except.ok.injEq]
  push Not
  simp only [eq_comm]

theorem createLedgerEntry_eq_ok {e : LedgerEntry} :
    db.createLedgerEntry e = .ok db' ↔
      (∀ x ∈ db.ledgerEntries, x.id ≠ e.id) ∧
      (∀ x ∈ db.ledgerEntries, x.nombaTransactionRef ≠ e.nombaTransactionRef) ∧
      (∃ a ∈ db.accounts, a.id = e.accountId) ∧
      db' = { db with ledgerEntries := db.ledgerEntries ++ [e] } := by
  simp only [createLedgerEntry, check_eq_ok, Except.ok.injEq]
  push Not
  simp only [eq_comm]

theorem updateReconciliationByRef_eq_ok {ref : String} {status : ReconciliationStatus} :
    db.updateReconciliationByRef ref status = .ok db' ↔
      (∃ x ∈ db.ledgerEntries, x.nombaTransactionRef = ref) ∧
      db' = { db with
        ledgerEntries := Sql.updateRow LedgerEntry.nombaTransactionRef ref
          (fun x => { x with reconciliationStatus := status }) db.ledgerEntries } := by
  simp only [updateReconciliationByRef, check_eq_ok, Except.ok.injEq]
  push Not
  simp only [eq_comm]

theorem updateReconciliationById_eq_ok {id : String} {status : ReconciliationStatus} :
    db.updateReconciliationById id status = .ok db' ↔
      (∃ x ∈ db.ledgerEntries, x.id = id) ∧
      db' = { db with
        ledgerEntries := Sql.updateRow LedgerEntry.id id
          (fun x => { x with reconciliationStatus := status }) db.ledgerEntries } := by
  simp only [updateReconciliationById, check_eq_ok, Except.ok.injEq]
  push Not
  simp only [eq_comm]

theorem createProcessedEvent_eq_ok {e : ProcessedEvent} :
    db.createProcessedEvent e = .ok db' ↔
      (∀ x ∈ db.processedEvents, x.id ≠ e.id) ∧
      (∀ x ∈ db.processedEvents, x.eventId ≠ e.eventId) ∧
      db' = { db with processedEvents := db.processedEvents ++ [e] } := by
  simp only [createProcessedEvent, check_eq_ok, Except.ok.injEq]
  push Not
  simp only [eq_comm]

theorem createRuleExecution_eq_ok {x : RuleExecution} :
    db.createRuleExecution x = .ok db' ↔
      (∀ y ∈ db.ruleExecutions, y.id ≠ x.id) ∧
      (∃ r ∈ db.rules, r.id = x.ruleId) ∧
      (∃ a ∈ db.accounts, a.id = x.accountId) ∧
      (∀ l ∈ x.triggeredByLedgerEntryId, ∃ y ∈ db.ledgerEntries, y.id = l) ∧
      db' = { db with ruleExecutions := db.ruleExecutions ++ [x] } := by
  simp only [createRuleExecution, check_eq_ok, Except.ok.injEq]
  push Not
  simp only [eq_comm]

theorem updateRuleExecution_eq_ok {id : String} {data : RuleExecutionData} :
    db.updateRuleExecution id data = .ok db' ↔
      (∃ x ∈ db.ruleExecutions, x.id = id) ∧
      db' = { db with
        ruleExecutions := Sql.updateRow RuleExecution.id id data.set db.ruleExecutions } := by
  simp only [updateRuleExecution, check_eq_ok, Except.ok.injEq]
  push Not
  simp only [eq_comm]

theorem updateAccountStatus_eq_ok {id : String} {status : AccountStatus} :
    db.updateAccountStatus id status = .ok db' ↔
      (∃ a ∈ db.accounts, a.id = id) ∧
      db' = { db with
        accounts := Sql.updateRow Account.id id (fun a => { a with status }) db.accounts } := by
  simp only [updateAccountStatus, check_eq_ok, Except.ok.injEq]
  push Not
  simp only [eq_comm]

theorem updateAccountModel_eq_ok {id : String} {model : ExecutionModel} :
    db.updateAccountModel id model = .ok db' ↔
      (∃ a ∈ db.accounts, a.id = id) ∧
      db' = { db with
        accounts := Sql.updateRow Account.id id (fun a => { a with executionModel := model })
          db.accounts } := by
  simp only [updateAccountModel, check_eq_ok, Except.ok.injEq]
  push Not
  simp only [eq_comm]

theorem createRule_eq_ok {r : Rule} :
    db.createRule r = .ok db' ↔
      (∀ x ∈ db.rules, x.id ≠ r.id) ∧
      (∃ a ∈ db.accounts, a.id = r.accountId) ∧
      db' = { db with rules := db.rules ++ [r] } := by
  simp only [createRule, check_eq_ok, Except.ok.injEq]
  push Not
  simp only [eq_comm]

theorem updateRule_eq_ok {id : String} {data : RuleData} :
    db.updateRule id data = .ok db' ↔
      (∃ r ∈ db.rules, r.id = id) ∧
      db' = { db with rules := Sql.updateRow Rule.id id data.set db.rules } := by
  simp only [updateRule, check_eq_ok, Except.ok.injEq]
  push Not
  simp only [eq_comm]

theorem updateCustomerTier_eq_ok {id : String} {kycTier : KycTier} :
    db.updateCustomerTier id kycTier = .ok db' ↔
      (∃ c ∈ db.customers, c.id = id) ∧
      db' = { db with
        customers := Sql.updateRow Customer.id id (fun c => { c with kycTier }) db.customers } := by
  simp only [updateCustomerTier, check_eq_ok, Except.ok.injEq]
  push Not
  simp only [eq_comm]

theorem createAccount_eq_ok {a : Account} :
    db.createAccount a = .ok db' ↔
      (∀ x ∈ db.accounts, x.id ≠ a.id) ∧
      (∀ x ∈ db.accounts, x.accountRef ≠ a.accountRef) ∧
      (∀ x ∈ db.accounts, x.nombaAccountId ≠ a.nombaAccountId) ∧
      (∀ x ∈ db.accounts, x.accountNumber ≠ a.accountNumber) ∧
      (∀ c ∈ a.customerId, ∃ x ∈ db.customers, x.id = c) ∧
      (∃ b ∈ db.businesses, b.id = a.businessId) ∧
      db' = { db with accounts := db.accounts ++ [a] } := by
  simp only [createAccount, check_eq_ok, Except.ok.injEq]
  push Not
  simp only [eq_comm]

theorem closeAccount_eq_ok {id : String} {closedAt : Nat} {closedReason : String} :
    db.closeAccount id closedAt closedReason = .ok db' ↔
      (∃ a ∈ db.accounts, a.id = id) ∧
      db' = { db with
        accounts := Sql.updateRow Account.id id (fun a => { a with
          status := .closed, closedAt := some closedAt, closedReason := some closedReason })
          db.accounts } := by
  simp only [closeAccount, check_eq_ok, Except.ok.injEq]
  push Not
  simp only [eq_comm]

end Db

/-- A check that throws a known request error adds no other error. -/
theorem isPrisma_of_check {α : Type} {p : Prop} [Decidable p] {c m : String} {r : Except Error α}
    (hr : ∀ e, r = .error e → ∃ c m, e = .prisma c m) :
    ∀ e, (if p then .error (.prisma c m) else r) = .error e → ∃ c m, e = .prisma c m := by
  intro e he
  split at he
  · cases he
    exact ⟨c, m, rfl⟩
  · exact hr e he

/-- A statement only ever fails with a known request error. -/
theorem WriteOp.apply_error {op : WriteOp} {db : Db} :
    ∀ e, op.apply db = .error e → ∃ c m, e = .prisma c m := by
  cases op <;> (repeat' apply isPrisma_of_check) <;> (intro e he; cases he)

/-! ### The table a statement writes -/

/-- The tables that the services write. -/
inductive Table
  | customers | accounts | rules | ruleExecutions | ledgerEntries | processedEvents
  | bucketLedgerEntries | settlements
deriving DecidableEq

def WriteOp.table : WriteOp → Table
  | createBucketLedgerEntry _ => .bucketLedgerEntries
  | createSettlement _ | updateSettlement .. => .settlements
  | createLedgerEntry _ | updateReconciliationByRef .. | updateReconciliationById .. =>
    .ledgerEntries
  | createProcessedEvent _ => .processedEvents
  | createRuleExecution _ | updateRuleExecution .. | archiveExecutions _ => .ruleExecutions
  | updateAccountStatus .. | updateAccountModel .. | createAccount _ | closeAccount .. => .accounts
  | archiveRules .. | createRule _ | updateRule .. | flagRules _ => .rules
  | updateCustomerTier .. => .customers

/-- Two databases that differ in one table at most. -/
structure Db.SameExcept (t : Table) (db db' : Db) : Prop where
  businesses : db'.businesses = db.businesses
  treasuryBuckets : db'.treasuryBuckets = db.treasuryBuckets
  nameHistory : db'.nameHistory = db.nameHistory
  customers : t ≠ .customers → db'.customers = db.customers
  accounts : t ≠ .accounts → db'.accounts = db.accounts
  rules : t ≠ .rules → db'.rules = db.rules
  ruleExecutions : t ≠ .ruleExecutions → db'.ruleExecutions = db.ruleExecutions
  ledgerEntries : t ≠ .ledgerEntries → db'.ledgerEntries = db.ledgerEntries
  processedEvents : t ≠ .processedEvents → db'.processedEvents = db.processedEvents
  bucketLedgerEntries : t ≠ .bucketLedgerEntries → db'.bucketLedgerEntries = db.bucketLedgerEntries
  settlements : t ≠ .settlements → db'.settlements = db.settlements

section SameExcept

variable (db : Db)

theorem Db.sameExcept_customers (customers : List Customer) :
    Db.SameExcept .customers db { db with customers } := by constructor <;> simp

theorem Db.sameExcept_accounts (accounts : List Account) :
    Db.SameExcept .accounts db { db with accounts } := by constructor <;> simp

theorem Db.sameExcept_rules (rules : List Rule) :
    Db.SameExcept .rules db { db with rules } := by constructor <;> simp

theorem Db.sameExcept_ruleExecutions (ruleExecutions : List RuleExecution) :
    Db.SameExcept .ruleExecutions db { db with ruleExecutions } := by constructor <;> simp

theorem Db.sameExcept_ledgerEntries (ledgerEntries : List LedgerEntry) :
    Db.SameExcept .ledgerEntries db { db with ledgerEntries } := by constructor <;> simp

theorem Db.sameExcept_processedEvents (processedEvents : List ProcessedEvent) :
    Db.SameExcept .processedEvents db { db with processedEvents } := by constructor <;> simp

theorem Db.sameExcept_bucketLedgerEntries (bucketLedgerEntries : List BucketLedgerEntry) :
    Db.SameExcept .bucketLedgerEntries db { db with bucketLedgerEntries } := by
  constructor <;> simp

theorem Db.sameExcept_settlements (settlements : List Settlement) :
    Db.SameExcept .settlements db { db with settlements } := by constructor <;> simp

end SameExcept

/-- **A statement changes one table.** -/
theorem WriteOp.sameExcept {o : WriteOp} {db db' : Db} (hop : o.apply db = .ok db') :
    Db.SameExcept o.table db db' := by
  cases o with
  | createBucketLedgerEntry e =>
    obtain ⟨-, -, -, -, rfl⟩ := Db.createBucketLedgerEntry_eq_ok.1 hop
    exact db.sameExcept_bucketLedgerEntries _
  | createSettlement s =>
    obtain ⟨-, -, -, rfl⟩ := Db.createSettlement_eq_ok.1 hop
    exact db.sameExcept_settlements _
  | updateSettlement id data =>
    obtain ⟨-, -, rfl⟩ := Db.updateSettlement_eq_ok.1 hop
    exact db.sameExcept_settlements _
  | createLedgerEntry e =>
    obtain ⟨-, -, -, rfl⟩ := Db.createLedgerEntry_eq_ok.1 hop
    exact db.sameExcept_ledgerEntries _
  | updateReconciliationByRef ref status =>
    obtain ⟨-, rfl⟩ := Db.updateReconciliationByRef_eq_ok.1 hop
    exact db.sameExcept_ledgerEntries _
  | updateReconciliationById id status =>
    obtain ⟨-, rfl⟩ := Db.updateReconciliationById_eq_ok.1 hop
    exact db.sameExcept_ledgerEntries _
  | createProcessedEvent e =>
    obtain ⟨-, -, rfl⟩ := Db.createProcessedEvent_eq_ok.1 hop
    exact db.sameExcept_processedEvents _
  | createRuleExecution x =>
    obtain ⟨-, -, -, -, rfl⟩ := Db.createRuleExecution_eq_ok.1 hop
    exact db.sameExcept_ruleExecutions _
  | updateRuleExecution id data =>
    obtain ⟨-, rfl⟩ := Db.updateRuleExecution_eq_ok.1 hop
    exact db.sameExcept_ruleExecutions _
  | archiveExecutions accountId =>
    cases hop
    exact db.sameExcept_ruleExecutions _
  | updateAccountStatus id status =>
    obtain ⟨-, rfl⟩ := Db.updateAccountStatus_eq_ok.1 hop
    exact db.sameExcept_accounts _
  | updateAccountModel id model =>
    obtain ⟨-, rfl⟩ := Db.updateAccountModel_eq_ok.1 hop
    exact db.sameExcept_accounts _
  | createAccount a =>
    obtain ⟨-, -, -, -, -, -, rfl⟩ := Db.createAccount_eq_ok.1 hop
    exact db.sameExcept_accounts _
  | closeAccount id closedAt closedReason =>
    obtain ⟨-, rfl⟩ := Db.closeAccount_eq_ok.1 hop
    exact db.sameExcept_accounts _
  | archiveRules accountId archivedAt =>
    cases hop
    exact db.sameExcept_rules _
  | createRule r =>
    obtain ⟨-, -, rfl⟩ := Db.createRule_eq_ok.1 hop
    exact db.sameExcept_rules _
  | updateRule id data =>
    obtain ⟨-, rfl⟩ := Db.updateRule_eq_ok.1 hop
    exact db.sameExcept_rules _
  | flagRules ids =>
    cases hop
    exact db.sameExcept_rules _
  | updateCustomerTier id kycTier =>
    obtain ⟨-, rfl⟩ := Db.updateCustomerTier_eq_ok.1 hop
    exact db.sameExcept_customers _

/-! ### Unique columns -/

/-- The primary keys and `@unique` columns hold no value twice. -/
structure Db.UniqueColumns (db : Db) : Prop where
  accounts : (db.accounts.map Account.id).Nodup
  accountNumbers : (db.accounts.map Account.accountNumber).Nodup
  rules : (db.rules.map Rule.id).Nodup
  ruleExecutions : (db.ruleExecutions.map RuleExecution.id).Nodup
  ledgerEntries : (db.ledgerEntries.map LedgerEntry.id).Nodup
  transactionRefs : (db.ledgerEntries.map LedgerEntry.nombaTransactionRef).Nodup
  eventIds : (db.processedEvents.map ProcessedEvent.eventId).Nodup
  treasuryBuckets : (db.treasuryBuckets.map TreasuryBucket.id).Nodup
  references : (db.bucketLedgerEntries.map BucketLedgerEntry.reference).Nodup
  settlements : (db.settlements.map Settlement.id).Nodup

/-- **No statement ever writes a unique value twice.** -/
theorem Db.UniqueColumns.apply {o : WriteOp} {db db' : Db} (hop : o.apply db = .ok db')
    (h : db.UniqueColumns) : db'.UniqueColumns := by
  cases o with
  | createBucketLedgerEntry e =>
    obtain ⟨-, href, -, -, rfl⟩ := Db.createBucketLedgerEntry_eq_ok.1 hop
    exact { h with references := Sql.nodup_map_append_singleton h.references href }
  | createSettlement s =>
    obtain ⟨hid, -, -, rfl⟩ := Db.createSettlement_eq_ok.1 hop
    exact { h with settlements := Sql.nodup_map_append_singleton h.settlements hid }
  | updateSettlement id data =>
    obtain ⟨-, -, rfl⟩ := Db.updateSettlement_eq_ok.1 hop
    exact { h with settlements := Sql.nodup_map_updateRow (fun _ => by rfl) h.settlements }
  | createLedgerEntry e =>
    obtain ⟨hid, href, -, rfl⟩ := Db.createLedgerEntry_eq_ok.1 hop
    exact { h with
      ledgerEntries := Sql.nodup_map_append_singleton h.ledgerEntries hid
      transactionRefs := Sql.nodup_map_append_singleton h.transactionRefs href }
  | updateReconciliationByRef ref status =>
    obtain ⟨-, rfl⟩ := Db.updateReconciliationByRef_eq_ok.1 hop
    exact { h with
      ledgerEntries := Sql.nodup_map_updateRow (fun _ => by rfl) h.ledgerEntries
      transactionRefs := Sql.nodup_map_updateRow (fun _ => by rfl) h.transactionRefs }
  | updateReconciliationById id status =>
    obtain ⟨-, rfl⟩ := Db.updateReconciliationById_eq_ok.1 hop
    exact { h with
      ledgerEntries := Sql.nodup_map_updateRow (fun _ => by rfl) h.ledgerEntries
      transactionRefs := Sql.nodup_map_updateRow (fun _ => by rfl) h.transactionRefs }
  | createProcessedEvent e =>
    obtain ⟨-, hid, rfl⟩ := Db.createProcessedEvent_eq_ok.1 hop
    exact { h with eventIds := Sql.nodup_map_append_singleton h.eventIds hid }
  | createRuleExecution x =>
    obtain ⟨hid, -, -, -, rfl⟩ := Db.createRuleExecution_eq_ok.1 hop
    exact { h with ruleExecutions := Sql.nodup_map_append_singleton h.ruleExecutions hid }
  | updateRuleExecution id data =>
    obtain ⟨-, rfl⟩ := Db.updateRuleExecution_eq_ok.1 hop
    exact { h with
      ruleExecutions := Sql.nodup_map_updateRow (fun _ => by rfl) h.ruleExecutions }
  | updateAccountStatus id status =>
    obtain ⟨-, rfl⟩ := Db.updateAccountStatus_eq_ok.1 hop
    exact { h with
      accounts := Sql.nodup_map_updateRow (fun _ => by rfl) h.accounts
      accountNumbers := Sql.nodup_map_updateRow (fun _ => by rfl) h.accountNumbers }
  | updateAccountModel id model =>
    obtain ⟨-, rfl⟩ := Db.updateAccountModel_eq_ok.1 hop
    exact { h with
      accounts := Sql.nodup_map_updateRow (fun _ => by rfl) h.accounts
      accountNumbers := Sql.nodup_map_updateRow (fun _ => by rfl) h.accountNumbers }
  | archiveRules accountId archivedAt =>
    obtain rfl : _ = db' := by simpa [WriteOp.apply, Db.archiveRules] using hop
    refine { h with rules := ?_ }
    rw [List.map_map, show Rule.id ∘ _ = Rule.id from funext fun r => by
      simp only [Function.comp]; split <;> rfl]
    exact h.rules
  | createRule r =>
    obtain ⟨hid, -, rfl⟩ := Db.createRule_eq_ok.1 hop
    exact { h with rules := Sql.nodup_map_append_singleton h.rules hid }
  | updateRule id data =>
    obtain ⟨-, rfl⟩ := Db.updateRule_eq_ok.1 hop
    exact { h with rules := Sql.nodup_map_updateRow (fun _ => by rfl) h.rules }
  | flagRules ids =>
    obtain rfl : _ = db' := by simpa [WriteOp.apply, Db.flagRules] using hop
    refine { h with rules := ?_ }
    rw [List.map_map, show Rule.id ∘ _ = Rule.id from funext fun r => by
      simp only [Function.comp]; split <;> rfl]
    exact h.rules
  | updateCustomerTier id kycTier =>
    obtain ⟨-, rfl⟩ := Db.updateCustomerTier_eq_ok.1 hop
    exact { h with }
  | createAccount a =>
    obtain ⟨hid, -, -, hnumber, -, -, rfl⟩ := Db.createAccount_eq_ok.1 hop
    exact { h with
      accounts := Sql.nodup_map_append_singleton h.accounts hid
      accountNumbers := Sql.nodup_map_append_singleton h.accountNumbers hnumber }
  | closeAccount id closedAt closedReason =>
    obtain ⟨-, rfl⟩ := Db.closeAccount_eq_ok.1 hop
    exact { h with
      accounts := Sql.nodup_map_updateRow (fun _ => by rfl) h.accounts
      accountNumbers := Sql.nodup_map_updateRow (fun _ => by rfl) h.accountNumbers }
  | archiveExecutions accountId =>
    obtain rfl : _ = db' := by simpa [WriteOp.apply, Db.archiveExecutions] using hop
    refine { h with ruleExecutions := ?_ }
    rw [List.map_map, show RuleExecution.id ∘ _ = RuleExecution.id from funext fun x => by
      simp only [Function.comp]; split <;> rfl]
    exact h.ruleExecutions

end AccountOS
