import AccountOS.Store.Number

/-!
# The database

The tables of `prisma/schema.prisma` that the treasury, the inflow processing and the rule engine
work on. A table is the list of its rows in commit order, a row has the columns that these
services read or write, and an enumeration is an inductive type whose constructors are the
source's names. `DateTime` columns are milliseconds.
-/

namespace AccountOS

/-! ### Enumerations -/

inductive AccountStatus
  | active | suspended | expired | closed
deriving DecidableEq, Repr

instance : ToString AccountStatus where
  toString
    | .active => "ACTIVE"
    | .suspended => "SUSPENDED"
    | .expired => "EXPIRED"
    | .closed => "CLOSED"

inductive ExecutionModel
  | sequential | parallel
deriving DecidableEq, Repr

instance : ToString ExecutionModel where
  toString
    | .sequential => "SEQUENTIAL"
    | .parallel => "PARALLEL"

inductive BucketType
  | payroll | taxReserve | operations | marketing | savings | custom
deriving DecidableEq, Repr

instance : ToString BucketType where
  toString
    | .payroll => "PAYROLL"
    | .taxReserve => "TAX_RESERVE"
    | .operations => "OPERATIONS"
    | .marketing => "MARKETING"
    | .savings => "SAVINGS"
    | .custom => "CUSTOM"

inductive KycTier
  | tier0 | tier1 | tier2 | tier3
deriving DecidableEq, Repr

instance : ToString KycTier where
  toString
    | .tier0 => "TIER_0"
    | .tier1 => "TIER_1"
    | .tier2 => "TIER_2"
    | .tier3 => "TIER_3"

inductive RuleTrigger
  | inflowReceived | timeElapsed | tierChanged | customEvent
deriving DecidableEq, Repr

inductive RuleAction
  | suspendAccount | reactivateAccount | expireAccount | notifyWebhook | releaseFunds
  | flagForReview
deriving DecidableEq, Repr

inductive RuleStatus
  | active | archived | flaggedForReview
deriving DecidableEq, Repr

instance : ToString RuleStatus where
  toString
    | .active => "ACTIVE"
    | .archived => "ARCHIVED"
    | .flaggedForReview => "FLAGGED_FOR_REVIEW"

inductive RuleArchivedReason
  | closedBeforeCompletion | supersededByUpdate | manuallyArchived
deriving DecidableEq, Repr

inductive RuleExecutionStatus
  | pending | completed | failed | retrying | archived
deriving DecidableEq, Repr

inductive LedgerDirection
  | inflow | outflow
deriving DecidableEq, Repr

instance : ToString LedgerDirection where
  toString
    | .inflow => "INFLOW"
    | .outflow => "OUTFLOW"

inductive ReconciliationStatus
  | pending | matched | unmatched | flagged
deriving DecidableEq, Repr

instance : ToString ReconciliationStatus where
  toString
    | .pending => "PENDING"
    | .matched => "MATCHED"
    | .unmatched => "UNMATCHED"
    | .flagged => "FLAGGED"

inductive BucketEntryType
  | credit | debit
deriving DecidableEq, Repr

inductive SettlementDestinationType
  | bankAccount | nombaAccount | internalBucket | webhook
deriving DecidableEq, Repr

instance : ToString SettlementDestinationType where
  toString
    | .bankAccount => "BANK_ACCOUNT"
    | .nombaAccount => "NOMBA_ACCOUNT"
    | .internalBucket => "INTERNAL_BUCKET"
    | .webhook => "WEBHOOK"

inductive SettlementStatus
  | pending | processing | completed | failed | cancelled
deriving DecidableEq, Repr

/-- The audit actions that these services write. -/
inductive AuditAction
  | customerCreated | customerRenamed
  | accountCreated | accountStatusOverride | accountClosed
  | accountSuspended | accountReactivated | accountExpired
  | rulesUpdated | ruleArchived | ruleFlaggedKycChange | kycTierChanged
  | ruleActionCompleted | ruleActionFailed
  | inflowReceived | customEventProcessed | duplicateEventDiscarded | unknownAccountWebhook
  | allocateFunds | bucketTransfer | treasuryBucketCreated | treasuryBucketClosed
  | settlementReserved | settlementCompleted | settlementFailed
deriving DecidableEq, Repr

/-! ### JSON columns -/

/-- A JSON value as the services build them for audit metadata and error bodies. -/
inductive Json
  | null
  | bool (b : Bool)
  | num (q : ℚ)
  | str (s : String)
  | arr (xs : List Json)
  | obj (fields : List (String × Json))

/-- `null` for an absent value, the string otherwise. -/
def Json.ofOption : Option String → Json
  | none => .null
  | some s => .str s

/-- The `condition` column of a rule: the operators of every trigger, each of them optional. -/
structure RuleCondition where
  amountGte : Option ℚ := none
  amountLte : Option ℚ := none
  amountLt : Option ℚ := none
  amountEq : Option ℚ := none
  cumulativeGte : Option ℚ := none
  noInflowForDays : Option ℚ := none
  noEventForDays : Option ℚ := none
  eventName : Option String := none
  fromTier : Option KycTier := none
  toTier : Option KycTier := none
deriving DecidableEq, Repr

/-- The `payload` column of a rule: the fields of every action, each of them optional. -/
structure RulePayload where
  destinationAccountRef : Option String := none
  percentage : Option ℚ := none
  amountKobo : Option ℚ := none
  url : Option String := none
deriving DecidableEq, Repr

/-- The data of a webhook-processing job. `amountKobo` is a JSON number. -/
structure InflowPayload where
  eventId : String
  transactionRef : String
  accountNumber : String
  amountKobo : ℚ
  senderName : Option String := none
  senderAccountNumber : Option String := none
  senderBankCode : Option String := none
  narration : Option String := none
  eventType : Option String := none
deriving DecidableEq, Repr

/-! ### Rows -/

structure Business where
  id : String
  name : String := ""
  nombaWebhookSecret : Option String := none
deriving DecidableEq, Repr

structure Customer where
  id : String
  displayName : String
  kycTier : KycTier := .tier0
  businessId : String
  bvnRef : Option String := none
  parentId : Option String := none
deriving DecidableEq, Repr

structure NameHistoryEntry where
  id : String
  customerId : String
  previousName : String
  newName : String
  reason : Option String := none
  changedBy : String
  changedAt : Nat
deriving DecidableEq, Repr

structure Account where
  id : String
  accountRef : String
  nombaAccountId : String
  accountNumber : String
  status : AccountStatus := .active
  executionModel : ExecutionModel := .sequential
  customerId : Option String := none
  businessId : String
  closedAt : Option Nat := none
  closedReason : Option String := none
  createdAt : Nat := 0
deriving DecidableEq, Repr

structure Rule where
  id : String
  accountId : String
  trigger : RuleTrigger
  condition : Option RuleCondition
  action : RuleAction
  payload : Option RulePayload
  priority : Int := 0
  status : RuleStatus := .active
  kycTierAtCreation : KycTier
  archivedAt : Option Nat := none
  archivedReason : Option RuleArchivedReason := none
deriving DecidableEq, Repr

structure RuleExecution where
  id : String
  ruleId : String
  accountId : String
  triggeredByLedgerEntryId : Option String
  triggeredBy : String
  status : RuleExecutionStatus := .pending
  attempt : Nat := 0
  nextRetryAt : Option Nat := none
  nombaApiResponse : Option (List (String × Json)) := none
  errorMessage : Option String := none
  archivedReason : Option RuleArchivedReason := none
  completedAt : Option Nat := none

structure LedgerEntry where
  id : String
  accountId : String
  nombaTransactionRef : String
  nombaEventId : String
  direction : LedgerDirection
  amountKobo : Int
  currency : String := "NGN"
  senderName : Option String := none
  senderAccountNumber : Option String := none
  senderBankCode : Option String := none
  narration : Option String := none
  customerNameSnapshot : String
  kycTierAtTime : KycTier
  cumulativeAmountKobo : Int
  reconciliationStatus : ReconciliationStatus := .pending
  receivedAt : Nat
  createdAt : Nat
deriving DecidableEq, Repr

structure ProcessedEvent where
  id : String
  eventId : String
  eventType : String
  accountRef : Option String
  businessId : Option String
  payload : InflowPayload
deriving DecidableEq, Repr

structure TreasuryBucket where
  id : String
  bucketRef : String
  name : String := ""
  bucketType : BucketType := .custom
  description : Option String := none
  status : AccountStatus := .active
  businessId : String
  settlementType : Option SettlementDestinationType := none
  settlementAccountName : Option String := none
  settlementAccountNumber : Option String := none
  settlementBankCode : Option String := none
deriving DecidableEq, Repr

structure BucketLedgerEntry where
  id : String
  bucketId : String
  entryType : BucketEntryType
  amountKobo : Int
  cumulativeAmountKobo : Int
  reference : String
  sourceLedgerEntryId : Option String := none
  narration : Option String := none
  createdAt : Nat
deriving DecidableEq, Repr

structure Settlement where
  id : String
  bucketId : String
  businessId : String
  amountKobo : Int
  status : SettlementStatus := .pending
  destinationType : SettlementDestinationType
  destinationAccountName : Option String := none
  destinationAccountNumber : Option String := none
  destinationBankCode : Option String := none
  destinationBucketRef : Option String := none
  nombaTransferReference : Option String := none
  failureReason : Option String := none
  initiatedBy : String
  completedAt : Option Nat := none
  createdAt : Nat
deriving DecidableEq, Repr

/-! ### The database -/

structure Db where
  businesses : List Business := []
  customers : List Customer := []
  nameHistory : List NameHistoryEntry := []
  accounts : List Account := []
  rules : List Rule := []
  ruleExecutions : List RuleExecution := []
  ledgerEntries : List LedgerEntry := []
  processedEvents : List ProcessedEvent := []
  treasuryBuckets : List TreasuryBucket := []
  bucketLedgerEntries : List BucketLedgerEntry := []
  settlements : List Settlement := []

/-! ### Errors -/

/-- What the code can throw: an `HttpException` with its body, a known request error of the
database client, or any other error. -/
inductive Error
  | http (status : Nat) (message code : String) (metadata : List (String × Json))
  | prisma (code message : String)
  | other (message : String)

namespace Error

/-- `error.message`. -/
def message : Error → String
  | http _ m _ _ => m
  | prisma _ m => m
  | other m => m

/-- `error instanceof HttpException`. -/
def isHttp : Error → Bool
  | http .. => true
  | _ => false

/-- A known request error of the database client with the given code. -/
def hasCode (c : String) : Error → Bool
  | prisma code _ => code == c
  | _ => false

/-- P2002: a unique constraint. -/
def uniqueViolation (field : String) : Error :=
  .prisma "P2002" s!"Unique constraint failed on the fields: (\x60{field}\x60)"

/-- P2003: a foreign key. -/
def foreignKeyViolation (constraint : String) : Error :=
  .prisma "P2003" s!"Foreign key constraint violated: \x60{constraint}\x60"

/-- P2025: the row to be updated does not exist. -/
def recordNotFound : Error :=
  .prisma "P2025" ("An operation failed because it depends on one or more records that were " ++
    "required but not found. No record was found for an update.")

def ofRangeError (e : RangeError) : Error := .other e.message

end Error

end AccountOS
