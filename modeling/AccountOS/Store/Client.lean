import AccountOS.Conc.Pool
import AccountOS.Store.Writes

/-!
# The database client and the other services

What a service method can call: a statement or a transaction of the database, Nomba, the
notification service, the retry queue and the audit log. Each call is one atomic step on the
`World`. Whether it fails, the identifiers and times it generates and what a remote service
answers are the environment's choice (`Env`).

A failed call of the database has no effect. It is remembered in `dbErrors`, which no service
reads: it is there to say that a run had no failed write.
-/

namespace AccountOS

open Conc Sql

/-! ### The world -/

/-- A row of the audit log; the `requestId` of the HTTP request is left out. -/
structure AuditLogEntry where
  actor : String
  action : AuditAction
  accountId : Option String := none
  customerId : Option String := none
  businessId : Option String := none
  beforeState : List (String × Json) := []
  afterState : List (String × Json) := []
  reasonCode : Option String := none
  metadata : List (String × Json) := []

/-- The request of `NombaClientService.bankTransfer`, the amount in naira. -/
structure BankTransferRequest where
  amount : ℚ
  accountNumber : String
  accountName : String
  bankCode : String
  merchantTxRef : String
  narration : Option String
deriving DecidableEq, Repr

/-- A bank transfer that Nomba confirmed, with the settlement it was made for. -/
structure ConfirmedTransfer where
  settlementId : String
  request : BankTransferRequest
deriving DecidableEq, Repr

/-- A job of the retry queue: its data, and the options it is queued with. -/
structure RetryJob where
  ruleExecutionId : String
  attempt : Nat
  maxAttempts : Nat
  errorMessage : Option String
  delay : Nat
  attempts : Nat
  backoffDelay : Nat
deriving DecidableEq, Repr

/-- The shared state of all services. -/
structure World where
  db : Db := {}
  auditLog : List AuditLogEntry := []
  transfers : List ConfirmedTransfer := []
  webhookQueue : List InflowPayload := []
  retryQueue : List RetryJob := []
  dbErrors : List Error := []

/-! ### What the environment decides -/

/-- A call that fails: before it does anything, or when its transaction commits. -/
structure Fault where
  error : Error
  atCommit : Bool := false

/-- The values a new row gets from the database client: `@default(now())` and
`@default(cuid())`. -/
structure Generated where
  createdAt : Nat := 0
  id : String := ""
deriving DecidableEq, Repr

/-- A virtual account that Nomba has provisioned: its reference there, and the number shown to
payers. -/
structure ProvisionDvaResult where
  accountRef : String := ""
  accountNumber : String := ""
deriving DecidableEq, Repr

/-- The environment's choice at one call. `rank` orders rows, by their ids, that an `ORDER BY`
leaves in no particular order; `rows` are the rows of a nested create. -/
structure Env where
  fault : Option Fault := none
  auditFails : Bool := false
  now : Nat := 0
  row : Generated := {}
  row₂ : Generated := {}
  uuid : String := ""
  rank : String → Nat := fun _ => 0
  rows : Nat → Generated := fun _ => {}
  delivery : Except String Nat := .ok 200
  dva : ProvisionDvaResult := {}

/-! ### Calls -/

/-- The label of a call: what is called, and for which rows. `elsewhere` is anything that a service
outside this model does. -/
inductive Call
  | findBucket (businessId bucketRef : String)
  | findProcessedEvent (eventId : String)
  | findEventOf (businessId eventId : String)
  | findAccount (accountNumber : String)
  | findAccountByRef (businessId accountRef : String)
  | findAccountStatus (id : String)
  | findCustomer (id : String)
  | findBusiness (id : String)
  | findRules (accountId : String)
  | findLedgerEntry (nombaTransactionRef : String)
  | findRuleExecution (id : String)
  | reserve (businessId bucketRef : String) (amountKobo : Int)
  | settleInternal (businessId sourceRef destRef settlementId : String) (amountKobo : Int)
  | completeSettlement (businessId bucketRef settlementId : String) (amountKobo : Int)
  | updateSettlement (id : String) (status : SettlementStatus)
  | credit (bucketId reference : String) (amountKobo : Int)
  | transferBetweenBuckets (businessId sourceRef destRef : String) (amountKobo : Int)
  | writeInflow (nombaTransactionRef : String)
  | createProcessedEvent (eventId : String)
  | createRuleExecution (ruleId triggeredBy : String)
  | updateRuleExecution (id : String)
  | updateReconciliation (status : ReconciliationStatus)
  | updateAccountStatus (id : String) (status : AccountStatus)
  | archiveRules (accountId : String)
  | createRules (accountId : String)
  | findRule (id : String)
  | findStaleRules (customerId : String)
  | findTimeRules
  | updateRule (id : String) (status : RuleStatus)
  | flagRules (customerId : String)
  | createCustomer (businessId : String) (parentId : Option String)
  | updateCustomer (id : String)
  | findAccountRef (accountRef : String)
  | createAccount (accountRef : String)
  | archiveExecutions (accountId : String)
  | provisionDva (accountRef : String)
  | expireDva (nombaAccountId : String)
  | balanceOf (bucketId : String)
  | reservedKobo (bucketId : String)
  | createBucket (businessId bucketRef : String)
  | updateBucket (id : String)
  | bankTransfer (settlementId : String)
  | deliver (url : String)
  | enqueueRetry (ruleExecutionId : String)
  | enqueueInflow (payload : InflowPayload)
  | takeJob (payload : InflowPayload)
  | elsewhere
  | audit (action : AuditAction)
deriving DecidableEq, Repr

/-- What statements read, change or lock: a row, the rows of a bucket or an account, or a value
of a unique column. -/
inductive Key
  | treasuryBucket (id : String)
  | bucketRef (businessId bucketRef : String)
  | entriesOf (bucketId : String)
  | entryReference (reference : String)
  | settlements
  | account (id : String)
  | ledgerEntriesOf (accountId : String)
  | transactionRef (ref : String)
  | processedEvent (eventId : String)
  | rules
  | ruleExecutions
deriving DecidableEq, Repr

def WriteOp.touches : WriteOp → List Key
  | createBucketLedgerEntry e => [.entriesOf e.bucketId, .entryReference e.reference]
  | createSettlement _ | updateSettlement .. => [.settlements]
  | createLedgerEntry e => [.ledgerEntriesOf e.accountId, .transactionRef e.nombaTransactionRef]
  | updateReconciliationByRef ref _ => [.transactionRef ref]
  | updateReconciliationById .. => []
  | createProcessedEvent e => [.processedEvent e.eventId]
  | createRuleExecution _ | updateRuleExecution .. | archiveExecutions _ => [.ruleExecutions]
  | createAccount a => [.account a.id]
  | updateAccountStatus id _ | updateAccountModel id _ | closeAccount id .. => [.account id]
  | archiveRules .. | createRule _ | updateRule .. | flagRules _ => [.rules]
  | updateCustomerTier .. => []

/-- The referenced row of each foreign key is locked `FOR KEY SHARE` by an insert. -/
def WriteOp.shares : WriteOp → List Key
  | createBucketLedgerEntry e => [.treasuryBucket e.bucketId]
  | createSettlement s => [.treasuryBucket s.bucketId]
  | createLedgerEntry e => [.account e.accountId]
  | createRuleExecution x => [.account x.accountId]
  | createRule r => [.account r.accountId]
  | _ => []

def schema : Schema Db Key WriteOp Error where
  apply := WriteOp.apply
  touches := WriteOp.touches
  shares := WriteOp.shares

@[simp] theorem schema_apply (op : WriteOp) (db : Db) : schema.apply op db = op.apply db := rfl

/-- No committed transaction has written a unique value twice. -/
theorem Db.UniqueColumns.run {α : Type} {t : Tx Db Key WriteOp Error α} {db : Db} {r : α × Db}
    (h : db.UniqueColumns) (hrun : t.run schema db = .ok r) : r.2.UniqueColumns :=
  Tx.run_preserves (fun _ _ _ hop hdb => hdb.apply hop) hrun h

/-- A service method. -/
abbrev Action := Proc World Env Call Error

/-- The callback of a transaction. -/
abbrev TxBody := Tx Db Key WriteOp Error

/-! ### Calling the database -/

namespace World

/-- Remember a failed call of the database. Errors that the callback of a transaction throws by
itself are not failures of the database. -/
def recordError (w : World) (e : Error) : World :=
  match e with
  | .prisma .. => { w with dbErrors := w.dbErrors ++ [e] }
  | _ => w

def recordFault (w : World) (f : Fault) : World := { w with dbErrors := w.dbErrors ++ [f.error] }

/-- `AuditService.log`, which never throws: an entry that cannot be written is lost. -/
def log (w : World) (env : Env) (entry : AuditLogEntry) : World :=
  if env.auditFails then w else { w with auditLog := w.auditLog ++ [entry] }

end World

/-- One transaction as one call. `inside` is what its callback does through other connections,
which a rollback does not undo. -/
def transactionStep {α : Type} (body : Env → TxBody α) (inside : Env → α → World → World)
    (env : Env) (w : World) : Except Error α × World :=
  match env.fault with
  | some ⟨e, false⟩ => (.error e, w.recordFault ⟨e, false⟩)
  | some ⟨e, true⟩ =>
    match (body env).run schema w.db with
    | .ok (a, _) => (.error e, (inside env a w).recordFault ⟨e, true⟩)
    | .error e' => (.error e', w.recordError e')
  | none =>
    match (body env).run schema w.db with
    | .ok (a, db) => (.ok a, { inside env a w with db })
    | .error e => (.error e, w.recordError e)

/-- `prisma.$transaction`. -/
def transaction {α : Type} (l : Call) (body : Env → TxBody α)
    (inside : Env → α → World → World := fun _ _ w => w) : Action α :=
  Proc.call l (transactionStep body inside)

/-- A single writing statement is a transaction of its own. -/
def statementStep (op : Env → WriteOp) : Env → World → Except Error Unit × World :=
  transactionStep (fun env => Tx.exec (op env)) fun _ _ w => w

def statement (l : Call) (op : Env → WriteOp) : Action Unit :=
  Proc.call l (statementStep op)

/-- A single reading statement. -/
def findStep {α : Type} (f : Env → Db → α) : Env → World → Except Error α × World :=
  transactionStep (fun env => Tx.query [] (f env)) fun _ _ w => w

def find {α : Type} (l : Call) (f : Env → Db → α) : Action α :=
  Proc.call l (findStep f)

/-- `BigInt(x)` in a service method: a number that is not an integer throws. -/
def bigIntOrThrow (x : ℚ) : Action Int :=
  match bigInt x with
  | .ok n => .ret n
  | .error e => .raise (.ofRangeError e)

/-! ### Calling other services -/

/-- `AuditService.log`. -/
def audit (entry : AuditLogEntry) : Action Unit :=
  Proc.call (.audit entry.action) fun env w => (.ok (), w.log env entry)

/-- `NombaClientService.bankTransfer`: it throws, or Nomba has confirmed the transfer. The request
may depend on values generated at the call. -/
def bankTransfer (settlementId : String) (request : Env → BankTransferRequest) :
    Action BankTransferRequest :=
  Proc.call (.bankTransfer settlementId) fun env w =>
    match env.fault with
    | some f => (.error f.error, w)
    | none =>
      (.ok (request env), { w with transfers := w.transfers ++ [⟨settlementId, request env⟩] })

/-- `NombaClientService.provisionDva`: it throws, or a virtual account exists at Nomba. -/
def provisionDva (accountRef : String) : Action ProvisionDvaResult :=
  Proc.call (.provisionDva accountRef) fun env w =>
    match env.fault with
    | some f => (.error f.error, w)
    | none => (.ok env.dva, w)

/-- `NombaClientService.expireAccount`. -/
def expireDva (nombaAccountId : String) : Action Unit :=
  Proc.call (.expireDva nombaAccountId) fun env w =>
    match env.fault with
    | some f => (.error f.error, w)
    | none => (.ok (), w)

/-- `NotificationService.deliver`, which never throws: the HTTP status, or the error. -/
def deliver (url : String) : Action (Except String Nat) :=
  Proc.call (.deliver url) fun env w => (.ok env.delivery, w)

/-- `retryQueue.add`. -/
def enqueueRetry (job : RetryJob) : Action Unit :=
  Proc.call (.enqueueRetry job.ruleExecutionId) fun env w =>
    match env.fault with
    | some f => (.error f.error, w)
    | none => (.ok (), { w with retryQueue := w.retryQueue ++ [job] })

/-- `webhookQueue.add`. -/
def enqueueInflow (payload : InflowPayload) : Action Unit :=
  Proc.call (.enqueueInflow payload) fun env w =>
    match env.fault with
    | some f => (.error f.error, w)
    | none => (.ok (), { w with webhookQueue := w.webhookQueue ++ [payload] })

/-- The queue hands a job to its worker; it may do so more than once. -/
def takeJob (payload : InflowPayload) : Action Unit :=
  Proc.call (.takeJob payload) fun _ w => (.ok (), w)

/-! ### What a call can do -/

/-- Two worlds with the same data: they differ at most in the audit log and in the record of
failed calls, which only grows. -/
structure World.SameData (w w' : World) : Prop where
  db : w'.db = w.db
  transfers : w'.transfers = w.transfers
  webhookQueue : w'.webhookQueue = w.webhookQueue
  retryQueue : w'.retryQueue = w.retryQueue
  dbErrors : w.dbErrors <+: w'.dbErrors

namespace World

@[refl] theorem SameData.refl (w : World) : SameData w w := ⟨rfl, rfl, rfl, rfl, List.prefix_rfl⟩

theorem sameData_recordError (w : World) (e : Error) : SameData w (w.recordError e) := by
  unfold recordError
  split
  · exact ⟨rfl, rfl, rfl, rfl, List.prefix_append _ _⟩
  · rfl

theorem sameData_recordFault (w : World) (f : Fault) : SameData w (w.recordFault f) :=
  ⟨rfl, rfl, rfl, rfl, List.prefix_append _ _⟩

section Log

variable (w : World) (env : Env) (entry : AuditLogEntry)

@[simp] theorem log_db : (w.log env entry).db = w.db := by unfold log; split <;> rfl

@[simp] theorem log_transfers : (w.log env entry).transfers = w.transfers := by
  unfold log; split <;> rfl

@[simp] theorem log_retryQueue : (w.log env entry).retryQueue = w.retryQueue := by
  unfold log; split <;> rfl

@[simp] theorem log_webhookQueue : (w.log env entry).webhookQueue = w.webhookQueue := by
  unfold log; split <;> rfl

@[simp] theorem log_dbErrors : (w.log env entry).dbErrors = w.dbErrors := by
  unfold log; split <;> rfl

theorem sameData_log : SameData w (w.log env entry) :=
  ⟨w.log_db env entry, w.log_transfers env entry, w.log_webhookQueue env entry,
    w.log_retryQueue env entry, by simp⟩

end Log

theorem SameData.trans {w w' w'' : World} (h : SameData w w') (h' : SameData w' w'') :
    SameData w w'' :=
  ⟨h'.db.trans h.db, h'.transfers.trans h.transfers, h'.webhookQueue.trans h.webhookQueue,
    h'.retryQueue.trans h.retryQueue, h.dbErrors.trans h'.dbErrors⟩

end World

/-- What the callback of a transaction does through other connections is at most writing audit
entries. -/
def LogsOnly {α : Type} (inside : Env → α → World → World) : Prop :=
  ∀ env a w, World.SameData w (inside env a w) ∧ (inside env a w).dbErrors = w.dbErrors

theorem logsOnly_nothing {α : Type} : LogsOnly fun (_ : Env) (_ : α) w => w :=
  fun _ _ w => ⟨.refl w, rfl⟩

theorem logsOnly_log {α : Type} (entry : α → AuditLogEntry) :
    LogsOnly fun env a w => w.log env (entry a) :=
  fun env a w => ⟨w.sameData_log env (entry a), w.log_dbErrors env (entry a)⟩

/-- The call failed without an effect: the data is as before, and the record of failed calls has
grown unless it was the callback that threw, an error of its own. -/
structure Thrown {α : Type} (body : Env → TxBody α) (env : Env) (w : World) (e : Error)
    (w' : World) : Prop where
  same : World.SameData w w'
  cause : w'.dbErrors ≠ w.dbErrors ∨
    (body env).run schema w.db = .error e ∧ ∀ c m, e ≠ .prisma c m
  aborted : env.fault = none → ∀ r, (body env).run schema w.db ≠ .ok r

/-- **What a transaction can do.** Either its callback ran through and its writes are committed;
or the call failed without an effect. -/
theorem transactionStep_cases {α : Type} (body : Env → TxBody α)
    {inside : Env → α → World → World} (hinside : LogsOnly inside) (env : Env) (w : World) :
    (∃ a db, env.fault = none ∧ (body env).run schema w.db = .ok (a, db) ∧
      transactionStep body inside env w = (.ok a, { inside env a w with db })) ∨
    (∃ e w', transactionStep body inside env w = (.error e, w') ∧ Thrown body env w e w') := by
  have hbody : ∀ e', (body env).run schema w.db = .error e' →
      Thrown body env w e' (w.recordError e') := by
    intro e' he'
    refine ⟨w.sameData_recordError e', ?_, fun _ r => by simp [he']⟩
    cases e' with
    | prisma c m => exact .inl (by simp [World.recordError])
    | http s m c md => exact .inr ⟨he', fun _ _ => by simp⟩
    | other m => exact .inr ⟨he', fun _ _ => by simp⟩
  unfold transactionStep
  split
  next e hf =>
    exact .inr ⟨e, _, rfl, w.sameData_recordFault _, .inl (by simp [World.recordFault]),
      fun h => by simp [hf] at h⟩
  next e hf =>
    split
    next a db hrun =>
      obtain ⟨hsame, herr⟩ := hinside env a w
      refine .inr ⟨e, _, rfl, hsame.trans (World.sameData_recordFault _ _), .inl ?_,
        fun h => by simp [hf] at h⟩
      simp [World.recordFault, herr]
    next e' hrun => exact .inr ⟨e', _, rfl, hbody e' hrun⟩
  next hf =>
    split
    next a db hrun => exact .inl ⟨a, db, hf, hrun, rfl⟩
    next e' hrun => exact .inr ⟨e', _, rfl, hbody e' hrun⟩

/-- **What a single writing statement can do**: take effect, or fail without one because of a
fault or because it violates a constraint. -/
theorem statementStep_cases (op : Env → WriteOp) (env : Env) (w : World) :
    (env.fault = none ∧ ∃ db, (op env).apply w.db = .ok db ∧
      statementStep op env w = (.ok (), { w with db })) ∨
    (∃ e w', statementStep op env w = (.error e, w') ∧ World.SameData w w' ∧
      w'.dbErrors ≠ w.dbErrors ∧ (env.fault = none → ∀ db, (op env).apply w.db ≠ .ok db)) := by
  rcases transactionStep_cases (fun env => Tx.exec (op env)) logsOnly_nothing env w with
    ⟨a, db, hf, hrun, hstep⟩ | ⟨e, w', hstep, hthrown⟩
  · exact .inl ⟨hf, db, Tx.run_exec_eq_ok.1 hrun, hstep⟩
  · refine .inr ⟨e, w', hstep, hthrown.same, ?_,
      fun hf db hdb => hthrown.aborted hf ((), db) (Tx.run_exec_eq_ok.2 hdb)⟩
    rcases hthrown.cause with hgrown | ⟨hown, hnot⟩
    · exact hgrown
    · obtain ⟨c, m, rfl⟩ := WriteOp.apply_error e (Tx.run_exec_eq_error.1 hown)
      exact absurd rfl (hnot c m)

/-- **What a single reading statement can do**: answer, or fail. -/
theorem findStep_cases {α : Type} (f : Env → Db → α) (env : Env) (w : World) :
    (env.fault = none ∧ findStep f env w = (.ok (f env w.db), w)) ∨
    (∃ e w', findStep f env w = (.error e, w') ∧ World.SameData w w' ∧
      w'.dbErrors ≠ w.dbErrors) := by
  rcases transactionStep_cases (fun env => Tx.query [] (f env)) logsOnly_nothing env w with
    ⟨a, db, hf, hrun, hstep⟩ | ⟨e, w', hstep, hthrown⟩
  · rw [Tx.run_query] at hrun
    cases hrun
    exact .inl ⟨hf, hstep⟩
  · refine .inr ⟨e, w', hstep, hthrown.same, ?_⟩
    rcases hthrown.cause with hgrown | ⟨hown, -⟩
    · exact hgrown
    · simp at hown

end AccountOS
