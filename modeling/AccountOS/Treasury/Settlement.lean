import AccountOS.Sql.RunningTotal
import AccountOS.Treasury.Bucket
import Mathlib.Data.Prod.Lex
import Mathlib.Data.String.Basic

/-!
# `SettlementService`

A settlement takes money out of a bucket in several steps. A first transaction checks the
available balance (the ledger balance minus what other settlements have reserved) and creates the
settlement `PENDING`, which reserves its amount. Then, outside of any transaction, it is marked
`PROCESSING` and executed: Nomba transfers the money and a second transaction writes the DEBIT and
marks it `COMPLETED`, or, for an internal destination, one transaction does both. Whatever is
thrown on the way is caught once, and the settlement is marked `FAILED`.
-/

namespace AccountOS

open Conc Sql

/-! ### Balances -/

/-- `PENDING` and `PROCESSING` settlements reserve their amount. -/
def SettlementStatus.Reserving (s : SettlementStatus) : Prop := s = .pending ∨ s = .processing

instance : DecidablePred SettlementStatus.Reserving :=
  fun s => inferInstanceAs (Decidable (s = .pending ∨ s = .processing))

/-- The order of `orderBy: [{ createdAt }, { id }]`. -/
def BucketLedgerEntry.stamp (e : BucketLedgerEntry) : ℕ ×ₗ String := toLex (e.createdAt, e.id)

namespace Db

/-- The entries of one bucket, in commit order. -/
def entriesOf (db : Db) (bucketId : String) : List BucketLedgerEntry :=
  db.bucketLedgerEntries.filter fun e => e.bucketId = bucketId

/-- The cumulative amount of the bucket's latest entry, `0` before the first one. -/
def latestBalance (db : Db) (bucketId : String) : Int :=
  (((db.entriesOf bucketId).argmax BucketLedgerEntry.stamp).map
    BucketLedgerEntry.cumulativeAmountKobo).getD 0

/-- The sum of the bucket's `PENDING` and `PROCESSING` settlements. -/
def reservedKobo (db : Db) (bucketId : String) : Int :=
  sumWhere (fun s => s.bucketId = bucketId ∧ s.status.Reserving) Settlement.amountKobo
    db.settlements

end Db

/-- `SettlementService.latestBalance`. -/
def latestBalance (bucketId : String) : TxBody Int :=
  Tx.query [.entriesOf bucketId] fun db => db.latestBalance bucketId

/-- `SettlementService.reservedKobo`. -/
def reservedKobo (bucketId : String) : TxBody Int :=
  Tx.query [.settlements] fun db => db.reservedKobo bucketId

/-! ### The request and its destination -/

/-- What `initiate` takes. The controller makes it of a `WithdrawDto`, whose amount is a JSON number that
the validation pipe has checked to be at least `1`, maybe no integer. -/
structure CreateSettlementDto where
  amountKobo : ℚ
  destinationType : Option String := none
  destinationAccountName : Option String := none
  destinationAccountNumber : Option String := none
  destinationBankCode : Option String := none
  destinationBucketRef : Option String := none
  narration : Option String := none
  one_le_amountKobo : 1 ≤ amountKobo

/-- Where the money is to go: the request wins, else what the bucket has saved. -/
structure Destination where
  type : String
  accountName : Option String
  accountNumber : Option String
  bankCode : Option String
  bucketRef : Option String
deriving DecidableEq, Repr

def resolveDestination (dto : CreateSettlementDto) (bucket : TreasuryBucket) : Destination where
  type := (dto.destinationType <|> bucket.settlementType.map toString).getD "BANK_ACCOUNT"
  accountName := dto.destinationAccountName <|> bucket.settlementAccountName
  accountNumber := dto.destinationAccountNumber <|> bucket.settlementAccountNumber
  bankCode := dto.destinationBankCode <|> bucket.settlementBankCode
  bucketRef := dto.destinationBucketRef

/-- What the steps of one settlement have in common. -/
structure SettlementRequest where
  bucketRef : String
  businessId : String
  actor : String
  required : ℚ
  amountKobo : Int
  dest : Destination
  narration : Option String

/-- The enumeration value of a destination type; the database client refuses any other text. -/
def parseDestinationType (s : String) : Option SettlementDestinationType :=
  if s = "BANK_ACCOUNT" then some .bankAccount
  else if s = "NOMBA_ACCOUNT" then some .nombaAccount
  else if s = "INTERNAL_BUCKET" then some .internalBucket
  else if s = "WEBHOOK" then some .webhook
  else none

/-- The value of an optional text that is neither absent nor empty. -/
def truthy : Option String → Option String
  | some s => if s = "" then none else some s
  | none => none

theorem truthy_eq_some {x : Option String} {s : String} (h : truthy x = some s) : x = some s := by
  unfold truthy at h
  split at h
  · split_ifs at h
    exact h
  · exact h

/-! ### The transactions -/

/-- `SettlementService.lockBucket`: a missing bucket is a 400. -/
def bucketNotFound (bucketRef : String) : Error :=
  .http 400 (bucketNotFoundMessage bucketRef) "BUCKET_NOT_FOUND" []

def insufficientAvailableBalance (required : ℚ) (available reserved ledgerBalance : Int) : Error :=
  .http 422
    s!"Insufficient available balance. Required: {required} kobo, Available: {available} kobo"
    "INSUFFICIENT_BUCKET_BALANCE"
    [("requiredKobo", .num required), ("availableKobo", .num (number available)),
      ("reservedKobo", .num (number reserved)), ("ledgerBalanceKobo", .num (number ledgerBalance))]

/-- The settlement that a reservation creates. -/
def SettlementRequest.settlement (r : SettlementRequest) (bucketId : String)
    (type : SettlementDestinationType) (row : Generated) : Settlement where
  id := row.id
  createdAt := row.createdAt
  bucketId := bucketId
  businessId := r.businessId
  amountKobo := r.amountKobo
  status := .pending
  destinationType := type
  destinationAccountName := r.dest.accountName
  destinationAccountNumber := r.dest.accountNumber
  destinationBankCode := r.dest.bankCode
  destinationBucketRef := r.dest.bucketRef
  initiatedBy := r.actor

/-- TX1: check the available balance and reserve the amount. -/
def reserveTx (r : SettlementRequest) (env : Env) : TxBody Settlement := do
  let locked ← lockBucketOr (bucketNotFound r.bucketRef) r.bucketRef r.businessId
  let ledgerBalance ← latestBalance locked.id
  let reserved ← reservedKobo locked.id
  let available := ledgerBalance - reserved
  if available < r.amountKobo then
    .throw (insufficientAvailableBalance r.required available reserved ledgerBalance)
  else
    match parseDestinationType r.dest.type with
    | none => .throw (.other "Invalid value for argument: destinationType")
    | some type => do
      let settlement := r.settlement locked.id type env.row
      Tx.exec (.createSettlement settlement)
      return settlement

/-- The DEBIT of a settlement that Nomba has confirmed. -/
def SettlementRequest.debit (r : SettlementRequest) (bucketId nombaReference : String)
    (row : Generated) (balance : Int) : BucketLedgerEntry where
  id := row.id
  createdAt := row.createdAt
  bucketId := bucketId
  entryType := .debit
  amountKobo := r.amountKobo
  cumulativeAmountKobo := balance - r.amountKobo
  reference := s!"stl_{nombaReference}"
  narration := r.narration

/-- The update that completes a settlement. -/
def completedData (reference : String) (now : Nat) : SettlementData where
  status := .completed
  nombaTransferReference := some reference
  completedAt := some now

/-- TX2 of an external settlement: write the DEBIT and mark the settlement COMPLETED. -/
def completeSettlementTx (r : SettlementRequest) (settlementId nombaReference : String)
    (env : Env) : TxBody Unit := do
  let locked ← lockBucketOr (bucketNotFound r.bucketRef) r.bucketRef r.businessId
  let balance ← latestBalance locked.id
  Tx.exec (.createBucketLedgerEntry (r.debit locked.id nombaReference env.row balance))
  Tx.exec (.updateSettlement settlementId (completedData nombaReference env.now))

/-- The move of an internal settlement. -/
def SettlementRequest.move (r : SettlementRequest) (sourceId destId uuid : String) : Move where
  sourceId := sourceId
  destinationId := destId
  amountKobo := r.amountKobo
  ref := s!"stl_int_{uuid}"
  narration := r.narration

/-- The transaction of an internal settlement: both entries of the move and COMPLETED. -/
def settleInternalTx (r : SettlementRequest) (settlementId destRef : String) (env : Env) :
    TxBody String := do
  let source ← lockBucketOr (bucketNotFound r.bucketRef) r.bucketRef r.businessId
  let dest ← lockBucketOr (bucketNotFound destRef) destRef r.businessId
  let sourceBalance ← computeBalance source.id
  let destBalance ← computeBalance dest.id
  let move := r.move source.id dest.id env.uuid
  Tx.exec (.createBucketLedgerEntry (move.debit env.row sourceBalance))
  Tx.exec (.createBucketLedgerEntry (move.credit env.row₂ destBalance))
  Tx.exec (.updateSettlement settlementId (completedData move.ref env.now))
  return move.ref

/-! ### The service -/

/-- `SettlementService.resolveBucket`. -/
def resolveBucket (bucketRef businessId : String) : Action TreasuryBucket := do
  let bucket ← find (.findBucket businessId bucketRef) fun _ db =>
    db.findBucket businessId bucketRef
  match bucket with
  | none => throw (bucketNotFound bucketRef)
  | some b => return b

/-- The audit entry of a reservation. -/
def SettlementRequest.reservedAudit (r : SettlementRequest) (settlement : Settlement) :
    AuditLogEntry where
  actor := r.actor
  action := .settlementReserved
  businessId := some r.businessId
  metadata := [
    ("settlementId", .str settlement.id),
    ("bucketRef", .str r.bucketRef),
    ("amountKobo", .num r.required),
    ("destinationType", .str r.dest.type)]

/-- TX1 as a call. The audit entry goes through another connection, so it stays when the
transaction is rolled back after it. -/
def reserve (r : SettlementRequest) : Action Settlement :=
  transaction (.reserve r.businessId r.bucketRef r.amountKobo) (reserveTx r)
    fun env settlement w => w.log env (r.reservedAudit settlement)

def settleInternal (r : SettlementRequest) (settlementId destRef : String) : Action Unit := do
  let ref ← transaction
    (.settleInternal r.businessId r.bucketRef destRef settlementId r.amountKobo)
    (settleInternalTx r settlementId destRef)
  audit {
    actor := r.actor
    action := .settlementCompleted
    businessId := some r.businessId
    metadata := [
      ("sourceBucketRef", .str r.bucketRef),
      ("destinationBucketRef", .str destRef),
      ("amountKobo", .str (toString r.amountKobo)),
      ("reference", .str ref),
      ("settlementType", .str "INTERNAL_BUCKET")] }

def completeSettlement (r : SettlementRequest) (settlementId nombaReference : String) :
    Action Unit := do
  transaction (.completeSettlement r.businessId r.bucketRef settlementId r.amountKobo)
    (completeSettlementTx r settlementId nombaReference)
  audit {
    actor := r.actor
    action := .settlementCompleted
    businessId := some r.businessId
    metadata := [
      ("settlementId", .str settlementId),
      ("bucketRef", .str r.bucketRef),
      ("amountKobo", .str (toString r.amountKobo)),
      ("nombaTransferReference", .str nombaReference)] }

/-- The request sent to Nomba. `Number(amountKobo)` is exact: the amount was a number before
`BigInt`. -/
def nombaRequest (r : SettlementRequest) (settlementId accountNumber bankCode accountName : String)
    (env : Env) : BankTransferRequest where
  amount := r.amountKobo / 100
  accountNumber := accountNumber
  accountName := accountName
  bankCode := bankCode
  merchantTxRef := s!"stl_{settlementId}_{slice8 env.uuid}"
  narration := r.narration

/-- Execute the transfer outside of the database transaction: the `try` block of `initiate`. -/
def executeTransfer (r : SettlementRequest) (settlementId : String) : Action Unit := do
  if r.dest.type = "INTERNAL_BUCKET" then
    match truthy r.dest.bucketRef with
    | none =>
      throw (.http 400 "destinationBucketRef is required for INTERNAL_BUCKET settlements"
        "VALIDATION_ERROR" [])
    | some destRef => settleInternal r settlementId destRef
  else
    match truthy r.dest.accountNumber, truthy r.dest.bankCode, truthy r.dest.accountName with
    | some accountNumber, some bankCode, some accountName => do
      let sent ← bankTransfer settlementId
        (nombaRequest r settlementId accountNumber bankCode accountName)
      completeSettlement r settlementId sent.merchantTxRef
    | _, _, _ =>
      throw (.http 400 ("Bank destination details required — provide destinationAccountNumber, " ++
        "destinationBankCode, and destinationAccountName") "VALIDATION_ERROR" [])

/-- The `catch` block of `initiate`: mark the settlement FAILED, which releases the reservation,
and throw the error on, an error that is not an `HttpException` as a 502. -/
def failSettlement {α : Type} (r : SettlementRequest) (settlementId : String) (error : Error) :
    Action α := do
  (statement (.updateSettlement settlementId .failed) fun _ =>
    .updateSettlement settlementId {
      status := .failed
      failureReason := some error.message }).catching fun _ => pure ()
  audit {
    actor := "system"
    action := .settlementFailed
    businessId := some r.businessId
    metadata := [
      ("settlementId", .str settlementId),
      ("bucketRef", .str r.bucketRef),
      ("amountKobo", .num r.required),
      ("error", .str error.message)] }
  if error.isHttp then
    throw error
  else
    throw (.http 502 "Settlement failed: Nomba API error" "NOMBA_API_ERROR"
      [("settlementId", .str settlementId), ("error", .str error.message)])

/-- What `initiate` returns, its `status` being `COMPLETED`. -/
structure SettlementResult where
  settlementId : String
  amountKobo : ℚ
deriving DecidableEq, Repr

/-- The steps of `initiate` from TX1 on. -/
def settle (r : SettlementRequest) : Action SettlementResult := do
  let settlement ← reserve r
  statement (.updateSettlement settlement.id .processing) fun _ =>
    .updateSettlement settlement.id { status := .processing }
  (do
    executeTransfer r settlement.id
    return ⟨settlement.id, r.required⟩ : Action SettlementResult).catching
      (failSettlement r settlement.id)

/-- `SettlementService.initiate`. -/
def initiate (bucketRef : String) (dto : CreateSettlementDto) (businessId actor : String) :
    Action SettlementResult := do
  let bucket ← resolveBucket bucketRef businessId
  if bucket.status ≠ .active then
    throw (notActive "Bucket" bucket.status)
  else do
    let amountKobo ← bigIntOrThrow dto.amountKobo
    settle {
      bucketRef
      businessId
      actor
      required := dto.amountKobo
      amountKobo
      dest := resolveDestination dto bucket
      narration := dto.narration }

/-! ### What the transactions do to a database nobody else is using -/

section Run

variable (db : Db)

theorem latestBalance_run_eq_ok {bucketId : String} {r : Int × Db} :
    (latestBalance bucketId).run schema db = .ok r ↔ r = (db.latestBalance bucketId, db) := by
  simp [latestBalance, eq_comm]

theorem reservedKobo_run_eq_ok {bucketId : String} {r : Int × Db} :
    (reservedKobo bucketId).run schema db = .ok r ↔ r = (db.reservedKobo bucketId, db) := by
  simp [reservedKobo, eq_comm]

/-- **What TX1 can do**: the amount is available, and the settlement is created. -/
theorem reserveTx_run_eq_ok {r : SettlementRequest} {env : Env} {s : Settlement} {db' : Db} :
    (reserveTx r env).run schema db = .ok (s, db') ↔
      ∃ b type, db.findBucket r.businessId r.bucketRef = some b ∧
        r.amountKobo ≤ db.latestBalance b.id - db.reservedKobo b.id ∧
        parseDestinationType r.dest.type = some type ∧
        s = r.settlement b.id type env.row ∧ db.createSettlement s = .ok db' := by
  unfold reserveTx
  simp only [Tx.bind_eq, Tx.pure_eq, Tx.run_bind_eq_ok, Tx.run_check_eq_ok,
    lockBucketOr_run_eq_ok, latestBalance_run_eq_ok, reservedKobo_run_eq_ok, Prod.mk.injEq,
    and_assoc, existsAndEq, true_and, not_lt]
  refine exists_congr fun b => ?_
  cases parseDestinationType r.dest.type with
  | none => simp
  | some type =>
    simp only [Tx.run_bind_eq_ok, Tx.run_exec_eq_ok, Tx.run_ret, schema_apply, WriteOp.apply]
    grind

/-- **What TX2 of an external settlement can do**: the DEBIT is written on top of the latest
balance and the settlement is COMPLETED. -/
theorem completeSettlementTx_run_eq_ok {r : SettlementRequest} {settlementId : String}
    {nombaReference : String} {env : Env} {u : Unit} {db' : Db} :
    (completeSettlementTx r settlementId nombaReference env).run schema db = .ok (u, db') ↔
      ∃ b db₁, db.findBucket r.businessId r.bucketRef = some b ∧
        db.createBucketLedgerEntry (r.debit b.id nombaReference env.row (db.latestBalance b.id)) =
          .ok db₁ ∧
        db₁.updateSettlement settlementId (completedData nombaReference env.now) = .ok db' := by
  unfold completeSettlementTx
  simp only [Tx.bind_eq, Tx.run_bind_eq_ok, Tx.run_exec_eq_ok, lockBucketOr_run_eq_ok,
    latestBalance_run_eq_ok, schema_apply, WriteOp.apply, Prod.mk.injEq, and_assoc, existsAndEq,
    true_and]
  grind

/-- When its bucket exists, only a statement of TX2 can fail. -/
theorem completeSettlementTx_run_eq_error {r : SettlementRequest} {settlementId : String}
    {nombaReference : String} {env : Env} {b : TreasuryBucket} {e : Error}
    (hb : db.findBucket r.businessId r.bucketRef = some b)
    (h : (completeSettlementTx r settlementId nombaReference env).run schema db = .error e) :
    ∃ c m, e = .prisma c m := by
  simp only [completeSettlementTx, latestBalance, Tx.bind_eq, Tx.run_bind, lockBucketOr_run, hb,
    Except.bind, Tx.run_query, Tx.run_exec, schema_apply] at h
  cases h₁ : WriteOp.apply (.createBucketLedgerEntry
      (r.debit b.id nombaReference env.row (db.latestBalance b.id))) db with
  | error e₁ =>
    obtain rfl : e₁ = e := by simpa [h₁, Except.map] using h
    exact WriteOp.apply_error _ h₁
  | ok db₁ =>
    simp only [h₁, Except.map] at h
    cases h₂ : WriteOp.apply (.updateSettlement settlementId
        (completedData nombaReference env.now)) db₁ with
    | error e₂ =>
      obtain rfl : e₂ = e := by simpa [h₂] using h
      exact WriteOp.apply_error _ h₂
    | ok db₂ => simp [h₂] at h

/-- **What an internal settlement can do**: the two entries of the move are written, each on top
of its bucket's balance, and the settlement is COMPLETED. -/
theorem settleInternalTx_run_eq_ok {r : SettlementRequest} {settlementId destRef : String}
    {env : Env} {ref : String} {db' : Db} :
    (settleInternalTx r settlementId destRef env).run schema db = .ok (ref, db') ↔
      ∃ s d db₁ db₂, db.findBucket r.businessId r.bucketRef = some s ∧
        db.findBucket r.businessId destRef = some d ∧
        db.createBucketLedgerEntry ((r.move s.id d.id env.uuid).debit env.row (db.balance s.id)) =
          .ok db₁ ∧
        db₁.createBucketLedgerEntry
          ((r.move s.id d.id env.uuid).credit env.row₂ (db.balance d.id)) = .ok db₂ ∧
        db₂.updateSettlement settlementId
          (completedData (r.move s.id d.id env.uuid).ref env.now) = .ok db' ∧
        ref = (r.move s.id d.id env.uuid).ref := by
  unfold settleInternalTx
  simp only [Tx.bind_eq, Tx.pure_eq, Tx.run_bind_eq_ok, Tx.run_exec_eq_ok, Tx.run_ret,
    lockBucketOr_run_eq_ok, computeBalance_run_eq_ok, schema_apply, WriteOp.apply, Prod.mk.injEq,
    and_assoc, existsAndEq, and_true, true_and, Except.ok.injEq]
  grind

end Run

end AccountOS
