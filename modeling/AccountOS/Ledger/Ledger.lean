import AccountOS.Store.Client

/-!
# `LedgerService`

The ledger of inflows. `writeInflow` adds an entry that stores the account's running total; the
lock on the account's row makes inflows of one account wait for each other. An entry's
reconciliation status is the only column that is ever updated.
-/

namespace AccountOS

open Conc Sql

/-! ### Queries -/

namespace Db

/-- `aggregate { accountId, direction: INFLOW } _sum amountKobo`, `0` for no entries. -/
def inflowSum (db : Db) (accountId : String) : Int :=
  sumWhere (fun e => e.accountId = accountId ∧ e.direction = .inflow) LedgerEntry.amountKobo
    db.ledgerEntries

/-- The INFLOW entries of an account, in commit order. -/
def inflowsOf (db : Db) (accountId : String) : List LedgerEntry :=
  db.ledgerEntries.filter fun e => e.accountId = accountId ∧ e.direction = .inflow

/-- `ledgerEntry.findFirst { nombaTransactionRef }`. -/
def findLedgerEntry (db : Db) (nombaTransactionRef : String) : Option LedgerEntry :=
  db.ledgerEntries.find? fun e => e.nombaTransactionRef = nombaTransactionRef

end Db

/-! ### `writeInflow` -/

structure WriteInflowDto where
  accountId : String
  nombaTransactionRef : String
  nombaEventId : String
  amountKobo : ℚ
  senderName : Option String := none
  senderAccountNumber : Option String := none
  senderBankCode : Option String := none
  narration : Option String := none
  customerNameSnapshot : Option String := none
  kycTierAtTime : Option KycTier := none
deriving DecidableEq, Repr

/-- The entry that `writeInflow` adds on top of what the account has received before. -/
def WriteInflowDto.entry (dto : WriteInflowDto) (reconciliationStatus : ReconciliationStatus)
    (env : Env) (amountKobo priorTotal : Int) : LedgerEntry where
  id := env.row.id
  createdAt := env.row.createdAt
  accountId := dto.accountId
  nombaTransactionRef := dto.nombaTransactionRef
  nombaEventId := dto.nombaEventId
  direction := .inflow
  amountKobo := amountKobo
  currency := "NGN"
  senderName := dto.senderName
  senderAccountNumber := dto.senderAccountNumber
  senderBankCode := dto.senderBankCode
  narration := dto.narration
  customerNameSnapshot := dto.customerNameSnapshot.getD "Unknown"
  kycTierAtTime := dto.kycTierAtTime.getD .tier0
  cumulativeAmountKobo := priorTotal + amountKobo
  reconciliationStatus := reconciliationStatus
  receivedAt := env.now

/-- The transaction of `writeInflow`. -/
def writeInflowTx (dto : WriteInflowDto) (reconciliationStatus : ReconciliationStatus)
    (env : Env) : TxBody Int := do
  Tx.forUpdate (.account dto.accountId)
  let priorTotal ← Tx.query [.ledgerEntriesOf dto.accountId] fun db => db.inflowSum dto.accountId
  match bigInt dto.amountKobo with
  | .error e => .throw (.ofRangeError e)
  | .ok amountKobo => do
    Tx.exec (.createLedgerEntry (dto.entry reconciliationStatus env amountKobo priorTotal))
    return priorTotal + amountKobo

/-- `LedgerService.writeInflow`: the cumulative amount after this inflow. -/
def writeInflow (dto : WriteInflowDto) (reconciliationStatus : ReconciliationStatus) :
    Action Int :=
  transaction (.writeInflow dto.nombaTransactionRef) (writeInflowTx dto reconciliationStatus)

/-- `LedgerService.updateReconciliationStatus`. -/
def updateReconciliationStatus (nombaTransactionRef : String) (status : ReconciliationStatus) :
    Action Unit :=
  statement (.updateReconciliation status) fun _ =>
    .updateReconciliationByRef nombaTransactionRef status

/-! ### What they do to a database nobody else is using -/

section Run

variable (db : Db)

/-- What `writeInflow` does: it adds one entry, unless the amount is not an integer. -/
theorem writeInflowTx_run {dto : WriteInflowDto} {status : ReconciliationStatus} {env : Env} :
    (writeInflowTx dto status env).run schema db =
      match bigInt dto.amountKobo with
      | .error e => .error (.ofRangeError e)
      | .ok amountKobo =>
        (db.createLedgerEntry (dto.entry status env amountKobo (db.inflowSum dto.accountId))).map
          fun db' => (db.inflowSum dto.accountId + amountKobo, db') := by
  simp only [writeInflowTx, Tx.bind_eq, Tx.run_bind, Tx.run_forUpdate, Tx.run_query, Except.bind]
  cases bigInt dto.amountKobo with
  | error e => rfl
  | ok amountKobo =>
    simp only [Tx.run_bind, Tx.run_exec, schema_apply, WriteOp.apply]
    cases db.createLedgerEntry (dto.entry status env amountKobo (db.inflowSum dto.accountId)) <;>
      rfl

/-- **What `writeInflow` can do**: add one entry, of an integral amount, on top of the account's
total. -/
theorem writeInflowTx_run_eq_ok {dto : WriteInflowDto} {status : ReconciliationStatus} {env : Env}
    {total : Int} {db' : Db} :
    (writeInflowTx dto status env).run schema db = .ok (total, db') ↔
      ∃ amountKobo : Int, dto.amountKobo = amountKobo ∧
        total = db.inflowSum dto.accountId + amountKobo ∧
        db.createLedgerEntry (dto.entry status env amountKobo (db.inflowSum dto.accountId)) =
          .ok db' := by
  have hdto : ∀ n : Int, dto.amountKobo = n ↔ bigInt dto.amountKobo = .ok n :=
    fun n => bigInt_eq_ok.symm
  simp only [writeInflowTx, Tx.bind_eq, Tx.run_bind_eq_ok, Tx.run_forUpdate, Tx.run_query,
    Except.ok.injEq, Prod.mk.injEq, and_assoc, existsAndEq, true_and, hdto]
  cases bigInt dto.amountKobo with
  | error e => simp
  | ok amountKobo =>
    simp only [Tx.run_bind_eq_ok, Tx.run_exec_eq_ok, Tx.pure_eq, Tx.run_ret, schema_apply,
      WriteOp.apply, Except.ok.injEq, Prod.mk.injEq, existsAndEq, true_and]
    grind

theorem findLedgerEntry_eq_some {ref : String} {e : LedgerEntry}
    (h : db.findLedgerEntry ref = some e) : e ∈ db.ledgerEntries ∧ e.nombaTransactionRef = ref :=
  ⟨List.mem_of_find?_eq_some h, by simpa using List.find?_some h⟩

end Run

end AccountOS
