import AccountOS.Store.Client

/-!
# `AllocationService`

Crediting a treasury bucket, and the balance every service agrees on: the sum of a bucket's
CREDIT entries minus the sum of its DEBIT entries.
-/

namespace AccountOS

open Conc Sql

/-! ### Balances -/

namespace Db

/-- `aggregate { bucketId, entryType } _sum amountKobo`, `0` for no entries. -/
def entrySum (db : Db) (bucketId : String) (entryType : BucketEntryType) : Int :=
  sumWhere (fun e => e.bucketId = bucketId ∧ e.entryType = entryType) BucketLedgerEntry.amountKobo
    db.bucketLedgerEntries

/-- The sum of a bucket's CREDIT entries minus the sum of its DEBIT entries. -/
def balance (db : Db) (bucketId : String) : Int :=
  db.entrySum bucketId .credit - db.entrySum bucketId .debit

/-- `bucketLedgerEntry.findUnique { reference }`. -/
def findEntry (db : Db) (reference : String) : Option BucketLedgerEntry :=
  db.bucketLedgerEntries.find? fun e => e.reference = reference

end Db

/-- `AllocationService.computeBalance`. -/
def computeBalance (bucketId : String) : TxBody Int := do
  let credit ← Tx.query [.entriesOf bucketId] fun db => db.entrySum bucketId .credit
  let debit ← Tx.query [.entriesOf bucketId] fun db => db.entrySum bucketId .debit
  return credit - debit

/-! ### `credit` -/

/-- The parameters of `AllocationService.credit`. -/
structure CreditParams where
  bucketId : String
  businessId : String
  amountKobo : Int
  reference : String
  sourceLedgerEntryId : Option String := none
  narration : Option String := none
  sourceAccountRef : Option String := none
deriving DecidableEq, Repr

/-- The entry that a credit writes on top of the balance it has read. -/
def CreditParams.entry (p : CreditParams) (row : Generated) (balance : Int) :
    BucketLedgerEntry where
  id := row.id
  createdAt := row.createdAt
  bucketId := p.bucketId
  entryType := .credit
  amountKobo := p.amountKobo
  cumulativeAmountKobo := balance + p.amountKobo
  reference := p.reference
  sourceLedgerEntryId := p.sourceLedgerEntryId
  narration := p.narration

/-- The transaction of `credit`. An entry with the same reference makes it a no-op that returns
that entry's cumulative amount. -/
def creditTx (p : CreditParams) (row : Generated) : TxBody Int := do
  let existing ← Tx.query [.entryReference p.reference] fun db => db.findEntry p.reference
  match existing with
  | some e => return e.cumulativeAmountKobo
  | none => do
    let balance ← computeBalance p.bucketId
    let newBalance := balance + p.amountKobo
    Tx.exec (.createBucketLedgerEntry (p.entry row balance))
    return newBalance

/-- `runSerializable`: run a transaction, again after each serialization failure (P2034) as long
as retries are left. -/
def runSerializable {σ χ ℓ α : Type} (fn : Proc σ χ ℓ Error α) : Nat → Proc σ χ ℓ Error α
  | 0 => fn
  | retries + 1 => fn.catching fun err =>
      if err.hasCode "P2034" then runSerializable fn retries else .raise err

/-- `maxRetries` of `runSerializable`. -/
def maxRetries : Nat := 5

/-- `AllocationService.credit`. -/
def credit (p : CreditParams) : Action Int := do
  let cumulative ← runSerializable
    (transaction (.credit p.bucketId p.reference p.amountKobo) fun env => creditTx p env.row)
    maxRetries
  audit {
    actor := "system"
    action := .allocateFunds
    businessId := some p.businessId
    metadata := [
      ("bucketId", .str p.bucketId),
      ("amountKobo", .str (toString p.amountKobo)),
      ("reference", .str p.reference),
      ("sourceAccountRef", .ofOption p.sourceAccountRef),
      ("cumulativeAmountKobo", .str (toString cumulative))] }
  return cumulative

/-! ### What they do to a database nobody else is using -/

section Run

variable (db : Db)

@[simp] theorem computeBalance_run (bucketId : String) :
    (computeBalance bucketId).run schema db = .ok (db.balance bucketId, db) := rfl

theorem computeBalance_run_eq_ok {bucketId : String} {r : Int × Db} :
    (computeBalance bucketId).run schema db = .ok r ↔ r = (db.balance bucketId, db) := by
  rw [computeBalance_run, Except.ok.injEq, eq_comm]

theorem findEntry_eq_none_iff {reference : String} :
    db.findEntry reference = none ↔ ∀ e ∈ db.bucketLedgerEntries, e.reference ≠ reference := by
  simp [Db.findEntry]

theorem findEntry_eq_some {reference : String} {e : BucketLedgerEntry}
    (h : db.findEntry reference = some e) :
    e ∈ db.bucketLedgerEntries ∧ e.reference = reference :=
  ⟨List.mem_of_find?_eq_some h, by simpa using List.find?_some h⟩

/-- A credit whose reference is taken changes nothing. -/
theorem creditTx_run_of_some {p : CreditParams} {row : Generated} {e : BucketLedgerEntry}
    (h : db.findEntry p.reference = some e) :
    (creditTx p row).run schema db = .ok (e.cumulativeAmountKobo, db) := by
  simp [creditTx, Except.bind, h]

/-- A credit whose reference is free adds one entry on top of the balance. -/
theorem creditTx_run_of_none {p : CreditParams} {row : Generated}
    (h : db.findEntry p.reference = none) :
    (creditTx p row).run schema db =
      (db.createBucketLedgerEntry (p.entry row (db.balance p.bucketId))).map
        fun db' => (db.balance p.bucketId + p.amountKobo, db') := by
  simp only [creditTx, Tx.bind_eq, Tx.run_bind, Tx.run_query, Except.bind, h, computeBalance_run,
    Tx.run_exec, schema_apply, WriteOp.apply, Tx.pure_eq]
  cases db.createBucketLedgerEntry (p.entry row (db.balance p.bucketId)) <;> rfl

/-- **What a credit can do**: nothing, when an entry already carries its reference, or else add
one CREDIT entry that stores the new balance. -/
theorem creditTx_run_eq_ok {p : CreditParams} {row : Generated} {a : Int} {db' : Db} :
    (creditTx p row).run schema db = .ok (a, db') ↔
      (∃ e ∈ db.findEntry p.reference, a = e.cumulativeAmountKobo ∧ db' = db) ∨
      (db.findEntry p.reference = none ∧ a = db.balance p.bucketId + p.amountKobo ∧
        db.createBucketLedgerEntry (p.entry row (db.balance p.bucketId)) = .ok db') := by
  cases h : db.findEntry p.reference with
  | some e =>
    rw [creditTx_run_of_some db h]
    simp [eq_comm]
  | none =>
    rw [creditTx_run_of_none db h]
    cases db.createBucketLedgerEntry (p.entry row (db.balance p.bucketId)) <;>
      simp [Except.map, eq_comm]

end Run

end AccountOS
