import AccountOS.Codec.Utf16
import AccountOS.Treasury.Allocation

/-!
# `TreasuryService`: locking a bucket, moving value between buckets

`lockBucket` is a `SELECT … FOR UPDATE` by business and reference. The services that have it throw
their own error when there is no such bucket. A transfer debits one bucket and credits another in
one transaction; the settlement of `INTERNAL_BUCKET` destinations writes the same pair of entries.
-/

namespace AccountOS

open Conc Sql

/-! ### Identifiers -/

/-- `s.slice(0, 8)` of an identifier, at the end of a text that goes to the database: eight UTF-16
code units. Half of a surrogate pair is sent as U+FFFD. -/
def slice8 (s : String) : String := String.ofList (Utf16.take 8 s.toList)

/-! ### Finding and locking a bucket -/

/-- `treasuryBucket` by its unique pair of business and reference. -/
def Db.findBucket (db : Db) (businessId bucketRef : String) : Option TreasuryBucket :=
  db.treasuryBuckets.find? fun b => b.businessId = businessId ∧ b.bucketRef = bucketRef

/-- What `lockBucket` returns. -/
structure LockedBucket where
  id : String
  status : AccountStatus
deriving DecidableEq, Repr

/-- `SELECT "id", "status" … FOR UPDATE`. PostgreSQL finds the row, waits for its lock and then
reads the row again, to see if it still is the one that was asked for. -/
def lockBucketOr (notFound : Error) (bucketRef businessId : String) : TxBody LockedBucket := do
  let row ← Tx.query [.bucketRef businessId bucketRef] fun db => db.findBucket businessId bucketRef
  match row with
  | none => .throw notFound
  | some found => do
    Tx.forUpdate (.treasuryBucket found.id)
    let again ← Tx.query [.treasuryBucket found.id] fun db =>
      (db.findBucket businessId bucketRef).filter fun b => b.id = found.id
    match again with
    | none => .throw notFound
    | some b => return ⟨b.id, b.status⟩

/-- The text of every "no such bucket" error. -/
def bucketNotFoundMessage (bucketRef : String) : String :=
  s!"Treasury bucket '{bucketRef}' not found"

/-- `TreasuryService.lockBucket`: a missing bucket is a 404. -/
def lockBucket (bucketRef businessId : String) : TxBody LockedBucket :=
  lockBucketOr (.http 404 (bucketNotFoundMessage bucketRef) "BUCKET_NOT_FOUND" [])
    bucketRef businessId

/-! ### The two entries of a move -/

/-- One value moving from bucket to bucket: what its two entries have in common. -/
structure Move where
  sourceId : String
  destinationId : String
  amountKobo : Int
  ref : String
  narration : Option String
deriving DecidableEq, Repr

/-- The DEBIT of the source. -/
def Move.debit (m : Move) (row : Generated) (sourceBalance : Int) : BucketLedgerEntry where
  id := row.id
  createdAt := row.createdAt
  bucketId := m.sourceId
  entryType := .debit
  amountKobo := m.amountKobo
  cumulativeAmountKobo := sourceBalance - m.amountKobo
  reference := s!"{m.ref}_out"
  narration := m.narration

/-- The CREDIT of the destination. -/
def Move.credit (m : Move) (row : Generated) (destBalance : Int) : BucketLedgerEntry where
  id := row.id
  createdAt := row.createdAt
  bucketId := m.destinationId
  entryType := .credit
  amountKobo := m.amountKobo
  cumulativeAmountKobo := destBalance + m.amountKobo
  reference := s!"{m.ref}_in"
  narration := m.narration

/-! ### `transferBetweenBuckets` -/

/-- The body of `POST /treasury-buckets/:ref/transfer`. The amount is a JSON number that the
validation pipe has checked to be at least `1`. -/
structure TransferBucketDto where
  destinationBucketRef : String
  amountKobo : ℚ
  narration : String
  one_le_amountKobo : 1 ≤ amountKobo

structure TransferOutcome where
  ref : String
  sourceId : String
  destinationId : String
  sourceBalance : Int
  destinationBalance : Int
deriving DecidableEq, Repr

/-- What `transferBetweenBuckets` returns, its `status` being `COMPLETED`. -/
structure TransferResult where
  reference : String
  amountKobo : ℚ
  sourceBalanceKobo : Int
  destinationBalanceKobo : Int
deriving DecidableEq, Repr

def notActive (what : String) (status : AccountStatus) : Error :=
  .http 400 s!"{what} is not active (status: {status})" "ACCOUNT_NOT_ACTIVE" []

def insufficientBucketBalance (required available : Int) : Error :=
  .http 422
    s!"Insufficient bucket balance. Required: {required} kobo, Available: {available} kobo"
    "INSUFFICIENT_BUCKET_BALANCE" []

/-- The transaction of `transferBetweenBuckets`. -/
def transferTx (sourceBucketRef destinationBucketRef businessId : String) (amountKobo : Int)
    (narration : Option String) (env : Env) : TxBody TransferOutcome := do
  let source ← lockBucket sourceBucketRef businessId
  let destination ← lockBucket destinationBucketRef businessId
  if source.status ≠ .active then
    .throw (notActive "Source bucket" source.status)
  else if destination.status ≠ .active then
    .throw (notActive "Destination bucket" destination.status)
  else do
    let sourceBalance ← computeBalance source.id
    if sourceBalance < amountKobo then
      .throw (insufficientBucketBalance amountKobo sourceBalance)
    else do
      let ref := s!"xfer_{env.uuid}"
      let destBalance ← computeBalance destination.id
      let move : Move := ⟨source.id, destination.id, amountKobo, ref, narration⟩
      Tx.exec (.createBucketLedgerEntry (move.debit env.row sourceBalance))
      Tx.exec (.createBucketLedgerEntry (move.credit env.row₂ destBalance))
      return ⟨ref, source.id, destination.id, sourceBalance - amountKobo,
        destBalance + amountKobo⟩

/-- `TreasuryService.transferBetweenBuckets`. -/
def transferBetweenBuckets (sourceBucketRef : String) (dto : TransferBucketDto)
    (businessId actor : String) : Action TransferResult := do
  if dto.destinationBucketRef = sourceBucketRef then
    throw (.http 400 "Source and destination buckets must differ" "VALIDATION_ERROR" [])
  else do
    let amountKobo ← bigIntOrThrow dto.amountKobo
    let result ← transaction
      (.transferBetweenBuckets businessId sourceBucketRef dto.destinationBucketRef amountKobo)
      (transferTx sourceBucketRef dto.destinationBucketRef businessId amountKobo
        (some dto.narration))
    audit {
      actor
      action := .bucketTransfer
      businessId := some businessId
      metadata := [
        ("reference", .str result.ref),
        ("sourceBucketRef", .str sourceBucketRef),
        ("destinationBucketRef", .str dto.destinationBucketRef),
        ("amountKobo", .num dto.amountKobo)] }
    return ⟨result.ref, dto.amountKobo, result.sourceBalance, result.destinationBalance⟩

/-! ### What they do to a database nobody else is using -/

section Run

variable (db : Db)

theorem findBucket_eq_some {businessId bucketRef : String} {b : TreasuryBucket}
    (h : db.findBucket businessId bucketRef = some b) :
    b ∈ db.treasuryBuckets ∧ b.businessId = businessId ∧ b.bucketRef = bucketRef :=
  ⟨List.mem_of_find?_eq_some h, by simpa using List.find?_some h⟩

/-- Alone, locking a bucket is finding it. -/
theorem lockBucketOr_run (notFound : Error) (bucketRef businessId : String) :
    (lockBucketOr notFound bucketRef businessId).run schema db =
      match db.findBucket businessId bucketRef with
      | none => .error notFound
      | some b => .ok (⟨b.id, b.status⟩, db) := by
  cases h : db.findBucket businessId bucketRef <;>
    simp [lockBucketOr, Except.bind, h, Option.filter]

theorem lockBucketOr_run_eq_ok {notFound : Error} {bucketRef businessId : String}
    {r : LockedBucket × Db} :
    (lockBucketOr notFound bucketRef businessId).run schema db = .ok r ↔
      ∃ b, db.findBucket businessId bucketRef = some b ∧ r = (⟨b.id, b.status⟩, db) := by
  rw [lockBucketOr_run]
  cases db.findBucket businessId bucketRef <;> simp [eq_comm]

/-- **What a transfer can do**: both buckets exist and are active, the source has the amount, and
the two entries of the move are written, each on top of its bucket's balance. -/
theorem transferTx_run_eq_ok {sourceRef destRef businessId : String} {amountKobo : Int}
    {narration : Option String} {env : Env} {r : TransferOutcome} {db' : Db} :
    (transferTx sourceRef destRef businessId amountKobo narration env).run schema db =
        .ok (r, db') ↔
      ∃ s d db₁, db.findBucket businessId sourceRef = some s ∧
        db.findBucket businessId destRef = some d ∧ s.status = .active ∧ d.status = .active ∧
        amountKobo ≤ db.balance s.id ∧
        db.createBucketLedgerEntry
          (Move.debit ⟨s.id, d.id, amountKobo, s!"xfer_{env.uuid}", narration⟩ env.row
            (db.balance s.id)) = .ok db₁ ∧
        db₁.createBucketLedgerEntry
          (Move.credit ⟨s.id, d.id, amountKobo, s!"xfer_{env.uuid}", narration⟩ env.row₂
            (db.balance d.id)) = .ok db' ∧
        r = ⟨s!"xfer_{env.uuid}", s.id, d.id, db.balance s.id - amountKobo,
          db.balance d.id + amountKobo⟩ := by
  unfold transferTx lockBucket
  simp only [Tx.bind_eq, Tx.pure_eq, Tx.run_bind_eq_ok, Tx.run_check_eq_ok, Tx.run_exec_eq_ok,
    Tx.run_ret, lockBucketOr_run_eq_ok, computeBalance_run_eq_ok, schema_apply, WriteOp.apply,
    Prod.mk.injEq, and_assoc, existsAndEq, and_true, true_and, ne_eq, not_not, not_lt,
    Except.ok.injEq]
  grind

end Run

end AccountOS
