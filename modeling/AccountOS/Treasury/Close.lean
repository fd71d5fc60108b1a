import AccountOS.Rules.RuleEngine
import AccountOS.Treasury.Operations

/-!
# `TreasuryService.closeBucket`

A bucket is closed when there is nothing in it and nothing reserved: three reads and an update, each
a transaction of its own. `TreasuryCommand` has every operation that looks at the status of a
bucket, to be run one after the other.
-/

namespace AccountOS

open Conc Sql

/-! ### Updating a bucket -/

/-- `treasuryBucket.update { status }`. -/
def Db.updateBucketStatus (db : Db) (id : String) (status : AccountStatus) : Except Error Db :=
  if ∀ b ∈ db.treasuryBuckets, b.id ≠ id then
    .error .recordNotFound
  else
    .ok { db with
      treasuryBuckets := updateRow TreasuryBucket.id id (fun b => { b with status })
        db.treasuryBuckets }

theorem Db.updateBucketStatus_eq_ok {db db' : Db} {id : String} {status : AccountStatus} :
    db.updateBucketStatus id status = .ok db' ↔
      (∃ b ∈ db.treasuryBuckets, b.id = id) ∧
      db' = { db with
        treasuryBuckets :=
          updateRow TreasuryBucket.id id (fun b => { b with status }) db.treasuryBuckets } := by
  simp only [updateBucketStatus, check_eq_ok, Except.ok.injEq]
  push Not
  simp only [eq_comm]

theorem Db.UniqueColumns.updateBucketStatus {db db' : Db} (h : db.UniqueColumns) {id : String}
    {status : AccountStatus} (hop : db.updateBucketStatus id status = .ok db') :
    db'.UniqueColumns := by
  obtain ⟨-, rfl⟩ := Db.updateBucketStatus_eq_ok.1 hop
  exact { h with treasuryBuckets := nodup_map_updateRow (fun _ => by rfl) h.treasuryBuckets }

/-- The update as a call. It returns the time it was made at. -/
def updateBucketStatusStep (id : String) (status : AccountStatus) (env : Env) (w : World) :
    Except Error Nat × World :=
  match env.fault with
  | some f => (.error f.error, w.recordFault f)
  | none =>
    match w.db.updateBucketStatus id status with
    | .ok db => (.ok env.now, { w with db })
    | .error e => (.error e, w.recordError e)

def updateBucketStatus (id : String) (status : AccountStatus) : Action Nat :=
  Proc.call (.updateBucket id) (updateBucketStatusStep id status)

/-- **What the update can do**: take effect, or fail without one. -/
theorem updateBucketStatusStep_cases (id : String) (status : AccountStatus) (env : Env)
    (w : World) :
    (∃ db, w.db.updateBucketStatus id status = .ok db ∧
      updateBucketStatusStep id status env w = (.ok env.now, { w with db })) ∨
    (∃ e w', updateBucketStatusStep id status env w = (.error e, w') ∧ World.SameData w w') := by
  unfold updateBucketStatusStep
  split
  next f hf => exact .inr ⟨_, _, rfl, w.sameData_recordFault f⟩
  next hf =>
    split
    next db hdb => exact .inl ⟨db, hdb, rfl⟩
    next e he => exact .inr ⟨e, _, rfl, w.sameData_recordError e⟩

/-! ### The service -/

/-- `TreasuryService.resolveBucket`: a missing bucket is a 404. -/
def resolveTreasuryBucket (bucketRef businessId : String) : Action TreasuryBucket := do
  let bucket ← find (.findBucket businessId bucketRef) fun _ db =>
    db.findBucket businessId bucketRef
  match bucket with
  | none => throw (.http 404 (bucketNotFoundMessage bucketRef) "BUCKET_NOT_FOUND" [])
  | some b => return b

/-- `TreasuryService.balanceOf`. -/
def balanceOf (bucketId : String) : Action Int :=
  transaction (.balanceOf bucketId) fun _ => computeBalance bucketId

/-- `SettlementService.reservedKobo` in a transaction of its own. -/
def reservedOf (bucketId : String) : Action Int :=
  transaction (.reservedKobo bucketId) fun _ => reservedKobo bucketId

def bucketAlreadyClosed : Error :=
  .http 400 "Treasury bucket is already closed" "ACCOUNT_ALREADY_CLOSED" []

def bucketNotEmpty (balance reserved : Int) : Error :=
  .http 400 (s!"Treasury bucket has a non-zero balance ({balance} kobo) or pending reservations " ++
    s!"({reserved} kobo) — settle or transfer funds before closing")
    "INSUFFICIENT_BUCKET_BALANCE" []

/-- `TreasuryService.closeBucket`. -/
def closeBucket (bucketRef businessId actor : String) : Action TreasuryBucket := do
  let bucket ← resolveTreasuryBucket bucketRef businessId
  if bucket.status = .closed then
    throw bucketAlreadyClosed
  else do
    let balance ← balanceOf bucket.id
    let reserved ← reservedOf bucket.id
    if balance ≠ 0 ∨ reserved ≠ 0 then
      throw (bucketNotEmpty balance reserved)
    else do
      let closedAt ← updateBucketStatus bucket.id .closed
      audit {
        actor
        action := .treasuryBucketClosed
        businessId := some businessId
        beforeState := [("status", .str (toString bucket.status))]
        afterState := [("status", .str "CLOSED"), ("closedAt", .num closedAt)]
        reasonCode := some "BUCKET_CLOSED" }
      return { bucket with status := .closed }

/-! ### Operations one at a time -/

/-- An operation that depends on the status of a bucket. -/
inductive TreasuryCommand
  | execute (rule : EvaluatedRule) (ledgerEntry : TriggerEntry)
  | transferBetweenBuckets (sourceBucketRef : String) (dto : TransferBucketDto)
      (businessId actor : String)
  | initiate (bucketRef : String) (dto : CreateSettlementDto) (businessId actor : String)
  | closeBucket (bucketRef businessId actor : String)

namespace TreasuryCommand

/-- Run one operation, without its answer. -/
def run : TreasuryCommand → Action Unit
  | execute rule ledgerEntry => (AccountOS.execute rule ledgerEntry).bind fun _ => .ret ()
  | transferBetweenBuckets sourceBucketRef dto businessId actor =>
    (AccountOS.transferBetweenBuckets sourceBucketRef dto businessId actor).bind fun _ => .ret ()
  | initiate bucketRef dto businessId actor =>
    (AccountOS.initiate bucketRef dto businessId actor).bind fun _ => .ret ()
  | closeBucket bucketRef businessId actor =>
    (AccountOS.closeBucket bucketRef businessId actor).bind fun _ => .ret ()

/-- Run operations one after the other; an error ends an operation but not the ones after it. -/
def runAll : List TreasuryCommand → Action Unit
  | [] => .ret ()
  | op :: ops => (op.run.catching fun _ => .ret ()).bind fun _ => runAll ops

end TreasuryCommand

end AccountOS
