import AccountOS.Store.Registry
import AccountOS.Treasury.Close

/-!
# `TreasuryService`: provisioning and renaming a bucket

A bucket is a row and nothing else: no virtual account stands behind it. Its reference is unique in
its business.
-/

namespace AccountOS

open Conc Sql

/-! ### `provisionBucket` -/

structure CreateBucketDto where
  bucketRef : String
  name : String
  bucketType : BucketType
  description : Option String := none
  settlementType : Option SettlementDestinationType := none
  settlementAccountName : Option String := none
  settlementAccountNumber : Option String := none
  settlementBankCode : Option String := none
deriving DecidableEq, Repr

/-- The new bucket. -/
def CreateBucketDto.bucket (dto : CreateBucketDto) (businessId : String) (row : Generated) :
    TreasuryBucket where
  id := row.id
  bucketRef := dto.bucketRef
  name := dto.name
  bucketType := dto.bucketType
  description := dto.description
  businessId := businessId
  settlementType := dto.settlementType
  settlementAccountName := dto.settlementAccountName
  settlementAccountNumber := dto.settlementAccountNumber
  settlementBankCode := dto.settlementBankCode

/-- `TreasuryService.provisionBucket`; the bucket it returns has a balance of `0`. -/
def provisionBucket (dto : CreateBucketDto) (businessId : String) : Action TreasuryBucket := do
  let existing ← find (.findBucket businessId dto.bucketRef) fun _ db =>
    (db.findBucket businessId dto.bucketRef).map TreasuryBucket.id
  match existing with
  | some _ =>
    throw (.http 409 s!"Treasury bucket with ref '{dto.bucketRef}' already exists"
      "DUPLICATE_ACCOUNT_REF" [])
  | none => do
    let bucket ← register (.createBucket businessId dto.bucketRef)
      (fun env => .createTreasuryBucket (dto.bucket businessId env.row))
      fun env _ => dto.bucket businessId env.row
    audit {
      actor := "system"
      action := .treasuryBucketCreated
      businessId := some businessId
      afterState := [
        ("bucketRef", .str bucket.bucketRef),
        ("bucketType", .str (toString bucket.bucketType)),
        ("name", .str bucket.name),
        ("description", .ofOption bucket.description),
        ("settlementType", .ofOption (bucket.settlementType.map toString))] }
    return bucket

/-! ### `renameBucket` -/

structure RenameBucketDto where
  name : String
deriving DecidableEq, Repr

/-- `treasuryBucket` by its id. -/
def Db.findBucketById (db : Db) (id : String) : Option TreasuryBucket :=
  db.treasuryBuckets.find? fun b => b.id = id

/-- `TreasuryService.renameBucket`. -/
def renameBucket (bucketRef : String) (dto : RenameBucketDto) (businessId : String) :
    Action (Option TreasuryBucket) := do
  let bucket ← resolveTreasuryBucket bucketRef businessId
  register (.updateBucket bucket.id) (fun _ => .renameBucket bucket.id dto.name)
    fun _ db => db.findBucketById bucket.id

end AccountOS
