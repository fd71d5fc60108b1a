import AccountOS.Store.FindMany
import AccountOS.Treasury.Bucket

/-!
# `TreasuryService.getStatement`

The pages of a bucket's entries. `from`, `to` and `entryType` are texts of the query string that go
to the database client as they are. `rank` is the order of rows of one time. The bucket is looked up
before its entries are; `dbs k` is what query number `k` sees.
-/

namespace AccountOS

open Sql

/-- The query of `GET /treasury-buckets/:ref/statement`. -/
structure StatementFilters where
  dateFrom : Option String := none
  dateTo : Option String := none
  entryType : Option String := none
  cursor : Option String := none
  limit : Option ℚ := none

/-- The names of the entry types. -/
def BucketEntryType.ofName? : String → Option BucketEntryType
  | "CREDIT" => some .credit
  | "DEBIT" => some .debit
  | _ => none

/-- `where.entryType = text`. -/
def entryTypeIs (text : String) : Where BucketLedgerEntry where
  selects e := BucketEntryType.ofName? text = some e.entryType
  accepted := (BucketEntryType.ofName? text).isSome

section GetStatement

variable (client : ClientArguments) (rank : String → Nat) (db : Db) (bucketId : String)
  (filters : StatementFilters)

/-- The `where` of `getStatement`. -/
def statementWhere : Where BucketLedgerEntry :=
  Where.and { selects := fun e => e.bucketId = bucketId } <|
    (Where.ifGiven filters.dateFrom (client.gte BucketLedgerEntry.createdAt)).and <|
    (Where.ifGiven filters.dateTo (client.lte BucketLedgerEntry.createdAt)).and <|
    Where.ifGiven filters.entryType entryTypeIs

/-- The entries that match, `ORDER BY "createdAt" DESC`. -/
def statementEntries : List BucketLedgerEntry :=
  selectRows (statementWhere client bucketId filters)
    (latestFirst BucketLedgerEntry.createdAt BucketLedgerEntry.id rank) db.bucketLedgerEntries

end GetStatement

/-- `TreasuryService.getStatement`. -/
def getStatement (client : ClientArguments) (rank : String → Nat) (dbs : ℕ → Db)
    (filters : StatementFilters) (bucketRef businessId : String) :
    Except Error (Page BucketLedgerEntry String) :=
  match (dbs 0).findBucket businessId bucketRef with
  | none => .error (.http 404 (bucketNotFoundMessage bucketRef) "BUCKET_NOT_FOUND" [])
  | some bucket =>
    let take := min (filters.limit.getD 50) 100
    client.listing BucketLedgerEntry.id (statementWhere client bucket.id filters).accepted
      (statementEntries client rank (dbs 1) bucket.id filters) take take filters.cursor

end AccountOS
