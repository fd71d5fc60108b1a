import AccountOS.Ledger.Ledger
import AccountOS.Store.FindMany
import AccountOS.Store.Texts

/-!
# `LedgerService`: what is read of a ledger

The pages of an account's entries, their summary, and their export as CSV. They are functions of the
database, and a method that makes several queries is one of what each of them sees; `rank` is the order
in which a query returns rows of one time.
-/

namespace AccountOS

open Sql

/-! ### `getEntries` -/

/-- The query of `GET /accounts/:ref/ledger`. The validation pipe has made `limit` a finite number,
and `reconciliationStatus` one of the four. -/
structure LedgerFiltersDto where
  dateFrom : Option String := none
  dateTo : Option String := none
  reconciliationStatus : Option ReconciliationStatus := none
  cursor : Option String := none
  limit : Option ℚ := none

section GetEntries

variable (client : ClientArguments) (rank : String → Nat) (db : Db) (accountId : String)
  (filters : LedgerFiltersDto)

/-- The `where` of `getEntries`. -/
def entriesWhere : Where LedgerEntry :=
  Where.and { selects := fun e => e.accountId = accountId } <|
    (Where.ifGiven filters.dateFrom (client.gte LedgerEntry.receivedAt)).and <|
    (Where.ifGiven filters.dateTo (client.lte LedgerEntry.receivedAt)).and
    { selects := fun e => filters.reconciliationStatus.all fun s => e.reconciliationStatus = s }

/-- The entries that match, `ORDER BY "receivedAt" DESC`. -/
def matchingEntries : List LedgerEntry :=
  selectRows (entriesWhere client accountId filters)
    (latestFirst LedgerEntry.receivedAt LedgerEntry.id rank) db.ledgerEntries

/-- `LedgerService.getEntries`: the query has at most 100 rows, and the number of rows that have come
is compared with the limit as it was asked for. -/
def getEntries : Except Error (Page LedgerEntry String) :=
  let take := filters.limit.getD 50
  client.listing LedgerEntry.id (entriesWhere client accountId filters).accepted
    (matchingEntries client rank db accountId filters) (min take 100) take filters.cursor

end GetEntries

/-! ### `getSummary` -/

/-- What `getSummary` returns. The breakdown has the statuses that occur. -/
structure LedgerSummary where
  totalInflows : Nat
  totalAmountKobo : Int
  lastInflowAt : Option Nat
  reconciliationBreakdown : List (ReconciliationStatus × Nat)
deriving DecidableEq, Repr

/-- `groupBy: ['reconciliationStatus']` of the inflows, with their numbers. -/
def Db.inflowsByStatus (db : Db) (accountId : String) : List (ReconciliationStatus × Nat) :=
  let count (s : ReconciliationStatus) :=
    ((db.inflowsOf accountId).filter fun e => e.reconciliationStatus = s).length
  ([.pending, .matched, .unmatched, .flagged].filter fun s => 0 < count s).map fun s => (s, count s)

/-- `LedgerService.getSummary`. Its four queries are made at the same time; `dbs k` is what query
number `k` sees. -/
def getSummary (dbs : ℕ → Db) (accountId : String) : LedgerSummary where
  totalInflows := ((dbs 0).inflowsOf accountId).length
  totalAmountKobo := (dbs 1).inflowSum accountId
  reconciliationBreakdown := (dbs 2).inflowsByStatus accountId
  lastInflowAt := (((dbs 3).inflowsOf accountId).map LedgerEntry.receivedAt).max?

/-! ### `exportCsv` -/

/-- A value that spreadsheets would read as a formula: `/^[=+\-@\t\r]/`. -/
def IsFormula (s : String) : Prop :=
  ∃ c ∈ s.toList.head?, c ∈ ['=', '+', '-', '@', '\t', '\r']

instance (s : String) : Decidable (IsFormula s) :=
  decidable_of_iff (s.toList.head?.any fun c => c ∈ ['=', '+', '-', '@', '\t', '\r'])
    (by cases h : s.toList.head? <;> simp [IsFormula, h])

/-- `csvCell`: a formula gets a single quote in front, and quotes are doubled. -/
def csvCell (value : String) : String :=
  let s := if IsFormula value then "'" ++ value else value
  "\"" ++ String.ofList (s.toList.flatMap fun c => if c = '"' then ['"', '"'] else [c]) ++ "\""

def exportHeader : String :=
  "entryId,nombaTransactionRef,direction,amountNgn,currency,senderName,customerNameSnapshot," ++
    "kycTierAtTime,reconciliationStatus,receivedAt"

/-- The values of a row, as texts. -/
def LedgerEntry.exportValues (e : LedgerEntry) : List String :=
  [e.id, e.nombaTransactionRef, toString e.direction, numberText (bigIntDiv e.amountKobo 100),
    e.currency, e.senderName.getD "", e.customerNameSnapshot, toString e.kycTierAtTime,
    toString e.reconciliationStatus, toISOString e.receivedAt]

def exportRow (e : LedgerEntry) : String :=
  ",".intercalate (e.exportValues.map csvCell)

/-- The entries of an account, `ORDER BY "receivedAt" ASC`. -/
def exportedEntries (rank : String → Nat) (db : Db) (accountId : String) : List LedgerEntry :=
  selectRows { selects := fun e => e.accountId = accountId }
    (earliestFirst LedgerEntry.receivedAt LedgerEntry.id rank) db.ledgerEntries

/-- `LedgerService.exportCsv`. -/
def exportCsv (rank : String → Nat) (db : Db) (accountId : String) : String :=
  "\n".intercalate (exportHeader :: (exportedEntries rank db accountId).map exportRow)

end AccountOS
