import AccountOS.Accounts.AccountLifecycle
import AccountOS.Ledger.Queries
import AccountOS.Store.OffsetListing
import AccountOS.Treasury.Settlement
import AccountOS.Treasury.Statement

/-!
# What a business reads

The methods behind the `GET` routes. Each of them makes a few queries, and other requests may write
between two of them: a method is a function of the states that its queries see, `dbs k` for query
number `k`. The cursor of a paged ledger is any text, maybe the id of a row of somebody else.
-/

namespace AccountOS

open Sql

/-- `rank` is the order of rows of one time, and `createdAt` that column of a customer or bucket, by its
id. -/
structure ReadConfig where
  client : ClientArguments
  rank : String → Nat
  createdAt : String → Nat

/-- The numbers of a paged listing, with the defaults of the controllers; `none` is `NaN`. -/
structure PageQuery where
  page : Option Int := some 1
  limit : Option Int := some 20
deriving DecidableEq, Repr

/-! ### `IdentityService` -/

/-- A customer as it is listed, with the number of its accounts. -/
structure CustomerItem where
  id : String
  displayName : String
  kycTier : KycTier
  accounts : Nat
deriving DecidableEq, Repr

/-- The accounts of a customer. -/
def Db.accountsOf (db : Db) (customerId : String) : List Account :=
  db.accounts.filter fun a => a.customerId = some customerId

def customerItem (db : Db) (c : Customer) : CustomerItem :=
  ⟨c.id, c.displayName, c.kycTier, (db.accountsOf c.id).length⟩

/-- `where: { businessId }`, `ORDER BY "createdAt" DESC`. -/
def listedCustomers (config : ReadConfig) (db : Db) (businessId : String) : List Customer :=
  selectRows { selects := fun c => c.businessId = businessId }
    (latestFirst (fun c => config.createdAt c.id) Customer.id config.rank) db.customers

/-- `IdentityService.listCustomers`: a page has at most 100 customers. -/
def listCustomers (config : ReadConfig) (dbs : ℕ → Db) (businessId : String) (q : PageQuery) :
    Except Error (OffsetPage CustomerItem) :=
  config.client.offsetListing true
    ((listedCustomers config (dbs 0) businessId).map (customerItem (dbs 0)))
    (listedCustomers config (dbs 1) businessId).length q.page (q.limit.map fun n => min n 100)

structure CustomerDetails where
  customer : Customer
  nameHistory : List NameHistoryEntry
  accounts : List Account
deriving DecidableEq, Repr

/-- `IdentityService.getCustomer`. -/
def getCustomer (config : ReadConfig) (dbs : ℕ → Db) (id businessId : String) :
    Except Error CustomerDetails :=
  match (dbs 0).findCustomerOf id businessId with
  | none => .error (.http 404 s!"No customer found with id: {id}" "CUSTOMER_NOT_FOUND" [])
  | some c => .ok {
      customer := c
      nameHistory := (dbs 0).nameHistoryOf c.id
      accounts := ((dbs 0).accountsOf c.id).insertionSort
        (latestFirst Account.createdAt Account.id config.rank) }

/-! ### `AccountLifecycleService` -/

/-- What is shown of the customer of an account. -/
structure AccountCustomer where
  id : String
  displayName : String
  kycTier : KycTier
deriving DecidableEq, Repr

/-- An account as it is listed: with its customer, its ACTIVE rules by priority, and the number of its
ledger entries. -/
structure AccountItem where
  account : Account
  customer : Option AccountCustomer
  rules : List Rule
  ledgerEntries : Nat
deriving DecidableEq, Repr

/-- The customer of an account. -/
def Db.accountCustomer (db : Db) (a : Account) : Option AccountCustomer :=
  (a.customerId.bind db.findCustomer).map fun c => ⟨c.id, c.displayName, c.kycTier⟩

def Db.activeRulesByPriority (db : Db) (rank : String → Nat) (accountId : String) : List Rule :=
  (db.activeRules accountId).insertionSort (priorityLE rank)

def accountItem (config : ReadConfig) (db : Db) (a : Account) : AccountItem where
  account := a
  customer := db.accountCustomer a
  rules := db.activeRulesByPriority config.rank a.id
  ledgerEntries := (db.ledgerEntries.filter fun e => e.accountId = a.id).length

/-- The names of the statuses. -/
def AccountStatus.ofName? : String → Option AccountStatus
  | "ACTIVE" => some .active
  | "SUSPENDED" => some .suspended
  | "EXPIRED" => some .expired
  | "CLOSED" => some .closed
  | _ => none

/-- `where.status = text`. -/
def accountStatusIs {α : Type} (status : α → AccountStatus) (text : String) : Where α where
  selects x := AccountStatus.ofName? text = some (status x)
  accepted := (AccountStatus.ofName? text).isSome

def accountsWhere (businessId : String) (status : Option String) : Where Account :=
  Where.and { selects := fun a => a.businessId = businessId }
    (Where.ifGiven status (accountStatusIs Account.status))

def listedAccounts (config : ReadConfig) (db : Db) (businessId : String) (status : Option String) :
    List Account :=
  selectRows (accountsWhere businessId status)
    (latestFirst Account.createdAt Account.id config.rank) db.accounts

/-- `AccountLifecycleService.listAccounts`. -/
def listAccounts (config : ReadConfig) (dbs : ℕ → Db) (businessId : String) (status : Option String)
    (q : PageQuery) : Except Error (OffsetPage AccountItem) :=
  config.client.offsetListing (accountsWhere businessId status).accepted
    ((listedAccounts config (dbs 0) businessId status).map (accountItem config (dbs 0)))
    (listedAccounts config (dbs 1) businessId status).length q.page q.limit

def accountNotFound : Error := .http 404 "Account not found" "ACCOUNT_NOT_FOUND" []

/-! ### `LedgerService` -/

/-- `LedgerService.resolveAccountId`. -/
def resolveAccountId (db : Db) (accountRef businessId : String) : Except Error String :=
  match db.findAccountByRef accountRef businessId with
  | none => .error accountNotFound
  | some a => .ok a.id

/-- `LedgerService.getEntriesByAccountRef`. -/
def getEntriesByAccountRef (config : ReadConfig) (dbs : ℕ → Db) (accountRef businessId : String)
    (filters : LedgerFiltersDto) : Except Error (Page LedgerEntry String) := do
  let accountId ← resolveAccountId (dbs 0) accountRef businessId
  getEntries config.client config.rank (dbs 1) accountId filters

/-- `LedgerService.getSummaryByAccountRef`. -/
def getSummaryByAccountRef (dbs : ℕ → Db) (accountRef businessId : String) :
    Except Error LedgerSummary := do
  let accountId ← resolveAccountId (dbs 0) accountRef businessId
  return getSummary (fun k => dbs (k + 1)) accountId

/-- `LedgerService.exportCsvByAccountRef`. -/
def exportCsvByAccountRef (config : ReadConfig) (dbs : ℕ → Db) (accountRef businessId : String) :
    Except Error String := do
  let accountId ← resolveAccountId (dbs 0) accountRef businessId
  return exportCsv config.rank (dbs 1) accountId

structure AccountState where
  account : Account
  customer : Option AccountCustomer
  rules : List Rule
  ledgerSummary : LedgerSummary
deriving DecidableEq, Repr

/-- `AccountLifecycleService.getAccountState`. -/
def getAccountState (config : ReadConfig) (dbs : ℕ → Db) (accountRef businessId : String) :
    Except Error AccountState :=
  match (dbs 0).findAccountByRef accountRef businessId with
  | none => .error accountNotFound
  | some a => do
    let ledgerSummary ← getSummaryByAccountRef (fun k => dbs (k + 1)) accountRef businessId
    return {
      account := a
      customer := (dbs 0).accountCustomer a
      rules := (dbs 0).activeRulesByPriority config.rank a.id
      ledgerSummary }

/-! ### `TreasuryService` and `SettlementService` -/

def bucketsWhere (businessId : String) (status : Option String) : Where TreasuryBucket :=
  Where.and { selects := fun b => b.businessId = businessId }
    (Where.ifGiven status (accountStatusIs TreasuryBucket.status))

def listedBuckets (config : ReadConfig) (db : Db) (businessId : String) (status : Option String) :
    List TreasuryBucket :=
  selectRows (bucketsWhere businessId status)
    (latestFirst (fun b => config.createdAt b.id) TreasuryBucket.id config.rank) db.treasuryBuckets

/-- `TreasuryService.getBuckets`. -/
def getBuckets (config : ReadConfig) (dbs : ℕ → Db) (businessId : String) (status : Option String)
    (q : PageQuery) : Except Error (OffsetPage TreasuryBucket) :=
  config.client.offsetListing (bucketsWhere businessId status).accepted
    (listedBuckets config (dbs 0) businessId status)
    (listedBuckets config (dbs 1) businessId status).length q.page q.limit

/-- A bucket with what it holds. -/
structure BucketBalance where
  bucket : TreasuryBucket
  balanceKobo : Int
  availableKobo : Int
  reservedKobo : Int
deriving DecidableEq, Repr

/-- `TreasuryService.getBucket`. The credits, the debits and the reservations are summed one after the
other. -/
def getBucket (dbs : ℕ → Db) (bucketRef businessId : String) : Except Error BucketBalance :=
  match (dbs 0).findBucket businessId bucketRef with
  | none => .error (.http 404 (bucketNotFoundMessage bucketRef) "BUCKET_NOT_FOUND" [])
  | some bucket =>
    let balance := (dbs 1).entrySum bucket.id .credit - (dbs 2).entrySum bucket.id .debit
    let reserved := (dbs 3).reservedKobo bucket.id
    .ok ⟨bucket, balance, balance - reserved, reserved⟩

/-- `TreasuryService.getBalance`: the same of it, but for the row. -/
def getBalance (dbs : ℕ → Db) (bucketRef businessId : String) :
    Except Error (String × Int × Int × Int) :=
  (getBucket dbs bucketRef businessId).map fun b =>
    (b.bucket.bucketRef, b.balanceKobo, b.availableKobo, b.reservedKobo)

/-- The names of the statuses of a settlement. -/
def SettlementStatus.ofName? : String → Option SettlementStatus
  | "PENDING" => some .pending
  | "PROCESSING" => some .processing
  | "COMPLETED" => some .completed
  | "FAILED" => some .failed
  | "CANCELLED" => some .cancelled
  | _ => none

def settlementStatusIs (text : String) : Where Settlement where
  selects s := SettlementStatus.ofName? text = some s.status
  accepted := (SettlementStatus.ofName? text).isSome

def settlementsWhere (bucketId : String) (status : Option String) : Where Settlement :=
  Where.and { selects := fun s => s.bucketId = bucketId } (Where.ifGiven status settlementStatusIs)

def listedSettlements (config : ReadConfig) (db : Db) (bucketId : String) (status : Option String) :
    List Settlement :=
  selectRows (settlementsWhere bucketId status)
    (latestFirst Settlement.createdAt Settlement.id config.rank) db.settlements

/-- `SettlementService.getByBucket`. -/
def getByBucket (config : ReadConfig) (dbs : ℕ → Db) (bucketRef businessId : String)
    (status : Option String) (q : PageQuery) : Except Error (OffsetPage Settlement) :=
  match (dbs 0).findBucket businessId bucketRef with
  | none => .error (bucketNotFound bucketRef)
  | some bucket =>
    config.client.offsetListing (settlementsWhere bucket.id status).accepted
      (listedSettlements config (dbs 1) bucket.id status)
      (listedSettlements config (dbs 2) bucket.id status).length q.page q.limit

/-! ### The routes together -/

/-- A `GET` route of a business, with the references and filters that the caller gives. -/
inductive ApiRead
  | listCustomers (q : PageQuery)
  | getCustomer (id : String)
  | listAccounts (status : Option String) (q : PageQuery)
  | getAccountState (accountRef : String)
  | getEntries (accountRef : String) (filters : LedgerFiltersDto)
  | getSummary (accountRef : String)
  | exportCsv (accountRef : String)
  | getBuckets (status : Option String) (q : PageQuery)
  | getBucket (bucketRef : String)
  | getBalance (bucketRef : String)
  | getStatement (bucketRef : String) (filters : StatementFilters)
  | getByBucket (bucketRef : String) (status : Option String) (q : PageQuery)

inductive ApiAnswer
  | customers (page : OffsetPage CustomerItem)
  | customer (details : CustomerDetails)
  | accounts (page : OffsetPage AccountItem)
  | accountState (state : AccountState)
  | entries (page : Page LedgerEntry String)
  | summary (summary : LedgerSummary)
  | csv (text : String)
  | buckets (page : OffsetPage TreasuryBucket)
  | bucket (balance : BucketBalance)
  | balance (bucketRef : String) (balanceKobo availableKobo reservedKobo : Int)
  | statement (page : Page BucketLedgerEntry String)
  | settlements (page : OffsetPage Settlement)
deriving DecidableEq, Repr

/-- What the route answers to a business. -/
def ApiRead.answer (config : ReadConfig) (dbs : ℕ → Db) (businessId : String) :
    ApiRead → Except Error ApiAnswer
  | listCustomers q => (AccountOS.listCustomers config dbs businessId q).map .customers
  | getCustomer id => (AccountOS.getCustomer config dbs id businessId).map .customer
  | listAccounts status q => (AccountOS.listAccounts config dbs businessId status q).map .accounts
  | getAccountState accountRef =>
    (AccountOS.getAccountState config dbs accountRef businessId).map .accountState
  | getEntries accountRef filters =>
    (getEntriesByAccountRef config dbs accountRef businessId filters).map .entries
  | getSummary accountRef => (getSummaryByAccountRef dbs accountRef businessId).map .summary
  | exportCsv accountRef => (exportCsvByAccountRef config dbs accountRef businessId).map .csv
  | getBuckets status q => (AccountOS.getBuckets config dbs businessId status q).map .buckets
  | getBucket bucketRef => (AccountOS.getBucket dbs bucketRef businessId).map .bucket
  | getBalance bucketRef => (AccountOS.getBalance dbs bucketRef businessId).map fun b =>
      .balance b.1 b.2.1 b.2.2.1 b.2.2.2
  | getStatement bucketRef filters =>
    (AccountOS.getStatement config.client config.rank dbs filters bucketRef businessId).map
      .statement
  | getByBucket bucketRef status q =>
    (AccountOS.getByBucket config dbs bucketRef businessId status q).map .settlements

/-- Query `j` of the route is made after query `i` has been answered. The two queries of a listing are
made at the same time, and so are the four of a summary. -/
def ApiRead.Awaits (i j : ℕ) : ApiRead → Prop
  | listCustomers _ | listAccounts .. | getBuckets .. => False
  | getAccountState _ => i < j ∧ i < 2
  | _ => i = 0 ∧ 0 < j

end AccountOS
