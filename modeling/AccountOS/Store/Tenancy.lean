import AccountOS.Sql.Ownership
import AccountOS.Sql.Slice
import AccountOS.Store.Registry

/-!
# Whose the rows of the database are

A business owns its customers, accounts, buckets and settlements, and through these the history of a
name, the rules, executions and ledger entries of an account and the ledger of a bucket. The
statements are taken apart by what they add (`WriteOp.CreatesFor`) and by the rows that they change
(`WriteOp.UpdatesFor`): when both are a business's own, no other business sees a difference.
-/

namespace AccountOS

open Conc Sql

/-! ### The rows -/

/-- What names a row: its table and its id, or a transaction reference. -/
inductive RowKey
  | customer (id : String)
  | nameEntry (id : String)
  | account (id : String)
  | rule (id : String)
  | ruleExecution (id : String)
  | ledgerEntry (id : String)
  | transactionRef (ref : String)
  | bucket (id : String)
  | bucketLedgerEntry (id : String)
  | settlement (id : String)
deriving DecidableEq

/-- The parent of a customer is not among its links: see `Db.ParentsWithin`. -/
def Customer.row (c : Customer) : OwnedRow RowKey String :=
  ⟨.customer c.id, .inl c.businessId, []⟩

def NameHistoryEntry.row (h : NameHistoryEntry) : OwnedRow RowKey String :=
  ⟨.nameEntry h.id, .inr (.customer h.customerId), []⟩

def Account.row (a : Account) : OwnedRow RowKey String :=
  ⟨.account a.id, .inl a.businessId, (a.customerId.map RowKey.customer).toList⟩

def Rule.row (r : Rule) : OwnedRow RowKey String := ⟨.rule r.id, .inr (.account r.accountId), []⟩

def RuleExecution.row (x : RuleExecution) : OwnedRow RowKey String :=
  ⟨.ruleExecution x.id, .inr (.account x.accountId),
    .rule x.ruleId :: (x.triggeredByLedgerEntryId.map RowKey.ledgerEntry).toList⟩

def LedgerEntry.row (e : LedgerEntry) : OwnedRow RowKey String :=
  ⟨.ledgerEntry e.id, .inr (.account e.accountId), []⟩

/-- The transaction reference of an entry names it, too. -/
def LedgerEntry.refRow (e : LedgerEntry) : OwnedRow RowKey String :=
  ⟨.transactionRef e.nombaTransactionRef, .inr (.account e.accountId), []⟩

def TreasuryBucket.row (b : TreasuryBucket) : OwnedRow RowKey String :=
  ⟨.bucket b.id, .inl b.businessId, []⟩

def BucketLedgerEntry.row (e : BucketLedgerEntry) : OwnedRow RowKey String :=
  ⟨.bucketLedgerEntry e.id, .inr (.bucket e.bucketId),
    (e.sourceLedgerEntryId.map RowKey.ledgerEntry).toList⟩

def Settlement.row (s : Settlement) : OwnedRow RowKey String :=
  ⟨.settlement s.id, .inl s.businessId, [.bucket s.bucketId]⟩

section Keys

@[simp] theorem Customer.row_key (c : Customer) : c.row.key = .customer c.id := rfl

@[simp] theorem NameHistoryEntry.row_key (h : NameHistoryEntry) : h.row.key = .nameEntry h.id := rfl

@[simp] theorem Account.row_key (a : Account) : a.row.key = .account a.id := rfl

@[simp] theorem Rule.row_key (r : Rule) : r.row.key = .rule r.id := rfl

@[simp] theorem RuleExecution.row_key (x : RuleExecution) : x.row.key = .ruleExecution x.id := rfl

@[simp] theorem LedgerEntry.row_key (e : LedgerEntry) : e.row.key = .ledgerEntry e.id := rfl

@[simp] theorem LedgerEntry.refRow_key (e : LedgerEntry) :
    e.refRow.key = .transactionRef e.nombaTransactionRef := rfl

@[simp] theorem TreasuryBucket.row_key (b : TreasuryBucket) : b.row.key = .bucket b.id := rfl

@[simp] theorem BucketLedgerEntry.row_key (e : BucketLedgerEntry) :
    e.row.key = .bucketLedgerEntry e.id := rfl

@[simp] theorem Settlement.row_key (s : Settlement) : s.row.key = .settlement s.id := rfl

end Keys

namespace Db

def rowList (db : Db) : List (OwnedRow RowKey String) :=
  db.customers.map Customer.row ++ db.nameHistory.map NameHistoryEntry.row ++
    db.accounts.map Account.row ++ db.rules.map Rule.row ++
    db.ruleExecutions.map RuleExecution.row ++ db.ledgerEntries.map LedgerEntry.row ++
    db.ledgerEntries.map LedgerEntry.refRow ++ db.treasuryBuckets.map TreasuryBucket.row ++
    db.bucketLedgerEntries.map BucketLedgerEntry.row ++ db.settlements.map Settlement.row

/-- All rows that belong to a business. -/
def rows (db : Db) : Set (OwnedRow RowKey String) := {r | r ∈ db.rowList}

/-- The rows of a business in the eight tables that the API writes to. -/
structure TenantRows where
  customers : List Customer
  nameHistory : List NameHistoryEntry
  accounts : List Account
  rules : List Rule
  ruleExecutions : List RuleExecution
  treasuryBuckets : List TreasuryBucket
  bucketLedgerEntries : List BucketLedgerEntry
  settlements : List Settlement

def tenant (db : Db) (businessId : String) : TenantRows where
  customers := db.customers.filter fun c => c.businessId = businessId
  nameHistory := db.nameHistory.filter fun h =>
    ∃ c ∈ db.customers, c.id = h.customerId ∧ c.businessId = businessId
  accounts := db.accounts.filter fun a => a.businessId = businessId
  rules := db.rules.filter fun r =>
    ∃ a ∈ db.accounts, a.id = r.accountId ∧ a.businessId = businessId
  ruleExecutions := db.ruleExecutions.filter fun x =>
    ∃ a ∈ db.accounts, a.id = x.accountId ∧ a.businessId = businessId
  treasuryBuckets := db.treasuryBuckets.filter fun b => b.businessId = businessId
  bucketLedgerEntries := db.bucketLedgerEntries.filter fun e =>
    ∃ b ∈ db.treasuryBuckets, b.id = e.bucketId ∧ b.businessId = businessId
  settlements := db.settlements.filter fun s => s.businessId = businessId

end Db

section Rows

variable {db : Db} {A : String}

theorem mem_rows {r : OwnedRow RowKey String} :
    r ∈ db.rows ↔ (∃ c ∈ db.customers, c.row = r) ∨ (∃ h ∈ db.nameHistory, h.row = r) ∨
      (∃ a ∈ db.accounts, a.row = r) ∨ (∃ x ∈ db.rules, x.row = r) ∨
      (∃ x ∈ db.ruleExecutions, x.row = r) ∨ (∃ e ∈ db.ledgerEntries, e.row = r) ∨
      (∃ e ∈ db.ledgerEntries, e.refRow = r) ∨ (∃ b ∈ db.treasuryBuckets, b.row = r) ∨
      (∃ e ∈ db.bucketLedgerEntries, e.row = r) ∨ ∃ s ∈ db.settlements, s.row = r := by
  simp only [Db.rows, Db.rowList, Set.mem_ofPred_eq, List.mem_append, List.mem_map, or_assoc]

theorem forall_rows {P : OwnedRow RowKey String → Prop} :
    (∀ r ∈ db.rows, P r) ↔ (∀ c ∈ db.customers, P c.row) ∧ (∀ h ∈ db.nameHistory, P h.row) ∧
      (∀ a ∈ db.accounts, P a.row) ∧ (∀ x ∈ db.rules, P x.row) ∧
      (∀ x ∈ db.ruleExecutions, P x.row) ∧ (∀ e ∈ db.ledgerEntries, P e.row) ∧
      (∀ e ∈ db.ledgerEntries, P e.refRow) ∧ (∀ b ∈ db.treasuryBuckets, P b.row) ∧
      (∀ e ∈ db.bucketLedgerEntries, P e.row) ∧ ∀ s ∈ db.settlements, P s.row := by
  simp only [mem_rows, or_imp, forall_and, forall_exists_index, and_imp,
    forall_apply_eq_imp_iff₂]

theorem Customer.row_mem {c : Customer} (h : c ∈ db.customers) : c.row ∈ db.rows :=
  mem_rows.2 (by grind)

theorem NameHistoryEntry.row_mem {h : NameHistoryEntry} (hh : h ∈ db.nameHistory) :
    h.row ∈ db.rows :=
  mem_rows.2 (by grind)

theorem Account.row_mem {a : Account} (h : a ∈ db.accounts) : a.row ∈ db.rows :=
  mem_rows.2 (by grind)

theorem Rule.row_mem {r : Rule} (h : r ∈ db.rules) : r.row ∈ db.rows :=
  mem_rows.2 (by grind)

theorem RuleExecution.row_mem {x : RuleExecution} (h : x ∈ db.ruleExecutions) : x.row ∈ db.rows :=
  mem_rows.2 (by grind)

theorem LedgerEntry.row_mem {e : LedgerEntry} (h : e ∈ db.ledgerEntries) : e.row ∈ db.rows :=
  mem_rows.2 (by grind)

theorem LedgerEntry.refRow_mem {e : LedgerEntry} (h : e ∈ db.ledgerEntries) : e.refRow ∈ db.rows :=
  mem_rows.2 (by grind)

theorem TreasuryBucket.row_mem {b : TreasuryBucket} (h : b ∈ db.treasuryBuckets) :
    b.row ∈ db.rows :=
  mem_rows.2 (by grind)

theorem BucketLedgerEntry.row_mem {e : BucketLedgerEntry} (h : e ∈ db.bucketLedgerEntries) :
    e.row ∈ db.rows :=
  mem_rows.2 (by grind)

theorem Settlement.row_mem {s : Settlement} (h : s ∈ db.settlements) : s.row ∈ db.rows :=
  mem_rows.2 (by grind)

/-! ### Who owns them -/

/-- A row with the key of a customer is one. -/
theorem exists_customer_of_key {r : OwnedRow RowKey String} {id : String} (hr : r ∈ db.rows)
    (hk : r.key = .customer id) : ∃ c ∈ db.customers, c.row = r := by
  rcases mem_rows.1 hr with h | ⟨_, _, rfl⟩ | ⟨_, _, rfl⟩ | ⟨_, _, rfl⟩ | ⟨_, _, rfl⟩ |
    ⟨_, _, rfl⟩ | ⟨_, _, rfl⟩ | ⟨_, _, rfl⟩ | ⟨_, _, rfl⟩ | ⟨_, _, rfl⟩
  · exact h
  all_goals cases hk

theorem exists_account_of_key {r : OwnedRow RowKey String} {id : String} (hr : r ∈ db.rows)
    (hk : r.key = .account id) : ∃ a ∈ db.accounts, a.row = r := by
  rcases mem_rows.1 hr with ⟨_, _, rfl⟩ | ⟨_, _, rfl⟩ | h | ⟨_, _, rfl⟩ | ⟨_, _, rfl⟩ |
    ⟨_, _, rfl⟩ | ⟨_, _, rfl⟩ | ⟨_, _, rfl⟩ | ⟨_, _, rfl⟩ | ⟨_, _, rfl⟩
  on_goal 3 => exact h
  all_goals cases hk

theorem exists_bucket_of_key {r : OwnedRow RowKey String} {id : String} (hr : r ∈ db.rows)
    (hk : r.key = .bucket id) : ∃ b ∈ db.treasuryBuckets, b.row = r := by
  rcases mem_rows.1 hr with ⟨_, _, rfl⟩ | ⟨_, _, rfl⟩ | ⟨_, _, rfl⟩ | ⟨_, _, rfl⟩ | ⟨_, _, rfl⟩ |
    ⟨_, _, rfl⟩ | ⟨_, _, rfl⟩ | h | ⟨_, _, rfl⟩ | ⟨_, _, rfl⟩
  on_goal 8 => exact h
  all_goals cases hk

theorem owned_customer_iff {id : String} :
    Owned db.rows A (.customer id) ↔ ∃ c ∈ db.customers, c.id = id ∧ c.businessId = A := by
  constructor
  · intro h
    obtain ⟨r, hr, hk, howner⟩ := h.exists_row
    obtain ⟨c, hc, rfl⟩ := exists_customer_of_key hr hk
    rcases howner with ho | ⟨_, ho, _⟩
    · exact ⟨c, hc, RowKey.customer.inj hk, Sum.inl.inj ho⟩
    · cases ho
  · rintro ⟨c, hc, rfl, rfl⟩
    exact .itself (Customer.row_mem hc) rfl

theorem owned_account_iff {id : String} :
    Owned db.rows A (.account id) ↔ ∃ a ∈ db.accounts, a.id = id ∧ a.businessId = A := by
  constructor
  · intro h
    obtain ⟨r, hr, hk, howner⟩ := h.exists_row
    obtain ⟨a, ha, rfl⟩ := exists_account_of_key hr hk
    rcases howner with ho | ⟨_, ho, _⟩
    · exact ⟨a, ha, RowKey.account.inj hk, Sum.inl.inj ho⟩
    · cases ho
  · rintro ⟨a, ha, rfl, rfl⟩
    exact .itself (Account.row_mem ha) rfl

theorem owned_bucket_iff {id : String} :
    Owned db.rows A (.bucket id) ↔ ∃ b ∈ db.treasuryBuckets, b.id = id ∧ b.businessId = A := by
  constructor
  · intro h
    obtain ⟨r, hr, hk, howner⟩ := h.exists_row
    obtain ⟨b, hb, rfl⟩ := exists_bucket_of_key hr hk
    rcases howner with ho | ⟨_, ho, _⟩
    · exact ⟨b, hb, RowKey.bucket.inj hk, Sum.inl.inj ho⟩
    · cases ho
  · rintro ⟨b, hb, rfl, rfl⟩
    exact .itself (TreasuryBucket.row_mem hb) rfl

end Rows

/-! ### What a statement adds -/

/-- A statement that adds no row, or one that belongs to `A` and is linked to rows of `A`. -/
def WriteOp.CreatesFor (A : String) (S : Set (OwnedRow RowKey String)) : WriteOp → Prop
  | createBucketLedgerEntry e => Owned S A (.bucket e.bucketId) ∧
      ∀ l ∈ e.sourceLedgerEntryId, Owned S A (.ledgerEntry l)
  | createSettlement s => s.businessId = A ∧ Owned S A (.bucket s.bucketId)
  | createLedgerEntry e => Owned S A (.account e.accountId)
  | createRuleExecution x => Owned S A (.account x.accountId) ∧ Owned S A (.rule x.ruleId) ∧
      ∀ l ∈ x.triggeredByLedgerEntryId, Owned S A (.ledgerEntry l)
  | createRule r => Owned S A (.account r.accountId)
  | createAccount a => a.businessId = A ∧ ∀ c ∈ a.customerId, Owned S A (.customer c)
  | _ => True

/-- A statement that changes no row, or only rows of `A`. -/
def WriteOp.UpdatesFor (A : String) (S : Set (OwnedRow RowKey String)) : WriteOp → Prop
  | updateSettlement id _ => Owned S A (.settlement id)
  | updateRuleExecution id _ => Owned S A (.ruleExecution id)
  | updateAccountStatus id _ | updateAccountModel id _ | closeAccount id .. | archiveRules id _
  | archiveExecutions id => Owned S A (.account id)
  | updateRule id _ => Owned S A (.rule id)
  | flagRules ids => ∀ id ∈ ids, Owned S A (.rule id)
  | updateCustomerTier id _ => Owned S A (.customer id)
  | _ => True

section Adds

variable {db db' : Db} {A : String}

theorem adds_of_rowList_eq (h : db'.rowList = db.rowList) : Adds A db.rows db'.rows := by
  have hrows : db'.rows = db.rows := by
    unfold Db.rows
    rw [h]
  rw [hrows]
  exact .refl

/-- One more row. -/
theorem adds_of_fits {r : OwnedRow RowKey String}
    (h : ∀ x, x ∈ db'.rowList ↔ x = r ∨ x ∈ db.rowList)
    (hr : Fits db.rows A r) : Adds A db.rows db'.rows := by
  have hrows : db'.rows = insert r db.rows := Set.ext h
  rw [hrows]
  exact .single hr

/-- Two more rows, of which the second may name the first. -/
theorem adds_of_fits_fits {r s : OwnedRow RowKey String}
    (h : ∀ x, x ∈ db'.rowList ↔ x = s ∨ x = r ∨ x ∈ db.rowList) (hr : Fits db.rows A r)
    (hs : Fits (insert r db.rows) A s) : Adds A db.rows db'.rows := by
  have hrows : db'.rows = insert s (insert r db.rows) := Set.ext h
  rw [hrows]
  exact .insert (.single hr) hs

/-- **What a statement adds for a business is the business's.** -/
theorem WriteOp.adds {o : WriteOp} (ho : o.CreatesFor A db.rows) (hop : o.apply db = .ok db') :
    Adds A db.rows db'.rows := by
  cases o with
  | createBucketLedgerEntry e =>
    obtain ⟨hid, -, -, -, rfl⟩ := Db.createBucketLedgerEntry_eq_ok.1 hop
    refine adds_of_fits (r := e.row) (fun x => ?_) ⟨?_, .inr ⟨_, rfl, ho.1⟩, ?_⟩
    · simp only [Db.rowList, List.map_append, List.map_singleton, List.mem_append,
        List.mem_singleton]
      grind
    · simpa [forall_rows] using hid
    · simpa [BucketLedgerEntry.row] using ho.2
  | createSettlement s =>
    obtain ⟨hid, -, -, rfl⟩ := Db.createSettlement_eq_ok.1 hop
    refine adds_of_fits (r := s.row) (fun x => ?_) ⟨?_, .inl (congrArg Sum.inl ho.1), ?_⟩
    · simp only [Db.rowList, List.map_append, List.map_singleton, List.mem_append,
        List.mem_singleton]
      grind
    · simpa [forall_rows] using hid
    · simpa [Settlement.row] using ho.2
  | createLedgerEntry e =>
    obtain ⟨hid, href, -, rfl⟩ := Db.createLedgerEntry_eq_ok.1 hop
    have hmono : Owned (insert e.row db.rows) A (.account e.accountId) :=
      Owned.mono ho (Set.subset_insert _ _)
    refine adds_of_fits_fits (r := e.row) (s := e.refRow) (fun x => ?_)
      ⟨?_, .inr ⟨_, rfl, ho⟩, nofun⟩ ⟨?_, .inr ⟨_, rfl, hmono⟩, nofun⟩
    · simp only [Db.rowList, List.map_append, List.map_singleton, List.mem_append,
        List.mem_singleton]
      grind
    · simpa [forall_rows] using hid
    · simpa [forall_rows] using href
  | createRuleExecution x =>
    obtain ⟨hid, -, -, -, rfl⟩ := Db.createRuleExecution_eq_ok.1 hop
    refine adds_of_fits (r := x.row) (fun r => ?_) ⟨?_, .inr ⟨_, rfl, ho.1⟩, ?_⟩
    · simp only [Db.rowList, List.map_append, List.map_singleton, List.mem_append,
        List.mem_singleton]
      grind
    · simpa [forall_rows] using hid
    · simpa [RuleExecution.row] using ho.2
  | createRule r =>
    obtain ⟨hid, -, rfl⟩ := Db.createRule_eq_ok.1 hop
    refine adds_of_fits (r := r.row) (fun x => ?_) ⟨?_, .inr ⟨_, rfl, ho⟩, nofun⟩
    · simp only [Db.rowList, List.map_append, List.map_singleton, List.mem_append,
        List.mem_singleton]
      grind
    · simpa [forall_rows] using hid
  | createAccount a =>
    obtain ⟨hid, -, -, -, -, -, rfl⟩ := Db.createAccount_eq_ok.1 hop
    refine adds_of_fits (r := a.row) (fun x => ?_) ⟨?_, .inl (congrArg Sum.inl ho.1), ?_⟩
    · simp only [Db.rowList, List.map_append, List.map_singleton, List.mem_append,
        List.mem_singleton]
      grind
    · simpa [forall_rows] using hid
    · simpa [Account.row] using ho.2
  | createProcessedEvent e =>
    obtain ⟨-, -, rfl⟩ := Db.createProcessedEvent_eq_ok.1 hop
    exact adds_of_rowList_eq rfl
  | updateSettlement id data =>
    obtain ⟨-, -, rfl⟩ := Db.updateSettlement_eq_ok.1 hop
    refine adds_of_rowList_eq ?_
    unfold Db.rowList
    rw [map_updateRow]
    exact fun _ => rfl
  | updateReconciliationByRef ref status =>
    obtain ⟨-, rfl⟩ := Db.updateReconciliationByRef_eq_ok.1 hop
    refine adds_of_rowList_eq ?_
    unfold Db.rowList
    rw [map_updateRow (fun _ => by rfl), map_updateRow]
    exact fun _ => rfl
  | updateReconciliationById id status =>
    obtain ⟨-, rfl⟩ := Db.updateReconciliationById_eq_ok.1 hop
    refine adds_of_rowList_eq ?_
    unfold Db.rowList
    rw [map_updateRow (fun _ => by rfl), map_updateRow]
    exact fun _ => rfl
  | updateRuleExecution id data =>
    obtain ⟨-, rfl⟩ := Db.updateRuleExecution_eq_ok.1 hop
    refine adds_of_rowList_eq ?_
    unfold Db.rowList
    rw [map_updateRow]
    exact fun _ => rfl
  | updateAccountStatus id status =>
    obtain ⟨-, rfl⟩ := Db.updateAccountStatus_eq_ok.1 hop
    refine adds_of_rowList_eq ?_
    unfold Db.rowList
    rw [map_updateRow]
    exact fun _ => rfl
  | updateAccountModel id model =>
    obtain ⟨-, rfl⟩ := Db.updateAccountModel_eq_ok.1 hop
    refine adds_of_rowList_eq ?_
    unfold Db.rowList
    rw [map_updateRow]
    exact fun _ => rfl
  | closeAccount id closedAt closedReason =>
    obtain ⟨-, rfl⟩ := Db.closeAccount_eq_ok.1 hop
    refine adds_of_rowList_eq ?_
    unfold Db.rowList
    rw [map_updateRow]
    exact fun _ => rfl
  | updateRule id data =>
    obtain ⟨-, rfl⟩ := Db.updateRule_eq_ok.1 hop
    refine adds_of_rowList_eq ?_
    unfold Db.rowList
    rw [map_updateRow]
    exact fun _ => rfl
  | updateCustomerTier id kycTier =>
    obtain ⟨-, rfl⟩ := Db.updateCustomerTier_eq_ok.1 hop
    refine adds_of_rowList_eq ?_
    unfold Db.rowList
    rw [map_updateRow]
    exact fun _ => rfl
  | archiveRules accountId archivedAt =>
    cases hop
    refine adds_of_rowList_eq ?_
    unfold Db.rowList
    rw [map_map_ite]
    exact fun _ => rfl
  | flagRules ids =>
    cases hop
    refine adds_of_rowList_eq ?_
    unfold Db.rowList
    rw [map_map_ite]
    exact fun _ => rfl
  | archiveExecutions accountId =>
    cases hop
    refine adds_of_rowList_eq ?_
    unfold Db.rowList
    rw [map_map_ite]
    exact fun _ => rfl

/-- A call that adds rows of `A` to the register or renames one. -/
def RegistryOp.WritesFor (A : String) (S : Set (OwnedRow RowKey String)) : RegistryOp → Prop
  | createCustomer c h => c.businessId = A ∧ h.customerId = c.id
  | renameCustomer id _ h => Owned S A (.customer id) ∧ h.customerId = id
  | createTreasuryBucket b => b.businessId = A
  | renameBucket id _ => Owned S A (.bucket id)

theorem RegistryOp.adds {o : RegistryOp} (ho : o.WritesFor A db.rows) (hop : o.apply db = .ok db') :
    Adds A db.rows db'.rows := by
  cases o with
  | createCustomer c h =>
    obtain ⟨hid, -, -, hentry, rfl⟩ := Db.createCustomer_eq_ok.1 hop
    have howned : Owned (insert c.row db.rows) A (.customer h.customerId) := by
      rw [ho.2]
      exact .itself (Set.mem_insert _ _) (congrArg Sum.inl ho.1)
    refine adds_of_fits_fits (r := c.row) (s := h.row) (fun x => ?_)
      ⟨?_, .inl (congrArg Sum.inl ho.1), fun _ hlink => absurd hlink List.not_mem_nil⟩
      ⟨?_, .inr ⟨_, rfl, howned⟩, fun _ hlink => absurd hlink List.not_mem_nil⟩
    · simp only [Db.rowList, List.map_append, List.map_singleton, List.mem_append,
        List.mem_singleton]
      grind
    · simpa [forall_rows] using hid
    · simpa [forall_rows] using hentry
  | renameCustomer id newName h =>
    obtain ⟨-, hentry, rfl⟩ := Db.renameCustomer_eq_ok.1 hop
    have howned : Owned db.rows A (.customer h.customerId) := by
      rw [ho.2]
      exact ho.1
    refine adds_of_fits (r := h.row) (fun x => ?_)
      ⟨?_, .inr ⟨_, rfl, howned⟩, fun _ hlink => absurd hlink List.not_mem_nil⟩
    · have hcustomers : (updateRow Customer.id id (fun c => { c with displayName := newName })
          db.customers).map Customer.row = db.customers.map Customer.row := by
        rw [map_updateRow]
        exact fun _ => rfl
      simp only [Db.rowList, hcustomers, List.map_append, List.map_singleton, List.mem_append,
        List.mem_singleton]
      grind
    · simpa [forall_rows] using hentry
  | createTreasuryBucket b =>
    obtain ⟨hid, -, -, rfl⟩ := Db.createTreasuryBucket_eq_ok.1 hop
    refine adds_of_fits (r := b.row) (fun x => ?_)
      ⟨?_, .inl (congrArg Sum.inl ho), fun _ hlink => absurd hlink List.not_mem_nil⟩
    · simp only [Db.rowList, List.map_append, List.map_singleton, List.mem_append,
        List.mem_singleton]
      grind
    · simpa [forall_rows] using hid
  | renameBucket id name =>
    obtain ⟨-, rfl⟩ := Db.renameBucket_eq_ok.1 hop
    refine adds_of_rowList_eq ?_
    unfold Db.rowList
    rw [map_updateRow]
    exact fun _ => rfl

end Adds

/-! ### What the others see of it -/

/-- Only rows of `A` are changed or added. -/
structure Db.ChangesOnly (A : String) (db db' : Db) : Prop where
  customers : SameRows (fun c => ¬ Owned db'.rows A c.row.key) db.customers db'.customers
  nameHistory : SameRows (fun h => ¬ Owned db'.rows A h.row.key) db.nameHistory db'.nameHistory
  accounts : SameRows (fun a => ¬ Owned db'.rows A a.row.key) db.accounts db'.accounts
  rules : SameRows (fun r => ¬ Owned db'.rows A r.row.key) db.rules db'.rules
  ruleExecutions :
    SameRows (fun x => ¬ Owned db'.rows A x.row.key) db.ruleExecutions db'.ruleExecutions
  treasuryBuckets :
    SameRows (fun b => ¬ Owned db'.rows A b.row.key) db.treasuryBuckets db'.treasuryBuckets
  bucketLedgerEntries :
    SameRows (fun e => ¬ Owned db'.rows A e.row.key) db.bucketLedgerEntries db'.bucketLedgerEntries
  settlements : SameRows (fun s => ¬ Owned db'.rows A s.row.key) db.settlements db'.settlements

section Tenant

variable {db db' : Db} {A B : String}

/-- **What belongs to another business is as it was.** -/
theorem Db.ChangesOnly.tenant_eq (h : Db.ChangesOnly A db db') (hu : UniqueKeys db.rows)
    (hadds : Adds A db.rows db'.rows) (hBA : B ≠ A) : db'.tenant B = db.tenant B := by
  have hu' := hadds.uniqueKeys hu
  -- what is the other's before is the other's afterwards, and it is not `A`'s
  have hiff : ∀ k, Owned db.rows B k ↔ Owned db'.rows B k := fun k => (hadds.owned_iff hu hBA).symm
  have hnot' : ∀ k, Owned db'.rows B k → ¬ Owned db'.rows A k :=
    fun k hB hA => hBA (Owned.unique hu' hB hA)
  have hnot : ∀ k, Owned db.rows B k → ¬ Owned db'.rows A k := fun k hB => hnot' k ((hiff k).1 hB)
  have hcustomer : ∀ id, (∃ c ∈ db.customers, c.id = id ∧ c.businessId = B) ↔
      ∃ c ∈ db'.customers, c.id = id ∧ c.businessId = B := by
    intro id
    rw [← owned_customer_iff, ← owned_customer_iff, hiff]
  have haccount : ∀ id, (∃ a ∈ db.accounts, a.id = id ∧ a.businessId = B) ↔
      ∃ a ∈ db'.accounts, a.id = id ∧ a.businessId = B := by
    intro id
    rw [← owned_account_iff, ← owned_account_iff, hiff]
  have hbucket : ∀ id, (∃ b ∈ db.treasuryBuckets, b.id = id ∧ b.businessId = B) ↔
      ∃ b ∈ db'.treasuryBuckets, b.id = id ∧ b.businessId = B := by
    intro id
    rw [← owned_bucket_iff, ← owned_bucket_iff, hiff]
  symm
  simp only [Db.tenant, Db.TenantRows.mk.injEq]
  refine ⟨?_, ?_, ?_, ?_, ?_, ?_, ?_, ?_⟩
  · exact h.customers.filter_eq_filter (fun _ _ => Iff.rfl)
      (fun c hc hB => hnot _ (.itself (Customer.row_mem hc) (congrArg Sum.inl hB)))
      fun c hc hB => hnot' _ (.itself (Customer.row_mem hc) (congrArg Sum.inl hB))
  · exact h.nameHistory.filter_eq_filter (fun x _ => hcustomer x.customerId)
      (fun x hx hB => hnot _ (.through (NameHistoryEntry.row_mem hx) rfl (owned_customer_iff.2 hB)))
      fun x hx hB => hnot' _
        (.through (NameHistoryEntry.row_mem hx) rfl (owned_customer_iff.2 hB))
  · exact h.accounts.filter_eq_filter (fun _ _ => Iff.rfl)
      (fun a ha hB => hnot _ (.itself (Account.row_mem ha) (congrArg Sum.inl hB)))
      fun a ha hB => hnot' _ (.itself (Account.row_mem ha) (congrArg Sum.inl hB))
  · exact h.rules.filter_eq_filter (fun x _ => haccount x.accountId)
      (fun x hx hB => hnot _ (.through (Rule.row_mem hx) rfl (owned_account_iff.2 hB)))
      fun x hx hB => hnot' _ (.through (Rule.row_mem hx) rfl (owned_account_iff.2 hB))
  · exact h.ruleExecutions.filter_eq_filter (fun x _ => haccount x.accountId)
      (fun x hx hB => hnot _ (.through (RuleExecution.row_mem hx) rfl (owned_account_iff.2 hB)))
      fun x hx hB => hnot' _ (.through (RuleExecution.row_mem hx) rfl (owned_account_iff.2 hB))
  · exact h.treasuryBuckets.filter_eq_filter (fun _ _ => Iff.rfl)
      (fun b hb hB => hnot _ (.itself (TreasuryBucket.row_mem hb) (congrArg Sum.inl hB)))
      fun b hb hB => hnot' _ (.itself (TreasuryBucket.row_mem hb) (congrArg Sum.inl hB))
  · exact h.bucketLedgerEntries.filter_eq_filter (fun x _ => hbucket x.bucketId)
      (fun x hx hB => hnot _ (.through (BucketLedgerEntry.row_mem hx) rfl (owned_bucket_iff.2 hB)))
      fun x hx hB => hnot' _
        (.through (BucketLedgerEntry.row_mem hx) rfl (owned_bucket_iff.2 hB))
  · exact h.settlements.filter_eq_filter (fun _ _ => Iff.rfl)
      (fun x hx hB => hnot _ (.itself (Settlement.row_mem hx) (congrArg Sum.inl hB)))
      fun x hx hB => hnot' _ (.itself (Settlement.row_mem hx) (congrArg Sum.inl hB))

/-- A statement that changes one table leaves the rows of the others. -/
theorem Db.ChangesOnly.of_sameExcept {t : Table} (h : Db.SameExcept t db db')
    (hcustomers : t = .customers →
      SameRows (fun c => ¬ Owned db'.rows A c.row.key) db.customers db'.customers)
    (haccounts : t = .accounts →
      SameRows (fun a => ¬ Owned db'.rows A a.row.key) db.accounts db'.accounts)
    (hrules : t = .rules → SameRows (fun r => ¬ Owned db'.rows A r.row.key) db.rules db'.rules)
    (hexecutions : t = .ruleExecutions →
      SameRows (fun x => ¬ Owned db'.rows A x.row.key) db.ruleExecutions db'.ruleExecutions)
    (hentries : t = .bucketLedgerEntries →
      SameRows (fun e => ¬ Owned db'.rows A e.row.key) db.bucketLedgerEntries
        db'.bucketLedgerEntries)
    (hsettlements : t = .settlements →
      SameRows (fun s => ¬ Owned db'.rows A s.row.key) db.settlements db'.settlements) :
    Db.ChangesOnly A db db' where
  customers := by
    by_cases ht : t = .customers
    · exact hcustomers ht
    · exact .of_eq (h.customers ht).symm
  nameHistory := .of_eq h.nameHistory.symm
  accounts := by
    by_cases ht : t = .accounts
    · exact haccounts ht
    · exact .of_eq (h.accounts ht).symm
  rules := by
    by_cases ht : t = .rules
    · exact hrules ht
    · exact .of_eq (h.rules ht).symm
  ruleExecutions := by
    by_cases ht : t = .ruleExecutions
    · exact hexecutions ht
    · exact .of_eq (h.ruleExecutions ht).symm
  treasuryBuckets := .of_eq h.treasuryBuckets.symm
  bucketLedgerEntries := by
    by_cases ht : t = .bucketLedgerEntries
    · exact hentries ht
    · exact .of_eq (h.bucketLedgerEntries ht).symm
  settlements := by
    by_cases ht : t = .settlements
    · exact hsettlements ht
    · exact .of_eq (h.settlements ht).symm

/-- **A statement for `A` changes only rows of `A`.** -/
theorem WriteOp.changesOnly {o : WriteOp} (ho : o.CreatesFor A db.rows)
    (ho' : o.UpdatesFor A db.rows) (hop : o.apply db = .ok db') : Db.ChangesOnly A db db' := by
  have hmono : ∀ k, Owned db.rows A k → Owned db'.rows A k :=
    fun k hk => hk.mono (WriteOp.adds ho hop).subset
  have hsame := WriteOp.sameExcept hop
  cases o with
  | createBucketLedgerEntry e =>
    refine .of_sameExcept hsame nofun nofun nofun nofun (fun _ => ?_) nofun
    obtain ⟨-, -, -, -, rfl⟩ := Db.createBucketLedgerEntry_eq_ok.1 hop
    refine .append_of_not (not_not.2 (.through (BucketLedgerEntry.row_mem ?_) rfl (hmono _ ho.1)))
    exact List.mem_append_right _ (List.mem_singleton_self e)
  | createSettlement s =>
    refine .of_sameExcept hsame nofun nofun nofun nofun nofun fun _ => ?_
    obtain ⟨-, -, -, rfl⟩ := Db.createSettlement_eq_ok.1 hop
    refine .append_of_not
      (not_not.2 (.itself (Settlement.row_mem ?_) (congrArg Sum.inl ho.1)))
    exact List.mem_append_right _ (List.mem_singleton_self s)
  | createRuleExecution x =>
    refine .of_sameExcept hsame nofun nofun nofun (fun _ => ?_) nofun nofun
    obtain ⟨-, -, -, -, rfl⟩ := Db.createRuleExecution_eq_ok.1 hop
    refine .append_of_not (not_not.2 (.through (RuleExecution.row_mem ?_) rfl (hmono _ ho.1)))
    exact List.mem_append_right _ (List.mem_singleton_self x)
  | createRule r =>
    refine .of_sameExcept hsame nofun nofun (fun _ => ?_) nofun nofun nofun
    obtain ⟨-, -, rfl⟩ := Db.createRule_eq_ok.1 hop
    refine .append_of_not (not_not.2 (.through (Rule.row_mem ?_) rfl (hmono _ ho)))
    exact List.mem_append_right _ (List.mem_singleton_self r)
  | createAccount a =>
    refine .of_sameExcept hsame nofun (fun _ => ?_) nofun nofun nofun nofun
    obtain ⟨-, -, -, -, -, -, rfl⟩ := Db.createAccount_eq_ok.1 hop
    refine .append_of_not (not_not.2 (.itself (Account.row_mem ?_) (congrArg Sum.inl ho.1)))
    exact List.mem_append_right _ (List.mem_singleton_self a)
  | updateSettlement id data =>
    refine .of_sameExcept hsame nofun nofun nofun nofun nofun fun _ => ?_
    obtain ⟨-, -, rfl⟩ := Db.updateSettlement_eq_ok.1 hop
    exact .updateRow_of_not (fun _ => Iff.rfl) fun x _ hx => not_not.2 (hx ▸ hmono _ ho')
  | updateRuleExecution id data =>
    refine .of_sameExcept hsame nofun nofun nofun (fun _ => ?_) nofun nofun
    obtain ⟨-, rfl⟩ := Db.updateRuleExecution_eq_ok.1 hop
    exact .updateRow_of_not (fun _ => Iff.rfl) fun x _ hx => not_not.2 (hx ▸ hmono _ ho')
  | updateAccountStatus id status =>
    refine .of_sameExcept hsame nofun (fun _ => ?_) nofun nofun nofun nofun
    obtain ⟨-, rfl⟩ := Db.updateAccountStatus_eq_ok.1 hop
    exact .updateRow_of_not (fun _ => Iff.rfl) fun a _ ha => not_not.2 (ha ▸ hmono _ ho')
  | updateAccountModel id model =>
    refine .of_sameExcept hsame nofun (fun _ => ?_) nofun nofun nofun nofun
    obtain ⟨-, rfl⟩ := Db.updateAccountModel_eq_ok.1 hop
    exact .updateRow_of_not (fun _ => Iff.rfl) fun a _ ha => not_not.2 (ha ▸ hmono _ ho')
  | closeAccount id closedAt closedReason =>
    refine .of_sameExcept hsame nofun (fun _ => ?_) nofun nofun nofun nofun
    obtain ⟨-, rfl⟩ := Db.closeAccount_eq_ok.1 hop
    exact .updateRow_of_not (fun _ => Iff.rfl) fun a _ ha => not_not.2 (ha ▸ hmono _ ho')
  | updateRule id data =>
    refine .of_sameExcept hsame nofun nofun (fun _ => ?_) nofun nofun nofun
    obtain ⟨-, rfl⟩ := Db.updateRule_eq_ok.1 hop
    exact .updateRow_of_not (fun _ => Iff.rfl) fun r _ hr => not_not.2 (hr ▸ hmono _ ho')
  | updateCustomerTier id kycTier =>
    refine .of_sameExcept hsame (fun _ => ?_) nofun nofun nofun nofun nofun
    obtain ⟨-, rfl⟩ := Db.updateCustomerTier_eq_ok.1 hop
    exact .updateRow_of_not (fun _ => Iff.rfl) fun c _ hc => not_not.2 (hc ▸ hmono _ ho')
  | archiveRules accountId archivedAt =>
    refine .of_sameExcept hsame nofun nofun (fun _ => ?_) nofun nofun nofun
    cases hop
    refine .map_of_not (fun _ => Iff.rfl) fun r hr hc => not_not.2 (hmono _ ?_)
    exact .through (Rule.row_mem hr) rfl (hc.1 ▸ ho')
  | flagRules ids =>
    refine .of_sameExcept hsame nofun nofun (fun _ => ?_) nofun nofun nofun
    cases hop
    exact .map_of_not (fun _ => Iff.rfl) fun r _ hr => not_not.2 (hmono _ (ho' r.id hr))
  | archiveExecutions accountId =>
    refine .of_sameExcept hsame nofun nofun nofun (fun _ => ?_) nofun nofun
    cases hop
    refine .map_of_not (fun _ => Iff.rfl) fun x hx hc => not_not.2 (hmono _ ?_)
    exact .through (RuleExecution.row_mem hx) rfl (hc.1 ▸ ho')
  | createLedgerEntry | createProcessedEvent | updateReconciliationByRef
  | updateReconciliationById => exact .of_sameExcept hsame nofun nofun nofun nofun nofun nofun

theorem RegistryOp.changesOnly {o : RegistryOp} (ho : o.WritesFor A db.rows)
    (hop : o.apply db = .ok db') : Db.ChangesOnly A db db' := by
  have hmono : ∀ k, Owned db.rows A k → Owned db'.rows A k :=
    fun k hk => hk.mono (RegistryOp.adds ho hop).subset
  cases o with
  | createCustomer c h =>
    obtain ⟨-, -, -, -, rfl⟩ := Db.createCustomer_eq_ok.1 hop
    have hc := List.mem_append_right db.customers (List.mem_singleton_self c)
    have hh := List.mem_append_right db.nameHistory (List.mem_singleton_self h)
    exact ⟨.append_of_not (not_not.2 (.itself (Customer.row_mem hc) (congrArg Sum.inl ho.1))),
      .append_of_not (not_not.2 (.through (NameHistoryEntry.row_mem hh) rfl
        (owned_customer_iff.2 ⟨c, hc, ho.2.symm, ho.1⟩))),
      .refl _, .refl _, .refl _, .refl _, .refl _, .refl _⟩
  | renameCustomer id newName h =>
    obtain ⟨-, -, rfl⟩ := Db.renameCustomer_eq_ok.1 hop
    have hh := List.mem_append_right db.nameHistory (List.mem_singleton_self h)
    have hown := hmono _ ho.1
    refine ⟨.updateRow_of_not (fun _ => Iff.rfl) fun c _ hc => not_not.2 (hc ▸ hown),
      .append_of_not (not_not.2 (.through (NameHistoryEntry.row_mem hh) rfl ?_)),
      .refl _, .refl _, .refl _, .refl _, .refl _, .refl _⟩
    rw [ho.2]
    exact hown
  | createTreasuryBucket b =>
    obtain ⟨-, -, -, rfl⟩ := Db.createTreasuryBucket_eq_ok.1 hop
    have hb := List.mem_append_right db.treasuryBuckets (List.mem_singleton_self b)
    exact ⟨.refl _, .refl _, .refl _, .refl _, .refl _,
      .append_of_not (not_not.2 (.itself (TreasuryBucket.row_mem hb) (congrArg Sum.inl ho))),
      .refl _, .refl _⟩
  | renameBucket id name =>
    obtain ⟨-, rfl⟩ := Db.renameBucket_eq_ok.1 hop
    exact ⟨.refl _, .refl _, .refl _, .refl _, .refl _,
      .updateRow_of_not (fun _ => Iff.rfl) fun b _ hb => not_not.2 (hb ▸ hmono _ ho),
      .refl _, .refl _⟩

end Tenant

/-! ### Parents -/

/-- Whose a customer is, and the parent it names. -/
def Customer.parentage (c : Customer) : String × String × Option String :=
  (c.id, c.businessId, c.parentId)

/-- A customer has a parent of its own business. -/
def Db.ParentsWithin (db : Db) : Prop :=
  ∀ c ∈ db.customers, ∀ p ∈ c.parentId, Owned db.rows c.businessId (.customer p)

/-- No customer gets another parent. -/
theorem WriteOp.parentage {o : WriteOp} {db db' : Db} (hop : o.apply db = .ok db') :
    db'.customers.map Customer.parentage = db.customers.map Customer.parentage := by
  cases o with
  | updateCustomerTier id kycTier =>
    obtain ⟨-, rfl⟩ := Db.updateCustomerTier_eq_ok.1 hop
    exact map_updateRow (fun _ => by rfl) _
  | _ => rw [(WriteOp.sameExcept hop).customers nofun]

end AccountOS
