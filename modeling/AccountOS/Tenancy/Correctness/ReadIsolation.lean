import AccountOS.Tenancy.Correctness.Footprint
import AccountOS.Tenancy.Correctness.Isolation
import AccountOS.Tenancy.Reads

/-!
# Tenants read only what is theirs

* `tenant_reads_alone`: in every state that requests and jobs lead to, a business reads what it would
  read if the database held nothing but its own rows.
* `tenant_reads_undisturbed`: while only requests of other businesses are served, whatever a business
  reads stays the same, also between two queries of one read.
-/

namespace AccountOS

open Conc Sql

/-! ### The rows of one business -/

/-- The database without the rows of anybody else. -/
def Db.only (db : Db) (A : String) : Db where
  customers := (db.tenant A).customers
  nameHistory := (db.tenant A).nameHistory
  accounts := (db.tenant A).accounts
  rules := (db.tenant A).rules
  ruleExecutions := (db.tenant A).ruleExecutions
  ledgerEntries := db.ledgerEntries.filter fun e => ∃ a ∈ (db.tenant A).accounts, a.id = e.accountId
  treasuryBuckets := (db.tenant A).treasuryBuckets
  bucketLedgerEntries := (db.tenant A).bucketLedgerEntries
  settlements := (db.tenant A).settlements

theorem Db.only_congr {db db' : Db} {A : String} (h : db'.tenant A = db.tenant A)
    (hentries : db'.ledgerEntries = db.ledgerEntries) : db'.only A = db.only A := by
  unfold Db.only
  rw [h, hentries]

/-- A listing of rows with `q` does not need the others. -/
theorem selectRows_filter_of_imp {α : Type} {q : α → Prop} [DecidablePred q] {t : List α} {w : Where α}
    {order : α → α → Prop} [DecidableRel order] (h : ∀ x ∈ t, w.selects x → q x) :
    selectRows w order (t.filter q) = selectRows w order t := by
  have hsame : (t.filter q).filter (fun x => w.selects x = true) =
      t.filter fun x => w.selects x = true := SameRows.filter_filter_of_imp h
  simp only [Bool.decide_eq_true] at hsame
  rw [selectRows, selectRows, hsame]

/-! ### What is found -/

section Only

variable {db : Db} {A : String}

theorem findCustomerOf_only (id : String) : (db.only A).findCustomerOf id A = db.findCustomerOf id A :=
  SameRows.find?_filter_of_imp fun _ _ h => h.2

theorem findAccountByRef_only (accountRef : String) :
    (db.only A).findAccountByRef accountRef A = db.findAccountByRef accountRef A :=
  SameRows.find?_filter_of_imp fun _ _ h => h.2

theorem findBucket_only (bucketRef : String) :
    (db.only A).findBucket A bucketRef = db.findBucket A bucketRef :=
  SameRows.find?_filter_of_imp fun _ _ h => h.1

/-- The rows that a customer's accounts are looked for among. -/
theorem accountsOf_only (h : db.Tenanted) {c : Customer} (hc : c ∈ db.customers)
    (hA : c.businessId = A) : (db.only A).accountsOf c.id = db.accountsOf c.id := by
  apply SameRows.filter_filter_of_imp
  intro a ha hlink
  -- the account belongs to whoever its customer belongs to
  obtain ⟨B, hB, hBc⟩ := h.linked a.row (Account.row_mem ha) (.customer c.id)
    (by simp [Account.row, hlink])
  have haB : a.businessId = B := Owned.unique h.unique (.itself (Account.row_mem ha) rfl) hB
  have hcB : c.businessId = B := Owned.unique h.unique (.itself (Customer.row_mem hc) rfl) hBc
  rw [haB, ← hcB, hA]

theorem nameHistoryOf_only {c : Customer} (hc : c ∈ db.customers) (hA : c.businessId = A) :
    (db.only A).nameHistoryOf c.id = db.nameHistoryOf c.id := by
  have hrows : ((db.only A).nameHistory.filter fun h => h.customerId = c.id) =
      db.nameHistory.filter fun h => h.customerId = c.id :=
    SameRows.filter_filter_of_imp fun h _ hid => ⟨c, hc, hid.symm, hA⟩
  rw [Db.nameHistoryOf, Db.nameHistoryOf, hrows]

theorem customerItem_only (h : db.Tenanted) {c : Customer} (hc : c ∈ db.customers)
    (hA : c.businessId = A) : customerItem (db.only A) c = customerItem db c := by
  rw [customerItem, customerItem, accountsOf_only h hc hA]

/-- The customer that an account names is one of its business. -/
theorem accountCustomer_only (h : db.Tenanted) {a : Account} (ha : a ∈ db.accounts)
    (hA : a.businessId = A) : (db.only A).accountCustomer a = db.accountCustomer a := by
  cases hid : a.customerId with
  | none => simp [Db.accountCustomer, hid]
  | some id =>
    have hfind : (db.only A).findCustomer id = db.findCustomer id := by
      apply SameRows.find?_filter_of_imp
      intro c hc hcid
      obtain ⟨B, hB, hBc⟩ := h.linked a.row (Account.row_mem ha) (.customer id)
        (by simp [Account.row, hid])
      have haB : a.businessId = B := Owned.unique h.unique (.itself (Account.row_mem ha) rfl) hB
      rw [← hcid] at hBc
      have hcB : c.businessId = B := Owned.unique h.unique (.itself (Customer.row_mem hc) rfl) hBc
      rw [hcB, ← haB, hA]
    simp [Db.accountCustomer, hid, hfind]

/-! ### An account of the business -/

section Account

variable {id : String} (hid : Owned db.rows A (.account id))
include hid

theorem activeRulesByPriority_only (rank : String → Nat) :
    (db.only A).activeRulesByPriority rank id = db.activeRulesByPriority rank id := by
  obtain ⟨a, ha, haid, hA⟩ := owned_account_iff.1 hid
  have hrows : (db.only A).activeRules id = db.activeRules id :=
    SameRows.filter_filter_of_imp fun r _ hr => ⟨a, ha, haid.trans hr.1.symm, hA⟩
  rw [Db.activeRulesByPriority, Db.activeRulesByPriority, hrows]

/-- An entry of the account is one of the business. -/
theorem owns_entry {e : LedgerEntry} (he : e.accountId = id) :
    ∃ a ∈ (db.tenant A).accounts, a.id = e.accountId := by
  obtain ⟨a, ha, haid, hA⟩ := owned_account_iff.1 hid
  exact ⟨a, by simp [Db.tenant, ha, hA], haid.trans he.symm⟩

theorem filter_entries_only : ((db.only A).ledgerEntries.filter fun e => e.accountId = id) =
    db.ledgerEntries.filter fun e => e.accountId = id :=
  SameRows.filter_filter_of_imp fun _ _ he => owns_entry hid he

theorem inflowsOf_only : (db.only A).inflowsOf id = db.inflowsOf id :=
  SameRows.filter_filter_of_imp fun _ _ he => owns_entry hid he.1

theorem inflowSum_only : (db.only A).inflowSum id = db.inflowSum id :=
  SameRows.sumWhere_filter_of_imp fun _ _ he => owns_entry hid he.1

theorem inflowsByStatus_only : (db.only A).inflowsByStatus id = db.inflowsByStatus id := by
  unfold Db.inflowsByStatus
  rw [inflowsOf_only hid]

theorem exportCsv_only (rank : String → Nat) : exportCsv rank (db.only A) id = exportCsv rank db id := by
  have hrows : exportedEntries rank (db.only A) id = exportedEntries rank db id := by
    apply selectRows_filter_of_imp
    intro e _ he
    exact owns_entry hid (of_decide_eq_true he)
  rw [exportCsv, exportCsv, hrows]

theorem getEntries_only (client : ClientArguments) (rank : String → Nat) (filters : LedgerFiltersDto) :
    getEntries client rank (db.only A) id filters = getEntries client rank db id filters := by
  have hrows : matchingEntries client rank (db.only A) id filters =
      matchingEntries client rank db id filters := by
    apply selectRows_filter_of_imp
    intro e _ he
    simp only [entriesWhere, Where.and, Bool.and_eq_true, decide_eq_true_eq] at he
    exact owns_entry hid he.1
  rw [getEntries, getEntries, hrows]

end Account

theorem accountItem_only (config : ReadConfig) (h : db.Tenanted) {a : Account} (ha : a ∈ db.accounts)
    (hA : a.businessId = A) : accountItem config (db.only A) a = accountItem config db a := by
  have hid : Owned db.rows A (.account a.id) := owned_account_iff.2 ⟨a, ha, rfl, hA⟩
  rw [accountItem, accountItem, accountCustomer_only h ha hA, activeRulesByPriority_only hid,
    filter_entries_only hid]

/-! ### A bucket of the business -/

section Bucket

variable {id : String} (hid : Owned db.rows A (.bucket id))
include hid

/-- An entry of the bucket is one of the business. -/
theorem owns_bucketEntry {e : BucketLedgerEntry} (he : e.bucketId = id) :
    ∃ b ∈ db.treasuryBuckets, b.id = e.bucketId ∧ b.businessId = A := by
  obtain ⟨b, hb, hbid, hA⟩ := owned_bucket_iff.1 hid
  exact ⟨b, hb, hbid.trans he.symm, hA⟩

theorem entrySum_only (entryType : BucketEntryType) :
    (db.only A).entrySum id entryType = db.entrySum id entryType :=
  SameRows.sumWhere_filter_of_imp fun _ _ he => owns_bucketEntry hid he.1

theorem statementEntries_only (client : ClientArguments) (rank : String → Nat)
    (filters : StatementFilters) : statementEntries client rank (db.only A) id filters =
      statementEntries client rank db id filters := by
  apply selectRows_filter_of_imp
  intro e _ he
  simp only [statementWhere, Where.and, Bool.and_eq_true, decide_eq_true_eq] at he
  exact owns_bucketEntry hid he.1

/-- A settlement of the bucket is one of the business. -/
theorem owns_settlement (h : db.Tenanted) {s : Settlement} (hs : s ∈ db.settlements)
    (hbucket : s.bucketId = id) : s.businessId = A := by
  obtain ⟨B, hB, hBb⟩ := h.linked s.row (Settlement.row_mem hs) (.bucket s.bucketId)
    List.mem_cons_self
  have hsB : s.businessId = B := Owned.unique h.unique (.itself (Settlement.row_mem hs) rfl) hB
  rw [hbucket] at hBb
  rw [hsB]
  exact Owned.unique h.unique hBb hid

theorem reservedKobo_only (h : db.Tenanted) : (db.only A).reservedKobo id = db.reservedKobo id :=
  SameRows.sumWhere_filter_of_imp fun _ hs hbucket => owns_settlement hid h hs hbucket.1

theorem listedSettlements_only (h : db.Tenanted) (config : ReadConfig) (status : Option String) :
    listedSettlements config (db.only A) id status = listedSettlements config db id status := by
  apply selectRows_filter_of_imp
  intro s hs hselects
  simp only [settlementsWhere, Where.and, Bool.and_eq_true, decide_eq_true_eq] at hselects
  exact owns_settlement hid h hs hselects.1

end Bucket

end Only

/-! ### The reads -/

section Reads

variable {config : ReadConfig} {dbs : ℕ → Db} {A : String} (h : ∀ k, (dbs k).Tenanted)

theorem listedCustomers_only (db : Db) :
    listedCustomers config (db.only A) A = listedCustomers config db A :=
  selectRows_filter_of_imp fun _ _ hA => of_decide_eq_true hA

theorem listedAccounts_only (db : Db) (status : Option String) :
    listedAccounts config (db.only A) A status = listedAccounts config db A status := by
  apply selectRows_filter_of_imp
  intro a _ hselects
  simp only [accountsWhere, Where.and, Bool.and_eq_true, decide_eq_true_eq] at hselects
  exact hselects.1

theorem listedBuckets_only (db : Db) (status : Option String) :
    listedBuckets config (db.only A) A status = listedBuckets config db A status := by
  apply selectRows_filter_of_imp
  intro b _ hselects
  simp only [bucketsWhere, Where.and, Bool.and_eq_true, decide_eq_true_eq] at hselects
  exact hselects.1

theorem resolveAccountId_only (db : Db) (accountRef : String) :
    resolveAccountId (db.only A) accountRef A = resolveAccountId db accountRef A := by
  rw [resolveAccountId, findAccountByRef_only, resolveAccountId]

/-- The account that a reference stands for. -/
theorem owned_of_resolveAccountId {db : Db} {accountRef id : String}
    (hid : resolveAccountId db accountRef A = .ok id) : Owned db.rows A (.account id) := by
  unfold resolveAccountId at hid
  cases hfound : db.findAccountByRef accountRef A with
  | none =>
    rw [hfound] at hid
    cases hid
  | some a =>
    rw [hfound] at hid
    cases hid
    exact owned_of_findAccountByRef hfound

include h in
theorem listCustomers_only (q : PageQuery) :
    listCustomers config (fun k => (dbs k).only A) A q = listCustomers config dbs A q := by
  have hitems : (listedCustomers config (dbs 0) A).map (customerItem ((dbs 0).only A)) =
      (listedCustomers config (dbs 0) A).map (customerItem (dbs 0)) := by
    refine List.map_congr_left fun c hc => ?_
    obtain ⟨hmem, hA⟩ := mem_selectRows.1 hc
    exact customerItem_only (h 0) hmem (of_decide_eq_true hA)
  rw [listCustomers, listCustomers, listedCustomers_only, listedCustomers_only, hitems]

include h in
theorem listAccounts_only (status : Option String) (q : PageQuery) :
    listAccounts config (fun k => (dbs k).only A) A status q = listAccounts config dbs A status q := by
  have hitems : (listedAccounts config (dbs 0) A status).map (accountItem config ((dbs 0).only A)) =
      (listedAccounts config (dbs 0) A status).map (accountItem config (dbs 0)) := by
    refine List.map_congr_left fun a ha => ?_
    obtain ⟨hmem, hselects⟩ := mem_selectRows.1 ha
    simp only [accountsWhere, Where.and, Bool.and_eq_true, decide_eq_true_eq] at hselects
    exact accountItem_only config (h 0) hmem hselects.1
  rw [listAccounts, listAccounts, listedAccounts_only, listedAccounts_only, hitems]

include h in
theorem getCustomer_only (id : String) :
    getCustomer config (fun k => (dbs k).only A) id A = getCustomer config dbs id A := by
  rw [getCustomer, getCustomer, findCustomerOf_only]
  cases hfound : (dbs 0).findCustomerOf id A with
  | none => rfl
  | some c =>
    obtain ⟨hc, -, hA⟩ := Db.findCustomerOf_eq_some hfound
    dsimp only
    rw [nameHistoryOf_only hc hA, accountsOf_only (h 0) hc hA]

/-- What is read of an account that is looked up first. -/
theorem bind_resolveAccountId_only {α : Type} {db db' : Db} (hrows : db.rows ⊆ db'.rows)
    {accountRef : String} {f g : String → Except Error α}
    (hf : ∀ id, Owned db'.rows A (.account id) → f id = g id) :
    (resolveAccountId (db.only A) accountRef A >>= f) = (resolveAccountId db accountRef A >>= g) := by
  rw [resolveAccountId_only]
  cases hid : resolveAccountId db accountRef A with
  | error e => rfl
  | ok id => exact hf id ((owned_of_resolveAccountId hid).mono hrows)

/-- The account of a summary is there at each of its queries. -/
theorem getSummaryByAccountRef_only (hrows : ∀ k, (dbs 0).rows ⊆ (dbs k).rows)
    (accountRef : String) : getSummaryByAccountRef (fun k => (dbs k).only A) accountRef A =
      getSummaryByAccountRef dbs accountRef A := by
  unfold getSummaryByAccountRef
  rw [resolveAccountId_only]
  cases hid : resolveAccountId (dbs 0) accountRef A with
  | error e => rfl
  | ok id =>
    have howned : ∀ k, Owned (dbs k).rows A (.account id) := fun k =>
      (owned_of_resolveAccountId hid).mono (hrows k)
    have hsummary : getSummary (fun k => (dbs (k + 1)).only A) id =
        getSummary (fun k => dbs (k + 1)) id := by
      unfold getSummary
      rw [inflowsOf_only (howned 1), inflowSum_only (howned 2), inflowsByStatus_only (howned 3),
        inflowsOf_only (howned 4)]
    exact congrArg Except.ok hsummary

include h in
theorem getAccountState_only (hrows : ∀ k, (dbs 1).rows ⊆ (dbs (k + 1)).rows)
    (accountRef : String) :
    getAccountState config (fun k => (dbs k).only A) accountRef A =
      getAccountState config dbs accountRef A := by
  have hsummary : getSummaryByAccountRef (fun k => (dbs (k + 1)).only A) accountRef A =
      getSummaryByAccountRef (fun k => dbs (k + 1)) accountRef A :=
    @getSummaryByAccountRef_only (fun k => dbs (k + 1)) A hrows accountRef
  rw [getAccountState, getAccountState, findAccountByRef_only, hsummary]
  cases hfound : (dbs 0).findAccountByRef accountRef A with
  | none => rfl
  | some a =>
    have hid : Owned (dbs 0).rows A (.account a.id) := owned_of_findAccountByRef hfound
    have hmem : a ∈ (dbs 0).accounts := List.mem_of_find?_eq_some hfound
    have hA : a.accountRef = accountRef ∧ a.businessId = A := by simpa using List.find?_some hfound
    dsimp only
    rw [accountCustomer_only (h 0) hmem hA.2, activeRulesByPriority_only hid]

include h in
theorem getBucket_only (hrows : ∀ k, (dbs 0).rows ⊆ (dbs k).rows) (bucketRef : String) :
    getBucket (fun k => (dbs k).only A) bucketRef A = getBucket dbs bucketRef A := by
  rw [getBucket, getBucket, findBucket_only]
  cases hfound : (dbs 0).findBucket A bucketRef with
  | none => rfl
  | some b =>
    have hid : ∀ k, Owned (dbs k).rows A (.bucket b.id) := fun k =>
      (owned_of_findBucket hfound).mono (hrows k)
    dsimp only
    rw [entrySum_only (hid 1), entrySum_only (hid 2), reservedKobo_only (hid 3) (h 3)]

theorem getStatement_only (hrows : (dbs 0).rows ⊆ (dbs 1).rows) (filters : StatementFilters)
    (bucketRef : String) :
    getStatement config.client config.rank (fun k => (dbs k).only A) filters bucketRef A =
      getStatement config.client config.rank dbs filters bucketRef A := by
  rw [getStatement, getStatement, findBucket_only]
  cases hfound : (dbs 0).findBucket A bucketRef with
  | none => rfl
  | some b =>
    have hid : Owned (dbs 1).rows A (.bucket b.id) := (owned_of_findBucket hfound).mono hrows
    dsimp only
    rw [statementEntries_only hid]

include h in
theorem getByBucket_only (hrows : ∀ k, (dbs 0).rows ⊆ (dbs k).rows) (bucketRef : String)
    (status : Option String) (q : PageQuery) :
    getByBucket config (fun k => (dbs k).only A) bucketRef A status q =
      getByBucket config dbs bucketRef A status q := by
  rw [getByBucket, getByBucket, findBucket_only]
  cases hfound : (dbs 0).findBucket A bucketRef with
  | none => rfl
  | some b =>
    have hid : ∀ k, Owned (dbs k).rows A (.bucket b.id) := fun k =>
      (owned_of_findBucket hfound).mono (hrows k)
    dsimp only
    rw [listedSettlements_only (hid 1) (h 1), listedSettlements_only (hid 2) (h 2)]

include h in
/-- Every route answers from the rows of its business. -/
theorem answer_only (q : ApiRead) (hrows : ∀ i j, q.Awaits i j → (dbs i).rows ⊆ (dbs j).rows) :
    q.answer config (fun k => (dbs k).only A) A = q.answer config dbs A := by
  -- what a route looks up first is still there later
  have hfirst : (∀ k, 0 < k → q.Awaits 0 k) → ∀ k, (dbs 0).rows ⊆ (dbs k).rows := by
    intro hawaits k
    rcases Nat.eq_zero_or_pos k with rfl | hk
    · exact Set.Subset.rfl
    · exact hrows 0 k (hawaits k hk)
  cases q with
  | listCustomers q => simp only [ApiRead.answer, listCustomers_only h]
  | getCustomer id => simp only [ApiRead.answer, getCustomer_only h]
  | listAccounts status q => simp only [ApiRead.answer, listAccounts_only h]
  | getAccountState accountRef =>
    have hlater : ∀ k, (dbs 1).rows ⊆ (dbs (k + 1)).rows := by
      intro k
      rcases Nat.eq_zero_or_pos k with rfl | hk
      · exact Set.Subset.rfl
      · exact hrows 1 (k + 1) ⟨by omega, by norm_num⟩
    simp only [ApiRead.answer, getAccountState_only h hlater]
  | getEntries accountRef filters =>
    have hentries : getEntriesByAccountRef config (fun k => (dbs k).only A) accountRef A filters =
        getEntriesByAccountRef config dbs accountRef A filters :=
      bind_resolveAccountId_only (hfirst (fun k hk => ⟨rfl, hk⟩) 1) fun id hid =>
        getEntries_only hid _ _ _
    simp only [ApiRead.answer, hentries]
  | getSummary accountRef =>
    simp only [ApiRead.answer, getSummaryByAccountRef_only (hfirst fun k hk => ⟨rfl, hk⟩)]
  | exportCsv accountRef =>
    have hcsv : exportCsvByAccountRef config (fun k => (dbs k).only A) accountRef A =
        exportCsvByAccountRef config dbs accountRef A := by
      apply bind_resolveAccountId_only (hfirst (fun k hk => ⟨rfl, hk⟩) 1)
      intro id hid
      rw [exportCsv_only hid]
    simp only [ApiRead.answer, hcsv]
  | getBuckets status q =>
    simp only [ApiRead.answer, AccountOS.getBuckets, listedBuckets_only]
  | getBucket bucketRef =>
    simp only [ApiRead.answer, getBucket_only h (hfirst fun k hk => ⟨rfl, hk⟩)]
  | getBalance bucketRef =>
    simp only [ApiRead.answer, AccountOS.getBalance, getBucket_only h (hfirst fun k hk => ⟨rfl, hk⟩)]
  | getStatement bucketRef filters =>
    simp only [ApiRead.answer, getStatement_only (hfirst (fun k hk => ⟨rfl, hk⟩) 1)]
  | getByBucket bucketRef status q =>
    simp only [ApiRead.answer, getByBucket_only h (hfirst fun k hk => ⟨rfl, hk⟩)]

end Reads

/-! ### What requests leave alone -/

/-- No request writes the ledger of an account. -/
def SameLedgerEntries (w w' : World) : Prop := w'.db.ledgerEntries = w.db.ledgerEntries

theorem RegistryOp.ledgerEntries {o : RegistryOp} {db db' : Db} (hop : o.apply db = .ok db') :
    db'.ledgerEntries = db.ledgerEntries := by
  cases o with
  | createCustomer c h => rw [(Db.createCustomer_eq_ok.1 hop).2.2.2.2]
  | renameCustomer id newName h => rw [(Db.renameCustomer_eq_ok.1 hop).2.2]
  | createTreasuryBucket b => rw [(Db.createTreasuryBucket_eq_ok.1 hop).2.2.2]
  | renameBucket id name => rw [(Db.renameBucket_eq_ok.1 hop).2]

theorem requestFootprint_ledgerEntries : RequestFootprint SameLedgerEntries where
  sameData h := congrArg Db.ledgerEntries h.db
  writes := by
    rintro o w w' db ho hop rfl
    apply (WriteOp.sameExcept hop).ledgerEntries
    cases o with
    | createLedgerEntry | updateReconciliationByRef | updateReconciliationById => cases ho
    | _ => exact fun h => by cases h
  register := by
    rintro o w w' db hop rfl
    exact RegistryOp.ledgerEntries hop
  bucketStatus := by
    rintro id status w w' db hop rfl
    rw [(Db.updateBucketStatus_eq_ok.1 hop).2]
    rfl
  transfers _ _ := rfl
  trans h h' := h'.trans h

/-! ### Runs -/

section Run

variable {ι : Type} [DecidableEq ι] {isUrl : String → Bool} {tasks : ι → Task} {w₀ w : World}
  {hist : List (Event ι World Env Call)} {ps : ι → Action Unit} {config : ReadConfig} {A : String}

theorem sameLedgerEntries_of_run {allowed : Call → Env → World → World → Prop}
    (run : Run allowed (fun i => (tasks i).run isUrl) w₀ hist ps w) {n : ℕ}
    {ev : Event ι World Env Call} (hev : hist[n]? = some ev) {B : String} {r : ApiRequest}
    (hr : tasks ev.who = .request B r) : SameLedgerEntries ev.before ev.after := by
  have htraced : ∀ i, ((tasks i).run isUrl).Traced i
      (fun _ ev => ∀ B r, tasks i = .request B r → SameLedgerEntries ev.before ev.after)
      (fun _ _ => True) (fun _ _ => True) [] := by
    intro i
    cases htask : tasks i with
    | request B r =>
      refine Proc.Traced.imp (fun _ _ _ h _ _ _ => h) ?_
      exact (requestFootprint_ledgerEntries.keeps_request r).traced_each
    | inflow | retry =>
      refine Proc.Traced.imp (fun _ _ _ _ B r h => ?_) (Proc.traced_trivial _)
      cases h
  exact (run.traced htraced).1 n ev hev B r hr

section States

variable (h₀ : w₀.db.Tenanted)
  (run : Run (fun _ env _ _ => ¬ IsCustomId env.row.id) (fun i => (tasks i).run isUrl) w₀ hist ps w)
include h₀ run

theorem tenanted_at (n : ℕ) : (stateAt hist w n).db.Tenanted :=
  run.always (I := fun w => w.db.Tenanted) h₀
    (fun _ ev hev h => (written_of_run h₀ run ev (List.mem_of_getElem? hev)).2.tenanted h) n

/-- Rows never go away. -/
theorem rows_at_subset {m n : ℕ} (hmn : m ≤ n) :
    (stateAt hist w m).db.rows ⊆ (stateAt hist w n).db.rows := by
  refine run.persists (P := fun w' => (stateAt hist w m).db.rows ⊆ w'.db.rows) hmn Set.Subset.rfl ?_
  intro k ev _ _ hev h
  exact h.trans (written_of_run h₀ run ev (List.mem_of_getElem? hev)).2.subset

/-- **A business reads as if it were alone in the database**, whenever the queries of its read are made
and whatever cursor it gives, with rows of one time in the same order. -/
theorem tenant_reads_alone (q : ApiRead) {point : ℕ → ℕ}
    (hpoint : ∀ i j, q.Awaits i j → point i ≤ point j) :
    q.answer config (fun k => (stateAt hist w (point k)).db) A =
      q.answer config (fun k => (stateAt hist w (point k)).db.only A) A :=
  (answer_only (fun k => tenanted_at h₀ run (point k)) q fun i j hij =>
    rows_at_subset h₀ run (hpoint i j hij)).symm

/-- The rows of a business stay as they are while others are served. -/
theorem only_persists {m n : ℕ} (hmn : m ≤ n)
    (hothers : ∀ k ev, m ≤ k → k < n → hist[k]? = some ev →
      ∃ B r, tasks ev.who = .request B r ∧ B ≠ A) :
    (stateAt hist w n).db.only A = (stateAt hist w m).db.only A := by
  refine run.persists (P := fun w' => w'.db.only A = (stateAt hist w m).db.only A) hmn (Eq.refl _) ?_
  intro k ev hmk hkn hev h
  obtain ⟨B, r, hr, hB⟩ := hothers k ev hmk hkn hev
  obtain ⟨-, hwritten⟩ := written_of_run h₀ run ev (List.mem_of_getElem? hev)
  rw [hr] at hwritten
  rw [← h]
  exact Db.only_congr (hwritten.others B rfl A hB.symm) (sameLedgerEntries_of_run run hev hr)

/-- **Whatever a business reads stays the same while only others are served**: a read whose queries are
made between two points of a run answers what it would have answered at the first one, with rows of one
time in the same order. -/
theorem tenant_reads_undisturbed {m n : ℕ}
    (hothers : ∀ k ev, m ≤ k → k < n → hist[k]? = some ev →
      ∃ B r, tasks ev.who = .request B r ∧ B ≠ A) (q : ApiRead) {point : ℕ → ℕ}
    (hpoint : ∀ i j, q.Awaits i j → point i ≤ point j) (hbetween : ∀ k, m ≤ point k ∧ point k ≤ n) :
    q.answer config (fun k => (stateAt hist w (point k)).db) A =
      q.answer config (fun _ => (stateAt hist w m).db) A := by
  have hsame : (fun k => (stateAt hist w (point k)).db.only A) =
      fun _ => (stateAt hist w m).db.only A := by
    funext k
    apply only_persists h₀ run (hbetween k).1
    intro j ev hmj hj
    exact hothers j ev hmj (lt_of_lt_of_le hj (hbetween k).2)
  rw [← answer_only (fun k => tenanted_at h₀ run (point k)) q fun i j hij =>
    rows_at_subset h₀ run (hpoint i j hij), hsame]
  exact answer_only (fun _ => tenanted_at h₀ run m) q fun _ _ _ => Set.Subset.rfl

end States

end Run

/-! ### A read beside another business -/

namespace Sample

def readConfig : ReadConfig where
  client := client
  rank := String.length
  createdAt id := if id = "cus1" then 1 else 2

/-- The first business has created its customer; the second one creates its own while the first lists
its customers. -/
def listing : ApiRead := .listCustomers {}

end Sample

theorem tenant_reads_alone_listing :
    ∃ hist ps w, Run (fun _ env _ _ => ¬ IsCustomId env.row.id)
        (fun i => (Sample.parentAndChild i).run fun _ => true) Sample.twoBusinesses hist ps w ∧
      Sample.listing.answer Sample.readConfig (fun k => (stateAt hist w (k + 1)).db) "biz1" =
        Sample.listing.answer Sample.readConfig (fun k => (stateAt hist w (k + 1)).db.only "biz1")
          "biz1" :=
  ⟨_, _, _, Sample.parentAndChild_isRun,
    tenant_reads_alone (tenanted_fresh _) Sample.parentAndChild_isRun _ fun _ _ h => h.elim⟩

theorem tenant_reads_undisturbed_listing :
    ∃ hist ps w, Run (fun _ env _ _ => ¬ IsCustomId env.row.id)
        (fun i => (Sample.parentAndChild i).run fun _ => true) Sample.twoBusinesses hist ps w ∧
      Sample.listing.answer Sample.readConfig (fun k => (stateAt hist w (min (k + 1) 2)).db) "biz1" =
        Sample.listing.answer Sample.readConfig (fun _ => (stateAt hist w 1).db) "biz1" := by
  have hsecond : Sample.parentAndChildRun.1[1]?.map Event.who = some true := by decide +kernel
  refine ⟨_, _, _, Sample.parentAndChild_isRun, tenant_reads_undisturbed (tenanted_fresh _)
    Sample.parentAndChild_isRun ?_ _ (fun _ _ h => h.elim) fun k => ⟨?_, min_le_right _ _⟩⟩
  · intro k ev h1 h2 hev
    have hk : k = 1 := by omega
    rw [hk] at hev
    rw [hev] at hsecond
    have hwho : ev.who = true := Option.some.inj hsecond
    rw [hwho]
    exact ⟨"biz2", _, rfl, by decide⟩
  · omega

end AccountOS
