import AccountOS.Conc.Interference
import AccountOS.Queue.Correctness.Configuration
import AccountOS.Sql.Slice

/-!
# Two tenants of one database

Business A dispatches events and business B receives inflows and dispatches events of its own. What
is written for A carries ids of its own, the event ids and the transaction references of A's events,
and names A's accounts and buckets. While none of these is one of B's, a statement of A changes no
row that a query of B selects, and a statement of B succeeds or fails whatever is written for A.
-/

namespace AccountOS

open Conc Sql

/-! ### The tenants -/

inductive Tenant
  | a | b
deriving DecidableEq

/-- The id of what stands in for the ledger entry of a custom event. -/
def IsCustomId (id : String) : Prop := "custom_".toList <+: id.toList

instance : DecidablePred IsCustomId :=
  fun id => inferInstanceAs (Decidable ("custom_".toList <+: id.toList))

/-- The database that the run starts from, the businesses, the ids of the rows that are written for
A, and the event ids and transaction references of each tenant's jobs; for A, of those that the
worker takes for inflows. -/
structure Tenants where
  db₀ : Db
  businessId : Tenant → String
  writtenForA : String → Prop
  eventIds : Tenant → String → Prop
  transactionRefs : Tenant → String → Prop

namespace Tenants

variable (T : Tenants)

/-- The ids of the rows of a tenant. -/
def WrittenFor : Tenant → String → Prop
  | .a, id => T.writtenForA id
  | .b, id => ¬ T.writtenForA id

/-- The transaction references that a tenant's entries may have. An inflow that A has already
received is not recorded again. -/
def RecordsRef : Tenant → String → Prop
  | .a, ref => T.transactionRefs .a ref ∧ ∀ e ∈ T.db₀.ledgerEntries, e.nombaTransactionRef ≠ ref
  | .b, ref => T.transactionRefs .b ref

def OwnsAccount (t : Tenant) (id : String) : Prop :=
  ∃ a ∈ T.db₀.accounts, a.businessId = T.businessId t ∧ a.id = id

def OwnsNumber (t : Tenant) (accountNumber : String) : Prop :=
  ∃ a ∈ T.db₀.accounts, a.businessId = T.businessId t ∧ a.accountNumber = accountNumber

def OwnsBucket (t : Tenant) (id : String) : Prop :=
  ∃ b ∈ T.db₀.treasuryBuckets, b.businessId = T.businessId t ∧ b.id = id

/-- The reference of an allocation of one of the tenant's inflows. -/
def IsAllocation (t : Tenant) (reference : String) : Prop :=
  ∃ ref, T.RecordsRef t ref ∧ ∃ b ∈ T.db₀.treasuryBuckets, reference = allocationReference ref b.id

/-- The entry that an allocation may be sourced from: one of the tenant's, or none at all. -/
def Sources (t : Tenant) (ledgerEntryId : String) : Prop :=
  IsCustomId ledgerEntryId ∨ T.WrittenFor t ledgerEntryId

/-- The tenants' identifiers are told apart, and ids are unique and long enough. -/
structure Apart : Prop where
  businesses : T.businessId .a ≠ T.businessId .b
  eventIds : ∀ eventId, T.eventIds .a eventId → ¬ T.eventIds .b eventId
  transactionRefs : ∀ ref, T.transactionRefs .a ref → ¬ T.transactionRefs .b ref
  unique : T.db₀.UniqueColumns
  bucketIds : ∀ b ∈ T.db₀.treasuryBuckets, 8 ≤ b.id.toList.length

/-- The configuration is as it was, and the rows with A's ids, and only those, are A's. -/
structure Inv (db : Db) : Prop where
  configuration : SameConfiguration T.db₀ db
  customers : db.customers = T.db₀.customers
  recorded : ∀ e₀ ∈ T.db₀.ledgerEntries, ∃ e ∈ db.ledgerEntries,
    e.nombaTransactionRef = e₀.nombaTransactionRef
  notCustom : ∀ e ∈ db.ledgerEntries, ¬ IsCustomId e.id
  transactionRefs : ∀ e ∈ db.ledgerEntries,
    T.writtenForA e.id ↔ T.RecordsRef .a e.nombaTransactionRef
  ledgerEntries : ∀ e ∈ db.ledgerEntries, T.writtenForA e.id → T.OwnsAccount .a e.accountId
  ruleExecutions : ∀ x ∈ db.ruleExecutions, T.writtenForA x.id → T.OwnsAccount .a x.accountId
  processedEvents : ∀ e ∈ db.processedEvents, T.writtenForA e.id →
    T.eventIds .a e.eventId ∧ e.businessId = some (T.businessId .a)
  bucketLedgerEntries : ∀ e ∈ db.bucketLedgerEntries, T.writtenForA e.id →
    T.OwnsBucket .a e.bucketId ∧ T.IsAllocation .a e.reference

/-- Two databases that differ at most in A's rows. -/
structure SameOutside (db db' : Db) : Prop where
  accounts : SameRows (fun a => a.businessId ≠ T.businessId .a) db.accounts db'.accounts
  ledgerEntries : SameRows (fun e => ¬ T.writtenForA e.id) db.ledgerEntries db'.ledgerEntries
  ruleExecutions : SameRows (fun x => ¬ T.writtenForA x.id) db.ruleExecutions db'.ruleExecutions
  processedEvents :
    SameRows (fun e => ¬ T.writtenForA e.id) db.processedEvents db'.processedEvents
  bucketLedgerEntries :
    SameRows (fun e => ¬ T.writtenForA e.id) db.bucketLedgerEntries db'.bucketLedgerEntries

/-- The statements that are executed for a tenant. -/
def Writes (t : Tenant) : WriteOp → Prop
  | .createBucketLedgerEntry e => T.WrittenFor t e.id ∧ T.OwnsBucket t e.bucketId ∧
      T.IsAllocation t e.reference ∧ ∀ l ∈ e.sourceLedgerEntryId, T.Sources t l
  | .createLedgerEntry e => T.WrittenFor t e.id ∧ ¬ IsCustomId e.id ∧ T.OwnsAccount t e.accountId ∧
      T.RecordsRef t e.nombaTransactionRef
  | .updateReconciliationByRef ref _ => T.RecordsRef t ref
  | .updateReconciliationById id _ => T.WrittenFor t id
  | .createProcessedEvent e => T.WrittenFor t e.id ∧ T.eventIds t e.eventId ∧
      e.businessId = some (T.businessId t)
  | .createRuleExecution x => T.WrittenFor t x.id ∧ T.OwnsAccount t x.accountId ∧
      ∀ l ∈ x.triggeredByLedgerEntryId, T.WrittenFor t l
  | .updateRuleExecution id _ => T.WrittenFor t id
  | .updateAccountStatus id _ => T.OwnsAccount t id
  | _ => False

variable {T}

@[refl] theorem SameOutside.refl (db : Db) : T.SameOutside db db :=
  ⟨.refl _, .refl _, .refl _, .refl _, .refl _⟩

theorem SameOutside.symm {db db' : Db} (h : T.SameOutside db db') : T.SameOutside db' db where
  accounts := h.accounts.symm
  ledgerEntries := h.ledgerEntries.symm
  ruleExecutions := h.ruleExecutions.symm
  processedEvents := h.processedEvents.symm
  bucketLedgerEntries := h.bucketLedgerEntries.symm

theorem SameOutside.trans {db db' db'' : Db} (h : T.SameOutside db db')
    (h' : T.SameOutside db' db'') : T.SameOutside db db'' where
  accounts := h.accounts.trans h'.accounts
  ledgerEntries := h.ledgerEntries.trans h'.ledgerEntries
  ruleExecutions := h.ruleExecutions.trans h'.ruleExecutions
  processedEvents := h.processedEvents.trans h'.processedEvents
  bucketLedgerEntries := h.bucketLedgerEntries.trans h'.bucketLedgerEntries

theorem not_configures_of_writes {t : Tenant} {o : WriteOp} (ho : T.Writes t o) :
    ¬ o.Configures := by
  cases o <;> first | exact id | exact absurd ho id

/-! ### What tells the tenants apart -/

section Apart

variable (hT : T.Apart)
include hT

theorem RecordsRef.ne {ref : String} (hb : T.RecordsRef .b ref) : ¬ T.RecordsRef .a ref :=
  fun ha => hT.transactionRefs ref ha.1 hb

theorem OwnsAccount.ne {id : String} (hb : T.OwnsAccount .b id) : ¬ T.OwnsAccount .a id := by
  rintro ⟨a, ha, hbusiness, hid⟩
  obtain ⟨a', ha', hbusiness', hid'⟩ := hb
  have hsame : a = a' := eq_of_key_eq hT.unique.accounts ha ha' (hid.trans hid'.symm)
  rw [hsame, hbusiness'] at hbusiness
  exact hT.businesses hbusiness.symm

theorem OwnsNumber.ne {number : String} (hb : T.OwnsNumber .b number) :
    ¬ T.OwnsNumber .a number := by
  rintro ⟨a, ha, hbusiness, hnumber⟩
  obtain ⟨a', ha', hbusiness', hnumber'⟩ := hb
  have hsame : a = a' := eq_of_key_eq hT.unique.accountNumbers ha ha' (hnumber.trans hnumber'.symm)
  rw [hsame, hbusiness'] at hbusiness
  exact hT.businesses hbusiness.symm

theorem OwnsBucket.ne {id : String} (hb : T.OwnsBucket .b id) : ¬ T.OwnsBucket .a id := by
  rintro ⟨b, hmem, hbusiness, hid⟩
  obtain ⟨b', hmem', hbusiness', hid'⟩ := hb
  have hsame : b = b' := eq_of_key_eq hT.unique.treasuryBuckets hmem hmem' (hid.trans hid'.symm)
  rw [hsame, hbusiness'] at hbusiness
  exact hT.businesses hbusiness.symm

omit hT in
theorem size_slice8 {b : String} (hb : 8 ≤ b.toList.length) : Utf16.size (slice8 b).toList = 8 := by
  have hlong := Utf16.length_le_size b.toList
  rw [slice8, String.toList_ofList, Utf16.size_take]
  omega

omit hT in
/-- The reference of an allocation tells the inflow: eight units of the bucket's id follow it. -/
theorem eq_of_allocationReference_eq {ref ref' b b' : String} (hb : 8 ≤ b.toList.length)
    (hb' : 8 ≤ b'.toList.length) (h : allocationReference ref b = allocationReference ref' b') :
    ref = ref' := by
  have hlist := congrArg String.toList h
  simp only [allocationReference, String.toList_append, List.append_assoc] at hlist
  have htail := List.append_cancel_left hlist
  have hsize : Utf16.size ("_".toList ++ (slice8 b).toList) =
      Utf16.size ("_".toList ++ (slice8 b').toList) := by
    rw [Utf16.size_append, Utf16.size_append, size_slice8 hb, size_slice8 hb']
  exact String.toList_inj.1 (Utf16.append_inj_of_size htail hsize).1

theorem IsAllocation.ne {reference : String} (hb : T.IsAllocation .b reference) :
    ¬ T.IsAllocation .a reference := by
  rintro ⟨ref, href, b, hmem, heq⟩
  obtain ⟨ref', href', b', hmem', heq'⟩ := hb
  have hsame : ref = ref' := eq_of_allocationReference_eq (hT.bucketIds b hmem)
    (hT.bucketIds b' hmem') (heq.symm.trans heq')
  exact href'.ne hT (hsame ▸ href)

end Apart

/-! ### The rows that a query of B selects -/

namespace Inv

variable {db db' : Db} (h : T.Inv db)
include h

/-- An account of the database, as the run started with it. -/
theorem account {a : Account} (ha : a ∈ db.accounts) :
    ∃ a₀ ∈ T.db₀.accounts, a₀.id = a.id ∧ a₀.accountNumber = a.accountNumber ∧
      a₀.businessId = a.businessId := by
  have hmem : a.steady ∈ T.db₀.accounts.map Account.steady :=
    h.configuration.accounts ▸ List.mem_map_of_mem ha
  obtain ⟨a₀, ha₀, hsteady⟩ := List.mem_map.1 hmem
  have hid := congrArg Account.id hsteady
  have hnumber := congrArg Account.accountNumber hsteady
  have hbusiness := congrArg Account.businessId hsteady
  exact ⟨a₀, ha₀, hid, hnumber, hbusiness⟩

/-- An account of a tenant has one of the tenant's ids and numbers. -/
theorem owns {a : Account} (ha : a ∈ db.accounts) {t : Tenant}
    (hbusiness : a.businessId = T.businessId t) :
    T.OwnsAccount t a.id ∧ T.OwnsNumber t a.accountNumber := by
  obtain ⟨a₀, ha₀, hid, hnumber, hb⟩ := h.account ha
  exact ⟨⟨a₀, ha₀, hb.trans hbusiness, hid⟩, ⟨a₀, ha₀, hb.trans hbusiness, hnumber⟩⟩

variable (hT : T.Apart)
include hT

theorem business_of_id {a : Account} (ha : a ∈ db.accounts) {t : Tenant}
    (hid : T.OwnsAccount t a.id) : a.businessId = T.businessId t := by
  obtain ⟨a₀, ha₀, hid₀, -, hbusiness₀⟩ := h.account ha
  obtain ⟨a₁, ha₁, hbusiness₁, hid₁⟩ := hid
  have hsame : a₀ = a₁ := eq_of_key_eq hT.unique.accounts ha₀ ha₁ (hid₀.trans hid₁.symm)
  rw [← hbusiness₀, hsame, hbusiness₁]

theorem business_of_number {a : Account} (ha : a ∈ db.accounts) {t : Tenant}
    (hnumber : T.OwnsNumber t a.accountNumber) : a.businessId = T.businessId t := by
  obtain ⟨a₀, ha₀, -, hnumber₀, hbusiness₀⟩ := h.account ha
  obtain ⟨a₁, ha₁, hbusiness₁, hnumber₁⟩ := hnumber
  have hsame : a₀ = a₁ :=
    eq_of_key_eq hT.unique.accountNumbers ha₀ ha₁ (hnumber₀.trans hnumber₁.symm)
  rw [← hbusiness₀, hsame, hbusiness₁]

theorem accounts_of_id {id : String} (hid : T.OwnsAccount .b id) :
    ∀ a ∈ db.accounts, a.id = id → a.businessId ≠ T.businessId .a := by
  rintro a ha rfl hbusiness
  exact hid.ne hT (h.owns ha hbusiness).1

theorem accounts_of_number {number : String} (hnumber : T.OwnsNumber .b number) :
    ∀ a ∈ db.accounts, a.accountNumber = number → a.businessId ≠ T.businessId .a := by
  rintro a ha rfl hbusiness
  exact hnumber.ne hT (h.owns ha hbusiness).2

theorem ledgerEntries_of_ref {ref : String} (href : T.RecordsRef .b ref) :
    ∀ e ∈ db.ledgerEntries, e.nombaTransactionRef = ref → ¬ T.writtenForA e.id := by
  rintro e he rfl hid
  exact href.ne hT ((h.transactionRefs e he).1 hid)

theorem ledgerEntries_of_account {accountId : String} (haccount : T.OwnsAccount .b accountId) :
    ∀ e ∈ db.ledgerEntries, e.accountId = accountId → ¬ T.writtenForA e.id := by
  rintro e he rfl hid
  exact haccount.ne hT (h.ledgerEntries e he hid)

omit hT in
theorem ledgerEntries_of_source {id : String} (hid : T.Sources .b id) :
    ∀ e ∈ db.ledgerEntries, e.id = id → ¬ T.writtenForA e.id := by
  rintro e he rfl
  rcases hid with hcustom | hid
  · exact absurd hcustom (h.notCustom e he)
  · exact hid

theorem processedEvents_of_eventId {eventId : String} (hevent : T.eventIds .b eventId) :
    ∀ e ∈ db.processedEvents, e.eventId = eventId → ¬ T.writtenForA e.id := by
  rintro e he rfl hid
  exact hT.eventIds _ (h.processedEvents e he hid).1 hevent

theorem bucketLedgerEntries_of_bucket {bucketId : String} (hbucket : T.OwnsBucket .b bucketId) :
    ∀ e ∈ db.bucketLedgerEntries, e.bucketId = bucketId → ¬ T.writtenForA e.id := by
  rintro e he rfl hid
  exact hbucket.ne hT (h.bucketLedgerEntries e he hid).1

theorem bucketLedgerEntries_of_reference {reference : String}
    (href : T.IsAllocation .b reference) :
    ∀ e ∈ db.bucketLedgerEntries, e.reference = reference → ¬ T.writtenForA e.id := by
  rintro e he rfl hid
  exact href.ne hT (h.bucketLedgerEntries e he hid).2

end Inv

/-! ### The statements of a tenant -/

section Statements

variable {db db' : Db} {o : WriteOp}

/-- **A statement of A changes only A's rows.** -/
theorem SameOutside.of_writes (hT : T.Apart) (ho : T.Writes .a o) (h : T.Inv db)
    (hop : o.apply db = .ok db') : T.SameOutside db db' := by
  cases o with
  | createBucketLedgerEntry e =>
    obtain ⟨-, -, -, -, rfl⟩ := Db.createBucketLedgerEntry_eq_ok.1 hop
    exact { refl db with bucketLedgerEntries := .append_of_not (not_not.2 ho.1) }
  | createLedgerEntry e =>
    obtain ⟨-, -, -, rfl⟩ := Db.createLedgerEntry_eq_ok.1 hop
    exact { refl db with ledgerEntries := .append_of_not (not_not.2 ho.1) }
  | updateReconciliationByRef ref status =>
    obtain ⟨-, rfl⟩ := Db.updateReconciliationByRef_eq_ok.1 hop
    refine { refl db with ledgerEntries := .updateRow_of_not (fun _ => Iff.rfl) ?_ }
    -- the references of A are on A's rows alone
    rintro e he rfl
    exact not_not.2 ((h.transactionRefs e he).2 ho)
  | updateReconciliationById id status =>
    obtain ⟨-, rfl⟩ := Db.updateReconciliationById_eq_ok.1 hop
    refine { refl db with ledgerEntries := .updateRow_of_not (fun _ => Iff.rfl) ?_ }
    rintro e - rfl
    exact not_not.2 ho
  | createProcessedEvent e =>
    obtain ⟨-, -, rfl⟩ := Db.createProcessedEvent_eq_ok.1 hop
    exact { refl db with processedEvents := .append_of_not (not_not.2 ho.1) }
  | createRuleExecution x =>
    obtain ⟨-, -, -, -, rfl⟩ := Db.createRuleExecution_eq_ok.1 hop
    exact { refl db with ruleExecutions := .append_of_not (not_not.2 ho.1) }
  | updateRuleExecution id data =>
    obtain ⟨-, rfl⟩ := Db.updateRuleExecution_eq_ok.1 hop
    refine { refl db with ruleExecutions := .updateRow_of_not (fun _ => Iff.rfl) ?_ }
    rintro x - rfl
    exact not_not.2 ho
  | updateAccountStatus id status =>
    obtain ⟨-, rfl⟩ := Db.updateAccountStatus_eq_ok.1 hop
    refine { refl db with accounts := .updateRow_of_not (fun _ => Iff.rfl) ?_ }
    rintro a ha rfl
    exact not_not.2 (h.business_of_id hT ha ho)
  | _ => exact absurd ho id

/-- The rows with one of B's ids are not A's. -/
theorem not_written_of_key {α : Type} {key : α → String} {id : String}
    (hid : T.WrittenFor .b id) (t : List α) : ∀ x ∈ t, key x = id → ¬ T.writtenForA (key x) := by
  rintro x - rfl
  exact hid

/-- **A statement of B has one outcome**, whatever is written for A. -/
theorem agrees_apply (hT : T.Apart) (ho : T.Writes .b o) (h : T.Inv db) (h' : T.Inv db')
    (hsame : T.SameOutside db db') : Agrees T.SameOutside (o.apply db) (o.apply db') := by
  have hrules : db'.rules = db.rules := h'.configuration.rules.trans h.configuration.rules.symm
  have hbuckets : db'.treasuryBuckets = db.treasuryBuckets :=
    h'.configuration.treasuryBuckets.trans h.configuration.treasuryBuckets.symm
  -- each constraint is checked on rows that are written for B, which both databases share
  cases o with
  | createBucketLedgerEntry e =>
    obtain ⟨hid, hbucket, href, hsource⟩ := ho
    refine .check (hsame.bucketLedgerEntries.exists_iff ?_ ?_) (.check
      (hsame.bucketLedgerEntries.exists_iff ?_ ?_) (.check (by rw [hbuckets]) (.check ?_ (.ok ?_))))
    · exact not_written_of_key hid _
    · exact not_written_of_key hid _
    · exact h.bucketLedgerEntries_of_reference hT href
    · exact h'.bucketLedgerEntries_of_reference hT href
    · refine exists_congr fun l => and_congr_right fun hl => ?_
      exact hsame.ledgerEntries.forall_not_iff (h.ledgerEntries_of_source (hsource l hl))
        (h'.ledgerEntries_of_source (hsource l hl))
    · exact { hsame with bucketLedgerEntries := hsame.bucketLedgerEntries.append e }
  | createLedgerEntry e =>
    obtain ⟨hid, -, haccount, href⟩ := ho
    refine .check (hsame.ledgerEntries.exists_iff ?_ ?_) (.check
      (hsame.ledgerEntries.exists_iff ?_ ?_) (.check
        (hsame.accounts.forall_not_iff ?_ ?_) (.ok ?_)))
    · exact not_written_of_key hid _
    · exact not_written_of_key hid _
    · exact h.ledgerEntries_of_ref hT href
    · exact h'.ledgerEntries_of_ref hT href
    · exact h.accounts_of_id hT haccount
    · exact h'.accounts_of_id hT haccount
    · exact { hsame with ledgerEntries := hsame.ledgerEntries.append e }
  | updateReconciliationByRef ref status =>
    refine .check (hsame.ledgerEntries.forall_not_iff (h.ledgerEntries_of_ref hT ho)
      (h'.ledgerEntries_of_ref hT ho)) (.ok ?_)
    exact { hsame with ledgerEntries := hsame.ledgerEntries.updateRow fun _ => Iff.rfl }
  | updateReconciliationById id status =>
    refine .check (hsame.ledgerEntries.forall_not_iff ?_ ?_) (.ok ?_)
    · exact not_written_of_key ho _
    · exact not_written_of_key ho _
    · exact { hsame with ledgerEntries := hsame.ledgerEntries.updateRow fun _ => Iff.rfl }
  | createProcessedEvent e =>
    obtain ⟨hid, hevent, -⟩ := ho
    refine .check (hsame.processedEvents.exists_iff ?_ ?_) (.check
      (hsame.processedEvents.exists_iff ?_ ?_) (.ok ?_))
    · exact not_written_of_key hid _
    · exact not_written_of_key hid _
    · exact h.processedEvents_of_eventId hT hevent
    · exact h'.processedEvents_of_eventId hT hevent
    · exact { hsame with processedEvents := hsame.processedEvents.append e }
  | createRuleExecution x =>
    obtain ⟨hid, haccount, hsource⟩ := ho
    refine .check (hsame.ruleExecutions.exists_iff ?_ ?_) (.check (by rw [hrules]) (.check
      (hsame.accounts.forall_not_iff ?_ ?_) (.check ?_ (.ok ?_))))
    · exact not_written_of_key hid _
    · exact not_written_of_key hid _
    · exact h.accounts_of_id hT haccount
    · exact h'.accounts_of_id hT haccount
    · refine exists_congr fun l => and_congr_right fun hl => ?_
      exact hsame.ledgerEntries.forall_not_iff (h.ledgerEntries_of_source (.inr (hsource l hl)))
        (h'.ledgerEntries_of_source (.inr (hsource l hl)))
    · exact { hsame with ruleExecutions := hsame.ruleExecutions.append x }
  | updateRuleExecution id data =>
    refine .check (hsame.ruleExecutions.forall_not_iff ?_ ?_) (.ok ?_)
    · exact not_written_of_key ho _
    · exact not_written_of_key ho _
    · exact { hsame with ruleExecutions := hsame.ruleExecutions.updateRow fun _ => Iff.rfl }
  | updateAccountStatus id status =>
    refine .check (hsame.accounts.forall_not_iff (h.accounts_of_id hT ho)
      (h'.accounts_of_id hT ho)) (.ok ?_)
    exact { hsame with accounts := hsame.accounts.updateRow fun _ => Iff.rfl }
  | _ => exact absurd ho id

/-- The ids of a tenant's rows are A's only if the tenant is A. -/
theorem eq_a_of_writtenFor {t : Tenant} {id : String} (hid : T.WrittenFor t id)
    (ha : T.writtenForA id) : t = .a := by
  cases t with
  | a => rfl
  | b => exact absurd ha hid

/-- The reconciliation status of an entry is nothing that the invariant looks at. -/
theorem Inv.reconcile {κ : Type} [DecidableEq κ] {key : LedgerEntry → κ} {k : κ}
    {status : ReconciliationStatus} (h : T.Inv db)
    (hconf : SameConfiguration T.db₀ { db with
      ledgerEntries := updateRow key k (fun x => { x with reconciliationStatus := status })
        db.ledgerEntries }) :
    T.Inv { db with
      ledgerEntries := updateRow key k (fun x => { x with reconciliationStatus := status })
        db.ledgerEntries } :=
  { h with
    configuration := hconf
    recorded := fun e₀ he₀ => exists_mem_updateRow (fun _ => id) (h.recorded e₀ he₀)
    notCustom := forall_mem_updateRow (fun _ => id) h.notCustom
    transactionRefs := forall_mem_updateRow (fun _ => id) h.transactionRefs
    ledgerEntries := forall_mem_updateRow (fun _ => id) h.ledgerEntries }

/-- **A statement of a tenant keeps the invariant.** -/
theorem Inv.apply (hT : T.Apart) {t : Tenant} (ho : T.Writes t o) (h : T.Inv db)
    (hop : o.apply db = .ok db') : T.Inv db' := by
  have hconf := h.configuration.apply hop (not_configures_of_writes ho)
  -- a row that is appended is looked at only if it is written for A
  cases o with
  | createBucketLedgerEntry e =>
    obtain ⟨-, -, -, -, rfl⟩ := Db.createBucketLedgerEntry_eq_ok.1 hop
    obtain ⟨hid, hbucket, href, -⟩ := ho
    refine { h with
      configuration := hconf
      bucketLedgerEntries := List.forall_mem_append.2 ⟨h.bucketLedgerEntries, ?_⟩ }
    refine List.forall_mem_singleton.2 fun ha => ?_
    obtain rfl := eq_a_of_writtenFor hid ha
    exact ⟨hbucket, href⟩
  | createLedgerEntry e =>
    obtain ⟨-, -, -, rfl⟩ := Db.createLedgerEntry_eq_ok.1 hop
    obtain ⟨hid, hcustom, haccount, href⟩ := ho
    refine { h with
      configuration := hconf
      recorded := fun e₀ he₀ => ?_
      notCustom := List.forall_mem_append.2 ⟨h.notCustom, List.forall_mem_singleton.2 hcustom⟩
      transactionRefs := List.forall_mem_append.2
        ⟨h.transactionRefs, List.forall_mem_singleton.2 ?_⟩
      ledgerEntries := List.forall_mem_append.2 ⟨h.ledgerEntries, List.forall_mem_singleton.2 ?_⟩ }
    · obtain ⟨x, hx, hxref⟩ := h.recorded e₀ he₀
      exact ⟨x, List.mem_append_left _ hx, hxref⟩
    · cases t with
      | a => exact iff_of_true hid href
      | b => exact iff_of_false hid (href.ne hT)
    · intro ha
      obtain rfl := eq_a_of_writtenFor hid ha
      exact haccount
  | updateReconciliationByRef ref status =>
    obtain ⟨-, rfl⟩ := Db.updateReconciliationByRef_eq_ok.1 hop
    exact h.reconcile hconf
  | updateReconciliationById id' status =>
    obtain ⟨-, rfl⟩ := Db.updateReconciliationById_eq_ok.1 hop
    exact h.reconcile hconf
  | createProcessedEvent e =>
    obtain ⟨-, -, rfl⟩ := Db.createProcessedEvent_eq_ok.1 hop
    obtain ⟨hid, hevent, hbusiness⟩ := ho
    refine { h with
      configuration := hconf
      processedEvents := List.forall_mem_append.2 ⟨h.processedEvents, ?_⟩ }
    refine List.forall_mem_singleton.2 fun ha => ?_
    obtain rfl := eq_a_of_writtenFor hid ha
    exact ⟨hevent, hbusiness⟩
  | createRuleExecution x =>
    obtain ⟨-, -, -, -, rfl⟩ := Db.createRuleExecution_eq_ok.1 hop
    obtain ⟨hid, haccount, -⟩ := ho
    refine { h with
      configuration := hconf
      ruleExecutions := List.forall_mem_append.2 ⟨h.ruleExecutions, ?_⟩ }
    refine List.forall_mem_singleton.2 fun ha => ?_
    obtain rfl := eq_a_of_writtenFor hid ha
    exact haccount
  | updateRuleExecution id' data =>
    obtain ⟨-, rfl⟩ := Db.updateRuleExecution_eq_ok.1 hop
    exact { h with
      configuration := hconf
      ruleExecutions := forall_mem_updateRow (fun _ => id) h.ruleExecutions }
  | updateAccountStatus id' status =>
    obtain ⟨-, rfl⟩ := Db.updateAccountStatus_eq_ok.1 hop
    exact { h with configuration := hconf }
  | _ => exact absurd ho id

end Statements

end Tenants

end AccountOS
