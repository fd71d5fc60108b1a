import AccountOS.Sql.Growth
import AccountOS.Tenancy.Correctness.Footprint
import AccountOS.Tenancy.Correctness.Isolation

/-!
# What is written once

No request and no job removes a row, and of the columns of a row only a few are ever written again:
statuses and what goes with them, the execution model of an account, the name and the tier of a customer,
the name of a bucket. `writtenOnce` are the others.

* `rows_written_once`: in every run, the tables only get longer, in these columns.
-/

namespace AccountOS

open Conc Sql

/-! ### The columns -/

def Customer.writtenOnce (c : Customer) : Customer :=
  { c with displayName := "", kycTier := .tier0 }

def Account.writtenOnce (a : Account) : Account :=
  { a with status := .active, executionModel := .sequential, closedAt := none, closedReason := none }

def Rule.writtenOnce (r : Rule) : Rule :=
  { r with status := .active, archivedAt := none, archivedReason := none }

def RuleExecution.writtenOnce (x : RuleExecution) : RuleExecution :=
  { x with
    status := .pending
    attempt := 0
    nextRetryAt := none
    nombaApiResponse := none
    errorMessage := none
    archivedReason := none
    completedAt := none }

def LedgerEntry.writtenOnce (e : LedgerEntry) : LedgerEntry :=
  { e with reconciliationStatus := .pending }

def TreasuryBucket.writtenOnce (b : TreasuryBucket) : TreasuryBucket :=
  { b with name := "", status := .active }

def Settlement.writtenOnce (s : Settlement) : Settlement :=
  { s with
    status := .pending, nombaTransferReference := none, failureReason := none, completedAt := none }

/-- The database has got rows, and the columns that are written once are as they were. -/
structure Db.Grows (db db' : Db) : Prop where
  businesses : db'.businesses = db.businesses
  customers : Prolongs Customer.id Customer.writtenOnce db.customers db'.customers
  nameHistory : Prolongs NameHistoryEntry.id (fun h => h) db.nameHistory db'.nameHistory
  accounts : Prolongs Account.id Account.writtenOnce db.accounts db'.accounts
  rules : Prolongs Rule.id Rule.writtenOnce db.rules db'.rules
  ruleExecutions :
    Prolongs RuleExecution.id RuleExecution.writtenOnce db.ruleExecutions db'.ruleExecutions
  ledgerEntries : Prolongs LedgerEntry.id LedgerEntry.writtenOnce db.ledgerEntries db'.ledgerEntries
  processedEvents : Prolongs ProcessedEvent.id (fun e => e) db.processedEvents db'.processedEvents
  treasuryBuckets :
    Prolongs TreasuryBucket.id TreasuryBucket.writtenOnce db.treasuryBuckets db'.treasuryBuckets
  bucketLedgerEntries :
    Prolongs BucketLedgerEntry.id (fun e => e) db.bucketLedgerEntries db'.bucketLedgerEntries
  settlements : Prolongs Settlement.id Settlement.writtenOnce db.settlements db'.settlements

namespace Db.Grows

theorem refl (db : Db) : Db.Grows db db := by
  constructor
  case businesses => rfl
  all_goals exact .refl _ _ _

theorem trans {db db' db'' : Db} (h : Db.Grows db db') (h' : Db.Grows db' db'') :
    Db.Grows db db'' where
  businesses := h'.businesses.trans h.businesses
  customers := h.customers.trans h'.customers
  nameHistory := h.nameHistory.trans h'.nameHistory
  accounts := h.accounts.trans h'.accounts
  rules := h.rules.trans h'.rules
  ruleExecutions := h.ruleExecutions.trans h'.ruleExecutions
  ledgerEntries := h.ledgerEntries.trans h'.ledgerEntries
  processedEvents := h.processedEvents.trans h'.processedEvents
  treasuryBuckets := h.treasuryBuckets.trans h'.treasuryBuckets
  bucketLedgerEntries := h.bucketLedgerEntries.trans h'.bucketLedgerEntries
  settlements := h.settlements.trans h'.settlements

/-- The bucket of a reference stays the same one. -/
theorem findBucket {db db' : Db} (h : Db.Grows db db') {businessId bucketRef : String}
    {b : TreasuryBucket} (hb : db.findBucket businessId bucketRef = some b) :
    ∃ b', db'.findBucket businessId bucketRef = some b' ∧ b'.id = b.id ∧
      b'.writtenOnce = b.writtenOnce := by
  obtain ⟨b', hb', hfixed⟩ := h.treasuryBuckets.exists_find?
    (p := fun b => decide (b.businessId = businessId ∧ b.bucketRef = bucketRef))
    (r := fun b => decide (b.businessId = businessId ∧ b.bucketRef = bucketRef)) (fun _ => rfl) hb
  have hid : b'.writtenOnce.id = b.writtenOnce.id := by rw [hfixed]
  exact ⟨b', hb', hid, hfixed⟩

end Db.Grows

/-! ### The statements -/

/-- `updateMany` leaves the ids and what is written once. -/
theorem prolongs_map {α κ π : Type} {id : α → κ} {fixed : α → π} {f : α → α} (t : List α)
    (hid : ∀ x, id (f x) = id x) (hfixed : ∀ x, fixed (f x) = fixed x) :
    Prolongs id fixed t (t.map f) := by
  apply Prolongs.of_map_eq
  · rw [List.map_map]
    exact List.map_congr_left fun x _ => hid x
  · rw [List.map_map]
    exact List.map_congr_left fun x _ => hfixed x

/-- **A statement** adds a row or sets columns that may be written again. -/
theorem WriteOp.grows {o : WriteOp} {db db' : Db} (hop : o.apply db = .ok db') : Db.Grows db db' := by
  have hsame := Db.Grows.refl db
  cases o with
  | createBucketLedgerEntry e =>
    obtain ⟨hid, -, -, -, rfl⟩ := Db.createBucketLedgerEntry_eq_ok.1 hop
    exact { hsame with bucketLedgerEntries := .append_singleton hid }
  | createSettlement s =>
    obtain ⟨hid, -, -, rfl⟩ := Db.createSettlement_eq_ok.1 hop
    exact { hsame with settlements := .append_singleton hid }
  | updateSettlement id data =>
    obtain ⟨-, -, rfl⟩ := Db.updateSettlement_eq_ok.1 hop
    exact { hsame with settlements := .updateRow (fun _ => rfl) fun _ => rfl }
  | createLedgerEntry e =>
    obtain ⟨hid, -, -, rfl⟩ := Db.createLedgerEntry_eq_ok.1 hop
    exact { hsame with ledgerEntries := .append_singleton hid }
  | updateReconciliationByRef ref status =>
    obtain ⟨-, rfl⟩ := Db.updateReconciliationByRef_eq_ok.1 hop
    exact { hsame with ledgerEntries := .updateRow (fun _ => rfl) fun _ => rfl }
  | updateReconciliationById id status =>
    obtain ⟨-, rfl⟩ := Db.updateReconciliationById_eq_ok.1 hop
    exact { hsame with ledgerEntries := .updateRow (fun _ => rfl) fun _ => rfl }
  | createProcessedEvent e =>
    obtain ⟨hid, -, rfl⟩ := Db.createProcessedEvent_eq_ok.1 hop
    exact { hsame with processedEvents := .append_singleton hid }
  | createRuleExecution x =>
    obtain ⟨hid, -, -, -, rfl⟩ := Db.createRuleExecution_eq_ok.1 hop
    exact { hsame with ruleExecutions := .append_singleton hid }
  | updateRuleExecution id data =>
    obtain ⟨-, rfl⟩ := Db.updateRuleExecution_eq_ok.1 hop
    exact { hsame with ruleExecutions := .updateRow (fun _ => rfl) fun _ => rfl }
  | updateAccountStatus id status =>
    obtain ⟨-, rfl⟩ := Db.updateAccountStatus_eq_ok.1 hop
    exact { hsame with accounts := .updateRow (fun _ => rfl) fun _ => rfl }
  | updateAccountModel id model =>
    obtain ⟨-, rfl⟩ := Db.updateAccountModel_eq_ok.1 hop
    exact { hsame with accounts := .updateRow (fun _ => rfl) fun _ => rfl }
  | archiveRules accountId archivedAt =>
    cases hop
    exact { hsame with
      rules := prolongs_map _ (fun r => by split <;> rfl) fun r => by split <;> rfl }
  | createRule r =>
    obtain ⟨hid, -, rfl⟩ := Db.createRule_eq_ok.1 hop
    exact { hsame with rules := .append_singleton hid }
  | updateRule id data =>
    obtain ⟨-, rfl⟩ := Db.updateRule_eq_ok.1 hop
    exact { hsame with rules := .updateRow (fun _ => rfl) fun _ => rfl }
  | flagRules ids =>
    cases hop
    exact { hsame with
      rules := prolongs_map _ (fun r => by split <;> rfl) fun r => by split <;> rfl }
  | updateCustomerTier id kycTier =>
    obtain ⟨-, rfl⟩ := Db.updateCustomerTier_eq_ok.1 hop
    exact { hsame with customers := .updateRow (fun _ => rfl) fun _ => rfl }
  | createAccount a =>
    obtain ⟨hid, -, -, -, -, -, rfl⟩ := Db.createAccount_eq_ok.1 hop
    exact { hsame with accounts := .append_singleton hid }
  | closeAccount id closedAt closedReason =>
    obtain ⟨-, rfl⟩ := Db.closeAccount_eq_ok.1 hop
    exact { hsame with accounts := .updateRow (fun _ => rfl) fun _ => rfl }
  | archiveExecutions accountId =>
    cases hop
    exact { hsame with
      ruleExecutions := prolongs_map _ (fun r => by split <;> rfl) fun r => by split <;> rfl }

theorem RegistryOp.grows {o : RegistryOp} {db db' : Db} (hop : o.apply db = .ok db') :
    Db.Grows db db' := by
  have hsame := Db.Grows.refl db
  cases o with
  | createCustomer c h =>
    obtain ⟨hid, -, -, hname, rfl⟩ := Db.createCustomer_eq_ok.1 hop
    exact { hsame with
      customers := .append_singleton hid
      nameHistory := .append_singleton hname }
  | renameCustomer id newName h =>
    obtain ⟨-, hname, rfl⟩ := Db.renameCustomer_eq_ok.1 hop
    exact { hsame with
      customers := .updateRow (fun _ => rfl) fun _ => rfl
      nameHistory := .append_singleton hname }
  | createTreasuryBucket b =>
    obtain ⟨hid, -, -, rfl⟩ := Db.createTreasuryBucket_eq_ok.1 hop
    exact { hsame with treasuryBuckets := .append_singleton hid }
  | renameBucket id name =>
    obtain ⟨-, rfl⟩ := Db.renameBucket_eq_ok.1 hop
    exact { hsame with treasuryBuckets := .updateRow (fun _ => rfl) fun _ => rfl }

theorem Db.updateBucketStatus_grows {db db' : Db} {id : String} {status : AccountStatus}
    (hop : db.updateBucketStatus id status = .ok db') : Db.Grows db db' := by
  obtain ⟨-, rfl⟩ := Db.updateBucketStatus_eq_ok.1 hop
  exact { Db.Grows.refl db with treasuryBuckets := .updateRow (fun _ => rfl) fun _ => rfl }

/-! ### Requests and jobs -/

/-- The database of a step grows. -/
def GrowsStep (w w' : World) : Prop := Db.Grows w.db w'.db

theorem growsStep_of_db_eq {w w' : World} (h : w'.db = w.db) : GrowsStep w w' := by
  rw [GrowsStep, h]
  exact .refl _

theorem footprint_grows (ops : WriteOp → Prop) : Footprint ops GrowsStep where
  sameData h := growsStep_of_db_eq h.db
  writes := by
    rintro o w w' db - hop rfl
    exact WriteOp.grows hop

theorem requestFootprint_grows : RequestFootprint GrowsStep where
  toFootprint := footprint_grows _
  register := by
    rintro o w w' db hop rfl
    exact RegistryOp.grows hop
  bucketStatus := by
    rintro id status w w' db hop rfl
    exact Db.updateBucketStatus_grows hop
  transfers w _ := growsStep_of_db_eq (w := w) rfl
  trans := Db.Grows.trans

theorem keeps_task_grows {allowed : Call → Env → World → World → Prop} {isUrl : String → Bool}
    (task : Task) : (task.run isUrl).Keeps allowed GrowsStep := by
  cases task with
  | request businessId r => exact requestFootprint_grows.keeps_request r
  | inflow payload => exact (footprint_grows fun _ => True).keeps_process (fun _ _ => trivial) fun w _ =>
      growsStep_of_db_eq (w := w) rfl
  | retry job =>
    exact (footprint_grows fun _ => True).keeps_retry (fun _ => trivial) fun _ _ => trivial

/-! ### Runs -/

section Run

variable {ι : Type} [DecidableEq ι] {allowed : Call → Env → World → World → Prop}
  {isUrl : String → Bool} {tasks : ι → Task} {w₀ w : World} {hist : List (Event ι World Env Call)}
  {ps : ι → Action Unit}

/-- **What is written once stays.** Between any two points of a run of requests and jobs, no row is
removed, and of the columns that are written once no value is changed; the ids of a table stay unique. -/
theorem rows_written_once (run : Run allowed (fun i => (tasks i).run isUrl) w₀ hist ps w) {m n : ℕ}
    (hmn : m ≤ n) : Db.Grows (stateAt hist w m).db (stateAt hist w n).db := by
  have htraced : ∀ i, ((tasks i).run isUrl).Traced i (fun _ ev => GrowsStep ev.before ev.after)
      (fun _ _ => True) (fun _ _ => True) [] := fun i => (keeps_task_grows (tasks i)).traced_each
  refine run.persists (P := fun w' => Db.Grows (stateAt hist w m).db w'.db) hmn (.refl _) ?_
  intro k ev _ _ hev hbefore
  exact hbefore.trans ((run.traced htraced).1 k ev hev)

/-- Every point of a run is one before its end. -/
theorem grows_to_end (run : Run allowed (fun i => (tasks i).run isUrl) w₀ hist ps w) (n : ℕ) :
    Db.Grows (stateAt hist w n).db w.db := by
  have hend : stateAt hist w (max n hist.length) = w := stateAt_of_le (le_max_right _ _)
  have hgrows := rows_written_once run (le_max_left n hist.length)
  rwa [hend] at hgrows

theorem grows_from_start (run : Run allowed (fun i => (tasks i).run isUrl) w₀ hist ps w) (n : ℕ) :
    Db.Grows w₀.db (stateAt hist w n).db := by
  have hgrows := rows_written_once run (Nat.zero_le n)
  rwa [run.stateAt_zero] at hgrows

end Run

/-- Two customers are created. -/
theorem rows_written_once_second :
    ∃ hist ps w, Run (fun _ env _ _ => ¬ IsCustomId env.row.id)
        (fun i => (Sample.parentAndChild i).run fun _ => true) Sample.twoBusinesses hist ps w ∧
      Db.Grows (stateAt hist w 1).db (stateAt hist w 2).db :=
  ⟨_, _, _, Sample.parentAndChild_isRun,
    rows_written_once Sample.parentAndChild_isRun (by norm_num : 1 ≤ 2)⟩

end AccountOS
