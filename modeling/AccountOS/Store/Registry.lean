import AccountOS.Store.Alone

/-!
# The register of customers and buckets

Customers with the history of their names, and the buckets themselves, are written by single calls
of the database client, some of them with a nested create. They are kept apart from the statements
of `AccountOS.Store.Writes`, none of which changes these tables but for a customer's tier.
-/

namespace AccountOS

open Conc Sql

/-! ### The statements -/

/-- A call that writes to the register. -/
inductive RegistryOp
  | createCustomer (data : Customer) (nameHistory : NameHistoryEntry)
  | renameCustomer (id newName : String) (nameHistory : NameHistoryEntry)
  | createTreasuryBucket (data : TreasuryBucket)
  | renameBucket (id name : String)

namespace Db

variable (db : Db)

/-- `customer.create` with its first name. -/
def createCustomer (c : Customer) (h : NameHistoryEntry) : Except Error Db :=
  if ∃ x ∈ db.customers, x.id = c.id then
    .error (.uniqueViolation "id")
  else if ∀ b ∈ db.businesses, b.id ≠ c.businessId then
    .error (.foreignKeyViolation "Customer_businessId_fkey")
  else if ∃ p ∈ c.parentId, ∀ x ∈ db.customers, x.id ≠ p then
    .error (.foreignKeyViolation "Customer_parentId_fkey")
  else if ∃ x ∈ db.nameHistory, x.id = h.id then
    .error (.uniqueViolation "id")
  else
    .ok { db with customers := db.customers ++ [c], nameHistory := db.nameHistory ++ [h] }

/-- `customer.update { displayName }` with an entry of the history. -/
def renameCustomer (id newName : String) (h : NameHistoryEntry) : Except Error Db :=
  if ∀ c ∈ db.customers, c.id ≠ id then
    .error .recordNotFound
  else if ∃ x ∈ db.nameHistory, x.id = h.id then
    .error (.uniqueViolation "id")
  else
    .ok { db with
      customers := updateRow Customer.id id (fun c => { c with displayName := newName })
        db.customers
      nameHistory := db.nameHistory ++ [h] }

def createTreasuryBucket (b : TreasuryBucket) : Except Error Db :=
  if ∃ x ∈ db.treasuryBuckets, x.id = b.id then
    .error (.uniqueViolation "id")
  else if ∃ x ∈ db.treasuryBuckets, x.businessId = b.businessId ∧ x.bucketRef = b.bucketRef then
    .error (.uniqueViolation "businessId,bucketRef")
  else if ∀ x ∈ db.businesses, x.id ≠ b.businessId then
    .error (.foreignKeyViolation "TreasuryBucket_businessId_fkey")
  else
    .ok { db with treasuryBuckets := db.treasuryBuckets ++ [b] }

/-- `treasuryBucket.update { name }`. -/
def renameBucket (id name : String) : Except Error Db :=
  if ∀ b ∈ db.treasuryBuckets, b.id ≠ id then
    .error .recordNotFound
  else
    .ok { db with
      treasuryBuckets := updateRow TreasuryBucket.id id (fun b => { b with name })
        db.treasuryBuckets }

end Db

def RegistryOp.apply : RegistryOp → Db → Except Error Db
  | createCustomer c h, db => db.createCustomer c h
  | renameCustomer id newName h, db => db.renameCustomer id newName h
  | createTreasuryBucket b, db => db.createTreasuryBucket b
  | renameBucket id name, db => db.renameBucket id name

/-! ### When a statement succeeds -/

namespace Db

variable {db db' : Db}

theorem createCustomer_eq_ok {c : Customer} {h : NameHistoryEntry} :
    db.createCustomer c h = .ok db' ↔
      (∀ x ∈ db.customers, x.id ≠ c.id) ∧
      (∃ b ∈ db.businesses, b.id = c.businessId) ∧
      (∀ p ∈ c.parentId, ∃ x ∈ db.customers, x.id = p) ∧
      (∀ x ∈ db.nameHistory, x.id ≠ h.id) ∧
      db' = { db with
        customers := db.customers ++ [c], nameHistory := db.nameHistory ++ [h] } := by
  simp only [createCustomer, check_eq_ok, Except.ok.injEq]
  push Not
  simp only [eq_comm]

theorem renameCustomer_eq_ok {id newName : String} {h : NameHistoryEntry} :
    db.renameCustomer id newName h = .ok db' ↔
      (∃ c ∈ db.customers, c.id = id) ∧
      (∀ x ∈ db.nameHistory, x.id ≠ h.id) ∧
      db' = { db with
        customers := updateRow Customer.id id (fun c => { c with displayName := newName })
          db.customers
        nameHistory := db.nameHistory ++ [h] } := by
  simp only [renameCustomer, check_eq_ok, Except.ok.injEq]
  push Not
  simp only [eq_comm]

theorem createTreasuryBucket_eq_ok {b : TreasuryBucket} :
    db.createTreasuryBucket b = .ok db' ↔
      (∀ x ∈ db.treasuryBuckets, x.id ≠ b.id) ∧
      (∀ x ∈ db.treasuryBuckets, x.businessId = b.businessId → x.bucketRef ≠ b.bucketRef) ∧
      (∃ x ∈ db.businesses, x.id = b.businessId) ∧
      db' = { db with treasuryBuckets := db.treasuryBuckets ++ [b] } := by
  simp only [createTreasuryBucket, check_eq_ok, Except.ok.injEq]
  push Not
  simp only [eq_comm]

theorem renameBucket_eq_ok {id name : String} :
    db.renameBucket id name = .ok db' ↔
      (∃ b ∈ db.treasuryBuckets, b.id = id) ∧
      db' = { db with
        treasuryBuckets := updateRow TreasuryBucket.id id (fun b => { b with name })
          db.treasuryBuckets } := by
  simp only [renameBucket, check_eq_ok, Except.ok.injEq]
  push Not
  simp only [eq_comm]

end Db

/-! ### As a call -/

/-- A call that writes to the register is a transaction of its own; `value` is what it returns. -/
def registerStep {α : Type} (op : Env → RegistryOp) (value : Env → Db → α) (env : Env) (w : World) :
    Except Error α × World :=
  match env.fault with
  | some f => (.error f.error, w.recordFault f)
  | none =>
    match (op env).apply w.db with
    | .ok db => (.ok (value env db), { w with db })
    | .error e => (.error e, w.recordError e)

def register {α : Type} (l : Call) (op : Env → RegistryOp) (value : Env → Db → α) : Action α :=
  Proc.call l (registerStep op value)

/-- **What such a call can do**: take effect, or fail without one. -/
theorem registerStep_cases {α : Type} (op : Env → RegistryOp) (value : Env → Db → α) (env : Env)
    (w : World) :
    (∃ db, (op env).apply w.db = .ok db ∧
      registerStep op value env w = (.ok (value env db), { w with db })) ∨
    (∃ e w', registerStep op value env w = (.error e, w') ∧ World.SameData w w') := by
  unfold registerStep
  split
  next f hf => exact .inr ⟨_, _, rfl, w.sameData_recordFault f⟩
  next hf =>
    split
    next db hdb => exact .inl ⟨db, hdb, rfl⟩
    next e he => exact .inr ⟨e, _, rfl, w.sameData_recordError e⟩

end AccountOS
