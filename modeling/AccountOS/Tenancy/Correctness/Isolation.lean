import AccountOS.Conc.Trace
import AccountOS.Tenancy.Correctness.Requests
import AccountOS.Tenancy.Correctness.Workers

/-!
# Tenants of one database

Requests of any businesses and the jobs of the workers run side by side.

* `tenant_writes_isolated`: no call of a request changes what belongs to another business, whatever
  ids and references the caller has given.
* `relations_within_tenants`: while nobody creates a customer under another business's customer, all
  relations join rows of one business.
* `created_under_another_tenant`: `createCustomer` does not look at the parent that it is given.
-/

namespace AccountOS

open Conc Sql

/-! ### Relations -/

/-- Every relation between rows of tenants joins rows of one business. -/
structure Db.WithinTenants (db : Db) : Prop where
  parents : ∀ c ∈ db.customers, ∀ p ∈ db.customers, c.parentId = some p.id →
    p.businessId = c.businessId
  accounts : ∀ a ∈ db.accounts, ∀ c ∈ db.customers, a.customerId = some c.id →
    c.businessId = a.businessId
  executions : ∀ x ∈ db.ruleExecutions, ∀ r ∈ db.rules, r.id = x.ruleId →
    ∀ a ∈ db.accounts, a.id = x.accountId → ∀ b ∈ db.accounts, b.id = r.accountId →
      b.businessId = a.businessId
  allocations : ∀ e ∈ db.bucketLedgerEntries, ∀ b ∈ db.treasuryBuckets, b.id = e.bucketId →
    ∀ l ∈ db.ledgerEntries, e.sourceLedgerEntryId = some l.id →
      ∀ a ∈ db.accounts, a.id = l.accountId → a.businessId = b.businessId
  settlements : ∀ s ∈ db.settlements, ∀ b ∈ db.treasuryBuckets, b.id = s.bucketId →
    b.businessId = s.businessId

section Relations

variable {db db' : Db}

/-- The links of the rows, spelled out. -/
theorem Db.Tenanted.withinTenants (h : db.Tenanted) (hparents : db.ParentsWithin) :
    db.WithinTenants where
  parents c hc p hp hlink :=
    Owned.unique h.unique (.itself (Customer.row_mem hp) rfl) (hparents c hc p.id hlink)
  accounts a ha c hc hlink := by
    obtain ⟨B, hB, hBc⟩ := h.linked a.row (Account.row_mem ha) (.customer c.id)
      (by simp [Account.row, hlink])
    have hcB : c.businessId = B := Owned.unique h.unique (.itself (Customer.row_mem hc) rfl) hBc
    have haB : a.businessId = B := Owned.unique h.unique (.itself (Account.row_mem ha) rfl) hB
    rw [hcB, haB]
  executions x hx r hr hrid a ha haid b hb hbid := by
    obtain ⟨B, hB, hBr⟩ := h.linked x.row (RuleExecution.row_mem hx) (.rule x.ruleId)
      List.mem_cons_self
    have haccount : Owned db.rows a.businessId x.row.key :=
      .through (RuleExecution.row_mem hx) rfl (owned_account_iff.2 ⟨a, ha, haid, rfl⟩)
    have hrule : Owned db.rows b.businessId (.rule x.ruleId) := by
      rw [← hrid]
      exact .through (Rule.row_mem hr) rfl (owned_account_iff.2 ⟨b, hb, hbid, rfl⟩)
    have haB : a.businessId = B := Owned.unique h.unique haccount hB
    have hbB : b.businessId = B := Owned.unique h.unique hrule hBr
    rw [hbB, haB]
  allocations e he b hb hbid l hl hlink a ha haid := by
    obtain ⟨B, hB, hBl⟩ := h.linked e.row (BucketLedgerEntry.row_mem he) (.ledgerEntry l.id)
      (by simp [BucketLedgerEntry.row, hlink])
    have hbucket : Owned db.rows b.businessId e.row.key :=
      .through (BucketLedgerEntry.row_mem he) rfl (owned_bucket_iff.2 ⟨b, hb, hbid, rfl⟩)
    have hentry : Owned db.rows a.businessId (.ledgerEntry l.id) :=
      .through (LedgerEntry.row_mem hl) rfl (owned_account_iff.2 ⟨a, ha, haid, rfl⟩)
    have haB : a.businessId = B := Owned.unique h.unique hentry hBl
    have hbB : b.businessId = B := Owned.unique h.unique hbucket hB
    rw [haB, hbB]
  settlements s hs b hb hbid := by
    obtain ⟨B, hB, hBb⟩ := h.linked s.row (Settlement.row_mem hs) (.bucket s.bucketId)
      List.mem_cons_self
    have hbB : b.businessId = B :=
      Owned.unique h.unique (owned_bucket_iff.2 ⟨b, hb, hbid, rfl⟩) hBb
    have hsB : s.businessId = B := Owned.unique h.unique (.itself (Settlement.row_mem hs) rfl) hB
    rw [hbB, hsB]

/-- Before there is any row. -/
theorem tenanted_fresh (businesses : List Business) : Db.Tenanted { businesses } := by
  have hnone : ∀ r, r ∉ Db.rows { businesses } := by
    intro r hr
    simp [mem_rows] at hr
  exact ⟨fun r hr => absurd hr (hnone r), fun r hr => absurd hr (hnone r),
    fun e he => absurd he List.not_mem_nil⟩

/-- A customer that is created has no parent in another business. -/
def OwnParent {ι : Type} (ev : Event ι World Env Call) : Prop :=
  ∀ businessId p, ev.call = .createCustomer businessId (some p) →
    ∀ c ∈ ev.before.db.customers, c.id = p → c.businessId = businessId

/-- Parents stay within a business, if a new one is. -/
theorem Db.Written.parentsWithin {ι : Type} {who : Option String} {ev : Event ι World Env Call}
    (h : Db.Written who ev.call ev.before.db ev.after.db) (hown : OwnParent ev)
    (hparents : ev.before.db.ParentsWithin) : ev.after.db.ParentsWithin := by
  intro c hc p hp
  rcases h.parents c hc with ⟨c₀, hc₀, hsame⟩ | ⟨hcall, hexists⟩
  · have hbusiness : c₀.businessId = c.businessId := congrArg (fun x => x.2.1) hsame
    have hparent : c₀.parentId = c.parentId := congrArg (fun x => x.2.2) hsame
    rw [← hbusiness]
    exact (hparents c₀ hc₀ p (hparent ▸ hp)).mono h.subset
  · -- the parent is there, because the new row refers to it
    obtain ⟨x, hx, hid⟩ := hexists p hp
    have hparent : c.parentId = some p := hp
    rw [hparent] at hcall
    exact Owned.mono (owned_customer_iff.2 ⟨x, hx, hid, hown _ p hcall x hx hid⟩) h.subset

end Relations

/-! ### Runs -/

section Run

variable {ι : Type} [DecidableEq ι] {isUrl : String → Bool} {tasks : ι → Task} {w₀ w : World}
  {hist : List (Event ι World Env Call)} {ps : ι → Action Unit}

/-- A request is served for its business, a job for no one business. -/
theorem serves_task {who : ι → Option String} {i : ι} {t : World} (task : Task)
    (hi : who i = task.businessId) : Serves who i (task.run isUrl) t := by
  cases task with
  | request businessId r => exact serves_request hi r
  | inflow payload => exact serves_process hi
  | retry job => exact serves_retry hi

/-- Every task keeps to what it is there for. -/
theorem written_of_run (h₀ : w₀.db.Tenanted)
    (run : Run (fun _ env _ _ => ¬ IsCustomId env.row.id) (fun i => (tasks i).run isUrl) w₀ hist ps
      w) :
    ∀ ev ∈ hist, ev.before.db.Tenanted ∧
      Db.Written (tasks ev.who).businessId ev.call ev.before.db ev.after.db := by
  have hserves : ∀ i, Serves (fun i => (tasks i).businessId) i ((tasks i).run isUrl) w₀ :=
    fun i => serves_task (tasks i) (by rfl)
  exact (Contract.sound (C := tenancy fun i => (tasks i).businessId) h₀
    (fun i => (hserves i).mono (fun _ _ _ => trivial) fun _ _ _ => trivial) run).2

/-- **Tenants are isolated.** In any run of requests and jobs, a call of a request that is
authenticated as `A` leaves the rows of every other business as they are. -/
theorem tenant_writes_isolated (h₀ : w₀.db.Tenanted)
    (run : Run (fun _ env _ _ => ¬ IsCustomId env.row.id) (fun i => (tasks i).run isUrl) w₀ hist ps
      w) {ev : Event ι World Env Call} (hev : ev ∈ hist) {A : String} {r : ApiRequest}
    (hr : tasks ev.who = .request A r) {B : String} (hB : B ≠ A) :
    ev.after.db.tenant B = ev.before.db.tenant B := by
  obtain ⟨-, hwritten⟩ := written_of_run h₀ run ev hev
  rw [hr] at hwritten
  exact hwritten.others A rfl B hB

/-- **Relations stay within tenants** in every run in which no customer is created under a customer
of another business. -/
theorem relations_within_tenants (h₀ : w₀.db.Tenanted) (hparents : w₀.db.ParentsWithin)
    (run : Run (fun _ env _ _ => ¬ IsCustomId env.row.id) (fun i => (tasks i).run isUrl) w₀ hist ps
      w) (hown : ∀ ev ∈ hist, OwnParent ev) (n : ℕ) :
    (stateAt hist w n).db.WithinTenants := by
  have hall := run.always (I := fun w => w.db.Tenanted ∧ w.db.ParentsWithin) ⟨h₀, hparents⟩
    (fun k ev hev hbefore => by
      have hmem := List.mem_of_getElem? hev
      obtain ⟨-, hwritten⟩ := written_of_run h₀ run ev hmem
      exact ⟨hwritten.tenanted hbefore.1, hwritten.parentsWithin (hown ev hmem) hbefore.2⟩) n
  exact hall.1.withinTenants hall.2

end Run

/-! ### A customer of two tenants -/

namespace Sample

/-- Two businesses without any rows. -/
def twoBusinesses : World := { db := { businesses := [{ id := "biz1" }, { id := "biz2" }] } }

/-- Each of them creates a customer, the second one under the customer of the first. -/
def parentAndChild : Bool → Task
  | false => .request "biz1" (.createCustomer { displayName := "Amina" })
  | true => .request "biz2" (.createCustomer { displayName := "Bola", parentId := some "cus1" })

def parentAndChildEnvs : List (Bool × Env) :=
  [(false, { row := ⟨1, "cus1"⟩, row₂ := ⟨1, "name1"⟩ }),
    (true, { row := ⟨2, "cus2"⟩, row₂ := ⟨2, "name2"⟩ })]

def parentAndChildRun : List (Event Bool World Env Call) × (Bool → Action Unit) × World :=
  exec (fun i => (parentAndChild i).run fun _ => true) twoBusinesses parentAndChildEnvs

theorem parentAndChild_isRun :
    Run (fun _ env _ _ => ¬ IsCustomId env.row.id) (fun i => (parentAndChild i).run fun _ => true)
      twoBusinesses parentAndChildRun.1 parentAndChildRun.2.1 parentAndChildRun.2.2 :=
  Run.of_exec _ twoBusinesses parentAndChildEnvs (by decide +kernel)

/-- The first business creates both of them, as parent and child. -/
def family : Bool → Task
  | false => .request "biz1" (.createCustomer { displayName := "Amina" })
  | true => .request "biz1" (.createCustomer { displayName := "Bola", parentId := some "cus1" })

def familyRun : List (Event Bool World Env Call) × (Bool → Action Unit) × World :=
  exec (fun i => (family i).run fun _ => true) twoBusinesses parentAndChildEnvs

theorem family_isRun :
    Run (fun _ env _ _ => ¬ IsCustomId env.row.id) (fun i => (family i).run fun _ => true)
      twoBusinesses familyRun.1 familyRun.2.1 familyRun.2.2 :=
  Run.of_exec _ twoBusinesses parentAndChildEnvs (by decide +kernel)

end Sample

/-- What the second one does leaves the rows of the first one. -/
theorem tenant_writes_isolated_second :
    ∃ hist ps w, Run (fun _ env _ _ => ¬ IsCustomId env.row.id)
        (fun i => (Sample.parentAndChild i).run fun _ => true) Sample.twoBusinesses hist ps w ∧
      ∀ ev ∈ hist, ev.who = true → ev.after.db.tenant "biz1" = ev.before.db.tenant "biz1" := by
  refine ⟨_, _, _, Sample.parentAndChild_isRun, fun ev hev hwho => ?_⟩
  have hbola : Sample.parentAndChild ev.who =
      .request "biz2" (.createCustomer { displayName := "Bola", parentId := some "cus1" }) := by
    rw [hwho]
    rfl
  exact tenant_writes_isolated (tenanted_fresh _) Sample.parentAndChild_isRun hev hbola (by decide)

/-- A customer under one of its own business. -/
theorem relations_within_tenants_family :
    ∃ hist ps w, Run (fun _ env _ _ => ¬ IsCustomId env.row.id)
        (fun i => (Sample.family i).run fun _ => true) Sample.twoBusinesses hist ps w ∧
      w.db.customers.map Customer.parentId = [none, some "cus1"] ∧
      ∀ n, (stateAt hist w n).db.WithinTenants := by
  refine ⟨_, _, _, Sample.family_isRun, by decide +kernel, fun n => ?_⟩
  refine relations_within_tenants (tenanted_fresh _)
    (fun _ hc => absurd hc List.not_mem_nil) Sample.family_isRun ?_ n
  intro ev hev businessId p hcall c hc _
  -- every customer is one of the business that makes the calls
  have hcalls : ∀ ev ∈ Sample.familyRun.1, (ev.call = .createCustomer "biz1" none ∨
      ev.call = .createCustomer "biz1" (some "cus1")) ∧
        ∀ c ∈ ev.before.db.customers, c.businessId = "biz1" := by decide +kernel
  obtain ⟨hcreate | hcreate, hown⟩ := hcalls ev hev
  · rw [hcreate] at hcall
    cases hcall
  · rw [hcreate] at hcall
    cases hcall
    exact hown c hc

/-- A child may also have a parent in the other business. -/
theorem created_under_another_tenant :
    ∃ hist ps w, Run (fun _ env _ _ => ¬ IsCustomId env.row.id)
        (fun i => (Sample.parentAndChild i).run fun _ => true) Sample.twoBusinesses hist ps w ∧
      ¬ w.db.WithinTenants := by
  refine ⟨_, _, _, Sample.parentAndChild_isRun, fun h => ?_⟩
  have hparents : ∀ c ∈ Sample.parentAndChildRun.2.2.db.customers,
      ∀ p ∈ Sample.parentAndChildRun.2.2.db.customers, c.parentId = some p.id →
        p.businessId = c.businessId := h.parents
  revert hparents
  decide +kernel

end AccountOS
