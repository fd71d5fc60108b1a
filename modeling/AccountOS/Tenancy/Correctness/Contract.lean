import AccountOS.Queue.Correctness.Tenants
import AccountOS.Store.Contract
import AccountOS.Store.Tenancy
import AccountOS.Treasury.Close

/-!
# What is written for a business

A request is served for the business that it is authenticated as, a job of the workers for the
business of its account. Either only ever adds rows that belong to that business and are linked to
rows of its own, and a request changes no rows but its business's. A thread relies on the rows that
it has found: they stay, and stay whose they are.
-/

namespace AccountOS

open Conc Sql

/-! ### The calls -/

/-- The statements of a transaction for `A`. -/
structure Db.WrittenFor (A : String) (db db' : Db) : Prop where
  adds : Adds A db.rows db'.rows
  others : ∀ B, B ≠ A → db'.tenant B = db.tenant B
  parentage : db'.customers.map Customer.parentage = db.customers.map Customer.parentage
  ledgerEntries : db'.ledgerEntries = db.ledgerEntries

/-- One call. Requests are served for `who`; the workers, `none`, write for one business or the
other, and only to add rows is what they do of interest. A customer is added by the one call that
says so, with a parent that exists. -/
structure Db.Written (who : Option String) (l : Call) (db db' : Db) : Prop where
  adds : ∃ A, (∀ B ∈ who, B = A) ∧ Adds A db.rows db'.rows
  others : ∀ A ∈ who, ∀ B, B ≠ A → db'.tenant B = db.tenant B
  parents : ∀ c ∈ db'.customers, (∃ c₀ ∈ db.customers, c₀.parentage = c.parentage) ∨
    l = .createCustomer c.businessId c.parentId ∧ ∀ p ∈ c.parentId, ∃ x ∈ db.customers, x.id = p
  cuids : (∀ e ∈ db.ledgerEntries, ¬ IsCustomId e.id) → ∀ e ∈ db'.ledgerEntries, ¬ IsCustomId e.id

section Written

variable {A : String} {who : Option String} {l : Call} {db db' db'' : Db}

namespace Db.WrittenFor

theorem refl (A : String) (db : Db) : Db.WrittenFor A db db := ⟨.refl, fun _ _ => rfl, rfl, rfl⟩

theorem trans (h : Db.WrittenFor A db db') (h' : Db.WrittenFor A db' db'') :
    Db.WrittenFor A db db'' :=
  ⟨h.adds.trans h'.adds, fun B hB => (h'.others B hB).trans (h.others B hB),
    h'.parentage.trans h.parentage, h'.ledgerEntries.trans h.ledgerEntries⟩

/-- A statement that adds and changes rows of `A`. -/
theorem of_apply (hu : UniqueKeys db.rows) {o : WriteOp} (hop : o.apply db = .ok db')
    (ho : o.CreatesFor A db.rows) (ho' : o.UpdatesFor A db.rows) (ht : o.table ≠ .ledgerEntries) :
    Db.WrittenFor A db db' where
  adds := WriteOp.adds ho hop
  others _ hB := (WriteOp.changesOnly ho ho' hop).tenant_eq hu (WriteOp.adds ho hop) hB
  parentage := WriteOp.parentage hop
  ledgerEntries := (WriteOp.sameExcept hop).ledgerEntries ht

/-- What was `A`'s is `A`'s. -/
theorem owned (h : Db.WrittenFor A db db') {B : String} {k : RowKey} (hk : Owned db.rows B k) :
    Owned db'.rows B k :=
  hk.mono h.adds.subset

end Db.WrittenFor

/-- Customers that are as they were have the parents that they had. -/
theorem exists_parentage_eq
    (h : db'.customers.map Customer.parentage = db.customers.map Customer.parentage) {c : Customer}
    (hc : c ∈ db'.customers) : ∃ c₀ ∈ db.customers, c₀.parentage = c.parentage := by
  have hmem : c.parentage ∈ db.customers.map Customer.parentage := h ▸ List.mem_map_of_mem hc
  exact List.mem_map.1 hmem

namespace Db.Written

theorem refl (who : Option String) (l : Call) (db : Db) : Db.Written who l db db where
  adds := by
    cases who with
    | none => exact ⟨"", nofun, .refl⟩
    | some A => exact ⟨A, fun B hB => (Option.some.inj hB).symm, .refl⟩
  others _ _ _ _ := rfl
  parents c hc := .inl ⟨c, hc, rfl⟩
  cuids h := h

theorem of_writtenFor (h : Db.WrittenFor A db db') : Db.Written (some A) l db db' where
  adds := ⟨A, fun B hB => (Option.some.inj hB).symm, h.adds⟩
  others A' hA' B hB := by
    cases hA'
    exact h.others B hB
  parents c hc := .inl (exists_parentage_eq h.parentage hc)
  cuids hcuids := by
    rw [h.ledgerEntries]
    exact hcuids

theorem of_register {o : RegistryOp} (hu : UniqueKeys db.rows) (ho : o.WritesFor A db.rows)
    (hl : ∀ c h, o = .createCustomer c h → l = .createCustomer c.businessId c.parentId)
    (hop : o.apply db = .ok db') : Db.Written (some A) l db db' where
  adds := ⟨A, fun B hB => (Option.some.inj hB).symm, RegistryOp.adds ho hop⟩
  others A' hA' B hB := by
    cases hA'
    exact (RegistryOp.changesOnly ho hop).tenant_eq hu (RegistryOp.adds ho hop) hB
  parents x hx := by
    cases o with
    | createCustomer c h =>
      obtain ⟨-, -, hparent, -, rfl⟩ := Db.createCustomer_eq_ok.1 hop
      rcases List.mem_append.1 hx with hx | hx
      · exact .inl ⟨x, hx, rfl⟩
      · rw [List.mem_singleton.1 hx]
        exact .inr ⟨hl c h rfl, hparent⟩
    | renameCustomer id newName h =>
      obtain ⟨-, -, rfl⟩ := Db.renameCustomer_eq_ok.1 hop
      exact .inl (exists_parentage_eq (map_updateRow (fun _ => by rfl) _) hx)
    | createTreasuryBucket b =>
      obtain ⟨-, -, -, rfl⟩ := Db.createTreasuryBucket_eq_ok.1 hop
      exact .inl ⟨x, hx, rfl⟩
    | renameBucket id name =>
      obtain ⟨-, rfl⟩ := Db.renameBucket_eq_ok.1 hop
      exact .inl ⟨x, hx, rfl⟩
  cuids hcuids := by
    have hentries : db'.ledgerEntries = db.ledgerEntries := by
      cases o with
      | createCustomer c h => rw [(Db.createCustomer_eq_ok.1 hop).2.2.2.2]
      | renameCustomer id newName h => rw [(Db.renameCustomer_eq_ok.1 hop).2.2]
      | createTreasuryBucket b => rw [(Db.createTreasuryBucket_eq_ok.1 hop).2.2.2]
      | renameBucket id name => rw [(Db.renameBucket_eq_ok.1 hop).2]
    rw [hentries]
    exact hcuids

/-- A statement of a worker. -/
theorem of_worker {o : WriteOp} (hop : o.apply db = .ok db') (ho : o.CreatesFor A db.rows)
    (hcuid : ∀ e, o = .createLedgerEntry e → ¬ IsCustomId e.id) :
    Db.Written none l db db' where
  adds := ⟨A, nofun, WriteOp.adds ho hop⟩
  others := nofun
  parents c hc := .inl (exists_parentage_eq (WriteOp.parentage hop) hc)
  cuids hcuids := by
    have hkept : db'.ledgerEntries.map LedgerEntry.id = db.ledgerEntries.map LedgerEntry.id →
        ∀ e ∈ db'.ledgerEntries, ¬ IsCustomId e.id := by
      intro hids e he
      have hmem : e.id ∈ db.ledgerEntries.map LedgerEntry.id := hids ▸ List.mem_map_of_mem he
      obtain ⟨e₀, he₀, hid⟩ := List.mem_map.1 hmem
      exact hid ▸ hcuids e₀ he₀
    cases o with
    | createLedgerEntry e =>
      obtain ⟨-, -, -, rfl⟩ := Db.createLedgerEntry_eq_ok.1 hop
      intro x hx
      rcases List.mem_append.1 hx with hx | hx
      · exact hcuids x hx
      · rw [List.mem_singleton.1 hx]
        exact hcuid e rfl
    | updateReconciliationByRef ref status =>
      obtain ⟨-, rfl⟩ := Db.updateReconciliationByRef_eq_ok.1 hop
      exact hkept (map_updateRow (fun _ => by rfl) _)
    | updateReconciliationById id status =>
      obtain ⟨-, rfl⟩ := Db.updateReconciliationById_eq_ok.1 hop
      exact hkept (map_updateRow (fun _ => by rfl) _)
    | _ => exact hkept (congrArg _ ((WriteOp.sameExcept hop).ledgerEntries nofun))

/-- The status of a bucket of `A`. -/
theorem of_updateBucketStatus {id : String} {status : AccountStatus} (hu : UniqueKeys db.rows)
    (hb : Owned db.rows A (.bucket id)) (hop : db.updateBucketStatus id status = .ok db') :
    Db.Written (some A) l db db' := by
  obtain ⟨-, rfl⟩ := Db.updateBucketStatus_eq_ok.1 hop
  have hadds : Adds A db.rows (Db.rows { db with
      treasuryBuckets := updateRow TreasuryBucket.id id (fun b => { b with status })
        db.treasuryBuckets }) := by
    refine adds_of_rowList_eq ?_
    unfold Db.rowList
    rw [map_updateRow]
    exact fun _ => rfl
  have hchanges : Db.ChangesOnly A db { db with
      treasuryBuckets := updateRow TreasuryBucket.id id (fun b => { b with status })
        db.treasuryBuckets } :=
    ⟨.refl _, .refl _, .refl _, .refl _, .refl _,
      .updateRow_of_not (fun _ => Iff.rfl) fun b _ h => not_not.2 (h ▸ hb.mono hadds.subset),
      .refl _, .refl _⟩
  exact of_writtenFor ⟨hadds, fun B hB => hchanges.tenant_eq hu hadds hB, rfl, rfl⟩

/-- Rows stay. -/
theorem subset (h : Db.Written who l db db') : db.rows ⊆ db'.rows := by
  obtain ⟨A, -, hadds⟩ := h.adds
  exact hadds.subset

end Db.Written

end Written

/-! ### The contract -/

/-- A key names one row, no link joins rows of two businesses, and no ledger entry has the id of
what stands in for one. -/
structure Db.Tenanted (db : Db) : Prop where
  unique : UniqueKeys db.rows
  linked : Linked db.rows
  cuids : ∀ e ∈ db.ledgerEntries, ¬ IsCustomId e.id

theorem Db.Written.tenanted {who : Option String} {l : Call} {db db' : Db}
    (h : Db.Written who l db db') (hdb : db.Tenanted) : db'.Tenanted := by
  obtain ⟨A, -, hadds⟩ := h.adds
  exact ⟨hadds.uniqueKeys hdb.unique, hadds.linked hdb.linked, h.cuids hdb.cuids⟩

/-- Thread `i` writes for `who i`. The ids that the database client generates are cuids. -/
def tenancy {ι : Type} (who : ι → Option String) : Contract ι World Env Call where
  allowed _ env _ _ := ¬ IsCustomId env.row.id
  inv w := w.db.Tenanted
  rely _ w w' := w.db.rows ⊆ w'.db.rows
  guarantee i l _ w w' := Db.Written (who i) l w.db w'.db
  refl _ _ := Set.Subset.rfl
  trans h h' := h.trans h'
  kept hw h := h.tenanted hw
  others _ _ h := h.subset

variable {ι α β : Type} {who : ι → Option String}

theorem undisturbed_tenancy : Contract.Undisturbed (tenancy who) := by
  intro i l env w w' hsame
  refine ⟨?_, ?_⟩
  · show Db.Written (who i) l w.db w'.db
    rw [hsame.db]
    exact .refl _ _ _
  · show w.db.rows ⊆ w'.db.rows
    rw [hsame.db]

/-! ### Methods under it -/

variable [DecidableEq ι] {i : ι} {t : World} {l : Call} {A : String}

/-- The method fulfils the contract; the rows that the thread knows stay. -/
def Serves (who : ι → Option String) (i : ι) (p : Action α) (t : World) : Prop :=
  p.Wp (tenancy who).protocol i (fun _ w => t.db.rows ⊆ w.db.rows)
    (fun _ w => t.db.rows ⊆ w.db.rows) t

namespace Serves

theorem ret {a : α} : Serves who i (.ret a) t := Set.Subset.rfl

theorem raise {e : Error} : Serves who i (.raise e : Action α) t := Set.Subset.rfl

theorem bind {p : Action α} {f : α → Action β} (hp : Serves who i p t)
    (hf : ∀ a w, t.db.rows ⊆ w.db.rows → Serves who i (f a) w) : Serves who i (p.bind f) t :=
  Contract.Fulfils.bind hp hf

theorem catching {p : Action α} {f : Error → Action α} (hp : Serves who i p t)
    (hf : ∀ e w, t.db.rows ⊆ w.db.rows → Serves who i (f e) w) :
    Serves who i (p.catching f) t :=
  Contract.Fulfils.catching hp hf

/-- A method without an answer. -/
theorem void {p : Action α} (hp : Serves who i p t) :
    Serves who i (p.bind fun _ => (.ret () : Action Unit)) t :=
  hp.bind fun _ _ _ => ret

/-- What comes after a query knows what it has answered. -/
theorem find {f : Env → Db → α} {g : α → Action β}
    (hg : ∀ env (w : World), w.db.Tenanted → t.db.rows ⊆ w.db.rows → Serves who i (g (f env w.db)) w) :
    Serves who i ((AccountOS.find l f).bind g) t := by
  refine Proc.Wp.bind (Contract.wp_find undisturbed_tenancy (fun env w hw ht => ?_)
    fun e w' ht => ht)
  exact (hg env w hw ht).mono (fun _ _ h => Set.Subset.trans ht h) fun _ _ h =>
    Set.Subset.trans ht h

theorem audit {entry : AuditLogEntry} : Serves who i (AccountOS.audit entry) t :=
  Contract.wp_audit undisturbed_tenancy fun _ ht => ht

/-- A transaction, and what comes after it. -/
theorem transaction_bind {body : Env → TxBody α} {inside : Env → α → World → World}
    {g : α → Action β} (hinside : LogsOnly inside)
    (hok : ∀ env (w : World) a db, w.db.Tenanted → t.db.rows ⊆ w.db.rows →
      ¬ IsCustomId env.row.id → (body env).run schema w.db = .ok (a, db) →
      Db.Written (who i) l w.db db ∧ ∀ w' : World, w'.db = db → Serves who i (g a) w') :
    Serves who i ((AccountOS.transaction l body inside).bind g) t := by
  refine Proc.Wp.bind (Contract.wp_transaction undisturbed_tenancy hinside ?_ fun _ _ ht => ht)
  intro env w a db w' hw ht hcuid hrun hw'
  obtain ⟨hwritten, hg⟩ := hok env w a db hw ht hcuid hrun
  have hdb : w'.db = db := by rw [hw']
  have hsub : t.db.rows ⊆ w'.db.rows := by
    rw [hdb]
    exact Set.Subset.trans ht hwritten.subset
  refine ⟨?_, (hg w' hdb).mono (fun _ _ h => hsub.trans h) fun _ _ h => hsub.trans h⟩
  show Db.Written (who i) l w.db w'.db
  rw [hdb]
  exact hwritten

theorem transaction {body : Env → TxBody α} {inside : Env → α → World → World}
    (hinside : LogsOnly inside)
    (hok : ∀ env (w : World) a db, w.db.Tenanted → t.db.rows ⊆ w.db.rows →
      ¬ IsCustomId env.row.id → (body env).run schema w.db = .ok (a, db) →
      Db.Written (who i) l w.db db) :
    Serves who i (AccountOS.transaction l body inside) t := by
  refine Contract.wp_transaction undisturbed_tenancy hinside ?_ fun _ _ ht => ht
  intro env w a db w' hw ht hcuid hrun hw'
  have hwritten := hok env w a db hw ht hcuid hrun
  have hdb : w'.db = db := by rw [hw']
  refine ⟨?_, ?_⟩
  · show Db.Written (who i) l w.db w'.db
    rw [hdb]
    exact hwritten
  · show t.db.rows ⊆ w'.db.rows
    rw [hdb]
    exact Set.Subset.trans ht hwritten.subset

/-- A single statement for the thread's business. -/
theorem statement (hi : who i = some A) {op : Env → WriteOp}
    (hop : ∀ env (w : World), w.db.Tenanted → t.db.rows ⊆ w.db.rows →
      (op env).CreatesFor A w.db.rows ∧ (op env).UpdatesFor A w.db.rows ∧
        (op env).table ≠ .ledgerEntries) :
    Serves who i (AccountOS.statement l op) t := by
  refine transaction logsOnly_nothing fun env w a db hw ht _ hrun => ?_
  obtain ⟨hcreates, hupdates, htable⟩ := hop env w hw ht
  rw [hi]
  exact .of_writtenFor
    (.of_apply hw.unique (Tx.run_exec_eq_ok.1 hrun) hcreates hupdates htable)

theorem statement_bind (hi : who i = some A) {op : Env → WriteOp} {g : Unit → Action β}
    (hop : ∀ env (w : World), w.db.Tenanted → t.db.rows ⊆ w.db.rows →
      (op env).CreatesFor A w.db.rows ∧ (op env).UpdatesFor A w.db.rows ∧
        (op env).table ≠ .ledgerEntries)
    (hg : ∀ w, t.db.rows ⊆ w.db.rows → Serves who i (g ()) w) :
    Serves who i ((AccountOS.statement l op).bind g) t :=
  (statement hi hop).bind fun _ => hg

/-- A call that writes to the register. -/
theorem register (hi : who i = some A) {op : Env → RegistryOp} {value : Env → Db → α}
    (hop : ∀ env (w : World), t.db.rows ⊆ w.db.rows → (op env).WritesFor A w.db.rows)
    (hl : ∀ env c h, op env = .createCustomer c h → l = .createCustomer c.businessId c.parentId) :
    Serves who i (AccountOS.register l op value) t := by
  refine Contract.wp_register undisturbed_tenancy ?_ fun _ _ ht => ht
  intro env w db w' hw ht _ hrun hw'
  have hdb : w'.db = db := by rw [hw']
  have hwritten : Db.Written (some A) l w.db db :=
    .of_register hw.unique (hop env w ht) (fun c h => hl env c h) hrun
  refine ⟨?_, ?_⟩
  · show Db.Written (who i) l w.db w'.db
    rw [hi, hdb]
    exact hwritten
  · show t.db.rows ⊆ w'.db.rows
    rw [hdb]
    exact Set.Subset.trans ht hwritten.subset

theorem register_bind (hi : who i = some A) {op : Env → RegistryOp} {value : Env → Db → α}
    {g : α → Action β}
    (hop : ∀ env (w : World), t.db.rows ⊆ w.db.rows → (op env).WritesFor A w.db.rows)
    (hl : ∀ env c h, op env = .createCustomer c h → l = .createCustomer c.businessId c.parentId)
    (hg : ∀ a w, t.db.rows ⊆ w.db.rows → Serves who i (g a) w) :
    Serves who i ((AccountOS.register l op value).bind g) t :=
  (register hi hop hl).bind hg

/-- The status of a bucket of the thread's business. -/
theorem updateBucketStatus (hi : who i = some A) {id : String} {status : AccountStatus}
    (hb : Owned t.db.rows A (.bucket id)) :
    Serves who i (AccountOS.updateBucketStatus id status) t := by
  refine (tenancy who).wp_call fun env w hw ht _ => ?_
  rcases updateBucketStatusStep_cases id status env w with
    ⟨db, hop, hstep⟩ | ⟨e, w', hstep, hsame⟩
  · rw [hstep]
    have hwritten : Db.Written (some A) (.updateBucket id) w.db db :=
      .of_updateBucketStatus hw.unique (hb.mono ht) hop
    have hsub : t.db.rows ⊆ db.rows := Set.Subset.trans ht hwritten.subset
    refine ⟨?_, fun _ _ => hsub, fun _ _ => hsub⟩
    show Db.Written (who i) (.updateBucket id) w.db db
    rw [hi]
    exact hwritten
  · rw [hstep]
    obtain ⟨hguarantee, hrest⟩ := undisturbed_tenancy i (.updateBucket id) env w w' hsame
    have hsub : t.db.rows ⊆ w'.db.rows := Set.Subset.trans ht hrest
    exact ⟨hguarantee, fun _ _ => hsub, fun _ _ => hsub⟩

/-- A method whose calls are within the contract by what the thread knows. -/
theorem of_keeps {p : Action α} {R : World → World → Prop}
    (hp : p.Keeps (tenancy who).allowed R)
    (hR : ∀ l w w', w.db.Tenanted → t.db.rows ⊆ w.db.rows → R w w' →
      Db.Written (who i) l w.db w'.db) : Serves who i p t :=
  Contract.Fulfils.of_keeps hp fun l _ w w' hw ht h =>
    have hwritten := hR l w w' hw ht h
    ⟨hwritten, hwritten.subset⟩

/-- A method that leaves the database alone. -/
theorem idle {p : Action α} (hp : p.Keeps (tenancy who).allowed fun w w' => w'.db = w.db) :
    Serves who i p t := by
  refine of_keeps hp fun l w w' _ _ hdb => ?_
  rw [hdb]
  exact .refl _ _ _

theorem bankTransfer {settlementId : String} {request : Env → BankTransferRequest} :
    Serves who i (AccountOS.bankTransfer settlementId request) t := by
  refine idle (Proc.Keeps.call fun env w _ => ?_)
  cases env.fault <;> rfl

theorem provisionDva {accountRef : String} : Serves who i (AccountOS.provisionDva accountRef) t := by
  refine idle (Proc.Keeps.call fun env w _ => ?_)
  cases env.fault <;> rfl

theorem expireDva {nombaAccountId : String} :
    Serves who i (AccountOS.expireDva nombaAccountId) t := by
  refine idle (Proc.Keeps.call fun env w _ => ?_)
  cases env.fault <;> rfl

theorem bigIntOrThrow {x : ℚ} : Serves who i (AccountOS.bigIntOrThrow x) t :=
  idle keeps_bigIntOrThrow

end Serves

end AccountOS
