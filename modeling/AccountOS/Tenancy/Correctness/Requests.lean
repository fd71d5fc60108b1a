import AccountOS.Accounts.Correctness.WritePaths
import AccountOS.Tenancy.Correctness.Contract
import AccountOS.Tenancy.Requests

/-!
# The fourteen requests

Each of them is within the contract of its business: what it writes to, it has found as a row of the
business, or it has created it.
-/

namespace AccountOS

open Conc Sql

variable {ι : Type} [DecidableEq ι] {who : ι → Option String} {i : ι} {t : World} {A : String}

/-! ### What a query finds -/

section Found

variable {db : Db}

theorem owned_of_findCustomerOf {id : String} {c : Customer} (h : db.findCustomerOf id A = some c) :
    Owned db.rows A (.customer id) := by
  obtain ⟨hmem, hid, hbusiness⟩ := Db.findCustomerOf_eq_some h
  exact owned_customer_iff.2 ⟨c, hmem, hid, hbusiness⟩

theorem owned_of_findAccountByRef {accountRef : String} {a : Account}
    (h : db.findAccountByRef accountRef A = some a) : Owned db.rows A (.account a.id) := by
  have hbusiness : a.accountRef = accountRef ∧ a.businessId = A := by
    simpa using List.find?_some h
  exact owned_account_iff.2 ⟨a, List.mem_of_find?_eq_some h, rfl, hbusiness.2⟩

theorem owned_of_findBucket {bucketRef : String} {b : TreasuryBucket}
    (h : db.findBucket A bucketRef = some b) : Owned db.rows A (.bucket b.id) := by
  obtain ⟨hmem, hbusiness, -⟩ := findBucket_eq_some db h
  exact owned_bucket_iff.2 ⟨b, hmem, rfl, hbusiness⟩

theorem owned_of_findRuleOf {accountRef ruleId : String} {r : Rule}
    (h : db.findRuleOf accountRef ruleId A = some r) : Owned db.rows A (.rule ruleId) := by
  have hrule : r.id = ruleId ∧ ∃ a ∈ db.accounts,
      a.id = r.accountId ∧ a.accountRef = accountRef ∧ a.businessId = A := by
    simpa using List.find?_some h
  obtain ⟨rfl, a, ha, hid, -, hbusiness⟩ := hrule
  exact .through (Rule.row_mem (List.mem_of_find?_eq_some h)) rfl
    (owned_account_iff.2 ⟨a, ha, hid, hbusiness⟩)

/-- The account of a stale rule belongs to the customer's business. -/
theorem owned_of_staleRules (hdb : db.Tenanted) {customerId : String} {newTier : KycTier} {r : Rule}
    (h : r ∈ db.staleRules customerId A newTier) : Owned db.rows A (.rule r.id) := by
  unfold Db.staleRules at h
  obtain ⟨hr, hstale⟩ := List.mem_filter.1 h
  obtain ⟨-, -, a, ha, hid, hcustomer, c, hc, hcid, hbusiness⟩ := of_decide_eq_true hstale
  -- the link from the account to its customer joins rows of one business
  have hlink : RowKey.customer customerId ∈ a.row.links := by
    simp [Account.row, hcustomer]
  obtain ⟨B, hB, hcB⟩ := hdb.linked a.row (Account.row_mem ha) _ hlink
  have hBA : B = A := Owned.unique hdb.unique hcB (owned_customer_iff.2 ⟨c, hc, hcid, hbusiness⟩)
  refine .through (Rule.row_mem hr) rfl ?_
  rw [← hid, ← hBA]
  exact hB

end Found

/-! ### Customers -/

variable (hi : who i = some A)
include hi

theorem serves_createCustomer {dto : CreateCustomerDto} : Serves who i (createCustomer dto A) t := by
  refine .register_bind hi (fun env w _ => ⟨rfl, rfl⟩) ?_ fun created w _ =>
    Serves.audit.bind fun _ _ _ => .ret
  intro env c h heq
  cases heq
  rfl

theorem serves_renameCustomer {id actor : String} {dto : RenameCustomerDto} :
    Serves who i (renameCustomer id dto A actor) t := by
  refine .find fun env w _ _ => ?_
  cases hfound : w.db.findCustomerOf id A with
  | none => exact .raise
  | some customer =>
    have howned := owned_of_findCustomerOf hfound
    exact .register_bind hi (fun env w' hw' => ⟨howned.mono hw', rfl⟩) (fun env c h heq => by cases heq)
      fun updated w' _ => Serves.audit.bind fun _ _ _ => .ret

omit hi in
theorem serves_auditFlagged {entry : Rule → AuditLogEntry} (rules : List Rule) :
    Serves who i (auditFlagged entry rules) t := by
  induction rules generalizing t with
  | nil => exact .ret
  | cons rule rules ih => exact Serves.audit.bind fun _ _ _ => ih

theorem serves_updateKycTier {id actor : String} {dto : UpdateKycTierDto} :
    Serves who i (updateKycTier id dto A actor) t := by
  refine .find fun env w _ _ => ?_
  cases hfound : w.db.findCustomerOf id A with
  | none => exact .raise
  | some customer =>
    have howned := owned_of_findCustomerOf hfound
    refine .statement_bind hi (fun _ _ _ hw' => ⟨trivial, howned.mono hw', nofun⟩) fun w' _ => ?_
    refine .find fun env₁ w₁ hw₁ _ => ?_
    have hstale : ∀ r ∈ w₁.db.staleRules id A dto.kycTier, Owned w₁.db.rows A (.rule r.id) :=
      fun r hr => owned_of_staleRules hw₁ hr
    refine Serves.bind ?_ fun _ _ _ => Serves.audit.bind fun _ _ _ => .ret
    unfold flagStaleRules
    split
    · exact .ret
    · refine .statement_bind hi (fun _ _ _ hw' => ⟨trivial, fun id hid => ?_, nofun⟩)
        fun _ _ => serves_auditFlagged _
      obtain ⟨r, hr, rfl⟩ := List.mem_map.1 hid
      exact (hstale r hr).mono hw'

/-! ### Accounts and rules -/

omit hi in
/-- The nested create of the rules of an account. -/
theorem writtenFor_createRules {accountId : String} {kycTier : KycTier} {rows : Nat → Generated}
    {n : Nat} {rules : List RuleDefinition} {db : Db} {r : Unit × Db} (hu : UniqueKeys db.rows)
    (haccount : Owned db.rows A (.account accountId))
    (hrun : (createRules accountId kycTier rows n rules).run schema db = .ok r) :
    Db.WrittenFor A db r.2 := by
  induction rules generalizing n db with
  | nil =>
    cases hrun
    exact .refl A db
  | cons d rules ih =>
    unfold createRules at hrun
    split at hrun
    next trigger action _ _ =>
      simp only [Tx.bind_eq, Tx.run_bind_eq_ok, Tx.run_exec_eq_ok, schema_apply] at hrun
      obtain ⟨-, db₁, hcreate, hrun⟩ := hrun
      have hfirst : Db.WrittenFor A db db₁ := .of_apply hu hcreate haccount trivial nofun
      exact hfirst.trans (ih (hfirst.adds.uniqueKeys hu) (hfirst.owned haccount) hrun)
    next => simp at hrun

omit hi in
theorem writtenFor_updateRulesTx {accountId : String} {model : ExecutionModel} {kycTier : KycTier}
    {rules : List RuleDefinition} {env : Env} {db : Db} {r : List Rule × Db}
    (hu : UniqueKeys db.rows) (haccount : Owned db.rows A (.account accountId))
    (hrun : (updateRulesTx accountId model kycTier rules env).run schema db = .ok r) :
    Db.WrittenFor A db r.2 := by
  simp only [updateRulesTx, Tx.bind_eq, Tx.run_bind_eq_ok, Tx.run_exec_eq_ok, schema_apply,
    Tx.run_query] at hrun
  obtain ⟨u, db₁, hmodel, v, db₂, hcreate, hquery⟩ := hrun
  cases hquery
  have hfirst : Db.WrittenFor A db db₁ := .of_apply hu hmodel trivial haccount (by rintro ⟨⟩)
  exact hfirst.trans
    (writtenFor_createRules (hfirst.adds.uniqueKeys hu) (hfirst.owned haccount) hcreate)

theorem serves_storeRuleSet {account : Account} {model : ExecutionModel}
    {rules : List RuleDefinition} (haccount : Owned t.db.rows A (.account account.id)) :
    Serves who i (storeRuleSet account model rules A) t := by
  refine .find fun env w _ hw => ?_
  have hfound := haccount.mono hw
  refine .statement_bind hi (fun _ _ _ hw' => ⟨trivial, hfound.mono hw', nofun⟩) fun w' hw' => ?_
  refine (Serves.transaction logsOnly_nothing fun env₁ w₁ a db hw₁ ht₁ _ hrun => ?_).bind
    fun _ _ _ => Serves.audit.bind fun _ _ _ => .ret
  rw [hi]
  exact .of_writtenFor
    (writtenFor_updateRulesTx hw₁.unique (hfound.mono (hw'.trans ht₁)) hrun)

theorem serves_replaceRuleSet {isUrl : String → Bool} {accountRef : String}
    {dto : ReplaceRuleSetDto} : Serves who i (replaceRuleSet isUrl accountRef A dto) t := by
  refine .find fun env w _ _ => ?_
  cases hfound : w.db.findAccountByRef accountRef A with
  | none => exact .raise
  | some account =>
    have haccount := owned_of_findAccountByRef hfound
    dsimp only
    split
    next =>
      cases dto.executionModel.getD account.executionModel with
      | sequential => exact serves_storeRuleSet hi haccount
      | parallel =>
        refine Serves.bind ?_ fun _ w' hw' => serves_storeRuleSet hi (haccount.mono hw')
        unfold enforcePercentageSum
        dsimp only
        split
        · exact .raise
        · exact .ret
    next => exact .raise

omit hi in
/-- What comes after a rule has been resolved knows whose it is. -/
theorem serves_resolveRule {α : Type} {accountRef ruleId : String} {g : Rule → Action α}
    (hg : ∀ rule w, Owned w.db.rows A (.rule ruleId) → Serves who i (g rule) w) :
    Serves who i ((resolveRule accountRef ruleId A).bind g) t := by
  refine Proc.Wp.bind (Proc.Wp.bind (Contract.wp_find undisturbed_tenancy (fun env w _ ht => ?_)
    fun _ _ ht => ht))
  cases hfound : w.db.findRuleOf accountRef ruleId A with
  | none => exact ht
  | some rule =>
    exact (hg rule w (owned_of_findRuleOf hfound)).mono (fun _ _ h => Set.Subset.trans ht h)
      fun _ _ h => Set.Subset.trans ht h

theorem serves_archiveRule {rule : Rule} {accountRef ruleId : String}
    (hrule : Owned t.db.rows A (.rule ruleId)) :
    Serves who i (archiveRule rule accountRef ruleId A) t :=
  .statement_bind hi (fun _ _ _ hw => ⟨trivial, hrule.mono hw, nofun⟩) fun _ _ => .audit

theorem serves_toggleRule {accountRef ruleId : String} {enabled : Bool} :
    Serves who i (toggleRule accountRef ruleId A enabled) t := by
  refine serves_resolveRule fun rule w hrule => ?_
  cases enabled with
  | true =>
    dsimp only
    split
    · exact .raise
    · exact .statement_bind hi (fun _ _ _ hw => ⟨trivial, hrule.mono hw, nofun⟩) fun _ _ => .ret
  | false => exact (serves_archiveRule hi hrule).bind fun _ _ _ => .ret

theorem serves_deleteRule {accountRef ruleId : String} :
    Serves who i (deleteRule accountRef ruleId A) t :=
  serves_resolveRule fun _ _ hrule => (serves_archiveRule hi hrule).bind fun _ _ _ => .ret

omit hi in
/-- A new account of a customer of the same business, with its rules. -/
theorem writtenFor_createAccountTx {dto : ProvisionAccountDto} {nombaResult : ProvisionDvaResult}
    {customer : Customer} {env : Env} {db : Db} {r : ProvisionedAccount × Db}
    (hu : UniqueKeys db.rows) (hcustomer : Owned db.rows A (.customer customer.id))
    (hrun : (createAccountTx dto nombaResult customer A env).run schema db = .ok r) :
    Db.WrittenFor A db r.2 := by
  simp only [createAccountTx, Tx.bind_eq, Tx.run_bind_eq_ok, Tx.run_exec_eq_ok, schema_apply,
    Tx.run_query, Tx.pure_eq, Tx.run_ret, Except.ok.injEq] at hrun
  obtain ⟨_, db₁, hcreate, _, db₂, hrules, _, db₃, hquery, hresult⟩ := hrun
  cases hquery
  subst hresult
  rw [AccountLifecycle.createRules_eq] at hrules
  have hlinks : ∀ c ∈ (dto.account env.row nombaResult customer A).customerId,
      Owned db.rows A (.customer c) := by
    intro c hc
    cases hc
    exact hcustomer
  have hfirst : Db.WrittenFor A db db₁ := .of_apply hu hcreate ⟨rfl, hlinks⟩ trivial (by rintro ⟨⟩)
  have haccount : Owned db₁.rows A
      (.account (dto.account env.row nombaResult customer A).id) := by
    obtain ⟨-, -, -, -, -, -, rfl⟩ := Db.createAccount_eq_ok.1 hcreate
    exact owned_account_iff.2 ⟨_, List.mem_append_right _ (List.mem_singleton_self _), rfl, rfl⟩
  exact hfirst.trans (writtenFor_createRules (hfirst.adds.uniqueKeys hu) haccount hrules)

theorem serves_provisionAccount {isUrl : String → Bool} {dto : ProvisionAccountDto} :
    Serves who i (provisionAccount isUrl dto A) t := by
  unfold provisionAccount
  split
  · refine .find fun env w _ _ => ?_
    cases w.db.findAccountRef dto.accountRef with
    | some _ => exact .raise
    | none =>
      refine .find fun env₁ w₁ _ _ => ?_
      cases hfound : w₁.db.findCustomerOf dto.customerId A with
      | none => exact .raise
      | some customer =>
        obtain ⟨hmem, hid, hbusiness⟩ := Db.findCustomerOf_eq_some hfound
        have hcustomer : Owned w₁.db.rows A (.customer customer.id) :=
          owned_customer_iff.2 ⟨customer, hmem, rfl, hbusiness⟩
        refine .find fun env₂ w₂ _ hw₂ => ?_
        cases w₂.db.findBusiness A with
        | none => exact .raise
        | some _ =>
          refine Serves.provisionDva.bind fun nombaResult w₃ hw₃ => ?_
          refine Serves.bind ?_ fun _ _ _ => Serves.audit.bind fun _ _ _ => .ret
          refine Serves.catching (.transaction logsOnly_nothing fun env₄ w₄ a db hw₄ ht₄ _ hrun => ?_)
            fun e w₅ _ => ?_
          · rw [hi]
            exact .of_writtenFor (writtenFor_createAccountTx hw₄.unique
              (hcustomer.mono ((hw₂.trans hw₃).trans ht₄)) hrun)
          · exact (Serves.expireDva.catching fun _ _ _ => .ret).bind fun _ _ _ => .raise
  · exact .raise

omit hi in
theorem writtenFor_updateAccountTx {id : String} {op : WriteOp} {db : Db} {r : Option Account × Db}
    (hu : UniqueKeys db.rows) (hrun : (updateAccountTx id op).run schema db = .ok r)
    (ho : op.CreatesFor A db.rows) (ho' : op.UpdatesFor A db.rows) (ht : op.table ≠ .ledgerEntries) :
    Db.WrittenFor A db r.2 := by
  simp only [updateAccountTx, Tx.bind_eq, Tx.run_bind_eq_ok, Tx.run_exec_eq_ok, schema_apply,
    Tx.run_query] at hrun
  obtain ⟨_, db₁, hop, hquery⟩ := hrun
  cases hquery
  exact .of_apply hu hop ho ho' ht

theorem serves_updateStatus {accountRef actor : String} {dto : UpdateStatusDto} :
    Serves who i (updateStatus accountRef dto A actor) t := by
  refine .find fun env w _ _ => ?_
  cases hfound : w.db.findAccountByRef accountRef A with
  | none => exact .raise
  | some account =>
    have haccount := owned_of_findAccountByRef hfound
    dsimp only
    split
    · exact .raise
    · split
      · exact .raise
      · split
        · exact .raise
        · refine (Serves.transaction logsOnly_nothing fun env₁ w₁ a db hw₁ ht₁ _ hrun => ?_).bind
            fun _ _ _ => Serves.audit.bind fun _ _ _ => .ret
          rw [hi]
          exact .of_writtenFor (writtenFor_updateAccountTx hw₁.unique hrun trivial
            (haccount.mono ht₁) nofun)

theorem serves_closeAccount {accountRef actor : String} :
    Serves who i (closeAccount accountRef A actor) t := by
  refine .find fun env w _ _ => ?_
  cases hfound : w.db.findAccountByRef accountRef A with
  | none => exact .raise
  | some account =>
    have haccount := owned_of_findAccountByRef hfound
    have hclose : Serves who i (close account A actor) w := by
      refine (Serves.transaction logsOnly_nothing fun env₁ w₁ a db hw₁ ht₁ _ hrun => ?_).bind
        fun _ w₂ hw₂ => ?_
      · have hop := archiveExecutionsTx_run_eq_ok hrun
        rw [hi]
        exact .of_writtenFor (.of_apply hw₁.unique hop trivial (haccount.mono ht₁) nofun)
      · refine Serves.expireDva.bind fun _ w₃ hw₃ => ?_
        refine (Serves.transaction logsOnly_nothing fun env₁ w₁ a db hw₁ ht₁ _ hrun => ?_).bind
          fun _ _ _ => Serves.audit.bind fun _ _ _ => .ret
        rw [hi]
        exact .of_writtenFor (writtenFor_updateAccountTx hw₁.unique hrun trivial
          (haccount.mono ((hw₂.trans hw₃).trans ht₁)) nofun)
    dsimp only
    cases account.status with
    | closed => exact .raise
    | expired => exact .raise
    | active => exact hclose
    | suspended => exact hclose

/-! ### Buckets and settlements -/

omit hi in
/-- What comes after a bucket has been resolved knows whose it is. -/
theorem serves_resolveTreasuryBucket {α : Type} {bucketRef : String}
    {g : TreasuryBucket → Action α}
    (hg : ∀ b w, Owned w.db.rows A (.bucket b.id) → Serves who i (g b) w) :
    Serves who i ((resolveTreasuryBucket bucketRef A).bind g) t := by
  refine Proc.Wp.bind (Proc.Wp.bind (Contract.wp_find undisturbed_tenancy (fun env w _ ht => ?_)
    fun _ _ ht => ht))
  cases hfound : w.db.findBucket A bucketRef with
  | none => exact ht
  | some b =>
    exact (hg b w (owned_of_findBucket hfound)).mono (fun _ _ h => Set.Subset.trans ht h)
      fun _ _ h => Set.Subset.trans ht h

theorem serves_provisionBucket {dto : CreateBucketDto} :
    Serves who i (provisionBucket dto A) t := by
  refine .find fun env w _ _ => ?_
  cases (w.db.findBucket A dto.bucketRef).map TreasuryBucket.id with
  | some _ => exact .raise
  | none =>
    exact .register_bind hi (fun _ _ _ => rfl) (fun _ _ _ h => by cases h)
      fun _ _ _ => Serves.audit.bind fun _ _ _ => .ret

theorem serves_renameBucket {bucketRef : String} {dto : RenameBucketDto} :
    Serves who i (renameBucket bucketRef dto A) t :=
  serves_resolveTreasuryBucket fun _ _ hb =>
    .register hi (fun _ _ hw => hb.mono hw) fun _ _ _ h => by cases h

omit hi in
/-- A transaction that only looks. -/
theorem serves_reading {α : Type} {l : Call} {body : Env → TxBody α}
    (hbody : ∀ env db r, (body env).run schema db = .ok r → r.2 = db) :
    Serves who i (transaction l body) t := by
  refine .transaction logsOnly_nothing fun env w a db _ _ _ hrun => ?_
  obtain rfl : db = w.db := hbody env w.db (a, db) hrun
  exact .refl _ _ _

theorem serves_closeBucket {bucketRef actor : String} :
    Serves who i (closeBucket bucketRef A actor) t := by
  refine serves_resolveTreasuryBucket fun b w hb => ?_
  split
  · exact .raise
  · have hbalance : Serves who i (balanceOf b.id) w := serves_reading fun env db r hrun => by
      rw [(computeBalance_run_eq_ok db).1 hrun]
    refine hbalance.bind fun balance w₁ hw₁ => ?_
    have hreserved : Serves who i (reservedOf b.id) w₁ := serves_reading fun env db r hrun => by
      rw [(reservedKobo_run_eq_ok db).1 hrun]
    refine hreserved.bind fun reserved w₂ hw₂ => ?_
    split
    · exact .raise
    · exact (Serves.updateBucketStatus hi (hb.mono (hw₁.trans hw₂))).bind
        fun _ _ _ => Serves.audit.bind fun _ _ _ => .ret

omit hi in
/-- The two entries of a move between buckets of a business. -/
theorem writtenFor_move {m : Move} {row row' : Generated} {x y : Int} {db db₁ db₂ : Db}
    (hu : UniqueKeys db.rows) (hsource : Owned db.rows A (.bucket m.sourceId))
    (hdestination : Owned db.rows A (.bucket m.destinationId))
    (hdebit : db.createBucketLedgerEntry (m.debit row x) = .ok db₁)
    (hcredit : db₁.createBucketLedgerEntry (m.credit row' y) = .ok db₂) :
    Db.WrittenFor A db db₂ := by
  have hfirst : Db.WrittenFor A db db₁ :=
    .of_apply hu (o := .createBucketLedgerEntry _) hdebit ⟨hsource, nofun⟩ trivial nofun
  exact hfirst.trans (.of_apply (hfirst.adds.uniqueKeys hu) (o := .createBucketLedgerEntry _)
    hcredit ⟨hfirst.owned hdestination, nofun⟩ trivial nofun)

theorem serves_transferBetweenBuckets {sourceBucketRef actor : String} {dto : TransferBucketDto} :
    Serves who i (transferBetweenBuckets sourceBucketRef dto A actor) t := by
  unfold transferBetweenBuckets
  split
  · exact .raise
  · refine Serves.bigIntOrThrow.bind fun amountKobo w _ => ?_
    refine (Serves.transaction logsOnly_nothing fun env w₁ r db hw₁ _ _ hrun => ?_).bind
      fun _ _ _ => Serves.audit.bind fun _ _ _ => .ret
    obtain ⟨s, d, db₁, hs, hd, -, -, -, hdebit, hcredit, -⟩ := (transferTx_run_eq_ok w₁.db).1 hrun
    rw [hi]
    exact .of_writtenFor (writtenFor_move hw₁.unique (owned_of_findBucket hs)
      (owned_of_findBucket hd) hdebit hcredit)

theorem serves_updateSettlement {l : Call} {settlementId : String} {data : SettlementData}
    (hs : Owned t.db.rows A (.settlement settlementId)) :
    Serves who i (statement l fun _ => .updateSettlement settlementId data) t :=
  .statement hi fun _ _ _ hw => ⟨trivial, hs.mono hw, nofun⟩

theorem serves_settleInternal {r : SettlementRequest} {settlementId destRef : String}
    (hr : r.businessId = A) (hs : Owned t.db.rows A (.settlement settlementId)) :
    Serves who i (settleInternal r settlementId destRef) t := by
  subst hr
  refine (Serves.transaction logsOnly_nothing fun env w ref db hw ht _ hrun => ?_).bind
    fun _ _ _ => .audit
  obtain ⟨s, d, db₁, db₂, hsource, hdest, hdebit, hcredit, hupdate, -⟩ :=
    (settleInternalTx_run_eq_ok w.db).1 hrun
  have hmove := writtenFor_move hw.unique (owned_of_findBucket hsource) (owned_of_findBucket hdest)
    hdebit hcredit
  rw [hi]
  exact .of_writtenFor (hmove.trans (.of_apply (hmove.adds.uniqueKeys hw.unique)
    (o := .updateSettlement _ _) hupdate trivial (hmove.owned (hs.mono ht)) nofun))

theorem serves_completeSettlement {r : SettlementRequest} {settlementId nombaReference : String}
    (hr : r.businessId = A) (hs : Owned t.db.rows A (.settlement settlementId)) :
    Serves who i (completeSettlement r settlementId nombaReference) t := by
  subst hr
  refine (Serves.transaction logsOnly_nothing fun env w u db hw ht _ hrun => ?_).bind
    fun _ _ _ => .audit
  obtain ⟨b, db₁, hb, hdebit, hupdate⟩ := (completeSettlementTx_run_eq_ok w.db).1 hrun
  have hfirst : Db.WrittenFor r.businessId w.db db₁ :=
    .of_apply hw.unique (o := .createBucketLedgerEntry _) hdebit ⟨owned_of_findBucket hb, nofun⟩
      trivial nofun
  rw [hi]
  exact .of_writtenFor (hfirst.trans (.of_apply (hfirst.adds.uniqueKeys hw.unique)
    (o := .updateSettlement _ _) hupdate trivial (hfirst.owned (hs.mono ht)) nofun))

theorem serves_executeTransfer {r : SettlementRequest} {settlementId : String}
    (hr : r.businessId = A) (hs : Owned t.db.rows A (.settlement settlementId)) :
    Serves who i (executeTransfer r settlementId) t := by
  unfold executeTransfer
  split
  · split
    next => exact .raise
    next destRef _ => exact serves_settleInternal hi hr hs
  · split
    next =>
      exact Serves.bankTransfer.bind fun _ w hw => serves_completeSettlement hi hr (hs.mono hw)
    next => exact .raise

theorem serves_failSettlement {α : Type} {r : SettlementRequest} {settlementId : String}
    {error : Error} (hs : Owned t.db.rows A (.settlement settlementId)) :
    Serves who i (failSettlement r settlementId error : Action α) t := by
  refine Serves.bind ((serves_updateSettlement hi hs).catching fun _ _ _ => .ret) fun _ _ _ => ?_
  refine Serves.audit.bind fun _ _ _ => ?_
  split
  · exact .raise
  · exact .raise

theorem serves_settle {r : SettlementRequest} (hr : r.businessId = A) :
    Serves who i (settle r) t := by
  subst hr
  refine .transaction_bind (logsOnly_log _) fun env w s db hw _ _ hrun => ?_
  obtain ⟨b, type, hb, -, -, rfl, hop⟩ := (reserveTx_run_eq_ok w.db).1 hrun
  have hwritten : Db.WrittenFor r.businessId w.db db :=
    .of_apply hw.unique (o := .createSettlement _) hop ⟨rfl, owned_of_findBucket hb⟩ trivial nofun
  refine ⟨?_, fun w' hw' => ?_⟩
  · rw [hi]
    exact .of_writtenFor hwritten
  · -- from here on the thread knows the settlement that it has created
    have hs : Owned w'.db.rows r.businessId (.settlement (r.settlement b.id type env.row).id) := by
      rw [hw']
      obtain ⟨-, -, -, rfl⟩ := Db.createSettlement_eq_ok.1 hop
      exact .itself (Settlement.row_mem (List.mem_append_right _ (List.mem_singleton_self _))) rfl
    refine (serves_updateSettlement hi hs).bind fun _ w₁ hw₁ => ?_
    refine Serves.catching ?_ fun e w₂ hw₂ => serves_failSettlement hi (hs.mono (hw₁.trans hw₂))
    exact (serves_executeTransfer hi rfl (hs.mono hw₁)).bind fun _ _ _ => .ret

theorem serves_initiate {bucketRef actor : String} {dto : CreateSettlementDto} :
    Serves who i (initiate bucketRef dto A actor) t := by
  refine Serves.bind ?_ fun bucket w _ => ?_
  · refine .find fun env w _ _ => ?_
    cases w.db.findBucket A bucketRef with
    | none => exact .raise
    | some b => exact .ret
  · split
    · exact .raise
    · exact Serves.bigIntOrThrow.bind fun amountKobo w _ => serves_settle hi rfl

/-! ### All of them -/

/-- **A request is within the contract of its business.** -/
theorem serves_request {isUrl : String → Bool} (r : ApiRequest) :
    Serves who i (r.run isUrl A) t := by
  cases r with
  | createCustomer => exact (serves_createCustomer hi).void
  | renameCustomer => exact (serves_renameCustomer hi).void
  | updateKycTier => exact (serves_updateKycTier hi).void
  | provisionAccount => exact (serves_provisionAccount hi).void
  | updateStatus => exact (serves_updateStatus hi).void
  | closeAccount => exact (serves_closeAccount hi).void
  | replaceRuleSet => exact (serves_replaceRuleSet hi).void
  | toggleRule => exact (serves_toggleRule hi).void
  | deleteRule => exact (serves_deleteRule hi).void
  | provisionBucket => exact (serves_provisionBucket hi).void
  | renameBucket => exact (serves_renameBucket hi).void
  | closeBucket => exact (serves_closeBucket hi).void
  | transferBetweenBuckets => exact (serves_transferBetweenBuckets hi).void
  | initiate => exact (serves_initiate hi).void

end AccountOS
