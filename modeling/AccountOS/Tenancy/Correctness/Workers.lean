import AccountOS.Queue.Correctness.Footprint
import AccountOS.Tenancy.Correctness.Contract
import AccountOS.Tenancy.Requests

/-!
# The jobs of the workers

A job is for the business of the account that is paid, or whose execution is tried again. What the
workers add for it is found in, or belongs to rows that have been found in, that business.
-/

namespace AccountOS

open Conc Sql

variable {ι : Type} [DecidableEq ι] {who : ι → Option String} {i : ι} {t : World} {A : String}

/-! ### Statements that add nothing -/

/-- A statement that adds no row which belongs to a business. -/
def WriteOp.AddsNoRow : WriteOp → Prop
  | createBucketLedgerEntry _ | createSettlement _ | createLedgerEntry _ | createRuleExecution _
  | createRule _ | createAccount _ => False
  | _ => True

theorem WriteOp.AddsNoRow.createsFor {o : WriteOp} (ho : o.AddsNoRow)
    (S : Set (OwnedRow RowKey String)) : o.CreatesFor A S := by
  cases o with
  | createBucketLedgerEntry | createSettlement | createLedgerEntry | createRuleExecution
  | createRule | createAccount => exact ho.elim
  | _ => trivial

theorem WriteOp.Recording.addsNoRow : ∀ o : WriteOp, o.Recording → o.AddsNoRow := by
  intro o ho
  cases o with
  | updateRuleExecution | updateAccountStatus => trivial
  | _ => exact ho.elim

theorem WriteOp.Reconciling.addsNoRow : ∀ o : WriteOp, o.Reconciling → o.AddsNoRow := by
  intro o ho
  cases o with
  | updateReconciliationByRef | updateReconciliationById => trivial
  | _ => exact ho.elim

theorem WriteOp.Claiming.addsNoRow : ∀ o : WriteOp, o.Claiming → o.AddsNoRow := by
  intro o ho
  cases o with
  | createProcessedEvent => trivial
  | _ => exact ho.elim

/-- What a worker may do at a call, whatever it has found. -/
def WorkerStep (w w' : World) : Prop := ∀ l, Db.Written none l w.db w'.db

theorem workerStep_of_db_eq {w w' : World} (h : w'.db = w.db) : WorkerStep w w' := by
  intro l
  rw [h]
  exact .refl _ _ _

theorem worker_footprint : Footprint WriteOp.AddsNoRow WorkerStep where
  sameData h := workerStep_of_db_eq h.db
  writes {o w w' db} ho hop hw l := by
    rw [hw]
    refine .of_worker hop (ho.createsFor (A := "") _) ?_
    rintro e rfl
    exact ho.elim

variable (hi : who i = none)
include hi

theorem Serves.of_workerStep {α : Type} {p : Action α}
    (hp : p.Keeps (tenancy who).allowed WorkerStep) : Serves who i p t :=
  .of_keeps hp fun l w w' _ _ h => by
    rw [hi]
    exact h l

omit hi in
theorem serves_enqueueIfRetrying {r : ExecutionResult} :
    Serves who i (WebhookProcessor.enqueueIfRetrying r) t := by
  unfold WebhookProcessor.enqueueIfRetrying
  split
  · refine .idle (Proc.Keeps.call fun env w _ => ?_)
    cases env.fault <;> rfl
  · exact .ret

/-! ### Allocations -/

/-- The entry that an allocation names as its source is a ledger entry of the business, or it stands
in for one and no ledger entry has its id. -/
def SourceOf (S : Set (OwnedRow RowKey String)) (A : String) (id : String) : Prop :=
  IsCustomId id ∨ Owned S A (.ledgerEntry id)

omit hi in
theorem SourceOf.mono {S S' : Set (OwnedRow RowKey String)} {id : String} (h : SourceOf S A id)
    (hsub : S ⊆ S') : SourceOf S' A id := by
  rcases h with hcustom | howned
  · exact .inl hcustom
  · exact .inr (howned.mono hsub)

theorem serves_credit {p : CreditParams} (hbucket : Owned t.db.rows A (.bucket p.bucketId))
    (hsource : ∀ l ∈ p.sourceLedgerEntryId, SourceOf t.db.rows A l) : Serves who i (credit p) t := by
  refine Serves.bind ?_ fun _ _ _ => Serves.audit.bind fun _ _ _ => .ret
  have htx : ∀ w, t.db.rows ⊆ w.db.rows → Serves who i
      (transaction (.credit p.bucketId p.reference p.amountKobo) fun env => creditTx p env.row) w := by
    intro w hw
    refine .transaction logsOnly_nothing fun env w₁ a db hw₁ ht₁ _ hrun => ?_
    rw [hi]
    rcases (creditTx_run_eq_ok w₁.db).1 hrun with ⟨e, -, -, rfl⟩ | ⟨-, -, hop⟩
    · exact .refl _ _ _
    · refine .of_worker (A := A) (o := .createBucketLedgerEntry _) hop
        ⟨hbucket.mono (hw.trans ht₁), ?_⟩ fun _ h => by cases h
      intro l hl
      rcases hsource l hl with hcustom | howned
      · -- the foreign key: an entry of this id there would have to be
        obtain ⟨-, -, -, hexists, -⟩ := Db.createBucketLedgerEntry_eq_ok.1 hop
        obtain ⟨x, hx, rfl⟩ := hexists l hl
        exact absurd hcustom (hw₁.cuids x hx)
      · exact howned.mono (hw.trans ht₁)
  have hloop : ∀ n w, t.db.rows ⊆ w.db.rows → Serves who i (runSerializable
      (transaction (.credit p.bucketId p.reference p.amountKobo) fun env => creditTx p env.row) n)
      w := by
    intro n
    induction n with
    | zero => exact htx
    | succ n ih =>
      intro w hw
      refine (htx w hw).catching fun err w' hw' => ?_
      split
      · exact ih w' (hw.trans hw')
      · exact .raise
  exact hloop maxRetries t Set.Subset.rfl

/-! ### Executing a rule -/

/-- A rule of an account of the business. -/
structure RuleOf (S : Set (OwnedRow RowKey String)) (A : String) (r : EvaluatedRule) : Prop where
  rule : Owned S A (.rule r.id)
  account : Owned S A (.account r.account.id)
  business : r.account.businessId = A

omit hi in
theorem RuleOf.mono {S S' : Set (OwnedRow RowKey String)} {rule : EvaluatedRule}
    (h : RuleOf S A rule) (hsub : S ⊆ S') : RuleOf S' A rule :=
  ⟨h.rule.mono hsub, h.account.mono hsub, h.business⟩

section Actions

variable {x : String} {account : RuleAccount}

theorem serves_markCompleted {response : Option (List (String × Json))} :
    Serves who i (markCompleted x response) t :=
  .of_workerStep hi (worker_footprint.keeps_markCompleted WriteOp.Recording.addsNoRow)

theorem serves_markExecutionFailed {message : String} :
    Serves who i (markExecutionFailed x message) t :=
  .of_workerStep hi (worker_footprint.keeps_markExecutionFailed WriteOp.Recording.addsNoRow)

theorem serves_markRetrying {message : String} : Serves who i (markRetrying x message) t :=
  .of_workerStep hi (worker_footprint.keeps_markRetrying WriteOp.Recording.addsNoRow)

theorem serves_handleReleaseFunds {payload : Option RulePayload} {entry : TriggerEntry}
    (hsource : SourceOf t.db.rows account.businessId entry.id) :
    Serves who i (handleReleaseFunds x payload account entry) t := by
  unfold handleReleaseFunds
  dsimp only
  split
  next => exact serves_markExecutionFailed hi
  next =>
    refine .find fun env w _ hw => ?_
    cases hfound : w.db.findBucket account.businessId ((payload.getD {}).destinationAccountRef.getD "")
      with
    | none => exact serves_markExecutionFailed hi
    | some bucket =>
      obtain ⟨hmem, hbusiness, -⟩ := findBucket_eq_some w.db hfound
      have hbucket : Owned w.db.rows account.businessId (.bucket bucket.id) :=
        owned_bucket_iff.2 ⟨bucket, hmem, rfl, hbusiness⟩
      dsimp only
      split
      next => exact serves_markExecutionFailed hi
      next =>
        split
        next => exact serves_markExecutionFailed hi
        next => exact .raise
        next =>
          split
          next => exact serves_markCompleted hi
          next =>
            refine Serves.catching ?_ fun _ _ _ => serves_markRetrying hi
            refine (serves_credit hi hbucket fun l hl => ?_).bind fun _ _ _ => ?_
            · cases hl
              exact hsource.mono hw
            · exact (serves_markCompleted hi).bind fun _ _ _ => Serves.audit.bind fun _ _ _ => .ret

end Actions

theorem serves_execute {rule : EvaluatedRule} {entry : TriggerEntry} (hrule : RuleOf t.db.rows A rule)
    (hsource : SourceOf t.db.rows A entry.id) : Serves who i (execute rule entry) t := by
  refine Serves.bind (.transaction logsOnly_nothing fun env w a db hw ht _ hrun => ?_)
    fun x w hw => ?_
  · obtain ⟨hop, -⟩ := createRuleExecution_run_eq_ok hrun
    have hentry : ∀ l ∈ entry.realLedgerEntryId, Owned w.db.rows A (.ledgerEntry l) := by
      intro l hl
      unfold TriggerEntry.realLedgerEntryId at hl
      split at hl
      next => cases hl
      next hcustom =>
        cases hl
        rcases hsource with hcustom' | howned
        · exact absurd hcustom' hcustom
        · exact howned.mono ht
    rw [hi]
    exact .of_worker hop ⟨hrule.account.mono ht, hrule.rule.mono ht, hentry⟩ fun _ h => by cases h
  · have hrecord := WriteOp.Recording.addsNoRow
    unfold act
    split
    next =>
      refine serves_handleReleaseFunds hi ?_
      rw [hrule.business]
      exact hsource.mono hw
    next => exact .of_workerStep hi (worker_footprint.keeps_handleStatusChange hrecord)
    next => exact .of_workerStep hi (worker_footprint.keeps_handleStatusChange hrecord)
    next => exact .of_workerStep hi (worker_footprint.keeps_handleStatusChange hrecord)
    next =>
      exact .of_workerStep hi (worker_footprint.keeps_handleFlagForReview hrecord
        (.inr WriteOp.Reconciling.addsNoRow))
    next => exact .of_workerStep hi (worker_footprint.keeps_handleNotifyWebhook hrecord)

theorem serves_executeAll {after : ExecutionResult → Action Unit}
    (hafter : ∀ r w, Serves who i (after r) w) {entry : TriggerEntry} (rules : List EvaluatedRule)
    (hrules : ∀ r ∈ rules, RuleOf t.db.rows A r) (hsource : SourceOf t.db.rows A entry.id) :
    Serves who i (WebhookProcessor.executeAll after entry rules) t := by
  induction rules generalizing t with
  | nil => exact .ret
  | cons rule rules ih =>
    refine (serves_execute hi (hrules rule List.mem_cons_self) hsource).bind fun r w hw => ?_
    refine (hafter r w).bind fun _ w' hw' => ?_
    have hsub := hw.trans hw'
    exact ih (fun r hr => (hrules r (List.mem_cons_of_mem _ hr)).mono hsub) (hsource.mono hsub)

/-! ### A job of the webhook queue -/

section Process

open WebhookProcessor

omit hi in
/-- What comes after the rules of an account of the business have been selected. -/
theorem serves_evaluate {α : Type} {accountId : String} {model : ExecutionModel} {event : RuleEvent}
    {g : List EvaluatedRule → Action α} (haccount : Owned t.db.rows A (.account accountId))
    (hg : ∀ rules w, t.db.rows ⊆ w.db.rows → (∀ r ∈ rules, RuleOf w.db.rows A r) →
      Serves who i (g rules) w) : Serves who i ((evaluate accountId model event).bind g) t := by
  refine Proc.Wp.bind (Proc.Wp.bind (Contract.wp_find undisturbed_tenancy (fun env w hw ht => ?_)
    fun _ _ ht => ht))
  have howned : Owned w.db.rows A (.account accountId) := haccount.mono ht
  refine (hg _ w ht fun r hr => ?_).mono (fun _ _ h => Set.Subset.trans ht h)
    fun _ _ h => Set.Subset.trans ht h
  obtain ⟨q, hq, rfl⟩ := selectMatching_subset hr
  obtain ⟨hrule, ⟨hid, -⟩, a, ha, haid, hforRule⟩ := Db.mem_findRules hq
  have hkey : q.1.row.owner = .inr (.account accountId) := by
    rw [← hid]
    rfl
  refine ⟨.through (Rule.row_mem hrule) hkey howned, ?_, ?_⟩
  · show Owned w.db.rows A (.account q.2.id)
    rw [hforRule]
    show Owned w.db.rows A (.account a.id)
    rw [haid]
    exact howned
  · show q.2.businessId = A
    rw [hforRule]
    have hown : Owned w.db.rows a.businessId (.account accountId) :=
      owned_account_iff.2 ⟨a, ha, haid, rfl⟩
    exact Owned.unique hw.unique hown howned

theorem serves_createProcessedEvent {payload : InflowPayload} {eventType : String}
    {account : Account} : Serves who i (createProcessedEvent payload eventType account) t :=
  .of_workerStep hi (worker_footprint.keeps_createProcessedEvent WriteOp.Claiming.addsNoRow)

theorem serves_processCustomEvent {payload : InflowPayload} {account : Account}
    (haccount : Owned t.db.rows A (.account account.id)) :
    Serves who i (processCustomEvent payload account) t := by
  refine Serves.bind ?_ fun claimed w hw => ?_
  · exact .of_workerStep hi (worker_footprint.keeps_claim WriteOp.Claiming.addsNoRow)
  · cases claimed with
    | false => exact .ret
    | true =>
      refine serves_evaluate (haccount.mono hw) fun rules w₁ _ hrules => ?_
      refine Serves.bind ?_ fun _ _ _ => .audit
      unfold executeForEvent
      split
      next => exact .ret
      next =>
        refine .find fun env w₂ _ hw₂ => ?_
        cases w₂.db.findBusiness account.businessId with
        | none => exact .ret
        | some _ =>
          have hcustom : IsCustomId (pseudoLedgerEntry payload).id := by
            show "custom_".toList <+: ("custom_" ++ payload.eventId).toList
            rw [String.toList_append]
            exact List.prefix_append _ _
          exact serves_executeAll hi (fun _ _ => .ret) rules (fun r hr => (hrules r hr).mono hw₂)
            (.inl hcustom)

omit hi in
/-- The entry with a reference that is the business's own. -/
theorem owned_of_transactionRef {db : Db} (hdb : db.Tenanted) {ref : String} {e : LedgerEntry}
    (href : Owned db.rows A (.transactionRef ref)) (he : db.findLedgerEntry ref = some e) :
    Owned db.rows A (.ledgerEntry e.id) := by
  obtain ⟨hmem, rfl⟩ := findLedgerEntry_eq_some db he
  have haccount : Owned db.rows A (.account e.accountId) :=
    (owned_key_iff_of_inr hdb.unique (LedgerEntry.refRow_mem hmem) rfl).1 href
  exact .through (LedgerEntry.row_mem hmem) rfl haccount

theorem serves_settleInflow {payload : InflowPayload} {account : Account}
    {rules : List EvaluatedRule} (hrules : ∀ r ∈ rules, RuleOf t.db.rows A r)
    (href : Owned t.db.rows A (.transactionRef payload.transactionRef)) :
    Serves who i (settleInflow payload account rules) t := by
  have hreconcile : ∀ status matched w, Serves who i (reconcile payload account status matched) w :=
    fun _ _ _ => .of_workerStep hi (worker_footprint.keeps_reconcile WriteOp.Reconciling.addsNoRow)
  unfold settleInflow
  split
  next => exact hreconcile _ _ _
  next =>
    refine Serves.bind ?_ fun _ w _ => hreconcile _ _ w
    refine .find fun env w _ hw => ?_
    cases w.db.findBusiness account.businessId with
    | none => exact .ret
    | some _ =>
      refine .find fun env₁ w₁ hw₁ hsub => ?_
      cases hfound : w₁.db.findLedgerEntry payload.transactionRef with
      | none => exact .ret
      | some record =>
        have hentry := owned_of_transactionRef hw₁ (href.mono (hw.trans hsub)) hfound
        exact serves_executeAll hi (fun _ _ => serves_enqueueIfRetrying) rules
          (fun r hr => (hrules r hr).mono (hw.trans hsub)) (.inr hentry)

/-- What comes after an inflow has been written for an account of the business knows its
reference. -/
theorem serves_writeInflow {α : Type} {dto : WriteInflowDto} {status : ReconciliationStatus}
    {g : Int → Action α} (haccount : Owned t.db.rows A (.account dto.accountId))
    (hg : ∀ total w, t.db.rows ⊆ w.db.rows →
      Owned w.db.rows A (.transactionRef dto.nombaTransactionRef) → Serves who i (g total) w) :
    Serves who i ((writeInflow dto status).bind g) t := by
  refine .transaction_bind logsOnly_nothing fun env w total db hw ht hcuid hrun => ?_
  obtain ⟨amountKobo, -, -, hop⟩ := (writeInflowTx_run_eq_ok w.db).1 hrun
  have howned : Owned w.db.rows A (.account dto.accountId) := haccount.mono ht
  have hwritten : Db.Written none (.writeInflow dto.nombaTransactionRef) w.db db := by
    refine .of_worker (o := .createLedgerEntry _) hop howned fun e he => ?_
    cases he
    exact hcuid
  refine ⟨?_, fun w' hw' => ?_⟩
  · rw [hi]
    exact hwritten
  · have hsub : w.db.rows ⊆ w'.db.rows := by
      rw [hw']
      exact hwritten.subset
    refine hg total w' (ht.trans hsub) ?_
    obtain ⟨-, -, -, rfl⟩ := Db.createLedgerEntry_eq_ok.1 hop
    have hmem : dto.entry status env amountKobo (w.db.inflowSum dto.accountId) ∈
        w'.db.ledgerEntries := by
      rw [hw']
      exact List.mem_append_right _ (List.mem_singleton_self _)
    exact .through (LedgerEntry.refRow_mem hmem) rfl (howned.mono hsub)

theorem serves_processUnseen {payload : InflowPayload} :
    Serves who i (processUnseen payload) t := by
  refine .find fun env w _ _ => ?_
  cases h : (w.db.findAccount payload.accountNumber).map fun a =>
      FoundAccount.mk a (a.customerId.bind w.db.findCustomer) with
  | none => exact .audit
  | some found =>
    obtain ⟨a, ha, hfound⟩ := Option.map_eq_some_iff.1 h
    subst hfound
    have haccount : Owned w.db.rows a.businessId (.account a.id) :=
      owned_account_iff.2 ⟨a, List.mem_of_find?_eq_some ha, rfl, rfl⟩
    dsimp only
    split
    next => exact serves_processCustomEvent hi haccount
    next =>
      cases a.status with
      | suspended => exact serves_writeInflow hi haccount fun _ _ _ _ => .audit
      | closed => exact .audit
      | expired => exact .audit
      | active =>
        refine serves_writeInflow hi haccount fun total w₁ hw₁ href => ?_
        refine Serves.bigIntOrThrow.bind fun amountKobo w₂ hw₂ => ?_
        refine serves_evaluate (haccount.mono (hw₁.trans hw₂)) fun rules w₃ hw₃ hrules => ?_
        exact (serves_settleInflow hi hrules (href.mono (hw₂.trans hw₃))).bind
          fun _ _ _ => serves_createProcessedEvent hi

theorem serves_process {payload : InflowPayload} : Serves who i (process payload) t := by
  refine Serves.catching (.find fun env w _ _ => ?_) fun e w _ => ?_
  · cases w.db.findProcessedEvent payload.eventId with
    | none => exact serves_processUnseen hi
    | some _ => exact .audit
  · split
    · exact .audit
    · exact .raise

end Process

/-! ### A job of the retry queue -/

section Retry

open RetryProcessor

omit hi in
/-- The ledger entry of an execution is of the business of the rule's account. -/
theorem owned_of_findRuleExecution {db : Db} (hdb : db.Tenanted) {id : String}
    {found : FoundExecution} (h : db.findRuleExecution id = some found) {e : LedgerEntry}
    (he : found.triggeredByLedgerEntry = some e) :
    Owned db.rows found.account.businessId (.ledgerEntry e.id) := by
  obtain ⟨⟨hx, -⟩, ⟨hr, hrid⟩, ⟨ha, haid⟩, htriggered⟩ := Db.findRuleExecution_eq_some h
  rw [he] at htriggered
  obtain ⟨l, hl, hfind⟩ := Option.bind_eq_some_iff.1 htriggered.symm
  have hid : e.id = l := by simpa using List.find?_some hfind
  have haccount : Owned db.rows found.account.businessId (.account found.rule.accountId) :=
    owned_account_iff.2 ⟨_, ha, haid, rfl⟩
  have hrule : Owned db.rows found.account.businessId (.rule found.execution.ruleId) := by
    rw [← hrid]
    exact .through (Rule.row_mem hr) rfl haccount
  -- the execution is linked to its rule and to its entry, so these are of one business
  have hlinked := hdb.linked found.execution.row (RuleExecution.row_mem hx)
  obtain ⟨B, hB, hBrule⟩ := hlinked (.rule found.execution.ruleId) List.mem_cons_self
  obtain ⟨B', hB', hBentry⟩ := hlinked (.ledgerEntry l) (by simp [RuleExecution.row, hl])
  have hBA : B = found.account.businessId := Owned.unique hdb.unique hBrule hrule
  have hB'B : B' = B := Owned.unique hdb.unique hB' hB
  rw [hid, ← hBA, ← hB'B]
  exact hBentry

theorem serves_attemptRelease {found : FoundExecution} {attempt : Nat}
    (hentry : ∀ e, found.triggeredByLedgerEntry = some e →
      Owned t.db.rows found.account.businessId (.ledgerEntry e.id)) :
    Serves who i (attemptRelease found attempt) t := by
  unfold attemptRelease
  dsimp only
  split
  next => exact .ret
  next =>
    refine .find fun env w _ hw => ?_
    cases hfound : w.db.findBucket found.account.businessId
        ((found.rule.payload.getD {}).destinationAccountRef.getD "") with
    | none => exact .ret
    | some bucket =>
      obtain ⟨hmem, hbusiness, -⟩ := findBucket_eq_some w.db hfound
      have hbucket : Owned w.db.rows found.account.businessId (.bucket bucket.id) :=
        owned_bucket_iff.2 ⟨bucket, hmem, rfl, hbusiness⟩
      cases htriggered : found.triggeredByLedgerEntry with
      | none => exact .ret
      | some e =>
        dsimp only
        split
        next => exact .ret
        next => exact .raise
        next =>
          refine Serves.catching ((serves_credit hi hbucket fun l hl => ?_).bind fun _ _ _ => .ret)
            fun _ _ _ => .ret
          cases hl
          exact .inr ((hentry e htriggered).mono hw)

theorem serves_settleOutcome {job : RetryDelivery} {found : FoundExecution}
    {outcome : AttemptOutcome} : Serves who i (settleOutcome job found outcome) t :=
  .of_workerStep hi (worker_footprint.keeps_settleOutcome WriteOp.Recording.addsNoRow)

theorem serves_retry {job : RetryDelivery} : Serves who i (RetryProcessor.process job) t := by
  refine .find fun env w hdb _ => ?_
  cases hfound : w.db.findRuleExecution job.ruleExecutionId with
  | none => exact .ret
  | some found =>
    dsimp only
    split
    next => exact .ret
    next =>
      split
      next =>
        refine (serves_attemptRelease hi fun e he => owned_of_findRuleExecution hdb hfound he).bind
          fun _ _ _ => serves_settleOutcome hi
      next =>
        exact Serves.bind (.of_workerStep hi worker_footprint.keeps_attemptNotify)
          fun _ _ _ => serves_settleOutcome hi
      next =>
        exact .of_workerStep hi
          (worker_footprint.keeps_updateRuleExecution WriteOp.Recording.addsNoRow)

end Retry

end AccountOS
