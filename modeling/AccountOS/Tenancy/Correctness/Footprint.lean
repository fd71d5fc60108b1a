import AccountOS.Accounts.Correctness.WritePaths
import AccountOS.Queue.Correctness.Footprint
import AccountOS.Tenancy.Requests

/-!
# What the requests may change

The counterpart of `AccountOS.Queue.Correctness.Footprint`: no request writes the ledger of an
account, the processed events or the executions of rules, but for archiving the latter. A relation
that holds of everything else holds of every call of every request.
-/

namespace AccountOS

open Conc Sql

variable {allowed : Call → Env → World → World → Prop} {R : World → World → Prop}

/-- The statements that requests execute. -/
def WriteOp.Requested : WriteOp → Prop
  | createLedgerEntry _ | updateReconciliationByRef .. | updateReconciliationById ..
  | createProcessedEvent _ | createRuleExecution _ | updateRuleExecution .. => False
  | _ => True

/-- Those of the requests that are not for a withdrawal: they leave the settlements as they are. -/
def WriteOp.Serviced : WriteOp → Prop
  | createSettlement _ | updateSettlement .. => False
  | o => o.Requested

theorem WriteOp.Serviced.requested {o : WriteOp} (h : o.Serviced) : o.Requested := by
  cases o with
  | createSettlement | updateSettlement => trivial
  | _ => exact h

/-- A relation that holds of the writes of such requests. -/
structure ServiceFootprint (R : World → World → Prop) : Prop extends
    Footprint WriteOp.Serviced R where
  register : ∀ {o : RegistryOp} {w w' : World} {db : Db}, o.apply w.db = .ok db →
    w' = { w with db } → R w w'
  bucketStatus : ∀ {id status} {w w' : World} {db : Db}, w.db.updateBucketStatus id status = .ok db →
    w' = { w with db } → R w w'
  trans : ∀ {w w' w''}, R w w' → R w' w'' → R w w''

/-- A relation that holds of the writes of all requests, and of what they have Nomba pay. -/
structure RequestFootprint (R : World → World → Prop) : Prop extends
    Footprint WriteOp.Requested R where
  register : ∀ {o : RegistryOp} {w w' : World} {db : Db}, o.apply w.db = .ok db →
    w' = { w with db } → R w w'
  bucketStatus : ∀ {id status} {w w' : World} {db : Db}, w.db.updateBucketStatus id status = .ok db →
    w' = { w with db } → R w w'
  transfers : ∀ w transfers, R w { w with transfers }
  trans : ∀ {w w' w''}, R w w' → R w' w'' → R w w''

/-! ### Locks and balances -/

theorem writes_lockBucketOr {ops : WriteOp → Prop} {notFound : Error}
    {bucketRef businessId : String} :
    (lockBucketOr notFound bucketRef businessId).Writes ops := by
  refine Tx.Writes.bind (Tx.writes_query _ _) fun row => ?_
  cases row with
  | none => trivial
  | some found =>
    refine Tx.Writes.bind (t := Tx.forUpdate _) trivial fun _ => ?_
    refine Tx.Writes.bind (Tx.writes_query _ _) fun again => ?_
    cases again <;> trivial

theorem writes_computeBalance {ops : WriteOp → Prop} {bucketId : String} :
    (computeBalance bucketId).Writes ops := by
  refine Tx.Writes.bind (Tx.writes_query _ _) fun credit => ?_
  exact Tx.Writes.bind (Tx.writes_query _ _) fun debit => trivial

namespace ServiceFootprint

variable (F : ServiceFootprint R)
include F

/-! ### The calls -/

theorem keeps_transaction {α : Type} {l : Call} {body : Env → TxBody α}
    {inside : Env → α → World → World} (hinside : LogsOnly inside)
    (hbody : ∀ env, (body env).Writes WriteOp.Serviced) :
    (transaction l body inside).Keeps allowed R :=
  F.keeps_writes F.trans hinside hbody

theorem keeps_register {α : Type} {l : Call} {op : Env → RegistryOp} {value : Env → Db → α} :
    (AccountOS.register l op value).Keeps allowed R := by
  refine Proc.Keeps.call fun env w _ => ?_
  rcases registerStep_cases op value env w with ⟨db, hop, hstep⟩ | ⟨e, w', hstep, hsame⟩
  · rw [hstep]
    exact F.register hop rfl
  · rw [hstep]
    exact F.sameData hsame

theorem keeps_updateBucketStatus {id : String} {status : AccountStatus} :
    (updateBucketStatus id status).Keeps allowed R := by
  refine Proc.Keeps.call fun env w _ => ?_
  rcases updateBucketStatusStep_cases id status env w with
    ⟨db, hop, hstep⟩ | ⟨e, w', hstep, hsame⟩
  · rw [hstep]
    exact F.bucketStatus hop rfl
  · rw [hstep]
    exact F.sameData hsame

theorem keeps_provisionDva {accountRef : String} :
    (provisionDva accountRef).Keeps allowed R := by
  refine Proc.Keeps.call fun env w _ => ?_
  cases env.fault <;> exact F.sameData (.refl w)

theorem keeps_expireDva {nombaAccountId : String} :
    (expireDva nombaAccountId).Keeps allowed R := by
  refine Proc.Keeps.call fun env w _ => ?_
  cases env.fault <;> exact F.sameData (.refl w)

/-! ### Customers -/

theorem keeps_auditFlagged {entry : Rule → AuditLogEntry} (rules : List Rule) :
    (auditFlagged entry rules).Keeps allowed R := by
  induction rules with
  | nil => trivial
  | cons rule rules ih => exact Proc.Keeps.bind F.keeps_audit fun _ => ih

theorem keeps_createCustomer {dto : CreateCustomerDto} {businessId : String} :
    (createCustomer dto businessId).Keeps allowed R :=
  Proc.Keeps.bind F.keeps_register fun _ => Proc.Keeps.bind F.keeps_audit fun _ => trivial

theorem keeps_renameCustomer {id businessId actor : String} {dto : RenameCustomerDto} :
    (renameCustomer id dto businessId actor).Keeps allowed R := by
  refine Proc.Keeps.bind F.keeps_find fun customer => ?_
  cases customer with
  | none => trivial
  | some customer =>
    exact Proc.Keeps.bind F.keeps_register fun _ => Proc.Keeps.bind F.keeps_audit fun _ => trivial

theorem keeps_updateKycTier {id businessId actor : String} {dto : UpdateKycTierDto} :
    (updateKycTier id dto businessId actor).Keeps allowed R := by
  refine Proc.Keeps.bind F.keeps_find fun customer => ?_
  cases customer with
  | none => trivial
  | some customer =>
    refine Proc.Keeps.bind (F.keeps_statement fun _ => trivial) fun _ => ?_
    refine Proc.Keeps.bind F.keeps_find fun staleRules => ?_
    refine Proc.Keeps.bind ?_ fun _ => Proc.Keeps.bind F.keeps_audit fun _ => trivial
    unfold flagStaleRules
    split
    · trivial
    · exact Proc.Keeps.bind (F.keeps_statement fun _ => trivial) fun _ => F.keeps_auditFlagged _

/-! ### Accounts and rules -/

omit F in
theorem writes_createRules {accountId : String} {kycTier : KycTier} {rows : Nat → Generated}
    {n : Nat} {rules : List RuleDefinition} :
    (createRules accountId kycTier rows n rules).Writes WriteOp.Serviced := by
  induction rules generalizing n with
  | nil => trivial
  | cons d rules ih =>
    unfold createRules
    split
    · exact Tx.Writes.bind (Tx.writes_exec trivial) fun _ => ih
    · trivial

omit F in
theorem writes_updateAccountTx {id : String} {op : WriteOp} (hop : op.Serviced) :
    (updateAccountTx id op).Writes WriteOp.Serviced :=
  Tx.Writes.bind (Tx.writes_exec hop) fun _ => Tx.writes_query _ _

theorem keeps_storeRuleSet {account : Account} {model : ExecutionModel}
    {rules : List RuleDefinition} {businessId : String} :
    (storeRuleSet account model rules businessId).Keeps allowed R := by
  refine Proc.Keeps.bind F.keeps_find fun customer => ?_
  refine Proc.Keeps.bind (F.keeps_statement fun _ => trivial) fun _ => ?_
  refine Proc.Keeps.bind (F.keeps_transaction logsOnly_nothing fun env => ?_) fun _ =>
    Proc.Keeps.bind F.keeps_audit fun _ => trivial
  refine Tx.Writes.bind (Tx.writes_exec trivial) fun _ => ?_
  exact Tx.Writes.bind writes_createRules fun _ => Tx.writes_query _ _

theorem keeps_replaceRuleSet {isUrl : String → Bool} {accountRef businessId : String}
    {dto : ReplaceRuleSetDto} :
    (replaceRuleSet isUrl accountRef businessId dto).Keeps allowed R := by
  refine Proc.Keeps.bind F.keeps_find fun account => ?_
  cases account with
  | none => trivial
  | some account =>
    dsimp only
    split
    next =>
      cases dto.executionModel.getD account.executionModel with
      | sequential => exact F.keeps_storeRuleSet
      | parallel =>
        refine Proc.Keeps.bind ?_ fun _ => F.keeps_storeRuleSet
        unfold enforcePercentageSum
        dsimp only
        split <;> trivial
    next => trivial

theorem keeps_resolveRule {accountRef ruleId businessId : String} :
    (resolveRule accountRef ruleId businessId).Keeps allowed R := by
  refine Proc.Keeps.bind F.keeps_find fun rule => ?_
  cases rule <;> trivial

theorem keeps_archiveRule {rule : Rule} {accountRef ruleId businessId : String} :
    (archiveRule rule accountRef ruleId businessId).Keeps allowed R :=
  Proc.Keeps.bind (F.keeps_statement fun _ => trivial) fun _ => F.keeps_audit

theorem keeps_toggleRule {accountRef ruleId businessId : String} {enabled : Bool} :
    (toggleRule accountRef ruleId businessId enabled).Keeps allowed R := by
  refine Proc.Keeps.bind F.keeps_resolveRule fun rule => ?_
  cases enabled with
  | true =>
    dsimp only
    split
    · trivial
    · exact Proc.Keeps.bind (F.keeps_statement fun _ => trivial) fun _ => trivial
  | false => exact Proc.Keeps.bind F.keeps_archiveRule fun _ => trivial

theorem keeps_deleteRule {accountRef ruleId businessId : String} :
    (deleteRule accountRef ruleId businessId).Keeps allowed R :=
  Proc.Keeps.bind F.keeps_resolveRule fun _ => Proc.Keeps.bind F.keeps_archiveRule fun _ => trivial

theorem keeps_provisionAccount {isUrl : String → Bool} {dto : ProvisionAccountDto}
    {businessId : String} : (provisionAccount isUrl dto businessId).Keeps allowed R := by
  unfold provisionAccount
  split
  next =>
    refine Proc.Keeps.bind F.keeps_find fun existing => ?_
    cases existing with
    | some _ => trivial
    | none =>
      refine Proc.Keeps.bind F.keeps_find fun customer => ?_
      cases customer with
      | none => trivial
      | some customer =>
        refine Proc.Keeps.bind F.keeps_find fun business => ?_
        cases business with
        | none => trivial
        | some _ =>
          refine Proc.Keeps.bind F.keeps_provisionDva fun nombaResult => ?_
          refine Proc.Keeps.bind (Proc.Keeps.catching ?_ fun err => ?_) fun _ =>
            Proc.Keeps.bind F.keeps_audit fun _ => trivial
          · refine F.keeps_transaction logsOnly_nothing fun env => ?_
            refine Tx.Writes.bind (Tx.writes_exec trivial) fun _ => ?_
            refine Tx.Writes.bind ?_ fun _ =>
              Tx.Writes.bind (Tx.writes_query _ _) fun _ => trivial
            rw [AccountLifecycle.createRules_eq]
            exact writes_createRules
          · exact Proc.Keeps.bind (Proc.Keeps.catching F.keeps_expireDva fun _ => trivial)
              fun _ => trivial
  next => trivial

theorem keeps_updateStatus {accountRef businessId actor : String} {dto : UpdateStatusDto} :
    (updateStatus accountRef dto businessId actor).Keeps allowed R := by
  refine Proc.Keeps.bind F.keeps_find fun account => ?_
  cases account with
  | none => trivial
  | some account =>
    dsimp only
    split
    · trivial
    · split
      · trivial
      · split
        · trivial
        · exact Proc.Keeps.bind
            (F.keeps_transaction logsOnly_nothing fun _ => writes_updateAccountTx trivial)
            fun _ => Proc.Keeps.bind F.keeps_audit fun _ => trivial

theorem keeps_closeAccount {accountRef businessId actor : String} :
    (closeAccount accountRef businessId actor).Keeps allowed R := by
  refine Proc.Keeps.bind F.keeps_find fun account => ?_
  cases account with
  | none => trivial
  | some account =>
    have hclose : (close account businessId actor).Keeps allowed R := by
      refine Proc.Keeps.bind (F.keeps_transaction logsOnly_nothing fun _ => ?_) fun _ => ?_
      · refine Tx.Writes.bind (Tx.writes_query _ _) fun _ => ?_
        exact Tx.Writes.bind (Tx.writes_exec trivial) fun _ => trivial
      · refine Proc.Keeps.bind F.keeps_expireDva fun _ => ?_
        exact Proc.Keeps.bind
          (F.keeps_transaction logsOnly_nothing fun _ => writes_updateAccountTx trivial)
          fun _ => Proc.Keeps.bind F.keeps_audit fun _ => trivial
    dsimp only
    cases account.status with
    | closed => trivial
    | expired => trivial
    | active => exact hclose
    | suspended => exact hclose

/-! ### Buckets and settlements -/

theorem keeps_resolveTreasuryBucket {bucketRef businessId : String} :
    (resolveTreasuryBucket bucketRef businessId).Keeps allowed R := by
  refine Proc.Keeps.bind F.keeps_find fun bucket => ?_
  cases bucket <;> trivial

theorem keeps_provisionBucket {dto : CreateBucketDto} {businessId : String} :
    (provisionBucket dto businessId).Keeps allowed R := by
  refine Proc.Keeps.bind F.keeps_find fun existing => ?_
  cases existing with
  | some _ => trivial
  | none =>
    exact Proc.Keeps.bind F.keeps_register fun _ => Proc.Keeps.bind F.keeps_audit fun _ => trivial

theorem keeps_renameBucket {bucketRef businessId : String} {dto : RenameBucketDto} :
    (renameBucket bucketRef dto businessId).Keeps allowed R :=
  Proc.Keeps.bind F.keeps_resolveTreasuryBucket fun _ => F.keeps_register

theorem keeps_closeBucket {bucketRef businessId actor : String} :
    (closeBucket bucketRef businessId actor).Keeps allowed R := by
  refine Proc.Keeps.bind F.keeps_resolveTreasuryBucket fun bucket => ?_
  split
  · trivial
  · refine Proc.Keeps.bind (F.keeps_transaction logsOnly_nothing fun _ => writes_computeBalance)
      fun balance => ?_
    refine Proc.Keeps.bind (F.keeps_transaction logsOnly_nothing fun _ => Tx.writes_query _ _)
      fun reserved => ?_
    split
    · trivial
    · exact Proc.Keeps.bind F.keeps_updateBucketStatus fun _ =>
        Proc.Keeps.bind F.keeps_audit fun _ => trivial

omit F in
theorem writes_transferTx {source destination businessId : String} {amountKobo : Int}
    {narration : Option String} {env : Env} :
    (transferTx source destination businessId amountKobo narration env).Writes
      WriteOp.Serviced := by
  refine Tx.Writes.bind writes_lockBucketOr fun source => ?_
  refine Tx.Writes.bind writes_lockBucketOr fun destination => ?_
  split
  · trivial
  · split
    · trivial
    · refine Tx.Writes.bind writes_computeBalance fun sourceBalance => ?_
      split
      · trivial
      · refine Tx.Writes.bind writes_computeBalance fun destBalance => ?_
        refine Tx.Writes.bind (Tx.writes_exec trivial) fun _ => ?_
        exact Tx.Writes.bind (Tx.writes_exec trivial) fun _ => trivial

theorem keeps_transferBetweenBuckets {sourceBucketRef businessId actor : String}
    {dto : TransferBucketDto} :
    (transferBetweenBuckets sourceBucketRef dto businessId actor).Keeps allowed R := by
  unfold transferBetweenBuckets
  split
  · trivial
  · refine Proc.Keeps.bind keeps_bigIntOrThrow fun amountKobo => ?_
    exact Proc.Keeps.bind (F.keeps_transaction logsOnly_nothing fun _ => writes_transferTx)
      fun _ => Proc.Keeps.bind F.keeps_audit fun _ => trivial

/-- **Every call of a request** but for a withdrawal is within the relation. -/
theorem keeps_request_of_ne {isUrl : String → Bool} {businessId : String} {r : ApiRequest}
    (hr : ∀ bucketRef dto actor, r ≠ .initiate bucketRef dto actor) :
    (r.run isUrl businessId).Keeps allowed R := by
  have hvoid : ∀ {α : Type} {p : Action α}, p.Keeps allowed R →
      (p.bind fun _ => (.ret () : Action Unit)).Keeps allowed R :=
    fun hp => Proc.Keeps.bind hp fun _ => trivial
  cases r with
  | createCustomer => exact hvoid F.keeps_createCustomer
  | renameCustomer => exact hvoid F.keeps_renameCustomer
  | updateKycTier => exact hvoid F.keeps_updateKycTier
  | provisionAccount => exact hvoid F.keeps_provisionAccount
  | updateStatus => exact hvoid F.keeps_updateStatus
  | closeAccount => exact hvoid F.keeps_closeAccount
  | replaceRuleSet => exact hvoid F.keeps_replaceRuleSet
  | toggleRule => exact hvoid F.keeps_toggleRule
  | deleteRule => exact hvoid F.keeps_deleteRule
  | provisionBucket => exact hvoid F.keeps_provisionBucket
  | renameBucket => exact hvoid F.keeps_renameBucket
  | closeBucket => exact hvoid F.keeps_closeBucket
  | transferBetweenBuckets => exact hvoid F.keeps_transferBetweenBuckets
  | initiate bucketRef dto actor => exact absurd rfl (hr bucketRef dto actor)

end ServiceFootprint

/-! ### Settlements -/

theorem writes_reserveTx {r : SettlementRequest} {env : Env} :
    (reserveTx r env).Writes WriteOp.Requested := by
  refine Tx.Writes.bind writes_lockBucketOr fun locked => ?_
  refine Tx.Writes.bind (Tx.writes_query _ _) fun ledgerBalance => ?_
  refine Tx.Writes.bind (Tx.writes_query _ _) fun reserved => ?_
  dsimp only
  split
  · trivial
  · cases parseDestinationType r.dest.type with
    | none => trivial
    | some type => exact Tx.Writes.bind (Tx.writes_exec trivial) fun _ => trivial

theorem writes_completeSettlementTx {r : SettlementRequest} {settlementId nombaReference : String}
    {env : Env} :
    (completeSettlementTx r settlementId nombaReference env).Writes WriteOp.Requested := by
  refine Tx.Writes.bind writes_lockBucketOr fun locked => ?_
  refine Tx.Writes.bind (Tx.writes_query _ _) fun balance => ?_
  exact Tx.Writes.bind (Tx.writes_exec trivial) fun _ => Tx.writes_exec trivial

theorem writes_settleInternalTx {r : SettlementRequest} {settlementId destRef : String}
    {env : Env} : (settleInternalTx r settlementId destRef env).Writes WriteOp.Requested := by
  refine Tx.Writes.bind writes_lockBucketOr fun source => ?_
  refine Tx.Writes.bind writes_lockBucketOr fun destination => ?_
  refine Tx.Writes.bind writes_computeBalance fun sourceBalance => ?_
  refine Tx.Writes.bind writes_computeBalance fun destBalance => ?_
  refine Tx.Writes.bind (Tx.writes_exec trivial) fun _ => ?_
  refine Tx.Writes.bind (Tx.writes_exec trivial) fun _ => ?_
  exact Tx.Writes.bind (Tx.writes_exec trivial) fun _ => trivial

namespace RequestFootprint

variable (F : RequestFootprint R)
include F

theorem service : ServiceFootprint R where
  sameData := F.sameData
  writes hop := F.writes hop.requested
  register := F.register
  bucketStatus := F.bucketStatus
  trans := F.trans

theorem keeps_transaction {α : Type} {l : Call} {body : Env → TxBody α}
    {inside : Env → α → World → World} (hinside : LogsOnly inside)
    (hbody : ∀ env, (body env).Writes WriteOp.Requested) :
    (transaction l body inside).Keeps allowed R :=
  F.keeps_writes F.trans hinside hbody

theorem keeps_settleInternal {r : SettlementRequest} {settlementId destRef : String} :
    (settleInternal r settlementId destRef).Keeps allowed R :=
  Proc.Keeps.bind (F.keeps_transaction logsOnly_nothing fun _ => writes_settleInternalTx)
    fun _ => F.keeps_audit

theorem keeps_completeSettlement {r : SettlementRequest} {settlementId nombaReference : String} :
    (completeSettlement r settlementId nombaReference).Keeps allowed R :=
  Proc.Keeps.bind (F.keeps_transaction logsOnly_nothing fun _ => writes_completeSettlementTx)
    fun _ => F.keeps_audit

theorem keeps_failSettlement {α : Type} {r : SettlementRequest} {settlementId : String}
    {error : Error} : (failSettlement r settlementId error : Action α).Keeps allowed R := by
  refine Proc.Keeps.bind
    (Proc.Keeps.catching (F.keeps_statement fun _ => trivial) fun _ => trivial) fun _ => ?_
  refine Proc.Keeps.bind F.keeps_audit fun _ => ?_
  split <;> trivial

theorem keeps_bankTransfer {settlementId : String} {request : Env → BankTransferRequest} :
    (bankTransfer settlementId request).Keeps allowed R := by
  refine Proc.Keeps.call fun env w _ => ?_
  cases env.fault with
  | none => exact F.transfers w _
  | some f => exact F.sameData (.refl w)

theorem keeps_executeTransfer {r : SettlementRequest} {settlementId : String} :
    (executeTransfer r settlementId).Keeps allowed R := by
  unfold executeTransfer
  split
  · split
    · trivial
    · exact F.keeps_settleInternal
  · split
    · exact Proc.Keeps.bind F.keeps_bankTransfer fun sent => F.keeps_completeSettlement
    · trivial

theorem keeps_initiate {bucketRef businessId actor : String} {dto : CreateSettlementDto} :
    (initiate bucketRef dto businessId actor).Keeps allowed R := by
  refine Proc.Keeps.bind ?_ fun bucket => ?_
  · refine Proc.Keeps.bind F.keeps_find fun bucket => ?_
    cases bucket <;> trivial
  · split
    · trivial
    · refine Proc.Keeps.bind keeps_bigIntOrThrow fun amountKobo => ?_
      refine Proc.Keeps.bind
        (F.keeps_transaction (logsOnly_log _) fun _ => writes_reserveTx)
        fun settlement => ?_
      refine Proc.Keeps.bind (F.keeps_statement fun _ => trivial) fun _ => ?_
      exact Proc.Keeps.catching (Proc.Keeps.bind F.keeps_executeTransfer fun _ => trivial)
        fun _ => F.keeps_failSettlement

/-- **Every call of a request** is within the relation. -/
theorem keeps_request {isUrl : String → Bool} {businessId : String} (r : ApiRequest) :
    (r.run isUrl businessId).Keeps allowed R := by
  cases r with
  | initiate => exact Proc.Keeps.bind F.keeps_initiate fun _ => trivial
  | _ => exact F.service.keeps_request_of_ne fun _ _ _ h => by cases h

end RequestFootprint

end AccountOS
