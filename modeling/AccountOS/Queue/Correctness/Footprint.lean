import AccountOS.Queue.RetryProcessor
import AccountOS.Queue.WebhookProcessor
import AccountOS.Store.Alone

/-!
# What the methods of the worker may change

For each method of the engine and of the worker, the statements that it may execute. A relation
that holds of these, and of every call that changes no data, holds of every call of the method.
-/

namespace AccountOS

open Conc Sql

variable {allowed : Call → Env → World → World → Prop} {ops : WriteOp → Prop}
  {R : World → World → Prop} (F : Footprint ops R)

/-- The statements of an allocation and of the bookkeeping of the rules. -/
def WriteOp.Executing : WriteOp → Prop
  | createBucketLedgerEntry _ | createRuleExecution _ | updateRuleExecution ..
  | updateAccountStatus .. => True
  | _ => False

/-- Those of them that record what becomes of an execution, or of the account. -/
def WriteOp.Recording : WriteOp → Prop
  | updateRuleExecution .. | updateAccountStatus .. => True
  | _ => False

theorem WriteOp.Recording.executing {o : WriteOp} (h : o.Recording) : o.Executing := by
  cases o with
  | updateRuleExecution | updateAccountStatus => trivial
  | _ => cases h

/-- The statements that set an entry's reconciliation status. -/
def WriteOp.Reconciling : WriteOp → Prop
  | updateReconciliationByRef .. | updateReconciliationById .. => True
  | _ => False

/-- The statement that marks an event as processed. -/
def WriteOp.Claiming : WriteOp → Prop
  | createProcessedEvent _ => True
  | _ => False

/-- The statements of a delivery. -/
def WriteOp.Delivering : WriteOp → Prop
  | createBucketLedgerEntry _ | createRuleExecution _ | updateRuleExecution ..
  | updateAccountStatus .. | updateReconciliationByRef .. | updateReconciliationById ..
  | createProcessedEvent _ | createLedgerEntry _ => True
  | _ => False

theorem WriteOp.Executing.delivering {o : WriteOp} (h : o.Executing) : o.Delivering := by
  cases o with
  | createBucketLedgerEntry | createRuleExecution | updateRuleExecution
  | updateAccountStatus => trivial
  | _ => cases h

theorem WriteOp.Reconciling.delivering {o : WriteOp} (h : o.Reconciling) : o.Delivering := by
  cases o with
  | updateReconciliationByRef | updateReconciliationById => trivial
  | _ => cases h

theorem WriteOp.Claiming.delivering {o : WriteOp} (h : o.Claiming) : o.Delivering := by
  cases o with
  | createProcessedEvent => trivial
  | _ => cases h

/-- Putting a job on the retry queue is within the relation. -/
def EnqueuesRetries (R : World → World → Prop) : Prop :=
  ∀ w job, R w { w with retryQueue := w.retryQueue ++ [job] }

section Attempts

open RetryProcessor

variable {found : FoundExecution}

/-- An attempt to release funds looks up the bucket and credits it. -/
theorem attemptRelease_keeps {R : World → World → Prop}
    (hfind : ∀ businessId bucketRef, (find (.findBucket businessId bucketRef) fun _ db =>
      db.findBucket businessId bucketRef).Keeps allowed R)
    (hcredit : ∀ p, (credit p).Keeps allowed R) {attempt : Nat} :
    (attemptRelease found attempt).Keeps allowed R := by
  unfold attemptRelease
  dsimp only
  split
  next => trivial
  next =>
    refine Proc.Keeps.bind (hfind _ _) fun destinationBucket => ?_
    cases destinationBucket with
    | none => trivial
    | some bucket =>
      cases found.triggeredByLedgerEntry with
      | none => trivial
      | some ledgerEntry =>
        dsimp only
        split
        next => trivial
        next => trivial
        next =>
          refine Proc.Keeps.catching ?_ fun _ => trivial
          exact Proc.Keeps.bind (hcredit _) fun _ => trivial

/-- An attempt to notify delivers the notification. -/
theorem attemptNotify_keeps {R : World → World → Prop}
    (hdeliver : ∀ url, (deliver url).Keeps allowed R) :
    (attemptNotify found).Keeps allowed R := by
  unfold attemptNotify
  dsimp only
  split
  next => trivial
  next =>
    refine Proc.Keeps.bind (hdeliver _) fun result => ?_
    cases result <;> trivial

end Attempts

/-- Trying again calls nothing else. -/
theorem keeps_runSerializable {α : Type} {fn : Action α} (h : fn.Keeps allowed R) (n : Nat) :
    (runSerializable fn n).Keeps allowed R := by
  induction n with
  | zero => exact h
  | succ n ih =>
    refine Proc.Keeps.catching h fun err => ?_
    split
    · exact ih
    · trivial

namespace Footprint

include F

/-! ### The ledgers -/

theorem keeps_credit (hops : ∀ e, ops (.createBucketLedgerEntry e)) (p : CreditParams) :
    (credit p).Keeps allowed R := by
  have htx : (transaction (.credit p.bucketId p.reference p.amountKobo)
      fun env => creditTx p env.row).Keeps allowed R := by
    refine F.keeps_transaction logsOnly_nothing ?_
    intro env w a db w' hrun hw'
    rcases (creditTx_run_eq_ok w.db).1 hrun with ⟨e, -, -, rfl⟩ | ⟨-, -, hdb⟩
    · rw [hw']
      exact F.sameData (.refl w)
    · exact F.writes (hops _) hdb hw'
  refine Proc.Keeps.bind (keeps_runSerializable htx maxRetries) fun cumulative => ?_
  exact Proc.Keeps.bind F.keeps_audit fun _ => trivial

theorem keeps_writeInflow (hops : ∀ e, ops (.createLedgerEntry e)) (dto : WriteInflowDto)
    (status : ReconciliationStatus) : (writeInflow dto status).Keeps allowed R := by
  refine F.keeps_transaction logsOnly_nothing ?_
  intro env w t db w' hrun hw'
  obtain ⟨n, -, -, hdb⟩ := (writeInflowTx_run_eq_ok w.db).1 hrun
  exact F.writes (hops _) hdb hw'

/-! ### Executing a rule -/

section Execute

section Actions

variable (hops : ∀ o : WriteOp, o.Recording → ops o) {x : String} {account : RuleAccount}
include hops

theorem keeps_updateRuleExecution {data : Nat → RuleExecutionData} :
    (updateRuleExecution x data).Keeps allowed R :=
  F.keeps_statement fun _ => hops _ trivial

theorem keeps_markExecutionFailed {message : String} :
    (markExecutionFailed x message).Keeps allowed R :=
  Proc.Keeps.bind (F.keeps_updateRuleExecution hops) fun _ => trivial

theorem keeps_markCompleted {response : Option (List (String × Json))} :
    (markCompleted x response).Keeps allowed R :=
  Proc.Keeps.bind (F.keeps_updateRuleExecution hops) fun _ => trivial

theorem keeps_markRetrying {message : String} : (markRetrying x message).Keeps allowed R :=
  Proc.Keeps.bind (F.keeps_updateRuleExecution hops) fun _ => trivial

theorem keeps_allocate (hcredit : ∀ e, ops (.createBucketLedgerEntry e)) {ref bucketId : String}
    {entry : TriggerEntry} {amount : Int} :
    (allocate x ref bucketId account entry amount).Keeps allowed R := by
  refine Proc.Keeps.bind (F.keeps_credit hcredit _) fun cumulative => ?_
  refine Proc.Keeps.bind (F.keeps_markCompleted hops) fun completed => ?_
  exact Proc.Keeps.bind F.keeps_audit fun _ => trivial

theorem keeps_handleReleaseFunds (hcredit : ∀ e, ops (.createBucketLedgerEntry e))
    {payload : Option RulePayload} {entry : TriggerEntry} :
    (handleReleaseFunds x payload account entry).Keeps allowed R := by
  unfold handleReleaseFunds
  dsimp only
  split
  next => exact F.keeps_markExecutionFailed hops
  next =>
    refine Proc.Keeps.bind F.keeps_find fun destinationBucket => ?_
    cases destinationBucket with
    | none => exact F.keeps_markExecutionFailed hops
    | some bucket =>
      dsimp only
      split
      next => exact F.keeps_markExecutionFailed hops
      next =>
        split
        next => exact F.keeps_markExecutionFailed hops
        next => trivial
        next =>
          split
          next => exact F.keeps_markCompleted hops
          next => exact Proc.Keeps.catching (F.keeps_allocate hops hcredit) fun _ =>
              F.keeps_markRetrying hops

theorem keeps_handleStatusChange {target : AccountStatus} {allowedFrom : List AccountStatus}
    {auditAction : AuditAction} :
    (handleStatusChange x account target allowedFrom auditAction).Keeps allowed R := by
  refine Proc.Keeps.bind F.keeps_find fun current => ?_
  cases current with
  | none => exact F.keeps_markCompleted hops
  | some status =>
    dsimp only
    split
    next =>
      refine Proc.Keeps.bind (F.keeps_statement fun _ => hops _ trivial) fun _ => ?_
      exact Proc.Keeps.bind F.keeps_audit fun _ => F.keeps_markCompleted hops
    next => exact F.keeps_markCompleted hops

theorem keeps_handleNotifyWebhook {payload : Option RulePayload} :
    (handleNotifyWebhook x payload account).Keeps allowed R := by
  unfold handleNotifyWebhook
  dsimp only
  split
  next => exact F.keeps_markExecutionFailed hops
  next =>
    refine Proc.Keeps.bind F.keeps_deliver fun result => ?_
    cases result with
    | ok status =>
      refine Proc.Keeps.bind (F.keeps_markCompleted hops) fun completed => ?_
      exact Proc.Keeps.bind F.keeps_audit fun _ => trivial
    | error e => exact F.keeps_markRetrying hops

omit hops in
/-- Only an inflow can be flagged. -/
theorem keeps_flagLedgerEntry {ledgerEntryId : Option String}
    (hflag : ledgerEntryId = none ∨ ∀ o : WriteOp, o.Reconciling → ops o) :
    (flagLedgerEntry ledgerEntryId).Keeps allowed R := by
  cases ledgerEntryId with
  | none => trivial
  | some id =>
    rcases hflag with hnone | hflag
    · cases hnone
    · exact F.keeps_statement fun _ => hflag _ trivial

theorem keeps_handleFlagForReview {ledgerEntryId : Option String}
    (hflag : ledgerEntryId = none ∨ ∀ o : WriteOp, o.Reconciling → ops o) :
    (handleFlagForReview x account ledgerEntryId).Keeps allowed R := by
  refine Proc.Keeps.bind (F.keeps_flagLedgerEntry hflag) fun _ => ?_
  exact Proc.Keeps.bind F.keeps_audit fun _ => F.keeps_markCompleted hops

theorem keeps_act {rule : EvaluatedRule} (hcredit : ∀ e, ops (.createBucketLedgerEntry e))
    {entry : TriggerEntry}
    (hflag : entry.realLedgerEntryId = none ∨ ∀ o : WriteOp, o.Reconciling → ops o) :
    (act x rule entry).Keeps allowed R := by
  unfold act
  split
  next => exact F.keeps_handleReleaseFunds hops hcredit
  next => exact F.keeps_handleStatusChange hops
  next => exact F.keeps_handleStatusChange hops
  next => exact F.keeps_handleStatusChange hops
  next => exact F.keeps_handleFlagForReview hops hflag
  next => exact F.keeps_handleNotifyWebhook hops

end Actions

/-- **The execution of a rule.** -/
theorem keeps_execute (hops : ∀ o : WriteOp, o.Executing → ops o) {rule : EvaluatedRule}
    {entry : TriggerEntry}
    (hflag : entry.realLedgerEntryId = none ∨ ∀ o : WriteOp, o.Reconciling → ops o) :
    (execute rule entry).Keeps allowed R := by
  refine Proc.Keeps.bind (F.keeps_transaction logsOnly_nothing ?_) fun x => ?_
  · intro env w a db w' hrun hw'
    obtain ⟨hop, -⟩ := createRuleExecution_run_eq_ok hrun
    exact F.writes (hops (.createRuleExecution _) trivial) hop hw'
  · exact F.keeps_act (fun o ho => hops o ho.executing) (fun _ => hops _ trivial) hflag

end Execute

/-! ### Processing a job -/

section Process

open WebhookProcessor

variable {payload : InflowPayload} {account : Account}

theorem keeps_executeAll (hops : ∀ o : WriteOp, o.Executing → ops o) {entry : TriggerEntry}
    (hflag : entry.realLedgerEntryId = none ∨ ∀ o : WriteOp, o.Reconciling → ops o)
    {after : ExecutionResult → Action Unit} (hafter : ∀ r, (after r).Keeps allowed R)
    (rules : List EvaluatedRule) : (executeAll after entry rules).Keeps allowed R := by
  induction rules with
  | nil => trivial
  | cons rule rules ih =>
    refine Proc.Keeps.bind (F.keeps_execute hops hflag) fun r => ?_
    exact Proc.Keeps.bind (hafter r) fun _ => ih

theorem keeps_evaluate {accountId : String} {model : ExecutionModel} {event : RuleEvent} :
    (evaluate accountId model event).Keeps allowed R :=
  Proc.Keeps.bind F.keeps_find fun _ => trivial

theorem keeps_createProcessedEvent (hops : ∀ o : WriteOp, o.Claiming → ops o)
    {eventType : String} : (createProcessedEvent payload eventType account).Keeps allowed R :=
  F.keeps_statement fun _ => hops _ trivial

theorem keeps_claim (hops : ∀ o : WriteOp, o.Claiming → ops o) :
    (claim payload account).Keeps allowed R := by
  refine Proc.Keeps.catching ?_ fun err => ?_
  · exact Proc.Keeps.bind (F.keeps_createProcessedEvent hops) fun _ => trivial
  · split
    · exact Proc.Keeps.bind F.keeps_audit fun _ => trivial
    · trivial

omit F in
theorem realLedgerEntryId_pseudoLedgerEntry :
    (pseudoLedgerEntry payload).realLedgerEntryId = none := by
  have : "custom_".toList <+: ("custom_" ++ payload.eventId).toList := by
    rw [String.toList_append]
    exact List.prefix_append _ _
  exact if_pos this

/-- **A custom event** never touches the ledger. -/
theorem keeps_processCustomEvent (hops : ∀ o : WriteOp, o.Executing → ops o)
    (hclaim : ∀ o : WriteOp, o.Claiming → ops o) :
    (processCustomEvent payload account).Keeps allowed R := by
  refine Proc.Keeps.bind (F.keeps_claim hclaim) fun claimed => ?_
  cases claimed with
  | false => trivial
  | true =>
    refine Proc.Keeps.bind F.keeps_evaluate fun rules => ?_
    refine Proc.Keeps.bind ?_ fun _ => F.keeps_audit
    unfold executeForEvent
    split
    next => trivial
    next =>
      refine Proc.Keeps.bind F.keeps_find fun business => ?_
      cases business with
      | none => trivial
      | some b =>
        exact F.keeps_executeAll hops (.inl realLedgerEntryId_pseudoLedgerEntry)
          (fun r => show (Proc.ret () : Action Unit).Keeps allowed R from trivial) rules

theorem keeps_reconcile (hreconcile : ∀ o : WriteOp, o.Reconciling → ops o)
    {status : ReconciliationStatus} {matchedRules : List (String × Json)} :
    (WebhookProcessor.reconcile payload account status matchedRules).Keeps allowed R :=
  Proc.Keeps.bind (F.keeps_statement fun _ => hreconcile (.updateReconciliationByRef ..) trivial)
    fun _ => F.keeps_audit

theorem keeps_enqueueIfRetrying (henqueue : EnqueuesRetries R) {result : ExecutionResult} :
    (enqueueIfRetrying result).Keeps allowed R := by
  unfold enqueueIfRetrying
  split
  next => exact F.keeps_enqueueRetry fun w => henqueue w _
  next => trivial

/-- The rules and the reconciliation of an inflow that has been written. -/
theorem keeps_settleInflow (hops : ∀ o : WriteOp, o.Executing → ops o)
    (hreconcile : ∀ o : WriteOp, o.Reconciling → ops o) (henqueue : EnqueuesRetries R)
    {rules : List EvaluatedRule} : (settleInflow payload account rules).Keeps allowed R := by
  unfold settleInflow
  split
  next => exact F.keeps_reconcile hreconcile
  next =>
    refine Proc.Keeps.bind ?_ fun _ => F.keeps_reconcile hreconcile
    refine Proc.Keeps.bind F.keeps_find fun business => ?_
    cases business with
    | none => trivial
    | some b =>
      refine Proc.Keeps.bind F.keeps_find fun record => ?_
      cases record with
      | none => trivial
      | some e =>
        exact F.keeps_executeAll hops (.inr hreconcile)
          (fun _ => F.keeps_enqueueIfRetrying henqueue) rules

/-- **A delivery** keeps what each of its statements keeps. -/
theorem keeps_process (hops : ∀ o : WriteOp, o.Delivering → ops o) (henqueue : EnqueuesRetries R) :
    (process payload).Keeps allowed R := by
  have hclaim : ∀ o : WriteOp, o.Claiming → ops o := fun o ho => hops o ho.delivering
  have hexecute : ∀ o : WriteOp, o.Executing → ops o := fun o ho => hops o ho.delivering
  have hunseen : (processUnseen payload).Keeps allowed R := by
    refine Proc.Keeps.bind F.keeps_find fun found => ?_
    cases found with
    | none => exact F.keeps_audit
    | some found =>
      dsimp only
      split
      next => exact F.keeps_processCustomEvent hexecute hclaim
      next =>
        have hwrite : ∀ status, (writeInflow (inflowDto payload found) status).Keeps allowed R :=
          fun status => F.keeps_writeInflow (fun _ => hops _ trivial) _ status
        cases found.account.status with
        | suspended => exact Proc.Keeps.bind (hwrite _) fun _ => F.keeps_audit
        | closed => exact F.keeps_audit
        | expired => exact F.keeps_audit
        | active =>
          refine Proc.Keeps.bind (hwrite _) fun total => ?_
          refine Proc.Keeps.bind keeps_bigIntOrThrow fun amountKobo => ?_
          refine Proc.Keeps.bind F.keeps_evaluate fun rules => ?_
          exact Proc.Keeps.bind
            (F.keeps_settleInflow hexecute (fun o ho => hops o ho.delivering) henqueue)
            fun _ => F.keeps_createProcessedEvent hclaim
  refine Proc.Keeps.catching ?_ fun e => ?_
  · refine Proc.Keeps.bind F.keeps_find fun seen => ?_
    cases seen with
    | none => exact hunseen
    | some _ => exact F.keeps_audit
  · split
    · exact F.keeps_audit
    · trivial

end Process

/-! ### Processing a retry -/

section Retry

open RetryProcessor

variable {found : FoundExecution}

theorem keeps_attemptRelease (hcredit : ∀ e, ops (.createBucketLedgerEntry e)) {attempt : Nat} :
    (attemptRelease found attempt).Keeps allowed R :=
  attemptRelease_keeps (fun _ _ => F.keeps_find) fun p => F.keeps_credit hcredit p

theorem keeps_attemptNotify : (attemptNotify found).Keeps allowed R :=
  attemptNotify_keeps fun _ => F.keeps_deliver

theorem keeps_settleOutcome (hops : ∀ o : WriteOp, o.Recording → ops o) {job : RetryDelivery}
    {outcome : AttemptOutcome} : (settleOutcome job found outcome).Keeps allowed R := by
  have hrecord : ∀ {data : Nat → RuleExecutionData},
      (updateRuleExecution job.ruleExecutionId data).Keeps allowed R :=
    F.keeps_updateRuleExecution hops
  unfold settleOutcome
  dsimp only
  split
  next => exact Proc.Keeps.bind hrecord fun _ => F.keeps_audit
  next =>
    split
    next => exact Proc.Keeps.bind hrecord fun _ => F.keeps_audit
    next => exact Proc.Keeps.bind hrecord fun _ => trivial

/-- **A retry** allocates, and records what becomes of the execution. -/
theorem keeps_retry (hcredit : ∀ e, ops (.createBucketLedgerEntry e))
    (hops : ∀ o : WriteOp, o.Recording → ops o) {job : RetryDelivery} :
    (RetryProcessor.process job).Keeps allowed R := by
  refine Proc.Keeps.bind F.keeps_find fun execution => ?_
  cases execution with
  | none => trivial
  | some found =>
    dsimp only
    split
    next => trivial
    next =>
      split
      next =>
        exact Proc.Keeps.bind (F.keeps_attemptRelease hcredit) fun _ => F.keeps_settleOutcome hops
      next => exact Proc.Keeps.bind F.keeps_attemptNotify fun _ => F.keeps_settleOutcome hops
      next => exact F.keeps_updateRuleExecution hops

end Retry

end Footprint

end AccountOS
