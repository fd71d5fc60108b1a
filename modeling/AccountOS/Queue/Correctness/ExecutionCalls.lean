import AccountOS.Accounts.AccountLifecycle
import AccountOS.Queue.Correctness.Footprint
import AccountOS.Queue.RetryProcessor
import AccountOS.Sql.Column
import AccountOS.Store.Trace

/-!
# The calls that write executions

Three parties write the `RuleExecution` rows. `execute` creates a row and records an outcome in it;
the retry worker reads a row and records an outcome in it; the closing of an account archives the
rows of that account that are not finished. For each call of each of them: what it does to the rows,
and what its thread has done before.
-/

namespace AccountOS

open Conc Sql

/-! ### What a call does to the executions -/

/-- The statuses that no work is to be done for. -/
def RuleExecutionStatus.finished : RuleExecutionStatus → Bool
  | completed | failed | archived => true
  | pending | retrying => false

namespace Db

def executionStatus (db : Db) (id : String) : Option RuleExecutionStatus :=
  columnOf RuleExecution.id RuleExecution.status id db.ruleExecutions

theorem executionStatus_of_findRuleExecution {db : Db} {id : String} {found : FoundExecution}
    (h : db.findRuleExecution id = some found) :
    db.executionStatus id = some found.execution.status := by
  unfold findRuleExecution at h
  simp only [Option.bind_eq_bind, Option.bind_eq_some_iff] at h
  obtain ⟨execution, hx, rule, -, account, -, hfound⟩ := h
  rw [executionStatus, columnOf, hx]
  cases hfound
  rfl

end Db

/-- The executions stay as they are. -/
def LeftExecutions (w w' : World) : Prop := w'.db.ruleExecutions = w.db.ruleExecutions

theorem LeftExecutions.of_sameData {w w' : World} (h : World.SameData w w') :
    LeftExecutions w w' := by
  rw [LeftExecutions, h.db]

/-- The statements on other tables. -/
theorem footprint_leftExecutions :
    Footprint (fun o => o.table ≠ .ruleExecutions) LeftExecutions where
  sameData h := .of_sameData h
  writes := by
    rintro o w w' db ho hop rfl
    exact (WriteOp.sameExcept hop).ruleExecutions ho

theorem reconciling_table (o : WriteOp) (h : o.Reconciling) : o.table ≠ .ruleExecutions := by
  cases o <;> simp_all [WriteOp.Reconciling, WriteOp.table]

theorem claiming_table (o : WriteOp) (h : o.Claiming) : o.table ≠ .ruleExecutions := by
  cases o <;> simp_all [WriteOp.Claiming, WriteOp.table]

/-- The archiving of an execution, when it is one of the account that is not finished. -/
def RuleExecution.archivedWith (accountId : String) (x : RuleExecution) : RuleExecution :=
  if x.accountId = accountId ∧ (x.status = .pending ∨ x.status = .retrying) then
    { x with status := .archived, archivedReason := some .closedBeforeCompletion }
  else x

section Events

variable {ι : Type} (ev : Event ι World Env Call)

/-- The call creates the execution `x`. -/
structure CreatesExecution (x : RuleExecution) : Prop where
  pending : x.status = .pending
  new : ∀ y ∈ ev.before.db.ruleExecutions, y.id ≠ x.id
  stored : ev.after.db.ruleExecutions = ev.before.db.ruleExecutions ++ [x]

/-- The call records an outcome in an execution: it is COMPLETED, FAILED or RETRYING. -/
structure RecordsOutcome (id : String) (status : RuleExecutionStatus) : Prop where
  call : ev.call = .updateRuleExecution id
  outcome : status = .completed ∨ status = .failed ∨ status = .retrying
  row : ∃ x ∈ ev.before.db.ruleExecutions, x.id = id
  stored : ∃ data : RuleExecutionData, data.status = status ∧ ev.after.db.ruleExecutions =
    updateRow RuleExecution.id id data.set ev.before.db.ruleExecutions

/-- The call archives the unfinished executions of an account. -/
structure ArchivesExecutions (accountId : String) : Prop where
  call : ev.call = .archiveExecutions accountId
  stored : ev.after.db.ruleExecutions =
    ev.before.db.ruleExecutions.map (RuleExecution.archivedWith accountId)

/-- The call takes up the work on an execution: it creates the execution, or it finds that it is not
finished. -/
def TakesUp (id : String) : Prop :=
  (∃ x, CreatesExecution ev x ∧ x.id = id) ∨
    ∃ found, ev.call = .findRuleExecution id ∧ ev.before.db.findRuleExecution id = some found ∧
      found.execution.status.finished = false ∧ LeftExecutions ev.before ev.after

end Events

section Statuses

variable {ι : Type} {ev : Event ι World Env Call} {id : String} {status : RuleExecutionStatus}

theorem LeftExecutions.executionStatus {w w' : World} (h : LeftExecutions w w') :
    w'.db.executionStatus id = w.db.executionStatus id := by
  rw [Db.executionStatus, Db.executionStatus, h]

/-- A new execution does not change the status of another one. -/
theorem CreatesExecution.executionStatus {x : RuleExecution} (h : CreatesExecution ev x)
    (hstatus : ev.before.db.executionStatus id = some status) :
    ev.after.db.executionStatus id = some status := by
  rw [Db.executionStatus, h.stored]
  exact columnOf_append_of_some hstatus

theorem RecordsOutcome.executionStatus (h : RecordsOutcome ev id status) :
    ev.after.db.executionStatus id = some status := by
  obtain ⟨data, hdata, hstored⟩ := h.stored
  have hid : ∀ x : RuleExecution, (data.set x).id = x.id := fun _ => rfl
  have hset : ∀ x : RuleExecution, (data.set x).status = status := fun _ => hdata
  rw [Db.executionStatus, hstored, columnOf_updateRow_self hid]
  simp only [hset]
  exact columnOf_const h.row

theorem RecordsOutcome.executionStatus_of_ne (h : RecordsOutcome ev id status) {id' : String}
    (hne : id' ≠ id) : ev.after.db.executionStatus id' = ev.before.db.executionStatus id' := by
  obtain ⟨data, -, hstored⟩ := h.stored
  rw [Db.executionStatus, hstored]
  exact columnOf_updateRow_of_ne (fun _ => rfl) hne

/-- The archiving leaves alone what is finished. -/
theorem ArchivesExecutions.executionStatus {accountId : String}
    (h : ArchivesExecutions ev accountId)
    (hstatus : ev.before.db.executionStatus id = some status) (hfinished : status.finished = true) :
    ev.after.db.executionStatus id = some status := by
  have hid : ∀ x : RuleExecution, (x.archivedWith accountId).id = x.id := by
    intro x
    unfold RuleExecution.archivedWith
    split <;> rfl
  obtain ⟨x, -, -, hx, hcolumn⟩ := exists_columnOf_map hid hstatus
  have hsame : (x.archivedWith accountId).status = status := by
    unfold RuleExecution.archivedWith
    rw [if_neg ?_]
    · exact hx
    · rintro ⟨-, h | h⟩ <;> rw [← hx, h] at hfinished <;> cases hfinished
  rw [Db.executionStatus, h.stored, ← hsame]
  exact hcolumn

/-- Before its work is taken up, an execution is not finished. -/
theorem TakesUp.before_ne (h : TakesUp ev id) (hfinished : status.finished = true) :
    ev.before.db.executionStatus id ≠ some status := by
  intro hstatus
  rcases h with ⟨x, hcreates, rfl⟩ | ⟨found, -, hfound, hunfinished, -⟩
  · obtain ⟨y, hy, hid, -⟩ := exists_of_columnOf hstatus
    exact hcreates.new y hy hid
  · rw [Db.executionStatus_of_findRuleExecution hfound] at hstatus
    cases hstatus
    rw [hunfinished] at hfinished
    cases hfinished

/-- Nor is it afterwards. -/
theorem TakesUp.after_ne (h : TakesUp ev id) (hfinished : status.finished = true) :
    ev.after.db.executionStatus id ≠ some status := by
  rcases h with ⟨x, hcreates, rfl⟩ | ⟨found, hcall, hfound, hunfinished, hsame⟩
  · intro hstatus
    obtain ⟨y, hy, hid, hy'⟩ := exists_of_columnOf hstatus
    rw [hcreates.stored] at hy
    rcases List.mem_append.1 hy with hy | hy
    · exact hcreates.new y hy hid
    · rw [List.mem_singleton.1 hy, hcreates.pending] at hy'
      cases hy'
      cases hfinished
  · rw [hsame.executionStatus]
    exact TakesUp.before_ne (.inr ⟨found, hcall, hfound, hunfinished, hsame⟩) hfinished

end Statuses

/-- A thread is at work on an execution: it has taken it up, and it has not touched the executions
since then. -/
def WorksOn {ι : Type} (id : String) (past : Calls ι) : Prop :=
  ∃ earlier r later, past = earlier ++ r :: later ∧ TakesUp r id ∧
    ∀ x ∈ later, LeftExecutions x.before x.after

/-- What a call may do to the executions, after the calls that its thread has made. `closes` says
whether the thread closes an account. -/
inductive ExecutionCall {ι : Type} (closes : Prop) (past : Calls ι) (ev : Event ι World Env Call) :
    Prop
  | same (h : LeftExecutions ev.before ev.after)
  | create {x : RuleExecution} (h : CreatesExecution ev x)
  | record {id : String} {status : RuleExecutionStatus} (h : RecordsOutcome ev id status)
      (works : WorksOn id past)
  | archive {accountId : String} (h : ArchivesExecutions ev accountId) (closing : closes)
      (once : ∀ x ∈ past, ∀ id, ¬ ArchivesExecutions x id)

section Traced

variable {ι α β : Type} {i : ι} {closes : Prop} {past : Calls ι} {id : String}
  {Q : α → Calls ι → Prop}

theorem ExecutionCall.of_sameData {ev : Event ι World Env Call}
    (h : World.SameData ev.before ev.after) : ExecutionCall closes past ev :=
  .same (.of_sameData h)

/-- A thread that has just taken up an execution. -/
theorem WorksOn.of_takesUp {r : Event ι World Env Call} (h : TakesUp r id) :
    WorksOn id (past ++ [r]) :=
  ⟨past, r, [], rfl, h, fun _ hx => absurd hx List.not_mem_nil⟩

theorem WorksOn.append {later : Calls ι} (h : WorksOn id past)
    (hlater : ∀ x ∈ later, LeftExecutions x.before x.after) : WorksOn id (past ++ later) := by
  obtain ⟨earlier, r, later', rfl, htakes, hlater'⟩ := h
  refine ⟨earlier, r, later' ++ later, by simp, htakes, fun x hx => ?_⟩
  rcases List.mem_append.1 hx with hx | hx
  · exact hlater' x hx
  · exact hlater x hx

/-! ### Methods that write no execution -/

theorem traced_leftExecutions {p : Action α}
    (hp : p.Keeps (fun _ _ _ _ => True) LeftExecutions) :
    p.Traced i (ExecutionCall closes) (fun _ _ => True) (fun _ _ => True) past :=
  (hp.traced fun _ _ _ _ h => .same h).mono (fun _ _ _ => trivial) fun _ _ _ => trivial

/-- They leave a thread at its work. -/
theorem WorksOn.traced {p : Action α} (h : WorksOn id past)
    (hp : p.Keeps (fun _ _ _ _ => True) LeftExecutions) :
    p.Traced i (ExecutionCall closes) (fun _ past' => WorksOn id past')
      (fun _ past' => WorksOn id past') past := by
  refine (hp.traced fun _ _ _ _ h => .same h).mono ?_ ?_
  · rintro _ _ ⟨later, rfl, hlater⟩
    exact h.append hlater
  · rintro _ _ ⟨later, rfl, hlater⟩
    exact h.append hlater

/-- A thread at its work goes on. -/
theorem WorksOn.traced_bind {p : Action β} {k : β → Action α} {E : Error → Calls ι → Prop}
    (h : WorksOn id past) (hp : p.Keeps (fun _ _ _ _ => True) LeftExecutions)
    (hE : ∀ e past', WorksOn id past' → E e past')
    (hk : ∀ b past', WorksOn id past' → (k b).Traced i (ExecutionCall closes) Q E past') :
    (p.bind k).Traced i (ExecutionCall closes) Q E past :=
  Proc.Traced.bind ((h.traced hp).mono hk hE)

/-- One method after the other, whatever the thread has done before. -/
theorem traced_then {p : Action β} {k : β → Action α}
    (hp : p.Traced i (ExecutionCall closes) (fun _ _ => True) (fun _ _ => True) past)
    (hk : ∀ b past', (k b).Traced i (ExecutionCall closes) (fun _ _ => True) (fun _ _ => True)
      past') :
    (p.bind k).Traced i (ExecutionCall closes) (fun _ _ => True) (fun _ _ => True) past :=
  Proc.Traced.bind (hp.mono (fun b past' _ => hk b past') fun _ _ h => h)

theorem traced_bind_leftExecutions {p : Action β} {k : β → Action α}
    (hp : p.Keeps (fun _ _ _ _ => True) LeftExecutions)
    (hk : ∀ b past', (k b).Traced i (ExecutionCall closes) (fun _ _ => True) (fun _ _ => True)
      past') :
    (p.bind k).Traced i (ExecutionCall closes) (fun _ _ => True) (fun _ _ => True) past :=
  traced_then (traced_leftExecutions hp) hk

/-! ### Recording an outcome -/

/-- When the update fails, the thread is where it was. -/
theorem WorksOn.traced_updateRuleExecution {data : Nat → RuleExecutionData}
    {status : RuleExecutionStatus} (h : WorksOn id past) (hdata : ∀ now, (data now).status = status)
    (houtcome : status = .completed ∨ status = .failed ∨ status = .retrying) :
    (updateRuleExecution id data).Traced i (ExecutionCall closes) (fun _ _ => True)
      (fun _ past' => WorksOn id past') past := by
  refine traced_statement ?_ fun env w e w' hsame => ⟨.of_sameData hsame, h.append fun x hx => ?_⟩
  · intro env w db w' hop hw'
    subst hw'
    obtain ⟨hrow, hdb⟩ := Db.updateRuleExecution_eq_ok.1 hop
    refine ⟨.record ⟨rfl, houtcome, hrow, data env.now, hdata env.now, ?_⟩ h, trivial⟩
    show db.ruleExecutions = _
    rw [hdb]
  · rw [List.mem_singleton.1 hx]
    exact .of_sameData hsame

/-- The same, where nothing is done about a failure. -/
theorem WorksOn.traced_record {data : Nat → RuleExecutionData} {status : RuleExecutionStatus}
    (h : WorksOn id past) (hdata : ∀ now, (data now).status = status)
    (houtcome : status = .completed ∨ status = .failed ∨ status = .retrying) :
    (updateRuleExecution id data).Traced i (ExecutionCall closes) (fun _ _ => True)
      (fun _ _ => True) past :=
  (h.traced_updateRuleExecution hdata houtcome).mono (fun _ _ h => h) fun _ _ _ => trivial

theorem WorksOn.traced_record_bind {data : Nat → RuleExecutionData} {status : RuleExecutionStatus}
    {k : Unit → Action α} (h : WorksOn id past) (hdata : ∀ now, (data now).status = status)
    (houtcome : status = .completed ∨ status = .failed ∨ status = .retrying)
    (hk : ∀ past', (k ()).Traced i (ExecutionCall closes) (fun _ _ => True) (fun _ _ => True)
      past') :
    ((updateRuleExecution id data).bind k).Traced i (ExecutionCall closes) (fun _ _ => True)
      (fun _ _ => True) past :=
  traced_then (h.traced_record hdata houtcome) fun _ => hk

theorem WorksOn.traced_markCompleted {response : Option (List (String × Json))}
    (h : WorksOn id past) : (markCompleted id response).Traced i (ExecutionCall closes)
      (fun _ _ => True) (fun _ past' => WorksOn id past') past :=
  Proc.Traced.bind (h.traced_updateRuleExecution (fun _ => rfl) (.inl rfl))

theorem WorksOn.traced_markExecutionFailed {message : String} (h : WorksOn id past) :
    (markExecutionFailed id message).Traced i (ExecutionCall closes) (fun _ _ => True)
      (fun _ _ => True) past :=
  Proc.Traced.bind (h.traced_record (fun _ => rfl) (.inr (.inl rfl)))

theorem WorksOn.traced_markRetrying {message : String} (h : WorksOn id past) :
    (markRetrying id message).Traced i (ExecutionCall closes) (fun _ _ => True) (fun _ _ => True)
      past :=
  Proc.Traced.bind (h.traced_record (fun _ => rfl) (.inr (.inr rfl)))

theorem WorksOn.traced_complete {response : Option (List (String × Json))} (h : WorksOn id past) :
    (markCompleted id response).Traced i (ExecutionCall closes) (fun _ _ => True) (fun _ _ => True)
      past :=
  Proc.Traced.bind (h.traced_record (fun _ => rfl) (.inl rfl))

/-! ### Executing a rule -/

section Execute

variable {account : RuleAccount}

theorem WorksOn.traced_allocate {ref bucketId : String} {entry : TriggerEntry} {amount : Int}
    (h : WorksOn id past) :
    (allocate id ref bucketId account entry amount).Traced i (ExecutionCall closes)
      (fun _ _ => True) (fun _ past' => WorksOn id past') past := by
  refine h.traced_bind (footprint_leftExecutions.keeps_credit (fun _ => nofun) _) (fun _ _ h => h)
    fun cumulative past' h => ?_
  refine Proc.Traced.bind (h.traced_markCompleted.mono (fun completed past'' _ => ?_)
    fun _ _ h => h)
  exact Proc.Traced.bind (traced_audit fun _ _ _ hsame => ⟨.of_sameData hsame, trivial⟩)

theorem WorksOn.traced_handleReleaseFunds {payload : Option RulePayload} {entry : TriggerEntry}
    (h : WorksOn id past) :
    (handleReleaseFunds id payload account entry).Traced i (ExecutionCall closes) (fun _ _ => True)
      (fun _ _ => True) past := by
  unfold handleReleaseFunds
  dsimp only
  split
  next => exact h.traced_markExecutionFailed
  next =>
    refine h.traced_bind footprint_leftExecutions.keeps_find (fun _ _ _ => trivial)
      fun destinationBucket past' h => ?_
    cases destinationBucket with
    | none => exact h.traced_markExecutionFailed
    | some bucket =>
      dsimp only
      split
      next => exact h.traced_markExecutionFailed
      next =>
        split
        next => exact h.traced_markExecutionFailed
        next => trivial
        next =>
          split
          next => exact h.traced_complete
          next =>
            exact Proc.Traced.catching (h.traced_allocate.mono (fun _ _ h => h)
              fun _ _ h => h.traced_markRetrying)

theorem WorksOn.traced_handleStatusChange {target : AccountStatus}
    {allowedFrom : List AccountStatus} {auditAction : AuditAction} (h : WorksOn id past) :
    (handleStatusChange id account target allowedFrom auditAction).Traced i (ExecutionCall closes)
      (fun _ _ => True) (fun _ _ => True) past := by
  refine h.traced_bind footprint_leftExecutions.keeps_find (fun _ _ _ => trivial)
    fun current past' h => ?_
  cases current with
  | none => exact h.traced_complete
  | some status =>
    dsimp only
    split
    next =>
      refine h.traced_bind (footprint_leftExecutions.keeps_statement fun _ => nofun)
        (fun _ _ _ => trivial) fun _ past'' h => ?_
      exact h.traced_bind footprint_leftExecutions.keeps_audit (fun _ _ _ => trivial)
        fun _ _ h => h.traced_complete
    next => exact h.traced_complete

theorem WorksOn.traced_handleFlagForReview {ledgerEntryId : Option String} (h : WorksOn id past) :
    (handleFlagForReview id account ledgerEntryId).Traced i (ExecutionCall closes)
      (fun _ _ => True) (fun _ _ => True) past := by
  refine h.traced_bind (footprint_leftExecutions.keeps_flagLedgerEntry (.inr reconciling_table))
    (fun _ _ _ => trivial) fun _ past' h => ?_
  exact h.traced_bind footprint_leftExecutions.keeps_audit (fun _ _ _ => trivial)
    fun _ _ h => h.traced_complete

theorem WorksOn.traced_handleNotifyWebhook {payload : Option RulePayload} (h : WorksOn id past) :
    (handleNotifyWebhook id payload account).Traced i (ExecutionCall closes) (fun _ _ => True)
      (fun _ _ => True) past := by
  unfold handleNotifyWebhook
  dsimp only
  split
  next => exact h.traced_markExecutionFailed
  next =>
    refine h.traced_bind footprint_leftExecutions.keeps_deliver (fun _ _ _ => trivial)
      fun result past' h => ?_
    cases result with
    | ok status =>
      refine traced_then h.traced_complete fun completed past'' => ?_
      exact Proc.Traced.bind (traced_audit fun _ _ _ hsame => ⟨.of_sameData hsame, trivial⟩)
    | error e => exact h.traced_markRetrying

/-- **The execution of a rule**: it creates one execution, and records one outcome in it. -/
theorem traced_execute {rule : EvaluatedRule} {entry : TriggerEntry} :
    (execute rule entry).Traced i (ExecutionCall closes) (fun _ _ => True) (fun _ _ => True)
      past := by
  refine Proc.Traced.bind (traced_transaction logsOnly_nothing ?_
    fun _ _ _ _ hsame => ⟨.of_sameData hsame, trivial⟩)
  intro env w a db w' hrun hw'
  obtain ⟨hop, rfl⟩ := createRuleExecution_run_eq_ok hrun
  obtain ⟨hnew, -, -, -, hdb⟩ := Db.createRuleExecution_eq_ok.1 hop
  subst hw'
  have hcreates : CreatesExecution (⟨i, .createRuleExecution rule.id entry.nombaEventId, env, w,
      { w with db }⟩ : Event ι World Env Call) (pendingExecution env.row.id rule entry) := by
    refine ⟨rfl, hnew, ?_⟩
    show db.ruleExecutions = _
    rw [hdb]
  have h : WorksOn env.row.id (past ++ [(⟨i, .createRuleExecution rule.id entry.nombaEventId, env,
      w, { w with db }⟩ : Event ι World Env Call)]) :=
    .of_takesUp (.inl ⟨_, hcreates, rfl⟩)
  refine ⟨.create hcreates, ?_⟩
  unfold act
  split
  next => exact h.traced_handleReleaseFunds
  next => exact h.traced_handleStatusChange
  next => exact h.traced_handleStatusChange
  next => exact h.traced_handleStatusChange
  next => exact h.traced_handleFlagForReview
  next => exact h.traced_handleNotifyWebhook

end Execute

/-! ### A retry -/

section Retry

open RetryProcessor

theorem WorksOn.traced_settleOutcome {job : RetryDelivery} {found : FoundExecution}
    {outcome : AttemptOutcome} (h : WorksOn job.ruleExecutionId past) :
    (settleOutcome job found outcome).Traced i (ExecutionCall closes) (fun _ _ => True)
      (fun _ _ => True) past := by
  have haudit : ∀ (entry : AuditLogEntry) past', (audit entry).Traced i (ExecutionCall closes)
      (fun _ _ => True) (fun _ _ => True) past' :=
    fun entry past' => traced_leftExecutions footprint_leftExecutions.keeps_audit
  unfold settleOutcome
  dsimp only
  split
  next => exact h.traced_record_bind (fun _ => rfl) (.inl rfl) fun past' => haudit _ past'
  next =>
    split
    next => exact h.traced_record_bind (fun _ => rfl) (.inr (.inl rfl)) fun past' => haudit _ past'
    next => exact h.traced_record_bind (fun _ => rfl) (.inr (.inr rfl)) fun _ => trivial

/-- **A retry**: it reads the execution, and records one outcome in it unless it is finished. -/
theorem traced_retry {job : RetryDelivery} :
    (process job).Traced i (ExecutionCall closes) (fun _ _ => True) (fun _ _ => True) past := by
  refine Proc.Traced.bind (traced_find (fun env w => ⟨.of_sameData (.refl w), ?_⟩)
    fun _ _ _ _ hsame => ⟨.of_sameData hsame, trivial⟩)
  cases hfound : w.db.findRuleExecution job.ruleExecutionId with
  | none => trivial
  | some found =>
    dsimp only
    split
    next => trivial
    next hunfinished =>
      have htakes : TakesUp (⟨i, .findRuleExecution job.ruleExecutionId, env, w, w⟩ :
          Event ι World Env Call) job.ruleExecutionId := by
        refine .inr ⟨found, rfl, hfound, ?_, rfl⟩
        cases hstatus : found.execution.status <;> simp [hstatus, RuleExecutionStatus.finished] at *
      have h : WorksOn job.ruleExecutionId
          (past ++ [(⟨i, .findRuleExecution job.ruleExecutionId, env, w, w⟩ :
            Event ι World Env Call)]) := .of_takesUp htakes
      split
      next =>
        exact h.traced_bind (footprint_leftExecutions.keeps_attemptRelease fun _ => nofun)
          (fun _ _ _ => trivial) fun _ _ h => h.traced_settleOutcome
      next =>
        exact h.traced_bind footprint_leftExecutions.keeps_attemptNotify (fun _ _ _ => trivial)
          fun _ _ h => h.traced_settleOutcome
      next => exact h.traced_record (fun _ => rfl) (.inl rfl)

end Retry

/-! ### Closing an account -/

/-- Archiving the executions of an account, for the first time. -/
theorem traced_archiving {accountId : String} {k : Nat → Action α} (hcloses : closes)
    (hpast : ∀ x ∈ past, ∀ id, ¬ ArchivesExecutions x id)
    (hk : ∀ count x, ArchivesExecutions x accountId →
      (k count).Traced i (ExecutionCall closes) Q (fun _ _ => True) (past ++ [x])) :
    ((transaction (.archiveExecutions accountId) fun _ => archiveExecutionsTx accountId).bind
      k).Traced i (ExecutionCall closes) Q (fun _ _ => True) past := by
  refine Proc.Traced.bind (traced_transaction logsOnly_nothing ?_
    fun _ _ _ _ hsame => ⟨.of_sameData hsame, trivial⟩)
  intro env w count db w' hrun hw'
  have hop := archiveExecutionsTx_run_eq_ok hrun
  subst hw'
  have harchives : ArchivesExecutions (⟨i, .archiveExecutions accountId, env, w,
      { w with db }⟩ : Event ι World Env Call) accountId := by
    cases hop
    exact ⟨rfl, rfl⟩
  exact ⟨.archive harchives hcloses hpast, hk _ _ harchives⟩

/-- **The closing of an account** archives once. When it returns, it has archived the executions of
the account that it returns. -/
theorem traced_closing {accountRef businessId actor : String} (hcloses : closes) :
    (closeAccount accountRef businessId actor).Traced i (ExecutionCall closes)
      (fun updated past => ∀ a, updated = some a → ∃ x ∈ past, ArchivesExecutions x a.id)
      (fun _ _ => True) [] := by
  refine Proc.Traced.bind (traced_find (fun env w => ⟨.of_sameData (.refl w), ?_⟩)
    fun _ _ _ _ hsame => ⟨.of_sameData hsame, trivial⟩)
  cases w.db.findAccountByRef accountRef businessId with
  | none => trivial
  | some account =>
    have hfirst : ∀ x ∈ ([] ++ [⟨i, .findAccountByRef businessId accountRef, env, w, w⟩] : Calls ι),
        ∀ id, ¬ ArchivesExecutions x id := by
      intro x hx id harchives
      rw [List.nil_append, List.mem_singleton] at hx
      rw [hx] at harchives
      cases harchives.call
    have hclose : (close account businessId actor).Traced i (ExecutionCall closes)
        (fun updated past => ∀ a, updated = some a → ∃ x ∈ past, ArchivesExecutions x a.id)
        (fun _ _ => True) ([] ++ [⟨i, .findAccountByRef businessId accountRef, env, w, w⟩]) := by
      refine traced_archiving hcloses hfirst fun count x harchives => ?_
      refine Proc.Traced.bind (traced_expireDva fun _ w₁ =>
        ⟨.of_sameData (.refl w₁), ?_, fun _ => trivial⟩)
      refine Proc.Traced.bind (traced_transaction logsOnly_nothing ?_
        fun _ _ _ _ hsame => ⟨.of_sameData hsame, trivial⟩)
      intro env' w₂ updated db w₂' hrun hw₂'
      simp only [updateAccountTx, Tx.bind_eq, Tx.run_bind_eq_ok, Tx.run_exec_eq_ok, schema_apply,
        Tx.run_query] at hrun
      obtain ⟨-, db', hop, hquery⟩ := hrun
      cases hquery
      refine ⟨.same (footprint_leftExecutions.writes (by simp [WriteOp.table]) hop hw₂'), ?_⟩
      refine Proc.Traced.bind (traced_audit fun _ _ _ hsame => ⟨.of_sameData hsame, ?_⟩)
      intro a ha
      obtain ⟨-, hid⟩ := Db.findAccountById_eq_some ha
      rw [hid]
      exact ⟨x, by simp, harchives⟩
    dsimp only
    split
    next => trivial
    next => trivial
    next => exact hclose
    next => exact hclose

/-! ### The jobs of the webhook queue -/

section Jobs

open WebhookProcessor

variable {payload : InflowPayload} {account : Account}

theorem traced_executeAll {after : ExecutionResult → Action Unit} {entry : TriggerEntry}
    {rules : List EvaluatedRule}
    (hafter : ∀ r, (after r).Keeps (fun _ _ _ _ => True) LeftExecutions) :
    (executeAll after entry rules).Traced i (ExecutionCall closes) (fun _ _ => True)
      (fun _ _ => True) past := by
  induction rules generalizing past with
  | nil => trivial
  | cons rule rules ih =>
    refine traced_then traced_execute fun result past' => ?_
    exact traced_bind_leftExecutions (hafter result) fun _ _ => ih

theorem traced_processCustomEvent :
    (processCustomEvent payload account).Traced i (ExecutionCall closes) (fun _ _ => True)
      (fun _ _ => True) past := by
  have F := footprint_leftExecutions
  refine traced_bind_leftExecutions (F.keeps_claim claiming_table) fun claimed past' => ?_
  cases claimed with
  | false => trivial
  | true =>
    refine traced_bind_leftExecutions F.keeps_evaluate fun rules past' => ?_
    refine traced_then ?_ fun _ _ => traced_leftExecutions F.keeps_audit
    unfold executeForEvent
    split
    next => trivial
    next =>
      refine traced_bind_leftExecutions F.keeps_find fun business past' => ?_
      cases business with
      | none => trivial
      | some b => exact traced_executeAll fun _ => trivial

theorem traced_settleInflow {rules : List EvaluatedRule} :
    (settleInflow payload account rules).Traced i (ExecutionCall closes) (fun _ _ => True)
      (fun _ _ => True) past := by
  have F := footprint_leftExecutions
  unfold settleInflow
  split
  next => exact traced_leftExecutions (F.keeps_reconcile reconciling_table)
  next =>
    refine traced_then ?_ fun _ _ => traced_leftExecutions (F.keeps_reconcile reconciling_table)
    refine traced_bind_leftExecutions F.keeps_find fun business past' => ?_
    cases business with
    | none => trivial
    | some b =>
      refine traced_bind_leftExecutions F.keeps_find fun record past' => ?_
      cases record with
      | none => trivial
      | some e => exact traced_executeAll fun _ => F.keeps_enqueueIfRetrying fun _ _ => rfl

/-- **A job**, of an inflow or of a custom event. -/
theorem traced_job :
    (process payload).Traced i (ExecutionCall closes) (fun _ _ => True) (fun _ _ => True) past := by
  have F := footprint_leftExecutions
  have haudit : ∀ (entry : AuditLogEntry) past', (audit entry).Traced i (ExecutionCall closes)
      (fun _ _ => True) (fun _ _ => True) past' :=
    fun entry past' => traced_leftExecutions F.keeps_audit
  have hwriteInflow : ∀ dto status, (writeInflow dto status).Keeps (fun _ _ _ _ => True)
      LeftExecutions := F.keeps_writeInflow fun _ => nofun
  refine Proc.Traced.catching (Proc.Traced.mono (fun _ _ h => h) (fun err past' _ => ?_)
    (Q := fun _ _ => True) (E := fun _ _ => True) ?_)
  · split
    · exact haudit _ past'
    · trivial
  refine traced_bind_leftExecutions F.keeps_find fun existing past' => ?_
  cases existing with
  | some e => exact haudit _ past'
  | none =>
    refine traced_bind_leftExecutions F.keeps_find fun found past' => ?_
    cases found with
    | none => exact haudit _ past'
    | some found =>
      dsimp only
      split
      next => exact traced_processCustomEvent
      next =>
        split
        next => exact traced_bind_leftExecutions (hwriteInflow _ _) fun _ past' => haudit _ past'
        next => exact haudit _ past'
        next => exact haudit _ past'
        next =>
          refine traced_bind_leftExecutions (hwriteInflow _ _) fun total past' => ?_
          refine traced_bind_leftExecutions keeps_bigIntOrThrow fun amountKobo past' => ?_
          refine traced_bind_leftExecutions F.keeps_evaluate fun rules past' => ?_
          exact traced_then traced_settleInflow fun _ _ =>
            traced_leftExecutions (F.keeps_createProcessedEvent claiming_table)

end Jobs

end Traced

end AccountOS
