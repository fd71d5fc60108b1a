import AccountOS.Queue.RetryProcessor
import AccountOS.Queue.WebhookProcessor
import AccountOS.Treasury.Correctness.Steps

/-!
# Walking through the workers

A protocol about the queues has to follow the execution of a rule, the processing of a delivery and
a retry, call by call. This file does that once. What a thread has achieved is a ghost of the
protocol's own type; a structure below names the sets of ghosts at the points of the code that
matter, and lists what has to be shown of each call that takes effect there.
-/

namespace AccountOS

open Conc Sql

variable {ι γ : Type} [DecidableEq ι]

/-! ### Executing one rule -/

/-- A RELEASE_FUNDS rule that computes no positive amount. -/
def NothingToAllocate (rule : EvaluatedRule) (entry : TriggerEntry) : Prop :=
  ∃ amount ≤ 0, releaseAmount (rule.payload.getD {}) entry.amountKobo = some (.ok amount)

/-- The column `status` for an outcome. -/
def ExecutionOutcome.toStatus : ExecutionOutcome → RuleExecutionStatus
  | completed => .completed
  | failed => .failed
  | retrying => .retrying

/-- What a protocol has to show of thread `i` executing `rule` for `entry`. The thread starts in
`Start`; `Running x` says that the execution `x` has been recorded, `Credited x b n` that it has
credited `n` to bucket `b`, and `Done o` that its outcome is recorded. -/
structure ExecutionSteps (P : Protocol ι World Env Call γ) (i : ι) (rule : EvaluatedRule)
    (entry : TriggerEntry) where
  Start : γ → Prop
  Running : String → γ → Prop
  Credited : String → String → Int → γ → Prop
  Done : ExecutionOutcome → γ → Prop
  /-- What is remembered of the destination bucket once it has been found. -/
  Destination : TreasuryBucket → Prop
  quiet : Quiet P
  create : ∀ {l G hist w env db w'}, l = .createRuleExecution rule.id entry.nombaEventId →
    Start (G i) → P.inv G hist w → P.allowed l env w w' →
    w.db.createRuleExecution (pendingExecution env.row.id rule entry) = .ok db →
    w' = { w with db } →
    ∃ g, P.inv (Function.update G i g) (hist ++ [⟨i, l, env, w, w'⟩]) w' ∧ Running env.row.id g
  destination : ∀ {x ref bucket G hist w}, Running x (G i) → P.inv G hist w →
    (rule.payload.getD {}).destinationAccountRef = some ref →
    w.db.findBucket rule.account.businessId ref = some bucket → bucket.status = .active →
    Destination bucket
  credit : ∀ {x bucket amount l G hist w env a db w'},
    l = .credit bucket.id (allocationReference entry.nombaTransactionRef bucket.id) amount →
    rule.action = .releaseFunds → Destination bucket →
    releaseAmount (rule.payload.getD {}) entry.amountKobo = some (.ok amount) → 0 < amount →
    Running x (G i) → P.inv G hist w → P.allowed l env w w' →
    (creditTx (releaseCredit bucket.id rule.account entry amount) env.row).run schema w.db =
      .ok (a, db) →
    w' = { w with db } →
    ∃ g, P.inv (Function.update G i g) (hist ++ [⟨i, l, env, w, w'⟩]) w' ∧
      Credited x bucket.id amount g
  record : ∀ {x} {o : ExecutionOutcome} {data l G hist w env db w'}, l = .updateRuleExecution x →
    (Running x (G i) ∧
        (o = .completed → rule.action = .releaseFunds → NothingToAllocate rule entry) ∨
      ∃ b n, Credited x b n (G i)) →
    data.status = o.toStatus → P.inv G hist w → P.allowed l env w w' →
    w.db.updateRuleExecution x data = .ok db → w' = { w with db } →
    ∃ g, P.inv (Function.update G i g) (hist ++ [⟨i, l, env, w, w'⟩]) w' ∧ Done o g
  changeStatus : ∀ {x status l G hist w env db w'},
    l = .updateAccountStatus rule.account.id status → Running x (G i) → P.inv G hist w →
    P.allowed l env w w' → w.db.updateAccountStatus rule.account.id status = .ok db →
    w' = { w with db } → P.inv G (hist ++ [⟨i, l, env, w, w'⟩]) w'
  flag : ∀ {x id l G hist w env db w'}, l = .updateReconciliation .flagged →
    entry.realLedgerEntryId = some id → Running x (G i) → P.inv G hist w →
    P.allowed l env w w' → w.db.updateReconciliationById id .flagged = .ok db →
    w' = { w with db } → P.inv G (hist ++ [⟨i, l, env, w, w'⟩]) w'

namespace ExecutionSteps

variable {P : Protocol ι World Env Call γ} {i : ι} {rule : EvaluatedRule} {entry : TriggerEntry}
  (S : ExecutionSteps P i rule entry)
include S

/-- Where a thread may record the outcome `o` of the execution `x`. -/
def CanRecord (x : String) (o : ExecutionOutcome) (g : γ) : Prop :=
  S.Running x g ∧
      (o = .completed → rule.action = .releaseFunds → NothingToAllocate rule entry) ∨
    ∃ b n, S.Credited x b n g

variable {x : String} {o : ExecutionOutcome} {g : γ}

theorem canRecord_of_running (hg : S.Running x g) (ho : o ≠ .completed) : S.CanRecord x o g :=
  .inl ⟨hg, fun h => absurd h ho⟩

theorem canRecord_of_credited {b : String} {n : Int} (hg : S.Credited x b n g) :
    S.CanRecord x o g :=
  .inr ⟨b, n, hg⟩

/-- Recording an outcome; when the update fails, the thread is where it was. -/
theorem wp_updateRuleExecution {data : Nat → RuleExecutionData} (hg : S.CanRecord x o g)
    (hdata : ∀ now, (data now).status = o.toStatus) :
    (updateRuleExecution x data).Wp P i (fun _ g' => S.Done o g') (fun _ g' => g' = g) g := by
  refine wp_statement S.quiet ?_ fun _ _ _ _ _ _ _ _ _ _ _ => rfl
  intro G hist w env db w' hG hinv hallowed hf hdb hw'
  subst hG
  exact S.record rfl hg (hdata env.now) hinv hallowed hdb hw'

theorem wp_markCompleted {response : Option (List (String × Json))}
    (hg : S.CanRecord x .completed g) :
    (markCompleted x response).Wp P i (fun r g' => S.Done r.status g') (fun _ g' => g' = g) g :=
  Proc.Wp.bind (S.wp_updateRuleExecution hg fun _ => rfl)

theorem wp_markExecutionFailed {message : String} (hg : S.CanRecord x .failed g) :
    (markExecutionFailed x message).Wp P i (fun r g' => S.Done r.status g') (fun _ _ => True) g :=
  Proc.Wp.bind ((S.wp_updateRuleExecution hg fun _ => rfl).mono (fun _ _ h => h)
    fun _ _ _ => trivial)

theorem wp_markRetrying {message : String} (hg : S.CanRecord x .retrying g) :
    (markRetrying x message).Wp P i (fun r g' => S.Done r.status g') (fun _ _ => True) g :=
  Proc.Wp.bind ((S.wp_updateRuleExecution hg fun _ => rfl).mono (fun _ _ h => h)
    fun _ _ _ => trivial)

/-! ### The actions -/

section Actions

theorem wp_allocate {ref : String} {bucket : TreasuryBucket} {amount : Int}
    (hrule : rule.action = .releaseFunds) (hdest : S.Destination bucket)
    (hamount : releaseAmount (rule.payload.getD {}) entry.amountKobo = some (.ok amount))
    (hpos : 0 < amount) (hg : S.Running x g) :
    (allocate x ref bucket.id rule.account entry amount).Wp P i
      (fun r g' => S.Done r.status g') (fun _ g' => S.CanRecord x .retrying g') g := by
  refine Proc.Wp.bind
    (wp_credit S.quiet (fun _ => S.canRecord_of_running hg (by simp)) ?_)
  intro G hist w env a db w' hG hinv hallowed hrun hw'
  subst hG
  obtain ⟨g', hinv', hcredited⟩ :=
    S.credit rfl hrule hdest hamount hpos hg hinv hallowed hrun hw'
  refine ⟨g', hinv', Proc.Wp.bind ?_⟩
  refine (S.wp_markCompleted (S.canRecord_of_credited hcredited)).mono ?_ ?_
  · intro r g'' hdone
    exact Proc.Wp.bind (wp_audit S.quiet hdone)
  · rintro e g'' rfl
    exact S.canRecord_of_credited hcredited

theorem wp_handleReleaseFunds (hrule : rule.action = .releaseFunds) (hg : S.Running x g) :
    (handleReleaseFunds x rule.payload rule.account entry).Wp P i
      (fun r g' => S.Done r.status g') (fun _ _ => True) g := by
  have hfailed : ∀ message, (markExecutionFailed x message).Wp P i
      (fun r g' => S.Done r.status g') (fun _ _ => True) g :=
    fun _ => S.wp_markExecutionFailed (S.canRecord_of_running hg (by simp))
  unfold handleReleaseFunds
  dsimp only
  split
  next => exact hfailed _
  next hne =>
    have href : (rule.payload.getD {}).destinationAccountRef =
        some ((rule.payload.getD {}).destinationAccountRef.getD "") := by
      cases h : (rule.payload.getD {}).destinationAccountRef with
      | none => simp [h] at hne
      | some ref => rfl
    refine Proc.Wp.bind (wp_find S.quiet (fun G hist w env hG hinv => ?_) fun _ => trivial)
    cases hb : w.db.findBucket rule.account.businessId
      ((rule.payload.getD {}).destinationAccountRef.getD "") with
    | none => exact hfailed _
    | some bucket =>
      dsimp only
      split
      next => exact hfailed _
      next hactive =>
        have hdest : S.Destination bucket :=
          S.destination (hG ▸ hg) hinv href hb (not_not.1 hactive)
        split
        next => exact hfailed _
        next => trivial
        next amount hamount =>
          split
          next hle =>
            exact (S.wp_markCompleted (.inl ⟨hg, fun _ _ => ⟨amount, hle, hamount⟩⟩)).mono
              (fun _ _ h => h) fun _ _ _ => trivial
          next hpos =>
            refine Proc.Wp.catching
              ((S.wp_allocate hrule hdest hamount (not_le.1 hpos) hg).mono (fun _ _ h => h) ?_)
            intro e g' hg'
            exact S.wp_markRetrying hg'

theorem wp_handleStatusChange {target : AccountStatus} {allowedFrom : List AccountStatus}
    {auditAction : AuditAction} (hrule : rule.action ≠ .releaseFunds) (hg : S.Running x g) :
    (handleStatusChange x rule.account target allowedFrom auditAction).Wp P i
      (fun r g' => S.Done r.status g') (fun _ _ => True) g := by
  have hcompleted : (markCompleted x).Wp P i (fun r g' => S.Done r.status g')
      (fun _ _ => True) g :=
    (S.wp_markCompleted (.inl ⟨hg, fun _ h => absurd h hrule⟩)).mono (fun _ _ h => h)
      fun _ _ _ => trivial
  refine Proc.Wp.bind (wp_find S.quiet (fun G hist w env hG hinv => ?_) fun _ => trivial)
  cases (w.db.findAccountById rule.account.id).map Account.status with
  | none => exact hcompleted
  | some status =>
    dsimp only
    split
    next =>
      refine Proc.Wp.bind (wp_statement S.quiet ?_ fun _ _ _ _ _ _ _ _ _ _ _ => trivial)
      intro G hist w env db w' hG hinv hallowed hf hdb hw'
      refine ⟨g, ?_, Proc.Wp.bind (wp_audit S.quiet hcompleted)⟩
      rw [← hG, Function.update_eq_self]
      exact S.changeStatus rfl (hG ▸ hg) hinv hallowed hdb hw'
    next => exact hcompleted

theorem wp_flagLedgerEntry (hg : S.Running x g) :
    (flagLedgerEntry entry.realLedgerEntryId).Wp P i (fun _ g' => g' = g) (fun _ _ => True) g := by
  cases hid : entry.realLedgerEntryId with
  | none => rfl
  | some id =>
    refine wp_statement S.quiet ?_ fun _ _ _ _ _ _ _ _ _ _ _ => trivial
    intro G hist w env db w' hG hinv hallowed hf hdb hw'
    refine ⟨g, ?_, rfl⟩
    rw [← hG, Function.update_eq_self]
    exact S.flag rfl hid (hG ▸ hg) hinv hallowed hdb hw'

theorem wp_handleFlagForReview (hrule : rule.action ≠ .releaseFunds) (hg : S.Running x g) :
    (handleFlagForReview x rule.account entry.realLedgerEntryId).Wp P i
      (fun r g' => S.Done r.status g') (fun _ _ => True) g := by
  refine Proc.Wp.bind ((S.wp_flagLedgerEntry hg).mono ?_ fun _ _ h => h)
  rintro u g' rfl
  refine Proc.Wp.bind (wp_audit S.quiet ?_)
  exact (S.wp_markCompleted (.inl ⟨hg, fun _ h => absurd h hrule⟩)).mono (fun _ _ h => h)
    fun _ _ _ => trivial

theorem wp_handleNotifyWebhook (hrule : rule.action ≠ .releaseFunds) (hg : S.Running x g) :
    (handleNotifyWebhook x rule.payload rule.account).Wp P i
      (fun r g' => S.Done r.status g') (fun _ _ => True) g := by
  unfold handleNotifyWebhook
  dsimp only
  split
  next => exact S.wp_markExecutionFailed (S.canRecord_of_running hg (by simp))
  next =>
    refine Proc.Wp.bind (wp_deliver S.quiet fun r => ?_)
    cases r with
    | error e => exact S.wp_markRetrying (S.canRecord_of_running hg (by simp))
    | ok status =>
      refine Proc.Wp.bind ((S.wp_markCompleted (.inl ⟨hg, fun _ h => absurd h hrule⟩)).mono ?_
        fun _ _ _ => trivial)
      intro r g' hdone
      exact Proc.Wp.bind (wp_audit S.quiet hdone)

/-- **The action of a rule.** -/
theorem wp_act (hg : S.Running x g) :
    (act x rule entry).Wp P i (fun r g' => S.Done r.status g') (fun _ _ => True) g := by
  unfold act
  split
  next h => exact S.wp_handleReleaseFunds h hg
  next h => exact S.wp_handleStatusChange (by simp [h]) hg
  next h => exact S.wp_handleStatusChange (by simp [h]) hg
  next h => exact S.wp_handleStatusChange (by simp [h]) hg
  next h => exact S.wp_handleFlagForReview (by simp [h]) hg
  next h => exact S.wp_handleNotifyWebhook (by simp [h]) hg

end Actions

/-- **The execution of a rule.** -/
theorem wp_execute (hg : S.Start g) :
    (execute rule entry).Wp P i (fun r g' => S.Done r.status g') (fun _ _ => True) g := by
  refine Proc.Wp.bind (wp_transaction S.quiet logsOnly_nothing ?_
    fun _ _ _ _ _ _ _ _ _ _ => trivial)
  intro G hist w env a db w' hG hinv hallowed hf hrun hw'
  subst hG
  obtain ⟨hdb, rfl⟩ := createRuleExecution_run_eq_ok hrun
  obtain ⟨g', hinv', hrunning⟩ := S.create rfl hg hinv hallowed hdb hw'
  exact ⟨g', hinv', S.wp_act hrunning⟩

end ExecutionSteps

/-! ### The loop over the matching rules -/

section Loop

variable {P : Protocol ι World Env Call γ} {i : ι} {entry : TriggerEntry}

open WebhookProcessor

/-- The loop, by its invariant: `Rest rules` holds the ghosts of a thread that still has to execute
`rules`. -/
theorem wp_executeAll {after : ExecutionResult → Action Unit}
    {Rest : List EvaluatedRule → γ → Prop}
    (hstep : ∀ rule rest g, Rest (rule :: rest) g →
      (execute rule entry).Wp P i
        (fun r g' => (after r).Wp P i (fun _ g'' => Rest rest g'') (fun _ _ => True) g')
        (fun _ _ => True) g)
    {rules : List EvaluatedRule} {g : γ} (hg : Rest rules g) :
    (executeAll after entry rules).Wp P i (fun _ g' => Rest [] g') (fun _ _ => True) g := by
  induction rules generalizing g with
  | nil => exact hg
  | cons rule rest ih =>
    refine Proc.Wp.bind ((hstep rule rest g hg).mono (fun r g' hafter => ?_) fun _ _ h => h)
    exact Proc.Wp.bind (hafter.mono (fun _ g'' hrest => ih hrest) fun _ _ h => h)

/-- A protocol that does not mind retry jobs. -/
theorem wp_enqueueIfRetrying (hP : Quiet P) {g : γ} {result : ExecutionResult}
    (henqueue : ∀ {job G hist w env w'}, G i = g → P.inv G hist w →
      P.allowed (.enqueueRetry job.ruleExecutionId) env w w' →
      w' = { w with retryQueue := w.retryQueue ++ [job] } →
      P.inv G (hist ++ [⟨i, .enqueueRetry job.ruleExecutionId, env, w, w'⟩]) w') :
    (enqueueIfRetrying result).Wp P i (fun _ g' => g' = g) (fun _ _ => True) g := by
  unfold enqueueIfRetrying
  split
  next =>
    refine wp_enqueueRetry hP ?_ fun _ => trivial
    intro G hist w env w' hG hinv hallowed hw'
    refine ⟨g, ?_, rfl⟩
    rw [← hG, Function.update_eq_self]
    exact henqueue hG hinv hallowed hw'
  next => rfl

end Loop

/-! ### Processing a delivery -/

/-- What a protocol has to show of thread `i` processing a delivery of `payload`. The thread starts
in `Idle`; `Fresh` says that it has found the event unprocessed, `Claimed a` that it has claimed
the custom event for account `a`, `Written a n t` that it has recorded the inflow of `n` with the
new total `t`, `Loop a e rs rest` that of the matching rules `rs` those in `rest` are still to be
executed for `e`, and `Reconciled a` that it has set the reconciliation status. -/
structure DeliverySteps (P : Protocol ι World Env Call γ) (i : ι) (payload : InflowPayload) where
  Idle : γ → Prop
  Fresh : γ → Prop
  Claimed : Account → γ → Prop
  Written : Account → Int → Int → γ → Prop
  Loop : Account → TriggerEntry → List EvaluatedRule → List EvaluatedRule → γ → Prop
  Reconciled : Account → γ → Prop
  /-- What is remembered of the account once it has been found. -/
  Located : Account → Prop
  /-- What is remembered of the rules selected for an event. -/
  Selected : Account → RuleEvent → List EvaluatedRule → Prop
  /-- Whether the account's business can be missing. -/
  businessMayBeMissing : Prop
  quiet : Quiet P
  unprocessed : ∀ {l G hist w env}, l = .findProcessedEvent payload.eventId → Idle (G i) →
    P.inv G hist w → P.allowed l env w w → w.db.findProcessedEvent payload.eventId = none →
    ∃ g, P.inv (Function.update G i g) (hist ++ [⟨i, l, env, w, w⟩]) w ∧ Fresh g
  locate : ∀ {a G hist w}, Fresh (G i) → P.inv G hist w →
    w.db.findAccount payload.accountNumber = some a → Located a
  select : ∀ {a event rank G hist w}, Located a → P.inv G hist w →
    Selected a event (selectMatching a.executionModel event (w.db.findRules rank a.id))
  business : ∀ {a G hist w}, Located a → P.inv G hist w →
    w.db.findBusiness a.businessId = none → businessMayBeMissing
  claim : ∀ {a e l G hist w env db w'}, l = .createProcessedEvent payload.eventId →
    WebhookProcessor.isCustomEvent payload = true → e.eventId = payload.eventId →
    Located a → Fresh (G i) → P.inv G hist w → P.allowed l env w w' →
    w.db.createProcessedEvent e = .ok db → w' = { w with db } →
    ∃ g, P.inv (Function.update G i g) (hist ++ [⟨i, l, env, w, w'⟩]) w' ∧ Claimed a g
  flagged : ∀ {found t l G hist w env db w'}, l = .writeInflow payload.transactionRef →
    WebhookProcessor.isCustomEvent payload = false → found.account.status = .suspended →
    Located found.account → Fresh (G i) → P.inv G hist w → P.allowed l env w w' →
    (writeInflowTx (WebhookProcessor.inflowDto payload found) .flagged env).run schema w.db =
      .ok (t, db) → w' = { w with db } →
    P.inv G (hist ++ [⟨i, l, env, w, w'⟩]) w'
  write : ∀ {found n t l G hist w env db w'}, l = .writeInflow payload.transactionRef →
    WebhookProcessor.isCustomEvent payload = false → found.account.status = .active →
    payload.amountKobo = (n : Int) →
    Located found.account → Fresh (G i) → P.inv G hist w → P.allowed l env w w' →
    (writeInflowTx (WebhookProcessor.inflowDto payload found) .pending env).run schema w.db =
      .ok (t, db) → w' = { w with db } →
    ∃ g, P.inv (Function.update G i g) (hist ++ [⟨i, l, env, w, w'⟩]) w' ∧
      Written found.account n t g
  entryExists : ∀ {a n t G hist w}, Written a n t (G i) → P.inv G hist w →
    w.db.findLedgerEntry payload.transactionRef ≠ none
  beginInflow : ∀ {a n t e rules l G hist w env}, l = .findLedgerEntry payload.transactionRef →
    Located a → Selected a (WebhookProcessor.inflowEvent n t) rules → Written a n t (G i) →
    P.inv G hist w → P.allowed l env w w →
    w.db.findLedgerEntry payload.transactionRef = some e →
    ∃ g, P.inv (Function.update G i g) (hist ++ [⟨i, l, env, w, w⟩]) w ∧
      Loop a e.trigger rules rules g
  beginEvent : ∀ {a rules l G hist w env}, l = .findBusiness a.businessId →
    Located a → Selected a (WebhookProcessor.customEvent payload) rules → Claimed a (G i) →
    P.inv G hist w → P.allowed l env w w →
    ∃ g, P.inv (Function.update G i g) (hist ++ [⟨i, l, env, w, w⟩]) w ∧
      Loop a (WebhookProcessor.pseudoLedgerEntry payload) rules rules g
  execution : Account → (entry : TriggerEntry) → List EvaluatedRule → (rule : EvaluatedRule) →
    List EvaluatedRule → ExecutionSteps P i rule entry
  start : ∀ {a entry rules rule rest g}, Loop a entry rules (rule :: rest) g →
    (execution a entry rules rule rest).Start g
  done : ∀ {a entry rules rule rest o g}, (execution a entry rules rule rest).Done o g →
    Loop a entry rules rest g
  enqueue : ∀ {a entry rules rest job l G hist w env w'},
    l = .enqueueRetry job.ruleExecutionId → Loop a entry rules rest (G i) → P.inv G hist w →
    P.allowed l env w w' → w' = { w with retryQueue := w.retryQueue ++ [job] } →
    P.inv G (hist ++ [⟨i, l, env, w, w'⟩]) w'
  reconcile : ∀ {a n t status l G hist w env db w'}, l = .updateReconciliation status →
    status ≠ .pending → Located a →
    ((∃ e rules, Selected a (WebhookProcessor.inflowEvent n t) rules ∧
        Loop a e rules [] (G i)) ∨
      Written a n t (G i) ∧
        (Selected a (WebhookProcessor.inflowEvent n t) [] ∨ businessMayBeMissing)) →
    P.inv G hist w → P.allowed l env w w' →
    w.db.updateReconciliationByRef payload.transactionRef status = .ok db → w' = { w with db } →
    ∃ g, P.inv (Function.update G i g) (hist ++ [⟨i, l, env, w, w'⟩]) w' ∧ Reconciled a g
  finish : ∀ {a e l G hist w env db w'}, l = .createProcessedEvent payload.eventId →
    e.eventId = payload.eventId → Reconciled a (G i) → P.inv G hist w → P.allowed l env w w' →
    w.db.createProcessedEvent e = .ok db → w' = { w with db } →
    ∃ g, P.inv (Function.update G i g) (hist ++ [⟨i, l, env, w, w'⟩]) w'

namespace DeliverySteps

open WebhookProcessor

variable {P : Protocol ι World Env Call γ} {i : ι} {payload : InflowPayload}
  (S : DeliverySteps P i payload) {g : γ}
include S

theorem wp_evaluate {a : Account} {event : RuleEvent} {Q : List EvaluatedRule → γ → Prop}
    (ha : S.Located a) (hQ : ∀ rules, S.Selected a event rules → Q rules g) :
    (evaluate a.id a.executionModel event).Wp P i Q (fun _ _ => True) g := by
  refine Proc.Wp.bind (wp_find S.quiet (fun G hist w env hG hinv => ?_) fun _ => trivial)
  exact hQ _ (S.select ha hinv)

/-! #### A custom event -/

theorem wp_executeForEvent {a : Account} {rules : List EvaluatedRule} (ha : S.Located a)
    (hrules : S.Selected a (customEvent payload) rules) (hg : S.Claimed a g) :
    (executeForEvent payload a rules).Wp P i (fun _ _ => True) (fun _ _ => True) g := by
  unfold executeForEvent
  split
  next => trivial
  next =>
    refine Proc.Wp.bind (wp_findThen S.quiet ?_ fun _ => trivial)
    intro G hist w env hG hinv hallowed
    subst hG
    obtain ⟨g', hinv', hloop⟩ := S.beginEvent rfl ha hrules hg hinv hallowed
    refine ⟨g', hinv', ?_⟩
    cases w.db.findBusiness a.businessId with
    | none => trivial
    | some b =>
      refine (wp_executeAll (fun rule rest g hrest => ?_) hloop).mono (fun _ _ _ => trivial)
        fun _ _ h => h
      exact ((S.execution a _ rules rule rest).wp_execute (S.start hrest)).mono
        (fun r g' hdone => S.done hdone) fun _ _ h => h

theorem wp_claim {a : Account} (hcustom : isCustomEvent payload = true) (ha : S.Located a)
    (hg : S.Fresh g) :
    (WebhookProcessor.claim payload a).Wp P i (fun claimed g' => claimed = true → S.Claimed a g')
      (fun _ _ => True) g := by
  have hdiscard : ∀ (err : Error) g', (if err.hasCode "P2002" then
        (audit (duplicateDiscarded payload)).bind fun _ => .ret false
      else .raise err : Action Bool).Wp P i (fun claimed g' => claimed = true → S.Claimed a g')
        (fun _ _ => True) g' := by
    intro err g'
    split
    · exact Proc.Wp.bind (wp_audit S.quiet (by simp))
    · trivial
  refine Proc.Wp.catching (Proc.Wp.bind (wp_statement S.quiet ?_
    fun _ _ _ _ _ _ _ _ _ _ _ => hdiscard _ _))
  intro G hist w env db w' hG hinv hallowed hf hdb hw'
  subst hG
  obtain ⟨g', hinv', hclaimed⟩ := S.claim rfl hcustom rfl ha hg hinv hallowed hdb hw'
  exact ⟨g', hinv', fun _ => hclaimed⟩

theorem wp_processCustomEvent {a : Account} (hcustom : isCustomEvent payload = true)
    (ha : S.Located a) (hg : S.Fresh g) :
    (processCustomEvent payload a).Wp P i (fun _ _ => True) (fun _ _ => True) g := by
  refine Proc.Wp.bind ((S.wp_claim hcustom ha hg).mono (fun claimed g' hclaimed => ?_)
    fun _ _ h => h)
  cases claimed with
  | false => trivial
  | true =>
    refine Proc.Wp.bind (S.wp_evaluate ha fun rules hrules => ?_)
    refine Proc.Wp.bind ((S.wp_executeForEvent ha hrules (hclaimed rfl)).mono
      (fun _ _ _ => ?_) fun _ _ h => h)
    exact wp_audit S.quiet trivial

/-! #### An inflow -/

section Inflow

variable {found : FoundAccount} {n t : Int} {rules : List EvaluatedRule}

/-- The rules are executed, or there is nothing to execute. -/
def Executed (a : Account) (n t : Int) (g : γ) : Prop :=
  (∃ e rules, S.Selected a (inflowEvent n t) rules ∧ S.Loop a e rules [] g) ∨
    S.Written a n t g ∧ (S.Selected a (inflowEvent n t) [] ∨ S.businessMayBeMissing)

theorem wp_executeMatching {a : Account} (ha : S.Located a)
    (hrules : S.Selected a (inflowEvent n t) rules) (hg : S.Written a n t g) :
    (executeMatching payload a rules).Wp P i (fun _ g' => S.Executed a n t g')
      (fun _ _ => True) g := by
  refine Proc.Wp.bind (wp_find S.quiet (fun G hist w env hG hinv => ?_) fun _ => trivial)
  cases hb : w.db.findBusiness a.businessId with
  | none => exact .inr ⟨hg, .inr (S.business ha hinv hb)⟩
  | some b =>
    refine Proc.Wp.bind (wp_findThen S.quiet ?_ fun _ => trivial)
    intro G hist w env hG hinv hallowed
    subst hG
    cases he : w.db.findLedgerEntry payload.transactionRef with
    | none => exact absurd he (S.entryExists hg hinv)
    | some e =>
      obtain ⟨g', hinv', hloop⟩ := S.beginInflow rfl ha hrules hg hinv hallowed he
      refine ⟨g', hinv', ?_⟩
      refine (wp_executeAll (fun rule rest g hrest => ?_) hloop).mono
        (fun _ g'' hdone => .inl ⟨_, rules, hrules, hdone⟩) fun _ _ h => h
      refine ((S.execution a _ rules rule rest).wp_execute (S.start hrest)).mono
        (fun r g' hdone => ?_) fun _ _ h => h
      refine (wp_enqueueIfRetrying S.quiet ?_).mono ?_ fun _ _ h => h
      · intro job G hist w env w' hG hinv hallowed hw'
        exact S.enqueue rfl (hG ▸ S.done hdone) hinv hallowed hw'
      · rintro u g'' rfl
        exact S.done hdone

theorem wp_reconcile {a : Account} {status : ReconciliationStatus}
    {matchedRules : List (String × Json)} (hstatus : status ≠ .pending) (ha : S.Located a)
    (hg : S.Executed a n t g) :
    (WebhookProcessor.reconcile payload a status matchedRules).Wp P i
      (fun _ g' => S.Reconciled a g')
      (fun _ _ => True) g := by
  refine Proc.Wp.bind (wp_statement S.quiet ?_ fun _ _ _ _ _ _ _ _ _ _ _ => trivial)
  intro G hist w env db w' hG hinv hallowed hf hdb hw'
  subst hG
  obtain ⟨g', hinv', hdone⟩ := S.reconcile rfl hstatus ha hg hinv hallowed hdb hw'
  exact ⟨g', hinv', wp_audit S.quiet hdone⟩

theorem wp_settleInflow {a : Account} (ha : S.Located a)
    (hrules : S.Selected a (inflowEvent n t) rules) (hg : S.Written a n t g) :
    (settleInflow payload a rules).Wp P i (fun _ g' => S.Reconciled a g')
      (fun _ _ => True) g := by
  unfold settleInflow
  split
  next hnil =>
    subst hnil
    exact S.wp_reconcile (by simp) ha (.inr ⟨hg, .inl hrules⟩)
  next =>
    refine Proc.Wp.bind ((S.wp_executeMatching ha hrules hg).mono (fun _ g' hg' => ?_)
      fun _ _ h => h)
    exact S.wp_reconcile (by simp) ha hg'

theorem wp_processInflow (hinflow : isCustomEvent payload = false)
    (hactive : found.account.status = .active) (ha : S.Located found.account) (hg : S.Fresh g) :
    (processInflow payload found).Wp P i (fun _ _ => True) (fun _ _ => True) g := by
  refine Proc.Wp.bind (wp_transaction S.quiet logsOnly_nothing ?_
    fun _ _ _ _ _ _ _ _ _ _ => trivial)
  intro G hist w env t db w' hG hinv hallowed hf hrun hw'
  subst hG
  obtain ⟨n, hn, -, -⟩ := (writeInflowTx_run_eq_ok w.db).1 hrun
  obtain ⟨g', hinv', hwritten⟩ :=
    S.write rfl hinflow hactive hn ha hg hinv hallowed hrun hw'
  refine ⟨g', hinv', Proc.Wp.bind (wp_bigIntOrThrow (fun m hm => ?_) fun _ => trivial)⟩
  -- the amount is the one that was written
  obtain rfl : m = n := by
    have : ((m : Int) : ℚ) = n := hm.symm.trans hn
    exact_mod_cast this
  refine Proc.Wp.bind (S.wp_evaluate ha fun rules hrules => ?_)
  refine Proc.Wp.bind ((S.wp_settleInflow ha hrules hwritten).mono (fun _ g'' hdone => ?_)
    fun _ _ h => h)
  refine wp_statement S.quiet ?_ fun _ _ _ _ _ _ _ _ _ _ _ => trivial
  intro G hist w env db w' hG hinv hallowed hf hdb hw'
  subst hG
  obtain ⟨g₃, hinv₃⟩ := S.finish rfl rfl hdone hinv hallowed hdb hw'
  exact ⟨g₃, hinv₃, trivial⟩

theorem wp_processSuspended (hinflow : isCustomEvent payload = false)
    (hsuspended : found.account.status = .suspended) (ha : S.Located found.account)
    (hg : S.Fresh g) :
    (processSuspended payload found).Wp P i (fun _ _ => True) (fun _ _ => True) g := by
  refine Proc.Wp.bind (wp_transaction S.quiet logsOnly_nothing ?_
    fun _ _ _ _ _ _ _ _ _ _ => trivial)
  intro G hist w env t db w' hG hinv hallowed hf hrun hw'
  refine ⟨g, ?_, wp_audit S.quiet trivial⟩
  rw [← hG, Function.update_eq_self]
  exact S.flagged rfl hinflow hsuspended ha (hG ▸ hg) hinv hallowed hrun hw'

end Inflow

theorem wp_processUnseen (hg : S.Fresh g) :
    (processUnseen payload).Wp P i (fun _ _ => True) (fun _ _ => True) g := by
  refine Proc.Wp.bind (wp_find S.quiet (fun G hist w env hG hinv => ?_) fun _ => trivial)
  cases ha : w.db.findAccount payload.accountNumber with
  | none => exact wp_audit S.quiet trivial
  | some a =>
    have hlocated : S.Located a := S.locate (hG ▸ hg) hinv ha
    show Proc.Wp P i _ _ (ite _ _ _) g
    split
    next hcustom => exact S.wp_processCustomEvent hcustom hlocated hg
    next hinflow =>
      have hinflow : isCustomEvent payload = false := by simpa using hinflow
      split
      next hsuspended => exact S.wp_processSuspended hinflow hsuspended hlocated hg
      next => exact wp_audit S.quiet trivial
      next => exact wp_audit S.quiet trivial
      next hactive => exact S.wp_processInflow hinflow hactive hlocated hg

theorem wp_processEvent (hg : S.Idle g) :
    (processEvent payload).Wp P i (fun _ _ => True) (fun _ _ => True) g := by
  refine Proc.Wp.bind (wp_findThen S.quiet ?_ fun _ => trivial)
  intro G hist w env hG hinv hallowed
  subst hG
  cases he : w.db.findProcessedEvent payload.eventId with
  | some e =>
    refine ⟨G i, ?_, wp_audit S.quiet trivial⟩
    rw [Function.update_eq_self]
    exact S.quiet G hist w w i _ env hinv hallowed (.refl w)
  | none =>
    obtain ⟨g', hinv', hfresh⟩ := S.unprocessed rfl hg hinv hallowed he
    exact ⟨g', hinv', S.wp_processUnseen hfresh⟩

/-- **The processing of a delivery.** -/
theorem wp_process (hg : S.Idle g) :
    (process payload).Wp P i (fun _ _ => True) (fun _ _ => True) g := by
  refine Proc.Wp.catching ((S.wp_processEvent hg).mono (fun _ _ h => h) fun err g' _ => ?_)
  split
  · exact wp_audit S.quiet trivial
  · trivial

end DeliverySteps

/-! ### One attempt to release funds -/

/-- What a protocol has to show of thread `i` attempting the release of the execution `f`, which it
has read. The thread starts in `Start`; `Credited b n` says that it has credited `n` to bucket
`b`. -/
structure AttemptSteps (P : Protocol ι World Env Call γ) (i : ι) (f : FoundExecution) where
  Start : γ → Prop
  Credited : String → Int → γ → Prop
  /-- What is remembered of the destination bucket once it has been found. -/
  Destination : TreasuryBucket → Prop
  quiet : Quiet P
  destination : ∀ {ref bucket G hist w}, Start (G i) → P.inv G hist w →
    (f.rule.payload.getD {}).destinationAccountRef = some ref →
    w.db.findBucket f.account.businessId ref = some bucket → Destination bucket
  credit : ∀ {bucket e amount attempt l G hist w env a db w'},
    l = .credit bucket.id (allocationReference e.nombaTransactionRef bucket.id) amount →
    f.rule.action = .releaseFunds → Destination bucket → f.triggeredByLedgerEntry = some e →
    releaseAmount (f.rule.payload.getD {}) e.amountKobo = some (.ok amount) → Start (G i) →
    P.inv G hist w → P.allowed l env w w' →
    (creditTx (RetryProcessor.retryCredit bucket.id f.account e amount attempt) env.row).run
      schema w.db = .ok (a, db) → w' = { w with db } →
    ∃ g, P.inv (Function.update G i g) (hist ++ [⟨i, l, env, w, w'⟩]) w' ∧
      Credited bucket.id amount g

namespace AttemptSteps

open RetryProcessor

variable {P : Protocol ι World Env Call γ} {i : ι} {f : FoundExecution} (S : AttemptSteps P i f)
  {g : γ}
include S

/-- After an attempt, by its outcome. -/
def After (outcome : AttemptOutcome) (g : γ) : Prop :=
  if outcome.ok then ∃ b n, S.Credited b n g else S.Start g

theorem wp_reallocate {bucket : TreasuryBucket} {e : LedgerEntry} {amount : Int} {attempt : Nat}
    {ref : String} (hrule : f.rule.action = .releaseFunds) (hdest : S.Destination bucket)
    (he : f.triggeredByLedgerEntry = some e)
    (hamount : releaseAmount (f.rule.payload.getD {}) e.amountKobo = some (.ok amount))
    (hg : S.Start g) :
    (reallocate (retryCredit bucket.id f.account e amount attempt) ref).Wp P i
      (fun outcome g' => S.After outcome g') (fun _ g' => S.Start g') g := by
  refine Proc.Wp.bind (wp_credit S.quiet (fun _ => hg) ?_)
  intro G hist w env a db w' hG hinv hallowed hrun hw'
  subst hG
  obtain ⟨g', hinv', hcredited⟩ := S.credit rfl hrule hdest he hamount hg hinv hallowed hrun hw'
  exact ⟨g', hinv', bucket.id, amount, hcredited⟩

/-- **An attempt to release funds.** -/
theorem wp_attemptRelease {attempt : Nat} (hrule : f.rule.action = .releaseFunds)
    (hg : S.Start g) :
    (attemptRelease f attempt).Wp P i (fun outcome g' => S.After outcome g')
      (fun _ _ => True) g := by
  unfold attemptRelease
  dsimp only
  split
  next => exact hg
  next hne =>
    have href : (f.rule.payload.getD {}).destinationAccountRef =
        some ((f.rule.payload.getD {}).destinationAccountRef.getD "") := by
      cases h : (f.rule.payload.getD {}).destinationAccountRef with
      | none => simp [h] at hne
      | some ref => rfl
    refine Proc.Wp.bind (wp_find S.quiet (fun G hist w env hG hinv => ?_) fun _ => trivial)
    cases hb : w.db.findBucket f.account.businessId
      ((f.rule.payload.getD {}).destinationAccountRef.getD "") with
    | none => exact hg
    | some bucket =>
      have hdest : S.Destination bucket := S.destination (hG ▸ hg) hinv href hb
      cases he : f.triggeredByLedgerEntry with
      | none => exact hg
      | some e =>
        dsimp only
        split
        next => exact hg
        next => trivial
        next amount hamount =>
          refine Proc.Wp.catching ((S.wp_reallocate hrule hdest he hamount hg).mono
            (fun _ _ h => h) ?_)
          intro err g' hg'
          exact hg'

end AttemptSteps

/-! ### Retrying an execution -/

/-- What a protocol has to show of thread `i` serving a delivery of a retry job. The thread starts
in `Idle`; `Found f` says that it has read the execution `f`. -/
structure RetrySteps (P : Protocol ι World Env Call γ) (i : ι)
    (job : RetryProcessor.RetryDelivery) where
  Idle : γ → Prop
  Found : FoundExecution → γ → Prop
  quiet : Quiet P
  found : ∀ {f l G hist w env}, l = .findRuleExecution job.ruleExecutionId → Idle (G i) →
    P.inv G hist w → P.allowed l env w w → w.db.findRuleExecution job.ruleExecutionId = some f →
    ∃ g, P.inv (Function.update G i g) (hist ++ [⟨i, l, env, w, w⟩]) w ∧ Found f g
  attempt : (f : FoundExecution) → AttemptSteps P i f
  start : ∀ {f g}, Found f g → (attempt f).Start g
  record : ∀ {f data l G hist w env db w'}, l = .updateRuleExecution job.ruleExecutionId →
    (Found f (G i) ∨ (attempt f).Start (G i) ∨ ∃ b n, (attempt f).Credited b n (G i)) →
    P.inv G hist w → P.allowed l env w w' →
    w.db.updateRuleExecution job.ruleExecutionId data = .ok db → w' = { w with db } →
    P.inv G (hist ++ [⟨i, l, env, w, w'⟩]) w'

namespace RetrySteps

open RetryProcessor

variable {P : Protocol ι World Env Call γ} {i : ι} {job : RetryDelivery}
  (S : RetrySteps P i job) {f : FoundExecution} {g : γ}
include S

theorem wp_attemptNotify :
    (attemptNotify f).Wp P i (fun _ g' => g' = g) (fun _ _ => True) g := by
  unfold attemptNotify
  dsimp only
  split
  next => rfl
  next =>
    refine Proc.Wp.bind (wp_deliver S.quiet fun r => ?_)
    cases r <;> rfl

/-- Where a thread may record the outcome of its attempt. -/
def CanRecord (f : FoundExecution) (g : γ) : Prop :=
  S.Found f g ∨ (S.attempt f).Start g ∨ ∃ b n, (S.attempt f).Credited b n g

/-- Recording the outcome of an attempt. -/
theorem wp_record {data : Nat → RuleExecutionData} {rest : Unit → Action Unit}
    (hrest : (rest ()).Wp P i (fun _ _ => True) (fun _ _ => True) g) (hg : S.CanRecord f g) :
    ((updateRuleExecution job.ruleExecutionId data).bind rest).Wp P i (fun _ _ => True)
      (fun _ _ => True) g := by
  refine Proc.Wp.bind (wp_statement S.quiet ?_ fun _ _ _ _ _ _ _ _ _ _ _ => trivial)
  intro G hist w env db w' hG hinv hallowed hf hdb hw'
  refine ⟨g, ?_, hrest⟩
  rw [← hG, Function.update_eq_self]
  exact S.record rfl (hG ▸ hg) hinv hallowed hdb hw'

theorem wp_settleOutcome {outcome : AttemptOutcome} (hg : S.CanRecord f g) :
    (settleOutcome job f outcome).Wp P i (fun _ _ => True) (fun _ _ => True) g := by
  unfold settleOutcome
  dsimp only
  split
  next => exact S.wp_record (wp_audit S.quiet trivial) hg
  next =>
    split
    next => exact S.wp_record (wp_audit S.quiet trivial) hg
    next => exact S.wp_record trivial hg

/-- **A retry.** -/
theorem wp_process (hg : S.Idle g) :
    (process job).Wp P i (fun _ _ => True) (fun _ _ => True) g := by
  refine Proc.Wp.bind (wp_findThen S.quiet ?_ fun _ => trivial)
  intro G hist w env hG hinv hallowed
  subst hG
  cases hfound : w.db.findRuleExecution job.ruleExecutionId with
  | none =>
    refine ⟨G i, ?_, trivial⟩
    rw [Function.update_eq_self]
    exact S.quiet G hist w w i _ env hinv hallowed (.refl w)
  | some f =>
    obtain ⟨g', hinv', hg'⟩ := S.found rfl hg hinv hallowed hfound
    refine ⟨g', hinv', ?_⟩
    dsimp only
    split
    next => trivial
    next =>
      split
      next hrule =>
        refine Proc.Wp.bind (((S.attempt f).wp_attemptRelease hrule (S.start hg')).mono
          (fun outcome g'' hafter => S.wp_settleOutcome (.inr ?_)) fun _ _ h => h)
        unfold AttemptSteps.After at hafter
        split at hafter
        next => exact .inr hafter
        next => exact .inl hafter
      next =>
        refine Proc.Wp.bind ((S.wp_attemptNotify (f := f)).mono ?_ fun _ _ h => h)
        rintro outcome g'' rfl
        exact S.wp_settleOutcome (.inl hg')
      next =>
        refine wp_statement S.quiet ?_ fun _ _ _ _ _ _ _ _ _ _ _ => trivial
        intro G hist w env db w' hG hinv hallowed hf hdb hw'
        refine ⟨g', ?_, trivial⟩
        rw [← hG, Function.update_eq_self]
        exact S.record rfl (.inl (hG ▸ hg')) hinv hallowed hdb hw'

end RetrySteps

end AccountOS
