import AccountOS.Queue.Correctness.ExecutionCalls

/-!
# A finished execution stays finished

`execute` and the retry worker write the outcome of an execution by its id alone, some calls after
they have created it or have read that it is not finished; in between they may wait for a delivery.
An execution that another thread finishes meanwhile, as the closing of its account does, is
overwritten.
-/

namespace AccountOS

open Conc Sql

/-- What may write executions. -/
inductive ExecutionThread
  | execute (rule : EvaluatedRule) (entry : TriggerEntry)
  | retry (job : RetryProcessor.RetryDelivery)
  | close (accountRef businessId actor : String)

def ExecutionThread.run : ExecutionThread → Action Unit
  | execute rule entry => (AccountOS.execute rule entry).bind fun _ => .ret ()
  | retry job => RetryProcessor.process job
  | close accountRef businessId actor =>
    (closeAccount accountRef businessId actor).bind fun _ => .ret ()

theorem ExecutionThread.traced_run {ι : Type} {i : ι} (thread : ExecutionThread) :
    thread.run.Traced i (ExecutionCall True) (fun _ _ => True) (fun _ _ => True) [] := by
  cases thread with
  | execute rule entry => exact Proc.Traced.bind traced_execute
  | retry job => exact traced_retry
  | close accountRef businessId actor =>
    exact Proc.Traced.bind ((traced_closing trivial).mono (fun _ _ _ => trivial) fun _ _ h => h)

/-! ### Runs -/

section Runs

variable {ι : Type}

/-- Once an execution is COMPLETED, FAILED or ARCHIVED, its status never changes. -/
def FinishedForGood (hist : List (Event ι World Env Call)) (w : World) : Prop :=
  ∀ m n : ℕ, m ≤ n → ∀ id status, (stateAt hist w m).db.executionStatus id = some status →
    status.finished = true → (stateAt hist w n).db.executionStatus id = some status

/-- Between the call by which a thread takes up an execution and the one by which it records an
outcome, no other thread finishes the execution, unless the outcome is the same. -/
def NotFinishedMeanwhile (hist : List (Event ι World Env Call)) : Prop :=
  ∀ r x ev, Intervenes hist r x ev → ∀ id finished status, TakesUp r id →
    x.before.db.executionStatus id ≠ some finished →
    x.after.db.executionStatus id = some finished → finished.finished = true →
    RecordsOutcome ev id status → status = finished

variable [DecidableEq ι] {threads : ι → ExecutionThread} {w₀ w : World}
  {hist : List (Event ι World Env Call)} {ps : ι → Action Unit}
  (run : Run (fun _ _ _ _ => True) (fun i => (threads i).run) w₀ hist ps w)
include run

/-- **Finished executions stay finished exactly where no outcome is recorded over a status that was
written after the work was taken up.** The threads are any executions, retries and closings, in any
order of their calls. -/
theorem finished_for_good_iff : FinishedForGood hist w ↔ NotFinishedMeanwhile hist := by
  constructor
  · intro hgood r x ev ⟨m, k, n, _, hkn, _, hk, hn, _⟩ id finished status _ _ hx hfinished hrecords
    have hwritten : (stateAt hist w (k + 1)).db.executionStatus id = some finished := by
      rw [run.stateAt_succ hk]
      exact hx
    have hstays := hgood (k + 1) (n + 1) (by omega) id finished hwritten hfinished
    rw [run.stateAt_succ hn, hrecords.executionStatus] at hstays
    exact Option.some.inj hstays
  · intro hmeanwhile m n hmn id finished hm hfinished
    by_contra hn
    obtain ⟨k, ev, -, -, hev, hbefore, hafter⟩ :=
      run.exists_change (P := fun w => w.db.executionStatus id = some finished) hmn hm hn
    cases (run.traced fun i => (threads i).traced_run).1 k ev hev with
    | same h =>
      rw [h.executionStatus] at hafter
      exact hafter hbefore
    | create h => exact hafter (h.executionStatus hbefore)
    | archive h => exact hafter (h.executionStatus hbefore hfinished)
    | @record id' status h works =>
      by_cases hid : id = id'
      · subst hid
        -- the thread had taken up the execution before it was finished
        obtain ⟨earlier, r, later, hcalls, htakes, hlater⟩ := works
        obtain ⟨x, hbetween, hxbefore, hxafter⟩ := run.exists_intervening_since
          (P := fun w => w.db.executionStatus id ≠ some finished) hev hcalls
          (fun y hy hne => by
            rcases List.mem_cons.1 hy with rfl | hy
            · exact htakes.after_ne hfinished
            · rw [(hlater y hy).executionStatus]
              exact hne)
          (htakes.before_ne hfinished) (not_not.2 hbefore)
        have hsame := hmeanwhile r x ev hbetween id finished status htakes hxbefore
          (not_not.1 hxafter) hfinished h
        rw [h.executionStatus, hsame] at hafter
        exact hafter rfl
      · rw [h.executionStatus_of_ne hid] at hafter
        exact hafter hbefore

end Runs

/-! ### Closing an account while a notification is delivered -/

namespace Sample

def notifyingRule : Rule where
  id := "rule1"
  accountId := "acc1"
  trigger := .inflowReceived
  condition := some { amountGte := some 1 }
  action := .notifyWebhook
  payload := some { url := some "https://shop.example/hook" }
  kycTierAtCreation := .tier1

/-- The first delivery of the notification has failed. -/
def retryingNotification : World :=
  { shop [] [notifyingRule] with db := { (shop [] [notifyingRule]).db with ruleExecutions := [{
      id := "exec1"
      ruleId := "rule1"
      accountId := "acc1"
      triggeredByLedgerEntryId := none
      triggeredBy := "evt1"
      status := .retrying
      attempt := 1 }] } }

/-- The notification is tried again, and the account is closed. -/
def retryAndClose : Bool → ExecutionThread
  | false => .retry { ruleExecutionId := "exec1", maxAttempts := 5, attemptsMade := 1 }
  | true => .close "shop" "biz" "ops"

/-- The calls of the two, in the order of `turns`. -/
def retryClose (turns : List Bool) :
    List (Event Bool World Env Call) × (Bool → Action Unit) × World :=
  exec (fun i => (retryAndClose i).run) retryingNotification (turns.map fun i => (i, {}))

theorem run_retryClose (turns : List Bool) :
    Run (fun _ _ _ _ => True) (fun i => (retryAndClose i).run) retryingNotification
      (retryClose turns).1 (retryClose turns).2.1 (retryClose turns).2.2 :=
  Run.of_exec _ _ _ fun _ _ => trivial

end Sample

/-- One after the other: the notification is delivered, and nothing is left to archive. -/
theorem finished_for_good_inTurn :
    let r := Sample.retryClose [false, false, false, false, true, true, true, true, true]
    r.2.2.db.executionStatus "exec1" = some .completed ∧ FinishedForGood r.1 r.2.2 := by
  refine ⟨by decide +kernel, ?_⟩
  rw [finished_for_good_iff (Sample.run_retryClose _)]
  intro r x ev hbetween
  exact absurd hbetween.overlapping (by decide +kernel)

/-- The account is closed while the notification is delivered. -/
theorem archived_execution_completes :
    let r := Sample.retryClose [false, true, true, true, true, true, false, false, false]
    (stateAt r.1 r.2.2 6).db.executionStatus "exec1" = some .archived ∧
      r.2.2.db.executionStatus "exec1" = some .completed ∧ ¬ FinishedForGood r.1 r.2.2 := by
  have harchived :
      let r := Sample.retryClose [false, true, true, true, true, true, false, false, false]
      (stateAt r.1 r.2.2 6).db.executionStatus "exec1" = some .archived := by decide +kernel
  have hcompleted :
      let r := Sample.retryClose [false, true, true, true, true, true, false, false, false]
      (stateAt r.1 r.2.2 9).db.executionStatus "exec1" = some .completed := by decide +kernel
  refine ⟨harchived, by decide +kernel, fun hgood => ?_⟩
  have hstays := hgood 6 9 (by decide) "exec1" .archived harchived rfl
  rw [hcompleted] at hstays
  cases hstays

end AccountOS
