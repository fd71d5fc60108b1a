import AccountOS.Conc.Retries
import AccountOS.Queue.Correctness.StrandedRetries
import AccountOS.Sql.Column
import AccountOS.Store.AuditLog

/-!
# The life of a retry job

BullMQ runs a retry job until `process` has returned, and it counts the attempts that have thrown.
`process` puts the same count into the execution's row and decides by it whether to throw. The two
agree: whatever the outcomes of the attempts are, the job's life is that of work that is attempted
at most `maxAttempts` times, as `AccountOS.Conc.Retries` describes it (`retry_life_cycle`).
The last attempt does not throw either, and so nothing ever reaches the dead letters
(`dead_letters_iff`).
-/

namespace AccountOS

open Conc Sql Retries RetryProcessor

/-! ### What is observed of a job -/

/-- An entry of the audit log with the dead letter of an execution. -/
def AuditLogEntry.isDeadLetterOf (id : String) (e : AuditLogEntry) : Bool :=
  e.action = .ruleActionFailed &&
    match e.metadata.lookup "deadLetter", e.metadata.lookup "ruleExecutionId" with
    | some (.bool true), some (.str x) => x = id
    | _, _ => false

def deadLetters (id : String) (w : World) : List AuditLogEntry :=
  w.auditLog.filter (·.isDeadLetterOf id)

/-- The execution that `process` finds, with the action of its rule. -/
def Db.retried (db : Db) (id : String) : Option (RuleExecution × RuleAction) :=
  (db.findRuleExecution id).map fun found => (found.execution, found.rule.action)

/-- Nothing happens to the execution and to its dead letters. -/
structure Untouched (id : String) (w w' : World) : Prop where
  retried : w'.db.retried id = w.db.retried id
  deadLetters : deadLetters id w' = deadLetters id w

/-- Of the account only that it is there is looked at. -/
theorem Db.retried_eq (db : Db) (id : String) :
    db.retried id = (db.ruleExecutions.find? fun x => x.id = id).bind fun x =>
      (db.findRule x.ruleId).bind fun r =>
        (db.findAccountById r.accountId).map fun _ => (x, r.action) := by
  unfold Db.retried Db.findRuleExecution
  simp [Option.map_eq_bind, Option.bind_assoc]

theorem SameExecutions.retried {w w' : World} (h : SameExecutions w w') (id : String) :
    w'.db.retried id = w.db.retried id := by
  have hrule : ∀ ruleId, w'.db.findRule ruleId = w.db.findRule ruleId := by
    intro ruleId
    rw [Db.findRule, h.configuration.rules, Db.findRule]
  have haccount : ∀ accountId, ∀ c : RuleExecution × RuleAction,
      ((w'.db.findAccountById accountId).map fun _ => c) =
        (w.db.findAccountById accountId).map fun _ => c := by
    intro accountId c
    have hforRule := congrArg (Option.map fun _ => c) (h.configuration.findAccountById accountId)
    rwa [Option.map_map, Option.map_map] at hforRule
  rw [Db.retried_eq, Db.retried_eq, h.ruleExecutions]
  simp only [hrule, haccount]

/-- Recording something of the execution. -/
theorem Db.retried_update {db db' : Db} {id : String} {data : RuleExecutionData}
    (h : db.updateRuleExecution id data = .ok db') :
    db'.retried id = (db.retried id).map fun found => (data.set found.1, found.2) := by
  obtain ⟨-, rfl⟩ := Db.updateRuleExecution_eq_ok.1 h
  have hfind : (updateRow RuleExecution.id id data.set db.ruleExecutions).find?
      (fun x => x.id = id) = (db.ruleExecutions.find? fun x => x.id = id).map data.set := by
    have hcolumn : columnOf RuleExecution.id (fun x => x) id
        (updateRow RuleExecution.id id data.set db.ruleExecutions) =
          columnOf RuleExecution.id (fun x => data.set x) id db.ruleExecutions :=
      columnOf_updateRow_self fun _ => rfl
    simpa [columnOf] using hcolumn
  rw [Db.retried_eq, Db.retried_eq]
  dsimp only
  rw [hfind]
  -- neither the rule nor the account of the execution is written
  cases db.ruleExecutions.find? fun x => x.id = id with
  | none => rfl
  | some x =>
    show ((db.findRule x.ruleId).bind _) = Option.map _ ((db.findRule x.ruleId).bind _)
    cases db.findRule x.ruleId with
    | none => rfl
    | some r =>
      show Option.map _ (db.findAccountById r.accountId) =
        Option.map _ (Option.map _ (db.findAccountById r.accountId))
      rw [Option.map_map]
      rfl

/-! ### One delivery -/

/-- The statements with which `process` reads and records the execution do not fail. -/
def Dependable (l : Call) (env : Env) (_ _ : World) : Prop :=
  match l with
  | .findRuleExecution _ | .updateRuleExecution _ => env.fault = none
  | _ => True

/-- The attempt of a rule's action, where `process` makes one. -/
def attempt (found : FoundExecution) (currentAttempt : ℕ) : Option (Action AttemptOutcome) :=
  match found.rule.action with
  | .releaseFunds => some (attemptRelease found currentAttempt)
  | .notifyWebhook => some (attemptNotify found)
  | _ => none

def RetryProcessor.AttemptOutcome.outcome (a : AttemptOutcome) : Outcome :=
  if a.ok then .ok else if a.terminal then .terminal else .transient

/-- **The attempt of a delivery has the outcome `o`**, when these are the environment's choices from
the start of the delivery on: the first one is for finding the execution, and the next ones are for
the calls of the attempt. -/
def AttemptEnds (job : RetryDelivery) (choices : List Env) (w : World) (o : Outcome) : Prop :=
  ∃ found p a w₁ first used later, w.db.findRuleExecution job.ruleExecutionId = some found ∧
    attempt found (job.attemptsMade + 1) = some p ∧ choices = first :: (used ++ later) ∧
    p.FinishesBy Dependable used w (.ok a) w₁ ∧ a.outcome = o

/-- `process` begins with finding the execution. -/
theorem finishesBy_process {job : RetryDelivery} {choices : List Env} {w w' : World}
    {r : Except Error Unit} :
    (process job).FinishesBy Dependable choices w r w' ↔
      ∃ first later, choices = first :: later ∧ first.fault = none ∧
        (match w.db.findRuleExecution job.ruleExecutionId with
          | none => return ()
          | some found =>
            if found.execution.status ∈ [RuleExecutionStatus.completed, .failed, .archived] then
              return ()
            else
              match attempt found (job.attemptsMade + 1) with
              | some p => p >>= settleOutcome job found
              | none => updateRuleExecution job.ruleExecutionId fun now =>
                  { status := .completed, completedAt := some now } : Action Unit).FinishesBy
          Dependable later w r w' := by
  unfold process
  rw [Proc.bind_eq, finishesBy_find_bind fun _ _ => Iff.rfl]
  cases w.db.findRuleExecution job.ruleExecutionId with
  | none => rfl
  | some found =>
    dsimp only
    split
    · rfl
    · unfold attempt
      cases found.rule.action <;> rfl

/-- **What a delivery is.** Of an execution that is not resolved, the attempt is made; either it
throws, or its outcome is settled. -/
theorem finishesBy_process_iff {job : RetryDelivery} {choices : List Env} {w w' : World}
    {r : Except Error Unit} {found : FoundExecution} {p : Action AttemptOutcome}
    (hfound : w.db.findRuleExecution job.ruleExecutionId = some found)
    (hopen : found.execution.status ∉ [RuleExecutionStatus.completed, .failed, .archived])
    (hattempt : attempt found (job.attemptsMade + 1) = some p) :
    (process job).FinishesBy Dependable choices w r w' ↔
      ∃ first later, choices = first :: later ∧ first.fault = none ∧
        ((∃ e, r = .error e ∧ p.FinishesBy Dependable later w (.error e) w') ∨
          ∃ a w₁ used rest, later = used ++ rest ∧ p.FinishesBy Dependable used w (.ok a) w₁ ∧
            (settleOutcome job found a).FinishesBy Dependable rest w₁ r w') := by
  rw [finishesBy_process, hfound]
  dsimp only
  rw [if_neg hopen, hattempt]
  simp only [Proc.bind_eq, Proc.finishesBy_bind_iff]

/-- **A delivery whose attempt has an outcome settles it.** -/
theorem settles_of_attemptEnds {job : RetryDelivery} {choices unused : List Env} {w w' : World}
    {r : Except Error Unit} {o : Outcome} {x : RuleExecution} {action : RuleAction}
    (hx : w.db.retried job.ruleExecutionId = some (x, action))
    (hopen : x.status ∉ [RuleExecutionStatus.completed, .failed, .archived])
    (run : (process job).FinishesBy Dependable choices w r w')
    (outcome : AttemptEnds job (choices ++ unused) w o) :
    ∃ found p a w₁, attempt found (job.attemptsMade + 1) = some p ∧
      p.Finishes Dependable w (.ok a) w₁ ∧ a.outcome = o ∧
      (settleOutcome job found a).Finishes Dependable w₁ r w' := by
  obtain ⟨found, p, a, w₁, first, used, later, hfound, hp, hchoices, hattempted, ho⟩ := outcome
  obtain ⟨found', hfound', hpair⟩ := Option.map_eq_some_iff.1 hx
  obtain rfl : found = found' := Option.some.inj (hfound.symm.trans hfound')
  obtain rfl : found.execution = x := congrArg Prod.fst hpair
  obtain ⟨first', rest, rfl, -, hrun⟩ := (finishesBy_process_iff hfound hopen hp).1 run
  rw [List.cons_append] at hchoices
  obtain ⟨-, hsame⟩ := List.cons.inj hchoices
  -- the attempt of the run and the one with the outcome get the same choices
  rcases hrun with ⟨e, -, hthrown⟩ | ⟨a', w₂, used', later', rfl, hattempted', hsettled⟩
  · obtain ⟨hresult, -, -⟩ := hthrown.unique hattempted hsame
    cases hresult
  · have hsame : used' ++ (later' ++ unused) = used ++ later := by rw [← List.append_assoc, hsame]
    obtain ⟨hresult, rfl, -⟩ := hattempted'.unique hattempted hsame
    obtain rfl : a' = a := Except.ok.inj hresult
    exact ⟨found, p, a', w₂, hp, Proc.finishes_iff_finishesBy.2 ⟨used, hattempted⟩, ho,
      Proc.finishes_iff_finishesBy.2 ⟨later', hsettled⟩⟩

/-- An execution that is resolved is left alone. -/
theorem process_resolved {job : RetryDelivery} {w w' : World} {r : Except Error Unit}
    {x : RuleExecution} {action : RuleAction}
    (hx : w.db.retried job.ruleExecutionId = some (x, action))
    (hresolved : x.status ∈ [RuleExecutionStatus.completed, .failed, .archived])
    (run : (process job).Finishes Dependable w r w') : r = .ok () ∧ w' = w := by
  obtain ⟨found, hfound, hpair⟩ := Option.map_eq_some_iff.1 hx
  obtain rfl : found.execution = x := congrArg Prod.fst hpair
  obtain ⟨choices, hrun⟩ := Proc.finishes_iff_finishesBy.1 run
  obtain ⟨first, later, -, -, hrest⟩ := finishesBy_process.1 hrun
  rw [hfound] at hrest
  dsimp only at hrest
  rw [if_pos hresolved] at hrest
  obtain ⟨-, hr, hw'⟩ := hrest
  exact ⟨hr, hw'⟩

/-- A delivery in which no call fails. -/
theorem finishesBy_process_runWith {env : Call → Env} (calm : ∀ l, (env l).fault = none)
    {job : RetryDelivery} {w w' : World} {found : FoundExecution} {p : Action AttemptOutcome}
    {a : AttemptOutcome} {o : Outcome} {r : Except Error Unit}
    (hfound : w.db.findRuleExecution job.ruleExecutionId = some found)
    (hopen : found.execution.status ∉ [RuleExecutionStatus.completed, .failed, .archived])
    (hattempt : attempt found (job.attemptsMade + 1) = some p)
    (ha : (p.runWith env w).1 = .ok a) (ho : a.outcome = o)
    (hsettled : (settleOutcome job found a).runWith env (p.runWith env w).2 = (r, w')) :
    ∃ choices, (process job).FinishesBy Dependable choices w r w' ∧
      AttemptEnds job (choices ++ []) w o := by
  have henv : ∀ l s s', Dependable l (env l) s s' := by
    intro l s s'
    unfold Dependable
    split
    · exact calm _
    · exact calm _
    · trivial
  have hrun := Proc.finishes_runWith_of henv p w
  have hsettle := Proc.finishes_runWith_of henv (settleOutcome job found a) (p.runWith env w).2
  rw [ha] at hrun
  rw [hsettled] at hsettle
  obtain ⟨used, hused⟩ := Proc.finishes_iff_finishesBy.1 hrun
  obtain ⟨later, hlater⟩ := Proc.finishes_iff_finishesBy.1 hsettle
  refine ⟨env (.findRuleExecution job.ruleExecutionId) :: (used ++ later), ?_, ?_⟩
  · exact (finishesBy_process_iff hfound hopen hattempt).2
      ⟨_, _, rfl, calm _, .inr ⟨a, _, used, later, rfl, hused, hlater⟩⟩
  · exact ⟨found, p, a, _, _, used, later, hfound, hattempt, List.append_nil _, hused, ho⟩

/-! ### The attempt -/

theorem keeps_audits_credit {allowed : Call → Env → World → World → Prop}
    {P : AuditLogEntry → Prop} (h : ∀ entry : AuditLogEntry, entry.action = .allocateFunds → P entry)
    (p : CreditParams) : (credit p).Keeps allowed (Audits P) :=
  Proc.Keeps.bind (keeps_runSerializable keeps_audits_transaction maxRetries) fun _ =>
    Proc.Keeps.bind (keeps_audits_audit (h _ rfl)) fun _ => trivial

theorem isDeadLetterOf_of_action {id : String} {entry : AuditLogEntry}
    (h : entry.action ≠ .ruleActionFailed) : entry.isDeadLetterOf id = false := by
  simp [AuditLogEntry.isDeadLetterOf, h]

/-- An attempt writes to the buckets and to the audit log alone, and no dead letter. -/
theorem untouched_attempt {allowed : Call → Env → World → World → Prop} {found : FoundExecution}
    {currentAttempt : ℕ} {p : Action AttemptOutcome} (h : attempt found currentAttempt = some p)
    {w w' : World} {r : Except Error AttemptOutcome} (run : p.Finishes allowed w r w')
    (id : String) : Untouched id w w' := by
  have hkeeps : p.Keeps allowed SameExecutions ∧
      p.Keeps allowed (Audits fun entry => entry.isDeadLetterOf id = false) := by
    unfold attempt at h
    split at h
    · cases h
      refine ⟨footprint_sameExecutions.keeps_attemptRelease fun _ => ⟨nofun, nofun⟩, ?_⟩
      exact attemptRelease_keeps (fun _ _ => keeps_audits_find)
        (keeps_audits_credit fun entry hentry => isDeadLetterOf_of_action (by simp [hentry]))
    · cases h
      exact ⟨footprint_sameExecutions.keeps_attemptNotify,
        attemptNotify_keeps fun _ => keeps_audits_deliver⟩
    · cases h
  obtain ⟨hexecutions, haudits⟩ := hkeeps
  exact ⟨(hexecutions.finishes .refl .trans run).retried id,
    (haudits.finishes .refl .trans run).filter_eq⟩

/-! ### Settling its outcome -/

/-- The status of an execution for what has become of its job. -/
def executionStatusOf : Status → RuleExecutionStatus
  | .due => .retrying
  | .done => .completed
  | .givenUp => .failed

/-- The execution after a run that has left the work at `status`. -/
structure Recorded (id : String) (action : RuleAction) (status : Status) (attempt : ℕ)
    (w : World) : Prop where
  retried : ∃ x, w.db.retried id = some (x, action) ∧ x.status = executionStatusOf status ∧
    x.attempt = attempt

theorem Recorded.sameData {id : String} {action : RuleAction} {status : Status} {attempt : ℕ}
    {w w' : World} (h : Recorded id action status attempt w) (hsame : World.SameData w w') :
    Recorded id action status attempt w' := by
  obtain ⟨x, hx⟩ := h.retried
  exact ⟨x, by rwa [hsame.db]⟩

theorem keeps_audits_settleOutcome {allowed : Call → Env → World → World → Prop}
    {job : RetryDelivery} {found : FoundExecution} {a : AttemptOutcome} (id : String) :
    (settleOutcome job found a).Keeps allowed
      (Audits fun entry => entry.isDeadLetterOf id = false) := by
  unfold settleOutcome
  dsimp only
  split
  · exact Proc.Keeps.bind keeps_audits_statement fun _ =>
      keeps_audits_audit (isDeadLetterOf_of_action (by simp))
  · split
    · refine Proc.Keeps.bind keeps_audits_statement fun _ => keeps_audits_audit ?_
      simp [AuditLogEntry.isDeadLetterOf, List.lookup_cons]
    · exact Proc.Keeps.bind keeps_audits_statement fun _ => trivial

/-- Recording what has become of an execution that is there. -/
theorem ensures_recorded {id : String} {action : RuleAction} {x : RuleExecution} {w : World}
    (hx : w.db.retried id = some (x, action)) (status : Status) {attempt : ℕ}
    {data : Nat → RuleExecutionData} (hstatus : ∀ now, (data now).status = executionStatusOf status)
    (hattempt : ∀ now, (data now).attempt = some attempt) :
    (updateRuleExecution id data).Ensures Dependable
      (fun _ w' => Recorded id action status attempt w') (fun _ _ => False) w := by
  have hmem : ∃ y ∈ w.db.ruleExecutions, y.id = id := by
    obtain ⟨found, hfound, -⟩ := Option.map_eq_some_iff.1 hx
    exact ⟨_, (Db.findRuleExecution_eq_some hfound).1⟩
  refine ensures_statement (fun env db w' _ _ hop hw' => ?_) fun env e w' hallowed _ hno => ?_
  · rw [hw']
    refine ⟨(data env.now).set x, ?_, hstatus env.now, ?_⟩
    · have hupdate := Db.retried_update hop
      rwa [hx] at hupdate
    · rw [RuleExecutionData.set, hattempt]
      rfl
  · exact hno hallowed _ (Db.updateRuleExecution_eq_ok.2 ⟨hmem, rfl⟩)

/-- **What becomes of the execution.** Its row says what the outcome leaves the work as, and the
run throws exactly if another attempt is due. -/
theorem finishes_settleOutcome {job : RetryDelivery} {found : FoundExecution} {a : AttemptOutcome}
    {action : RuleAction} {x : RuleExecution} {w w' : World} {r : Except Error Unit}
    (hx : w.db.retried job.ruleExecutionId = some (x, action))
    (run : (settleOutcome job found a).Finishes Dependable w r w') :
    Recorded job.ruleExecutionId action (a.outcome.settle (job.maxAttempts ≤ job.attemptsMade + 1))
        (job.attemptsMade + 1) w' ∧
      ((∃ e, r = .error e) ↔
        a.outcome.settle (job.maxAttempts ≤ job.attemptsMade + 1) = .due) := by
  -- what an outcome that ends the work records
  have hended : ∀ (status : Status) (data : Nat → RuleExecutionData) (entry : AuditLogEntry),
      status ≠ .due → (∀ now, (data now).status = executionStatusOf status) →
      (∀ now, (data now).attempt = some (job.attemptsMade + 1)) →
      ((updateRuleExecution job.ruleExecutionId data).bind fun _ => audit entry).Ensures Dependable
        (fun _ w' => Recorded job.ruleExecutionId action status (job.attemptsMade + 1) w' ∧
          status ≠ .due)
        (fun _ w' => Recorded job.ruleExecutionId action status (job.attemptsMade + 1) w' ∧
          status = .due) w := by
    intro status data entry hne hstatus hattempt
    refine Proc.Ensures.bind ((ensures_recorded hx status hstatus hattempt).mono
      (fun _ w' hw' => ?_) fun _ _ h => h.elim)
    exact ensures_audit fun w'' hsame => ⟨hw'.sameData hsame, hne⟩
  have h : (settleOutcome job found a).Ensures Dependable
      (fun _ w' => Recorded job.ruleExecutionId action
          (a.outcome.settle (job.maxAttempts ≤ job.attemptsMade + 1)) (job.attemptsMade + 1) w' ∧
        a.outcome.settle (job.maxAttempts ≤ job.attemptsMade + 1) ≠ .due)
      (fun _ w' => Recorded job.ruleExecutionId action
          (a.outcome.settle (job.maxAttempts ≤ job.attemptsMade + 1)) (job.attemptsMade + 1) w' ∧
        a.outcome.settle (job.maxAttempts ≤ job.attemptsMade + 1) = .due) w := by
    unfold settleOutcome AttemptOutcome.outcome
    dsimp only
    by_cases hok : a.ok = true
    · rw [if_pos hok, if_pos hok]
      exact hended .done _ _ (by rintro ⟨⟩) (fun _ => rfl) fun _ => rfl
    rw [if_neg hok, if_neg hok]
    by_cases hend : a.terminal = true ∨ job.maxAttempts ≤ job.attemptsMade + 1
    · have hsettle : (if a.terminal = true then Outcome.terminal else .transient).settle
          (job.maxAttempts ≤ job.attemptsMade + 1) = .givenUp := by
        by_cases hterminal : a.terminal = true
        · rw [if_pos hterminal, Outcome.settle]
        · rw [if_neg hterminal, Outcome.settle, if_pos (hend.resolve_left hterminal)]
      rw [if_pos hend, hsettle]
      exact hended .givenUp _ _ (by rintro ⟨⟩) (fun _ => rfl) fun _ => rfl
    · obtain ⟨hterminal, hlast⟩ := not_or.1 hend
      rw [if_neg hend, if_neg hterminal, Outcome.settle, if_neg hlast]
      refine Proc.Ensures.bind ((ensures_recorded hx .due (fun _ => rfl) fun _ => rfl).mono
        (fun _ w' hw' => ?_) fun _ _ h => h.elim)
      exact ⟨hw', rfl⟩
  obtain ⟨hreturns, hthrows⟩ := h.sound run
  cases r with
  | ok u =>
    obtain ⟨hrecorded, hdue⟩ := hreturns u rfl
    exact ⟨hrecorded, ⟨by rintro ⟨e, ⟨⟩⟩, fun hdue' => absurd hdue' hdue⟩⟩
  | error e =>
    obtain ⟨hrecorded, hdue⟩ := hthrows e rfl
    exact ⟨hrecorded, ⟨fun _ => hdue, fun _ => ⟨e, rfl⟩⟩⟩

/-! ### The life of the job -/

/-- The worker's world, the job while it is live, the number of its runs so far and the alerts that
they have raised. -/
structure Life where
  world : World
  job : List LiveJob
  runs : ℕ := 0
  alerts : List CriticalAlert := []

/-- What the worker does after a run: BullMQ emits `failed` if it has thrown. -/
inductive Handles (job : RetryDelivery) (jobId : String) (w : World) :
    Except Error Unit → List CriticalAlert → World → Prop
  | completed : Handles job jobId w (.ok ()) [] w
  | failed {e : Error} {raised : List CriticalAlert} {w' : World}
      (run : (onFailed { job with attemptsMade := job.attemptsMade + 1 } jobId e).Finishes
        (fun _ _ _ _ => True) w (.ok raised) w') : Handles job jobId w (.error e) raised w'

/-- The next run of the job, a run of `process` in an environment in which the attempt has the outcome
that is next in `o`; or somebody else does something that has nothing to do with the execution. -/
inductive LifeStep (id jobId : String) (o : ℕ → Outcome) (s : Life) : Life → Prop
  | elsewhere {w : World} (untouched : Untouched id s.world w) :
      LifeStep id jobId o s { s with world := w }
  | run {j : LiveJob} {choices unused : List Env} {r : Except Error Unit} {w : World}
      {raised : List CriticalAlert} {w' : World} (live : s.job = [j])
      (finishes : (process j.delivery).FinishesBy Dependable choices s.world r w)
      (outcome : AttemptEnds j.delivery (choices ++ unused) s.world (o s.runs))
      (handled : Handles j.delivery jobId w r raised w') :
      LifeStep id jobId o s ⟨w', j.rest r, s.runs + 1, s.alerts ++ raised⟩

/-- The job of an execution has `n` attempts, of which `runs` have been made. -/
structure LiveJob.IsFor (id : String) (n runs : ℕ) (j : LiveJob) : Prop where
  ruleExecutionId : j.job.ruleExecutionId = id
  maxAttempts : j.job.maxAttempts = n
  attempts : j.job.attempts = n
  attemptsMade : j.attemptsMade = runs

/-- Before the first run: the execution is RETRYING, and its job is live. -/
structure Life.Initial (id : String) (n : ℕ) (s : Life) : Prop where
  retrying : ∃ x action, s.world.db.retried id = some (x, action) ∧ x.status = .retrying ∧
    (action = .releaseFunds ∨ action = .notifyWebhook)
  job : ∃ j, s.job = [j] ∧ j.IsFor id n 0
  runs : s.runs = 0

/-- **The job follows the abstract retries**: the runs that have been made were due, the
execution's row says what has become of them, and the job is live while another run is due. Nothing
is said about its failures. -/
structure Life.Follows (id : String) (n : ℕ) (o : ℕ → Outcome) (s₀ s : Life) : Prop where
  reached : Reached n o s.runs
  retried : ∃ x action, s.world.db.retried id = some (x, action) ∧
    x.status = executionStatusOf (statusAfter n o s.runs) ∧ (0 < s.runs → x.attempt = s.runs)
  job : statusAfter n o s.runs = .due → ∃ j, s.job = [j] ∧ j.IsFor id n s.runs
  ended : statusAfter n o s.runs ≠ .due → s.job = []
  alerts : s.alerts = s₀.alerts
  letters : deadLetters id s.world = deadLetters id s₀.world

/-- **A run that throws has attempts left**, so that its failure is not a dead letter yet. -/
theorem Handles.quiet {jobId : String} {job : RetryDelivery} {w w' : World} {r : Except Error Unit}
    {raised : List CriticalAlert} (h : Handles job jobId w r raised w')
    (hleft : (∃ e, r = .error e) → job.attemptsMade + 1 < job.maxAttempts) :
    raised = [] ∧ w' = w := by
  cases h with
  | completed => exact ⟨rfl, rfl⟩
  | @failed e _ _ run =>
    rw [onFailed, if_pos (hleft ⟨e, rfl⟩)] at run
    obtain ⟨hraised, hw'⟩ := Proc.finishes_ret_iff.1 run
    exact ⟨Except.ok.inj hraised, hw'⟩

namespace Life

variable {id jobId : String} {n : ℕ} {o : ℕ → Outcome} {s₀ s s' : Life}

theorem Initial.follows (h : s.Initial id n) : Follows id n o s s := by
  obtain ⟨⟨x, action, hx, hstatus, -⟩, hjob, hruns⟩ := h
  refine ⟨?_, ⟨x, action, hx, ?_, ?_⟩, ?_, ?_, rfl, rfl⟩
  · rw [hruns]
    exact reached_zero
  · rw [hstatus, hruns]
    rfl
  · rw [hruns]
    nofun
  · rw [hruns]
    exact fun _ => hjob
  · rw [hruns]
    exact fun hover => absurd rfl hover

/-- What is left of the job after a run. -/
theorem rest_eq {j : LiveJob} {r : Except Error Unit} {runs : ℕ} (hj : j.IsFor id n runs)
    (hr : (∃ e, r = .error e) ↔ (o runs).settle (n ≤ runs + 1) = .due) :
    (statusAfter n o (runs + 1) = .due → ∃ j', j.rest r = [j'] ∧ j'.IsFor id n (runs + 1)) ∧
      (statusAfter n o (runs + 1) ≠ .due → j.rest r = []) := by
  constructor
  · intro hdue
    obtain ⟨e, rfl⟩ := hr.2 hdue
    have hlast : ¬ n ≤ runs + 1 := (Outcome.settle_eq_due_iff.1 hdue).2
    have hmore : j.attemptsMade + 1 < j.job.attempts := by
      rw [hj.attemptsMade, hj.attempts]
      omega
    refine ⟨{ j with attemptsMade := j.attemptsMade + 1 }, ?_, hj.ruleExecutionId, hj.maxAttempts,
      hj.attempts, ?_⟩
    · rw [LiveJob.rest, LiveJob.failed, if_pos hmore]
    · show j.attemptsMade + 1 = runs + 1
      rw [hj.attemptsMade]
  · intro hover
    cases r with
    | ok u => rfl
    | error e => exact absurd (hr.1 ⟨e, rfl⟩) hover

/-- One step of the life. -/
theorem Follows.step (h : Follows id n o s₀ s) (hstep : LifeStep id jobId o s s') :
    Follows id n o s₀ s' := by
  obtain ⟨x, action, hx, hstatus, hattempt⟩ := h.retried
  cases hstep with
  | elsewhere untouched =>
    refine ⟨h.reached, ⟨x, action, ?_, hstatus, hattempt⟩, h.job, h.ended, h.alerts, ?_⟩
    · exact untouched.retried.trans hx
    · exact untouched.deadLetters.trans h.letters
  | @run j choices unused r w raised w' live finishes outcome handled =>
    -- a job that is live is due
    have hdue : statusAfter n o s.runs = .due := by
      by_contra hover
      rw [h.ended hover] at live
      cases live
    obtain ⟨j', hlive, hj⟩ := h.job hdue
    obtain rfl : j = j' := List.singleton_injective (live.symm.trans hlive)
    have hid : j.delivery.ruleExecutionId = id := hj.ruleExecutionId
    have hmax : j.delivery.maxAttempts = n := hj.maxAttempts
    have hmade : j.delivery.attemptsMade = s.runs := hj.attemptsMade
    have hx₀ : s.world.db.retried j.delivery.ruleExecutionId = some (x, action) := by rw [hid, hx]
    have hopen : x.status ∉ [RuleExecutionStatus.completed, .failed, .archived] := by
      rw [hstatus, hdue]
      decide
    obtain ⟨found, p, a, w₁, hp, hattempted, houtcome, hsettled⟩ :=
      settles_of_attemptEnds hx₀ hopen finishes outcome
    have huntouched := untouched_attempt hp hattempted id
    have hx₁ : w₁.db.retried j.delivery.ruleExecutionId = some (x, action) := by
      rw [hid, huntouched.retried, hx]
    obtain ⟨⟨x', hx', hstatus', hattempt'⟩, hthrows⟩ := finishes_settleOutcome hx₁ hsettled
    rw [houtcome, hmax, hmade] at hthrows hstatus'
    rw [hid] at hx'
    -- the last attempt does not throw, and so `onFailed` finds attempts left
    obtain ⟨rfl, rfl⟩ := handled.quiet fun hthrown => by
      have hlast : ¬ n ≤ s.runs + 1 := (Outcome.settle_eq_due_iff.1 (hthrows.1 hthrown)).2
      rw [hmax, hmade]
      omega
    have hdead : deadLetters id w' = deadLetters id w₁ :=
      ((keeps_audits_settleOutcome id).finishes .refl .trans hsettled).filter_eq
    obtain ⟨hrest, hnone⟩ := rest_eq hj hthrows
    refine ⟨h.reached.succ hdue, ⟨x', action, hx', hstatus', fun _ => ?_⟩, hrest, hnone, ?_, ?_⟩
    · rw [hattempt', hmade]
    · rw [h.alerts, List.append_nil]
    · rw [hdead, huntouched.deadLetters, h.letters]

theorem Initial.follows_run (h₀ : s₀.Initial id n)
    (run : Relation.ReflTransGen (LifeStep id jobId o) s₀ s) : Follows id n o s₀ s := by
  induction run with
  | refl => exact h₀.follows
  | tail _ hstep ih => exact ih.step hstep

end Life

/-- **The life cycle of a retry.** Let the job of a RETRYING execution have `n ≥ 1` attempts, and
let `o` be the outcomes of the attempts in its runs of `process`. Then at any time at most `n` runs
have been made; the execution is RETRYING exactly while another run is due; when none is, it is
COMPLETED if the first outcome that is not transient among the first `n` is `ok`, and FAILED
otherwise; after each run `attempt` is the number of runs; and a delivery after the end does
nothing. -/
theorem retry_life_cycle {id jobId : String} {n : ℕ} (hn : 0 < n) {o : ℕ → Outcome} {s₀ s : Life}
    (h₀ : s₀.Initial id n) (run : Relation.ReflTransGen (LifeStep id jobId o) s₀ s) :
    s.runs ≤ n ∧
      (∃ x action, s.world.db.retried id = some (x, action) ∧
        (x.status = .retrying ↔ s.job ≠ []) ∧
        (s.job = [] → x.status =
          if ((List.range n).map o).find? (· ≠ .transient) = some .ok then .completed
          else .failed) ∧
        (0 < s.runs → x.attempt = s.runs)) ∧
      (s.job = [] → ∀ made r w', (process ⟨id, n, made⟩).Finishes Dependable s.world r w' →
        r = .ok () ∧ w' = s.world) := by
  have h : Life.Follows id n o s₀ s := h₀.follows_run run
  obtain ⟨x, action, hx, hstatus, hattempt⟩ := h.retried
  -- the job is live exactly while another run is due
  have hlive : s.job ≠ [] ↔ statusAfter n o s.runs = .due := by
    constructor
    · exact fun hjob => by_contra fun hover => hjob (h.ended hover)
    · intro hdue hjob
      obtain ⟨j, hj, -⟩ := h.job hdue
      rw [hj] at hjob
      cases hjob
  have hover : s.job = [] → x.status = executionStatusOf (verdict n o) ∧
      statusAfter n o s.runs ≠ .due := by
    intro hjob
    have hover : statusAfter n o s.runs ≠ .due := fun hdue => hlive.2 hdue hjob
    refine ⟨?_, hover⟩
    rw [hstatus, statusAfter_eq_verdict h.reached hn hover]
  refine ⟨h.reached.le hn, ⟨x, action, hx, ?_, ?_, hattempt⟩, ?_⟩
  · rw [hlive, hstatus]
    cases statusAfter n o s.runs <;> simp [executionStatusOf]
  · intro hjob
    rw [(hover hjob).1, verdict]
    split
    next hfirst => rw [if_pos hfirst, executionStatusOf]
    next hfirst => rw [if_neg hfirst, executionStatusOf]
  · intro hjob made r w' hrun
    refine process_resolved hx ?_ hrun
    have hended := (hover hjob).2
    rw [hstatus]
    cases hcase : statusAfter n o s.runs with
    | due => exact absurd hcase hended
    | done => simp [executionStatusOf]
    | givenUp => simp [executionStatusOf]

namespace Sample

/-- The business could not be notified of an order. -/
def unnotified : World :=
  let w := shop [] [notifyOfOrders]
  { w with db := { w.db with
    ruleExecutions := [{
      id := "exec1", ruleId := "rule1", accountId := "acc1", triggeredByLedgerEntryId := none
      triggeredBy := "evt1", status := .retrying, attempt := 1 }] } }

/-- The job of the execution, with two attempts. -/
def notifyJob : LiveJob where
  job := {
    ruleExecutionId := "exec1", attempt := 1, maxAttempts := 2, errorMessage := some "timeout"
    delay := 60000, attempts := 2, backoffDelay := 60000 }

def unnotifiedLife : Life where
  world := unnotified
  job := [notifyJob]

theorem initial_unnotifiedLife : unnotifiedLife.Initial "exec1" 2 where
  retrying := ⟨_, _, rfl, rfl, .inr rfl⟩
  job := ⟨_, rfl, rfl, rfl, rfl, rfl⟩
  runs := rfl

/-- What the business answers to the next attempt. -/
def answering (delivery : Except String Nat) (_ : Call) : Env := { delivery }

theorem calm_answering (delivery : Except String Nat) (l : Call) :
    (answering delivery l).fault = none := rfl

theorem unresolved : RuleExecutionStatus.retrying ∉
    [RuleExecutionStatus.completed, .failed, .archived] := by decide

/-- The world after the next attempt. -/
def answered (made : ℕ) (delivery : Except String Nat) (w : World) : World :=
  ((process ⟨"exec1", 2, made⟩).runWith (answering delivery) w).2

/-- The job for its second attempt. -/
def notifyAgain : LiveJob := { notifyJob with attemptsMade := 1 }

/-- The first attempt fails. -/
def notifiedOnce : Life where
  world := answered 0 (.error "timeout") unnotified
  job := [notifyAgain]
  runs := 1

/-- So does the second one. -/
def notifiedInVain : Life where
  world := answered 1 (.error "timeout") notifiedOnce.world
  job := []
  runs := 2

/-- The second one succeeds. -/
def notifiedTwice : Life where
  world := answered 1 (.ok 200) notifiedOnce.world
  job := []
  runs := 2

theorem step_notifiedOnce {o : ℕ → Outcome} (ho : o 0 = .transient) :
    LifeStep "exec1" "job1" o unnotifiedLife notifiedOnce := by
  have served : ∃ choices, (process notifyJob.delivery).FinishesBy Dependable choices unnotified
      (.error (.other "timeout")) notifiedOnce.world ∧
        AttemptEnds notifyJob.delivery (choices ++ []) unnotified .transient :=
    finishesBy_process_runWith (calm_answering (.error "timeout")) rfl unresolved rfl rfl rfl rfl
  obtain ⟨choices, finishes, outcome⟩ := served
  have handled : Handles notifyJob.delivery "job1" notifiedOnce.world (.error (.other "timeout")) []
      notifiedOnce.world := .failed (Proc.finishes_ret_iff.2 ⟨rfl, rfl⟩)
  exact .run rfl finishes (ho.symm ▸ outcome) handled

theorem step_notifiedInVain {o : ℕ → Outcome} (ho : o 1 = .transient) :
    LifeStep "exec1" "job1" o notifiedOnce notifiedInVain := by
  have served : ∃ choices, (process notifyAgain.delivery).FinishesBy Dependable choices
      notifiedOnce.world (.ok ()) notifiedInVain.world ∧
        AttemptEnds notifyAgain.delivery (choices ++ []) notifiedOnce.world .transient :=
    finishesBy_process_runWith (calm_answering (.error "timeout")) rfl unresolved rfl rfl rfl rfl
  obtain ⟨choices, finishes, outcome⟩ := served
  exact .run rfl finishes (ho.symm ▸ outcome) .completed

theorem step_notifiedTwice {o : ℕ → Outcome} (ho : o 1 = .ok) :
    LifeStep "exec1" "job1" o notifiedOnce notifiedTwice := by
  have served : ∃ choices, (process notifyAgain.delivery).FinishesBy Dependable choices
      notifiedOnce.world (.ok ()) notifiedTwice.world ∧
        AttemptEnds notifyAgain.delivery (choices ++ []) notifiedOnce.world .ok :=
    finishesBy_process_runWith (calm_answering (.ok 200)) rfl unresolved rfl rfl rfl rfl
  obtain ⟨choices, finishes, outcome⟩ := served
  exact .run rfl finishes (ho.symm ▸ outcome) .completed

end Sample

/-- Delivered by the second attempt. -/
theorem retry_life_cycle_notified :
    Sample.notifiedTwice.runs ≤ 2 ∧
      ∃ x action, Sample.notifiedTwice.world.db.retried "exec1" = some (x, action) ∧
        x.status = .completed ∧ x.attempt = 2 := by
  have run : Relation.ReflTransGen
      (LifeStep "exec1" "job1" fun k => if k = 0 then .transient else .ok)
      Sample.unnotifiedLife Sample.notifiedTwice :=
    .tail (.single (Sample.step_notifiedOnce rfl)) (Sample.step_notifiedTwice rfl)
  obtain ⟨hle, ⟨x, action, hx, -, hstatus, hattempt⟩, -⟩ :=
    retry_life_cycle Nat.two_pos Sample.initial_unnotifiedLife run
  exact ⟨hle, x, action, hx, (hstatus rfl).trans (by decide), hattempt Nat.two_pos⟩

/-- What the dead letters of a job are to be when it is over: one entry of the audit log and one
alert when all `n` attempts have failed transiently, and none otherwise. -/
def DeadLettersWritten (id : String) (n : ℕ) (o : ℕ → Outcome) (s₀ s : Life) : Prop :=
  ((∀ k < n, o k = .transient) →
      (deadLetters id s.world).length = (deadLetters id s₀.world).length + 1 ∧
        s.alerts.length = s₀.alerts.length + 1) ∧
    ((∃ k < n, o k ≠ .transient) →
      (deadLetters id s.world).length = (deadLetters id s₀.world).length ∧
        s.alerts.length = s₀.alerts.length)

/-- **When the dead letters are right.** No run of the job leads to a dead letter, and so they are
right exactly if not all attempts fail transiently. -/
theorem dead_letters_iff {id jobId : String} {n : ℕ} {o : ℕ → Outcome} {s₀ s : Life}
    (h₀ : s₀.Initial id n) (run : Relation.ReflTransGen (LifeStep id jobId o) s₀ s) :
    DeadLettersWritten id n o s₀ s ↔ ∃ k < n, o k ≠ .transient := by
  have h : Life.Follows id n o s₀ s := h₀.follows_run run
  unfold DeadLettersWritten
  rw [h.letters, h.alerts]
  constructor
  · rintro ⟨hexhausted, -⟩
    by_contra hall
    have hall : ∀ k < n, o k = .transient := fun k hk => by_contra fun hne => hall ⟨k, hk, hne⟩
    have := (hexhausted hall).2
    omega
  · rintro ⟨k, hk, hne⟩
    exact ⟨fun hall => absurd (hall k hk) hne, fun _ => ⟨rfl, rfl⟩⟩

/-- Delivered by the second attempt, and without a dead letter. -/
theorem dead_letters_iff_notified :
    DeadLettersWritten "exec1" 2 (fun k => if k = 0 then .transient else .ok)
      Sample.unnotifiedLife Sample.notifiedTwice :=
  (dead_letters_iff Sample.initial_unnotifiedLife
    (.tail (.single (Sample.step_notifiedOnce rfl)) (Sample.step_notifiedTwice rfl))).2
      ⟨1, Nat.one_lt_two, nofun⟩

/-- **Nobody hears of an exhausted retry.** Both attempts fail transiently; the execution is FAILED
and the job is over, with no dead letter and no alert. -/
theorem exhausted_retry_unheard :
    Relation.ReflTransGen (LifeStep "exec1" "job1" fun _ => .transient) Sample.unnotifiedLife
        Sample.notifiedInVain ∧
      Sample.notifiedInVain.job = [] ∧
      (Sample.notifiedInVain.world.db.retried "exec1").map (·.1.status) = some .failed ∧
      deadLetters "exec1" Sample.notifiedInVain.world = [] ∧ Sample.notifiedInVain.alerts = [] ∧
      ¬ DeadLettersWritten "exec1" 2 (fun _ => .transient) Sample.unnotifiedLife
        Sample.notifiedInVain := by
  refine ⟨.tail (.single (Sample.step_notifiedOnce rfl)) (Sample.step_notifiedInVain rfl), rfl, rfl,
    rfl, rfl, fun hwritten => ?_⟩
  have hone := (hwritten.1 fun _ _ => rfl).2
  cases hone

end AccountOS
