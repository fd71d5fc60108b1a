import AccountOS.Queue.Correctness.Configuration
import AccountOS.Queue.Correctness.Footprint
import AccountOS.Queue.Jobs

/-!
# Retries that nobody makes

The engine marks an execution RETRYING and leaves it to the caller to enqueue the retry job. The
loop over the rules of an inflow does so; the loop over the rules of a custom event drops the
results, and an execution that it has marked RETRYING stays so for ever
(`retry_never_enqueued`). When the notifications and the allocations of custom events succeed,
every RETRYING execution has a live job in the retry queue (`retrying_executions_have_jobs`).
-/

namespace AccountOS

open Conc Sql

/-! ### The statement -/

/-- Every RETRYING execution has a live job in the retry queue. -/
def QueueState.NoneStranded (s : QueueState) : Prop :=
  ∀ x ∈ s.world.db.ruleExecutions, x.status = .retrying →
    ∃ j ∈ s.retryJobs, j.job.ruleExecutionId = x.id

/-- Only deliveries and allocations may fail, and a generated id is not empty. -/
def Undisturbed (l : Call) (env : Env) (_ _ : World) : Prop :=
  env.row.id ≠ "" ∧
    match l with
    | .credit .. => True
    | _ => env.fault = none

/-- A delivery is answered, and an allocation finds its reference taken, so that it has nothing to
insert. An allocation for a custom event that has to insert an entry always fails, for want of a
ledger entry that it could refer to. -/
def Served (l : Call) (env : Env) (w : World) : Prop :=
  match l with
  | .deliver _ => env.delivery.isOk = true
  | .credit _ reference _ =>
    env.fault = none ∧ ∃ e ∈ w.db.bucketLedgerEntries, e.reference = reference
  | _ => True

/-- An undisturbed call, which is served when `strict` holds. -/
def Orderly (strict : Prop) (l : Call) (env : Env) (w w' : World) : Prop :=
  Undisturbed l env w w' ∧ (strict → Served l env w)

/-- Before the first job: nothing is RETRYING, the retry queue is empty, and the keys and foreign
keys of the database are as PostgreSQL keeps them. -/
structure QueueState.Initial (s : QueueState) : Prop where
  unique : s.world.db.UniqueColumns
  ruleOf : ∀ x ∈ s.world.db.ruleExecutions, ∃ r ∈ s.world.db.rules, r.id = x.ruleId
  accountOf : ∀ r ∈ s.world.db.rules, ∃ a ∈ s.world.db.accounts, a.id = r.accountId
  notRetrying : ∀ x ∈ s.world.db.ruleExecutions, x.status ≠ .retrying
  retryQueue : s.world.retryQueue = []
  retryJobs : s.retryJobs = []

/-! ### The invariant of a worker -/

/-- A retry of the rule computes its amount, when it has one to compute. -/
def Retryable (db₀ : Db) (ruleId : String) : Prop :=
  ∀ r ∈ db₀.rules, r.id = ruleId → r.action = .releaseFunds →
    ∀ inflow e, releaseAmount (r.payload.getD {}) inflow ≠ some (.error e)

/-- While a worker is at it: every RETRYING execution is among those in `live`, or its job has been
put on the queue. -/
structure Attended (db₀ : Db) (live : List String) (w : World) : Prop where
  unique : w.db.UniqueColumns
  configuration : SameConfiguration db₀ w.db
  ruleOf : ∀ x ∈ w.db.ruleExecutions, ∃ r ∈ db₀.rules, r.id = x.ruleId
  retrying : ∀ x ∈ w.db.ruleExecutions, x.status = .retrying →
    Retryable db₀ x.ruleId ∧
      (x.id ∈ live ∨ ∃ job ∈ w.retryQueue, job.ruleExecutionId = x.id)
  jobs : ∀ job ∈ w.retryQueue, job.maxAttempts ≤ job.attempts

/-- Nothing happens to the executions, to the retry queue or to the configuration. -/
structure SameExecutions (w w' : World) : Prop where
  ruleExecutions : w'.db.ruleExecutions = w.db.ruleExecutions
  retryQueue : w'.retryQueue = w.retryQueue
  configuration : SameConfiguration w.db w'.db
  unique : w.db.UniqueColumns → w'.db.UniqueColumns

namespace SameExecutions

@[refl] theorem refl (w : World) : SameExecutions w w := ⟨rfl, rfl, .refl _, id⟩

theorem trans (w w' w'' : World) (h : SameExecutions w w') (h' : SameExecutions w' w'') :
    SameExecutions w w'' where
  ruleExecutions := h'.ruleExecutions.trans h.ruleExecutions
  retryQueue := h'.retryQueue.trans h.retryQueue
  configuration := h.configuration.trans h'.configuration
  unique hu := h'.unique (h.unique hu)

theorem of_sameData {w w' : World} (h : World.SameData w w') : SameExecutions w w' where
  ruleExecutions := by rw [h.db]
  retryQueue := h.retryQueue
  configuration := h.db ▸ .refl w.db
  unique hu := by
    rw [h.db]
    exact hu

end SameExecutions

/-- The statements that write executions. -/
def WriteOp.Executes : WriteOp → Prop
  | createRuleExecution _ | updateRuleExecution .. | archiveExecutions _ => True
  | _ => False

theorem WriteOp.ruleExecutions_of_apply {o : WriteOp} {db db' : Db} (hop : o.apply db = .ok db')
    (ho : ¬ o.Executes) : db'.ruleExecutions = db.ruleExecutions := by
  refine (WriteOp.sameExcept hop).ruleExecutions ?_
  cases o with
  | createRuleExecution | updateRuleExecution | archiveExecutions => exact absurd trivial ho
  | _ => rintro ⟨⟩

theorem SameExecutions.of_apply {o : WriteOp} {w w' : World} {db : Db}
    (hop : o.apply w.db = .ok db) (hw' : w' = { w with db }) (hexec : ¬ o.Executes)
    (hconf : ¬ o.Configures) : SameExecutions w w' := by
  subst hw'
  exact ⟨WriteOp.ruleExecutions_of_apply hop hexec, rfl, .of_apply hop hconf,
    fun hu => hu.apply hop⟩

/-- The statements that leave the executions alone. -/
theorem footprint_sameExecutions :
    Footprint (fun o => ¬ o.Executes ∧ ¬ o.Configures) SameExecutions where
  sameData h := .of_sameData h
  writes ho hop hw' := .of_apply hop hw' ho.1 ho.2

/-! ### The invariant and the executions -/

namespace Attended

variable {db₀ : Db} {live : List String} {w w' : World}

theorem frame (h : Attended db₀ live w) (hw : SameExecutions w w') : Attended db₀ live w' where
  unique := hw.unique h.unique
  configuration := h.configuration.trans hw.configuration
  ruleOf := by
    rw [hw.ruleExecutions]
    exact h.ruleOf
  retrying := by
    rw [hw.ruleExecutions, hw.retryQueue]
    exact h.retrying
  jobs := by
    rw [hw.retryQueue]
    exact h.jobs

theorem sameData (h : Attended db₀ live w) (hw : World.SameData w w') : Attended db₀ live w' :=
  h.frame (.of_sameData hw)

theorem mono {live' : List String} (h : Attended db₀ live w) (hlive : live ⊆ live') :
    Attended db₀ live' w where
  unique := h.unique
  configuration := h.configuration
  ruleOf := h.ruleOf
  retrying x hx hstatus := by
    obtain ⟨hretry, hjob⟩ := h.retrying x hx hstatus
    exact ⟨hretry, hjob.imp (fun hmem => hlive hmem) id⟩
  jobs := h.jobs

/-- A job that is done has left no RETRYING execution behind. -/
theorem discard {x : String} (h : Attended db₀ (x :: live) w)
    (hx : ∀ y ∈ w.db.ruleExecutions, y.id = x → y.status ≠ .retrying) : Attended db₀ live w where
  unique := h.unique
  configuration := h.configuration
  ruleOf := h.ruleOf
  retrying y hy hstatus := by
    obtain ⟨hretry, hjob⟩ := h.retrying y hy hstatus
    refine ⟨hretry, hjob.imp (fun hmem => ?_) id⟩
    rcases List.mem_cons.1 hmem with heq | hmem
    · exact absurd hstatus (hx y hy heq)
    · exact hmem
  jobs := h.jobs

/-- A new execution is PENDING. -/
theorem create {x : RuleExecution} {db : Db} (h : Attended db₀ live w)
    (hop : w.db.createRuleExecution x = .ok db) (hstatus : x.status = .pending) :
    Attended db₀ live { w with db } where
  unique := Db.UniqueColumns.apply (o := .createRuleExecution x) hop h.unique
  configuration := h.configuration.apply (o := .createRuleExecution x) hop id
  ruleOf y hy := by
    obtain ⟨-, ⟨r, hr, hid⟩, -, -, rfl⟩ := Db.createRuleExecution_eq_ok.1 hop
    rcases List.mem_append.1 hy with hy | hy
    · exact h.ruleOf y hy
    · obtain rfl := List.mem_singleton.1 hy
      exact ⟨r, h.configuration.rules ▸ hr, hid⟩
  retrying y hy hretrying := by
    obtain ⟨-, -, -, -, rfl⟩ := Db.createRuleExecution_eq_ok.1 hop
    rcases List.mem_append.1 hy with hy | hy
    · exact h.retrying y hy hretrying
    · obtain rfl := List.mem_singleton.1 hy
      rw [hstatus] at hretrying
      cases hretrying
  jobs := h.jobs

/-- What an update leaves of the executions: the others, and `x` with its new columns. -/
theorem of_update {x : String} {data : RuleExecutionData} {db : Db}
    (hop : w.db.updateRuleExecution x data = .ok db) {y : RuleExecution}
    (hy : y ∈ db.ruleExecutions) :
    (y ∈ w.db.ruleExecutions ∧ y.id ≠ x) ∨
      ∃ z ∈ w.db.ruleExecutions, z.id = x ∧ y.id = x ∧ y.ruleId = z.ruleId ∧
        y.status = data.status := by
  obtain ⟨-, rfl⟩ := Db.updateRuleExecution_eq_ok.1 hop
  obtain ⟨z, hz, rfl⟩ := mem_updateRow.1 hy
  by_cases hid : z.id = x
  · rw [if_pos hid]
    exact .inr ⟨z, hz, hid, hid, rfl, rfl⟩
  · rw [if_neg hid]
    exact .inl ⟨hz, hid⟩

theorem update {x : String} {data : RuleExecutionData} {db : Db} (h : Attended db₀ (x :: live) w)
    (hop : w.db.updateRuleExecution x data = .ok db)
    (hretry : data.status = .retrying →
      ∀ y ∈ w.db.ruleExecutions, y.id = x → Retryable db₀ y.ruleId) :
    Attended db₀ (x :: live) { w with db } where
  unique := Db.UniqueColumns.apply (o := .updateRuleExecution x data) hop h.unique
  configuration := h.configuration.apply (o := .updateRuleExecution x data) hop id
  ruleOf y hy := by
    rcases of_update hop hy with ⟨hy, -⟩ | ⟨z, hz, -, -, hrule, -⟩
    · exact h.ruleOf y hy
    · rw [hrule]
      exact h.ruleOf z hz
  retrying y hy hretrying := by
    rcases of_update hop hy with ⟨hy, -⟩ | ⟨z, hz, hid, hyid, hrule, hstatus⟩
    · exact h.retrying y hy hretrying
    · rw [hrule, hyid]
      exact ⟨hretry (hstatus ▸ hretrying) z hz hid, .inl List.mem_cons_self⟩
  jobs := h.jobs

/-- An execution that is not marked RETRYING needs no job. -/
theorem settle {x : String} {data : RuleExecutionData} {db : Db} (h : Attended db₀ (x :: live) w)
    (hop : w.db.updateRuleExecution x data = .ok db) (hstatus : data.status ≠ .retrying) :
    Attended db₀ live { w with db } := by
  refine (h.update hop fun heq => absurd heq hstatus).discard fun y hy hid => ?_
  rcases of_update hop hy with ⟨-, hne⟩ | ⟨z, -, -, -, -, heq⟩
  · exact absurd hid hne
  · rw [heq]
    exact hstatus

/-- The retry job of an execution is on the queue. -/
theorem enqueue {x : String} {job : RetryJob} (h : Attended db₀ (x :: live) w)
    (hjob : job.ruleExecutionId = x) (hattempts : job.maxAttempts ≤ job.attempts) :
    Attended db₀ live { w with retryQueue := w.retryQueue ++ [job] } where
  unique := h.unique
  configuration := h.configuration
  ruleOf := h.ruleOf
  retrying y hy hstatus := by
    obtain ⟨hretry, hlive⟩ := h.retrying y hy hstatus
    refine ⟨hretry, ?_⟩
    rcases hlive with hmem | ⟨j, hj, hid⟩
    · rcases List.mem_cons.1 hmem with heq | hmem
      · exact .inr ⟨job, List.mem_append_right _ (List.mem_singleton_self _), hjob.trans heq.symm⟩
      · exact .inl hmem
    · exact .inr ⟨j, List.mem_append_left _ hj, hid⟩
  jobs j hj := by
    rcases List.mem_append.1 hj with hj | hj
    · exact h.jobs j hj
    · obtain rfl := List.mem_singleton.1 hj
      exact hattempts

end Attended

/-! ### Executing a rule -/

theorem Undisturbed.fault {l : Call} {env : Env} {w w' : World} (h : Undisturbed l env w w')
    (hl : ∀ bucketId reference amountKobo, l ≠ .credit bucketId reference amountKobo) :
    env.fault = none := by
  obtain ⟨-, h⟩ := h
  cases l <;> first | exact h | exact absurd rfl (hl _ _ _)

theorem releaseAmount_error {payload : RulePayload} {inflow : Int} {e : RangeError}
    (h : releaseAmount payload inflow = some (.error e)) (inflow' : Int) :
    releaseAmount payload inflow' = some (.error e) := by
  unfold releaseAmount at h ⊢
  cases hp : payload.percentage with
  | some percentage => simp [hp] at h
  | none => cases ha : payload.amountKobo <;> simp_all

/-- The rule is one of the database's. -/
def Selected (db₀ : Db) (rule : EvaluatedRule) : Prop := ∃ r ∈ db₀.rules, ∃ a, rule = r.evaluated a

theorem retryable_of_amount {db₀ : Db} {r : Rule} (hr : r ∈ db₀.rules)
    (hunique : (db₀.rules.map Rule.id).Nodup)
    (hamount : r.action = .releaseFunds →
      ∃ inflow amount, releaseAmount (r.payload.getD {}) inflow = some (.ok amount)) :
    Retryable db₀ r.id := by
  intro r' hr' hid haction inflow e herr
  obtain rfl : r' = r := eq_of_key_eq hunique hr' hr hid
  obtain ⟨inflow', amount, hok⟩ := hamount haction
  rw [releaseAmount_error herr inflow'] at hok
  cases hok

/-- The execution `x` of a rule has been recorded. -/
def Records (x : String) (rule : EvaluatedRule) (w : World) : Prop :=
  ∃ y ∈ w.db.ruleExecutions, y.id = x ∧ y.ruleId = rule.id

/-- After the execution of a rule: nothing is left to do, or the caller has to enqueue a job, which
it never has to when `strict` holds. -/
def AfterExecution (db₀ : Db) (live : List String) (strict : Prop) (r : ExecutionResult)
    (w : World) : Prop :=
  r.status ≠ .retrying ∧ Attended db₀ live w ∨
    r.status = .retrying ∧ ¬ strict ∧ r.ruleExecutionId ≠ "" ∧
      Attended db₀ (r.ruleExecutionId :: live) w

section Execute

variable {db₀ : Db} {live : List String} {strict : Prop} {w : World} {x : String}
  {rule : EvaluatedRule} {entry : TriggerEntry}

/-- A method that leaves the executions alone. -/
theorem Attended.ensures {α : Type} {p : Action α} (h : Attended db₀ live w)
    (hp : p.Keeps (Orderly strict) SameExecutions) :
    p.Ensures (Orderly strict) (fun _ w' => Attended db₀ live w')
      (fun _ w' => Attended db₀ live w') w :=
  (hp.ensures SameExecutions.refl SameExecutions.trans w).mono (fun _ _ hw => h.frame hw)
    fun _ _ hw => h.frame hw

theorem Attended.updateRuleExecution {data : Nat → RuleExecutionData} (h : Attended db₀ live w)
    (hdata : ∀ now, (data now).status ≠ .retrying) :
    (updateRuleExecution x data).Ensures (Orderly strict) (fun _ w' => Attended db₀ live w')
      (fun _ w' => World.SameData w w' ∧ ∀ y ∈ w.db.ruleExecutions, y.id ≠ x) w := by
  refine ensures_statement ?_ ?_
  · intro env db w' _ _ hop hw'
    rw [hw']
    exact (h.mono (List.subset_cons_self x live)).settle hop (hdata env.now)
  · intro env e w' hallowed hsame hno
    refine ⟨hsame, fun y hy hid => ?_⟩
    have hfault := hallowed.1.fault (by simp)
    exact hno hfault _ (Db.updateRuleExecution_eq_ok.2 ⟨⟨y, hy, hid⟩, rfl⟩)

theorem Attended.markExecutionFailed {message : String} (h : Attended db₀ live w) :
    (markExecutionFailed x message).Ensures (Orderly strict) (AfterExecution db₀ live strict)
      (fun _ w' => Attended db₀ live w') w := by
  refine Proc.Ensures.bind ((h.updateRuleExecution fun _ => by simp).mono ?_ ?_)
  · exact fun _ w' h' => .inl ⟨by simp, h'⟩
  · exact fun _ w' h' => h.sameData h'.1

theorem Attended.markCompleted {response : Option (List (String × Json))}
    (h : Attended db₀ live w) :
    (markCompleted x response).Ensures (Orderly strict)
      (fun r w' => r.status ≠ .retrying ∧ Attended db₀ live w')
      (fun _ w' => World.SameData w w' ∧ ∀ y ∈ w.db.ruleExecutions, y.id ≠ x) w := by
  refine Proc.Ensures.bind ((h.updateRuleExecution fun _ => by simp).mono ?_ fun _ _ h' => h')
  exact fun _ w' h' => ⟨by simp, h'⟩

theorem Attended.completed {response : Option (List (String × Json))} (h : Attended db₀ live w) :
    (AccountOS.markCompleted x response).Ensures (Orderly strict) (AfterExecution db₀ live strict)
      (fun _ w' => Attended db₀ live w') w :=
  h.markCompleted.mono (fun _ _ h' => .inl h') fun _ _ h' => h.sameData h'.1

/-- An execution of a rule that can be retried is marked RETRYING. -/
theorem Attended.markRetrying {message : String} (h : Attended db₀ live w)
    (hx : Records x rule w) (hne : x ≠ "") (hstrict : ¬ strict)
    (hretry : Retryable db₀ rule.id) :
    (markRetrying x message).Ensures (Orderly strict) (AfterExecution db₀ live strict)
      (fun _ w' => Attended db₀ live w') w := by
  refine Proc.Ensures.bind (ensures_statement ?_ ?_)
  · intro env db w' _ _ hop hw'
    rw [hw']
    refine .inr ⟨rfl, hstrict, hne, ?_⟩
    refine (h.mono (List.subset_cons_self x live)).update hop fun _ y hy hid => ?_
    obtain ⟨z, hz, hzid, hzrule⟩ := hx
    obtain rfl : y = z := eq_of_key_eq h.unique.ruleExecutions hy hz (hid.trans hzid.symm)
    rw [hzrule]
    exact hretry
  · exact fun env e w' _ hsame _ => h.sameData hsame

/-- When it is served, a credit does not fail. -/
theorem ensures_credit (p : CreditParams) :
    (credit p).Ensures (Orderly strict) (fun _ w' => SameExecutions w w')
      (fun _ w' => ¬ strict ∧ SameExecutions w w') w := by
  have hkeeps : (credit p).Ensures (Orderly strict) _ _ w :=
    (footprint_sameExecutions.keeps_credit (fun _ => ⟨id, id⟩) p).ensures SameExecutions.refl
      SameExecutions.trans w
  by_cases hstrict : strict
  swap
  · exact hkeeps.mono (fun _ _ h => h) fun _ _ h => ⟨hstrict, h⟩
  have hserved : (credit p).Ensures (Orderly strict) (fun _ _ => True) (fun _ _ => False) w := by
    refine Proc.Ensures.bind (Proc.Ensures.catching (ensures_transaction logsOnly_nothing ?_ ?_))
    · intro env a db w' _ _ _ _
      exact Proc.Ensures.bind (ensures_audit fun _ _ => trivial)
    · intro env e w' hallowed hthrown
      obtain ⟨hfault, e', he', href⟩ := hallowed.2 hstrict
      cases hfind : w.db.findEntry p.reference with
      | none => exact absurd href ((findEntry_eq_none_iff w.db).1 hfind e' he')
      | some e'' => exact absurd (creditTx_run_of_some w.db hfind) (hthrown.aborted hfault _)
  exact (hkeeps.and hserved).mono (fun _ _ h => h.1) fun _ _ h => h.2.elim

/-- An allocation that throws has left the execution as it was. -/
theorem Attended.allocate {ref bucketId : String} {account : RuleAccount} {amount : Int}
    (h : Attended db₀ live w) (hx : Records x rule w) :
    (allocate x ref bucketId account entry amount).Ensures (Orderly strict)
      (AfterExecution db₀ live strict)
      (fun _ w' => ¬ strict ∧ Attended db₀ live w' ∧ Records x rule w') w := by
  refine Proc.Ensures.bind ((ensures_credit _).mono ?_ ?_)
  swap
  · intro e w' hw'
    refine ⟨hw'.1, h.frame hw'.2, ?_⟩
    rw [Records, hw'.2.ruleExecutions]
    exact hx
  intro cumulative w' hw'
  have hx' : Records x rule w' := by
    rw [Records, hw'.ruleExecutions]
    exact hx
  refine Proc.Ensures.bind ((h.frame hw').markCompleted.mono ?_ ?_)
  · intro r w'' hr
    exact Proc.Ensures.bind (ensures_audit fun w₃ hsame => .inl ⟨hr.1, hr.2.sameData hsame⟩)
  · -- the execution is there, so it can be marked COMPLETED
    intro e w'' hno
    obtain ⟨y, hy, hid, -⟩ := hx'
    exact absurd hid (hno.2 y hy)

theorem Attended.handleReleaseFunds (h : Attended db₀ live w) (hrule : Selected db₀ rule)
    (haction : rule.action = .releaseFunds) (hx : Records x rule w) (hne : x ≠ "") :
    (handleReleaseFunds x rule.payload rule.account entry).Ensures (Orderly strict)
      (AfterExecution db₀ live strict) (fun _ w' => Attended db₀ live w') w := by
  have hrules : (db₀.rules.map Rule.id).Nodup := h.configuration.rules ▸ h.unique.rules
  unfold AccountOS.handleReleaseFunds
  dsimp only
  split
  next => exact h.markExecutionFailed
  next =>
    refine Proc.Ensures.bind (ensures_find (fun env _ => ?_) fun _ _ w' _ _ hsame =>
      h.sameData hsame)
    cases w.db.findBucket rule.account.businessId
      ((rule.payload.getD {}).destinationAccountRef.getD "") with
    | none => exact h.markExecutionFailed
    | some bucket =>
      dsimp only
      split
      next => exact h.markExecutionFailed
      next =>
        split
        next => exact h.markExecutionFailed
        next => exact h
        next amount hamount =>
          split
          next => exact h.completed
          next =>
            refine Proc.Ensures.catching ((h.allocate hx).mono (fun _ _ h' => h') ?_)
            intro e w' hw'
            obtain ⟨hstrict, h', hx'⟩ := hw'
            obtain ⟨r, hr, a, rfl⟩ := hrule
            exact h'.markRetrying hx' hne hstrict
              (retryable_of_amount hr hrules fun _ => ⟨_, amount, hamount⟩)

theorem Attended.handleNotifyWebhook (h : Attended db₀ live w) (hrule : Selected db₀ rule)
    (haction : rule.action = .notifyWebhook) (hx : Records x rule w) (hne : x ≠ "") :
    (handleNotifyWebhook x rule.payload rule.account).Ensures (Orderly strict)
      (AfterExecution db₀ live strict) (fun _ w' => Attended db₀ live w') w := by
  have hrules : (db₀.rules.map Rule.id).Nodup := h.configuration.rules ▸ h.unique.rules
  unfold AccountOS.handleNotifyWebhook
  dsimp only
  split
  next => exact h.markExecutionFailed
  next =>
    refine Proc.Ensures.bind (ensures_deliver fun env hallowed => ?_)
    cases hdelivery : env.delivery with
    | ok status =>
      refine Proc.Ensures.bind (h.markCompleted.mono (fun r w' hr => ?_) fun _ _ hno =>
        h.sameData hno.1)
      exact Proc.Ensures.bind (ensures_audit fun w'' hsame => .inl ⟨hr.1, hr.2.sameData hsame⟩)
    | error e =>
      obtain ⟨r, hr, a, rfl⟩ := hrule
      refine h.markRetrying hx hne (fun hstrict => ?_)
        (retryable_of_amount hr hrules fun hrelease => ?_)
      · have hok : env.delivery.isOk = true := hallowed.2 hstrict
        rw [hdelivery] at hok
        cases hok
      · cases haction.symm.trans hrelease

theorem Attended.handleStatusChange {target : AccountStatus} {allowedFrom : List AccountStatus}
    {auditAction : AuditAction} {account : RuleAccount} (h : Attended db₀ live w) :
    (handleStatusChange x account target allowedFrom auditAction).Ensures (Orderly strict)
      (AfterExecution db₀ live strict) (fun _ w' => Attended db₀ live w') w := by
  refine Proc.Ensures.bind (ensures_find (fun env _ => ?_) fun _ _ w' _ _ hsame =>
    h.sameData hsame)
  cases (w.db.findAccountById account.id).map Account.status with
  | none => exact h.completed
  | some status =>
    dsimp only
    split
    next =>
      refine Proc.Ensures.bind ((h.ensures (footprint_sameExecutions.keeps_statement
        fun _ => ⟨id, id⟩)).mono (fun _ w' h' => ?_) fun _ _ h' => h')
      exact Proc.Ensures.bind (ensures_audit fun w'' hsame => (h'.sameData hsame).completed)
    next => exact h.completed

theorem Attended.handleFlagForReview {account : RuleAccount} {ledgerEntryId : Option String}
    (h : Attended db₀ live w) :
    (handleFlagForReview x account ledgerEntryId).Ensures (Orderly strict)
      (AfterExecution db₀ live strict) (fun _ w' => Attended db₀ live w') w := by
  have hflag : (flagLedgerEntry ledgerEntryId).Keeps (Orderly strict) SameExecutions := by
    cases ledgerEntryId with
    | none => trivial
    | some ledgerEntryId => exact footprint_sameExecutions.keeps_statement fun _ => ⟨id, id⟩
  refine Proc.Ensures.bind ((h.ensures hflag).mono (fun _ w' h' => ?_) fun _ _ h' => h')
  exact Proc.Ensures.bind (ensures_audit fun w'' hsame => (h'.sameData hsame).completed)

/-- **The execution of a rule.** -/
theorem Attended.execute (h : Attended db₀ live w) (hrule : Selected db₀ rule) :
    (execute rule entry).Ensures (Orderly strict) (AfterExecution db₀ live strict)
      (fun _ w' => Attended db₀ live w') w := by
  refine Proc.Ensures.bind (ensures_transaction logsOnly_nothing ?_ fun _ _ w' _ hthrown =>
    h.sameData hthrown.same)
  intro env a db w' hallowed _ hrun hw'
  obtain ⟨hop, rfl⟩ := createRuleExecution_run_eq_ok hrun
  have hne : env.row.id ≠ "" := hallowed.1.1
  have h' : Attended db₀ live w' := hw' ▸ h.create hop rfl
  have hx : Records env.row.id rule w' := by
    obtain ⟨-, -, -, -, hdb⟩ := Db.createRuleExecution_eq_ok.1 hop
    rw [Records, hw', hdb]
    exact ⟨_, List.mem_append_right _ (List.mem_singleton_self _), rfl, rfl⟩
  unfold act
  split
  next haction => exact h'.handleReleaseFunds hrule haction hx hne
  next => exact h'.handleStatusChange
  next => exact h'.handleStatusChange
  next => exact h'.handleStatusChange
  next => exact h'.handleFlagForReview
  next haction => exact h'.handleNotifyWebhook hrule haction hx hne

end Execute

/-! ### Processing a webhook job -/

section Process

open WebhookProcessor

variable {db₀ : Db} {live : List String} {strict : Prop} {w : World} {payload : InflowPayload}

/-- `evaluate` only selects rules of the database. -/
theorem Attended.evaluate {accountId : String} {model : ExecutionModel} {event : RuleEvent}
    (h : Attended db₀ live w) :
    (evaluate accountId model event).Ensures (Orderly strict)
      (fun rules w' => Attended db₀ live w' ∧ ∀ rule ∈ rules, Selected db₀ rule)
      (fun _ w' => Attended db₀ live w') w := by
  refine Proc.Ensures.bind (ensures_find (fun env _ => ?_) fun _ _ w' _ _ hsame =>
    h.sameData hsame)
  refine ⟨h, fun rule hrule => ?_⟩
  obtain ⟨q, hq, rfl⟩ := selectMatching_subset hrule
  obtain ⟨hmem, -, -⟩ := Db.mem_findRules hq
  exact ⟨q.1, h.configuration.rules ▸ hmem, q.2, rfl⟩

/-- The loop over the rules: `after` does with each result what it asks for. -/
theorem Attended.executeAll {after : ExecutionResult → Action Unit} {entry : TriggerEntry}
    (hafter : ∀ r w, AfterExecution db₀ live strict r w →
      (after r).Ensures (Orderly strict) (fun _ w' => Attended db₀ live w')
        (fun _ w' => Attended db₀ live w') w)
    {rules : List EvaluatedRule} (h : Attended db₀ live w)
    (hrules : ∀ rule ∈ rules, Selected db₀ rule) :
    (executeAll after entry rules).Ensures (Orderly strict) (fun _ w' => Attended db₀ live w')
      (fun _ w' => Attended db₀ live w') w := by
  induction rules generalizing w with
  | nil => exact h
  | cons rule rules ih =>
    refine Proc.Ensures.bind ((h.execute (hrules rule List.mem_cons_self)).mono
      (fun r w' hr => ?_) fun _ _ h' => h')
    refine Proc.Ensures.bind ((hafter r w' hr).mono (fun _ w'' h'' => ?_) fun _ _ h' => h')
    exact ih h'' fun rule' hrule' => hrules rule' (List.mem_cons_of_mem _ hrule')

/-- The loop for an inflow enqueues the jobs. -/
theorem Attended.executeForInflow {entry : TriggerEntry} {rules : List EvaluatedRule}
    (h : Attended db₀ live w) (hrules : ∀ rule ∈ rules, Selected db₀ rule) :
    (executeForInflow entry rules).Ensures (Orderly strict) (fun _ w' => Attended db₀ live w')
      (fun _ w' => Attended db₀ live w') w := by
  refine h.executeAll (fun r w' hr => ?_) hrules
  unfold enqueueIfRetrying
  rcases hr with ⟨hstatus, h'⟩ | ⟨hstatus, -, hne, h'⟩
  · rw [if_neg fun hboth => hstatus hboth.1]
    exact h'
  · rw [if_pos ⟨hstatus, hne⟩]
    refine ensures_enqueueRetry (h'.enqueue rfl le_rfl) fun env e hallowed hfault => ?_
    exact absurd (hallowed.1.fault (by simp)) hfault

/-- The loop for a custom event has no job to enqueue when everything is served. -/
theorem Attended.executeForCustomEvent {entry : TriggerEntry} {rules : List EvaluatedRule}
    (h : Attended db₀ live w) (hstrict : strict) (hrules : ∀ rule ∈ rules, Selected db₀ rule) :
    (executeForCustomEvent entry rules).Ensures (Orderly strict)
      (fun _ w' => Attended db₀ live w') (fun _ w' => Attended db₀ live w') w := by
  refine h.executeAll (fun r w' hr => ?_) hrules
  rcases hr with ⟨-, h'⟩ | ⟨-, hno, -⟩
  · exact h'
  · exact absurd hstrict hno

theorem WriteOp.apart_of_claiming (o : WriteOp) (ho : o.Claiming) :
    ¬ o.Executes ∧ ¬ o.Configures := by
  cases o <;> first | exact ⟨id, id⟩ | exact ho.elim

theorem WriteOp.apart_of_reconciling (o : WriteOp) (ho : o.Reconciling) :
    ¬ o.Executes ∧ ¬ o.Configures := by
  cases o <;> first | exact ⟨id, id⟩ | exact ho.elim

theorem Attended.processCustomEvent {account : Account} (h : Attended db₀ live w)
    (hstrict : strict) :
    (processCustomEvent payload account).Ensures (Orderly strict)
      (fun _ w' => Attended db₀ live w') (fun _ w' => Attended db₀ live w') w := by
  refine Proc.Ensures.bind
    ((h.ensures (footprint_sameExecutions.keeps_claim WriteOp.apart_of_claiming)).mono
    (fun claimed w₁ h₁ => ?_) fun _ _ h' => h')
  cases claimed with
  | false => exact h₁
  | true =>
    refine Proc.Ensures.bind (h₁.evaluate.mono (fun rules w₂ h₂ => ?_) fun _ _ h' => h')
    obtain ⟨h₂, hrules⟩ := h₂
    refine Proc.Ensures.bind ?_
    suffices hexecute : (executeForEvent payload account rules).Ensures (Orderly strict)
        (fun _ w' => Attended db₀ live w') (fun _ w' => Attended db₀ live w') w₂ from
      hexecute.mono (fun _ w₃ h₃ => ensures_audit fun w₄ hsame => h₃.sameData hsame)
        fun _ _ h' => h'
    unfold executeForEvent
    split
    next => exact h₂
    next =>
      refine Proc.Ensures.bind (ensures_find (fun env _ => ?_) fun _ _ w' _ _ hsame =>
        h₂.sameData hsame)
      cases w₂.db.findBusiness account.businessId with
      | none => exact h₂
      | some b => exact h₂.executeForCustomEvent hstrict hrules

theorem Attended.executeMatching {account : Account} {rules : List EvaluatedRule}
    (h : Attended db₀ live w) (hrules : ∀ rule ∈ rules, Selected db₀ rule) :
    (executeMatching payload account rules).Ensures (Orderly strict)
      (fun _ w' => Attended db₀ live w') (fun _ w' => Attended db₀ live w') w := by
  refine Proc.Ensures.bind (ensures_find (fun env _ => ?_) fun _ _ w' _ _ hsame =>
    h.sameData hsame)
  cases w.db.findBusiness account.businessId with
  | none => exact h
  | some b =>
    refine Proc.Ensures.bind (ensures_find (fun env _ => ?_) fun _ _ w' _ _ hsame =>
      h.sameData hsame)
    cases w.db.findLedgerEntry payload.transactionRef with
    | none => exact h
    | some e => exact h.executeForInflow hrules

theorem Attended.settleInflow {account : Account} {rules : List EvaluatedRule}
    (h : Attended db₀ live w) (hrules : ∀ rule ∈ rules, Selected db₀ rule) :
    (settleInflow payload account rules).Ensures (Orderly strict)
      (fun _ w' => Attended db₀ live w') (fun _ w' => Attended db₀ live w') w := by
  unfold WebhookProcessor.settleInflow
  split
  next => exact h.ensures (footprint_sameExecutions.keeps_reconcile WriteOp.apart_of_reconciling)
  next =>
    refine Proc.Ensures.bind ((h.executeMatching hrules).mono (fun _ w' h' => ?_) fun _ _ h' => h')
    exact h'.ensures (footprint_sameExecutions.keeps_reconcile WriteOp.apart_of_reconciling)

theorem Attended.processInflow {found : FoundAccount} (h : Attended db₀ live w) :
    (processInflow payload found).Ensures (Orderly strict)
      (fun _ w' => Attended db₀ live w') (fun _ w' => Attended db₀ live w') w := by
  refine Proc.Ensures.bind
    ((h.ensures (footprint_sameExecutions.keeps_writeInflow (fun _ => ⟨id, id⟩) _ _)).mono
    (fun total w₁ h₁ => ?_) fun _ _ h' => h')
  refine Proc.Ensures.bind ((h₁.ensures keeps_bigIntOrThrow).mono (fun amountKobo w₂ h₂ => ?_)
    fun _ _ h' => h')
  refine Proc.Ensures.bind (h₂.evaluate.mono (fun rules w₃ h₃ => ?_) fun _ _ h' => h')
  refine Proc.Ensures.bind ((h₃.1.settleInflow h₃.2).mono (fun _ w₄ h₄ => ?_) fun _ _ h' => h')
  exact h₄.ensures (footprint_sameExecutions.keeps_createProcessedEvent WriteOp.apart_of_claiming)

/-- **The processing of a webhook job**, of a custom event when everything is served. -/
theorem Attended.process (h : Attended db₀ live w)
    (hstrict : isCustomEvent payload = true → strict) :
    (process payload).Ensures (Orderly strict) (fun _ w' => Attended db₀ live w')
      (fun _ w' => Attended db₀ live w') w := by
  have hunseen : (processUnseen payload).Ensures (Orderly strict)
      (fun _ w' => Attended db₀ live w') (fun _ w' => Attended db₀ live w') w := by
    refine Proc.Ensures.bind (ensures_find (fun env _ => ?_) fun _ _ w' _ _ hsame =>
      h.sameData hsame)
    cases (w.db.findAccount payload.accountNumber).map fun a =>
        (⟨a, a.customerId.bind w.db.findCustomer⟩ : FoundAccount) with
    | none => exact ensures_audit fun w' hsame => h.sameData hsame
    | some found =>
      show Proc.Ensures _ _ _ (ite _ _ _) w
      split
      next hcustom => exact h.processCustomEvent (hstrict hcustom)
      next =>
        split
        next =>
          refine Proc.Ensures.bind
            ((h.ensures (footprint_sameExecutions.keeps_writeInflow (fun _ => ⟨id, id⟩) _ _)).mono
            (fun _ w' h' => ?_) fun _ _ h' => h')
          exact ensures_audit fun w'' hsame => h'.sameData hsame
        next => exact ensures_audit fun w' hsame => h.sameData hsame
        next => exact ensures_audit fun w' hsame => h.sameData hsame
        next => exact h.processInflow
  refine Proc.Ensures.catching (Proc.Ensures.mono (Q := fun _ w' => Attended db₀ live w')
    (E := fun _ w' => Attended db₀ live w') ?_ (fun _ _ h' => h') ?_)
  · refine Proc.Ensures.bind (ensures_find (fun env _ => ?_) fun _ _ w' _ _ hsame =>
      h.sameData hsame)
    cases w.db.findProcessedEvent payload.eventId with
    | some e => exact ensures_audit fun w' hsame => h.sameData hsame
    | none => exact hunseen
  · intro err w' h'
    split
    · exact ensures_audit fun w'' hsame => h'.sameData hsame
    · exact h'

end Process

/-! ### Serving a retry job -/

section Retry

open RetryProcessor

variable {db₀ : Db} {live : List String} {w : World} {job : RetryDelivery}

/-- When a retry has thrown: its execution is not RETRYING, or the job has attempts left. -/
def AfterFailure (db₀ : Db) (live : List String) (job : RetryDelivery) (w : World) : Prop :=
  Attended db₀ live w ∨
    Attended db₀ (job.ruleExecutionId :: live) w ∧ job.attemptsMade + 1 < job.maxAttempts

/-- By its foreign keys an execution that exists is found. -/
theorem Attended.find_ne_none {x : String} (h : Attended db₀ live w)
    (haccounts : ∀ r ∈ db₀.rules, ∃ a ∈ db₀.accounts, a.id = r.accountId)
    {y : RuleExecution} (hy : y ∈ w.db.ruleExecutions) (hid : y.id = x) :
    w.db.findRuleExecution x ≠ none := by
  have hx : w.db.ruleExecutions.find? (fun e => e.id = x) ≠ none := by
    simpa using ⟨y, hy, hid⟩
  obtain ⟨execution, hx⟩ := Option.ne_none_iff_exists'.1 hx
  obtain ⟨r, hr, hrid⟩ := h.ruleOf execution (List.mem_of_find?_eq_some hx)
  have hrule : w.db.findRule execution.ruleId ≠ none := by
    unfold Db.findRule
    rw [h.configuration.rules]
    simpa using ⟨r, hr, hrid⟩
  obtain ⟨rule, hrule⟩ := Option.ne_none_iff_exists'.1 hrule
  have hmem : rule ∈ db₀.rules := h.configuration.rules ▸ List.mem_of_find?_eq_some hrule
  obtain ⟨a, ha, haid⟩ := haccounts rule hmem
  -- the accounts are the same ones, up to their statuses
  have hids : w.db.accounts.map Account.id = db₀.accounts.map Account.id := by
    have := congrArg (List.map Account.id) h.configuration.accounts
    rwa [List.map_map, List.map_map] at this
  have haccount : w.db.findAccountById rule.accountId ≠ none := by
    have hmem : rule.accountId ∈ w.db.accounts.map Account.id := by
      rw [hids, ← haid]
      exact List.mem_map_of_mem ha
    obtain ⟨a', ha', haid'⟩ := List.mem_map.1 hmem
    unfold Db.findAccountById
    simpa using ⟨a', ha', haid'⟩
  obtain ⟨account, haccount⟩ := Option.ne_none_iff_exists'.1 haccount
  simp [Db.findRuleExecution, hx, hrule, haccount]

/-- The execution that is retried is the only one with its id. -/
theorem Attended.done {f : FoundExecution} (h : Attended db₀ (job.ruleExecutionId :: live) w)
    (hf : w.db.findRuleExecution job.ruleExecutionId = some f)
    (hstatus : f.execution.status ≠ .retrying) : Attended db₀ live w := by
  obtain ⟨⟨hmem, hid⟩, -⟩ := Db.findRuleExecution_eq_some hf
  refine h.discard fun y hy hyid => ?_
  rw [eq_of_key_eq h.unique.ruleExecutions hy hmem (hyid.trans hid.symm)]
  exact hstatus

/-- Recording the outcome of an attempt: it takes effect, since the execution is there. -/
theorem ensures_recordOutcome {data : Nat → RuleExecutionData} {Q : World → Prop}
    (hx : ∃ y ∈ w.db.ruleExecutions, y.id = job.ruleExecutionId)
    (hQ : ∀ env db, w.db.updateRuleExecution job.ruleExecutionId (data env) = .ok db →
      Q { w with db }) :
    (updateRuleExecution job.ruleExecutionId data).Ensures (Orderly False) (fun _ w' => Q w')
      (fun _ w' => AfterFailure db₀ live job w') w := by
  refine ensures_statement (fun env db w' _ _ hop hw' => ?_) fun env e w' hallowed _ hno => ?_
  · rw [hw']
    exact hQ env.now db hop
  · have hfault := hallowed.1.fault (by simp)
    exact absurd (Db.updateRuleExecution_eq_ok.2 ⟨hx, rfl⟩) (hno hfault _)

theorem Attended.settleOutcome {f : FoundExecution} {outcome : AttemptOutcome}
    (h : Attended db₀ (job.ruleExecutionId :: live) w)
    (hx : ∃ y ∈ w.db.ruleExecutions, y.id = job.ruleExecutionId)
    (hretry : outcome.ok = false → outcome.terminal = false →
      ∀ y ∈ w.db.ruleExecutions, y.id = job.ruleExecutionId → Retryable db₀ y.ruleId) :
    (settleOutcome job f outcome).Ensures (Orderly False) (fun _ w' => Attended db₀ live w')
      (fun _ w' => AfterFailure db₀ live job w') w := by
  unfold RetryProcessor.settleOutcome
  dsimp only
  split
  next =>
    refine Proc.Ensures.bind (ensures_recordOutcome hx fun now db hop => ?_)
    have hdone := h.settle hop (by simp)
    exact ensures_audit fun w' hsame => hdone.sameData hsame
  next hok =>
    split
    next =>
      refine Proc.Ensures.bind (ensures_recordOutcome hx fun now db hop => ?_)
      have hdone := h.settle hop (by simp)
      exact ensures_audit fun w' hsame => hdone.sameData hsame
    next hlast =>
      refine Proc.Ensures.bind (ensures_recordOutcome hx fun now db hop => ?_)
      have hok : outcome.ok = false := by simpa using hok
      have hterminal : outcome.terminal = false := by simpa using fun ht => hlast (.inl ht)
      have hleft : job.attemptsMade + 1 < job.maxAttempts := by
        have : ¬ job.maxAttempts ≤ job.attemptsMade + 1 := fun hle => hlast (.inr hle)
        omega
      exact .inr ⟨h.update hop fun _ => hretry hok hterminal, hleft⟩

/-- An attempt to release funds. It only throws when the rule's amount cannot be computed, and then
the execution is not RETRYING. -/
theorem Attended.attemptRelease {f : FoundExecution} {attempt : Nat}
    (h : Attended db₀ (job.ruleExecutionId :: live) w)
    (hf : w.db.findRuleExecution job.ruleExecutionId = some f)
    (haction : f.rule.action = .releaseFunds) :
    (attemptRelease f attempt).Ensures (Orderly False)
      (fun outcome w' => SameExecutions w w' ∧
        (outcome.ok = false → outcome.terminal = false → Retryable db₀ f.execution.ruleId))
      (fun _ w' => AfterFailure db₀ live job w') w := by
  obtain ⟨⟨hmem, hid⟩, ⟨hrule, hruleId⟩, -⟩ := Db.findRuleExecution_eq_some hf
  rw [h.configuration.rules] at hrule
  have hrules : (db₀.rules.map Rule.id).Nodup := h.configuration.rules ▸ h.unique.rules
  have hterminal : ∀ error, SameExecutions w w ∧
      ((terminalFailure error).ok = false → (terminalFailure error).terminal = false →
        Retryable db₀ f.execution.ruleId) :=
    fun error => ⟨.refl w, fun _ hno => by simp [terminalFailure] at hno⟩
  unfold RetryProcessor.attemptRelease
  dsimp only
  split
  next => exact hterminal _
  next =>
    refine Proc.Ensures.bind (ensures_find (fun env _ => ?_) fun _ _ w' hallowed hfault _ => ?_)
    swap
    · exact absurd (hallowed.1.fault (by simp)) hfault
    cases w.db.findBucket f.account.businessId
      ((f.rule.payload.getD {}).destinationAccountRef.getD "") with
    | none => exact hterminal _
    | some bucket =>
      cases f.triggeredByLedgerEntry with
      | none => exact hterminal _
      | some e =>
        dsimp only
        split
        next => exact hterminal _
        next err herr =>
          -- a RETRYING execution has an amount that can be computed
          refine .inl (h.done hf fun hretrying => ?_)
          exact (h.retrying _ hmem hretrying).1 f.rule hrule hruleId haction _ _ herr
        next amount hamount =>
          have hretry : Retryable db₀ f.execution.ruleId :=
            hruleId ▸ retryable_of_amount hrule hrules fun _ => ⟨_, amount, hamount⟩
          refine Proc.Ensures.catching (Proc.Ensures.bind ((ensures_credit _).mono ?_ ?_))
          · exact fun cumulative w' hw' => ⟨hw', fun _ _ => hretry⟩
          · exact fun err w' hw' => ⟨hw'.2, fun _ _ => hretry⟩

/-- **The processing of a retry job.** -/
theorem Attended.processRetry (h : Attended db₀ (job.ruleExecutionId :: live) w)
    (haccounts : ∀ r ∈ db₀.rules, ∃ a ∈ db₀.accounts, a.id = r.accountId) :
    (RetryProcessor.process job).Ensures (Orderly False) (fun _ w' => Attended db₀ live w')
      (fun _ w' => AfterFailure db₀ live job w') w := by
  refine Proc.Ensures.bind (ensures_find (fun env _ => ?_) fun _ _ w' hallowed hfault _ => ?_)
  swap
  · exact absurd (hallowed.1.fault (by simp)) hfault
  cases hf : w.db.findRuleExecution job.ruleExecutionId with
  | none => exact h.discard fun y hy hid => absurd hf (h.find_ne_none haccounts hy hid)
  | some f =>
    obtain ⟨⟨hmem, hid⟩, ⟨hrule, hruleId⟩, -⟩ := Db.findRuleExecution_eq_some hf
    rw [h.configuration.rules] at hrule
    have hrules : (db₀.rules.map Rule.id).Nodup := h.configuration.rules ▸ h.unique.rules
    dsimp only
    split
    -- resolved already, and so the job is over
    next hresolved =>
      refine h.done hf fun hretrying => ?_
      rw [hretrying] at hresolved
      simp at hresolved
    next =>
      split
      next haction =>
        refine Proc.Ensures.bind ((h.attemptRelease hf haction).mono
          (fun outcome w' houtcome => ?_) fun _ _ h' => h')
        obtain ⟨hsame, hretry⟩ := houtcome
        refine (h.frame hsame).settleOutcome ?_ fun hok hterminal y hy hyid => ?_
        · rw [hsame.ruleExecutions]
          exact ⟨_, hmem, hid⟩
        · rw [hsame.ruleExecutions] at hy
          rw [eq_of_key_eq h.unique.ruleExecutions hy hmem (hyid.trans hid.symm)]
          exact hretry hok hterminal
      next haction =>
        have hretry : ∀ y ∈ w.db.ruleExecutions, y.id = job.ruleExecutionId →
            Retryable db₀ y.ruleId := by
          intro y hy hyid
          rw [eq_of_key_eq h.unique.ruleExecutions hy hmem (hyid.trans hid.symm), ← hruleId]
          refine retryable_of_amount hrule hrules fun hrelease => ?_
          cases haction.symm.trans hrelease
        refine Proc.Ensures.bind ?_
        unfold attemptNotify
        dsimp only
        split
        next => exact h.settleOutcome ⟨_, hmem, hid⟩ fun _ _ => hretry
        next =>
          refine Proc.Ensures.bind (ensures_deliver fun env _ => ?_)
          cases env.delivery with
          | ok status => exact h.settleOutcome ⟨_, hmem, hid⟩ fun _ _ => hretry
          | error e => exact h.settleOutcome ⟨_, hmem, hid⟩ fun _ _ => hretry
      next =>
        -- an action without an attempt is COMPLETED
        exact ensures_recordOutcome ⟨_, hmem, hid⟩ fun now db hop => h.settle hop (by simp)

end Retry

/-! ### Between two jobs -/

/-- The execution that a live job retries. -/
def LiveJob.executionId (j : LiveJob) : String := j.job.ruleExecutionId

/-- The invariant of the queues. -/
structure QueueState.Attended (db₀ : Db) (s : QueueState) : Prop where
  attended : AccountOS.Attended db₀ (s.retryJobs.map LiveJob.executionId) s.world
  attempts : ∀ j ∈ s.retryJobs, j.job.maxAttempts ≤ j.job.attempts
  retryQueue : s.world.retryQueue = []

namespace QueueState

variable {db₀ : Db}

theorem Attended.noneStranded {s : QueueState} (h : s.Attended db₀) : s.NoneStranded := by
  intro x hx hstatus
  obtain ⟨-, hlive | ⟨job, hjob, -⟩⟩ := h.attended.retrying x hx hstatus
  · obtain ⟨j, hj, hid⟩ := List.mem_map.1 hlive
    exact ⟨j, hj, hid⟩
  · rw [h.retryQueue] at hjob
    cases hjob

theorem attended_after {w : World} {retryJobs : List LiveJob}
    (h : AccountOS.Attended db₀ (retryJobs.map LiveJob.executionId) w)
    (hattempts : ∀ j ∈ retryJobs, j.job.maxAttempts ≤ j.job.attempts) :
    (QueueState.after w retryJobs).Attended db₀ where
  attended := {
    unique := h.unique
    configuration := h.configuration
    ruleOf := h.ruleOf
    retrying x hx hstatus := by
      obtain ⟨hretry, hlive⟩ := h.retrying x hx hstatus
      refine ⟨hretry, .inl ?_⟩
      show x.id ∈
        (retryJobs ++ w.retryQueue.map fun job => (⟨job, 0⟩ : LiveJob)).map LiveJob.executionId
      rw [List.map_append, List.map_map]
      rcases hlive with hmem | ⟨job, hjob, hid⟩
      · exact List.mem_append_left _ hmem
      · exact List.mem_append_right _ (List.mem_map.2 ⟨job, hjob, hid⟩)
    jobs job hjob := by cases hjob }
  attempts j hj := by
    rcases List.mem_append.1 hj with hj | hj
    · exact hattempts j hj
    · obtain ⟨job, hjob, rfl⟩ := List.mem_map.1 hj
      exact h.jobs job hjob
  retryQueue := rfl

theorem Initial.attended {s : QueueState} (h : s.Initial) : s.Attended s.world.db where
  attended := {
    unique := h.unique
    configuration := .refl _
    ruleOf := h.ruleOf
    retrying x hx hstatus := absurd hstatus (h.notRetrying x hx)
    jobs job hjob := by
      rw [h.retryQueue] at hjob
      cases hjob }
  attempts j hj := by
    rw [h.retryJobs] at hj
    cases hj
  retryQueue := h.retryQueue

/-- **One job keeps the invariant.** -/
theorem Attended.step {s s' : QueueState} (h : s.Attended db₀)
    (haccounts : ∀ r ∈ db₀.rules, ∃ a ∈ db₀.accounts, a.id = r.accountId)
    (hstep :
      JobStep (fun p => Orderly (WebhookProcessor.isCustomEvent p = true)) Undisturbed s s') :
    s'.Attended db₀ := by
  cases hstep with
  | @webhook p r w run =>
    obtain ⟨hok, herr⟩ := (h.attended.process id).sound run
    have hw : AccountOS.Attended db₀ (s.retryJobs.map LiveJob.executionId) w := by
      cases r with
      | ok u => exact hok u rfl
      | error e => exact herr e rfl
    exact attended_after hw h.attempts
  | @retry before j later r w live run =>
    have hattempts := h.attempts
    rw [live] at hattempts
    -- the job is taken to the front of the queue
    have hbefore : AccountOS.Attended db₀
        (j.delivery.ruleExecutionId :: (before ++ later).map LiveJob.executionId) s.world := by
      refine h.attended.mono fun x hx => ?_
      rw [live] at hx
      simp only [List.map_append, List.map_cons, List.mem_append, List.mem_cons] at hx ⊢
      exact or_left_comm.1 hx
    have hdone : ∀ rest : List LiveJob, (∀ k ∈ rest, k.job.maxAttempts ≤ k.job.attempts) →
        ∀ k ∈ before ++ rest ++ later, k.job.maxAttempts ≤ k.job.attempts := by
      intro rest hrest k hk
      simp only [List.mem_append] at hk
      rcases hk with (hk | hk) | hk
      · exact hattempts k (List.mem_append_left _ hk)
      · exact hrest k hk
      · exact hattempts k (List.mem_append_right _ (List.mem_cons_of_mem _ hk))
    have hretry : (RetryProcessor.process j.delivery).Ensures Undisturbed _ _ s.world :=
      (hbefore.processRetry haccounts).restrict fun l env w w' hl => ⟨hl, False.elim⟩
    obtain ⟨hok, herr⟩ := hretry.sound run
    cases r with
    | ok u =>
      refine attended_after ((hok u rfl).mono ?_) (hdone [] (by simp))
      simp [LiveJob.rest]
    | error e =>
      have hmem : (before ++ later).map LiveJob.executionId ⊆
          (before ++ j.failed ++ later).map LiveJob.executionId := by
        intro x hx
        simp only [List.map_append, List.mem_append] at hx ⊢
        exact hx.imp .inl id
      have hfailed : ∀ k ∈ j.failed, k.job.maxAttempts ≤ k.job.attempts := by
        unfold LiveJob.failed
        split
        · simpa using hattempts j (by simp)
        · simp
      refine attended_after ?_ (hdone j.failed hfailed)
      rcases herr e rfl with hw | ⟨hw, hleft⟩
      · exact hw.mono hmem
      · -- the job has attempts left, so the queue keeps it
        have hkept : j.attemptsMade + 1 < j.job.attempts :=
          Nat.lt_of_lt_of_le hleft (hattempts j (by simp))
        refine hw.mono (List.cons_subset.2 ⟨?_, hmem⟩)
        show j.delivery.ruleExecutionId ∈ (before ++ j.failed ++ later).map LiveJob.executionId
        rw [LiveJob.failed, if_pos hkept]
        simp [LiveJob.executionId, LiveJob.delivery]

end QueueState

/-- **No stranded retries.** As long as the notifications and the allocations of custom events are
served, every RETRYING execution has a live job after any sequence of jobs, whatever becomes of the
other notifications and allocations. -/
theorem retrying_executions_have_jobs {s₀ s : QueueState} (h₀ : s₀.Initial)
    (hrun : Relation.ReflTransGen
      (JobStep (fun p => Orderly (WebhookProcessor.isCustomEvent p = true)) Undisturbed) s₀ s) :
    s.NoneStranded := by
  suffices h : s.Attended s₀.world.db from h.noneStranded
  induction hrun with
  | refl => exact h₀.attended
  | tail _ hstep ih => exact ih.step h₀.accountOf hstep

/-! ### A notification that fails -/

instance (l : Call) (env : Env) (w w' : World) : Decidable (Undisturbed l env w w') := by
  unfold Undisturbed
  cases l <;> infer_instance

instance (l : Call) (env : Env) (w : World) : Decidable (Served l env w) := by
  unfold Served
  cases l <;> infer_instance

instance (strict : Prop) [Decidable strict] (l : Call) (env : Env) (w w' : World) :
    Decidable (Orderly strict l env w w') :=
  inferInstanceAs (Decidable (_ ∧ (_ → _)))

instance (s : QueueState) : Decidable s.NoneStranded :=
  inferInstanceAs (Decidable (∀ _ ∈ _, _ → _))

namespace Sample

/-- The business is told of every paid order. -/
def notifyOfOrders : Rule where
  id := "rule1"
  accountId := "acc1"
  trigger := .customEvent
  condition := some { eventName := some "order.paid" }
  action := .notifyWebhook
  payload := some { url := some "https://shop.example/hook" }
  kycTierAtCreation := .tier1

/-- The job of the custom event. -/
def orderPaid : InflowPayload where
  eventId := "evt1"
  transactionRef := "evt1"
  accountNumber := "0001112223"
  amountKobo := 0
  eventType := some "order.paid"

def orders : QueueState where
  world := shop [] [notifyOfOrders]

theorem initial_orders : orders.Initial where
  unique := by constructor <;> decide
  ruleOf := by decide
  accountOf := by decide
  notRetrying := by decide
  retryQueue := rfl
  retryJobs := rfl

/-- Every call succeeds, the notification with the given answer. -/
def serve (delivery : Except String Nat) : List (Unit × Env) :=
  unit (List.replicate 12 { row := { id := "row1" }, delivery })

/-- The job of the custom event is processed. -/
def processOrder (delivery : Except String Nat) :
    List (Event Unit World Env Call) × (Unit → Action Unit) × World :=
  exec (fun _ => WebhookProcessor.process orderPaid) orders.world (serve delivery)

theorem processOrder_finishes {allowed : Call → Env → World → World → Prop}
    {delivery : Except String Nat}
    (hallowed : ∀ ev ∈ (processOrder delivery).1,
      allowed ev.call ev.choice ev.before ev.after)
    (hdone : (processOrder delivery).2.1 () = .ret ()) :
    (WebhookProcessor.process orderPaid).Finishes allowed orders.world (.ok ())
      (processOrder delivery).2.2 :=
  ⟨_, _, Run.of_exec _ _ _ hallowed, hdone⟩

end Sample

/-- A run within the condition: the notification is answered. -/
theorem retrying_executions_have_jobs_answered :
    (QueueState.after (Sample.processOrder (.ok 200)).2.2 []).NoneStranded := by
  have hrun : (WebhookProcessor.process Sample.orderPaid).Finishes
      (Orderly (WebhookProcessor.isCustomEvent Sample.orderPaid = true)) Sample.orders.world
      (.ok ()) (Sample.processOrder (.ok 200)).2.2 :=
    Sample.processOrder_finishes (by decide +kernel) (Proc.returned_eq_some.1 (by decide +kernel))
  exact retrying_executions_have_jobs Sample.initial_orders (.single (.webhook _ hrun))

/-- The notification of a custom event fails: its execution is RETRYING, and no job was enqueued. -/
theorem retry_never_enqueued :
    ¬ ∀ s₀ s : QueueState, s₀.Initial →
      Relation.ReflTransGen (JobStep (fun _ => Undisturbed) Undisturbed) s₀ s →
      s.NoneStranded := by
  intro hall
  have hrun : (WebhookProcessor.process Sample.orderPaid).Finishes Undisturbed
      Sample.orders.world (.ok ()) (Sample.processOrder (.error "HTTP 503")).2.2 :=
    Sample.processOrder_finishes (by decide +kernel) (Proc.returned_eq_some.1 (by decide +kernel))
  have hstranded := hall Sample.orders _ Sample.initial_orders (.single (.webhook _ hrun))
  revert hstranded
  decide +kernel

end AccountOS
