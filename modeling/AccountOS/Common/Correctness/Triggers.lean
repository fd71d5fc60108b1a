import AccountOS.Rules.Correctness.EventKinds
import AccountOS.Sql.Slice
import AccountOS.Store.Contract
import AccountOS.Tenancy.Correctness.Footprint

/-!
# What the engine executes

An execution is recorded by the workers alone, for a rule that an event has triggered, and no event
triggers a TIME_ELAPSED rule. A rule keeps its id and its trigger, so that this stays so whatever the
requests do to the rules in the meantime.
-/

namespace AccountOS

open Conc Sql

/-! ### Triggers and executions -/

namespace Db

/-- The rules, each with its trigger. -/
def triggers (db : Db) : List (String × RuleTrigger) := db.rules.map fun r => (r.id, r.trigger)

/-- The rules that have been executed, once for each execution. -/
def executed (db : Db) : List String := db.ruleExecutions.map RuleExecution.ruleId

/-- No execution is one of a TIME_ELAPSED rule. -/
structure TimeFree (db : Db) : Prop where
  unique : (db.triggers.map Prod.fst).Nodup
  executed : ∀ id ∈ db.executed, ∃ trigger, (id, trigger) ∈ db.triggers ∧ trigger ≠ .timeElapsed

theorem mem_triggers {db : Db} {r : Rule} (hr : r ∈ db.rules) : (r.id, r.trigger) ∈ db.triggers :=
  List.mem_map_of_mem hr

/-- A rule has one trigger. -/
theorem TimeFree.trigger_eq {db : Db} (h : db.TimeFree) {id : String} {t t' : RuleTrigger}
    (ht : (id, t) ∈ db.triggers) (ht' : (id, t') ∈ db.triggers) : t = t' := by
  have hpair := eq_of_key_eq h.unique ht ht' rfl
  exact congrArg Prod.snd hpair

theorem TimeFree.not_mem_executed {db : Db} (h : db.TimeFree) {id : String}
    (hid : (id, .timeElapsed) ∈ db.triggers) : id ∉ db.executed := by
  intro hmem
  obtain ⟨trigger, htrigger, hne⟩ := h.executed id hmem
  exact hne (h.trigger_eq htrigger hid)

/-- What becomes of the rules and the executions when no execution is recorded. -/
structure LeavesEngine (db db' : Db) : Prop where
  triggers : db.triggers ⊆ db'.triggers
  unique : (db.triggers.map Prod.fst).Nodup → (db'.triggers.map Prod.fst).Nodup
  executed : db'.executed = db.executed

namespace LeavesEngine

variable {db db' db'' : Db}

theorem of_eq (htriggers : db'.triggers = db.triggers) (hexecuted : db'.executed = db.executed) :
    LeavesEngine db db' := by
  refine ⟨?_, ?_, hexecuted⟩
  · rw [htriggers]
    exact List.Subset.refl _
  · rw [htriggers]
    exact id

theorem of_tables (hrules : db'.rules = db.rules)
    (hexecutions : db'.ruleExecutions = db.ruleExecutions) : LeavesEngine db db' :=
  of_eq (by rw [Db.triggers, hrules, Db.triggers]) (by rw [Db.executed, hexecutions, Db.executed])

theorem refl (db : Db) : LeavesEngine db db := of_eq rfl rfl

theorem trans (h : LeavesEngine db db') (h' : LeavesEngine db' db'') : LeavesEngine db db'' :=
  ⟨List.Subset.trans h.triggers h'.triggers, fun hu => h'.unique (h.unique hu),
    h'.executed.trans h.executed⟩

theorem timeFree (h : LeavesEngine db db') (hdb : db.TimeFree) : db'.TimeFree := by
  refine ⟨h.unique hdb.unique, fun id hid => ?_⟩
  rw [h.executed] at hid
  obtain ⟨trigger, htrigger, hne⟩ := hdb.executed id hid
  exact ⟨trigger, h.triggers htrigger, hne⟩

end LeavesEngine

end Db

/-- **No other statement** records an execution, or touches the id or the trigger of a rule. -/
theorem WriteOp.leavesEngine {o : WriteOp} {db db' : Db} (ho : ∀ x, o ≠ .createRuleExecution x)
    (hop : o.apply db = .ok db') : Db.LeavesEngine db db' := by
  have hsame := WriteOp.sameExcept hop
  cases o with
  | createRuleExecution x => exact absurd rfl (ho x)
  | updateRuleExecution id data =>
    obtain ⟨-, rfl⟩ := Db.updateRuleExecution_eq_ok.1 hop
    exact .of_eq rfl (map_updateRow (fun _ => by rfl) _)
  | archiveExecutions accountId =>
    cases hop
    refine .of_eq rfl ?_
    apply map_map_ite
    exact fun _ => rfl
  | archiveRules accountId archivedAt =>
    cases hop
    refine .of_eq ?_ rfl
    apply map_map_ite
    exact fun _ => rfl
  | flagRules ids =>
    cases hop
    refine .of_eq ?_ rfl
    apply map_map_ite
    exact fun _ => rfl
  | updateRule id data =>
    obtain ⟨-, rfl⟩ := Db.updateRule_eq_ok.1 hop
    exact .of_eq (map_updateRow (fun _ => by rfl) _) rfl
  | createRule r =>
    obtain ⟨hnew, -, rfl⟩ := Db.createRule_eq_ok.1 hop
    have htriggers : Db.triggers { db with rules := db.rules ++ [r] } =
        db.triggers ++ [(r.id, r.trigger)] := List.map_append
    refine ⟨?_, fun hu => ?_, rfl⟩
    · rw [htriggers]
      exact List.subset_append_left _ _
    · rw [htriggers]
      refine nodup_map_append_singleton hu fun p hp heq => ?_
      obtain ⟨x, hx, rfl⟩ := List.mem_map.1 hp
      exact hnew x hx heq
  | _ => exact .of_tables (hsame.rules nofun) (hsame.ruleExecutions nofun)

/-! ### The contract -/

/-- The rules keep their triggers, and no TIME_ELAPSED rule is executed. -/
structure World.LeavesTriggers (w w' : World) : Prop where
  triggers : w.db.triggers ⊆ w'.db.triggers
  timeFree : w.db.TimeFree → w'.db.TimeFree

theorem World.LeavesTriggers.of_leavesEngine {w w' : World} (h : Db.LeavesEngine w.db w'.db) :
    w.LeavesTriggers w' :=
  ⟨h.triggers, h.timeFree⟩

/-- What every thread of the application guarantees. -/
def triggering {ι : Type} : Contract ι World Env Call where
  allowed _ _ _ _ := True
  inv w := w.db.TimeFree
  rely _ w w' := w.db.triggers ⊆ w'.db.triggers
  guarantee _ _ _ w w' := w.LeavesTriggers w'
  refl _ _ := List.Subset.refl _
  trans h h' := List.Subset.trans h h'
  kept hw h := h.timeFree hw
  others _ _ h := h.triggers

/-- What a call does that records no execution. -/
def LeavesEngine (w w' : World) : Prop := Db.LeavesEngine w.db w'.db

theorem leavesEngine_of_db_eq {w w' : World} (h : w'.db = w.db) : LeavesEngine w w' := by
  rw [LeavesEngine, h]
  exact .refl _

theorem footprint_leavesEngine :
    Footprint (fun o => ∀ x, o ≠ .createRuleExecution x) LeavesEngine where
  sameData h := leavesEngine_of_db_eq h.db
  writes := by
    rintro o w w' db ho hop rfl
    exact WriteOp.leavesEngine ho hop

theorem requestFootprint_leavesEngine : RequestFootprint LeavesEngine where
  sameData h := leavesEngine_of_db_eq h.db
  writes := by
    rintro o w w' db ho hop rfl
    refine WriteOp.leavesEngine (fun x hx => ?_) hop
    rw [hx] at ho
    exact ho
  register := by
    rintro o w w' db hop rfl
    cases o with
    | createCustomer c h =>
      obtain ⟨-, -, -, -, rfl⟩ := Db.createCustomer_eq_ok.1 hop
      exact .of_tables rfl rfl
    | renameCustomer id newName h =>
      obtain ⟨-, -, rfl⟩ := Db.renameCustomer_eq_ok.1 hop
      exact .of_tables rfl rfl
    | createTreasuryBucket b =>
      obtain ⟨-, -, -, rfl⟩ := Db.createTreasuryBucket_eq_ok.1 hop
      exact .of_tables rfl rfl
    | renameBucket id name =>
      obtain ⟨-, rfl⟩ := Db.renameBucket_eq_ok.1 hop
      exact .of_tables rfl rfl
  bucketStatus := by
    rintro id status w w' db hop rfl
    obtain ⟨-, rfl⟩ := Db.updateBucketStatus_eq_ok.1 hop
    exact .of_tables rfl rfl
  transfers _ _ := leavesEngine_of_db_eq rfl
  trans h h' := h.trans h'

section Ops

variable {o : WriteOp} {x : RuleExecution}

theorem WriteOp.Recording.ne_create (h : o.Recording) : o ≠ .createRuleExecution x := by
  rintro rfl
  exact h

theorem WriteOp.Reconciling.ne_create (h : o.Reconciling) : o ≠ .createRuleExecution x := by
  rintro rfl
  exact h

theorem WriteOp.Claiming.ne_create (h : o.Claiming) : o ≠ .createRuleExecution x := by
  rintro rfl
  exact h

end Ops

/-! ### The jobs of the webhook queue -/

variable {ι α : Type} [DecidableEq ι] {i : ι} {t : World}

/-- Calls that record no execution are within the contract. -/
theorem fulfils_of_leavesEngine {p : Action α} (hp : p.Keeps (fun _ _ _ _ => True) LeavesEngine) :
    triggering.Fulfils i p t :=
  .of_keeps hp fun _ _ _ _ _ _ h => ⟨.of_leavesEngine h, h.triggers⟩

omit [DecidableEq ι] in
theorem undisturbed_triggering : Contract.Undisturbed (triggering (ι := ι)) := by
  intro i l env w w' hsame
  have h : LeavesEngine w w' := leavesEngine_of_db_eq hsame.db
  exact ⟨.of_leavesEngine h, h.triggers⟩

/-- A rule that the engine may execute. -/
def Db.Triggered (db : Db) (rule : EvaluatedRule) : Prop :=
  ∃ trigger, (rule.id, trigger) ∈ db.triggers ∧ trigger ≠ .timeElapsed

theorem Db.Triggered.mono {db db' : Db} {rule : EvaluatedRule} (h : db.Triggered rule)
    (hsub : db.triggers ⊆ db'.triggers) : db'.Triggered rule := by
  obtain ⟨trigger, htrigger, hne⟩ := h
  exact ⟨trigger, hsub htrigger, hne⟩

/-- **The execution of a rule.** -/
theorem fulfils_execute {rule : EvaluatedRule} {entry : TriggerEntry}
    (hrule : t.db.Triggered rule) : triggering.Fulfils i (execute rule entry) t := by
  refine Contract.Fulfils.bind ?_ fun x w _ => ?_
  · refine Contract.wp_transaction undisturbed_triggering logsOnly_nothing ?_ fun _ _ ht => ht
    intro env w a db w' _ ht _ hrun hw'
    obtain ⟨hop, -⟩ := createRuleExecution_run_eq_ok hrun
    obtain ⟨-, -, -, -, rfl⟩ := Db.createRuleExecution_eq_ok.1 hop
    subst hw'
    refine ⟨⟨List.Subset.refl _, fun hw => ⟨hw.unique, fun id hid => ?_⟩⟩, ht⟩
    obtain ⟨x, hx, rfl⟩ := List.mem_map.1 hid
    rcases List.mem_append.1 hx with hx | hx
    · exact hw.executed _ (List.mem_map_of_mem hx)
    · rw [List.mem_singleton.1 hx]
      exact hrule.mono ht
  · refine fulfils_of_leavesEngine (footprint_leavesEngine.keeps_act ?_ (fun _ _ h => by cases h)
      (.inr ?_))
    · exact fun o ho x => ho.ne_create
    · exact fun o ho x => ho.ne_create

theorem fulfils_executeAll {after : ExecutionResult → Action Unit}
    (hafter : ∀ r, (after r).Keeps (fun _ _ _ _ => True) LeavesEngine) {entry : TriggerEntry}
    (rules : List EvaluatedRule) (hrules : ∀ r ∈ rules, t.db.Triggered r) :
    triggering.Fulfils i (WebhookProcessor.executeAll after entry rules) t := by
  induction rules generalizing t with
  | nil => exact Contract.fulfils_ret
  | cons rule rules ih =>
    refine (fulfils_execute (hrules rule List.mem_cons_self)).bind fun r w hw => ?_
    refine (fulfils_of_leavesEngine (hafter r)).bind fun _ w' hw' => ?_
    exact ih fun r hr => (hrules r (List.mem_cons_of_mem _ hr)).mono (List.Subset.trans hw hw')

/-- A TIME_ELAPSED rule matches no event. -/
theorem trigger_ne_of_ruleMatches {rule : Rule} {event : RuleEvent}
    (h : ruleMatches rule event = true) : rule.trigger ≠ .timeElapsed := by
  intro htrigger
  unfold ruleMatches at h
  cases hcondition : rule.condition with
  | none => simp [hcondition] at h
  | some condition => simp [hcondition, htrigger] at h

/-- What comes after `evaluate` knows that the engine may execute the rules. -/
theorem fulfils_evaluate {accountId : String} {model : ExecutionModel} {event : RuleEvent}
    {g : List EvaluatedRule → Action α}
    (hg : ∀ rules w, (∀ r ∈ rules, w.db.Triggered r) → triggering.Fulfils i (g rules) w) :
    triggering.Fulfils i ((evaluate accountId model event).bind g) t := by
  refine Proc.Wp.bind (Proc.Wp.bind (Contract.wp_find undisturbed_triggering (fun env w _ ht => ?_)
    fun _ _ ht => ht))
  refine Proc.Wp.mono (fun _ _ h => List.Subset.trans ht h) (fun _ _ h => List.Subset.trans ht h)
    (hg _ w fun r hr => ?_)
  rw [selectMatching_eq_map] at hr
  obtain ⟨q, hq, rfl⟩ := List.mem_map.1 hr
  obtain ⟨hfound, hmatches⟩ := mem_of_mem_firing hq
  obtain ⟨hrule, -⟩ := Db.mem_findRules hfound
  exact ⟨q.1.trigger, Db.mem_triggers hrule, trigger_ne_of_ruleMatches hmatches⟩

section Process

open WebhookProcessor

variable {payload : InflowPayload} {account : Account}

theorem fulfils_processCustomEvent :
    triggering.Fulfils i (processCustomEvent payload account) t := by
  have F := footprint_leavesEngine
  refine Contract.Fulfils.bind (fulfils_of_leavesEngine (F.keeps_claim fun o ho x => ho.ne_create))
    fun claimed w _ => ?_
  cases claimed with
  | false => exact Contract.fulfils_ret
  | true =>
    refine fulfils_evaluate fun rules w₁ hrules => ?_
    refine Contract.Fulfils.bind ?_ fun _ _ _ => fulfils_of_leavesEngine F.keeps_audit
    unfold executeForEvent
    split
    next => exact Contract.fulfils_ret
    next =>
      refine Contract.Fulfils.bind (fulfils_of_leavesEngine F.keeps_find) fun business w₂ hw₂ => ?_
      cases business with
      | none => exact Contract.fulfils_ret
      | some _ =>
        refine fulfils_executeAll (fun r => ?_) rules fun r hr => (hrules r hr).mono hw₂
        show (Proc.ret () : Action Unit).Keeps _ _
        trivial

theorem fulfils_settleInflow {rules : List EvaluatedRule} (hrules : ∀ r ∈ rules, t.db.Triggered r) :
    triggering.Fulfils i (settleInflow payload account rules) t := by
  have F := footprint_leavesEngine
  have hreconcile : ∀ status matched w,
      triggering.Fulfils i (reconcile payload account status matched) w :=
    fun _ _ _ => fulfils_of_leavesEngine (F.keeps_reconcile fun o ho x => ho.ne_create)
  unfold settleInflow
  split
  next => exact hreconcile _ _ _
  next =>
    refine Contract.Fulfils.bind ?_ fun _ w _ => hreconcile _ _ w
    refine Contract.Fulfils.bind (fulfils_of_leavesEngine F.keeps_find) fun business w hw => ?_
    cases business with
    | none => exact Contract.fulfils_ret
    | some _ =>
      refine Contract.Fulfils.bind (fulfils_of_leavesEngine F.keeps_find) fun record w₁ hw₁ => ?_
      cases record with
      | none => exact Contract.fulfils_ret
      | some record =>
        refine fulfils_executeAll (fun _ => F.keeps_enqueueIfRetrying fun _ _ => ?_) rules
          fun r hr => (hrules r hr).mono (List.Subset.trans hw hw₁)
        exact leavesEngine_of_db_eq rfl

theorem fulfils_processUnseen : triggering.Fulfils i (processUnseen payload) t := by
  have F := footprint_leavesEngine
  have haudit : ∀ entry w, triggering.Fulfils i (audit entry) w :=
    fun _ _ => fulfils_of_leavesEngine F.keeps_audit
  have hwrite : ∀ dto status w, triggering.Fulfils i (writeInflow dto status) w :=
    fun _ _ _ => fulfils_of_leavesEngine (F.keeps_writeInflow (fun _ _ h => by cases h) _ _)
  refine Contract.Fulfils.bind (fulfils_of_leavesEngine F.keeps_find) fun found w _ => ?_
  cases found with
  | none => exact haudit _ _
  | some found =>
    dsimp only
    split
    next => exact fulfils_processCustomEvent
    next =>
      cases found.account.status with
      | suspended => exact (hwrite _ _ _).bind fun _ _ _ => haudit _ _
      | closed => exact haudit _ _
      | expired => exact haudit _ _
      | active =>
        refine (hwrite _ _ _).bind fun total w₁ _ => ?_
        refine Contract.Fulfils.bind (fulfils_of_leavesEngine keeps_bigIntOrThrow)
          fun amountKobo w₂ _ => ?_
        refine fulfils_evaluate fun rules w₃ hrules => ?_
        refine (fulfils_settleInflow hrules).bind fun _ w₄ _ => ?_
        exact fulfils_of_leavesEngine
          (F.keeps_createProcessedEvent fun o ho x => ho.ne_create)

theorem fulfils_process : triggering.Fulfils i (process payload) t := by
  have F := footprint_leavesEngine
  refine Contract.Fulfils.catching ?_ fun e w _ => ?_
  · refine Contract.Fulfils.bind (fulfils_of_leavesEngine F.keeps_find) fun existing w _ => ?_
    cases existing with
    | some _ => exact fulfils_of_leavesEngine F.keeps_audit
    | none => exact fulfils_processUnseen
  · split
    · exact fulfils_of_leavesEngine F.keeps_audit
    · exact Contract.fulfils_raise

end Process

/-! ### All tasks -/

/-- **Every task of the application** is within the contract. -/
theorem fulfils_task {isUrl : String → Bool} (task : Task) :
    triggering.Fulfils i (task.run isUrl) t := by
  cases task with
  | request businessId r =>
    exact fulfils_of_leavesEngine (requestFootprint_leavesEngine.keeps_request r)
  | inflow payload => exact fulfils_process
  | retry job =>
    exact fulfils_of_leavesEngine
      (footprint_leavesEngine.keeps_retry (fun _ _ h => by cases h) fun o ho x => ho.ne_create)

end AccountOS
