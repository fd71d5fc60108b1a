import AccountOS.Queue.Correctness.Configuration
import AccountOS.Queue.Correctness.Footprint
import AccountOS.Queue.Correctness.Redelivery

/-!
# What becomes of a flag for review

FLAG_FOR_REVIEW sets the reconciliation status of the inflow's entry to FLAGGED, in the loop over
the matching rules. After the loop the worker sets the status of the same entry to MATCHED. So of a
job that is processed to its end the flag never survives (`flag_survives_iff`).
-/

namespace AccountOS

open Conc Sql WebhookProcessor

/-! ### What the worker does between two points of a job -/

/-- From `w` to `w'` rules with these ids have been executed, in this order; no event has been
marked as processed and no ledger entry has gone. -/
structure ExecutedBetween (ruleIds : List String) (w w' : World) : Prop where
  configuration : SameConfiguration w.db w'.db
  processedEvents : w'.db.processedEvents = w.db.processedEvents
  executions : w'.db.ruleExecutions.map RuleExecution.ruleId =
    w.db.ruleExecutions.map RuleExecution.ruleId ++ ruleIds
  references : ∀ e ∈ w.db.ledgerEntries, ∃ e' ∈ w'.db.ledgerEntries,
    e'.nombaTransactionRef = e.nombaTransactionRef

namespace ExecutedBetween

variable {w w' w'' : World} {ids ids' : List String}

theorem of_sameData (h : World.SameData w w') : ExecutedBetween [] w w' where
  configuration := by rw [h.db]
  processedEvents := by rw [h.db]
  executions := by rw [h.db, List.append_nil]
  references e he := ⟨e, h.db ▸ he, rfl⟩

theorem refl (w : World) : ExecutedBetween [] w w := of_sameData (.refl w)

theorem append (h : ExecutedBetween ids w w') (h' : ExecutedBetween ids' w' w'') :
    ExecutedBetween (ids ++ ids') w w'' where
  configuration := h.configuration.trans h'.configuration
  processedEvents := h'.processedEvents.trans h.processedEvents
  executions := by rw [h'.executions, h.executions, List.append_assoc]
  references e he := by
    obtain ⟨e', he', href⟩ := h.references e he
    obtain ⟨e'', he'', href'⟩ := h'.references e' he'
    exact ⟨e'', he'', href'.trans href⟩

theorem trans (h : ExecutedBetween [] w w') (h' : ExecutedBetween [] w' w'') :
    ExecutedBetween [] w w'' := h.append h'

end ExecutedBetween

/-- The statements that record no execution and mark no event as processed. -/
def WriteOp.AfterRecording (o : WriteOp) : Prop :=
  o.Recording ∨ o.Reconciling ∨ (∃ e, o = .createBucketLedgerEntry e) ∨
    ∃ e, o = .createLedgerEntry e

theorem executedBetween_of_apply {o : WriteOp} (ho : o.AfterRecording) {w : World} {db : Db}
    (hop : o.apply w.db = .ok db) : ExecutedBetween [] w { w with db } := by
  have hsame := WriteOp.sameExcept hop
  have hconfiguration : ¬ o.Configures := by
    rcases ho with ho | ho | ⟨e, rfl⟩ | ⟨e, rfl⟩
    · cases o <;> first | exact ho.elim | exact id
    · cases o <;> first | exact ho.elim | exact id
    · exact id
    · exact id
  refine ⟨.of_apply hop hconfiguration, ?_, ?_, ?_⟩
  · refine hsame.processedEvents ?_
    rcases ho with ho | ho | ⟨e, rfl⟩ | ⟨e, rfl⟩
    · cases o <;> first | exact ho.elim | nofun
    · cases o <;> first | exact ho.elim | nofun
    · nofun
    · nofun
  · rw [List.append_nil]
    cases o with
    | updateRuleExecution id data =>
      obtain ⟨-, rfl⟩ := Db.updateRuleExecution_eq_ok.1 hop
      exact map_updateRow (fun _ => by rfl) _
    | createRuleExecution x => rcases ho with ho | ho | ⟨e, ⟨⟩⟩ | ⟨e, ⟨⟩⟩ <;> exact ho.elim
    | archiveExecutions id => rcases ho with ho | ho | ⟨e, ⟨⟩⟩ | ⟨e, ⟨⟩⟩ <;> exact ho.elim
    | _ => exact congrArg _ (hsame.ruleExecutions nofun)
  · intro e he
    have hmap : ∀ {l : List LedgerEntry}, l.map LedgerEntry.nombaTransactionRef =
        w.db.ledgerEntries.map LedgerEntry.nombaTransactionRef →
        ∃ e' ∈ l, e'.nombaTransactionRef = e.nombaTransactionRef := by
      intro l hl
      exact List.mem_map.1 (hl ▸ List.mem_map_of_mem he)
    cases o with
    | createLedgerEntry x =>
      obtain ⟨-, -, -, rfl⟩ := Db.createLedgerEntry_eq_ok.1 hop
      exact ⟨e, List.mem_append_left _ he, rfl⟩
    | updateReconciliationByRef ref status =>
      obtain ⟨-, rfl⟩ := Db.updateReconciliationByRef_eq_ok.1 hop
      exact hmap (map_updateRow (fun _ => by rfl) _)
    | updateReconciliationById id status =>
      obtain ⟨-, rfl⟩ := Db.updateReconciliationById_eq_ok.1 hop
      exact hmap (map_updateRow (fun _ => by rfl) _)
    | _ => exact hmap (congrArg _ (hsame.ledgerEntries nofun))

theorem footprint_executedBetween :
    Footprint WriteOp.AfterRecording (ExecutedBetween []) where
  sameData := .of_sameData
  writes ho hop hw := hw ▸ executedBetween_of_apply ho hop

/-! ### A job, from the start to its `ProcessedEvent` row -/

section Job

variable {allowed : Call → Env → World → World → Prop} {payload : InflowPayload}
  {account : Account} {rule : EvaluatedRule} {entry : TriggerEntry} {w : World}

/-- No event has been marked as processed since `w`. -/
def NotProcessedSince (w w' : World) : Prop := w'.db.processedEvents = w.db.processedEvents

theorem ensures_createRuleExecution :
    (createRuleExecution rule entry).Ensures allowed
      (fun _ w' => ExecutedBetween [rule.id] w w') (fun _ w' => NotProcessedSince w w') w := by
  refine ensures_transaction logsOnly_nothing (fun env x db w' _ _ hrun hw' => ?_)
    fun env e w' _ hthrown => congrArg Db.processedEvents hthrown.same.db
  obtain ⟨hop, -⟩ := createRuleExecution_run_eq_ok hrun
  obtain ⟨-, -, -, -, rfl⟩ := Db.createRuleExecution_eq_ok.1 hop
  subst hw'
  refine ⟨⟨rfl, rfl, rfl, rfl⟩, rfl, ?_, fun e he => ⟨e, he, rfl⟩⟩
  show List.map _ (_ ++ [_]) = _
  rw [List.map_append]
  rfl

theorem ensures_execute :
    (execute rule entry).Ensures allowed (fun _ w' => ExecutedBetween [rule.id] w w')
      (fun _ w' => NotProcessedSince w w') w := by
  refine Proc.Ensures.bind (ensures_createRuleExecution.mono (fun x w₁ hcreated => ?_)
    fun _ _ h => h)
  have hact : (act x rule entry).Keeps allowed (ExecutedBetween []) :=
    footprint_executedBetween.keeps_act (fun _ ho => .inl ho)
      (fun e => .inr (.inr (.inl ⟨e, rfl⟩))) (.inr fun _ ho => .inr (.inl ho))
  refine (hact.ensures .refl (fun _ _ _ h h' => h.trans h') w₁).mono (fun r w₂ h => ?_)
    fun e w₂ h => h.processedEvents.trans hcreated.processedEvents
  exact hcreated.append h

/-- **The loop over the matching rules** executes each of them. -/
theorem ensures_executeForInflow (rules : List EvaluatedRule) :
    (executeForInflow entry rules).Ensures allowed
      (fun _ w' => ExecutedBetween (rules.map EvaluatedRule.id) w w')
      (fun _ w' => NotProcessedSince w w') w := by
  induction rules generalizing w with
  | nil => exact .refl w
  | cons rule rules ih =>
    -- a retry is put into the queue between two rules, and changes no row
    refine Proc.Ensures.bind (ensures_execute.mono (fun r w₁ hexecuted => ?_) fun _ _ h => h)
    have hafter : (enqueueIfRetrying r).Keeps allowed (ExecutedBetween []) :=
      footprint_executedBetween.keeps_enqueueIfRetrying fun w job =>
        ⟨.refl _, rfl, (List.append_nil _).symm, fun e he => ⟨e, he, rfl⟩⟩
    refine Proc.Ensures.bind ((hafter.ensures .refl (fun _ _ _ h h' => h.trans h') w₁).mono ?_ ?_)
    · intro _ w₂ henqueued
      refine ih.mono (fun _ w₃ hrest => ?_) fun e w₃ hrest => ?_
      · exact (hexecuted.append henqueued).append hrest
      · exact (hrest.trans henqueued.processedEvents).trans hexecuted.processedEvents
    · exact fun e w₂ henqueued => henqueued.processedEvents.trans hexecuted.processedEvents

/-- The inflow's entry is there, and not FLAGGED. -/
def Unflagged (payload : InflowPayload) (db : Db) : Prop :=
  (∃ e ∈ db.ledgerEntries, e.nombaTransactionRef = payload.transactionRef) ∧
    ∀ e ∈ db.ledgerEntries, e.nombaTransactionRef = payload.transactionRef →
      e.reconciliationStatus ≠ .flagged

/-- Setting the status to another one takes a flag away. -/
theorem unflagged_of_reconcile {db db' : Db} {status : ReconciliationStatus}
    (hstatus : status ≠ .flagged)
    (hop : db.updateReconciliationByRef payload.transactionRef status = .ok db') :
    Unflagged payload db' := by
  obtain ⟨⟨e, he, href⟩, rfl⟩ := Db.updateReconciliationByRef_eq_ok.1 hop
  refine ⟨⟨_, mem_updateRow_of_eq he href, href⟩, fun e' he' href' => ?_⟩
  rcases mem_updateRow_cases he' with ⟨y, -, -, rfl⟩ | ⟨-, hne⟩
  · exact hstatus
  · exact absurd href' hne

theorem ensures_reconcile {status : ReconciliationStatus} (hstatus : status ≠ .flagged)
    {matchedRules : List (String × Json)} :
    (reconcile payload account status matchedRules).Ensures allowed
      (fun _ w' => ExecutedBetween [] w w' ∧ Unflagged payload w'.db)
      (fun _ w' => NotProcessedSince w w') w := by
  refine Proc.Ensures.bind (ensures_statement (fun env db w₁ _ _ hop hw₁ => ?_)
    fun env e w₁ _ hsame _ => congrArg Db.processedEvents hsame.db)
  subst hw₁
  refine ensures_audit fun w₂ hsame => ⟨?_, ?_⟩
  · exact (executedBetween_of_apply (o := .updateReconciliationByRef _ _) (.inr (.inl trivial))
      hop).trans (.of_sameData hsame)
  · rw [hsame.db]
    exact unflagged_of_reconcile hstatus hop

/-- **The flag is set in the loop and taken away after it.** -/
theorem ensures_settleInflow (hbusiness : w.db.findBusiness account.businessId ≠ none)
    (hentry : ∃ e ∈ w.db.ledgerEntries, e.nombaTransactionRef = payload.transactionRef)
    (rules : List EvaluatedRule) :
    (settleInflow payload account rules).Ensures allowed
      (fun _ w' => ExecutedBetween (rules.map EvaluatedRule.id) w w' ∧ Unflagged payload w'.db)
      (fun _ w' => NotProcessedSince w w') w := by
  unfold settleInflow
  -- no rule matches: UNMATCHED; otherwise the loop, and MATCHED after it
  split
  next hnil =>
    rw [hnil]
    exact ensures_reconcile (by decide)
  next =>
    refine Proc.Ensures.bind (Proc.Ensures.bind (ensures_find (fun env _ => ?_)
      fun env e w₁ _ _ hsame => congrArg Db.processedEvents hsame.db))
    cases hfound : w.db.findBusiness account.businessId with
    | none => exact absurd hfound hbusiness
    | some business =>
      refine Proc.Ensures.bind (ensures_find (fun env _ => ?_)
        fun env e w₁ _ _ hsame => congrArg Db.processedEvents hsame.db)
      cases hrecord : w.db.findLedgerEntry payload.transactionRef with
      | none =>
        obtain ⟨e, he, href⟩ := hentry
        exact absurd href (by simpa using List.find?_eq_none.1 hrecord e he)
      | some record =>
        refine (ensures_executeForInflow rules).mono (fun _ w₁ hexecuted => ?_) fun _ _ h => h
        refine (ensures_reconcile (by decide)).mono (fun _ w₂ h => ?_) fun e w₂ h => ?_
        · have happend := hexecuted.append h.1
          rw [List.append_nil] at happend
          exact ⟨happend, h.2⟩
        · exact h.trans hexecuted.processedEvents

/-- Of the rules in force, those that the inflow matches, in the order of the rows. -/
def selectedRules (db : Db) (rank : String → Nat) (a : Account) (amountKobo : Int) :
    List EvaluatedRule :=
  selectMatching a.executionModel (inflowEvent amountKobo (db.inflowSum a.id + amountKobo))
    (db.findRules rank a.id)

/-- The rows of an account's rules are returned in the order `rank`. -/
def RowsInOrder (accountId : String) (rank : String → Nat) (l : Call) (env : Env) (_ _ : World) :
    Prop :=
  l = .findRules accountId → env.rank = rank

/-- A job that has come to its end: the selected rules have been executed, and the entry is not
FLAGGED. -/
def JobFinished (payload : InflowPayload) (rules : List EvaluatedRule) (w w' : World) : Prop :=
  w'.db.ruleExecutions.map RuleExecution.ruleId =
      w.db.ruleExecutions.map RuleExecution.ruleId ++ rules.map EvaluatedRule.id ∧
    Unflagged payload w'.db

theorem ensures_processInflow {found : FoundAccount} {rank : String → Nat} {amountKobo : Int}
    (hbusiness : w.db.findBusiness found.account.businessId ≠ none)
    (hamount : payload.amountKobo = (amountKobo : ℚ)) :
    (processInflow payload found).Ensures (RowsInOrder found.account.id rank)
      (fun _ w' => JobFinished payload (selectedRules w.db rank found.account amountKobo) w w')
      (fun _ w' => NotProcessedSince w w') w := by
  refine Proc.Ensures.bind (ensures_transaction logsOnly_nothing
    (fun env total db w₁ _ _ hrun hw₁ => ?_)
    fun env e w₁ _ hthrown => congrArg Db.processedEvents hthrown.same.db)
  obtain ⟨n, hn, htotal, hop⟩ := (writeInflowTx_run_eq_ok w.db).1 hrun
  -- the amount that was written is the one of the payload
  obtain rfl : n = amountKobo := by
    have hcast : ((n : Int) : ℚ) = amountKobo := hn.symm.trans hamount
    exact_mod_cast hcast
  have hwritten : ExecutedBetween [] w w₁ := hw₁ ▸
    executedBetween_of_apply (o := .createLedgerEntry _) (.inr (.inr (.inr ⟨_, rfl⟩))) hop
  have hentry : ∃ e ∈ w₁.db.ledgerEntries, e.nombaTransactionRef = payload.transactionRef := by
    obtain ⟨-, -, -, rfl⟩ := Db.createLedgerEntry_eq_ok.1 hop
    subst hw₁
    exact ⟨_, List.mem_append_right _ (List.mem_singleton_self _), rfl⟩
  have hint : bigIntOrThrow payload.amountKobo = .ret n := by
    rw [bigIntOrThrow, hamount, bigInt_intCast]
  rw [hint]
  refine Proc.Ensures.bind (Proc.ensures_ret.2 ?_)
  refine Proc.Ensures.bind (Proc.Ensures.bind (ensures_find (fun env horder => ?_)
    fun env e w₂ _ _ hsame =>
      (congrArg Db.processedEvents hsame.db).trans hwritten.processedEvents))
  -- the rules are read after the entry has been written
  have hrules : selectMatching found.account.executionModel (inflowEvent n total)
      (w₁.db.findRules env.rank found.account.id) =
        selectedRules w.db rank found.account n := by
    rw [horder rfl, hwritten.configuration.findRules, htotal]
    rfl
  rw [hrules]
  have hbusiness₁ : w₁.db.findBusiness found.account.businessId ≠ none := by
    rw [hwritten.configuration.findBusiness]
    exact hbusiness
  refine Proc.Ensures.bind ((ensures_settleInflow hbusiness₁ hentry _).mono
    (fun _ w₂ hsettled => ?_) fun e w₂ h => h.trans hwritten.processedEvents)
  obtain ⟨hexecuted, hunflagged⟩ := hsettled
  have hall := hwritten.append hexecuted
  refine ensures_statement (fun env db w₃ _ _ hop hw₃ => ?_) fun env e w₃ _ hsame _ =>
    (congrArg Db.processedEvents hsame.db).trans hall.processedEvents
  obtain ⟨-, -, rfl⟩ := Db.createProcessedEvent_eq_ok.1 hop
  subst hw₃
  exact ⟨hall.executions, hunflagged⟩

/-- A job that marks its event as processed has come to its end. -/
theorem ensures_process {a : Account} {rank : String → Nat} {amountKobo : Int}
    (hfound : w.db.findAccount payload.accountNumber = some a) (hactive : a.status = .active)
    (hbusiness : w.db.findBusiness a.businessId ≠ none) (hinflow : isCustomEvent payload = false)
    (hamount : payload.amountKobo = (amountKobo : ℚ)) (hunprocessed : ¬ w.db.Processed payload) :
    (process payload).Ensures (RowsInOrder a.id rank)
      (fun _ w' => w'.db.Processed payload →
        JobFinished payload (selectedRules w.db rank a amountKobo) w w')
      (fun _ _ => True) w := by
  have hnot : ∀ {w'}, NotProcessedSince w w' → ¬ w'.db.Processed payload := by
    intro w' hsame hprocessed
    unfold Db.Processed at hprocessed
    rw [hsame] at hprocessed
    exact hunprocessed hprocessed
  have hevent : (processEvent payload).Ensures (RowsInOrder a.id rank)
      (fun _ w' => w'.db.Processed payload →
        JobFinished payload (selectedRules w.db rank a amountKobo) w w')
      (fun _ w' => NotProcessedSince w w') w := by
    refine Proc.Ensures.bind (ensures_find (fun env _ => ?_)
      fun env e w₁ _ _ hsame => congrArg Db.processedEvents hsame.db)
    cases hexisting : w.db.findProcessedEvent payload.eventId with
    | some existing =>
      have hid : existing.eventId = payload.eventId := by simpa using List.find?_some hexisting
      exact absurd ⟨existing, List.mem_of_find?_eq_some hexisting, hid⟩ hunprocessed
    | none =>
      refine Proc.Ensures.bind (ensures_find (fun env _ => ?_)
        fun env e w₁ _ _ hsame => congrArg Db.processedEvents hsame.db)
      rw [hfound]
      show (if isCustomEvent payload = true then _ else _ : Action Unit).Ensures _ _ _ w
      rw [if_neg (by simp [hinflow]), hactive]
      exact (ensures_processInflow hbusiness hamount).mono (fun _ _ h _ => h) fun _ _ h => h
  -- what is caught here is logged or thrown on; the event stays unprocessed
  refine Proc.Ensures.catching (hevent.mono (fun _ _ h => h) fun e w₁ hsame => ?_)
  split
  next =>
    refine ensures_audit fun w₂ hlogged hprocessed => absurd hprocessed (hnot ?_)
    exact (congrArg Db.processedEvents hlogged.db).trans hsame
  next => trivial

end Job

/-! ### The flag -/

/-- A FLAG_FOR_REVIEW rule has been executed since `w`. -/
def FlagExecutedSince (w w' : World) : Prop :=
  ∃ x ∈ w'.db.ruleExecutions.drop w.db.ruleExecutions.length, ∃ r ∈ w.db.rules,
    r.id = x.ruleId ∧ r.action = .flagForReview

instance (w w' : World) : Decidable (FlagExecutedSince w w') :=
  inferInstanceAs (Decidable (∃ x ∈ _, ∃ r ∈ _, _))

section Flag

variable {w w' : World} {payload : InflowPayload} {a : Account} {rank : String → Nat}
  {amountKobo : Int}

/-- The rule of a selected rule. -/
theorem exists_rule_of_selected {e : EvaluatedRule}
    (he : e ∈ selectedRules w.db rank a amountKobo) :
    ∃ r ∈ w.db.rules, r.id = e.id ∧ r.action = e.action := by
  obtain ⟨q, hq, rfl⟩ := selectMatching_subset he
  exact ⟨q.1, (Db.mem_findRules hq).1, rfl, rfl⟩

/-- What a finished job has executed. -/
theorem flagExecutedSince_iff (unique : w.db.UniqueColumns)
    (h : JobFinished payload (selectedRules w.db rank a amountKobo) w w') :
    FlagExecutedSince w w' ↔
      ∃ e ∈ selectedRules w.db rank a amountKobo, e.action = .flagForReview := by
  -- the executions that the job has added are those of the selected rules
  have hadded : (w'.db.ruleExecutions.drop w.db.ruleExecutions.length).map
      RuleExecution.ruleId = (selectedRules w.db rank a amountKobo).map EvaluatedRule.id := by
    rw [List.map_drop, h.1]
    exact List.drop_left' (List.length_map _)
  constructor
  · rintro ⟨x, hx, r, hr, hid, haction⟩
    have hmem : x.ruleId ∈ (selectedRules w.db rank a amountKobo).map EvaluatedRule.id :=
      hadded ▸ List.mem_map_of_mem hx
    obtain ⟨e, he, heid⟩ := List.mem_map.1 hmem
    obtain ⟨r', hr', hid', haction'⟩ := exists_rule_of_selected he
    have hsame : r' = r :=
      eq_of_key_eq unique.rules hr' hr (hid'.trans (heid.trans hid.symm))
    refine ⟨e, he, ?_⟩
    rw [← haction', hsame, haction]
  · rintro ⟨e, he, haction⟩
    have hmem : e.id ∈ (w'.db.ruleExecutions.drop w.db.ruleExecutions.length).map
        RuleExecution.ruleId := hadded ▸ List.mem_map_of_mem he
    obtain ⟨x, hx, hxid⟩ := List.mem_map.1 hmem
    obtain ⟨r, hr, hid, hraction⟩ := exists_rule_of_selected he
    exact ⟨x, hx, r, hr, hid.trans hxid.symm, hraction.trans haction⟩

/-- **When a flag for review survives.** Of an inflow to an ACTIVE account whose job is processed to
its end, the entry is FLAGGED wherever a FLAG_FOR_REVIEW rule was executed only if none was: the
inflow selects no such rule. -/
theorem flag_survives_iff (unique : w.db.UniqueColumns)
    (found : w.db.findAccount payload.accountNumber = some a) (active : a.status = .active)
    (business : w.db.findBusiness a.businessId ≠ none) (inflow : isCustomEvent payload = false)
    (amount : payload.amountKobo = (amountKobo : ℚ)) (unprocessed : ¬ w.db.Processed payload)
    (finished : (process payload).Finishes (RowsInOrder a.id rank) w (.ok ()) w')
    (processed : w'.db.Processed payload) :
    (FlagExecutedSince w w' → ∀ e ∈ w'.db.ledgerEntries,
        e.nombaTransactionRef = payload.transactionRef → e.reconciliationStatus = .flagged) ↔
      ∀ r ∈ selectedRules w.db rank a amountKobo, r.action ≠ .flagForReview := by
  have hjob : JobFinished payload (selectedRules w.db rank a amountKobo) w w' :=
    ((ensures_process found active business inflow amount unprocessed).sound finished).1 () rfl
      processed
  rw [flagExecutedSince_iff unique hjob]
  obtain ⟨-, ⟨e, he, href⟩, hunflagged⟩ := hjob
  constructor
  · intro hflagged r hr haction
    exact hunflagged e he href (hflagged ⟨r, hr, haction⟩ e he href)
  · rintro hnone ⟨r, hr, haction⟩
    exact absurd haction (hnone r hr)

end Flag

namespace Sample

/-- Flags every inflow for review. -/
def review : Rule := { release "rule1" {} with action := .flagForReview, payload := none }

/-- An inflow is processed, with nothing going wrong. -/
def processReviewed (rules : List Rule) :
    List (Event Unit World Env Call) × (Unit → Action Unit) × World :=
  exec (fun _ => process inflow) (shop [] rules)
    (unit (["r1", "r2", "r3", "r4", "r5", "r6", "r7", "r8", "r9", "r10", "r11", "r12", "r13"].map
      fun id => { row := { id } }))

theorem processReviewed_finishes {rules : List Rule}
    (hdone : (processReviewed rules).2.1 () = .ret ()) :
    (process inflow).Finishes (RowsInOrder "acc1" fun _ => 0) (shop [] rules) (.ok ())
      (processReviewed rules).2.2 := by
  refine ⟨_, _, Run.of_exec _ _ _ fun ev hev _ => ?_, hdone⟩
  obtain ⟨env, henv, heq⟩ := List.mem_map.1 (mem_of_mem_exec _ _ _ ev hev)
  obtain ⟨id, -, rfl⟩ := List.mem_map.1 henv
  rw [← (Prod.mk.inj heq).2]

end Sample

/-- An account whose only rule flags every inflow: the flag does not survive. -/
theorem flag_survives_iff_review :
    ∃ w', (process Sample.inflow).Finishes (RowsInOrder Sample.account.id fun _ => 0)
        (Sample.shop [] [Sample.review]) (.ok ()) w' ∧
      ¬ (FlagExecutedSince (Sample.shop [] [Sample.review]) w' → ∀ e ∈ w'.db.ledgerEntries,
        e.nombaTransactionRef = "trx1" → e.reconciliationStatus = .flagged) := by
  have unique : (Sample.shop [] [Sample.review]).db.UniqueColumns := by constructor <;> decide
  have found : (Sample.shop [] [Sample.review]).db.findAccount Sample.inflow.accountNumber =
      some Sample.account := rfl
  have amount : Sample.inflow.amountKobo = ((500 : Int) : ℚ) := rfl
  have unprocessed : ¬ (Sample.shop [] [Sample.review]).db.Processed Sample.inflow := by
    unfold Db.Processed
    decide
  have finished : (process Sample.inflow).Finishes (RowsInOrder Sample.account.id fun _ => 0)
      (Sample.shop [] [Sample.review]) (.ok ()) (Sample.processReviewed [Sample.review]).2.2 :=
    Sample.processReviewed_finishes (Proc.returned_eq_some.1 (by decide +kernel))
  have processed : (Sample.processReviewed [Sample.review]).2.2.db.Processed Sample.inflow := by
    unfold Db.Processed
    decide +kernel
  have selected : ∃ r ∈ selectedRules (Sample.shop [] [Sample.review]).db (fun _ => 0)
      Sample.account 500, r.action = .flagForReview := by decide +kernel
  refine ⟨_, finished, fun hsurvives => ?_⟩
  obtain ⟨r, hr, haction⟩ := selected
  exact (flag_survives_iff unique found rfl (by decide) rfl amount unprocessed finished
    processed).1 hsurvives r hr haction

/-- **A flag for review is lost.** A FLAG_FOR_REVIEW rule is executed for an inflow, with nothing
going wrong, and when the job is done the inflow is MATCHED. -/
theorem flag_is_overwritten :
    ∃ w', (process Sample.inflow).Finishes (fun _ _ _ _ => True) (Sample.shop [] [Sample.review])
        (.ok ()) w' ∧
      w'.db.Processed Sample.inflow ∧ FlagExecutedSince (Sample.shop [] [Sample.review]) w' ∧
      w'.db.ruleExecutions.map RuleExecution.status = [.completed] ∧
      w'.db.ledgerEntries.map LedgerEntry.reconciliationStatus = [.matched] := by
  refine ⟨(Sample.processReviewed [Sample.review]).2.2,
    ⟨_, _, Run.of_exec _ _ _ fun _ _ => trivial, Proc.returned_eq_some.1 (by decide +kernel)⟩, ?_,
    by decide +kernel, by decide +kernel, by decide +kernel⟩
  unfold Db.Processed
  decide +kernel

end AccountOS
