import AccountOS.Accounts.AccountLifecycle
import AccountOS.Rules.Correctness.Steps
import AccountOS.Store.Alone

/-!
# The two paths that write rules

An account gets its first rules from `provisionAccount` and any later ones from `replaceRuleSet`.
The two validate, map and store a rule set by code of their own. They store the same rows, and they
refuse the same rule sets as far as the schema goes; the limit on the percentages of a PARALLEL
account is checked by `replaceRuleSet` alone.
-/

namespace AccountOS

open Conc Sql

/-! ### The mapping -/

namespace AccountLifecycle

/-- A table is looked up one entry after the other. -/
theorem lookup_cons {α : Type} (k key : String) (v : α) (table : List (String × α)) :
    List.lookup k ((key, v) :: table) = if k = key then some v else table.lookup k := by
  rw [List.lookup_cons]
  by_cases h : k = key
  · simp [h]
  · have hne : (k == key) = false := by simpa using h
    rw [hne, if_neg h]

theorem toRuleTrigger_eq (trigger : String) :
    toRuleTrigger trigger = AccountOS.toRuleTrigger trigger := by
  simp only [toRuleTrigger, triggerMap, lookup_cons, List.lookup_nil, AccountOS.toRuleTrigger]

theorem toRuleAction_eq (action : String) :
    toRuleAction action = AccountOS.toRuleAction action := by
  simp only [toRuleAction, actionMap, lookup_cons, List.lookup_nil, AccountOS.toRuleAction]

/-- **The nested creates of the two paths are the same.** -/
theorem createRules_eq (accountId : String) (kycTier : KycTier) (rows : Nat → Generated) (n : Nat)
    (rules : List RuleDefinition) :
    createRules accountId kycTier rows n rules =
      AccountOS.createRules accountId kycTier rows n rules := by
  induction rules generalizing n with
  | nil => rfl
  | cons r rules ih =>
    unfold createRules AccountOS.createRules
    rw [toRuleTrigger_eq, toRuleAction_eq]
    simp only [ih]
    rfl

end AccountLifecycle

/-- **What creating an account does**: it appends the account and a row for each definition. -/
theorem createAccountTx_run {dto : ProvisionAccountDto} {nombaResult : ProvisionDvaResult}
    {customer : Customer} {businessId : String} {env : Env} {db : Db} {r : ProvisionedAccount × Db}
    (hrun : (createAccountTx dto nombaResult customer businessId env).run schema db = .ok r) :
    ∃ account added, account = dto.account env.row nombaResult customer businessId ∧
      (∀ x ∈ db.accounts, x.id ≠ account.id) ∧
      List.Forall₂ (RuleDefinition.StoredAs account.id customer.kycTier) dto.rules added ∧
      r.2 = { db with accounts := db.accounts ++ [account], rules := db.rules ++ added } := by
  simp only [createAccountTx, Tx.bind_eq, Tx.run_bind_eq_ok, Tx.run_exec_eq_ok, schema_apply,
    WriteOp.apply, Tx.run_query, Tx.pure_eq, Tx.run_ret, Except.ok.injEq] at hrun
  obtain ⟨_, db₁, hcreate, _, db₂, hrules, _, db₃, hquery, hresult⟩ := hrun
  cases hquery
  subst hresult
  obtain ⟨hfresh, -, -, -, -, -, rfl⟩ := Db.createAccount_eq_ok.1 hcreate
  rw [AccountLifecycle.createRules_eq] at hrules
  obtain ⟨added, hadded, hdb⟩ := createRules_run hrules
  exact ⟨_, added, rfl, hfresh, hadded, hdb⟩

/-! ### The rows -/

/-- What the two paths are to agree on. -/
def Rule.content (r : Rule) :
    RuleTrigger × Option RuleCondition × RuleAction × Option RulePayload × Int :=
  (r.trigger, r.condition, r.action, r.payload, r.priority)

/-- The rows that have been added to the table of rules. -/
def newRules (before after : World) : List Rule := after.db.rules.drop before.db.rules.length

theorem newRules_eq {before after : World} {old added : List Rule}
    (hlength : old.length = before.db.rules.length) (hrules : after.db.rules = old ++ added) :
    newRules before after = added := by
  rw [newRules, hrules, ← hlength, List.drop_left]

/-- The content of a row is decided by its definition. -/
theorem content_eq_of_storedAs {accountId accountId' : String} {kycTier kycTier' : KycTier}
    {rules : List RuleDefinition} {added added' : List Rule}
    (h : List.Forall₂ (RuleDefinition.StoredAs accountId kycTier) rules added)
    (h' : List.Forall₂ (RuleDefinition.StoredAs accountId' kycTier') rules added') :
    added.map Rule.content = added'.map Rule.content := by
  induction h generalizing added' with
  | nil =>
    cases h'
    rfl
  | cons hd _ ih =>
    cases h' with
    | cons hd' hrest' =>
      obtain ⟨trigger, action, row, htrigger, haction, rfl⟩ := hd
      obtain ⟨trigger', action', row', htrigger', haction', rfl⟩ := hd'
      obtain rfl : trigger = trigger' := Option.some.inj (htrigger.symm.trans htrigger')
      obtain rfl : action = action' := Option.some.inj (haction.symm.trans haction')
      rw [List.map_cons, List.map_cons, ih hrest']
      rfl

/-- The rows of the definitions have been added to what was there, which may have been archived. -/
def StoresRules (rules : List RuleDefinition) (before after : World) : Prop :=
  ∃ accountId kycTier added,
    List.Forall₂ (RuleDefinition.StoredAs accountId kycTier) rules added ∧
      newRules before after = added

theorem StoresRules.of_sameData {rules : List RuleDefinition} {w w' w'' : World}
    (h : StoresRules rules w w') (hsame : World.SameData w' w'') : StoresRules rules w w'' := by
  obtain ⟨accountId, kycTier, added, hadded, hnew⟩ := h
  refine ⟨accountId, kycTier, added, hadded, ?_⟩
  rw [newRules, hsame.db]
  exact hnew

section Stored

variable {allowed : Call → Env → World → World → Prop} {w : World}

/-- **`provisionAccount` stores its rules.** -/
theorem ensures_provisionAccount {isUrl : String → Bool} {dto : ProvisionAccountDto}
    {businessId : String} :
    (provisionAccount isUrl dto businessId).Ensures allowed
      (fun _ w' => StoresRules dto.rules w w') (fun _ _ => True) w := by
  unfold provisionAccount
  split
  next =>
    refine Proc.Ensures.bind (ensures_find (fun env _ => ?_) fun _ _ _ _ _ _ => trivial)
    cases w.db.findAccountRef dto.accountRef with
    | some _ => trivial
    | none =>
      refine Proc.Ensures.bind (ensures_find (fun env _ => ?_) fun _ _ _ _ _ _ => trivial)
      cases w.db.findCustomerOf dto.customerId businessId with
      | none => trivial
      | some customer =>
        refine Proc.Ensures.bind (ensures_find (fun env _ => ?_) fun _ _ _ _ _ _ => trivial)
        cases w.db.findBusiness businessId with
        | none => trivial
        | some business =>
          refine Proc.Ensures.bind (Proc.Ensures.call fun env _ => ?_)
          cases env.fault with
          | some f => exact ⟨nofun, fun _ _ => trivial⟩
          | none =>
            refine ⟨fun nombaResult _ => ?_, fun _ _ => trivial⟩
            refine Proc.Ensures.bind (Proc.Ensures.catching (ensures_transaction logsOnly_nothing
              (fun env provisioned db w' _ _ hrun hw' => ?_) fun env e w' _ _ => ?_))
            · -- the account and its rules have been created
              have hstores : StoresRules dto.rules w w' := by
                obtain ⟨account, added, -, -, hadded, hdb⟩ := createAccountTx_run hrun
                have hdb : db = _ := hdb
                exact ⟨_, _, added, hadded, newRules_eq rfl (by rw [hw', hdb])⟩
              exact Proc.Ensures.bind (ensures_audit fun w'' hsame => hstores.of_sameData hsame)
            · refine Proc.Ensures.bind (Proc.Ensures.catching (Proc.Ensures.call fun env _ => ?_))
              exact ⟨fun _ _ => trivial, fun _ _ => trivial⟩
  next => trivial

theorem ensures_storeRuleSet {a : Account} {model : ExecutionModel} {rules : List RuleDefinition}
    {businessId : String} :
    (storeRuleSet a model rules businessId).Ensures allowed (fun _ w' => StoresRules rules w w')
      (fun _ _ => True) w := by
  refine Proc.Ensures.bind (ensures_find (fun _ _ => ?_) fun _ _ _ _ _ _ => trivial)
  refine Proc.Ensures.bind (ensures_statement (fun env db w' _ _ hdb hw' => ?_)
    fun _ _ _ _ _ _ => trivial)
  refine Proc.Ensures.bind (ensures_transaction logsOnly_nothing
    (fun _ rs db' w'' _ _ hrun hw'' => ?_) fun _ _ _ _ _ => trivial)
  have hstores : StoresRules rules w w'' := by
    obtain ⟨added, hadded, hdb'⟩ := updateRulesTx_run hrun
    have hdb' : db' = _ := hdb'
    have hlength : w'.db.rules.length = w.db.rules.length := by
      cases hdb
      rw [hw']
      exact List.length_map _
    exact ⟨_, _, added, hadded, newRules_eq hlength (by rw [hw'', hdb'])⟩
  exact Proc.Ensures.bind (ensures_audit fun _ hsame => hstores.of_sameData hsame)

/-- **`replaceRuleSet` stores its rules.** -/
theorem ensures_replaceRuleSet {isUrl : String → Bool} {accountRef businessId : String}
    {dto : ReplaceRuleSetDto} :
    (replaceRuleSet isUrl accountRef businessId dto).Ensures allowed
      (fun _ w' => StoresRules dto.rules w w') (fun _ _ => True) w := by
  refine Proc.Ensures.bind (ensures_find (fun _ _ => ?_) fun _ _ _ _ _ _ => trivial)
  cases w.db.findAccountByRef accountRef businessId with
  | none => trivial
  | some a =>
    dsimp only
    split
    next =>
      split
      next =>
        unfold enforcePercentageSum
        dsimp only
        split
        next => trivial
        next => exact ensures_storeRuleSet
      next => exact ensures_storeRuleSet
    next => trivial

end Stored

/-! ### Which rule sets are refused -/

/-- The errors that refuse a rule set. -/
def Error.refusesRules : Error → Bool
  | .http 400 _ "INVALID_RULE_SET" _ => true
  | .http 400 _ "PERCENTAGE_SUM_EXCEEDS_100" _ => true
  | _ => false

/-- `provisionAccount` refuses the rule set before it calls anything. -/
def ProvisionRefuses (isUrl : String → Bool) (dto : ProvisionAccountDto) (businessId : String) :
    Prop :=
  ∃ e : Error, e.refusesRules = true ∧ provisionAccount isUrl dto businessId = .raise e

/-- `replaceRuleSet` refuses the rule set, having written nothing, where no call fails. -/
def ReplaceRefuses (isUrl : String → Bool) (accountRef businessId : String)
    (dto : ReplaceRuleSetDto) (w : World) : Prop :=
  ∀ env : Call → Env, (∀ l, (env l).fault = none) → ∃ e : Error, e.refusesRules = true ∧
    (replaceRuleSet isUrl accountRef businessId dto).runWith env w = (.error e, w)

theorem provisionRefuses_iff {isUrl : String → Bool} {dto : ProvisionAccountDto}
    {businessId : String} :
    ProvisionRefuses isUrl dto businessId ↔
      validateRuleSet isUrl dto.accountRef dto.rules = false := by
  unfold ProvisionRefuses provisionAccount
  cases validateRuleSet isUrl dto.accountRef dto.rules with
  | false => exact iff_of_true ⟨_, rfl, rfl⟩ rfl
  | true =>
    -- the first call has been made
    refine iff_of_false ?_ (by simp)
    rintro ⟨e, -, he⟩
    simp [find, Proc.call, Proc.bind] at he

/-- What a transaction that stores rules can throw is no refusal. -/
theorem not_refuses_of_createRules {accountId : String} {kycTier : KycTier}
    {rows : Nat → Generated} {n : Nat} {rules : List RuleDefinition} {db : Db} {e : Error}
    (h : (createRules accountId kycTier rows n rules).run schema db = .error e) :
    e.refusesRules = false := by
  induction rules generalizing n db with
  | nil => simp [createRules] at h
  | cons r rules ih =>
    unfold createRules at h
    split at h
    next trigger action _ _ =>
      simp only [Tx.bind_eq, Tx.run_bind, Tx.run_exec, schema_apply] at h
      cases hop :
          (WriteOp.createRule (r.row accountId trigger action kycTier (rows n))).apply db with
      | error e' =>
        obtain ⟨c, m, rfl⟩ := WriteOp.apply_error e' hop
        rw [hop] at h
        cases h
        rfl
      | ok db' =>
        rw [hop] at h
        exact ih h
    next =>
      simp only [Tx.run_throw, Except.error.injEq] at h
      rw [← h]
      rfl

theorem not_refuses_of_updateRulesTx {accountId : String} {model : ExecutionModel}
    {kycTier : KycTier} {rules : List RuleDefinition} {env : Env} {db : Db} {e : Error}
    (h : (updateRulesTx accountId model kycTier rules env).run schema db = .error e) :
    e.refusesRules = false := by
  simp only [updateRulesTx, Tx.bind_eq, Tx.run_bind, Tx.run_exec, schema_apply, Tx.run_query] at h
  cases hop : (WriteOp.updateAccountModel accountId model).apply db with
  | error e' =>
    obtain ⟨c, m, rfl⟩ := WriteOp.apply_error e' hop
    rw [hop] at h
    cases h
    rfl
  | ok db₁ =>
    rw [hop] at h
    simp only [Except.map, Except.bind] at h
    cases hrun : (createRules accountId kycTier env.rows 0 rules).run schema db₁ with
    | error e' =>
      rw [hrun] at h
      cases h
      exact not_refuses_of_createRules hrun
    | ok r =>
      rw [hrun] at h
      cases h

section Calm

variable {env : Call → Env} (calm : ∀ l, (env l).fault = none) {w : World}
include calm

/-- Where no call fails, the transaction that stores a rule set throws no refusal. -/
theorem not_refuses_of_storeRuleSet {a : Account} {model : ExecutionModel}
    {rules : List RuleDefinition} {businessId : String} {e : Error} {w' : World}
    (h : (storeRuleSet a model rules businessId).runWith env w = (.error e, w')) :
    e.refusesRules = false := by
  simp only [storeRuleSet, Proc.bind_eq, Proc.runWith_bind, runWith_find calm] at h
  rw [runWith_statement calm] at h
  simp only [WriteOp.apply, Db.archiveRules] at h
  rw [runWith_transaction calm] at h
  generalize hrun : Tx.run schema _ _ = r at h
  cases r with
  | error e' =>
    cases h
    exact not_refuses_of_updateRulesTx hrun
  | ok r => simp [audit] at h

/-- **What `replaceRuleSet` decides**, for an account that it finds. -/
theorem runWith_replaceRuleSet {isUrl : String → Bool} {accountRef businessId : String}
    {dto : ReplaceRuleSetDto} {a : Account}
    (found : w.db.findAccountByRef accountRef businessId = some a) :
    (replaceRuleSet isUrl accountRef businessId dto).runWith env w =
      if validateRuleSet isUrl accountRef dto.rules then
        if dto.executionModel.getD a.executionModel = .parallel ∧
            100 < (dto.rules.map RuleDefinition.countedPercentage).sum then
          (.error (.http 400
            s!"Sum of RELEASE_FUNDS percentages ({
              (dto.rules.map RuleDefinition.countedPercentage).sum}%) exceeds 100%"
            "PERCENTAGE_SUM_EXCEEDS_100" []), w)
        else
          (storeRuleSet a (dto.executionModel.getD a.executionModel) dto.rules
            businessId).runWith env w
      else
        (.error (.http 400 "Invalid rule set" "INVALID_RULE_SET" []), w) := by
  simp only [replaceRuleSet, Proc.bind_eq, Proc.runWith_bind, runWith_find calm, found]
  cases validateRuleSet isUrl accountRef dto.rules with
  | false => rfl
  | true =>
    cases dto.executionModel.getD a.executionModel with
    | sequential => simp
    | parallel =>
      simp only [enforcePercentageSum, if_true, true_and]
      split
      next => rfl
      next => rfl

end Calm

theorem replaceRefuses_iff {isUrl : String → Bool} {accountRef businessId : String}
    {dto : ReplaceRuleSetDto} {w : World} {a : Account}
    (found : w.db.findAccountByRef accountRef businessId = some a) :
    ReplaceRefuses isUrl accountRef businessId dto w ↔
      validateRuleSet isUrl accountRef dto.rules = false ∨
        dto.executionModel.getD a.executionModel = .parallel ∧
          100 < (dto.rules.map RuleDefinition.countedPercentage).sum := by
  unfold ReplaceRefuses
  cases hvalid : validateRuleSet isUrl accountRef dto.rules with
  | false =>
    refine iff_of_true (fun env calm => ?_) (.inl rfl)
    rw [runWith_replaceRuleSet calm found, hvalid]
    exact ⟨_, rfl, rfl⟩
  | true =>
    by_cases hlimit : dto.executionModel.getD a.executionModel = .parallel ∧
        100 < (dto.rules.map RuleDefinition.countedPercentage).sum
    · refine iff_of_true (fun env calm => ?_) (.inr hlimit)
      rw [runWith_replaceRuleSet calm found, hvalid, if_pos rfl, if_pos hlimit]
      exact ⟨_, rfl, rfl⟩
    · refine iff_of_false (fun h => ?_) (by simp [hlimit])
      obtain ⟨e, he, hrun⟩ := h (fun _ => {}) fun _ => rfl
      rw [runWith_replaceRuleSet (fun _ => rfl) found, hvalid, if_pos rfl, if_neg hlimit] at hrun
      have hno := not_refuses_of_storeRuleSet (fun _ => rfl) hrun
      rw [he] at hno
      cases hno

/-! ### The two paths -/

/-- The two paths refuse the rule set or neither does, and they store it as the same rows. -/
structure WritePathsAgree (isUrl : String → Bool) (dto : ProvisionAccountDto) (businessId : String)
    (request : ReplaceRuleSetDto) (w : World) : Prop where
  refuse : ProvisionRefuses isUrl dto businessId ↔
    ReplaceRefuses isUrl dto.accountRef businessId request w
  store : ∀ w₁ w₁' w' provisioned replaced,
    (provisionAccount isUrl dto businessId).Finishes (fun _ _ _ _ => True) w₁
      (.ok provisioned) w₁' →
    (replaceRuleSet isUrl dto.accountRef businessId request).Finishes (fun _ _ _ _ => True) w
      (.ok replaced) w' →
    (newRules w₁ w₁').map Rule.content = (newRules w w').map Rule.content

/-- **The two paths agree except on the limit of a PARALLEL account.** -/
theorem write_paths_agree_iff {isUrl : String → Bool} {dto : ProvisionAccountDto}
    {businessId : String} {request : ReplaceRuleSetDto} {w : World} {a : Account}
    (found : w.db.findAccountByRef dto.accountRef businessId = some a)
    (sameRules : request.rules = dto.rules)
    (sameModel : request.executionModel.getD a.executionModel =
      dto.executionModel.getD .sequential) :
    WritePathsAgree isUrl dto businessId request w ↔
      dto.executionModel.getD .sequential = .sequential ∨
        (dto.rules.map RuleDefinition.countedPercentage).sum ≤ 100 ∨
          validateRuleSet isUrl dto.accountRef dto.rules = false := by
  have hrefuse : (ProvisionRefuses isUrl dto businessId ↔
      ReplaceRefuses isUrl dto.accountRef businessId request w) ↔
      dto.executionModel.getD .sequential = .sequential ∨
        (dto.rules.map RuleDefinition.countedPercentage).sum ≤ 100 ∨
          validateRuleSet isUrl dto.accountRef dto.rules = false := by
    rw [provisionRefuses_iff, replaceRefuses_iff found, sameRules, sameModel]
    rcases le_or_gt (dto.rules.map RuleDefinition.countedPercentage).sum 100 with hsum | hsum
    · simp [hsum, not_lt.2 hsum]
    · cases dto.executionModel.getD .sequential <;>
        cases validateRuleSet isUrl dto.accountRef dto.rules <;> simp [hsum, not_le.2 hsum]
  refine ⟨fun h => hrefuse.1 h.refuse, fun h => ⟨hrefuse.2 h, ?_⟩⟩
  intro w₁ w₁' w' provisioned replaced hprovision hreplace
  obtain ⟨_, _, added, hadded, hnew⟩ := (ensures_provisionAccount.sound hprovision).1 _ rfl
  obtain ⟨_, _, added', hadded', hnew'⟩ := (ensures_replaceRuleSet.sound hreplace).1 _ rfl
  rw [hnew, hnew']
  rw [sameRules] at hadded'
  exact content_eq_of_storedAs hadded hadded'

namespace Sample

/-- An account is to be provisioned with two releases. -/
def provisioning (model : ExecutionModel) (percentage : ℚ) : ProvisionAccountDto where
  customerId := "cus1"
  accountRef := "shop"
  executionModel := some model
  rules := List.replicate 2 {
    trigger := "inflow_received"
    condition := { amountGte := some 1 }
    action := "release_funds"
    payload := some { destinationAccountRef := some "ops", percentage := some percentage } }

/-- A business with a customer. -/
def newCustomer : World where
  db := {
    businesses := [{ id := "biz" }]
    customers := [{ id := "cus1", displayName := "Ada", businessId := "biz" }] }

/-- Each row that is created gets an id of its own. -/
def numbered (_ : Call) : Env where
  row := { id := "acc1" }
  rows n := { id := toString n }
  dva := { accountRef := "nba1", accountNumber := "0001112223" }

end Sample

/-- Two releases of 50% in PARALLEL are within the limit. -/
theorem write_paths_agree_fifty :
    WritePathsAgree (fun _ => true) (Sample.provisioning .parallel 50) "biz"
      { rules := (Sample.provisioning .parallel 50).rules } Sample.opsShop :=
  (write_paths_agree_iff (a := Sample.account) (by decide) rfl rfl).2
    (.inr (.inl (by decide +kernel)))

/-- **120% of every inflow.** `provisionAccount` creates a PARALLEL account with two releases of
60%; `replaceRuleSet` refuses them for such an account. -/
theorem provisionAccount_accepts_above_limit :
    ¬ WritePathsAgree (fun _ => true) (Sample.provisioning .parallel 60) "biz"
        { rules := (Sample.provisioning .parallel 60).rules } Sample.opsShop ∧
      (((provisionAccount (fun _ => true) (Sample.provisioning .parallel 60) "biz").runWith
        Sample.numbered Sample.newCustomer).2.db.activeRules "acc1").map
          (fun r => r.payload.bind RulePayload.percentage) = [some 60, some 60] := by
  constructor
  · intro h
    have hreplace : ReplaceRefuses (fun _ => true) "shop" "biz"
        { rules := (Sample.provisioning .parallel 60).rules } Sample.opsShop :=
      (replaceRefuses_iff (a := Sample.account) (by decide)).2 (.inr ⟨rfl, by decide +kernel⟩)
    have hprovision := provisionRefuses_iff.1 (h.refuse.2 hreplace)
    exact absurd hprovision (by decide +kernel)
  · decide +kernel

end AccountOS
