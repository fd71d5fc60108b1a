import AccountOS.Identity.IdentityService
import AccountOS.Rules.RulesService
import AccountOS.Store.Rules

/-!
# Walking through the operations that write rules

What the nested create of a rule set leaves behind, and the four operations call by call:
`RulesSteps` lists what a protocol has to show of each statement that takes effect.
-/

namespace AccountOS

open Conc Sql

/-! ### The rules that are created -/

/-- `r` is the row of the definition `d`. -/
def RuleDefinition.StoredAs (accountId : String) (kycTierAtCreation : KycTier) (d : RuleDefinition)
    (r : Rule) : Prop :=
  ∃ trigger action row, toRuleTrigger d.trigger = some trigger ∧
    toRuleAction d.action = some action ∧ r = d.row accountId trigger action kycTierAtCreation row

section Run

variable {accountId : String} {kycTierAtCreation : KycTier}

/-- **What the nested create does**: it appends a row for each definition. -/
theorem createRules_run {rows : Nat → Generated} {n : Nat} {rules : List RuleDefinition} {db : Db}
    {r : Unit × Db}
    (hrun : (createRules accountId kycTierAtCreation rows n rules).run schema db = .ok r) :
    ∃ added, List.Forall₂ (RuleDefinition.StoredAs accountId kycTierAtCreation) rules added ∧
      r.2 = { db with rules := db.rules ++ added } := by
  induction rules generalizing n db with
  | nil =>
    cases hrun
    exact ⟨[], .nil, by simp⟩
  | cons d rules ih =>
    unfold createRules at hrun
    split at hrun
    next trigger action htrigger haction =>
      simp only [Tx.bind_eq, Tx.run_bind_eq_ok, Tx.run_exec_eq_ok, schema_apply,
        WriteOp.apply] at hrun
      obtain ⟨-, db₁, hcreate, hrun⟩ := hrun
      obtain ⟨-, -, rfl⟩ := Db.createRule_eq_ok.1 hcreate
      obtain ⟨added, hadded, hdb⟩ := ih hrun
      exact ⟨_ :: added, .cons ⟨trigger, action, rows n, htrigger, haction, rfl⟩ hadded,
        by simp [hdb]⟩
    next => simp at hrun

/-- **What storing a rule set does**: the account gets its model and the new rules. -/
theorem updateRulesTx_run {executionModel : ExecutionModel} {rules : List RuleDefinition}
    {env : Env}
    {db : Db} {r : List Rule × Db}
    (hrun : (updateRulesTx accountId executionModel kycTierAtCreation rules env).run schema db =
      .ok r) :
    ∃ added, List.Forall₂ (RuleDefinition.StoredAs accountId kycTierAtCreation) rules added ∧
      r.2 = { db with
        accounts := updateRow Account.id accountId (fun a => { a with executionModel }) db.accounts
        rules := db.rules ++ added } := by
  simp only [updateRulesTx, Tx.bind_eq, Tx.run_bind_eq_ok, Tx.run_exec_eq_ok, schema_apply,
    WriteOp.apply, Tx.run_query] at hrun
  obtain ⟨u, db₁, hmodel, v, db₂, hcreate, hquery⟩ := hrun
  cases hquery
  obtain ⟨-, rfl⟩ := Db.updateAccountModel_eq_ok.1 hmodel
  exact createRules_run hcreate

theorem updateRulesTx_account {executionModel : ExecutionModel} {rules : List RuleDefinition}
    {env : Env} {db : Db} {r : List Rule × Db}
    (hrun : (updateRulesTx accountId executionModel kycTierAtCreation rules env).run schema db =
      .ok r) : ∃ a ∈ db.accounts, a.id = accountId := by
  simp only [updateRulesTx, Tx.bind_eq, Tx.run_bind_eq_ok, Tx.run_exec_eq_ok, schema_apply,
    WriteOp.apply] at hrun
  obtain ⟨_, _, hmodel, -⟩ := hrun
  exact (Db.updateAccountModel_eq_ok.1 hmodel).1

/-- Every created row has a definition. -/
theorem exists_definition {rules : List RuleDefinition} {added : List Rule}
    (h : List.Forall₂ (RuleDefinition.StoredAs accountId kycTierAtCreation) rules added) :
    ∀ r ∈ added, ∃ d ∈ rules, d.StoredAs accountId kycTierAtCreation r := by
  induction h with
  | nil => simp
  | cons hd _ ih =>
    intro r hr
    rcases List.mem_cons.1 hr with rfl | hr
    · exact ⟨_, List.mem_cons_self, hd⟩
    · obtain ⟨d, hmem, hstored⟩ := ih r hr
      exact ⟨d, List.mem_cons_of_mem _ hmem, hstored⟩

/-- A stored rule releases the percentage that was counted for its definition. -/
theorem RuleDefinition.StoredAs.percentage {d : RuleDefinition} {r : Rule}
    (h : d.StoredAs accountId kycTierAtCreation r) :
    r.accountId = accountId ∧ r.status = .active ∧ r.payload = d.payload ∧
      (r.action = .releaseFunds ↔ d.action = "release_funds") := by
  obtain ⟨trigger, action, row, -, haction, rfl⟩ := h
  refine ⟨rfl, rfl, rfl, ?_⟩
  show action = .releaseFunds ↔ _
  unfold toRuleAction at haction
  constructor
  · rintro rfl
    by_contra hne
    simp only [hne, if_false] at haction
    split_ifs at haction <;> simp at haction
  · intro h
    simp only [h] at haction
    simpa using haction.symm

end Run

/-! ### Replacing a rule set -/

/-- What a protocol has to show of thread `i` replacing the rule set of an account. The thread
starts in `Idle`; `Cleared a` says that it has archived the ACTIVE rules of account `a`, and
`Stored a model rules` that it has then stored the definitions `rules` with `model`. -/
structure ReplaceSteps {ι γ : Type} [DecidableEq ι] (P : Protocol ι World Env Call γ) (i : ι)
    (isUrl : String → Bool) (accountRef businessId : String) where
  Idle : γ → Prop
  Cleared : Account → γ → Prop
  Stored : Account → ExecutionModel → List RuleDefinition → γ → Prop
  /-- What is remembered of the account once it has been found. -/
  Located : Account → Prop
  quiet : Quiet P
  locate : ∀ {a G hist w}, Idle (G i) → P.inv G hist w →
    w.db.findAccountByRef accountRef businessId = some a → Located a
  archive : ∀ {a now l G hist w env db w'}, l = .archiveRules a.id → Located a → Idle (G i) →
    P.inv G hist w → P.allowed l env w w' → w.db.archiveRules a.id now = .ok db →
    w' = { w with db } →
    ∃ g, P.inv (Function.update G i g) (hist ++ [⟨i, l, env, w, w'⟩]) w' ∧ Cleared a g
  store : ∀ {a model kycTier rules l G hist w env rs db w'}, l = .createRules a.id →
    Located a → validateRuleSet isUrl accountRef rules = true →
    (model = .parallel → (rules.map RuleDefinition.countedPercentage).sum ≤ 100) →
    Cleared a (G i) → P.inv G hist w → P.allowed l env w w' →
    (updateRulesTx a.id model kycTier rules env).run schema w.db = .ok (rs, db) →
    w' = { w with db } →
    ∃ g, P.inv (Function.update G i g) (hist ++ [⟨i, l, env, w, w'⟩]) w' ∧ Stored a model rules g

namespace ReplaceSteps

variable {ι γ : Type} [DecidableEq ι] {P : Protocol ι World Env Call γ} {i : ι}
  {isUrl : String → Bool} {accountRef businessId : String}
  (S : ReplaceSteps P i isUrl accountRef businessId) {g : γ}
include S

/-- Where a thread can be when it has given up. -/
def GivenUp (g : γ) : Prop := S.Idle g ∨ ∃ a, S.Cleared a g

theorem wp_storeRuleSet {a : Account} {model : ExecutionModel} {rules : List RuleDefinition}
    (ha : S.Located a) (hvalid : validateRuleSet isUrl accountRef rules = true)
    (hsum : model = .parallel → (rules.map RuleDefinition.countedPercentage).sum ≤ 100)
    (hg : S.Idle g) :
    (storeRuleSet a model rules businessId).Wp P i (fun _ g' => S.Stored a model rules g')
      (fun _ g' => S.GivenUp g') g := by
  refine Proc.Wp.bind (wp_find S.quiet (fun _ _ _ _ _ _ => ?_) fun _ => .inl hg)
  refine Proc.Wp.bind (wp_statement S.quiet ?_ fun _ _ _ _ _ _ _ _ _ _ _ => .inl hg)
  intro G hist w env db w' hG hinv hallowed hf hdb hw'
  subst hG
  obtain ⟨g₁, hinv₁, hcleared⟩ := S.archive rfl ha hg hinv hallowed hdb hw'
  refine ⟨g₁, hinv₁, Proc.Wp.bind (wp_transaction S.quiet logsOnly_nothing ?_
    fun _ _ _ _ _ _ _ _ _ _ => .inr ⟨a, hcleared⟩)⟩
  intro G hist w env rs db w' hG hinv hallowed hf hrun hw'
  subst hG
  obtain ⟨g₂, hinv₂, hstored⟩ := S.store rfl ha hvalid hsum hcleared hinv hallowed hrun hw'
  exact ⟨g₂, hinv₂, Proc.Wp.bind (wp_audit S.quiet hstored)⟩

/-- **Replacing a rule set.** -/
theorem wp_replaceRuleSet {dto : ReplaceRuleSetDto} (hg : S.Idle g) :
    (replaceRuleSet isUrl accountRef businessId dto).Wp P i
      (fun _ g' => ∃ a, S.Located a ∧
        S.Stored a (dto.executionModel.getD a.executionModel) dto.rules g')
      (fun _ g' => S.GivenUp g') g := by
  refine Proc.Wp.bind (wp_find S.quiet (fun G hist w env hG hinv => ?_) fun _ => .inl hg)
  cases ha : w.db.findAccountByRef accountRef businessId with
  | none => exact .inl hg
  | some a =>
    have hlocated : S.Located a := S.locate (hG ▸ hg) hinv ha
    dsimp only
    split
    next hvalid =>
      cases hmodel : dto.executionModel.getD a.executionModel with
      | parallel =>
        -- the sum of the percentages is checked first
        dsimp only
        unfold enforcePercentageSum
        dsimp only
        split
        next => exact .inl hg
        next hsum =>
          refine (S.wp_storeRuleSet hlocated hvalid (fun _ => not_lt.1 hsum) hg).mono ?_
            fun _ _ h => h
          intro r g' hstored
          exact ⟨a, hlocated, hmodel ▸ hstored⟩
      | sequential =>
        refine (S.wp_storeRuleSet hlocated hvalid (by simp) hg).mono ?_ fun _ _ h => h
        intro r g' hstored
        exact ⟨a, hlocated, hmodel ▸ hstored⟩
    next => exact .inl hg

end ReplaceSteps

/-! ### The other operations -/

/-- What a protocol has to show of thread `i` serving requests that write rules. -/
structure RulesSteps {ι γ : Type} [DecidableEq ι] (P : Protocol ι World Env Call γ) (i : ι)
    (isUrl : String → Bool) where
  Idle : γ → Prop
  quiet : Quiet P
  replace : (accountRef businessId : String) → ReplaceSteps P i isUrl accountRef businessId
  start : ∀ {accountRef businessId g}, Idle g → (replace accountRef businessId).Idle g
  givenUp : ∀ {accountRef businessId g}, (replace accountRef businessId).GivenUp g → Idle g
  stored : ∀ {accountRef businessId a model rules g},
    (replace accountRef businessId).Stored a model rules g → Idle g
  disable : ∀ {id data l G hist w env db w'}, l = .updateRule id .archived →
    data.status = .archived → Idle (G i) → P.inv G hist w → P.allowed l env w w' →
    w.db.updateRule id data = .ok db → w' = { w with db } →
    ∃ g, P.inv (Function.update G i g) (hist ++ [⟨i, l, env, w, w'⟩]) w' ∧ Idle g
  enable : ∀ {id l G hist w env db w'}, l = .updateRule id .active → env.fault = none →
    Idle (G i) → P.inv G hist w → P.allowed l env w w' →
    w.db.updateRule id { status := .active } = .ok db → w' = { w with db } →
    ∃ g, P.inv (Function.update G i g) (hist ++ [⟨i, l, env, w, w'⟩]) w' ∧ Idle g
  tier : ∀ {id kycTier l G hist w env db w'}, l = .updateCustomer id → Idle (G i) →
    P.inv G hist w → P.allowed l env w w' → w.db.updateCustomerTier id kycTier = .ok db →
    w' = { w with db } →
    ∃ g, P.inv (Function.update G i g) (hist ++ [⟨i, l, env, w, w'⟩]) w' ∧ Idle g
  flag : ∀ {id ids l G hist w env db w'}, l = .flagRules id → Idle (G i) → P.inv G hist w →
    P.allowed l env w w' → w.db.flagRules ids = .ok db → w' = { w with db } →
    ∃ g, P.inv (Function.update G i g) (hist ++ [⟨i, l, env, w, w'⟩]) w' ∧ Idle g

namespace RulesSteps

variable {ι γ : Type} [DecidableEq ι] {P : Protocol ι World Env Call γ} {i : ι}
  {isUrl : String → Bool} (S : RulesSteps P i isUrl) {g : γ}
include S

theorem wp_replaceRuleSet {accountRef businessId : String} {dto : ReplaceRuleSetDto}
    (hg : S.Idle g) :
    (replaceRuleSet isUrl accountRef businessId dto).Wp P i (fun _ g' => S.Idle g')
      (fun _ g' => S.Idle g') g :=
  ((S.replace accountRef businessId).wp_replaceRuleSet (S.start hg)).mono
    (fun _ _ ⟨_, _, hstored⟩ => S.stored hstored) fun _ _ hgivenUp => S.givenUp hgivenUp

/-! #### One rule -/

theorem wp_resolveRule {accountRef ruleId businessId : String} (hg : S.Idle g) :
    (resolveRule accountRef ruleId businessId).Wp P i (fun _ g' => S.Idle g')
      (fun _ g' => S.Idle g') g := by
  refine Proc.Wp.bind (wp_find S.quiet (fun G hist w env hG hinv => ?_) fun _ => hg)
  cases w.db.findRuleOf accountRef ruleId businessId with
  | none => exact hg
  | some rule => exact hg

theorem wp_archiveRule {rule : Rule} {accountRef ruleId businessId : String} (hg : S.Idle g) :
    (archiveRule rule accountRef ruleId businessId).Wp P i (fun _ g' => S.Idle g')
      (fun _ g' => S.Idle g') g := by
  refine Proc.Wp.bind (wp_statement S.quiet ?_ fun _ _ _ _ _ _ _ _ _ _ _ => hg)
  intro G hist w env db w' hG hinv hallowed hf hdb hw'
  subst hG
  obtain ⟨g', hinv', hg'⟩ := S.disable rfl rfl hg hinv hallowed hdb hw'
  exact ⟨g', hinv', wp_audit S.quiet hg'⟩

theorem wp_toggleRule {accountRef ruleId businessId : String} {enabled : Bool} (hg : S.Idle g) :
    (toggleRule accountRef ruleId businessId enabled).Wp P i (fun _ g' => S.Idle g')
      (fun _ g' => S.Idle g') g := by
  refine Proc.Wp.bind ((S.wp_resolveRule hg).mono (fun rule g' hg' => ?_) fun _ _ h => h)
  cases enabled with
  | true =>
    dsimp only
    split
    next => exact hg'
    next =>
      refine Proc.Wp.bind (wp_statement S.quiet ?_ fun _ _ _ _ _ _ _ _ _ _ _ => hg')
      intro G hist w env db w' hG hinv hallowed hf hdb hw'
      subst hG
      exact S.enable rfl hf hg' hinv hallowed hdb hw'
  | false => exact Proc.Wp.bind (S.wp_archiveRule hg')

theorem wp_deleteRule {accountRef ruleId businessId : String} (hg : S.Idle g) :
    (deleteRule accountRef ruleId businessId).Wp P i (fun _ g' => S.Idle g')
      (fun _ g' => S.Idle g') g := by
  refine Proc.Wp.bind ((S.wp_resolveRule hg).mono (fun rule g' hg' => ?_) fun _ _ h => h)
  exact Proc.Wp.bind (S.wp_archiveRule hg')

/-! #### A new tier -/

theorem wp_auditFlagged {entry : Rule → AuditLogEntry} {rules : List Rule} (hg : S.Idle g) :
    (auditFlagged entry rules).Wp P i (fun _ g' => S.Idle g') (fun _ g' => S.Idle g') g := by
  induction rules with
  | nil => exact hg
  | cons rule rules ih => exact Proc.Wp.bind (wp_audit S.quiet ih)

theorem wp_flagStaleRules {customerId : String} {entry : Rule → AuditLogEntry}
    {staleRules : List Rule} (hg : S.Idle g) :
    (flagStaleRules customerId entry staleRules).Wp P i (fun _ g' => S.Idle g')
      (fun _ g' => S.Idle g') g := by
  unfold flagStaleRules
  split
  next => exact hg
  next =>
    refine Proc.Wp.bind (wp_statement S.quiet ?_ fun _ _ _ _ _ _ _ _ _ _ _ => hg)
    intro G hist w env db w' hG hinv hallowed hf hdb hw'
    subst hG
    obtain ⟨g', hinv', hg'⟩ := S.flag rfl hg hinv hallowed hdb hw'
    exact ⟨g', hinv', S.wp_auditFlagged hg'⟩

theorem wp_updateKycTier {id businessId actor : String} {dto : UpdateKycTierDto} (hg : S.Idle g) :
    (updateKycTier id dto businessId actor).Wp P i (fun _ g' => S.Idle g')
      (fun _ g' => S.Idle g') g := by
  refine Proc.Wp.bind (wp_find S.quiet (fun G hist w env hG hinv => ?_) fun _ => hg)
  cases w.db.findCustomerOf id businessId with
  | none => exact hg
  | some customer =>
    refine Proc.Wp.bind (wp_statement S.quiet ?_ fun _ _ _ _ _ _ _ _ _ _ _ => hg)
    intro G hist w env db w' hG hinv hallowed hf hdb hw'
    subst hG
    obtain ⟨g', hinv', hg'⟩ := S.tier rfl hg hinv hallowed hdb hw'
    refine ⟨g', hinv', Proc.Wp.bind (wp_find S.quiet (fun _ _ _ _ _ _ => ?_) fun _ => hg')⟩
    refine Proc.Wp.bind ((S.wp_flagStaleRules hg').mono (fun _ g'' hg'' => ?_) fun _ _ h => h)
    exact Proc.Wp.bind (wp_audit S.quiet hg'')

end RulesSteps

end AccountOS
