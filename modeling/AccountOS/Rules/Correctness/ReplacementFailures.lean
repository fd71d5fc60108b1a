import AccountOS.Rules.Correctness.ConcurrentReplacement
import AccountOS.Rules.Correctness.EventKinds
import AccountOS.Sql.Column
import AccountOS.Store.Alone

/-!
# A replacement of the rule set that fails

`replaceRuleSet` archives the rules in force with a statement of its own, and stores the new ones
with a transaction afterwards. When the transaction fails, nothing brings the archived rules back:
the account goes on receiving money with no rule in force. Every other failure leaves the rules as
they are (`replacement_all_or_nothing_iff`).
-/

namespace AccountOS

open Conc Sql

/-! ### The statement -/

/-- The account's execution model and the status of each of its rules. -/
def Db.ruleState (db : Db) (accountId : String) :
    Option ExecutionModel × List (String × RuleStatus) :=
  (columnOf Account.id Account.executionModel accountId db.accounts,
    (db.rules.filter fun r => r.accountId = accountId).map fun r => (r.id, r.status))

/-- A call that throws has changed nothing, and one that returns has put exactly the rules of the
request in force. -/
structure AllOrNothing (a : Account) (dto : ReplaceRuleSetDto) (w : World)
    (r : Except Error RuleSetResult) (w' : World) : Prop where
  nothing : ∀ e, r = .error e → w'.db.ruleState a.id = w.db.ruleState a.id
  all : ∀ result, r = .ok result → ∃ kycTier,
    List.Forall₂ (RuleDefinition.StoredAs a.id kycTier) dto.rules (w'.db.activeRules a.id)

/-- The request is accepted for the account. -/
structure ReplaceRuleSetDto.AcceptedFor (isUrl : String → Bool) (accountRef : String) (a : Account)
    (dto : ReplaceRuleSetDto) : Prop where
  valid : validateRuleSet isUrl accountRef dto.rules = true
  percentages : dto.executionModel.getD a.executionModel = .parallel →
    (dto.rules.map RuleDefinition.countedPercentage).sum ≤ 100

/-- The ids that are generated for `k` new rules, from the `n`th row on, are new. -/
structure NewRuleIds (rows : Nat → Generated) (db : Db) (n k : ℕ) : Prop where
  unused : ∀ i < k, ∀ r ∈ db.rules, r.id ≠ (rows (n + i)).id
  distinct : ∀ i < k, ∀ j < i, (rows (n + j)).id ≠ (rows (n + i)).id

/-! ### What the two writes do -/

/-- **Archiving changes nothing** exactly if no rule is in force. -/
theorem Db.ruleState_archiveRules_iff {db db' : Db} {accountId : String} {now : Nat}
    (hop : db.archiveRules accountId now = .ok db') :
    db'.ruleState accountId = db.ruleState accountId ↔ db.activeRules accountId = [] := by
  cases hop
  have hfilter : ∀ f : Rule → Rule, (∀ r, (f r).accountId = r.accountId) →
      (db.rules.map f).filter (fun r => r.accountId = accountId) =
        (db.rules.filter fun r => r.accountId = accountId).map f := by
    intro f hf
    rw [List.filter_map]
    congr 2
    funext r
    simp [hf]
  have hactive : db.activeRules accountId =
      (db.rules.filter fun r => r.accountId = accountId).filter fun r =>
        r.accountId = accountId ∧ r.status = .active := by
    rw [Db.activeRules, List.filter_filter]
    refine List.filter_congr fun r _ => ?_
    by_cases hr : r.accountId = accountId <;> simp [hr]
  unfold Db.ruleState
  dsimp only
  rw [hfilter _ fun r => by split <;> rfl, List.map_map, Prod.mk.injEq, eq_self, true_and, hactive]
  apply map_comp_eq_iff
  · intro r hr hsame
    have hstatus := congrArg Prod.snd hsame
    rw [if_pos hr, hr.2] at hstatus
    cases hstatus
  · exact fun r hr => if_neg hr

/-- An accepted definition has a trigger and an action that the client knows. -/
theorem exists_of_ruleSchema {isUrl : String → Bool} {d : RuleDefinition}
    (h : ruleSchema isUrl d = true) :
    (∃ trigger, toRuleTrigger d.trigger = some trigger) ∧
      ∃ action, toRuleAction d.action = some action := by
  simp only [ruleSchema, triggerConditionSchema, actionPayloadSchema, Bool.and_eq_true] at h
  obtain ⟨⟨-, htrigger⟩, haction⟩ := h
  constructor
  · split at htrigger
    · exact ⟨_, ‹_›⟩
    · exact ⟨_, ‹_›⟩
    · exact ⟨_, ‹_›⟩
    · exact ⟨_, ‹_›⟩
    · cases htrigger
  · split at haction
    · exact ⟨_, ‹_›⟩
    · exact ⟨_, ‹_›⟩
    · exact ⟨_, ‹_›⟩
    · exact ⟨_, ‹_›⟩
    · exact ⟨_, ‹_›⟩
    · exact ⟨_, ‹_›⟩
    · cases haction

/-- The nested create goes through for an accepted rule set. -/
theorem createRules_run_eq_ok {isUrl : String → Bool} {accountId : String} {kycTier : KycTier}
    {rows : Nat → Generated} {n : ℕ} {rules : List RuleDefinition} {db : Db}
    (hrules : ∀ d ∈ rules, ruleSchema isUrl d = true)
    (haccount : ∃ a ∈ db.accounts, a.id = accountId) (hnew : NewRuleIds rows db n rules.length) :
    ∃ db', (createRules accountId kycTier rows n rules).run schema db = .ok ((), db') := by
  induction rules generalizing n db with
  | nil => exact ⟨db, rfl⟩
  | cons d rules ih =>
    obtain ⟨⟨trigger, htrigger⟩, action, haction⟩ := exists_of_ruleSchema (hrules d (by simp))
    have hlength : (d :: rules).length = rules.length + 1 := List.length_cons
    rw [hlength] at hnew
    let db₁ : Db := { db with
      rules := db.rules ++ [d.row accountId trigger action kycTier (rows n)] }
    have hcreate : db.createRule (d.row accountId trigger action kycTier (rows n)) = .ok db₁ :=
      Db.createRule_eq_ok.2 ⟨hnew.unused 0 (by omega), haccount, rfl⟩
    -- the ids of the remaining rows are new after the first one as well
    have hnew₁ : NewRuleIds rows db₁ (n + 1) rules.length := by
      constructor
      · intro i hi r hr
        have hshift : n + 1 + i = n + (i + 1) := by omega
        rw [hshift]
        rcases List.mem_append.1 hr with hr | hr
        · exact hnew.unused (i + 1) (by omega) r hr
        · rw [List.mem_singleton.1 hr]
          exact hnew.distinct (i + 1) (by omega) 0 (by omega)
      · intro i hi j hj
        have hshift : ∀ m, n + 1 + m = n + (m + 1) := fun m => by omega
        rw [hshift, hshift]
        exact hnew.distinct (i + 1) (by omega) (j + 1) (by omega)
    have haccount₁ : ∃ a ∈ db₁.accounts, a.id = accountId := haccount
    obtain ⟨db', hrest⟩ :=
      ih (fun d' hd' => hrules d' (List.mem_cons_of_mem _ hd')) haccount₁ hnew₁
    refine ⟨db', ?_⟩
    unfold createRules
    rw [htrigger, haction]
    simp only [Tx.bind_eq, Tx.run_bind_eq_ok, Tx.run_exec_eq_ok, schema_apply, WriteOp.apply]
    exact ⟨(), db₁, hcreate, hrest⟩

/-- So does the whole transaction. -/
theorem updateRulesTx_run_eq_ok {isUrl : String → Bool} {accountId : String}
    {model : ExecutionModel} {kycTier : KycTier} {rules : List RuleDefinition} {env : Env} {db : Db}
    (hrules : ∀ d ∈ rules, ruleSchema isUrl d = true)
    (haccount : ∃ a ∈ db.accounts, a.id = accountId)
    (hnew : NewRuleIds env.rows db 0 rules.length) :
    ∃ result, (updateRulesTx accountId model kycTier rules env).run schema db = .ok result := by
  let db₁ : Db := { db with
    accounts := updateRow Account.id accountId (fun a => { a with executionModel := model })
      db.accounts }
  have hmodel : db.updateAccountModel accountId model = .ok db₁ :=
    Db.updateAccountModel_eq_ok.2 ⟨haccount, rfl⟩
  have haccount₁ : ∃ a ∈ db₁.accounts, a.id = accountId := by
    obtain ⟨a, ha, hid⟩ := haccount
    exact ⟨{ a with executionModel := model }, mem_updateRow_of_eq ha hid, hid⟩
  have hnew₁ : NewRuleIds env.rows db₁ 0 rules.length := ⟨hnew.unused, hnew.distinct⟩
  obtain ⟨db', hcreate⟩ : ∃ db',
      (createRules accountId kycTier env.rows 0 rules).run schema db₁ = .ok ((), db') :=
    createRules_run_eq_ok hrules haccount₁ hnew₁
  refine ⟨(db'.rulesOf env.rank accountId, db'), ?_⟩
  simp only [updateRulesTx, Tx.bind_eq, Tx.run_bind_eq_ok, Tx.run_exec_eq_ok, schema_apply,
    WriteOp.apply]
  exact ⟨(), db₁, hmodel, (), db', hcreate, rfl⟩

/-! ### The call -/

section Run

variable {isUrl : String → Bool} {accountRef businessId : String} {dto : ReplaceRuleSetDto}
  {a : Account} {env : Call → Env} {w : World}

/-- The checks of an accepted request pass. -/
theorem runWith_replaceRuleSet_of_accepted
    (found : w.db.findAccountByRef accountRef businessId = some a)
    (accepted : dto.AcceptedFor isUrl accountRef a)
    (hfault : (env (.findAccountByRef businessId accountRef)).fault = none) :
    (replaceRuleSet isUrl accountRef businessId dto).runWith env w =
      (storeRuleSet a (dto.executionModel.getD a.executionModel) dto.rules businessId).runWith
        env w := by
  rw [replaceRuleSet, Proc.bind_eq, Proc.runWith_bind, runWith_find_of_none hfault]
  dsimp only
  rw [found]
  dsimp only
  rw [if_pos accepted.valid]
  -- only a PARALLEL rule set has its percentages added up
  cases hmodel : dto.executionModel.getD a.executionModel with
  | sequential => rfl
  | parallel =>
    have hsum := accepted.percentages hmodel
    dsimp only
    rw [Proc.bind_eq, enforcePercentageSum, if_neg (not_lt.2 hsum)]
    rfl

/-- The steps before the new rules are stored do not fail. -/
structure ReachesStoring (env : Call → Env) (accountRef businessId : String) (a : Account) :
    Prop where
  account : (env (.findAccountByRef businessId accountRef)).fault = none
  customer : (env (.findCustomer (a.customerId.getD ""))).fault = none
  archive : (env (.archiveRules a.id)).fault = none

/-- The world with the rules in force archived. -/
def archivedWorld (env : Call → Env) (a : Account) (w : World) : World :=
  { w with db := { w.db with rules := w.db.rules.map fun r =>
      if r.accountId = a.id ∧ r.status = .active then
        { r with
          status := .archived
          archivedReason := some .supersededByUpdate
          archivedAt := some (env (.archiveRules a.id)).now }
      else r } }

/-- **A failure of an earlier step** leaves everything as it is. -/
theorem sameData_of_not_reachesStoring
    (found : w.db.findAccountByRef accountRef businessId = some a)
    (accepted : dto.AcceptedFor isUrl accountRef a)
    (h : ¬ ReachesStoring env accountRef businessId a) :
    ∃ e w', (replaceRuleSet isUrl accountRef businessId dto).runWith env w = (.error e, w') ∧
      World.SameData w w' := by
  by_cases haccount : (env (.findAccountByRef businessId accountRef)).fault = none
  swap
  · obtain ⟨e, w', hrun, hsame⟩ : ∃ e w', (find (.findAccountByRef businessId accountRef)
        fun _ db => db.findAccountByRef accountRef businessId).runWith env w = (.error e, w') ∧ _ :=
      runWith_find_of_fault haccount
    refine ⟨e, w', ?_, hsame⟩
    rw [replaceRuleSet, Proc.bind_eq, Proc.runWith_bind, hrun]
  rw [runWith_replaceRuleSet_of_accepted found accepted haccount, storeRuleSet, Proc.bind_eq,
    Proc.runWith_bind]
  by_cases hcustomer : (env (.findCustomer (a.customerId.getD ""))).fault = none
  swap
  · obtain ⟨e, w', hrun, hsame⟩ : ∃ e w', (find (.findCustomer (a.customerId.getD ""))
        fun _ db => db.findCustomer (a.customerId.getD "")).runWith env w = (.error e, w') ∧ _ :=
      runWith_find_of_fault hcustomer
    refine ⟨e, w', ?_, hsame⟩
    rw [hrun]
  have harchive : (env (.archiveRules a.id)).fault ≠ none :=
    fun harchive => h ⟨haccount, hcustomer, harchive⟩
  obtain ⟨e, w', hrun, hsame⟩ : ∃ e w', (statement (.archiveRules a.id)
      fun env => .archiveRules a.id env.now).runWith env w = (.error e, w') ∧ _ :=
    runWith_statement_of_fault harchive
  refine ⟨e, w', ?_, hsame⟩
  rw [runWith_find_of_none hcustomer]
  dsimp only
  rw [Proc.bind_eq, Proc.runWith_bind, hrun]

/-- **Otherwise the new rules are stored** with the old ones archived, and then nothing can fail. -/
theorem runWith_of_reachesStoring (found : w.db.findAccountByRef accountRef businessId = some a)
    (accepted : dto.AcceptedFor isUrl accountRef a)
    (h : ReachesStoring env accountRef businessId a) :
    ∃ kycTier, ∃ k : List Rule → Action RuleSetResult,
      (∀ updated w', ∃ result w'', (k updated).runWith env w' = (.ok result, w'') ∧
        w''.db = w'.db) ∧
      (replaceRuleSet isUrl accountRef businessId dto).runWith env w =
        ((transaction (.createRules a.id) (updateRulesTx a.id
          (dto.executionModel.getD a.executionModel) kycTier dto.rules)).bind k).runWith env
            (archivedWorld env a w) := by
  have harchive : (statement (.archiveRules a.id) fun env => .archiveRules a.id env.now).runWith
      env w = (.ok (), archivedWorld env a w) :=
    runWith_transaction_of_ok h.archive rfl
  rw [runWith_replaceRuleSet_of_accepted found accepted h.account, storeRuleSet, Proc.bind_eq,
    Proc.runWith_bind, runWith_find_of_none h.customer]
  dsimp only
  rw [Proc.bind_eq, Proc.runWith_bind, harchive]
  dsimp only
  rw [Proc.bind_eq]
  exact ⟨_, _, fun updated w' => ⟨_, _, rfl, World.log_db _ _ _⟩, rfl⟩

/-- **When a replacement is all or nothing.** Whatever step fails, the law holds exactly if it is
not the one that stores the new rules, after the old ones have been archived; or there were none
in force. -/
theorem replacement_all_or_nothing_iff
    (found : w.db.findAccountByRef accountRef businessId = some a)
    (accepted : dto.AcceptedFor isUrl accountRef a)
    (fresh : NewRuleIds (env (.createRules a.id)).rows w.db 0 dto.rules.length) :
    AllOrNothing a dto w ((replaceRuleSet isUrl accountRef businessId dto).runWith env w).1
        ((replaceRuleSet isUrl accountRef businessId dto).runWith env w).2 ↔
      (ReachesStoring env accountRef businessId a → (env (.createRules a.id)).fault ≠ none →
        w.db.activeRules a.id = []) := by
  by_cases hreaches : ReachesStoring env accountRef businessId a
  swap
  · obtain ⟨e, w', hrun, hsame⟩ := sameData_of_not_reachesStoring found accepted hreaches
    rw [hrun]
    refine iff_of_true ⟨fun _ _ => ?_, by rintro _ ⟨⟩⟩ fun h => absurd h hreaches
    rw [hsame.db]
  -- from here on the rules in force are archived
  obtain ⟨kycTier, k, hk, hrun⟩ := runWith_of_reachesStoring found accepted hreaches
  have harchived : w.db.archiveRules a.id (env (.archiveRules a.id)).now =
      .ok (archivedWorld env a w).db := rfl
  rw [hrun, Proc.runWith_bind]
  by_cases hfault : (env (.createRules a.id)).fault = none
  · have hrules : ∀ d ∈ dto.rules, ruleSchema isUrl d = true := by
      have hvalid := accepted.valid
      simp only [validateRuleSet, Bool.and_eq_true, List.all_eq_true] at hvalid
      exact hvalid.2
    have haccount : ∃ a' ∈ (archivedWorld env a w).db.accounts, a'.id = a.id :=
      ⟨a, List.mem_of_find?_eq_some found, rfl⟩
    have hnew : NewRuleIds (env (.createRules a.id)).rows (archivedWorld env a w).db 0
        dto.rules.length := by
      refine ⟨fun i hi r hr => ?_, fresh.distinct⟩
      obtain ⟨r₀, hr₀, rfl⟩ := List.mem_map.1 hr
      have hid := fresh.unused i hi r₀ hr₀
      split <;> exact hid
    obtain ⟨⟨updated, db'⟩, hok⟩ := updateRulesTx_run_eq_ok hrules haccount hnew
    obtain ⟨added, hadded, hdb'⟩ := updateRulesTx_run hok
    have htx := runWith_transaction_of_ok (w := archivedWorld env a w) hfault hok
    rw [htx]
    dsimp only
    obtain ⟨result, w'', hrest, hw''⟩ := hk updated { archivedWorld env a w with db := db' }
    rw [hrest]
    refine iff_of_true ⟨by rintro _ ⟨⟩, fun _ _ => ⟨kycTier, ?_⟩⟩ fun _ hfault' => absurd hfault hfault'
    -- none of the archived rules is in force beside the new ones
    have hactive : db'.activeRules a.id = added := by
      rw [Db.activeRules_append hadded (congrArg Db.rules hdb'),
        Db.activeRules_archiveRules harchived, List.nil_append]
    rw [hw'', hactive]
    exact hadded
  · obtain ⟨e, w', htx, hsame⟩ : ∃ e w', (transaction (.createRules a.id) (updateRulesTx a.id
        (dto.executionModel.getD a.executionModel) kycTier dto.rules)).runWith env
          (archivedWorld env a w) = (.error e, w') ∧ World.SameData (archivedWorld env a w) w' :=
      runWith_transaction_of_fault hfault
    rw [htx]
    dsimp only
    constructor
    · intro h _ _
      refine (Db.ruleState_archiveRules_iff harchived).1 ?_
      rw [← hsame.db]
      exact h.nothing e rfl
    · intro h
      refine ⟨fun _ _ => ?_, by rintro _ ⟨⟩⟩
      rw [hsame.db]
      exact (Db.ruleState_archiveRules_iff harchived).2 (h hreaches hfault)

end Run

namespace Sample

/-- The account with a rule in force. -/
def ruledShop : World := shop [] [release "rule1" { destinationAccountRef := some "ops" }]

/-- Every inflow is to be reviewed instead. -/
def reviewAll : ReplaceRuleSetDto where
  rules := [{
    trigger := "inflow_received", condition := { amountGte := some 1 }, action := "flag_for_review" }]

theorem reviewAll_accepted : reviewAll.AcceptedFor (fun _ => true) "shop" account where
  valid := by decide +kernel
  percentages := fun _ => by decide +kernel

theorem reviewAll_newRuleIds : NewRuleIds (fun _ => {}) ruledShop.db 0 reviewAll.rules.length := by
  constructor <;> decide

/-- The connection is lost when the new rules are to be stored. -/
def storingFails : Call → Env
  | .createRules _ => { fault := some { error := .prisma "P1001" "Can't reach database server" } }
  | _ => {}

end Sample

/-- No step fails. -/
theorem replacement_all_or_nothing_iff_calm :
    AllOrNothing Sample.account Sample.reviewAll Sample.ruledShop
      ((replaceRuleSet (fun _ => true) "shop" "biz" Sample.reviewAll).runWith Sample.calm
        Sample.ruledShop).1
      ((replaceRuleSet (fun _ => true) "shop" "biz" Sample.reviewAll).runWith Sample.calm
        Sample.ruledShop).2 :=
  (replacement_all_or_nothing_iff rfl Sample.reviewAll_accepted Sample.reviewAll_newRuleIds).2
    fun _ hfault => absurd rfl hfault

/-- **A replacement that leaves no rule in force.** The connection is lost between the two writes:
the call throws, and the old rule is ARCHIVED. -/
theorem failed_replacement_archives_rules :
    Sample.reviewAll.AcceptedFor (fun _ => true) "shop" Sample.account ∧
      (∃ e, ((replaceRuleSet (fun _ => true) "shop" "biz" Sample.reviewAll).runWith
        Sample.storingFails Sample.ruledShop).1 = .error e) ∧
      (Sample.ruledShop.db.activeRules "acc1").length = 1 ∧
      ((replaceRuleSet (fun _ => true) "shop" "biz" Sample.reviewAll).runWith
        Sample.storingFails Sample.ruledShop).2.db.activeRules "acc1" = [] ∧
      ¬ AllOrNothing Sample.account Sample.reviewAll Sample.ruledShop
        ((replaceRuleSet (fun _ => true) "shop" "biz" Sample.reviewAll).runWith
          Sample.storingFails Sample.ruledShop).1
        ((replaceRuleSet (fun _ => true) "shop" "biz" Sample.reviewAll).runWith
          Sample.storingFails Sample.ruledShop).2 := by
  have thrown : ∃ e, ((replaceRuleSet (fun _ => true) "shop" "biz" Sample.reviewAll).runWith
      Sample.storingFails Sample.ruledShop).1 = .error e := by
    have hnone : ((replaceRuleSet (fun _ => true) "shop" "biz" Sample.reviewAll).runWith
        Sample.storingFails Sample.ruledShop).1.toOption = none := by decide +kernel
    match hrun : ((replaceRuleSet (fun _ => true) "shop" "biz" Sample.reviewAll).runWith
        Sample.storingFails Sample.ruledShop).1 with
    | .error e => exact ⟨e, rfl⟩
    | .ok result =>
      rw [hrun] at hnone
      cases hnone
  refine ⟨Sample.reviewAll_accepted, thrown, by decide, by decide +kernel, fun h => ?_⟩
  obtain ⟨e, he⟩ := thrown
  exact absurd (h.nothing e he) (by decide +kernel)

end AccountOS
