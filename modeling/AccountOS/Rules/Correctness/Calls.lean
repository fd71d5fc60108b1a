import AccountOS.Accounts.Correctness.WritePaths
import AccountOS.Rules.Correctness.PercentageSum
import AccountOS.Sql.Column
import AccountOS.Store.Trace

/-!
# The calls of the operations that write rules

What each call may do to the rules, the accounts and the customers, in terms of what its thread has
read before: a rule that is enabled was found FLAGGED_FOR_REVIEW, the rules that are flagged were
found ACTIVE, and a new rule has the tier that its customer was found to have.
-/

namespace AccountOS

open Conc Sql

namespace Db

/-- The status of a rule. -/
def ruleStatus (db : Db) (id : String) : Option RuleStatus :=
  columnOf Rule.id Rule.status id db.rules

/-- The tier that is written into new rules of an account of the customer. -/
def snapshotTier (db : Db) (customerId : String) : KycTier :=
  ((db.findCustomer customerId).map Customer.kycTier).getD .tier0

end Db

variable {ι α : Type}

/-! ### What a call may do -/

/-- Calls that have left the rules as they were. -/
def LeftRules (past : Calls ι) : Prop := ∀ x ∈ past, x.after.db.rules = x.before.db.rules

/-- What a call may do, after the calls that its thread has made. `tiers` are the tiers that the
thread may give to customers. -/
inductive RulesCall (tiers : String → KycTier → Prop) (past : Calls ι)
    (ev : Event ι World Env Call) : Prop
  | read (hdb : ev.after.db = ev.before.db)
  | archive (accountId : String) (now : Nat) (hcall : ev.call = .archiveRules accountId)
      (hop : ev.before.db.archiveRules accountId now = .ok ev.after.db)
  | store (a : Account) (executionModel : ExecutionModel) (rules : List RuleDefinition)
      (added : List Rule) (q r : Event ι World Env Call) (hcall : ev.call = .createRules a.id)
      (hq : q ∈ past) (ha : a ∈ q.before.db.accounts)
      (hexists : ∃ x ∈ ev.before.db.accounts, x.id = a.id)
      (hr : r ∈ past) (hread : r.call = .findCustomer (a.customerId.getD ""))
      (hadded : List.Forall₂ (RuleDefinition.StoredAs a.id
        (r.before.db.snapshotTier (a.customerId.getD ""))) rules added)
      (hdb : ev.after.db = { ev.before.db with
        accounts := updateRow Account.id a.id (fun a => { a with executionModel })
          ev.before.db.accounts
        rules := ev.before.db.rules ++ added })
  | provision (a : Account) (customer : Customer) (rules : List RuleDefinition) (added : List Rule)
      (r : Event ι World Env Call) (hcall : ev.call = .createAccount a.accountRef)
      (hcustomer : a.customerId = some customer.id)
      (hnew : ∀ x ∈ ev.before.db.accounts, x.id ≠ a.id)
      (hr : r ∈ past) (hread : r.call = .findCustomer customer.id)
      (hfound : customer ∈ r.before.db.customers)
      (hadded : List.Forall₂ (RuleDefinition.StoredAs a.id customer.kycTier) rules added)
      (hdb : ev.after.db = { ev.before.db with
        accounts := ev.before.db.accounts ++ [a]
        rules := ev.before.db.rules ++ added })
  | disable (id : String) (data : RuleData) (hcall : ev.call = .updateRule id .archived)
      (hstatus : data.status = .archived)
      (hop : ev.before.db.updateRule id data = .ok ev.after.db)
  | enable (r : Event ι World Env Call) (rule : Rule)
      (hcall : ev.call = .updateRule rule.id .active)
      (hleft : LeftRules past) (hr : r ∈ past) (hread : r.call = .findRule rule.id)
      (hrule : rule ∈ r.before.db.rules) (hflagged : rule.status = .flaggedForReview)
      (hop : ev.before.db.updateRule rule.id { status := .active } = .ok ev.after.db)
  | tier (id : String) (kycTier : KycTier) (htier : tiers id kycTier)
      (hcall : ev.call = .updateCustomer id)
      (hop : ev.before.db.updateCustomerTier id kycTier = .ok ev.after.db)
  | flag (customerId businessId : String) (kycTier : KycTier) (s : Event ι World Env Call)
      (hcall : ev.call = .flagRules customerId) (hleft : LeftRules past) (hs : s ∈ past)
      (hread : s.call = .findStaleRules customerId)
      (hop : ev.before.db.flagRules ((s.before.db.staleRules customerId businessId kycTier).map
        Rule.id) = .ok ev.after.db)

/-- Where a call writes: in rules, in the tier of a customer, or in an account with its new rules. -/
theorem RulesCall.writes_cases {tiers : String → KycTier → Prop} {past : Calls ι}
    {ev : Event ι World Env Call} (h : RulesCall tiers past ev) :
    ev.after.db = ev.before.db ∨
    (∃ o : WriteOp, o.table = .rules ∧ o.apply ev.before.db = .ok ev.after.db) ∨
    (∃ id kycTier, tiers id kycTier ∧ ev.call = .updateCustomer id ∧
      ev.before.db.updateCustomerTier id kycTier = .ok ev.after.db) ∨
    ∃ accounts added, ev.after.db = { ev.before.db with
        accounts
        rules := ev.before.db.rules ++ added } ∧
      ((∃ id executionModel, accounts =
          updateRow Account.id id (fun a => { a with executionModel }) ev.before.db.accounts) ∨
        ∃ a : Account, (∀ x ∈ ev.before.db.accounts, x.id ≠ a.id) ∧
          accounts = ev.before.db.accounts ++ [a]) := by
  have hrules : ∀ o : WriteOp, o.table = .rules → o.apply ev.before.db = .ok ev.after.db →
      ∃ o : WriteOp, o.table = .rules ∧ o.apply ev.before.db = .ok ev.after.db :=
    fun o ho hop => ⟨o, ho, hop⟩
  cases h with
  | read hdb => exact .inl hdb
  | archive accountId now hcall hop =>
    exact .inr (.inl (hrules (.archiveRules accountId now) rfl hop))
  | store a executionModel rules added q r hcall hq ha hexists hr hread hadded hdb =>
    exact .inr (.inr (.inr ⟨_, added, hdb, .inl ⟨a.id, executionModel, rfl⟩⟩))
  | provision a customer rules added r hcall hcustomer hnew hr hread hfound hadded hdb =>
    exact .inr (.inr (.inr ⟨_, added, hdb, .inr ⟨a, hnew, rfl⟩⟩))
  | disable id data hcall hstatus hop => exact .inr (.inl (hrules (.updateRule id data) rfl hop))
  | enable r rule hcall hleft hr hread hrule hflagged hop =>
    exact .inr (.inl (hrules (.updateRule rule.id { status := .active }) rfl hop))
  | tier id kycTier htier hcall hop => exact .inr (.inr (.inl ⟨id, kycTier, htier, hcall, hop⟩))
  | flag customerId businessId kycTier s hcall hleft hs hread hop =>
    exact .inr (.inl (hrules (.flagRules _) rfl hop))

/-- No call writes a unique value twice. -/
structure RulesEvent (tiers : String → KycTier → Prop) (past : Calls ι)
    (ev : Event ι World Env Call) : Prop where
  unique : ev.before.db.UniqueColumns → ev.after.db.UniqueColumns
  does : RulesCall tiers past ev

namespace RulesEvent

variable {tiers : String → KycTier → Prop} {i : ι} {past : Calls ι} {l : Call} {env : Env}
  {w w' : World}

theorem of_sameData (h : World.SameData w w') : RulesEvent tiers past ⟨i, l, env, w, w'⟩ := by
  have hdb : w'.db = w.db := h.db
  refine ⟨fun hunique => ?_, .read hdb⟩
  show w'.db.UniqueColumns
  rw [hdb]
  exact hunique

/-- The effect of a statement. -/
theorem of_apply {op : WriteOp} {db : Db} (hop : op.apply w.db = .ok db) (hw' : w' = { w with db })
    (h : op.apply w.db = .ok w'.db → RulesCall tiers past ⟨i, l, env, w, w'⟩) :
    RulesEvent tiers past ⟨i, l, env, w, w'⟩ := by
  subst hw'
  exact ⟨fun hunique => hunique.apply hop, h hop⟩

/-- The effect of a transaction. -/
theorem of_run {body : TxBody α} {a : α} {db : Db} (hrun : body.run schema w.db = .ok (a, db))
    (hw' : w' = { w with db }) (h : RulesCall tiers past ⟨i, l, env, w, w'⟩) :
    RulesEvent tiers past ⟨i, l, env, w, w'⟩ := by
  refine ⟨fun hunique => ?_, h⟩
  subst hw'
  exact hunique.run hrun

end RulesEvent

/-! ### The operations, call by call -/

/-- The calls of the method are as described, and `Q` holds of them when it returns. -/
abbrev RulesTraced (tiers : String → KycTier → Prop) (i : ι) (Q : α → Calls ι → Prop) (p : Action α)
    (past : Calls ι) : Prop :=
  p.Traced i (RulesEvent tiers) Q (fun _ _ => True) past

section Operations

variable {β : Type} {tiers : String → KycTier → Prop} {i : ι} {past : Calls ι}
  {Q : α → Calls ι → Prop}

theorem traced_findThen {l : Call} {f : Env → Db → β} {k : β → Action α}
    (h : ∀ env w, RulesTraced tiers i Q (k (f env w.db)) (past ++ [⟨i, l, env, w, w⟩])) :
    RulesTraced tiers i Q ((find l f).bind k) past :=
  Proc.Traced.bind (traced_find (fun env w => ⟨.of_sameData (.refl w), h env w⟩)
    fun _ _ _ _ hsame => ⟨.of_sameData hsame, trivial⟩)

theorem traced_auditThen {entry : AuditLogEntry} {k : Unit → Action α}
    (h : ∀ ev, ev.call = .audit entry.action → RulesTraced tiers i Q (k ()) (past ++ [ev])) :
    RulesTraced tiers i Q ((audit entry).bind k) past :=
  Proc.Traced.bind (traced_audit fun _ _ _ hsame => ⟨.of_sameData hsame, h _ rfl⟩)

/-- The two writes of a replacement. -/
def Call.writesRuleSet : Call → Bool
  | archiveRules _ | createRules _ => true
  | _ => false

/-- A call that writes nothing. -/
def Reads (ev : Event ι World Env Call) : Prop :=
  ev.after.db = ev.before.db ∧ ev.call.writesRuleSet = false

/-- The calls of a thread that has stored a rule set: it has archived the rules in force, and then
created the new ones with the model. -/
def RuleSetStored (a : Account) (executionModel : ExecutionModel) (rules : List RuleDefinition)
    (past past' : Calls ι) : Prop :=
  ∃ kycTier now added r x y z, past' = past ++ [r, x, y, z] ∧ Reads r ∧ Reads z ∧
    x.call = .archiveRules a.id ∧ x.before.db.archiveRules a.id now = .ok x.after.db ∧
    y.call = .createRules a.id ∧
    List.Forall₂ (RuleDefinition.StoredAs a.id kycTier) rules added ∧
    y.after.db = { y.before.db with
      accounts := updateRow Account.id a.id (fun a => { a with executionModel })
        y.before.db.accounts
      rules := y.before.db.rules ++ added }

theorem traced_storeRuleSet {a : Account} {model : ExecutionModel} {rules : List RuleDefinition}
    {businessId : String} {q : Event ι World Env Call} (hq : q ∈ past)
    (ha : a ∈ q.before.db.accounts) :
    RulesTraced tiers i (fun result past' => result.executionModel = model ∧
      RuleSetStored a model rules past past') (storeRuleSet a model rules businessId) past := by
  refine traced_findThen fun env w => ?_
  refine Proc.Traced.bind (traced_statement (fun env₁ w₁ db₁ w₁' hop hw₁' => ⟨?_, ?_⟩)
    fun _ _ _ _ hsame => ⟨.of_sameData hsame, trivial⟩)
  · exact .of_apply hop hw₁' fun hop => .archive a.id env₁.now rfl hop
  · refine Proc.Traced.bind (traced_transaction logsOnly_nothing
      (fun env₂ w₂ rs db₂ w₂' hrun hw₂' => ⟨.of_run hrun hw₂' ?_, ?_⟩)
      fun _ _ _ _ hsame => ⟨.of_sameData hsame, trivial⟩)
    · -- the tier is the one that was read before the old rules were archived
      obtain ⟨added, hadded, hdb⟩ := updateRulesTx_run hrun
      subst hw₂'
      exact .store a model rules added q ⟨i, _, env, w, w⟩ rfl (by simp [hq]) ha
        (updateRulesTx_account hrun) (by simp) rfl hadded hdb
    · obtain ⟨added, hadded, hdb⟩ := updateRulesTx_run hrun
      have harchived : w₁.db.archiveRules a.id env₁.now = .ok w₁'.db := by
        rw [hw₁']
        exact hop
      refine Proc.Traced.bind (traced_audit fun env₃ w₃ w₃' hsame => ⟨.of_sameData hsame, rfl, ?_⟩)
      refine ⟨w.db.snapshotTier (a.customerId.getD ""), env₁.now, added,
        ⟨i, .findCustomer (a.customerId.getD ""), env, w, w⟩,
        ⟨i, .archiveRules a.id, env₁, w₁, w₁'⟩,
        ⟨i, .createRules a.id, env₂, w₂, w₂'⟩, ⟨i, .audit .rulesUpdated, env₃, w₃, w₃'⟩, by simp,
        ⟨rfl, rfl⟩, ⟨hsame.db, rfl⟩, rfl, harchived, rfl, hadded, ?_⟩
      rw [hw₂']
      exact hdb

/-- The calls of a thread that has replaced the rule set of the account that it found. -/
def RuleSetReplaced (isUrl : String → Bool) (accountRef businessId : String)
    (dto : ReplaceRuleSetDto)
    (result : RuleSetResult) (past past' : Calls ι) : Prop :=
  ∃ a q, q.before.db.findAccountByRef accountRef businessId = some a ∧ Reads q ∧
    validateRuleSet isUrl accountRef dto.rules = true ∧
    result.executionModel = dto.executionModel.getD a.executionModel ∧
    RuleSetStored a result.executionModel dto.rules (past ++ [q]) past'

theorem traced_replaceRuleSet {isUrl : String → Bool} {accountRef businessId : String}
    {dto : ReplaceRuleSetDto} :
    RulesTraced tiers i (fun result past' =>
      RuleSetReplaced isUrl accountRef businessId dto result past past')
        (replaceRuleSet isUrl accountRef businessId dto) past := by
  refine traced_findThen fun env w => ?_
  cases hfound : w.db.findAccountByRef accountRef businessId with
  | none => trivial
  | some a =>
    have hstore : validateRuleSet isUrl accountRef dto.rules = true →
        ∀ model, dto.executionModel.getD a.executionModel = model →
        RulesTraced tiers i (fun result past' =>
          RuleSetReplaced isUrl accountRef businessId dto result past past')
            (storeRuleSet a model dto.rules businessId)
              (past ++ [⟨i, .findAccountByRef businessId accountRef, env, w, w⟩]) := by
      intro hvalid model hmodel
      refine Proc.Traced.mono (fun result past' h => ?_) (fun _ _ h => h) (traced_storeRuleSet
        (List.mem_append_right _ (List.mem_singleton_self _)) (List.mem_of_find?_eq_some hfound))
      obtain ⟨rfl, hstored⟩ := h
      exact ⟨a, _, hfound, ⟨rfl, rfl⟩, hvalid, hmodel.symm, hstored⟩
    dsimp only
    split
    next hvalid =>
      split
      next hmodel =>
        unfold enforcePercentageSum
        dsimp only
        split
        next => trivial
        next => exact hstore hvalid .parallel hmodel
      next hmodel => exact hstore hvalid .sequential hmodel
    next => trivial

theorem traced_provisionAccount {isUrl : String → Bool} {dto : ProvisionAccountDto}
    {businessId : String} :
    RulesTraced tiers i (fun _ _ => True) (provisionAccount isUrl dto businessId) past := by
  unfold provisionAccount
  split
  next =>
    refine traced_findThen fun env w => ?_
    cases w.db.findAccountRef dto.accountRef with
    | some _ => trivial
    | none =>
      refine traced_findThen fun env₁ w₁ => ?_
      cases hfound : w₁.db.findCustomerOf dto.customerId businessId with
      | none => trivial
      | some customer =>
        have hcustomer : customer.id = dto.customerId := by
          have := List.find?_some hfound
          simp only [decide_eq_true_eq] at this
          exact this.1
        refine traced_findThen fun env₂ w₂ => ?_
        cases w₂.db.findBusiness businessId with
        | none => trivial
        | some business =>
          refine Proc.Traced.bind (traced_provisionDva fun env₃ w₃ =>
            ⟨.of_sameData (.refl w₃), ?_, fun _ => trivial⟩)
          refine Proc.Traced.bind (Proc.Traced.catching (traced_transaction logsOnly_nothing
            (fun env₄ w₄ provisioned db₄ w₄' hrun hw₄' => ⟨.of_run hrun hw₄' ?_, ?_⟩)
            fun _ _ _ _ hsame => ⟨.of_sameData hsame, ?_⟩))
          · obtain ⟨a, added, ha, hnew, hadded, hdb⟩ := createAccountTx_run hrun
            subst hw₄'
            refine .provision a customer dto.rules added
              ⟨i, .findCustomer dto.customerId, env₁, w₁, w₁⟩
              ?_ ?_ hnew ?_ (by rw [hcustomer]) (List.mem_of_find?_eq_some hfound) hadded hdb
            · rw [ha]
              rfl
            · rw [ha]
              rfl
            · simp
          · exact traced_auditThen fun _ _ => trivial
          · -- the account could not be created
            refine Proc.Traced.bind (Proc.Traced.catching (traced_expireDva fun env₅ w₅ =>
              ⟨.of_sameData (.refl w₅), ?_, fun _ => ?_⟩))
            · trivial
            · trivial
  next => trivial

theorem traced_archiveRule {rule : Rule} {accountRef ruleId businessId : String} :
    RulesTraced tiers i (fun _ _ => True) (archiveRule rule accountRef ruleId businessId) past := by
  refine Proc.Traced.bind (traced_statement (fun env w db w' hop hw' => ⟨?_, ?_⟩)
    fun _ _ _ _ hsame => ⟨.of_sameData hsame, trivial⟩)
  · exact .of_apply hop hw' fun hop => .disable ruleId _ rfl rfl hop
  · exact (traced_audit fun _ _ _ hsame => ⟨.of_sameData hsame, trivial⟩)

/-- Finding a rule, and what is done with it. -/
theorem traced_resolveRuleThen {accountRef ruleId businessId : String} {k : Rule → Action α}
    (h : ∀ rule env w, rule ∈ w.db.rules → rule.id = ruleId →
      RulesTraced tiers i Q (k rule) (past ++ [⟨i, .findRule ruleId, env, w, w⟩])) :
    RulesTraced tiers i Q ((resolveRule accountRef ruleId businessId).bind k) past := by
  refine Proc.Traced.bind (traced_findThen fun env w => ?_)
  cases hfound : w.db.findRuleOf accountRef ruleId businessId with
  | none => trivial
  | some rule =>
    have hid : rule.id = ruleId := by
      have := List.find?_some hfound
      simp only [decide_eq_true_eq] at this
      exact this.1
    exact h rule env w (List.mem_of_find?_eq_some hfound) hid

theorem traced_toggleRule {accountRef ruleId businessId : String} {enabled : Bool} :
    RulesTraced tiers i (fun _ _ => True) (toggleRule accountRef ruleId businessId enabled) [] := by
  refine traced_resolveRuleThen fun rule env w hrule hid => ?_
  subst hid
  cases enabled with
  | true =>
    dsimp only
    split
    next => trivial
    next hflagged =>
      have hflagged : rule.status = .flaggedForReview := not_not.1 hflagged
      refine Proc.Traced.bind (traced_statement (fun env₁ w₁ db w₁' hop hw₁' => ⟨?_, trivial⟩)
        fun _ _ _ _ hsame => ⟨.of_sameData hsame, trivial⟩)
      refine .of_apply hop hw₁' fun hop => .enable ⟨i, _, env, w, w⟩ rule rfl ?_ (by simp) rfl hrule
        hflagged hop
      intro x hx
      rw [List.mem_singleton.1 hx]
  | false => exact Proc.Traced.bind (traced_archiveRule.mono (fun _ _ _ => trivial) fun _ _ h => h)

theorem traced_deleteRule {accountRef ruleId businessId : String} :
    RulesTraced tiers i (fun _ _ => True) (deleteRule accountRef ruleId businessId) [] := by
  refine traced_resolveRuleThen fun rule env w _ _ => ?_
  exact Proc.Traced.bind (traced_archiveRule.mono (fun _ _ _ => trivial) fun _ _ h => h)

/-! #### A new tier -/

/-- The calls of an update of the tier that has returned: it has found the customer, written the
tier, selected the rules that are stale, and flagged them if there were any. -/
def TierUpdated (id businessId : String) (kycTier : KycTier) (past : Calls ι) : Prop :=
  ∃ c W S rest, past = c :: W :: S :: rest ∧ c.call = .findCustomer id ∧
    (∃ customer ∈ c.before.db.customers, customer.id = id ∧ customer.businessId = businessId) ∧
    W.call = .updateCustomer id ∧ W.before.db.updateCustomerTier id kycTier = .ok W.after.db ∧
    S.call = .findStaleRules id ∧
    (∀ x ∈ rest, (∃ action, x.call = .audit action) ∨ x.call = .flagRules id) ∧
    (S.before.db.staleRules id businessId kycTier = [] ∨
      ∃ F ∈ rest, F.call = .flagRules id ∧ F.before.db.flagRules
        ((S.before.db.staleRules id businessId kycTier).map Rule.id) = .ok F.after.db)

/-- Later calls, all of them audit entries. -/
def AuditedSince (past past' : Calls ι) : Prop :=
  ∃ audits, past' = past ++ audits ∧ ∀ x ∈ audits, ∃ action, x.call = .audit action

theorem traced_auditFlagged {entry : Rule → AuditLogEntry} {rules : List Rule} :
    RulesTraced tiers i (fun _ past' => AuditedSince past past')
      (auditFlagged entry rules) past := by
  induction rules generalizing past with
  | nil => exact ⟨[], by simp, by simp⟩
  | cons rule rules ih =>
    refine traced_auditThen fun ev hev => ?_
    refine Proc.Traced.mono (fun _ past' h => ?_) (fun _ _ h => h) ih
    obtain ⟨audits, rfl, haudits⟩ := h
    refine ⟨ev :: audits, by simp, fun x hx => ?_⟩
    rcases List.mem_cons.1 hx with rfl | hx
    · exact ⟨_, hev⟩
    · exact haudits x hx

theorem traced_updateKycTier {id businessId actor : String} {dto : UpdateKycTierDto}
    (htier : tiers id dto.kycTier) :
    RulesTraced tiers i (fun _ past => TierUpdated id businessId dto.kycTier past)
      (updateKycTier id dto businessId actor) [] := by
  refine traced_findThen fun env w => ?_
  cases hfound : w.db.findCustomerOf id businessId with
  | none => trivial
  | some customer =>
    have hcustomer : customer.id = id ∧ customer.businessId = businessId := by
      have := List.find?_some hfound
      simpa only [decide_eq_true_eq] using this
    have hmem : customer ∈ w.db.customers := List.mem_of_find?_eq_some hfound
    refine Proc.Traced.bind (traced_statement (fun env₁ w₁ db₁ w₁' hop hw₁' => ⟨?_, ?_⟩)
      fun _ _ _ _ hsame => ⟨.of_sameData hsame, trivial⟩)
    · exact .of_apply hop hw₁' fun hop => .tier id dto.kycTier htier rfl hop
    have htier : w₁.db.updateCustomerTier id dto.kycTier = .ok w₁'.db := by
      rw [hw₁']
      exact hop
    refine traced_findThen fun env₂ w₂ => ?_
    have hdone : ∀ rest : Calls ι,
        (∀ x ∈ rest, (∃ action, x.call = .audit action) ∨ x.call = .flagRules id) →
        (w₂.db.staleRules id businessId dto.kycTier = [] ∨
          ∃ F ∈ rest, F.call = .flagRules id ∧ F.before.db.flagRules
            ((w₂.db.staleRules id businessId dto.kycTier).map Rule.id) = .ok F.after.db) →
        TierUpdated id businessId dto.kycTier
          ([⟨i, .findCustomer id, env, w, w⟩, ⟨i, .updateCustomer id, env₁, w₁, w₁'⟩,
            ⟨i, .findStaleRules id, env₂, w₂, w₂⟩] ++ rest) := by
      intro rest hrest hflagged
      exact ⟨_, _, _, rest, rfl, rfl, ⟨customer, hmem, hcustomer⟩, rfl, htier, rfl, hrest, hflagged⟩
    unfold flagStaleRules
    split
    next hnone =>
      -- nothing is stale
      refine traced_auditThen fun ev hev => ?_
      exact hdone [ev] (by simpa using .inl ⟨_, hev⟩) (.inl hnone)
    next hsome =>
      refine Proc.Traced.bind (Proc.Traced.bind (traced_statement
        (fun env₃ w₃ db₃ w₃' hop hw₃' => ⟨?_, ?_⟩)
        fun _ _ _ _ hsame => ⟨.of_sameData hsame, trivial⟩))
      · refine .of_apply hop hw₃' fun hop => .flag id businessId dto.kycTier
          ⟨i, _, env₂, w₂, w₂⟩ rfl ?_ (by simp) rfl hop
        have hleft : w₁'.db.rules = w₁.db.rules :=
          (WriteOp.sameExcept (o := .updateCustomerTier id dto.kycTier) htier).rules
            (by simp [WriteOp.table])
        intro x hx
        simp only [List.cons_append, List.nil_append, List.mem_cons, List.not_mem_nil,
          or_false] at hx
        rcases hx with rfl | rfl | rfl
        · rfl
        · exact hleft
        · rfl
      · have hflag : w₃.db.flagRules ((w₂.db.staleRules id businessId dto.kycTier).map Rule.id) =
            .ok w₃'.db := by
          rw [hw₃']
          exact hop
        refine Proc.Traced.mono (fun _ past' h => ?_) (fun _ _ h => h) traced_auditFlagged
        obtain ⟨audits, rfl, haudits⟩ := h
        refine traced_auditThen fun ev hev => ?_
        rw [List.append_assoc _ audits, List.append_assoc]
        refine hdone _ ?_ (.inr ⟨_, List.mem_cons_self, rfl, hflag⟩)
        intro x hx
        simp only [List.cons_append, List.nil_append, List.mem_cons, List.mem_append,
          List.not_mem_nil, or_false] at hx
        rcases hx with rfl | hx | rfl
        · exact .inr rfl
        · exact .inl (haudits x hx)
        · exact .inl ⟨_, hev⟩

end Operations

namespace RulesOp

/-- The tiers that the operation gives to customers. -/
def SetsTier : RulesOp → String → KycTier → Prop
  | updateKycTier id dto _ _, id', kycTier => id' = id ∧ kycTier = dto.kycTier
  | _, _, _ => False

/-- What is known of the calls of the operation when it has returned. -/
def Done : RulesOp → Calls ι → Prop
  | updateKycTier id dto businessId _, past => TierUpdated id businessId dto.kycTier past
  | _, _ => True

/-- **The calls of every operation on rules.** -/
theorem traced_run {i : ι} {isUrl : String → Bool} (op : RulesOp) :
    RulesTraced op.SetsTier i (fun _ past => op.Done past) (op.run isUrl) [] := by
  cases op with
  | replaceRuleSet accountRef businessId dto =>
    exact Proc.Traced.bind (traced_replaceRuleSet.mono (fun _ _ _ => trivial) fun _ _ h => h)
  | toggleRule accountRef ruleId businessId enabled => exact Proc.Traced.bind traced_toggleRule
  | deleteRule accountRef ruleId businessId => exact Proc.Traced.bind traced_deleteRule
  | updateKycTier id dto businessId actor =>
    exact Proc.Traced.bind (traced_updateKycTier ⟨rfl, rfl⟩)

end RulesOp

/-! ### Runs -/

section Runs

variable [DecidableEq ι] {start : ι → Action α} {w₀ w : World}
  {hist : List (Event ι World Env Call)} {ps : ι → Action α}
  {tiers : ι → String → KycTier → Prop} {Q : ι → α → Calls ι → Prop}
  (run : Run (fun _ _ _ _ => True) start w₀ hist ps w)
  (hstart : ∀ i, RulesTraced (tiers i) i (Q i) (start i) [])
include run hstart

theorem rulesEvent_of_run {n : ℕ} {ev : Event ι World Env Call} (hev : hist[n]? = some ev) :
    RulesEvent (tiers ev.who) (callsOf ev.who (hist.take n)) ev :=
  (run.traced hstart).1 n ev hev

theorem unique_of_run (hunique : w₀.db.UniqueColumns) (n : ℕ) :
    (stateAt hist w n).db.UniqueColumns :=
  run.always (I := fun w => w.db.UniqueColumns) hunique
    (fun _ _ hev => (rulesEvent_of_run run hstart hev).unique) n

end Runs

end AccountOS
