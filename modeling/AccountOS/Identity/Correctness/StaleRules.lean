import AccountOS.Rules.Correctness.Calls

/-!
# Rules that were written for another tier

A change of tier flags the rules that are in force and were written for another tier. The tier that
new rules are written for is read before they are inserted: a rule set whose insertion comes after
the selection of the stale rules, with a tier that was read before the change, is in force and
stale.
-/

namespace AccountOS

open Conc Sql

/-! ### The operations -/

/-- An operation on the rules or the tier of a customer. -/
inductive CustomerOp
  | rules (op : RulesOp)
  | provisionAccount (dto : ProvisionAccountDto) (businessId : String)

namespace CustomerOp

/-- Run the operation, without its answer. -/
def run (isUrl : String → Bool) : CustomerOp → Action Unit
  | rules op => op.run isUrl
  | provisionAccount dto businessId =>
    (AccountOS.provisionAccount isUrl dto businessId).bind fun _ => .ret ()

def SetsTier : CustomerOp → String → KycTier → Prop
  | rules op => op.SetsTier
  | provisionAccount .. => fun _ _ => False

variable {ι : Type}

def Done : CustomerOp → Calls ι → Prop
  | rules op => op.Done
  | provisionAccount .. => fun _ => True

theorem traced_run {i : ι} {isUrl : String → Bool} (op : CustomerOp) :
    RulesTraced op.SetsTier i (fun _ past => op.Done past) (op.run isUrl) [] := by
  cases op with
  | rules op => exact op.traced_run
  | provisionAccount dto businessId => exact Proc.Traced.bind traced_provisionAccount

end CustomerOp

/-! ### What the calls do to the tables -/

/-- The tier of a customer. -/
def Db.tierOf (db : Db) (id : String) : Option KycTier :=
  columnOf Customer.id Customer.kycTier id db.customers

/-- The customer of an account. -/
def Db.customerOf (db : Db) (accountId : String) : Option (Option String) :=
  columnOf Account.id Account.customerId accountId db.accounts

/-- Every rule has its account. -/
def Db.RulesHaveAccounts (db : Db) : Prop := ∀ r ∈ db.rules, ∃ a ∈ db.accounts, a.id = r.accountId

/-- The calls that change one rule. -/
def Call.updatesRule : Call → Bool
  | updateRule .. => true
  | _ => false

/-- The calls that insert rules. -/
def Call.createsRules : Call → Bool
  | createRules _ | createAccount _ => true
  | _ => false

variable {ι : Type}

/-- A call that gives a tier to a customer, made by a thread that may do so. -/
def WritesTier (tiers : String → KycTier → Prop) (customerId : String) (kycTier : KycTier)
    (ev : Event ι World Env Call) : Prop :=
  tiers customerId kycTier ∧ ev.call = .updateCustomer customerId ∧
    ev.before.db.updateCustomerTier customerId kycTier = .ok ev.after.db

/-- The rule has been inserted by a thread that has read the tier of the account's customer. -/
structure InsertedBy (past : Calls ι) (ev : Event ι World Env Call) (rule : Rule)
    (customerId : String) : Prop where
  creates : ev.call.createsRules = true
  new : ∀ x ∈ ev.before.db.rules, x.id ≠ rule.id
  account : (∃ q ∈ past, ∃ a ∈ q.before.db.accounts,
      a.id = rule.accountId ∧ a.customerId.getD "" = customerId) ∨
    ∃ a ∈ ev.after.db.accounts, a.id = rule.accountId ∧ a.customerId = some customerId
  snapshot : ∃ r ∈ past, r.call = .findCustomer customerId ∧
    ((r.before.db.customers.map Customer.id).Nodup → ∀ t, r.before.db.tierOf customerId = some t →
      rule.kycTierAtCreation = t)

namespace RulesCall

variable {tiers : String → KycTier → Prop} {past : Calls ι} {ev : Event ι World Env Call}

/-- The customers: one of them gets a tier. -/
theorem customers_cases (h : RulesCall tiers past ev) :
    ev.after.db.customers = ev.before.db.customers ∨
      ∃ id kycTier, WritesTier tiers id kycTier ev := by
  rcases h.writes_cases with hdb | ⟨o, ho, hop⟩ | htier | ⟨accounts, added, hdb, -⟩
  · left
    rw [hdb]
  · left
    exact (WriteOp.sameExcept hop).customers (by simp [ho])
  · right
    exact htier
  · left
    rw [hdb]

/-- The accounts: they keep their customers, and there may be a new one. -/
theorem accounts_cases (h : RulesCall tiers past ev) :
    (∃ f : Account → Account, (∀ a, (f a).id = a.id ∧ (f a).customerId = a.customerId) ∧
      ev.after.db.accounts = ev.before.db.accounts.map f) ∨
    ∃ a : Account, (∀ x ∈ ev.before.db.accounts, x.id ≠ a.id) ∧
      ev.after.db.accounts = ev.before.db.accounts ++ [a] := by
  have hsame : ev.after.db.accounts = ev.before.db.accounts →
      ∃ f : Account → Account, (∀ a, (f a).id = a.id ∧ (f a).customerId = a.customerId) ∧
        ev.after.db.accounts = ev.before.db.accounts.map f := by
    intro haccounts
    refine ⟨fun a => a, fun _ => ⟨rfl, rfl⟩, ?_⟩
    rw [haccounts, List.map_id']
  rcases h.writes_cases with hdb | ⟨o, ho, hop⟩ | ⟨id, kycTier, -, -, hop⟩ |
    ⟨accounts, added, hdb, ⟨id, executionModel, haccounts⟩ | ⟨a, hnew, haccounts⟩⟩
  · exact .inl (hsame (by rw [hdb]))
  · exact .inl (hsame ((WriteOp.sameExcept hop).accounts (by simp [ho])))
  · exact .inl (hsame ((WriteOp.sameExcept (o := .updateCustomerTier id kycTier) hop).accounts
      (by simp [WriteOp.table])))
  · refine .inl ⟨fun x => if x.id = id then { x with executionModel } else x, ?_, ?_⟩
    · intro x
      dsimp only
      split <;> exact ⟨rfl, rfl⟩
    · rw [hdb]
      exact haccounts
  · refine .inr ⟨a, hnew, ?_⟩
    rw [hdb]
    exact haccounts

/-- The rules: they keep their ids and accounts, and what is in force has been before, unless it is
enabled. Or there are new ones. -/
theorem rules_cases (h : RulesCall tiers past ev) :
    (∃ f : Rule → Rule, (∀ r, (f r).id = r.id ∧ (f r).accountId = r.accountId) ∧
      (∀ r, (f r).status = .active → f r = r ∨ ev.call = .updateRule r.id .active) ∧
        ev.after.db.rules = ev.before.db.rules.map f) ∨
    ∃ added, ev.after.db.rules = ev.before.db.rules ++ added ∧ ∀ r ∈ added,
      (∃ a ∈ ev.after.db.accounts, a.id = r.accountId) ∧
        ∃ customerId, (∀ x ∈ ev.before.db.rules, x.id ≠ r.id) →
          InsertedBy past ev r customerId := by
  have hsame : ev.after.db.rules = ev.before.db.rules →
      ∃ f : Rule → Rule, (∀ r, (f r).id = r.id ∧ (f r).accountId = r.accountId) ∧
        (∀ r, (f r).status = .active → f r = r ∨ ev.call = .updateRule r.id .active) ∧
          ev.after.db.rules = ev.before.db.rules.map f := by
    intro hrules
    refine ⟨fun r => r, fun _ => ⟨rfl, rfl⟩, fun _ _ => .inl rfl, ?_⟩
    rw [hrules, List.map_id']
  -- archiving, disabling and flagging only put rules out of force
  cases h with
  | read hdb => exact .inl (hsame (by rw [hdb]))
  | archive accountId now hcall hop =>
    have hdb := (Except.ok.inj hop).symm
    refine .inl ⟨_, fun r => ?_, fun r hactive => ?_, congrArg Db.rules hdb⟩
    · split <;> exact ⟨rfl, rfl⟩
    · split at hactive
      next => cases hactive
      next hne => exact .inl (if_neg hne)
  | store a model rules added q r hcall hq ha hexists hr hread hadded hdb =>
    refine .inr ⟨added, by rw [hdb], fun rule hrule => ?_⟩
    obtain ⟨d, -, hstored⟩ := exists_definition hadded rule hrule
    obtain ⟨trigger, action, row, -, -, rfl⟩ := hstored
    refine ⟨?_, a.customerId.getD "", fun hnew =>
      ⟨by rw [hcall]; rfl, hnew, .inl ⟨q, hq, a, ha, rfl, rfl⟩,
      r, hr, hread, ?_⟩⟩
    · obtain ⟨x, hx, hid⟩ := hexists
      rw [hdb]
      exact ⟨_, mem_updateRow_of_eq hx hid, hid⟩
    · intro _ t ht
      show (r.before.db.snapshotTier _) = t
      have hfound :
          (r.before.db.findCustomer (a.customerId.getD "")).map Customer.kycTier = some t :=
        ht
      rw [Db.snapshotTier, hfound]
      rfl
  | provision a customer rules added r hcall hcustomer hnew hr hread hfound hadded hdb =>
    refine .inr ⟨added, by rw [hdb], fun rule hrule => ?_⟩
    obtain ⟨d, -, hstored⟩ := exists_definition hadded rule hrule
    obtain ⟨trigger, action, row, -, -, rfl⟩ := hstored
    have hmem : a ∈ ev.after.db.accounts := by
      rw [hdb]
      exact List.mem_append_right _ (List.mem_singleton_self _)
    refine ⟨⟨a, hmem, rfl⟩, customer.id, fun hnew => ⟨by rw [hcall]; rfl, hnew,
      .inr ⟨a, hmem, rfl, hcustomer⟩, r, hr, hread, ?_⟩⟩
    intro hnodup t ht
    have hrow : r.before.db.tierOf customer.id = some customer.kycTier :=
      columnOf_of_mem hnodup hfound
    rw [ht] at hrow
    exact (Option.some.inj hrow).symm
  | disable ruleId data hcall hstatus hop =>
    obtain ⟨-, hdb⟩ := Db.updateRule_eq_ok.1 hop
    refine .inl ⟨fun r => if r.id = ruleId then data.set r else r, fun r => ?_, fun r hactive => ?_,
      congrArg Db.rules hdb⟩
    · dsimp only
      split <;> exact ⟨rfl, rfl⟩
    · dsimp only at hactive ⊢
      split at hactive
      next =>
        have hactive : data.status = .active := hactive
        rw [hstatus] at hactive
        cases hactive
      next hne => exact .inl (if_neg hne)
  | enable r rule hcall hleft hr hread hrule hflagged hop =>
    obtain ⟨-, hdb⟩ := Db.updateRule_eq_ok.1 hop
    refine .inl ⟨fun x => if x.id = rule.id then RuleData.set { status := .active } x else x,
      fun x => ?_, fun x hactive => ?_, congrArg Db.rules hdb⟩
    · dsimp only
      split <;> exact ⟨rfl, rfl⟩
    · by_cases hid : x.id = rule.id
      · exact .inr (by rw [hcall, hid])
      · exact .inl (if_neg hid)
  | tier id kycTier htier hcall hop =>
    exact .inl (hsame ((WriteOp.sameExcept (o := .updateCustomerTier id kycTier) hop).rules
      (by simp [WriteOp.table])))
  | flag customerId businessId kycTier s hcall hleft hs hread hop =>
    have hdb := (Except.ok.inj hop).symm
    refine .inl ⟨_, fun r => ?_, fun r hactive => ?_, congrArg Db.rules hdb⟩
    · split <;> exact ⟨rfl, rfl⟩
    · split at hactive
      next => cases hactive
      next hne => exact .inl (if_neg hne)

end RulesCall

/-- An update that has returned has made its other calls after it has written the tier. -/
theorem TierUpdated.after {id businessId : String} {kycTier : KycTier} {past later : Calls ι}
    {W : Event ι World Env Call} {id' : String} (hW : W.call = .updateCustomer id')
    (h : TierUpdated id businessId kycTier (past ++ W :: later)) :
    (∃ c ∈ past, ∃ customer ∈ c.before.db.customers,
      customer.id = id ∧ customer.businessId = businessId) ∧
    ∃ S rest, later = S :: rest ∧ S.call = .findStaleRules id ∧
      (S.before.db.staleRules id businessId kycTier = [] ∨
        ∃ F ∈ rest, F.before.db.flagRules
          ((S.before.db.staleRules id businessId kycTier).map Rule.id) = .ok F.after.db) := by
  obtain ⟨c, W', S, rest, heq, hc, hcustomer, -, -, hS, hrest, hflagged⟩ := h
  have hnot : ∀ x ∈ S :: rest, x ≠ W := by
    rintro x hx rfl
    rcases List.mem_cons.1 hx with rfl | hx
    · rw [hS] at hW
      cases hW
    · rcases hrest x hx with ⟨action, haudit⟩ | hflag
      · rw [haudit] at hW
        cases hW
      · rw [hflag] at hW
        cases hW
  match past with
  | [] =>
    rw [List.nil_append, List.cons.injEq] at heq
    rw [heq.1, hc] at hW
    cases hW
  | [x] =>
    simp only [List.cons_append, List.nil_append, List.cons.injEq] at heq
    obtain ⟨rfl, -, rfl⟩ := heq
    refine ⟨⟨x, List.mem_singleton_self _, hcustomer⟩, S, rest, rfl, hS, ?_⟩
    exact hflagged.imp_right fun ⟨F, hF, _, hop⟩ => ⟨F, hF, hop⟩
  | x :: y :: past =>
    simp only [List.cons_append, List.cons.injEq] at heq
    have hmem : W ∈ S :: rest := by
      rw [← heq.2.2]
      exact List.mem_append_right _ List.mem_cons_self
    exact absurd rfl (hnot W hmem)

/-! ### The condition -/

/-- Between the calls `r` and `C` of one thread, another one writes the tier of the customer with
`W` and then selects the rules that are stale. -/
def UpdatedBetween (hist : List (Event ι World Env Call)) (customerId : String)
    (r W C : Event ι World Env Call) : Prop :=
  ∃ (i j k l : ℕ) (S : Event ι World Env Call), i < j ∧ j < k ∧ k < l ∧ hist[i]? = some r ∧
    hist[j]? = some W ∧ hist[k]? = some S ∧ hist[l]? = some C ∧ r.who = C.who ∧ W.who = S.who ∧
      W.call = .updateCustomer customerId ∧ S.call = .findStaleRules customerId

/-- No rules are inserted for a tier that the customer has ceased to have, where the update which
has written the present one has already selected the stale rules. -/
def InsertsForCurrentTier (customerId : String) (hist : List (Event ι World Env Call)) : Prop :=
  ∀ r W C, UpdatedBetween hist customerId r W C → r.call = .findCustomer customerId →
    C.call.createsRules = true → W.after.db.tierOf customerId = C.before.db.tierOf customerId →
      r.before.db.tierOf customerId = C.before.db.tierOf customerId

/-- Every rule in force on an account of the customer was written for the tier that the customer
has, unless it has been enabled by hand. -/
def NoStaleRuleInForce (customerId : String) (hist : List (Event ι World Env Call)) (w : World) :
    Prop :=
  ∀ a ∈ w.db.accounts, a.customerId = some customerId → ∀ r ∈ w.db.rules, r.accountId = a.id →
    r.status = .active → (∀ ev ∈ hist, ev.call ≠ .updateRule r.id .active) →
      w.db.tierOf customerId = some r.kycTierAtCreation

/-! ### Along a run -/

section Runs

variable [DecidableEq ι] {isUrl : String → Bool} {ops : ι → CustomerOp} {w₀ w : World}
  {hist : List (Event ι World Env Call)} {ps : ι → Action Unit}
  (run : Run (fun _ _ _ _ => True) (fun i => (ops i).run isUrl) w₀ hist ps w)
include run

theorem rulesCall_of_run {n : ℕ} {ev : Event ι World Env Call} (hev : hist[n]? = some ev) :
    RulesCall (ops ev.who).SetsTier (callsOf ev.who (hist.take n)) ev :=
  (rulesEvent_of_run run (fun i => (ops i).traced_run) hev).does

/-- An account stays the one of its customer. -/
theorem customerOf_persists {m n : ℕ} (hmn : m ≤ n) {id : String} {c : Option String}
    (h : (stateAt hist w m).db.customerOf id = some c) :
    (stateAt hist w n).db.customerOf id = some c := by
  refine run.persists (P := fun w => w.db.customerOf id = some c) hmn h ?_
  intro k ev _ _ hev hbefore
  rcases (rulesCall_of_run run hev).accounts_cases with ⟨f, hf, haccounts⟩ | ⟨a, -, haccounts⟩
  · obtain ⟨a, -, -, hc, hafter⟩ := exists_columnOf_map (fun a => (hf a).1) hbefore
    show columnOf Account.id Account.customerId id ev.after.db.accounts = _
    rw [haccounts, hafter, (hf a).2, hc]
  · show columnOf Account.id Account.customerId id ev.after.db.accounts = _
    rw [haccounts]
    exact columnOf_append_of_some hbefore

/-- No rule loses its account. -/
theorem rulesHaveAccounts_of_run (h₀ : w₀.db.RulesHaveAccounts) (n : ℕ) :
    (stateAt hist w n).db.RulesHaveAccounts := by
  refine run.always (I := fun w => w.db.RulesHaveAccounts) h₀ ?_ n
  intro k ev hev hbefore r hr
  have haccounts : ∀ a ∈ ev.before.db.accounts, ∃ x ∈ ev.after.db.accounts, x.id = a.id := by
    intro a ha
    rcases (rulesCall_of_run run hev).accounts_cases with ⟨f, hf, heq⟩ | ⟨new, -, heq⟩
    · exact ⟨f a, by rw [heq]; exact List.mem_map_of_mem ha, (hf a).1⟩
    · exact ⟨a, by rw [heq]; exact List.mem_append_left _ ha, rfl⟩
  have hold : ∀ x ∈ ev.before.db.rules, x.accountId = r.accountId →
      ∃ a ∈ ev.after.db.accounts, a.id = r.accountId := by
    intro x hx hid
    obtain ⟨a, ha, haid⟩ := hbefore x hx
    obtain ⟨b, hb, hbid⟩ := haccounts a ha
    exact ⟨b, hb, hbid.trans (haid.trans hid)⟩
  rcases (rulesCall_of_run run hev).rules_cases with ⟨f, hf, -, hrules⟩ | ⟨added, hrules, hadded⟩
  · rw [hrules] at hr
    obtain ⟨x, hx, rfl⟩ := List.mem_map.1 hr
    exact hold x hx (hf x).2.symm
  · rw [hrules] at hr
    rcases List.mem_append.1 hr with hr | hr
    · exact hold r hr rfl
    · exact (hadded r hr).1

/-- No rule is removed. -/
theorem ruleId_persists {m n : ℕ} (hmn : m ≤ n) {id : String}
    (h : ∃ r ∈ (stateAt hist w m).db.rules, r.id = id) :
    ∃ r ∈ (stateAt hist w n).db.rules, r.id = id := by
  refine run.persists (P := fun w => ∃ r ∈ w.db.rules, r.id = id) hmn h ?_
  rintro k ev _ _ hev ⟨r, hr, rfl⟩
  rcases (rulesCall_of_run run hev).rules_cases with ⟨f, hf, -, hrules⟩ | ⟨added, hrules, -⟩
  · exact ⟨f r, by rw [hrules]; exact List.mem_map_of_mem hr, (hf r).1⟩
  · exact ⟨r, by rw [hrules]; exact List.mem_append_left _ hr, rfl⟩

/-- What the customers have besides their tiers stays as it is. -/
theorem customers_of_run {τ : Type} {g : Customer → τ}
    (hg : ∀ c kycTier, g { c with kycTier } = g c) (n : ℕ) :
    (stateAt hist w n).db.customers.map g = w₀.db.customers.map g := by
  refine run.always (I := fun w => w.db.customers.map g = w₀.db.customers.map g) rfl ?_ n
  intro k ev hev hbefore
  rcases (rulesCall_of_run run hev).customers_cases with hsame | ⟨id, kycTier, -, -, hop⟩
  · show ev.after.db.customers.map g = _
    rw [hsame]
    exact hbefore
  · obtain ⟨-, hdb⟩ := Db.updateCustomerTier_eq_ok.1 hop
    show ev.after.db.customers.map g = _
    rw [hdb]
    show (updateRow Customer.id id _ ev.before.db.customers).map g = _
    rw [map_updateRow (fun c => hg c kycTier)]
    exact hbefore

/-- A tier that nobody writes stays. -/
theorem tierOf_persists {m n : ℕ} (hmn : m ≤ n) {id : String}
    (hnone : ∀ k ev, m ≤ k → k < n → hist[k]? = some ev →
      ∀ kycTier, ¬ WritesTier (ops ev.who).SetsTier id kycTier ev) :
    (stateAt hist w n).db.tierOf id = (stateAt hist w m).db.tierOf id := by
  refine run.persists (P := fun x => x.db.tierOf id = (stateAt hist w m).db.tierOf id) hmn rfl ?_
  intro k ev hmk hkn hev hbefore
  rw [← hbefore]
  rcases (rulesCall_of_run run hev).customers_cases with
    hsame | ⟨id', kycTier, hsets, hcall, hop⟩
  · unfold Db.tierOf
    rw [hsame]
  · have hne : id ≠ id' := by
      rintro rfl
      exact hnone k ev hmk hkn hev kycTier ⟨hsets, hcall, hop⟩
    obtain ⟨-, hdb⟩ := Db.updateCustomerTier_eq_ok.1 hop
    unfold Db.tierOf
    rw [hdb]
    exact columnOf_updateRow_of_ne (fun _ => rfl) hne

/-- A rule that is in force and was not there has been inserted, unless it has been enabled. -/
theorem exists_insertedBy {m n : ℕ} (hmn : m ≤ n) {r : Rule}
    (hunique : ∀ n, (stateAt hist w n).db.UniqueColumns) (hactive : r.status = .active)
    (hnever : ∀ ev ∈ hist, ev.call ≠ .updateRule r.id .active)
    (hm : r ∉ (stateAt hist w m).db.rules) (hn : r ∈ (stateAt hist w n).db.rules) :
    ∃ k ev customerId, m ≤ k ∧ k < n ∧ hist[k]? = some ev ∧
      InsertedBy (callsOf ev.who (hist.take k)) ev r customerId := by
  obtain ⟨k, ev, hmk, hkn, hev, hbefore, hafter⟩ :=
    run.exists_change (P := fun w => r ∉ w.db.rules) hmn hm (not_not.2 hn)
  have hafter := not_not.1 hafter
  have huniqueAfter := hunique (k + 1)
  rw [run.stateAt_succ hev] at huniqueAfter
  rcases (rulesCall_of_run run hev).rules_cases with ⟨f, hid, hf, hrules⟩ | ⟨added, hrules, hadded⟩
  · -- a row that is in force has been in force before
    rw [hrules] at hafter
    obtain ⟨x, hx, rfl⟩ := List.mem_map.1 hafter
    rcases hf x hactive with heq | henable
    · rw [heq] at hbefore
      exact absurd hx hbefore
    · rw [(hid x).1] at hnever
      exact absurd henable (hnever ev (List.mem_of_getElem? hev))
  · rw [hrules] at hafter
    have hmem : r ∈ added := (List.mem_append.1 hafter).resolve_left hbefore
    have hnew : ∀ x ∈ ev.before.db.rules, x.id ≠ r.id := by
      have hnodup := huniqueAfter.rules
      rw [hrules, List.map_append, List.nodup_append] at hnodup
      intro x hx
      exact hnodup.2.2 x.id (List.mem_map_of_mem hx) r.id (List.mem_map_of_mem hmem)
    obtain ⟨-, customerId, hinserted⟩ := hadded r hmem
    exact ⟨k, ev, customerId, hmk, hkn, hev, hinserted hnew⟩

/-- The tier that a customer has when the last change of it has been written. -/
theorem tierOf_of_lastWrite {j n : ℕ} {W : Event ι World Env Call} {customerId : String}
    {kycTier : KycTier} (hW : hist[j]? = some W)
    (hop : W.before.db.updateCustomerTier customerId kycTier = .ok W.after.db)
    (hlast : ∀ (k : ℕ) x, j < k → hist[k]? = some x →
      ¬ ∃ t, WritesTier (ops x.who).SetsTier customerId t x) (hjn : j < n) :
    (stateAt hist w n).db.tierOf customerId = some kycTier := by
  have hpersists : (stateAt hist w n).db.tierOf customerId =
      (stateAt hist w (j + 1)).db.tierOf customerId :=
    tierOf_persists run (by omega) fun k ev hjk _ hev t ht => hlast k ev (by omega) hev ⟨t, ht⟩
  rw [hpersists, run.stateAt_succ hW]
  obtain ⟨hrow, hdb⟩ := Db.updateCustomerTier_eq_ok.1 hop
  show columnOf Customer.id Customer.kycTier customerId W.after.db.customers = _
  rw [hdb]
  show columnOf Customer.id Customer.kycTier customerId (updateRow Customer.id customerId _ _) = _
  rw [columnOf_updateRow_self (f := fun c : Customer => { c with kycTier }) fun _ => rfl]
  exact columnOf_const hrow

/-- The last update of a customer's tier that has taken effect: it has returned, so that the stale
rules have been selected and flagged after it. -/
theorem exists_lastUpdate (hcompleted : ∀ i, ps i = .ret ()) {i : ι} {customerId : String}
    {dto : UpdateKycTierDto} {businessId actor : String}
    (hupdate : ops i = .rules (.updateKycTier customerId dto businessId actor)) :
    ∃ (j k : ℕ) (W S : Event ι World Env Call) (kycTier : KycTier) (businessId : String), j < k ∧
      hist[j]? = some W ∧ hist[k]? = some S ∧ W.who = S.who ∧ W.call = .updateCustomer customerId ∧
      S.call = .findStaleRules customerId ∧
      (∀ n, j < n → (stateAt hist w n).db.tierOf customerId = some kycTier) ∧
      (∀ n, ∃ c ∈ (stateAt hist w n).db.customers, c.id = customerId ∧ c.businessId = businessId) ∧
      (S.before.db.staleRules customerId businessId kycTier = [] ∨
        ∃ (l : ℕ) (F : Event ι World Env Call), k < l ∧ hist[l]? = some F ∧
          F.before.db.flagRules
              ((S.before.db.staleRules customerId businessId kycTier).map Rule.id) =
            .ok F.after.db) := by
  have hdone : ∀ i, (ops i).Done (callsOf i hist) := by
    intro i
    have := (run.traced fun i => (ops i).traced_run).2 i
    rw [hcompleted i] at this
    exact this
  -- there is an update that takes effect, and so there is a last one
  have hfirst := hdone i
  rw [hupdate] at hfirst
  obtain ⟨c, W₀, S₀, rest₀, hcalls, -, -, hcall₀, hop₀, -⟩ := hfirst
  have hmem₀ : W₀ ∈ callsOf i hist := by
    rw [hcalls]
    exact List.mem_cons_of_mem _ List.mem_cons_self
  obtain ⟨hwho₀, j₀, hj₀⟩ := mem_callsOf.1 hmem₀
  have hwrites₀ : WritesTier (ops W₀.who).SetsTier customerId dto.kycTier W₀ := by
    rw [hwho₀, hupdate]
    exact ⟨⟨rfl, rfl⟩, hcall₀, hop₀⟩
  obtain ⟨j, W, hj, ⟨kycTier, hsets, hcall, hop⟩, hlast⟩ := exists_last
    (P := fun x => ∃ t, WritesTier (ops x.who).SetsTier customerId t x) hj₀ ⟨_, hwrites₀⟩
  -- what its thread has called
  have hW := hdone W.who
  rw [callsOf_eq_append hj] at hW
  cases hops : ops W.who with
  | provisionAccount => rw [hops] at hsets; exact hsets.elim
  | rules op =>
    rw [hops] at hsets hW
    cases op with
    | replaceRuleSet => exact hsets.elim
    | toggleRule => exact hsets.elim
    | deleteRule => exact hsets.elim
    | updateKycTier id dto' businessId' actor' =>
      obtain ⟨rfl, rfl⟩ := hsets
      obtain ⟨⟨c', hc', customer, hcustomer, hids⟩, S, rest, hlater, hS, hflagged⟩ :=
        TierUpdated.after hcall hW
      have hlaterS : callsOf W.who (hist.drop (j + 1)) = [] ++ S :: rest := hlater
      obtain ⟨k, hk, -, hrest⟩ := exists_getElem?_of_callsOf hlaterS
      rw [List.getElem?_drop] at hk
      have hwho : W.who = S.who := by
        have hmem : S ∈ callsOf W.who (hist.drop (j + 1)) := by
          rw [hlater]
          exact List.mem_cons_self
        exact (mem_callsOf.1 hmem).1.symm
      refine ⟨j, j + 1 + k, W, S, dto'.kycTier, businessId', by omega, hj, hk, hwho, hcall, hS,
        fun n hn => tierOf_of_lastWrite run hj hop hlast hn, fun n => ?_, ?_⟩
      · obtain ⟨-, m, -, hm⟩ := mem_callsOf_take.1 hc'
        have hpairs := fun n => customers_of_run run (g := fun c => (c.id, c.businessId))
          (fun _ _ => rfl) n
        have hpair : (customer.id, customer.businessId) ∈
            (stateAt hist w n).db.customers.map fun c => (c.id, c.businessId) := by
          rw [hpairs n, ← hpairs m, stateAt_eq_before hm]
          exact List.mem_map_of_mem (f := fun c : Customer => (c.id, c.businessId)) hcustomer
        obtain ⟨x, hx, heq⟩ := List.mem_map.1 hpair
        obtain ⟨hxid, hxbusiness⟩ := Prod.mk.inj heq
        exact ⟨x, hx, hxid.trans hids.1, hxbusiness.trans hids.2⟩
      · refine hflagged.imp_right fun ⟨F, hF, hflag⟩ => ?_
        rw [← hrest] at hF
        obtain ⟨-, l, hl⟩ := mem_callsOf.1 hF
        rw [List.getElem?_drop, List.getElem?_drop] at hl
        exact ⟨_, F, by omega, hl, hflag⟩

/-- **No stale rule stays in force**, where rules are inserted for the tier that their customer has,
or before an update of the tier has selected the rules that it makes stale. The operations are any
updates of tiers, provisionings, and other operations on rules, in any order of their calls; all of
them have completed, and the tier of the customer is among those that have been updated. -/
theorem no_stale_rule_in_force (hunique : w₀.db.UniqueColumns)
    (hcustomers : (w₀.db.customers.map Customer.id).Nodup) (haccounts : w₀.db.RulesHaveAccounts)
    (hcompleted : ∀ i, ps i = .ret ()) {customerId : String}
    (hupdate : ∃ i dto businessId actor,
      ops i = .rules (.updateKycTier customerId dto businessId actor))
    (hcurrent : InsertsForCurrentTier customerId hist) :
    NoStaleRuleInForce customerId hist w := by
  intro a ha hacustomer r hr hraccount hactive hnever
  have hunique := unique_of_run run (fun i => (ops i).traced_run) hunique
  have hend : stateAt hist w hist.length = w := stateAt_of_le le_rfl
  obtain ⟨i, dto, businessId, actor, hupdate⟩ := hupdate
  obtain ⟨j, k, W, S, kycTier, businessId, hjk, hj, hk, hwho, hWcall, hScall, htier, hcustomer,
    hflagged⟩ := exists_lastUpdate run hcompleted hupdate
  have hjlt := (List.getElem?_eq_some_iff.1 hj).1
  have hklt := (List.getElem?_eq_some_iff.1 hk).1
  have hlast := htier hist.length hjlt
  rw [hend] at hlast
  rw [hlast]
  -- the account belongs to the customer at any time
  have hof : ∀ n, n ≤ hist.length → ∀ x ∈ (stateAt hist w n).db.accounts, x.id = r.accountId →
      x.customerId = some customerId := by
    intro n hn x hx hid
    have hthen : (stateAt hist w n).db.customerOf r.accountId = some x.customerId := by
      rw [← hid]
      exact columnOf_of_mem (hunique n).accounts hx
    have hnow := customerOf_persists run hn hthen
    have hfound : (stateAt hist w hist.length).db.customerOf r.accountId = some a.customerId := by
      rw [hraccount]
      refine columnOf_of_mem (hunique hist.length).accounts ?_
      rwa [hend]
    rw [hfound, hacustomer] at hnow
    exact (Option.some.inj hnow).symm
  have hrEnd : r ∈ (stateAt hist w hist.length).db.rules := by rwa [hend]
  by_cases hselected : r ∈ (stateAt hist w k).db.rules
  · -- it was there when the stale rules were selected
    by_contra hstale
    have hstale : r.kycTierAtCreation ≠ kycTier := fun h => hstale (by rw [h])
    obtain ⟨x, hx, hxid⟩ := rulesHaveAccounts_of_run run haccounts k r hselected
    have hmem : r ∈ S.before.db.staleRules customerId businessId kycTier := by
      rw [← stateAt_eq_before (s := w) hk]
      refine List.mem_filter.2 ⟨hselected, decide_eq_true ⟨hactive, hstale, x, hx, hxid, ?_, ?_⟩⟩
      · exact hof k (by omega) x hx hxid
      · exact hcustomer k
    rcases hflagged with hnone | ⟨l, F, hkl, hl, hflag⟩
    · rw [hnone] at hmem
      cases hmem
    · have hllt := (List.getElem?_eq_some_iff.1 hl).1
      have hgone : r ∉ (stateAt hist w (l + 1)).db.rules := by
        rw [run.stateAt_succ hl, ← Except.ok.inj hflag]
        intro hr
        obtain ⟨y, -, hy⟩ := List.mem_map.1 hr
        split at hy
        next =>
          rw [← hy] at hactive
          cases hactive
        next hnot =>
          rw [hy] at hnot
          exact hnot (List.mem_map_of_mem hmem)
      obtain ⟨q, ev, c, hlq, hqlt, hev, hinserted⟩ :=
        exists_insertedBy run (by omega) hunique hactive hnever hgone hrEnd
      obtain ⟨y, hy, hyid⟩ := ruleId_persists run (m := k) (n := q) (by omega) ⟨r, hselected, rfl⟩
      rw [stateAt_eq_before hev] at hy
      exact absurd hyid (hinserted.new y hy)
  · -- it was inserted later
    obtain ⟨q, ev, c, hkq, hqlt, hev, hinserted⟩ :=
      exists_insertedBy run (by omega) hunique hactive hnever hselected hrEnd
    have hc : c = customerId := by
      rcases hinserted.account with ⟨e, he, x, hx, hid, hxc⟩ | ⟨x, hx, hid, hxc⟩
      · obtain ⟨-, m, hmq, hm⟩ := mem_callsOf_take.1 he
        rw [← stateAt_eq_before (s := w) hm] at hx
        rw [hof m (by omega) x hx hid] at hxc
        exact hxc.symm
      · rw [← run.stateAt_succ hev] at hx
        rw [hof (q + 1) (by omega) x hx hid] at hxc
        exact (Option.some.inj hxc).symm
    subst hc
    obtain ⟨e, he, hecall, hsnapshot⟩ := hinserted.snapshot
    obtain ⟨hewho, m, hmq, hm⟩ := mem_callsOf_take.1 he
    have hnodup : (e.before.db.customers.map Customer.id).Nodup := by
      rw [← stateAt_eq_before (s := w) hm, customers_of_run run (fun _ _ => rfl) m]
      exact hcustomers
    rw [hsnapshot hnodup kycTier ?_]
    rcases Nat.lt_trichotomy m j with hmj | rfl | hjm
    · -- the tier was read before the last change of it
      have hkq : k < q := by
        refine Nat.lt_of_le_of_ne hkq ?_
        rintro rfl
        rw [hk] at hev
        cases hev
        have := hinserted.creates
        rw [hScall] at this
        cases this
      have hsame := hcurrent e W ev ⟨m, j, k, q, S, hmj, hjk, hkq, hm, hj, hk, hev, hewho, hwho,
        hWcall, hScall⟩ hecall hinserted.creates
      rw [← stateAt_eq_before (s := w) hev, htier q (by omega), ← run.stateAt_succ hj,
        htier (j + 1) (by omega)] at hsame
      exact hsame rfl
    · rw [hm] at hj
      cases hj
      rw [hecall] at hWcall
      cases hWcall
    · rw [← stateAt_eq_before (s := w) hm]
      exact htier m hjm

end Runs

/-! ### A rule set that is replaced while the tier changes -/

namespace Sample

/-- The rule set of the account is replaced, and its customer gets another tier. -/
def replaceAndUpgrade : Bool → CustomerOp
  | false => .rules (.replaceRuleSet "shop" "biz" (releaseSet 50))
  | true => .rules (.updateKycTier "cus1" { kycTier := .tier2 } "biz" "admin")

/-- The calls of the two, in the order of `turns`. -/
def replaceUpgrade (turns : List Bool) :
    List (Event Bool World Env Call) × (Bool → Action Unit) × World :=
  exec (fun i => (replaceAndUpgrade i).run fun _ => true) tieredShop
    (turns.map fun i => (i, { rows := fun _ => ⟨1, "rule2"⟩ }))

theorem run_replaceUpgrade (turns : List Bool) :
    Run (fun _ _ _ _ => True) (fun i => (replaceAndUpgrade i).run fun _ => true) tieredShop
      (replaceUpgrade turns).1 (replaceUpgrade turns).2.1 (replaceUpgrade turns).2.2 :=
  Run.of_exec _ _ _ fun _ _ => trivial

/-- The new rules are inserted before the stale ones are selected. -/
def insertedBefore : List Bool :=
  [false, false, true, true, false, false, false, true, true, true, true]

/-- What is called then. -/
def callsInsertedBefore : List Call := [
  .findAccountByRef "biz" "shop", .findCustomer "cus1", .findCustomer "cus1",
  .updateCustomer "cus1", .archiveRules "acc1", .createRules "acc1", .audit .rulesUpdated,
  .findStaleRules "cus1", .flagRules "cus1", .audit .ruleFlaggedKycChange, .audit .kycTierChanged]

/-- The new rules are inserted after the stale ones have been selected. -/
def insertedAfter : List Bool :=
  [false, false, false, true, true, true, true, false, false]

end Sample

/-- The rules that are inserted for the old tier are flagged with the others. -/
theorem no_stale_rule_in_force_insertedBefore :
    let r := Sample.replaceUpgrade Sample.insertedBefore
    r.2.2.db.ruleStatus "rule2" = some .flaggedForReview ∧ NoStaleRuleInForce "cus1" r.1 r.2.2 := by
  refine ⟨by decide +kernel, ?_⟩
  have hcompleted :
      ∀ i, ((Sample.replaceUpgrade Sample.insertedBefore).2.1 i).returned = some () := by
    decide +kernel
  have hcalls : (Sample.replaceUpgrade Sample.insertedBefore).1.map Event.call =
      Sample.callsInsertedBefore := by
    decide +kernel
  refine no_stale_rule_in_force (Sample.run_replaceUpgrade _)
    (by constructor <;> decide) (by decide)
    (by unfold Db.RulesHaveAccounts; decide) (fun i => Proc.returned_eq_some.1 (hcompleted i))
    ⟨true, _, _, _, rfl⟩ ?_
  rintro r W C ⟨i, j, k, l, S, -, -, hkl, -, -, hk, hl, -, -, -, hS⟩ - hC
  -- no rules are inserted after the selection
  have hcallAt : ∀ {n : ℕ} {ev : Event Bool World Env Call},
      (Sample.replaceUpgrade Sample.insertedBefore).1[n]? = some ev →
      Sample.callsInsertedBefore[n]? = some ev.call := by
    intro n ev hev
    rw [← hcalls, List.getElem?_map, hev]
    rfl
  obtain ⟨hk, hkS⟩ := List.getElem?_eq_some_iff.1 (hcallAt hk)
  obtain ⟨hl, hlC⟩ := List.getElem?_eq_some_iff.1 (hcallAt hl)
  have hnone : ∀ k l : Fin Sample.callsInsertedBefore.length, k < l →
      Sample.callsInsertedBefore.get k = .findStaleRules "cus1" →
        (Sample.callsInsertedBefore.get l).createsRules ≠ true := by decide
  refine absurd ?_ (hnone ⟨k, hk⟩ ⟨l, hl⟩ hkl (hkS.trans hS))
  show Call.createsRules Sample.callsInsertedBefore[l] = true
  rw [hlC]
  exact hC

/-- The rules are inserted for the old tier after the stale ones have been selected, and stay in
force. -/
theorem rules_in_force_for_old_tier :
    let r := Sample.replaceUpgrade Sample.insertedAfter
    (∀ i, (r.2.1 i).returned = some ()) ∧ r.2.2.db.tierOf "cus1" = some .tier2 ∧
      (r.2.2.db.activeRules "acc1").map Rule.kycTierAtCreation = [.tier1] ∧
        ¬ NoStaleRuleInForce "cus1" r.1 r.2.2 := by
  have hrules : ((Sample.replaceUpgrade Sample.insertedAfter).2.2.db.activeRules "acc1").map
      Rule.kycTierAtCreation = [.tier1] := by decide +kernel
  have htier : (Sample.replaceUpgrade Sample.insertedAfter).2.2.db.tierOf "cus1" = some .tier2 := by
    decide +kernel
  refine ⟨by decide +kernel, htier, hrules, fun hstale => ?_⟩
  have hmem : KycTier.tier1 ∈ ((Sample.replaceUpgrade Sample.insertedAfter).2.2.db.activeRules
      "acc1").map Rule.kycTierAtCreation := by
    rw [hrules]
    exact List.mem_singleton_self _
  obtain ⟨r, hr, hrtier⟩ := List.mem_map.1 hmem
  obtain ⟨hr, hraccount, hactive⟩ := Db.mem_activeRules.1 hr
  obtain ⟨a, ha, haid, hacustomer⟩ :
    ∃ a ∈ (Sample.replaceUpgrade Sample.insertedAfter).2.2.db.accounts,
      a.id = "acc1" ∧ a.customerId = some "cus1" := by decide +kernel
  have hnever : ∀ ev ∈ (Sample.replaceUpgrade Sample.insertedAfter).1,
      ev.call.updatesRule = false := by decide +kernel
  have hcurrent := hstale a ha hacustomer r hr (hraccount.trans haid.symm) hactive
    fun ev hev hcall => by
    have hnot := hnever ev hev
    rw [hcall] at hnot
    cases hnot
  rw [htier, hrtier] at hcurrent
  cases hcurrent

end AccountOS
