import AccountOS.Rules.Correctness.Steps

/-!
# The percentages of the rules in force

The percentages that a PARALLEL account releases of an inflow are not to exceed 100. The sum is
checked when a rule set is replaced, and replacing archives the rules that are ACTIVE. Rules that a
change of tier has flagged for review are not archived with them, and nothing is checked when one of
them is enabled again.

`percentages_within_limit` is what the operations guarantee as long as no rule is enabled on top of
others that leave no room for it, and `reenabled_rule_exceeds_limit` is a run where one is.
-/

namespace AccountOS

open Conc Sql

/-! ### The operations -/

/-- A request that changes rules. -/
inductive RulesOp
  | replaceRuleSet (accountRef businessId : String) (dto : ReplaceRuleSetDto)
  | toggleRule (accountRef ruleId businessId : String) (enabled : Bool)
  | deleteRule (accountRef ruleId businessId : String)
  | updateKycTier (id : String) (dto : UpdateKycTierDto) (businessId actor : String)

namespace RulesOp

/-- Serve one request, without its answer. -/
def run (isUrl : String → Bool) : RulesOp → Action Unit
  | replaceRuleSet accountRef businessId dto =>
    (AccountOS.replaceRuleSet isUrl accountRef businessId dto).bind fun _ => .ret ()
  | toggleRule accountRef ruleId businessId enabled =>
    (AccountOS.toggleRule accountRef ruleId businessId enabled).bind fun _ => .ret ()
  | deleteRule accountRef ruleId businessId =>
    (AccountOS.deleteRule accountRef ruleId businessId).bind fun _ => .ret ()
  | updateKycTier id dto businessId actor =>
    (AccountOS.updateKycTier id dto businessId actor).bind fun _ => .ret ()

/-- Serve requests one after the other; an error ends a request only. -/
def runAll (isUrl : String → Bool) : List RulesOp → Action Unit
  | [] => .ret ()
  | op :: ops => ((op.run isUrl).catching fun _ => .ret ()).bind fun _ => runAll isUrl ops

variable {ι γ : Type} [DecidableEq ι] {P : Protocol ι World Env Call γ} {i : ι}
  {isUrl : String → Bool} (S : RulesSteps P i isUrl) {g : γ}

include S in
theorem wp_run (op : RulesOp) (hg : S.Idle g) :
    (op.run isUrl).Wp P i (fun _ g' => S.Idle g') (fun _ g' => S.Idle g') g := by
  cases op with
  | replaceRuleSet accountRef businessId dto =>
    exact Proc.Wp.bind (S.wp_replaceRuleSet hg)
  | toggleRule accountRef ruleId businessId enabled => exact Proc.Wp.bind (S.wp_toggleRule hg)
  | deleteRule accountRef ruleId businessId => exact Proc.Wp.bind (S.wp_deleteRule hg)
  | updateKycTier id dto businessId actor => exact Proc.Wp.bind (S.wp_updateKycTier hg)

include S in
/-- **Every sequence of requests.** -/
theorem wp_runAll (ops : List RulesOp) (hg : S.Idle g) :
    (runAll isUrl ops).Wp P i (fun _ g' => S.Idle g') (fun _ g' => S.Idle g') g := by
  induction ops generalizing g with
  | nil => exact hg
  | cons op ops ih =>
    refine Proc.Wp.bind (Proc.Wp.catching ((wp_run S op hg).mono (fun _ g' hg' => ih hg') ?_))
    intro e g' hg'
    exact ih hg'

end RulesOp

/-! ### The sum -/

/-- The percentage of the inflow that a rule releases. -/
def Rule.percentage (r : Rule) : ℚ := (r.payload.bind RulePayload.percentage).getD 0

namespace Db

/-- The sum of the percentages of an account's RELEASE_FUNDS rules with some statuses. -/
def percentageSum (db : Db) (accountId : String) (p : RuleStatus → Prop) [DecidablePred p] : ℚ :=
  sumWhere (fun r => r.accountId = accountId ∧ r.action = .releaseFunds ∧ p r.status)
    Rule.percentage
    db.rules

/-- The sum over the rules in force. -/
def activePercentage (db : Db) (accountId : String) : ℚ :=
  db.percentageSum accountId fun s => s = .active

/-- The percentages of an account's releases are not negative. -/
def Nonneg (db : Db) (accountId : String) : Prop :=
  ∀ r ∈ db.rules, r.accountId = accountId → r.action = .releaseFunds → 0 ≤ r.percentage

/-- The account is PARALLEL. -/
def IsParallel (db : Db) (accountId : String) : Prop :=
  ∃ a ∈ db.accounts, a.id = accountId ∧ a.executionModel = .parallel

instance (db : Db) (accountId : String) : Decidable (db.IsParallel accountId) :=
  inferInstanceAs (Decidable (∃ a ∈ db.accounts, _))

instance (db : Db) (accountId : String) : Decidable (db.Nonneg accountId) :=
  inferInstanceAs (Decidable (∀ r ∈ db.rules, _))

variable {db : Db} {accountId : String}

/-- A change of rules that puts none in force. -/
theorem activePercentage_map_le (hnonneg : db.Nonneg accountId) {f : Rule → Rule}
    (hf : ∀ r, (f r).accountId = r.accountId ∧ (f r).action = r.action ∧ (f r).payload = r.payload)
    (hstatus : ∀ r ∈ db.rules, r.accountId = accountId → (f r).status = .active →
      r.status = .active) :
    ({ db with rules := db.rules.map f } : Db).activePercentage accountId ≤
      db.activePercentage accountId := by
  refine sumWhere_map_le _ (fun r hr hactive => ?_) (fun r _ => ?_) fun r hr hactive =>
    hnonneg r hr hactive.1 hactive.2.1
  · obtain ⟨haccount, haction, -⟩ := hf r
    rw [haccount, haction] at hactive
    exact ⟨hactive.1, hactive.2.1, hstatus r hr hactive.1 hactive.2.2⟩
  · rw [Rule.percentage, (hf r).2.2, ← Rule.percentage]

theorem Nonneg.map (hnonneg : db.Nonneg accountId) {f : Rule → Rule}
    (hf : ∀ r, (f r).accountId = r.accountId ∧ (f r).action = r.action ∧
      (f r).payload = r.payload) :
    ({ db with rules := db.rules.map f } : Db).Nonneg accountId := by
  intro r hr haccount haction
  obtain ⟨x, hx, rfl⟩ := List.mem_map.1 hr
  obtain ⟨hxaccount, hxaction, hxpayload⟩ := hf x
  rw [Rule.percentage, hxpayload]
  exact hnonneg x hx (hxaccount ▸ haccount) (hxaction ▸ haction)

end Db

/-! ### Rules that are stored -/

section Stored

variable {accountId : String} {kycTier : KycTier} {rules : List RuleDefinition} {added : List Rule}

/-- The stored rules release the percentages that were counted. -/
theorem sumWhere_stored
    (h : List.Forall₂ (RuleDefinition.StoredAs accountId kycTier) rules added) :
    sumWhere (fun r => r.accountId = accountId ∧ r.action = .releaseFunds ∧ r.status = .active)
      Rule.percentage added = (rules.map RuleDefinition.countedPercentage).sum := by
  induction h with
  | nil => rfl
  | @cons d r rules added hd _ ih =>
    obtain ⟨haccount, hstatus, hpayload, haction⟩ := hd.percentage
    rw [sumWhere_cons, List.map_cons, List.sum_cons, ih, RuleDefinition.countedPercentage]
    simp only [haccount, hstatus, haction, and_true, true_and, Rule.percentage, hpayload]

/-- Of a rule set that was accepted, none is negative. -/
theorem percentage_nonneg {isUrl : String → Bool} {accountRef : String}
    (hvalid : validateRuleSet isUrl accountRef rules = true)
    (h : List.Forall₂ (RuleDefinition.StoredAs accountId kycTier) rules added) :
    ∀ r ∈ added, r.action = .releaseFunds → 0 ≤ r.percentage := by
  intro r hr haction
  obtain ⟨d, hd, hstored⟩ := exists_definition h r hr
  obtain ⟨-, -, hpayload, hrelease⟩ := hstored.percentage
  obtain ⟨p, hp, hschema⟩ :=
    exists_payload_of_releaseFunds (ruleSchema_of_mem hvalid hd) (hrelease.1 haction)
  rw [Rule.percentage, hpayload, hp]
  show 0 ≤ p.percentage.getD 0
  cases hq : p.percentage with
  | none => rfl
  | some q =>
    obtain ⟨n, rfl, hone, -⟩ := (of_releaseFundsPayloadSchema hschema).1 q hq
    show (0 : ℚ) ≤ n
    exact_mod_cast (zero_le_one.trans hone)

end Stored

/-! ### The protocol -/

/-- The percentages are within the limit, and `g` names an account that has no rule in force. -/
structure Within (accountId : String) (w : World) (g : Option String) : Prop where
  unique : w.db.UniqueColumns
  nonneg : w.db.Nonneg accountId
  bound : w.db.IsParallel accountId → w.db.activePercentage accountId ≤ 100
  cleared : ∀ x ∈ g, ∀ r ∈ w.db.rules, r.accountId = x → r.status ≠ .active

/-- A rule of the account is enabled only where it leaves the percentages of a PARALLEL account
within the limit. -/
def EnablesWithin (accountId : String) (l : Call) (env : Env) (w : World) : Prop :=
  match l with
  | .updateRule id .active => env.fault = none → w.db.IsParallel accountId →
    ∀ r ∈ w.db.rules, r.id = id → r.accountId = accountId → r.action = .releaseFunds →
      w.db.activePercentage accountId + r.percentage ≤ 100
  | _ => True

instance (accountId : String) (l : Call) (env : Env) (w : World) :
    Decidable (EnablesWithin accountId l env w) := by
  unfold EnablesWithin
  split <;> infer_instance

/-- One thread alone. -/
def withinLimit (accountId : String) : Protocol Unit World Env Call (Option String) where
  allowed l env w _ := EnablesWithin accountId l env w
  inv G _ w := Within accountId w (G ())

namespace Within

variable {accountId : String} {w : World} {g : Option String}

theorem update {G : Unit → Option String} {hist : List (Event Unit World Env Call)}
    (h : Within accountId w g) : (withinLimit accountId).inv (Function.update G () g) hist w := by
  show Within _ _ (Function.update G () g ())
  rw [Function.update_self]
  exact h

/-- A change of rules that puts none in force. -/
theorem map (h : Within accountId w g) {f : Rule → Rule} {db : Db}
    (hunique : db.UniqueColumns) (hdb : db = { w.db with rules := w.db.rules.map f })
    (hf : ∀ r, (f r).accountId = r.accountId ∧ (f r).action = r.action ∧ (f r).payload = r.payload)
    (hstatus : ∀ r ∈ w.db.rules, (f r).status = .active → r.status = .active) :
    Within accountId { w with db } g := by
  subst hdb
  refine ⟨hunique, h.nonneg.map hf, fun hparallel => ?_, ?_⟩
  · exact (Db.activePercentage_map_le h.nonneg hf fun r hr _ => hstatus r hr).trans
      (h.bound hparallel)
  · intro x hx r hr haccount hactive
    obtain ⟨y, hy, rfl⟩ := List.mem_map.1 hr
    exact h.cleared x hx y hy ((hf y).1 ▸ haccount) (hstatus y hy hactive)

/-- All rules of an account are archived. -/
theorem archive (h : Within accountId w g) {a : Account} {now : Nat} {db : Db}
    (hdb : w.db.archiveRules a.id now = .ok db) :
    Within accountId { w with db } (some a.id) := by
  have hunique : db.UniqueColumns := h.unique.apply (o := .archiveRules a.id now) hdb
  obtain rfl : _ = db := by simpa [Db.archiveRules] using hdb
  have hmap := h.map hunique rfl (fun r => by split <;> exact ⟨rfl, rfl, rfl⟩) fun r _ hactive => by
    split at hactive
    · simp at hactive
    · exact hactive
  refine ⟨hmap.unique, hmap.nonneg, hmap.bound, ?_⟩
  rintro x ⟨⟩ r hr haccount hactive
  obtain ⟨y, -, rfl⟩ := List.mem_map.1 hr
  split at hactive
  next => simp at hactive
  next hne =>
    rw [if_neg hne] at haccount
    exact hne ⟨haccount, hactive⟩

/-- The new rules of an account that has none in force. -/
theorem store {isUrl : String → Bool} {a : Account} {accountRef : String} {model : ExecutionModel}
    {kycTier : KycTier} {rules : List RuleDefinition} {env : Env} {rs : List Rule} {db : Db}
    (h : Within accountId w (some a.id)) (hvalid : validateRuleSet isUrl accountRef rules = true)
    (hsum : model = .parallel → (rules.map RuleDefinition.countedPercentage).sum ≤ 100)
    (hrun : (updateRulesTx a.id model kycTier rules env).run schema w.db = .ok (rs, db)) :
    Within accountId { w with db } none := by
  have hunique : db.UniqueColumns := h.unique.run hrun
  obtain ⟨added, hadded, hdb⟩ := updateRulesTx_run hrun
  have hdb : db = _ := hdb
  subst hdb
  have haccount : ∀ r ∈ added, r.accountId = a.id := fun r hr =>
    (exists_definition hadded r hr).elim fun d hd => hd.2.percentage.1
  refine ⟨hunique, fun r hr hr' haction => ?_, ?_, by simp⟩
  · rcases List.mem_append.1 hr with hr | hr
    · exact h.nonneg r hr hr' haction
    · exact percentage_nonneg hvalid hadded r hr haction
  · rintro ⟨x, hx, hid, hparallel⟩
    obtain ⟨y, hy, rfl⟩ := mem_updateRow.1 hx
    show sumWhere _ Rule.percentage (w.db.rules ++ added) ≤ 100
    rw [sumWhere_append]
    by_cases ha : a.id = accountId
    · -- the account itself: only the new rules are in force
      have hold : sumWhere (fun r => r.accountId = accountId ∧ r.action = .releaseFunds ∧
          r.status = .active) Rule.percentage w.db.rules = 0 :=
        sumWhere_eq_zero _ fun r hr hactive =>
          h.cleared a.id rfl r hr (hactive.1.trans ha.symm) hactive.2.2
      have hmodel : model = .parallel := by
        have hya : y.id = a.id := by
          split at hid
          next hya => exact hya
          next => exact hid.trans ha.symm
        rwa [if_pos hya] at hparallel
      rw [hold, zero_add, ← ha, sumWhere_stored hadded]
      exact hsum hmodel
    · -- another account: none of the new rules is of this one
      have hnew : sumWhere (fun r => r.accountId = accountId ∧ r.action = .releaseFunds ∧
          r.status = .active) Rule.percentage added = 0 :=
        sumWhere_eq_zero _ fun r hr hactive => ha ((haccount r hr).symm.trans hactive.1)
      have hya : y.id ≠ a.id := by
        intro hya
        rw [if_pos hya] at hid
        exact ha (hya.symm.trans hid)
      rw [if_neg hya] at hid hparallel
      rw [hnew, add_zero]
      exact h.bound ⟨y, hy, hid, hparallel⟩

/-- A rule is enabled where there is room for it. -/
theorem enable (h : Within accountId w g) {id : String} {db : Db} {env : Env}
    (hallowed : EnablesWithin accountId (.updateRule id .active) env w) (hfault : env.fault = none)
    (hdb : w.db.updateRule id { status := .active } = .ok db) :
    Within accountId { w with db } none := by
  have hunique : db.UniqueColumns := h.unique.apply (o := .updateRule id _) hdb
  obtain ⟨⟨r, hr, hid⟩, rfl⟩ := Db.updateRule_eq_ok.1 hdb
  have hset : ∀ x : Rule,
      (if x.id = id then RuleData.set { status := .active } x else x).accountId =
        x.accountId ∧
      (if x.id = id then RuleData.set { status := .active } x else x).action = x.action ∧
      (if x.id = id then RuleData.set { status := .active } x else x).payload = x.payload := by
    intro x
    split <;> exact ⟨rfl, rfl, rfl⟩
  refine ⟨hunique, h.nonneg.map hset, fun hparallel => ?_, by simp⟩
  show sumWhere (fun r => r.accountId = accountId ∧ r.action = .releaseFunds ∧ r.status = .active)
    Rule.percentage (updateRow Rule.id id _ w.db.rules) ≤ 100
  have hsum := sumWhere_updateRow (f := RuleData.set { status := .active }) (g := Rule.percentage)
    (p := fun r => r.accountId = accountId ∧ r.action = .releaseFunds ∧ r.status = .active)
    h.unique.rules hr hid
  rw [hsum]
  show w.db.activePercentage accountId -
      (if r.accountId = accountId ∧ r.action = .releaseFunds ∧ r.status = .active then
        r.percentage else 0) +
    (if r.accountId = accountId ∧ r.action = .releaseFunds ∧ RuleStatus.active = .active then
        r.percentage else 0) ≤ 100
  have hbound := h.bound hparallel
  by_cases hrelease : r.accountId = accountId ∧ r.action = .releaseFunds
  · have hroom := hallowed hfault hparallel r hr hid hrelease.1 hrelease.2
    have hnonneg := h.nonneg r hr hrelease.1 hrelease.2
    simp only [hrelease.1, hrelease.2, true_and, if_true]
    split <;> linarith
  · have hother : ∀ q : Prop, ¬ (r.accountId = accountId ∧ r.action = .releaseFunds ∧ q) :=
      fun q hq => hrelease ⟨hq.1, hq.2.1⟩
    rw [if_neg (hother _), if_neg (hother _)]
    linarith

end Within

theorem withinLimit_quiet (accountId : String) : Quiet (withinLimit accountId) := by
  intro G hist w w' i l env hinv _ hsame
  have hdb := hsame.db
  obtain ⟨hunique, hnonneg, hbound, hcleared⟩ := hinv
  exact ⟨hdb ▸ hunique, hdb ▸ hnonneg, hdb ▸ hbound, hdb ▸ hcleared⟩

/-- Replacing a rule set keeps the percentages within the limit. -/
def withinReplace (accountId : String) (isUrl : String → Bool) (accountRef businessId : String) :
    ReplaceSteps (withinLimit accountId) () isUrl accountRef businessId where
  Idle _ := True
  Cleared a g := g = some a.id
  Stored _ _ _ _ := True
  Located _ := True
  quiet := withinLimit_quiet accountId
  locate := by
    intros
    trivial
  archive := by
    rintro a now l G hist w env db w' - - - hinv - hdb rfl
    exact ⟨_, (Within.archive hinv hdb).update, rfl⟩
  store := by
    rintro a model kycTier rules l G hist w env rs db w' - - hvalid hsum hG hinv - hrun rfl
    have hinv : Within accountId w (some a.id) := hG ▸ hinv
    exact ⟨none, (hinv.store hvalid hsum hrun).update, trivial⟩

/-- So do the other operations. -/
def withinSteps (accountId : String) (isUrl : String → Bool) :
    RulesSteps (withinLimit accountId) () isUrl where
  Idle _ := True
  quiet := withinLimit_quiet accountId
  replace := withinReplace accountId isUrl
  start _ := trivial
  givenUp _ := trivial
  stored _ := trivial
  disable := by
    rintro id data l G hist w env db w' - hdata - hinv - hdb rfl
    have hunique : db.UniqueColumns := hinv.unique.apply (o := .updateRule id data) hdb
    obtain ⟨-, rfl⟩ := Db.updateRule_eq_ok.1 hdb
    refine ⟨_, (Within.map hinv hunique rfl (fun r => ?_) fun r _ hactive => ?_).update, trivial⟩
    · split <;> exact ⟨rfl, rfl, rfl⟩
    · split at hactive
      · simp [RuleData.set, hdata] at hactive
      · exact hactive
  enable := by
    rintro id l G hist w env db w' rfl hfault - hinv hallowed hdb rfl
    exact ⟨_, (Within.enable hinv hallowed hfault hdb).update, trivial⟩
  tier := by
    rintro id kycTier l G hist w env db w' - - hinv - hdb rfl
    have hunique : db.UniqueColumns := hinv.unique.apply (o := .updateCustomerTier id kycTier) hdb
    obtain ⟨-, rfl⟩ := Db.updateCustomerTier_eq_ok.1 hdb
    exact ⟨_, Within.update ⟨hunique, hinv.nonneg, hinv.bound, hinv.cleared⟩, trivial⟩
  flag := by
    rintro id ids l G hist w env db w' - - hinv - hdb rfl
    have hunique : db.UniqueColumns := hinv.unique.apply (o := .flagRules ids) hdb
    obtain rfl : _ = db := by simpa [Db.flagRules] using hdb
    refine ⟨_, (Within.map hinv hunique rfl (fun r => ?_) fun r _ hactive => ?_).update, trivial⟩
    · split <;> exact ⟨rfl, rfl, rfl⟩
    · split at hactive
      · simp at hactive
      · exact hactive

/-- **The percentages of a PARALLEL account stay within the limit**, whatever requests are served
one after the other, as long as no rule is enabled on top of others that leave no room for it. -/
theorem percentages_within_limit {isUrl : String → Bool} {ops : List RulesOp} {accountId : String}
    {w₀ w : World} {hist : List (Event Unit World Env Call)} {ps : Unit → Action Unit}
    (unique : w₀.db.UniqueColumns) (nonneg : w₀.db.Nonneg accountId)
    (start : w₀.db.percentageSum accountId (fun s => s ≠ .archived) ≤ 100)
    (run : Run (fun l env w _ => EnablesWithin accountId l env w)
      (fun _ : Unit => RulesOp.runAll isUrl ops) w₀ hist ps w) :
    w.db.IsParallel accountId → w.db.activePercentage accountId ≤ 100 := by
  have hactive : w₀.db.activePercentage accountId ≤ 100 := by
    refine le_trans (sumWhere_le_sumWhere _ (fun r _ hr => ?_) fun r hr hstatus => ?_) start
    · exact ⟨hr.1, hr.2.1, by simp [hr.2.2]⟩
    · exact nonneg r hr hstatus.1 hstatus.2.1
  have hstart : Within accountId w₀ none := ⟨unique, nonneg, fun _ => hactive, by simp⟩
  obtain ⟨G, hinv⟩ := (withinLimit accountId).inv_of_run (fun _ => none) hstart
    (fun _ => (RulesOp.wp_runAll (withinSteps accountId isUrl) ops trivial).mono
      (fun _ _ _ => trivial) fun _ _ _ => trivial) run
  exact Within.bound hinv

namespace Sample

/-- A rule set with a single release. -/
def releaseSet (percentage : ℚ) : ReplaceRuleSetDto where
  rules := [{
    trigger := "inflow_received"
    condition := { amountGte := some 1 }
    action := "release_funds"
    payload := some { destinationAccountRef := some "ops", percentage := some percentage } }]

/-- A PARALLEL account of a customer, with a release of 60 %. -/
def tieredShop : World where
  db := {
    businesses := [{ id := "biz" }]
    customers := [{ id := "cus1", displayName := "Ada", kycTier := .tier1, businessId := "biz" }]
    accounts := [{ account with customerId := some "cus1" }]
    rules := [release "rule1" { destinationAccountRef := some "ops", percentage := some 60 }] }

/-- The customer's tier changes, the rule set is replaced, and the old rule is enabled again. -/
def reenable (percentage : ℚ) : List RulesOp :=
  [.updateKycTier "cus1" { kycTier := .tier2 } "biz" "admin",
    .replaceRuleSet "shop" "biz" (releaseSet percentage),
    .toggleRule "shop" "rule1" "biz" true]

/-- Nothing fails. -/
def reenableRun (percentage : ℚ) :
    List (Event Unit World Env Call) × (Unit → Action Unit) × World :=
  exec (fun _ => RulesOp.runAll (fun _ => true) (reenable percentage)) tieredShop
    (List.replicate 13 ((), { rows := fun _ => ⟨1, "rule2"⟩ }))

end Sample

/-- A new rule that leaves room for the old one. -/
theorem percentages_within_limit_room :
    (Sample.reenableRun 40).2.2.db.activePercentage "acc1" = 100 ∧
      (Sample.reenableRun 40).2.2.db.activePercentage "acc1" ≤ 100 := by
  have hunique : Sample.tieredShop.db.UniqueColumns := by constructor <;> decide
  have hnonneg : Sample.tieredShop.db.Nonneg "acc1" := by decide +kernel
  have hstart : Sample.tieredShop.db.percentageSum "acc1" (fun s => s ≠ .archived) ≤ 100 := by
    decide +kernel
  have hallowed : ∀ ev ∈ (Sample.reenableRun 40).1,
      EnablesWithin "acc1" ev.call ev.choice ev.before := by
    decide +kernel
  have hparallel : (Sample.reenableRun 40).2.2.db.IsParallel "acc1" := by decide +kernel
  exact ⟨by decide +kernel,
    percentages_within_limit hunique hnonneg hstart (Run.of_exec _ _ _ hallowed) hparallel⟩

/-- The old rule comes back on top of the new one: 120 % of every inflow are released. -/
theorem reenabled_rule_exceeds_limit :
    Sample.tieredShop.db.UniqueColumns ∧ Sample.tieredShop.db.Nonneg "acc1" ∧
    Sample.tieredShop.db.percentageSum "acc1" (fun s => s ≠ .archived) = 60 ∧
    (Sample.reenableRun 60).2.2.db.IsParallel "acc1" ∧
    (Sample.reenableRun 60).2.2.db.activePercentage "acc1" = 120 := by
  have hunique : Sample.tieredShop.db.UniqueColumns := by constructor <;> decide
  refine ⟨hunique, ?_, ?_, ?_, ?_⟩ <;> decide +kernel

end AccountOS
