import AccountOS.Rules.Correctness.Calls

/-!
# Archived rules stay archived

A rule is enabled after it was found FLAGGED_FOR_REVIEW, and flagged after it was found ACTIVE. Both
are written by its id alone, so that they overwrite what another operation has written in between,
also when that was ARCHIVED.
-/

namespace AccountOS

open Conc Sql

variable {ι : Type}

/-! ### What the calls do to an archived rule -/

/-- The calls by which the operations read the status of a rule. -/
def Call.readsRules : Call → Bool
  | findRule _ | findStaleRules _ => true
  | _ => false

/-- A call after which the rule has the status that the call gives to the rules it writes. -/
def SetsRuleStatus (ev : Event ι World Env Call) (id : String) (status : RuleStatus) : Prop :=
  (ev.call = .updateRule id status ∨ ∃ customerId, ev.call = .flagRules customerId) ∧
    ev.after.db.ruleStatus id = some status

section Statements

variable {db db' : Db} {id : String}

/-- The rules of an account that are archived. -/
theorem Db.ruleStatus_archiveRules {accountId : String} {now : Nat}
    (hop : db.archiveRules accountId now = .ok db') (h : db.ruleStatus id = some .archived) :
    db'.ruleStatus id = some .archived := by
  cases hop
  obtain ⟨r, -, -, harchived, hafter⟩ := exists_columnOf_map
    (f := fun r : Rule => if r.accountId = accountId ∧ r.status = .active then
        { r with
          status := .archived
          archivedReason := some .supersededByUpdate
          archivedAt := some now }
      else r) (fun r => by split <;> rfl) h
  show columnOf Rule.id Rule.status id (db.rules.map _) = _
  rw [hafter]
  split
  next => rfl
  next => rw [harchived]

/-- An update of a rule by its id. -/
theorem Db.ruleStatus_updateRule {ruleId : String} {data : RuleData}
    (hop : db.updateRule ruleId data = .ok db') (h : db.ruleStatus id = some .archived) :
    db'.ruleStatus id = some (if id = ruleId then data.status else .archived) := by
  obtain ⟨-, rfl⟩ := Db.updateRule_eq_ok.1 hop
  obtain ⟨r, -, hid, harchived, hafter⟩ := exists_columnOf_map
    (f := fun r : Rule => if r.id = ruleId then data.set r else r) (fun r => by split <;> rfl) h
  show columnOf Rule.id Rule.status id (updateRow Rule.id ruleId data.set db.rules) = _
  unfold updateRow
  rw [hafter, hid]
  split
  next => rfl
  next => rw [harchived]

/-- Rules that are flagged. -/
theorem Db.ruleStatus_flagRules {ids : List String} (hop : db.flagRules ids = .ok db')
    (h : db.ruleStatus id = some .archived) :
    db'.ruleStatus id = some (if id ∈ ids then .flaggedForReview else .archived) := by
  cases hop
  obtain ⟨r, -, hid, harchived, hafter⟩ := exists_columnOf_map
    (f := fun r : Rule => if r.id ∈ ids then { r with status := .flaggedForReview } else r)
    (fun r => by split <;> rfl) h
  show columnOf Rule.id Rule.status id (db.rules.map _) = _
  rw [hafter, hid]
  split
  next => rfl
  next => rw [harchived]

end Statements

/-- **What brings a rule back**: a thread that has not changed any rule before, and has found it in
another status. -/
theorem RulesCall.revives {tiers : String → KycTier → Prop} {past : Calls ι}
    {ev : Event ι World Env Call} (h : RulesCall tiers past ev) {id : String}
    (hbefore : ev.before.db.ruleStatus id = some .archived)
    (hafter : ev.after.db.ruleStatus id ≠ some .archived) :
    (∃ status, status ≠ .archived ∧ SetsRuleStatus ev id status) ∧ LeftRules past ∧
      ∃ r ∈ past, r.call.readsRules = true ∧
        ∃ rule ∈ r.before.db.rules, rule.id = id ∧ rule.status ≠ .archived := by
  -- the rows that are there keep their status when rows are added
  have hadded : ∀ added, ev.after.db.rules = ev.before.db.rules ++ added → False := by
    intro added hrules
    refine hafter ?_
    show columnOf Rule.id Rule.status id ev.after.db.rules = _
    rw [hrules]
    exact columnOf_append_of_some hbefore
  cases h with
  | read hdb =>
    rw [hdb] at hafter
    exact absurd hbefore hafter
  | archive accountId now hcall hop =>
    exact absurd (Db.ruleStatus_archiveRules hop hbefore) hafter
  | store a model rules added q r hcall hq ha hexists hr hread hstored hdb =>
    exact (hadded added (by rw [hdb])).elim
  | provision a customer rules added r hcall hcustomer hnew hr hread hfound hstored hdb =>
    exact (hadded added (by rw [hdb])).elim
  | disable ruleId data hcall hstatus hop =>
    have hset := Db.ruleStatus_updateRule hop hbefore
    rw [hstatus, ite_self] at hset
    exact absurd hset hafter
  | enable r rule hcall hleft hr hread hrule hflagged hop =>
    have hset := Db.ruleStatus_updateRule hop hbefore
    by_cases hid : id = rule.id
    · subst hid
      rw [if_pos rfl] at hset
      refine ⟨⟨.active, by decide, .inl hcall, hset⟩, hleft, r, hr, by rw [hread]; rfl, rule, hrule,
        rfl, ?_⟩
      rw [hflagged]
      decide
    · rw [if_neg hid] at hset
      exact absurd hset hafter
  | tier customerId kycTier htier hcall hop =>
    have hrules := (WriteOp.sameExcept (o := .updateCustomerTier customerId kycTier) hop).rules
      (by simp [WriteOp.table])
    exact (hadded [] (by rw [hrules, List.append_nil])).elim
  | flag customerId businessId kycTier s hcall hleft hs hread hop =>
    have hset := Db.ruleStatus_flagRules hop hbefore
    by_cases hid : id ∈ (s.before.db.staleRules customerId businessId kycTier).map Rule.id
    · rw [if_pos hid] at hset
      obtain ⟨rule, hrule, rfl⟩ := List.mem_map.1 hid
      have hstale := List.mem_filter.1 hrule
      have hactive : rule.status = .active := (of_decide_eq_true hstale.2).1
      refine ⟨⟨.flaggedForReview, by decide, .inr ⟨customerId, hcall⟩, hset⟩, hleft, s, hs,
        by rw [hread]; rfl, rule, hstale.1, rfl, ?_⟩
      rw [hactive]
      decide
    · rw [if_neg hid] at hset
      exact absurd hset hafter

/-! ### Runs -/

section Runs

/-- Once a rule is ARCHIVED, it stays ARCHIVED and is not among the rules that an event can fire. -/
def ArchivedForGood (hist : List (Event ι World Env Call)) (w : World) : Prop :=
  ∀ m n : ℕ, m ≤ n → ∀ id, (stateAt hist w m).db.ruleStatus id = some .archived →
    (stateAt hist w n).db.ruleStatus id = some .archived ∧
      ∀ rank accountId, ∀ q ∈ (stateAt hist w n).db.findRules rank accountId, q.1.id ≠ id

/-- Between the call by which an operation finds a rule and the one by which it enables or flags the
rule, no other operation archives it. -/
def NoArchivingBetween (hist : List (Event ι World Env Call)) : Prop :=
  ∀ r x ev, Intervenes hist r x ev → r.call.readsRules = true →
    ∀ id status, x.before.db.ruleStatus id ≠ some .archived →
      x.after.db.ruleStatus id = some .archived → SetsRuleStatus ev id status → status = .archived

variable [DecidableEq ι] {isUrl : String → Bool} {ops : ι → RulesOp} {w₀ w : World}
  {hist : List (Event ι World Env Call)} {ps : ι → Action Unit}
  (run : Run (fun _ _ _ _ => True) (fun i => (ops i).run isUrl) w₀ hist ps w)
include run

/-- **ARCHIVED is for good exactly where no rule is enabled or flagged that was archived since it
was found.** The operations are any replacements of rule sets, enablings, disablings, deletions and
changes of tier, in any order of their calls. -/
theorem archived_for_good_iff (hunique : w₀.db.UniqueColumns) :
    ArchivedForGood hist w ↔ NoArchivingBetween hist := by
  have htraced := fun i : ι => @RulesOp.traced_run ι i isUrl (ops i)
  have hunique := unique_of_run run htraced hunique
  constructor
  · intro hgood r x ev ⟨m, k, n, _, hkn, _, hk, hn, _⟩ _ id status _ harchived hset
    have hafter : (stateAt hist w (k + 1)).db.ruleStatus id = some .archived := by
      rw [run.stateAt_succ hk]
      exact harchived
    have hstays := (hgood (k + 1) (n + 1) (by omega) id hafter).1
    rw [run.stateAt_succ hn, hset.2] at hstays
    exact Option.some.inj hstays
  · intro hbetween m n hmn id hm
    have hstays : (stateAt hist w n).db.ruleStatus id = some .archived := by
      by_contra hn
      obtain ⟨k, ev, -, -, hev, hbefore, hafter⟩ :=
        run.exists_change (P := fun w => w.db.ruleStatus id = some .archived) hmn hm hn
      -- the call that brings the rule back has found it in force or flagged
      obtain ⟨⟨status, hstatus, hset⟩, hleft, r, hr, hreads, rule, hrule, rfl, hopen⟩ :=
        (rulesEvent_of_run run htraced hev).does.revives hbefore hafter
      have hread : r.before.db.ruleStatus rule.id ≠ some .archived := by
        obtain ⟨-, j, -, hj⟩ := mem_callsOf_take.1 hr
        have huniqueRead := hunique j
        rw [stateAt_eq_before hj] at huniqueRead
        have hfound : r.before.db.ruleStatus rule.id = some rule.status :=
          columnOf_of_mem huniqueRead.rules hrule
        rw [hfound]
        exact fun h => hopen (Option.some.inj h)
      have hown : ∀ x ∈ callsOf ev.who (hist.take k),
          x.before.db.ruleStatus rule.id ≠ some .archived →
            x.after.db.ruleStatus rule.id ≠ some .archived := by
        intro x hx hx'
        unfold Db.ruleStatus at hx' ⊢
        rw [hleft x hx]
        exact hx'
      obtain ⟨x, hbetweenCalls, hxbefore, hxafter⟩ :=
        run.exists_intervening (P := fun w => w.db.ruleStatus rule.id ≠ some .archived) hev hr hown
          hread (not_not.2 hbefore)
      exact hstatus (hbetween r x ev hbetweenCalls hreads rule.id status hxbefore
        (not_not.1 hxafter)
        hset)
    refine ⟨hstays, fun rank accountId q hq hid => ?_⟩
    obtain ⟨hmem, ⟨-, hactive⟩, -⟩ := Db.mem_findRules hq
    have hfound : (stateAt hist w n).db.ruleStatus q.1.id = some q.1.status :=
      columnOf_of_mem (hunique n).rules hmem
    rw [hid, hstays, hactive] at hfound
    cases hfound

end Runs

/-! ### Enabling a rule that is being deleted -/

namespace Sample

/-- A rule that a change of tier has flagged. -/
def flaggedShop : World :=
  shop [] [{ release "rule1" { destinationAccountRef := some "ops", percentage := some 50 } with
    status := .flaggedForReview }]

/-- One operator enables the rule, another one deletes it. -/
def enableAndDelete : Bool → RulesOp
  | false => .toggleRule "shop" "rule1" "biz" true
  | true => .deleteRule "shop" "rule1" "biz"

/-- The calls of the two, in the order of `turns`. -/
def enableDelete (turns : List Bool) :
    List (Event Bool World Env Call) × (Bool → Action Unit) × World :=
  exec (fun i => (enableAndDelete i).run fun _ => true) flaggedShop (turns.map fun i => (i, {}))

theorem run_enableDelete (turns : List Bool) :
    Run (fun _ _ _ _ => True) (fun i => (enableAndDelete i).run fun _ => true) flaggedShop
      (enableDelete turns).1 (enableDelete turns).2.1 (enableDelete turns).2.2 :=
  Run.of_exec _ _ _ fun _ _ => trivial

end Sample

/-- One after the other: the rule is enabled and then archived for good. -/
theorem archived_for_good_inTurn :
    let r := Sample.enableDelete [false, false, true, true, true]
    r.2.2.db.ruleStatus "rule1" = some .archived ∧ ArchivedForGood r.1 r.2.2 := by
  refine ⟨by decide +kernel, ?_⟩
  rw [archived_for_good_iff (Sample.run_enableDelete _) ⟨by decide, by decide, by decide,
    by decide, by decide, by decide, by decide, by decide, by decide, by decide⟩]
  intro r x ev hbetween
  exact absurd hbetween.overlapping (by decide +kernel)

/-- The rule is deleted between the two calls of the operator who enables it, and fires again. -/
theorem deleted_rule_fires_again :
    let r := Sample.enableDelete [false, true, true, true, false]
    (stateAt r.1 r.2.2 4).db.ruleStatus "rule1" = some .archived ∧
      (r.2.2.db.findRules (fun _ => 0) "acc1").map (fun q => q.1.id) = ["rule1"] ∧
        ¬ ArchivedForGood r.1 r.2.2 := by
  have harchived : let r := Sample.enableDelete [false, true, true, true, false]
      (stateAt r.1 r.2.2 4).db.ruleStatus "rule1" = some .archived := by decide +kernel
  have hactive : let r := Sample.enableDelete [false, true, true, true, false]
      (stateAt r.1 r.2.2 5).db.ruleStatus "rule1" = some .active := by decide +kernel
  refine ⟨harchived, by decide +kernel, fun hgood => ?_⟩
  have hstays := (hgood 4 5 (by decide) "rule1" harchived).1
  rw [hactive] at hstays
  cases hstays

end AccountOS
