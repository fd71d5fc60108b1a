import AccountOS.Accounts.Correctness.WritePaths
import AccountOS.Queue.Correctness.Footprint
import AccountOS.Store.Trace

/-!
# What the schema promises to the engine

A rule that the schema accepts is executed later, from the row that was stored. The payload of a
notification has a URL and the payload of a release has a destination, so the engine finds what it
needs, except for one thing: the schema accepts a release of neither a percentage nor an amount, and
the engine marks its execution FAILED.
-/

namespace AccountOS

open Conc Sql

/-! ### Rule sets that were stored -/

/-- The rule set was stored with success, by either path. -/
inductive Stores (isUrl : String → Bool) (rules : List RuleDefinition) : World → World → Prop
  | provision {dto : ProvisionAccountDto} {businessId : String} {result : ProvisionedAccount}
      {w w' : World} (same : dto.rules = rules)
      (run : (provisionAccount isUrl dto businessId).Finishes (fun _ _ _ _ => True) w
        (.ok result) w') : Stores isUrl rules w w'
  | replace {accountRef businessId : String} {dto : ReplaceRuleSetDto} {result : RuleSetResult}
      {w w' : World} (same : dto.rules = rules)
      (run : (replaceRuleSet isUrl accountRef businessId dto).Finishes (fun _ _ _ _ => True) w
        (.ok result) w') : Stores isUrl rules w w'

theorem Stores.storesRules {isUrl : String → Bool} {rules : List RuleDefinition} {w w' : World}
    (h : Stores isUrl rules w w') : StoresRules rules w w' := by
  cases h with
  | provision same run =>
    rw [← same]
    exact (ensures_provisionAccount.sound run).1 _ rfl
  | replace same run =>
    rw [← same]
    exact (ensures_replaceRuleSet.sound run).1 _ rfl

/-! ### What is known of a stored payload -/

/-- A rule without the amount that a release needs. -/
def Rule.lacksAmount (r : Rule) : Bool :=
  r.action = .releaseFunds ∧
    (r.payload.getD {}).percentage = none ∧ (r.payload.getD {}).amountKobo = none

/-- The payload of a rule that the schema has accepted, by its action. -/
structure Rule.PayloadAccepted (isUrl : String → Bool) (r : Rule) : Prop where
  url : r.action = .notifyWebhook → ∃ p u, r.payload = some p ∧ p.url = some u ∧ isUrl u = true
  destination : r.action = .releaseFunds → ∃ p ref, r.payload = some p ∧
    p.destinationAccountRef = some ref ∧ ref ≠ "" ∧ releaseFundsPayloadSchema p = true

/-- **The schema's verdict on the payload carries over to the stored row.** -/
theorem payloadAccepted_of_storedAs {isUrl : String → Bool} {accountId : String} {kycTier : KycTier}
    {d : RuleDefinition} {r : Rule} (h : ruleSchema isUrl d = true)
    (stored : d.StoredAs accountId kycTier r) : r.PayloadAccepted isUrl := by
  obtain ⟨trigger, action, row, -, haction, rfl⟩ := stored
  have hpayload : actionPayloadSchema isUrl d = true := by
    rw [ruleSchema, Bool.and_eq_true] at h
    exact h.2
  rw [actionPayloadSchema, haction] at hpayload
  constructor
  · intro hnotify
    have hnotify : action = .notifyWebhook := hnotify
    subst hnotify
    obtain ⟨p, hp, hurl⟩ := (Option.any_eq_true _ _).1 hpayload
    obtain ⟨u, hu, hisUrl⟩ := (Option.any_eq_true _ _).1 hurl
    exact ⟨p, u, hp, hu, hisUrl⟩
  · intro hrelease
    have hrelease : action = .releaseFunds := hrelease
    subst hrelease
    obtain ⟨p, hp, hschema⟩ := (Option.any_eq_true _ _).1 hpayload
    have hdestination := hschema
    simp only [releaseFundsPayloadSchema, Bool.and_eq_true] at hdestination
    obtain ⟨ref, href, hne⟩ := (Option.any_eq_true _ _).1 hdestination.1.1.1
    exact ⟨p, ref, hp, href, of_decide_eq_true hne, hschema⟩

/-- A release that has a percentage or an amount is of a defined amount. -/
theorem releaseAmount_defined {p : RulePayload} (h : releaseFundsPayloadSchema p = true)
    (hamount : ¬ (p.percentage = none ∧ p.amountKobo = none)) (inflow : Int) :
    ∃ n : Int, releaseAmount p inflow = some (.ok n) := by
  obtain ⟨-, hinteger, -⟩ := of_releaseFundsPayloadSchema h
  unfold releaseAmount
  cases hpercentage : p.percentage with
  | some q => exact ⟨_, rfl⟩
  | none =>
    cases hkobo : p.amountKobo with
    | none => exact absurd ⟨hpercentage, hkobo⟩ hamount
    | some q =>
      obtain ⟨n, rfl, -⟩ := hinteger q hkobo
      exact ⟨n, congrArg some (bigInt_eq_ok.2 rfl)⟩

/-! ### The outcome of an execution -/

/-- The bucket that a rule releases to. -/
def EvaluatedRule.destination (rule : EvaluatedRule) : String :=
  (rule.payload.getD {}).destinationAccountRef.getD ""

/-- Among the calls is one that looked for the destination bucket of a release and found no ACTIVE
one. -/
def FoundNoBucket {ι : Type} (rule : EvaluatedRule) (past : Calls ι) : Prop :=
  rule.action = .releaseFunds ∧ ∃ ev ∈ past,
    ev.call = .findBucket rule.account.businessId rule.destination ∧
    ∀ b, ev.before.db.findBucket rule.account.businessId rule.destination = some b →
      b.status ≠ .active

/-- The content of a rule is no reason for its execution to fail: an execution that ends FAILED,
among any other threads, has found no ACTIVE bucket to release to, and where there is one there is
an amount to release. -/
structure ExecutesSoundly (rule : EvaluatedRule) (entry : TriggerEntry) : Prop where
  outcome : ∀ {ι : Type} [DecidableEq ι] {allowed : Call → Env → World → World → Prop}
    {start ps : ι → Action ExecutionResult} {w₀ w : World} {hist : Calls ι} {i : ι}
    {result : ExecutionResult}, Run allowed start w₀ hist ps w → start i = execute rule entry →
    ps i = .ret result → result.status = .failed → FoundNoBucket rule (callsOf i hist)
  amount : ∀ {db : Db} {b : TreasuryBucket}, rule.action = .releaseFunds →
    db.findBucket rule.account.businessId rule.destination = some b → b.status = .active →
    ∃ n : Int, releaseAmount (rule.payload.getD {}) entry.amountKobo = some (.ok n)

/-! ### Every action -/

section Traced

variable {ι : Type} {i : ι} {x : String} {account : RuleAccount} {rule : EvaluatedRule}
  {past : Calls ι}

/-- What is asked of a result. -/
def FailsSoundly (rule : EvaluatedRule) (result : ExecutionResult) (past : Calls ι) : Prop :=
  result.status = .failed → FoundNoBucket rule past

/-- A method that returns such results, from here. -/
abbrev Sound (i : ι) (rule : EvaluatedRule) (p : Action ExecutionResult) (past : Calls ι) : Prop :=
  p.Traced i (fun _ _ => True) (FailsSoundly rule) (fun _ _ => True) past

theorem FoundNoBucket.append (h : FoundNoBucket rule past) (later : Calls ι) :
    FoundNoBucket rule (past ++ later) := by
  obtain ⟨haction, ev, hev, hfound⟩ := h
  exact ⟨haction, ev, List.mem_append_left _ hev, hfound⟩

theorem traced_updateRuleExecution {Q : Unit → Calls ι → Prop} {data : Nat → RuleExecutionData}
    (hQ : ∀ ev, Q () (past ++ [ev])) :
    (updateRuleExecution x data).Traced i (fun _ _ => True) Q (fun _ _ => True) past :=
  traced_statement (fun _ _ _ _ _ _ => ⟨trivial, hQ _⟩) fun _ _ _ _ _ => ⟨trivial, trivial⟩

/-- An execution that is marked COMPLETED or RETRYING is not FAILED. -/
theorem sound_markCompleted {response : Option (List (String × Json))} :
    Sound i rule (markCompleted x response) past :=
  Proc.Traced.bind (traced_updateRuleExecution fun _ => nofun)

theorem sound_markRetrying {message : String} : Sound i rule (markRetrying x message) past :=
  Proc.Traced.bind (traced_updateRuleExecution fun _ => nofun)

theorem sound_markExecutionFailed {message : String} (h : FoundNoBucket rule past) :
    Sound i rule (markExecutionFailed x message) past :=
  Proc.Traced.bind (traced_updateRuleExecution fun _ _ => h.append _)

/-- A method that comes after calls which do not matter. -/
theorem Sound.after {α : Type} {p : Action α} {f : α → Action ExecutionResult}
    (h : ∀ a past', Sound i rule (f a) past') : Sound i rule (p.bind f) past :=
  Proc.Traced.bind ((Proc.traced_trivial p).mono (fun a past' _ => h a past') fun _ _ h => h)

theorem sound_handleStatusChange {target : AccountStatus} {allowedFrom : List AccountStatus}
    {auditAction : AuditAction} :
    Sound i rule (handleStatusChange x account target allowedFrom auditAction) past := by
  refine .after fun current past' => ?_
  cases current with
  | none => exact sound_markCompleted
  | some status =>
    dsimp only
    split
    · exact .after fun _ _ => .after fun _ _ => sound_markCompleted
    · exact sound_markCompleted

theorem sound_handleFlagForReview {ledgerEntryId : Option String} :
    Sound i rule (handleFlagForReview x account ledgerEntryId) past :=
  .after fun _ _ => .after fun _ _ => sound_markCompleted

/-- A result that is handed over after an audit entry. -/
theorem FailsSoundly.audit {result : ExecutionResult} {entry : AuditLogEntry}
    (h : FailsSoundly rule result past) :
    Sound i rule ((AccountOS.audit entry).bind fun _ => .ret result) past :=
  Proc.Traced.bind (Proc.Traced.call fun _ _ =>
    ⟨trivial, fun _ _ hfailed => (h hfailed).append _, fun e he => by simp at he⟩)

/-- The URL of a stored rule is not empty. -/
theorem sound_handleNotifyWebhook {payload : Option RulePayload}
    (h : ((payload.getD {}).url).getD "" ≠ "") :
    Sound i rule (handleNotifyWebhook x payload account) past := by
  unfold handleNotifyWebhook
  dsimp only
  rw [if_neg h]
  refine .after fun result past' => ?_
  cases result with
  | ok status =>
    exact Proc.Traced.bind (sound_markCompleted.mono (fun _ _ h => h.audit) fun _ _ h => h)
  | error e => exact sound_markRetrying

theorem sound_allocate {ref bucketId : String} {entry : TriggerEntry} {amount : Int} :
    Sound i rule (allocate x ref bucketId account entry amount) past :=
  .after fun _ _ =>
    Proc.Traced.bind (sound_markCompleted.mono (fun _ _ h => h.audit) fun _ _ h => h)

/-- **A release** that has a destination and an amount. -/
theorem sound_handleReleaseFunds {entry : TriggerEntry} (haction : rule.action = .releaseFunds)
    (hdestination : rule.destination ≠ "")
    (hamount : releaseAmount (rule.payload.getD {}) entry.amountKobo ≠ none) :
    Sound i rule (handleReleaseFunds x rule.payload rule.account entry) past := by
  unfold handleReleaseFunds
  dsimp only
  rw [if_neg (show ¬ (rule.payload.getD {}).destinationAccountRef.getD "" = "" from hdestination)]
  refine Proc.Traced.bind
    (traced_find (fun env w => ⟨trivial, ?_⟩) fun _ _ _ _ _ => ⟨trivial, trivial⟩)
  -- the call that has looked for the bucket
  have hlooked : (∀ b, w.db.findBucket rule.account.businessId rule.destination = some b →
      b.status ≠ .active) → FoundNoBucket rule (past ++ [⟨i,
        .findBucket rule.account.businessId rule.destination, env, w, w⟩]) :=
    fun h => ⟨haction, _, List.mem_append_right _ (List.mem_singleton_self _), rfl, h⟩
  have hdestinationRef : (rule.payload.getD {}).destinationAccountRef.getD "" = rule.destination :=
    rfl
  rw [hdestinationRef]
  cases hbucket : w.db.findBucket rule.account.businessId rule.destination with
  | none => exact sound_markExecutionFailed (hlooked fun b hb => by simp [hbucket] at hb)
  | some bucket =>
    dsimp only
    split
    next hinactive =>
      refine sound_markExecutionFailed (hlooked fun b hb => ?_)
      rw [hbucket] at hb
      cases hb
      exact hinactive
    next =>
      split
      next hnone => exact absurd hnone hamount
      next => trivial
      next =>
        split
        next => exact sound_markCompleted
        next => exact Proc.Traced.catching (sound_allocate.mono (fun _ _ h => h) fun _ _ _ =>
            sound_markRetrying)

/-- **Every action of an accepted rule** that does not lack its amount. -/
theorem sound_execute {isUrl : String → Bool} (url : isUrl "" = false) {r : Rule}
    (h : r.PayloadAccepted isUrl) (hamount : r.lacksAmount = false) {entry : TriggerEntry} :
    Sound i (r.evaluated account) (execute (r.evaluated account) entry) past := by
  refine .after fun x past' => ?_
  unfold act
  cases haction : r.action with
  | releaseFunds =>
    obtain ⟨p, ref, hp, href, hne, hschema⟩ := h.destination haction
    have hdefined : ¬ (p.percentage = none ∧ p.amountKobo = none) := by
      simpa [Rule.lacksAmount, haction, hp] using hamount
    have hrule : (r.evaluated account).action = .releaseFunds := haction
    have hpayload : (r.evaluated account).payload = some p := hp
    rw [hrule]
    refine sound_handleReleaseFunds hrule ?_ ?_
    · rw [EvaluatedRule.destination, hpayload, Option.getD_some, href]
      exact hne
    · obtain ⟨n, hn⟩ := releaseAmount_defined hschema hdefined entry.amountKobo
      rw [hpayload, Option.getD_some, hn]
      simp
  | notifyWebhook =>
    obtain ⟨p, u, hp, hu, hisUrl⟩ := h.url haction
    have hrule : (r.evaluated account).action = .notifyWebhook := haction
    have hpayload : (r.evaluated account).payload = some p := hp
    rw [hrule]
    refine sound_handleNotifyWebhook ?_
    rw [hpayload, Option.getD_some, hu]
    rintro rfl
    rw [url] at hisUrl
    cases hisUrl
  | suspendAccount =>
    rw [show (r.evaluated account).action = .suspendAccount from haction]
    exact sound_handleStatusChange
  | expireAccount =>
    rw [show (r.evaluated account).action = .expireAccount from haction]
    exact sound_handleStatusChange
  | reactivateAccount =>
    rw [show (r.evaluated account).action = .reactivateAccount from haction]
    exact sound_handleStatusChange
  | flagForReview =>
    rw [show (r.evaluated account).action = .flagForReview from haction]
    exact sound_handleFlagForReview

end Traced

/-! ### Among other threads -/

/-- **An accepted rule executes soundly exactly if it does not lack its amount.** -/
theorem executesSoundly_iff {isUrl : String → Bool} (url : isUrl "" = false) {r : Rule}
    (h : r.PayloadAccepted isUrl) (account : RuleAccount) (entry : TriggerEntry) :
    ExecutesSoundly (r.evaluated account) entry ↔ r.lacksAmount = false := by
  constructor
  · intro hsound
    by_contra hlacks
    have hlacks : r.action = .releaseFunds ∧ (r.payload.getD {}).percentage = none ∧
        (r.payload.getD {}).amountKobo = none := by simpa [Rule.lacksAmount] using hlacks
    obtain ⟨haction, hpercentage, hkobo⟩ := hlacks
    -- with the bucket in place there is no amount to release to it
    let bucket : TreasuryBucket :=
      { id := "", bucketRef := (r.evaluated account).destination, businessId := account.businessId }
    have hbucket : ({ treasuryBuckets := [bucket] } : Db).findBucket account.businessId
        (r.evaluated account).destination = some bucket := by
      simp [Db.findBucket, bucket]
    obtain ⟨n, hn⟩ := hsound.amount haction hbucket rfl
    have hpayload : (r.evaluated account).payload = r.payload := rfl
    rw [hpayload, releaseAmount, hpercentage, hkobo] at hn
    cases hn
  · intro hamount
    constructor
    · intro ι _ allowed start ps w₀ w hist i result run hi hreturned hfailed
      have hstart : ∀ j, (start j).Traced j (fun _ _ => True)
          (fun result past => j = i → FailsSoundly (r.evaluated account) result past)
          (fun _ _ => True) [] := by
        intro j
        by_cases hj : j = i
        · subst hj
          rw [hi]
          exact (sound_execute url h hamount).mono (fun _ _ h _ => h) fun _ _ h => h
        · exact (Proc.traced_trivial _).mono (fun _ _ _ hji => absurd hji hj) fun _ _ h => h
      have hps := (run.traced hstart).2 i
      rw [hreturned] at hps
      exact hps rfl hfailed
    · intro db b haction _ _
      obtain ⟨p, ref, hp, -, -, hschema⟩ := h.destination haction
      have hdefined : ¬ (p.percentage = none ∧ p.amountKobo = none) := by
        have haction : r.action = .releaseFunds := haction
        simpa [Rule.lacksAmount, haction, hp] using hamount
      have hpayload : (r.evaluated account).payload = some p := hp
      rw [hpayload]
      exact releaseAmount_defined hschema hdefined _

/-- **A stored rule and an inflow that matches it.** The execution of the rule does not fail on the
rule's content, and a release has an amount, exactly if the rule is not a release of neither a
percentage nor an amount. -/
theorem stored_rule_executes_soundly_iff {isUrl : String → Bool} (url : isUrl "" = false)
    {accountRef : String} {rules : List RuleDefinition}
    (accepted : validateRuleSet isUrl accountRef rules = true) {before after : World}
    (stored : Stores isUrl rules before after) {r : Rule} (hr : r ∈ newRules before after)
    (account : RuleAccount) {entry : TriggerEntry} {cumulative : Int}
    (_positive : 0 < entry.amountKobo)
    (_matches : ruleMatches r (WebhookProcessor.inflowEvent entry.amountKobo cumulative) = true) :
    ExecutesSoundly (r.evaluated account) entry ↔ r.lacksAmount = false := by
  obtain ⟨accountId, kycTier, added, hadded, hnew⟩ := stored.storesRules
  rw [hnew] at hr
  obtain ⟨d, hd, hstored⟩ := exists_definition hadded r hr
  have hpayload := payloadAccepted_of_storedAs (ruleSchema_of_mem accepted hd) hstored
  exact executesSoundly_iff url hpayload account entry

namespace Sample

/-- A new account releases to `ops` from every inflow. -/
def releasing (percentage : Option ℚ) : ProvisionAccountDto where
  customerId := "cus1"
  accountRef := "shop"
  rules := [{
    trigger := "inflow_received"
    condition := { amountGte := some 1 }
    action := "release_funds"
    payload := some { destinationAccountRef := some "ops", percentage } }]

/-- Only texts that are not empty. -/
def someUrl (url : String) : Bool := url ≠ ""

/-- The account has been provisioned. -/
def provisioned (percentage : Option ℚ) : World :=
  ((provisionAccount someUrl (releasing percentage) "biz").runWith numbered newCustomer).2

theorem stores_releasing {percentage : Option ℚ}
    (h : ((provisionAccount someUrl (releasing percentage) "biz").runWith numbered
      newCustomer).1.isOk = true) :
    Stores someUrl (releasing percentage).rules newCustomer (provisioned percentage) := by
  have hrun := Proc.finishes_runWith numbered
    (provisionAccount someUrl (releasing percentage) "biz")
    newCustomer
  cases hresult : ((provisionAccount someUrl (releasing percentage) "biz").runWith numbered
      newCustomer).1 with
  | error e =>
    rw [hresult] at h
    cases h
  | ok result =>
    rw [hresult] at hrun
    exact .provision rfl hrun

/-- The row of the rule. -/
def releasingRule (percentage : Option ℚ) : Rule where
  id := "0"
  accountId := "acc1"
  trigger := .inflowReceived
  condition := some { amountGte := some 1 }
  action := .releaseFunds
  payload := some { destinationAccountRef := some "ops", percentage }
  kycTierAtCreation := .tier0

/-- ₦5.00 for the account. -/
def paidIn : LedgerEntry where
  id := "led1"
  accountId := "acc1"
  nombaTransactionRef := "trx1"
  nombaEventId := "evt1"
  direction := .inflow
  amountKobo := 500
  customerNameSnapshot := "Ada"
  kycTierAtTime := .tier0
  cumulativeAmountKobo := 500
  receivedAt := 0
  createdAt := 0

/-- The account with its bucket and the inflow. -/
def withBucket (percentage : Option ℚ) : World :=
  { provisioned percentage with
    db := { (provisioned percentage).db with
      treasuryBuckets := [{ id := "bkt1aaaaaaaa", bucketRef := "ops", businessId := "biz" }]
      ledgerEntries := [paidIn] } }

end Sample

/-- Half of every inflow is an amount. -/
theorem half_executes_soundly :
    ExecutesSoundly ((Sample.releasingRule (some 50)).evaluated Sample.account.forRule)
      Sample.paidIn.trigger :=
  (@stored_rule_executes_soundly_iff Sample.someUrl rfl "shop" (Sample.releasing (some 50)).rules
    (by decide +kernel) _ _ (Sample.stores_releasing (by decide +kernel)) _ (by decide +kernel)
    Sample.account.forRule Sample.paidIn.trigger 500 (by decide) (by decide +kernel)).2 (by decide)

/-- **A release of nothing.** The schema accepts a release that names neither a percentage nor an
amount, and it is stored. An inflow of ₦5.00 matches it, its bucket is ACTIVE, and the execution
ends FAILED. -/
theorem release_without_amount_fails :
    validateRuleSet Sample.someUrl "shop" (Sample.releasing none).rules = true ∧
      Sample.releasingRule none ∈ newRules Sample.newCustomer (Sample.provisioned none) ∧
      ruleMatches (Sample.releasingRule none) (WebhookProcessor.inflowEvent 500 500) = true ∧
      ¬ ExecutesSoundly ((Sample.releasingRule none).evaluated Sample.account.forRule)
        Sample.paidIn.trigger ∧
      ((execute ((Sample.releasingRule none).evaluated Sample.account.forRule)
        Sample.paidIn.trigger).runWith Sample.numbered
          (Sample.withBucket none)).1.toOption = some {
            ruleExecutionId := "acc1"
            status := .failed
            errorMessage := some "RELEASE_FUNDS requires percentage or amountKobo" } := by
  refine ⟨by decide +kernel, by decide +kernel, by decide +kernel, fun h => ?_, by decide +kernel⟩
  have hpayload : (Sample.releasingRule none).PayloadAccepted Sample.someUrl :=
    ⟨nofun, fun _ => ⟨_, "ops", rfl, rfl, by decide, by decide +kernel⟩⟩
  have hlacks := (executesSoundly_iff rfl hpayload Sample.account.forRule
    Sample.paidIn.trigger).1 h
  exact absurd hlacks (by decide)

end AccountOS
