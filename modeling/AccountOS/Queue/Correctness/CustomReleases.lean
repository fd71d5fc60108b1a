import AccountOS.Queue.Correctness.Footprint
import AccountOS.Queue.Correctness.RetryAgreement
import AccountOS.Rules.Correctness.EventKinds

/-!
# Releases on a custom event

A custom event has no row in the ledger; what stands in for the entry has the id
`custom_<eventId>`. `execute` keeps that id out of the execution it records, but the allocation
passes it on as the entry that the credit comes from, which is a foreign key. So a release of a
fixed amount on a custom event is carried out only where some ledger entry has that very id
(`custom_release_carried_out_iff`); otherwise its execution ends RETRYING.
-/

namespace AccountOS

open Conc Sql WebhookProcessor

/-! ### The foreign keys -/

/-- A rule allocates `amountKobo` of an entry to a bucket. -/
structure Allocates (db : Db) (rule : EvaluatedRule) (entry : TriggerEntry)
    (bucket : TreasuryBucket) (amountKobo : Int) : Prop where
  action : rule.action = .releaseFunds
  named : (rule.payload.getD {}).destinationAccountRef.getD "" ≠ ""
  found : db.findBucket rule.account.businessId
    ((rule.payload.getD {}).destinationAccountRef.getD "") = some bucket
  active : bucket.status = .active
  amount : releaseAmount (rule.payload.getD {}) entry.amountKobo = some (.ok amountKobo)
  pos : 0 < amountKobo

/-- The foreign keys to the ledger that executing a rule writes, in its execution and in its
allocation, are null or the id of an entry. -/
structure LedgerKeysExist (db : Db) (rule : EvaluatedRule) (entry : TriggerEntry) : Prop where
  execution : ∀ x, ∀ l ∈ (pendingExecution x rule entry).triggeredByLedgerEntryId,
    ∃ e ∈ db.ledgerEntries, e.id = l
  allocation : ∀ bucket amountKobo, Allocates db rule entry bucket amountKobo →
    ∀ l ∈ (releaseCredit bucket.id rule.account entry amountKobo).sourceLedgerEntryId,
      ∃ e ∈ db.ledgerEntries, e.id = l

/-- **For an inflow** they are the id of its entry. -/
theorem ledgerKeysExist_inflow {db : Db} {e : LedgerEntry} (he : e ∈ db.ledgerEntries)
    (rule : EvaluatedRule) : LedgerKeysExist db rule e.trigger where
  execution := by
    intro x l hl
    have hl : l ∈ e.trigger.realLedgerEntryId := hl
    unfold TriggerEntry.realLedgerEntryId at hl
    split at hl
    next => cases hl
    next => exact ⟨e, he, Option.some.inj hl⟩
  allocation := by
    rintro bucket amountKobo - l ⟨⟩
    exact ⟨e, he, rfl⟩

/-- **For a custom event** the one of the execution is null, and the one of an allocation is the id
of the stand-in. -/
theorem ledgerKeysExist_customEvent_iff {db : Db} {rule : EvaluatedRule} {payload : InflowPayload} :
    LedgerKeysExist db rule (pseudoLedgerEntry payload) ↔
      ∀ bucket amountKobo, Allocates db rule (pseudoLedgerEntry payload) bucket amountKobo →
        ∃ e ∈ db.ledgerEntries, e.id = "custom_" ++ payload.eventId := by
  constructor
  · exact fun h bucket amountKobo hallocates => h.allocation bucket amountKobo hallocates _ rfl
  · intro h
    refine ⟨fun x l hl => ?_, ?_⟩
    · have hl : l ∈ (pseudoLedgerEntry payload).realLedgerEntryId := hl
      rw [Footprint.realLedgerEntryId_pseudoLedgerEntry] at hl
      cases hl
    · rintro bucket amountKobo hallocates l ⟨⟩
      exact h bucket amountKobo hallocates

/-! ### A run in which no call fails -/

section Run

variable {env : Call → Env} {w : World} (calm : ∀ l, (env l).fault = none)
include calm

/-- Recording the execution of a rule. -/
theorem runWith_createRuleExecution {rule : EvaluatedRule} {entry : TriggerEntry}
    (hrule : ∃ r ∈ w.db.rules, r.id = rule.id)
    (haccount : ∃ a ∈ w.db.accounts, a.id = rule.account.id)
    (hentry : ∀ l ∈ entry.realLedgerEntryId, ∃ e ∈ w.db.ledgerEntries, e.id = l)
    (hfresh : ∀ x ∈ w.db.ruleExecutions,
      x.id ≠ (env (.createRuleExecution rule.id entry.nombaEventId)).row.id) :
    (createRuleExecution rule entry).runWith env w =
      (.ok (env (.createRuleExecution rule.id entry.nombaEventId)).row.id,
        { w with db := { w.db with ruleExecutions := w.db.ruleExecutions ++
          [pendingExecution (env (.createRuleExecution rule.id entry.nombaEventId)).row.id rule
            entry] } }) := by
  generalize hx : (env (.createRuleExecution rule.id entry.nombaEventId)).row.id = x at hfresh ⊢
  have hop : (WriteOp.createRuleExecution (pendingExecution x rule entry)).apply w.db =
      .ok { w.db with ruleExecutions := w.db.ruleExecutions ++ [pendingExecution x rule entry] } :=
    Db.createRuleExecution_eq_ok.2 ⟨hfresh, hrule, haccount, hentry, rfl⟩
  rw [createRuleExecution, runWith_transaction calm, hx]
  simp only [Tx.bind_eq, Tx.run_bind, Tx.run_exec, schema_apply, hop, Tx.pure_eq]
  rfl

/-- A credit that meets the constraints. -/
theorem runWith_credit {p : CreditParams} (hcredit : Creditable env w.db p) :
    ((credit p).runWith env w).1 = .ok (w.db.balance p.bucketId + p.amountKobo) ∧
      ((credit p).runWith env w).2.db.ruleExecutions = w.db.ruleExecutions := by
  obtain ⟨-, href, db', hdb⟩ := (creditable_iff env w.db p).1 hcredit
  have htx : (creditTx p (creditEnv env p).row).run schema w.db =
      .ok (w.db.balance p.bucketId + p.amountKobo, db') :=
    (creditTx_run_eq_ok w.db).2 (.inr ⟨href, rfl, hdb⟩)
  have hcall : (transaction (.credit p.bucketId p.reference p.amountKobo)
      fun e => creditTx p e.row).runWith env w =
        (.ok (w.db.balance p.bucketId + p.amountKobo), { w with db := db' }) := by
    unfold creditEnv at htx
    rw [runWith_transaction calm, htx]
  -- nothing fails, and so the first attempt of the loop is the last
  have hloop : (runSerializable (transaction (.credit p.bucketId p.reference p.amountKobo)
      fun e => creditTx p e.row) maxRetries).runWith env w =
        (.ok (w.db.balance p.bucketId + p.amountKobo), { w with db := db' }) := by
    rw [maxRetries, runSerializable, Proc.runWith_catching, hcall]
  obtain ⟨-, -, -, -, rfl⟩ := Db.createBucketLedgerEntry_eq_ok.1 hdb
  rw [credit, Proc.bind_eq, Proc.runWith_bind, hloop]
  refine ⟨rfl, ?_⟩
  show (World.log _ _ _).db.ruleExecutions = _
  rw [World.log_db]

/-- An execution that is there can be marked COMPLETED. -/
theorem runWith_markCompleted {x : String} (hx : ∃ y ∈ w.db.ruleExecutions, y.id = x)
    (response : Option (List (String × Json))) :
    ((markCompleted x response).runWith env w).1 =
        .ok { ruleExecutionId := x, status := .completed } ∧
      ∃ y ∈ ((markCompleted x response).runWith env w).2.db.ruleExecutions,
        y.id = x ∧ y.status = .completed := by
  let data : RuleExecutionData := {
    status := .completed, nombaApiResponse := response
    completedAt := some (env (.updateRuleExecution x)).now }
  have hop : w.db.updateRuleExecution x data = .ok { w.db with
      ruleExecutions := updateRow RuleExecution.id x data.set w.db.ruleExecutions } :=
    Db.updateRuleExecution_eq_ok.2 ⟨hx, rfl⟩
  have hrun : (markCompleted x response).runWith env w =
      (.ok { ruleExecutionId := x, status := .completed }, { w with db := { w.db with
        ruleExecutions := updateRow RuleExecution.id x data.set w.db.ruleExecutions } }) := by
    rw [markCompleted, Proc.bind_eq, Proc.runWith_bind, updateRuleExecution,
      runWith_statement calm, WriteOp.apply, hop]
    rfl
  obtain ⟨y, hy, hid⟩ := hx
  rw [hrun]
  exact ⟨rfl, data.set y, mem_updateRow_of_eq hy hid, hid, rfl⟩

/-- An allocation whose credit meets the constraints completes the execution. -/
theorem runWith_allocate {x ref bucketId : String} {account : RuleAccount} {entry : TriggerEntry}
    {amountKobo : Int} (hx : ∃ y ∈ w.db.ruleExecutions, y.id = x)
    (hcredit : Creditable env w.db (releaseCredit bucketId account entry amountKobo)) :
    ((allocate x ref bucketId account entry amountKobo).runWith env w).1 =
        .ok { ruleExecutionId := x, status := .completed } ∧
      ∃ y ∈ ((allocate x ref bucketId account entry amountKobo).runWith env w).2.db.ruleExecutions,
        y.id = x ∧ y.status = .completed := by
  obtain ⟨hcreditRun, hexecutions⟩ := runWith_credit calm hcredit
  have hrun : ((credit (releaseCredit bucketId account entry amountKobo)).runWith env w).1 =
      .ok (w.db.balance bucketId + amountKobo) := hcreditRun
  have hx₁ : ∃ y ∈ ((credit (releaseCredit bucketId account entry amountKobo)).runWith env
      w).2.db.ruleExecutions, y.id = x := by rwa [hexecutions]
  obtain ⟨hmarked, y, hy, hstatus⟩ := runWith_markCompleted calm hx₁ (some [
    ("allocated", .bool true),
    ("bucketRef", .str ref),
    ("amountKobo", .str (toString amountKobo)),
    ("bucketBalanceKobo", .str (toString (w.db.balance bucketId + amountKobo)))])
  rw [allocate, Proc.bind_eq, Proc.runWith_bind_of_ok env hrun _, Proc.bind_eq,
    Proc.runWith_bind_of_ok env hmarked _]
  refine ⟨rfl, y, ?_, hstatus⟩
  show y ∈ (World.log _ _ _).db.ruleExecutions
  rw [World.log_db]
  exact hy

/-- **A release whose credit meets the constraints** is carried out. -/
theorem runWith_handleReleaseFunds {x : String} {rule : EvaluatedRule} {entry : TriggerEntry}
    {bucket : TreasuryBucket} {amountKobo : Int}
    (hallocates : Allocates w.db rule entry bucket amountKobo)
    (hx : ∃ y ∈ w.db.ruleExecutions, y.id = x)
    (hcredit : Creditable env w.db (releaseCredit bucket.id rule.account entry amountKobo)) :
    ((handleReleaseFunds x rule.payload rule.account entry).runWith env w).1 =
        .ok { ruleExecutionId := x, status := .completed } ∧
      ∃ y ∈ ((handleReleaseFunds x rule.payload rule.account entry).runWith env
        w).2.db.ruleExecutions, y.id = x ∧ y.status = .completed := by
  obtain ⟨hrun, hstatus⟩ :
      ((allocate x ((rule.payload.getD {}).destinationAccountRef.getD "") bucket.id rule.account
        entry amountKobo).runWith env w).1 =
          .ok { ruleExecutionId := x, status := .completed } ∧ _ :=
    runWith_allocate calm hx hcredit
  have hhandle : (handleReleaseFunds x rule.payload rule.account entry).runWith env w =
      (allocate x ((rule.payload.getD {}).destinationAccountRef.getD "") bucket.id rule.account
        entry amountKobo).runWith env w := by
    unfold handleReleaseFunds
    dsimp only
    rw [if_neg hallocates.named, Proc.bind_eq, Proc.runWith_bind, runWith_find calm]
    dsimp only
    rw [hallocates.found]
    dsimp only
    rw [if_neg (not_not_intro hallocates.active), hallocates.amount]
    dsimp only
    rw [if_neg (not_le.2 hallocates.pos), Proc.tryCatch_eq, Proc.runWith_catching_of_ok env hrun]
  rw [hhandle]
  exact ⟨hrun, hstatus⟩

end Run

/-! ### Fixed amounts -/

/-- A release of a fixed amount to an existing ACTIVE bucket, as the schema accepts it. -/
structure FixedRelease (db : Db) (r : Rule) (a : Account) (bucket : TreasuryBucket)
    (amountKobo : Int) : Prop where
  rule : r ∈ db.rules
  account : a ∈ db.accounts ∧ a.id = r.accountId
  action : r.action = .releaseFunds
  payload : ∃ p ref, r.payload = some p ∧ releaseFundsPayloadSchema p = true ∧
    p.amountKobo = some (amountKobo : ℚ) ∧ p.destinationAccountRef = some ref ∧
    db.findBucket a.businessId ref = some bucket
  active : bucket.status = .active

/-- It allocates the amount, of whatever entry. -/
theorem FixedRelease.allocates {db : Db} {r : Rule} {a : Account} {bucket : TreasuryBucket}
    {amountKobo : Int} (h : FixedRelease db r a bucket amountKobo) (entry : TriggerEntry) :
    Allocates db (r.evaluated a.forRule) entry bucket amountKobo := by
  obtain ⟨p, ref, hp, hschema, hamount, href, hbucket⟩ := h.payload
  have hpayload : ((r.evaluated a.forRule).payload.getD {}) = p := by
    show r.payload.getD {} = p
    rw [hp, Option.getD_some]
  obtain ⟨-, hkobo, hexclusive⟩ := of_releaseFundsPayloadSchema hschema
  -- the schema accepts an amount or a percentage, not both
  have hpercentage : p.percentage = none := by
    rcases hexclusive with hnone | hnone
    · exact hnone
    · rw [hamount] at hnone
      cases hnone
  have hnonempty : ref ≠ "" := by
    simp only [releaseFundsPayloadSchema, Bool.and_eq_true, href] at hschema
    exact of_decide_eq_true hschema.1.1.1
  obtain ⟨n, hn, hpos⟩ := hkobo _ hamount
  obtain rfl : amountKobo = n := by exact_mod_cast hn
  refine ⟨h.action, ?_, ?_, h.active, ?_, hpos⟩
  · rw [hpayload, href]
    exact hnonempty
  · rw [hpayload, href]
    exact hbucket
  · rw [hpayload, releaseAmount, hpercentage, hamount]
    exact congrArg some (bigInt_intCast amountKobo)

/-- The rule is carried out for an entry: the bucket is credited with the amount, by one entry and
nothing else, and the execution is COMPLETED. -/
def CarriedOut (env : Call → Env) (w : World) (rule : EvaluatedRule) (entry : TriggerEntry)
    (bucket : TreasuryBucket) (amountKobo : Int) : Prop :=
  (∃ x ∈ writtenBy env w (execute rule entry), writtenBy env w (execute rule entry) = [x] ∧
    x.entryType = .credit ∧ x.bucketId = bucket.id ∧ x.amountKobo = amountKobo) ∧
  ∃ result, ((execute rule entry).runWith env w).1 = .ok result ∧ result.status = .completed ∧
    ∃ y ∈ ((execute rule entry).runWith env w).2.db.ruleExecutions,
      y.id = result.ruleExecutionId ∧ y.status = .completed

/-- The ids that are generated for the execution and for the credit are new. -/
structure FreshIds (env : Call → Env) (db : Db) (rule : EvaluatedRule) (entry : TriggerEntry)
    (bucket : TreasuryBucket) (amountKobo : Int) : Prop where
  execution : ∀ x ∈ db.ruleExecutions,
    x.id ≠ (env (.createRuleExecution rule.id entry.nombaEventId)).row.id
  credit : ∀ e ∈ db.bucketLedgerEntries,
    e.id ≠ (creditEnv env (releaseCredit bucket.id rule.account entry amountKobo)).row.id

/-- The condition of a release on a custom event: a ledger entry has the id of the stand-in, and
the allocation has not been made before. -/
def Backed (db : Db) (payload : InflowPayload) (bucket : TreasuryBucket) : Prop :=
  (∃ e ∈ db.ledgerEntries, e.id = "custom_" ++ payload.eventId) ∧
    ∀ e ∈ db.bucketLedgerEntries,
      e.reference ≠ allocationReference payload.transactionRef bucket.id

/-- It is what the credit has to meet. -/
theorem creditable_customEvent_iff {env : Call → Env} {db : Db} {account : RuleAccount}
    {payload : InflowPayload} {bucket : TreasuryBucket} {amountKobo : Int}
    (calm : ∀ l, (env l).fault = none) (hbucket : bucket ∈ db.treasuryBuckets)
    (hfresh : ∀ e ∈ db.bucketLedgerEntries, e.id ≠ (creditEnv env (releaseCredit bucket.id account
      (pseudoLedgerEntry payload) amountKobo)).row.id) :
    Creditable env db (releaseCredit bucket.id account (pseudoLedgerEntry payload) amountKobo) ↔
      Backed db payload bucket := by
  constructor
  · rintro ⟨-, -, href, -, hsource⟩
    exact ⟨hsource _ rfl, href⟩
  · rintro ⟨hsource, href⟩
    refine ⟨calm _, hfresh, href, ⟨bucket, hbucket, rfl⟩, ?_⟩
    rintro l ⟨⟩
    exact hsource

/-- A release that a rule allocates writes what the credit adds. -/
theorem writtenBy_handleReleaseFunds {env : Call → Env} {w : World}
    (calm : ∀ l, (env l).fault = none) {x : String} {rule : EvaluatedRule} {entry : TriggerEntry}
    {bucket : TreasuryBucket} {amountKobo : Int}
    (h : Allocates w.db rule entry bucket amountKobo) :
    entriesAfter env w (handleReleaseFunds x rule.payload rule.account entry) =
      w.db.bucketLedgerEntries ++
        creditAdds env w.db (releaseCredit bucket.id rule.account entry amountKobo) := by
  have htarget : releaseTarget env w rule.account.businessId rule.payload entry.amountKobo =
      some (bucket, amountKobo) := by
    unfold releaseTarget
    dsimp only
    rw [if_neg (not_or.2 ⟨h.named, not_not_intro (calm _)⟩), h.found, h.amount]
  rw [entriesAfter_handleReleaseFunds, htarget]
  dsimp only
  rw [if_pos ⟨h.active, h.pos⟩]

/-- **When a fixed amount is released on a custom event**, in a run in which no call fails but for a
constraint. The keys that are written for an inflow always exist. For a custom event the bucket is
credited, the execution is COMPLETED and no key dangles exactly if a ledger entry has the
stand-in's id, and the allocation has not been made before. -/
theorem custom_release_carried_out_iff {env : Call → Env} {w : World}
    (calm : ∀ l, (env l).fault = none) {r : Rule} {a : Account} {bucket : TreasuryBucket}
    {amountKobo : Int} (h : FixedRelease w.db r a bucket amountKobo) (payload : InflowPayload)
    (fresh : FreshIds env w.db (r.evaluated a.forRule) (pseudoLedgerEntry payload) bucket
      amountKobo) :
    (∀ e ∈ w.db.ledgerEntries, ∀ rule, LedgerKeysExist w.db rule e.trigger) ∧
    ((CarriedOut env w (r.evaluated a.forRule) (pseudoLedgerEntry payload) bucket amountKobo ∧
        LedgerKeysExist w.db (r.evaluated a.forRule) (pseudoLedgerEntry payload)) ↔
      Backed w.db payload bucket) := by
  refine ⟨fun e he rule => ledgerKeysExist_inflow he rule, ?_⟩
  have hallocates := h.allocates (pseudoLedgerEntry payload)
  have hbucket : bucket ∈ w.db.treasuryBuckets := by
    obtain ⟨p, ref, -, -, -, -, hfound⟩ := h.payload
    exact List.mem_of_find?_eq_some hfound
  have hentry : ∀ l ∈ (pseudoLedgerEntry payload).realLedgerEntryId,
      ∃ e ∈ w.db.ledgerEntries, e.id = l := by
    rw [Footprint.realLedgerEntryId_pseudoLedgerEntry]
    nofun
  -- the execution is recorded, and then the release is handled
  have hcreate := runWith_createRuleExecution calm ⟨r, h.rule, rfl⟩ ⟨a, h.account.1, rfl⟩ hentry
    fresh.execution
  generalize (env (.createRuleExecution (r.evaluated a.forRule).id
    (pseudoLedgerEntry payload).nombaEventId)).row.id = x at hcreate
  generalize hpending : pendingExecution x (r.evaluated a.forRule) (pseudoLedgerEntry payload) =
    pending at hcreate
  set w₁ : World := { w with db := { w.db with
    ruleExecutions := w.db.ruleExecutions ++ [pending] } } with hw₁
  have hrun : (execute (r.evaluated a.forRule) (pseudoLedgerEntry payload)).runWith env w =
      (handleReleaseFunds x (r.evaluated a.forRule).payload (r.evaluated a.forRule).account
        (pseudoLedgerEntry payload)).runWith env w₁ := by
    rw [execute, Proc.bind_eq, Proc.runWith_bind, hcreate]
    dsimp only
    rw [act, hallocates.action]
  have hcreditable : Creditable env w.db (releaseCredit bucket.id a.forRule
      (pseudoLedgerEntry payload) amountKobo) ↔ Backed w.db payload bucket :=
    creditable_customEvent_iff calm hbucket fresh.credit
  have hallocates₁ : Allocates w₁.db (r.evaluated a.forRule) (pseudoLedgerEntry payload) bucket
      amountKobo :=
    ⟨hallocates.action, hallocates.named, hallocates.found, hallocates.active, hallocates.amount,
      hallocates.pos⟩
  have hwritten : writtenBy env w (execute (r.evaluated a.forRule) (pseudoLedgerEntry payload)) =
      (creditAdds env w.db (releaseCredit bucket.id a.forRule (pseudoLedgerEntry payload)
        amountKobo)).map BucketLedgerEntry.written := by
    apply writtenBy_of_entriesAfter
    rw [entriesAfter, hrun]
    exact writtenBy_handleReleaseFunds calm hallocates₁
  -- a credit that violates a constraint leaves no entry
  constructor
  · rintro ⟨⟨⟨e, he, -⟩, -⟩, -⟩
    refine hcreditable.1 (by_contra fun hno => ?_)
    rw [hwritten, creditAdds, if_neg hno] at he
    cases he
  · intro hbacked
    have hcredit := hcreditable.2 hbacked
    have hadds : writtenBy env w (execute (r.evaluated a.forRule) (pseudoLedgerEntry payload)) =
        [⟨.credit, bucket.id, amountKobo, allocationReference payload.transactionRef bucket.id,
          some ("custom_" ++ payload.eventId)⟩] := by
      rw [hwritten, creditAdds, if_pos hcredit]
      rfl
    obtain ⟨hresult, y, hy, hstatus⟩ := runWith_handleReleaseFunds calm hallocates₁
      ⟨pending, List.mem_append_right _ (List.mem_singleton_self _), by
        rw [← hpending, pendingExecution]⟩
      hcredit
    refine ⟨⟨⟨_, ?_, hadds, rfl, rfl, rfl⟩, ?_⟩, ?_⟩
    · rw [hadds]
      exact List.mem_singleton_self _
    · rw [hrun]
      exact ⟨_, hresult, rfl, y, hy, hstatus⟩
    · exact ledgerKeysExist_customEvent_iff.2 fun _ _ _ => hbacked.1

namespace Sample

/-- ₦5.00 for `ops` when an order is shipped. -/
def shippedToOps : Rule where
  id := "rule1"
  accountId := "acc1"
  trigger := .customEvent
  condition := some { eventName := some "order.shipped" }
  action := .releaseFunds
  payload := some { destinationAccountRef := some "ops", amountKobo := some 500 }
  kycTierAtCreation := .tier1

/-- The definition of the rule. -/
def shippedToOpsRules : List RuleDefinition := [{
  trigger := "custom_event"
  condition := { eventName := some "order.shipped" }
  action := "release_funds"
  payload := some { destinationAccountRef := some "ops", amountKobo := some 500 } }]

theorem shippedToOps_fromAccepted : shippedToOps.FromAccepted fun _ => true :=
  ⟨"shop", shippedToOpsRules, _, "acc1", .tier1, _, by decide +kernel, List.mem_cons_self,
    ⟨_, _, {}, rfl, rfl, rfl⟩, rfl, rfl⟩

def opsBucket : TreasuryBucket where
  id := "bkt1aaaaaaaa"
  bucketRef := "ops"
  businessId := "biz"

/-- The account with the rule, and with the given ledger entries. -/
def shippingShop (ledgerEntries : List LedgerEntry) : World :=
  let w := shop [opsBucket] [shippedToOps]
  { w with db := { w.db with ledgerEntries } }

theorem shippedToOps_fixedRelease (ledgerEntries : List LedgerEntry) :
    FixedRelease (shippingShop ledgerEntries).db shippedToOps account opsBucket 500 where
  rule := List.mem_singleton_self _
  account := ⟨List.mem_singleton_self _, rfl⟩
  action := rfl
  payload := ⟨_, "ops", rfl, by decide +kernel, rfl, rfl, rfl⟩
  active := rfl

end Sample

/-- With a ledger entry that has the stand-in's id. -/
theorem custom_release_carried_out_iff_backed :
    CarriedOut Sample.calm (Sample.shippingShop [{ Sample.inflowEntry with id := "custom_evt1" }])
      (Sample.shippedToOps.evaluated Sample.account.forRule) (pseudoLedgerEntry Sample.shipped)
      Sample.opsBucket 500 := by
  have fresh : FreshIds Sample.calm
      (Sample.shippingShop [{ Sample.inflowEntry with id := "custom_evt1" }]).db
      (Sample.shippedToOps.evaluated Sample.account.forRule) (pseudoLedgerEntry Sample.shipped)
      Sample.opsBucket 500 := by
    constructor
    · exact fun x hx => absurd hx List.not_mem_nil
    · exact fun e he => absurd he List.not_mem_nil
  have backed : Backed (Sample.shippingShop [{ Sample.inflowEntry with id := "custom_evt1" }]).db
      Sample.shipped Sample.opsBucket :=
    ⟨⟨_, List.mem_singleton_self _, rfl⟩, fun e he => absurd he List.not_mem_nil⟩
  exact ((custom_release_carried_out_iff (fun _ => rfl) (Sample.shippedToOps_fixedRelease _)
    Sample.shipped fresh).2.2 backed).1

/-- **The release that is not carried out.** An order is shipped for an account that has had one
inflow. The rule for it is accepted and matches; the bucket is there and ACTIVE, and no call fails
but at the foreign key. Nothing is credited, and the execution is left RETRYING. -/
theorem shipped_release_not_carried_out :
    Sample.shippedToOps.FromAccepted (fun _ => true) ∧
      FixedRelease (Sample.shippingShop [Sample.inflowEntry]).db Sample.shippedToOps
        Sample.account Sample.opsBucket 500 ∧
      ((evaluate "acc1" .parallel (customEvent Sample.shipped)).runWith Sample.calm
        (Sample.shippingShop [Sample.inflowEntry])).1.toOption =
          some [Sample.shippedToOps.evaluated Sample.account.forRule] ∧
      writtenBy Sample.calm (Sample.shippingShop [Sample.inflowEntry])
        (execute (Sample.shippedToOps.evaluated Sample.account.forRule)
          (pseudoLedgerEntry Sample.shipped)) = [] ∧
      ((execute (Sample.shippedToOps.evaluated Sample.account.forRule)
        (pseudoLedgerEntry Sample.shipped)).runWith Sample.calm
          (Sample.shippingShop [Sample.inflowEntry])).2.db.ruleExecutions.map (·.status) =
            [.retrying] :=
  ⟨Sample.shippedToOps_fromAccepted, Sample.shippedToOps_fixedRelease _, by decide +kernel,
    by decide +kernel, by decide +kernel⟩

end AccountOS
