import AccountOS.Queue.Correctness.TenantCalls
import AccountOS.Queue.Producers

/-!
# Tenants and each other's events

`EventsService.dispatch` looks for an event of the same id of the same business, so that businesses
may use the same ids. The worker looks for the id alone, and `ProcessedEvent.eventId` is unique
among all businesses: an event of A makes the worker discard an inflow of B with the same event id
(`dispatch_discards_foreign_inflow`). While A's events have none of B's event ids, and none of B's
transaction references when their name makes the worker take them for inflows, nothing that A
dispatches makes a difference for B (`events_stay_apart`).
-/

namespace AccountOS

open Conc Sql

namespace Tenants

variable {T : Tenants} {w w' : World}

/-! ### Processing a job -/

section Process

open WebhookProcessor

variable (hT : T.Apart) {t : Tenant} {payload : InflowPayload}
include hT

theorem confined_evaluate {accountId : String} {model : ExecutionModel} {event : RuleEvent}
    (haccount : T.OwnsAccount t accountId) :
    (evaluate accountId model event).Confined (T.scope t)
      fun rules => ∀ rule ∈ rules, T.OwnsRuleAccount t rule.account := by
  refine Proc.Confined.bind
    (Q := fun rules => ∀ q ∈ rules, T.OwnsRuleAccount t q.2) (confined_find ?_ ?_) ?_
  · intro env db hdb q hq
    obtain ⟨-, -, a, ha, rfl, hforRule⟩ := Db.mem_findRules hq
    rw [hforRule]
    exact ⟨haccount, hdb.business_of_id hT ha haccount⟩
  · intro _ env db db' hdb hdb' _
    rw [hdb.configuration.findRules, hdb'.configuration.findRules]
  · intro rules hrules rule hrule
    obtain ⟨q, hq, rfl⟩ := selectMatching_subset hrule
    exact hrules q hq

theorem confined_executeAll {after : ExecutionResult → Action Unit} {entry : TriggerEntry}
    (hafter : ∀ r, T.WrittenFor t r.ruleExecutionId →
      (after r).Confined (T.scope t) fun _ => True)
    (hentry : T.Triggers t entry) {rules : List EvaluatedRule}
    (hrules : ∀ rule ∈ rules, T.OwnsRuleAccount t rule.account) :
    (executeAll after entry rules).Confined (T.scope t) fun _ => True := by
  induction rules with
  | nil => trivial
  | cons rule rules ih =>
    have hrule := hrules rule List.mem_cons_self
    have hrest := ih fun r hr => hrules r (List.mem_cons_of_mem _ hr)
    refine Proc.Confined.bind (confined_execute hT hrule hentry) fun r hr => ?_
    exact Proc.Confined.bind (hafter r hr) fun _ _ => hrest

omit hT in
theorem confined_findBusiness {id : String} :
    (find (.findBusiness id) fun _ db => db.findBusiness id).Confined (T.scope t)
      fun _ => True := by
  refine confined_find (fun _ _ _ => trivial) ?_
  intro _ env db db' hdb hdb' _
  rw [hdb.configuration.findBusiness, hdb'.configuration.findBusiness]

theorem confined_createProcessedEvent {account : Account} {eventType : String}
    (hevent : T.eventIds t payload.eventId) (hbusiness : account.businessId = T.businessId t) :
    (createProcessedEvent payload eventType account).Confined (T.scope t) fun _ => True :=
  confined_statement hT fun _ hgen => ⟨hgen.1, hevent, congrArg some hbusiness⟩

theorem confined_processCustomEvent {account : Account}
    (haccount : T.OwnsAccount t account.id) (hbusiness : account.businessId = T.businessId t)
    (hevent : T.eventIds t payload.eventId)
    (href : t = .b → T.transactionRefs .b payload.transactionRef) :
    (processCustomEvent payload account).Confined (T.scope t) fun _ => True := by
  have hcustom : IsCustomId (pseudoLedgerEntry payload).id := by
    have htext : (pseudoLedgerEntry payload).id.toList =
        "custom_".toList ++ payload.eventId.toList := String.toList_append
    unfold IsCustomId
    rw [htext]
    exact List.prefix_append _ _
  have hentry : T.Triggers t (pseudoLedgerEntry payload) := by
    refine ⟨.inl hcustom, fun h => ?_⟩
    have ht := h.resolve_right (not_not.2 hcustom)
    subst ht
    exact href rfl
  have hclaim : (claim payload account).Confined (T.scope t) fun _ => True := by
    refine Proc.Confined.catching ?_ fun err => ?_
    · exact Proc.Confined.bind (confined_createProcessedEvent hT hevent hbusiness)
        fun _ _ => trivial
    · split
      next => exact Proc.Confined.bind confined_audit fun _ _ => trivial
      next => trivial
  refine Proc.Confined.bind hclaim fun claimed _ => ?_
  cases claimed with
  | false => trivial
  | true =>
    refine Proc.Confined.bind (confined_evaluate hT haccount) fun rules hrules => ?_
    refine Proc.Confined.bind (Q := fun _ => True) ?_ fun _ _ => confined_audit
    unfold executeForEvent
    split
    next => trivial
    next =>
      refine Proc.Confined.bind confined_findBusiness fun business _ => ?_
      cases business with
      | none => trivial
      | some b =>
        have hafter : ∀ r : ExecutionResult, T.WrittenFor t r.ruleExecutionId →
            (Proc.ret () : Action Unit).Confined (T.scope t) fun _ => True := fun _ _ => trivial
        exact confined_executeAll hT hafter hentry hrules

theorem confined_reconcile {account : Account} {status : ReconciliationStatus}
    {matchedRules : List (String × Json)} (href : T.RecordsRef t payload.transactionRef) :
    (reconcile payload account status matchedRules).Confined (T.scope t) fun _ => True :=
  Proc.Confined.bind (confined_statement hT fun _ _ => href) fun _ _ => confined_audit

omit hT in
/-- The entry with one of the tenant's transaction references is the tenant's. -/
theorem Inv.triggers {db : Db} (h : T.Inv db) (hT : T.Apart) {ref : String} {e : LedgerEntry}
    (href : T.RecordsRef t ref) (he : db.findLedgerEntry ref = some e) :
    T.Triggers t e.trigger := by
  obtain ⟨hmem, rfl⟩ := findLedgerEntry_eq_some db he
  refine ⟨.inr ?_, fun _ => href⟩
  cases t with
  | a => exact (h.transactionRefs e hmem).2 href
  | b => exact h.ledgerEntries_of_ref hT href e hmem rfl

theorem confined_settleInflow {account : Account} {rules : List EvaluatedRule}
    (href : T.RecordsRef t payload.transactionRef)
    (hrules : ∀ rule ∈ rules, T.OwnsRuleAccount t rule.account) :
    (settleInflow payload account rules).Confined (T.scope t) fun _ => True := by
  unfold settleInflow
  split
  next => exact confined_reconcile hT href
  next =>
    refine Proc.Confined.bind (Q := fun _ => True) ?_ fun _ _ => confined_reconcile hT href
    refine Proc.Confined.bind confined_findBusiness fun business _ => ?_
    cases business with
    | none => trivial
    | some b =>
      refine Proc.Confined.bind
        (Q := fun found => ∀ e, found = some e → T.Triggers t e.trigger) (confined_find ?_ ?_) ?_
      · exact fun _ db hdb e he => hdb.triggers hT href he
      · intro ht env db db' hdb hdb' hsame
        subst ht
        exact hsame.ledgerEntries.find?_eq (hdb.ledgerEntries_of_ref hT href)
          (hdb'.ledgerEntries_of_ref hT href)
      · intro record hrecord
        cases record with
        | none => trivial
        | some e =>
          refine confined_executeAll hT (fun r hr => ?_) (hrecord e rfl) hrules
          unfold enqueueIfRetrying
          split
          next => exact confined_enqueueRetry hr
          next => trivial

theorem confined_processInflow {found : FoundAccount}
    (haccount : T.OwnsAccount t found.account.id)
    (hbusiness : found.account.businessId = T.businessId t)
    (hevent : T.eventIds t payload.eventId)
    (href : T.transactionRefs t payload.transactionRef) :
    (processInflow payload found).Confined (T.scope t) fun _ => True := by
  refine Proc.Confined.bind (confined_writeInflow hT haccount href) fun cumulative hrecorded => ?_
  refine Proc.Confined.bind confined_bigIntOrThrow fun amountKobo _ => ?_
  refine Proc.Confined.bind (confined_evaluate hT haccount) fun rules hrules => ?_
  refine Proc.Confined.bind (confined_settleInflow hT hrecorded hrules) fun _ _ => ?_
  exact confined_createProcessedEvent hT hevent hbusiness

theorem confined_lookUpAccount {accountNumber : String} (hnumber : T.OwnsNumber t accountNumber) :
    (lookUpAccount accountNumber).Confined (T.scope t) fun found => ∀ f, found = some f →
      T.OwnsAccount t f.account.id ∧ f.account.businessId = T.businessId t := by
  refine confined_find ?_ ?_
  · intro env db hdb f hf
    obtain ⟨a, ha, rfl⟩ := Option.map_eq_some_iff.1 hf
    have hmem := List.mem_of_find?_eq_some ha
    have hnum : a.accountNumber = accountNumber := by simpa using List.find?_some ha
    have hbusiness := hdb.business_of_number hT hmem (hnum ▸ hnumber)
    exact ⟨(hdb.owns hmem hbusiness).1, hbusiness⟩
  · intro ht env db db' hdb hdb' hsame
    subst ht
    have hfind : db.findAccount accountNumber = db'.findAccount accountNumber :=
      hsame.accounts.find?_eq (hdb.accounts_of_number hT hnumber)
        (hdb'.accounts_of_number hT hnumber)
    have hcustomers : db.findCustomer = db'.findCustomer := by
      funext id
      unfold Db.findCustomer
      rw [hdb.customers, hdb'.customers]
    rw [hfind, hcustomers]

/-- **The worker.** A job for an account of the tenant. -/
theorem confined_process (hnumber : T.OwnsNumber t payload.accountNumber)
    (hevent : T.eventIds t payload.eventId)
    (href : t = .b ∨ isCustomEvent payload = false → T.transactionRefs t payload.transactionRef) :
    (process payload).Confined (T.scope t) fun _ => True := by
  refine Proc.Confined.catching ?_ fun err => ?_
  · refine Proc.Confined.bind (Q := fun _ => True) (confined_find (fun _ _ _ => trivial) ?_) ?_
    · intro ht env db db' hdb hdb' hsame
      subst ht
      exact hsame.processedEvents.find?_eq (hdb.processedEvents_of_eventId hT hevent)
        (hdb'.processedEvents_of_eventId hT hevent)
    · intro existing _
      cases existing with
      | some e => exact confined_audit
      | none =>
        refine Proc.Confined.bind (confined_lookUpAccount hT hnumber) fun found hfound => ?_
        cases found with
        | none => exact confined_audit
        | some f =>
          obtain ⟨haccount, hbusiness⟩ := hfound f rfl
          dsimp only
          split
          next =>
            refine confined_processCustomEvent hT haccount hbusiness hevent fun ht => ?_
            subst ht
            exact href (.inl rfl)
          next hinflow =>
            have hown := href (.inr (by simpa using hinflow))
            cases f.account.status with
            | active => exact confined_processInflow hT haccount hbusiness hevent hown
            | suspended =>
              exact Proc.Confined.bind (confined_writeInflow hT haccount hown)
                fun _ _ => confined_audit
            | closed => exact confined_audit
            | expired => exact confined_audit
  · split
    next => exact confined_audit
    next => trivial

end Process

/-! ### The producers -/

section Producers

variable (hT : T.Apart) {t : Tenant}
include hT

theorem confined_serveJob {payload : InflowPayload}
    (hnumber : T.OwnsNumber t payload.accountNumber) (hevent : T.eventIds t payload.eventId)
    (href : t = .b ∨ WebhookProcessor.isCustomEvent payload = false →
      T.transactionRefs t payload.transactionRef) :
    (serveJob payload).Confined (T.scope t) fun _ => True :=
  Proc.Confined.bind confined_takeJob fun _ _ => confined_process hT hnumber hevent href

/-- **A dispatch** of the tenant. -/
theorem confined_dispatch {accountRef eventId eventName businessId : String}
    (hbusiness : businessId = T.businessId t) (hevent : T.eventIds t eventId) :
    (EventsService.dispatch accountRef eventId eventName businessId).Confined (T.scope t)
      fun _ => True := by
  unfold EventsService.dispatch
  dsimp only
  refine Proc.Confined.bind (Q := fun _ => True) (confined_find (fun _ _ _ => trivial) ?_) ?_
  · intro ht env db db' hdb hdb' hsame
    subst ht
    exact hsame.processedEvents.find?_eq
      (fun e he hp => hdb.processedEvents_of_eventId hT hevent e he hp.1)
      fun e he hp => hdb'.processedEvents_of_eventId hT hevent e he hp.1
  · intro existing _
    cases existing with
    | some e => exact confined_audit
    | none =>
      refine Proc.Confined.bind (Q := fun found => ∀ a, found = some a →
        T.OwnsNumber t a.accountNumber) (confined_find ?_ ?_) ?_
      · intro env db hdb a ha
        have hmem := List.mem_of_find?_eq_some ha
        have hfound : a.accountRef = accountRef ∧ a.businessId = businessId := by
          simpa using List.find?_some ha
        exact (hdb.owns hmem (hfound.2.trans hbusiness)).2
      · intro ht env db db' _ _ hsame
        subst ht
        have hother : ∀ a : Account, a.accountRef = accountRef ∧ a.businessId = businessId →
            a.businessId ≠ T.businessId .a := by
          rintro a ⟨-, hb⟩ ha
          exact hT.businesses (ha.symm.trans (hb.trans hbusiness))
        exact hsame.accounts.find?_eq (fun a _ => hother a) fun a _ => hother a
      · intro account hown
        cases account with
        | none => trivial
        | some a =>
          refine Proc.Confined.bind (confined_enqueueInflow (hown a rfl)) fun _ _ => ?_
          exact confined_audit

/-- **A webhook** that reports an inflow to an account of the tenant. -/
theorem confined_processInflowWebhook {runtime : WebhookRuntime} {rawBody : Option RawBody}
    {signature : Option String}
    (hnumber : ∀ raw body data, rawBody = some raw → runtime.parse raw = some body →
      body.data = some data → data.accountNumber.getD "" ≠ "" →
      T.OwnsNumber t (data.accountNumber.getD "")) :
    (WebhooksService.processInflow runtime rawBody signature).Confined (T.scope t)
      fun _ => True := by
  unfold WebhooksService.processInflow
  split
  next => trivial
  next raw =>
    split
    next => trivial
    next body hbody =>
      split
      next => trivial
      next data hdata =>
        dsimp only
        split
        next => trivial
        next hne =>
          have hown := hnumber raw body data rfl hbody hdata hne
          refine Proc.Confined.bind (Q := fun _ => True)
            (confined_find (fun _ _ _ => trivial) ?_) ?_
          · intro ht env db db' hdb hdb' hsame
            subst ht
            have hfind : db.findAccount (data.accountNumber.getD "") =
                db'.findAccount (data.accountNumber.getD "") :=
              hsame.accounts.find?_eq (hdb.accounts_of_number hT hown)
                (hdb'.accounts_of_number hT hown)
            unfold Db.findAccountBusiness Db.findCustomer Db.findBusiness
            rw [hfind, hdb.customers, hdb'.customers, hdb.configuration.businesses,
              hdb'.configuration.businesses]
          · intro account _
            cases account with
            | none => trivial
            | some found =>
              dsimp only
              unfold WebhooksService.verifyAndEnqueue
              split
              next => trivial
              next => trivial
              next =>
                split
                next => trivial
                next =>
                  split
                  next => exact confined_enqueueInflow hown
                  next => trivial

end Producers

/-! ### What is recorded for B -/

end Tenants

namespace Db

variable (db : Db) (businessId : String)

/-- The account is one of the business. -/
def Holds (accountId : String) : Prop :=
  ∃ a ∈ db.accounts, a.businessId = businessId ∧ a.id = accountId

instance (accountId : String) : Decidable (db.Holds businessId accountId) :=
  inferInstanceAs (Decidable (∃ a ∈ db.accounts, _))

/-- The bucket is one of the business. -/
def HoldsBucket (bucketId : String) : Prop :=
  ∃ b ∈ db.treasuryBuckets, b.businessId = businessId ∧ b.id = bucketId

instance (bucketId : String) : Decidable (db.HoldsBucket businessId bucketId) :=
  inferInstanceAs (Decidable (∃ b ∈ db.treasuryBuckets, _))

/-- The ids of the rows that the worker writes. -/
def rowIds : List String :=
  db.ledgerEntries.map LedgerEntry.id ++ db.ruleExecutions.map RuleExecution.id ++
    db.processedEvents.map ProcessedEvent.id ++ db.bucketLedgerEntries.map BucketLedgerEntry.id

/-- Ids are long enough, and none looks like what stands in for a ledger entry. -/
structure Cuids (db : Db) : Prop where
  ledgerEntries : ∀ e ∈ db.ledgerEntries, ¬ IsCustomId e.id
  treasuryBuckets : ∀ b ∈ db.treasuryBuckets, 8 ≤ b.id.toList.length

end Db

/-- The same is recorded for a business: the state of its accounts, its inflows, the executions of
its rules, its events and the entries of its buckets. -/
structure SameRecords (businessId : String) (db db' : Db) : Prop where
  accounts : db.accounts.filter (fun a => a.businessId = businessId) =
    db'.accounts.filter fun a => a.businessId = businessId
  ledgerEntries : db.ledgerEntries.filter (fun e => db.Holds businessId e.accountId) =
    db'.ledgerEntries.filter fun e => db'.Holds businessId e.accountId
  ruleExecutions : db.ruleExecutions.filter (fun x => db.Holds businessId x.accountId) =
    db'.ruleExecutions.filter fun x => db'.Holds businessId x.accountId
  processedEvents : db.processedEvents.filter (fun e => e.businessId = some businessId) =
    db'.processedEvents.filter fun e => e.businessId = some businessId
  bucketLedgerEntries :
    db.bucketLedgerEntries.filter (fun e => db.HoldsBucket businessId e.bucketId) =
      db'.bucketLedgerEntries.filter fun e => db'.HoldsBucket businessId e.bucketId

theorem SameRecords.symm_trans {businessId : String} {db db' db'' : Db}
    (h : SameRecords businessId db db'') (h' : SameRecords businessId db' db'') :
    SameRecords businessId db db' where
  accounts := h.accounts.trans h'.accounts.symm
  ledgerEntries := h.ledgerEntries.trans h'.ledgerEntries.symm
  ruleExecutions := h.ruleExecutions.trans h'.ruleExecutions.symm
  processedEvents := h.processedEvents.trans h'.processedEvents.symm
  bucketLedgerEntries := h.bucketLedgerEntries.trans h'.bucketLedgerEntries.symm

namespace Tenants

variable {T : Tenants} {db db' : Db}

/-- **What is not A's decides what is recorded for B.** -/
theorem SameOutside.sameRecords (hT : T.Apart) (h : T.Inv db) (h' : T.Inv db')
    (hsame : T.SameOutside db db') : SameRecords (T.businessId .b) db db' := by
  have hother : ∀ a : Account, a.businessId = T.businessId .b → a.businessId ≠ T.businessId .a :=
    fun a hb ha => hT.businesses (ha.symm.trans hb)
  have hholds : ∀ id, db.Holds (T.businessId .b) id ↔ db'.Holds (T.businessId .b) id :=
    fun id => hsame.accounts.exists_iff (fun a _ hp => hother a hp.1) fun a _ hp => hother a hp.1
  have hbuckets : ∀ id, db.HoldsBucket (T.businessId .b) id ↔
      db'.HoldsBucket (T.businessId .b) id := by
    intro id
    unfold Db.HoldsBucket
    rw [h.configuration.treasuryBuckets, h'.configuration.treasuryBuckets]
  have howns : ∀ id, db.Holds (T.businessId .b) id → T.OwnsAccount .b id := by
    rintro id ⟨a, ha, hbusiness, rfl⟩
    exact (h.owns ha hbusiness).1
  have hownsBucket : ∀ id, db.HoldsBucket (T.businessId .b) id → T.OwnsBucket .b id := by
    rintro id ⟨b, hb, hbusiness, rfl⟩
    exact ⟨b, h.configuration.treasuryBuckets ▸ hb, hbusiness, rfl⟩
  refine ⟨?_, ?_, ?_, ?_, ?_⟩
  · exact hsame.accounts.filter_eq (fun a _ => hother a) fun a _ => hother a
  · rw [hsame.ledgerEntries.filter_eq
      (fun e he hp => h.ledgerEntries_of_account hT (howns _ hp) e he rfl)
      fun e he hp => h'.ledgerEntries_of_account hT (howns _ hp) e he rfl]
    exact List.filter_congr fun e _ => decide_eq_decide.2 (hholds _)
  · rw [hsame.ruleExecutions.filter_eq
      (fun x hx hp hid => (howns _ hp).ne hT (h.ruleExecutions x hx hid))
      fun x hx hp hid => (howns _ hp).ne hT (h'.ruleExecutions x hx hid)]
    exact List.filter_congr fun x _ => decide_eq_decide.2 (hholds _)
  · have hevent : ∀ {db}, T.Inv db → ∀ e ∈ db.processedEvents,
        e.businessId = some (T.businessId .b) → ¬ T.writtenForA e.id := by
      intro db h e he hb hid
      have ha := (h.processedEvents e he hid).2
      rw [hb, Option.some.injEq] at ha
      exact hT.businesses ha.symm
    exact hsame.processedEvents.filter_eq (hevent h) (hevent h')
  · rw [hsame.bucketLedgerEntries.filter_eq
      (fun e he hp => h.bucketLedgerEntries_of_bucket hT (hownsBucket _ hp) e he rfl)
      fun e he hp => h'.bucketLedgerEntries_of_bucket hT (hownsBucket _ hp) e he rfl]
    exact List.filter_congr fun e _ => decide_eq_decide.2 (hbuckets _)

end Tenants

/-! ### The requests of the tenants -/

namespace Request

/-- The job that a request puts on the queue, or that it serves. -/
def IsAbout (runtime : WebhookRuntime) (p : InflowPayload) : Request → Prop
  | webhook rawBody _ => ∃ raw, rawBody = some raw ∧ IsInflowJob runtime raw p
  | dispatch _ eventId eventName _ =>
    ∃ accountNumber, p = EventsService.customEventJob accountNumber eventId eventName
  | serve payload => p = payload
  | simulate .. | elsewhere _ => False

/-- A dispatch by the business, or the job of one. -/
def IsDispatched (db : Db) (businessId : String) : Request → Prop
  | dispatch _ _ _ b => b = businessId
  | serve p => ∃ a ∈ db.accounts, a.businessId = businessId ∧
      ∃ eventId eventName, p = EventsService.customEventJob a.accountNumber eventId eventName
  | webhook .. | simulate .. | elsewhere _ => False

/-- A dispatch by the business, a webhook for one of its accounts, or a job for one. -/
def IsReceived (runtime : WebhookRuntime) (db : Db) (businessId : String) : Request → Prop
  | dispatch _ _ _ b => b = businessId
  | webhook rawBody _ => ∀ raw p, rawBody = some raw → IsInflowJob runtime raw p →
      ∃ a ∈ db.accounts, a.businessId = businessId ∧ a.accountNumber = p.accountNumber
  | serve p => ∃ a ∈ db.accounts, a.businessId = businessId ∧ a.accountNumber = p.accountNumber
  | simulate .. | elsewhere _ => False

end Request

/-- Requests, and the order in which their methods make their calls. Each turn comes with the id
that a row created at it gets. -/
structure Traffic (ι : Type) where
  requests : ι → Request
  sched : List (ι × Env)

namespace Traffic

variable {ι : Type} (runtime : WebhookRuntime) (w₀ : World) (businessA businessB : String)
  (ofA : ι → Prop)

/-- What the traffic leads to. -/
def run [DecidableEq ι] (tr : Traffic ι) : Outcome ι World Env Call Error Unit :=
  exec (fun i => (tr.requests i).method runtime) w₀ tr.sched

/-- Some requests are A's dispatches and their jobs, and all others are B's. The ids generated for A
are new, and not generated for B as well. -/
structure Between (tr : Traffic ι) : Prop where
  dispatched : ∀ i, ofA i → (tr.requests i).IsDispatched w₀.db businessA
  received : ∀ i, ¬ ofA i → (tr.requests i).IsReceived runtime w₀.db businessB
  newIds : ∀ turn ∈ tr.sched, ofA turn.1 → turn.2.row.id ∉ w₀.db.rowIds
  distinctIds : ∀ turn ∈ tr.sched, ∀ turn' ∈ tr.sched, ofA turn.1 → ¬ ofA turn'.1 →
    turn.2.row.id ≠ turn'.2.row.id
  cuids : ∀ turn ∈ tr.sched, ¬ IsCustomId turn.2.row.id

/-- The same requests of B, with the same turns. -/
structure SameForB [DecidablePred ofA] (tr tr' : Traffic ι) : Prop where
  requests : ∀ i, ¬ ofA i → tr.requests i = tr'.requests i
  turns : publicTurns ofA tr.sched = publicTurns ofA tr'.sched

/-- No event of A has the event id of one of B's, nor the transaction reference when the worker
takes it for an inflow. -/
def Distinct (tr : Traffic ι) : Prop :=
  ∀ i j p q, ofA i → ¬ ofA j → (tr.requests i).IsAbout runtime p →
    (tr.requests j).IsAbout runtime q → p.eventId ≠ q.eventId ∧
      (WebhookProcessor.isCustomEvent p = false → p.transactionRef ≠ q.transactionRef)

/-- The tenants of the traffic. -/
def tenants (tr : Traffic ι) : Tenants where
  db₀ := w₀.db
  businessId
    | .a => businessA
    | .b => businessB
  writtenForA id := ∃ turn ∈ tr.sched, ofA turn.1 ∧ turn.2.row.id = id
  eventIds
    | .a, eventId => ∃ i p, ofA i ∧ (tr.requests i).IsAbout runtime p ∧ p.eventId = eventId
    | .b, eventId => ∃ i p, ¬ ofA i ∧ (tr.requests i).IsAbout runtime p ∧ p.eventId = eventId
  transactionRefs
    | .a, ref => ∃ i p, ofA i ∧ (tr.requests i).IsAbout runtime p ∧
        WebhookProcessor.isCustomEvent p = false ∧ p.transactionRef = ref
    | .b, ref => ∃ i p, ¬ ofA i ∧ (tr.requests i).IsAbout runtime p ∧ p.transactionRef = ref

variable {runtime w₀ businessA businessB ofA} {tr tr' : Traffic ι}

theorem apart (hne : businessA ≠ businessB) (hunique : w₀.db.UniqueColumns)
    (hcuids : w₀.db.Cuids) (hdistinct : tr.Distinct runtime ofA) :
    (tr.tenants runtime w₀ businessA businessB ofA).Apart where
  businesses := hne
  eventIds := by
    rintro _ ⟨i, p, hi, hp, rfl⟩ ⟨j, q, hj, hq, heq⟩
    exact (hdistinct i j p q hi hj hp hq).1 heq.symm
  transactionRefs := by
    rintro _ ⟨i, p, hi, hp, hinflow, rfl⟩ ⟨j, q, hj, hq, heq⟩
    exact (hdistinct i j p q hi hj hp hq).2 hinflow heq.symm
  unique := hunique
  bucketIds := hcuids.treasuryBuckets

theorem Between.inv (h : tr.Between runtime w₀ businessA businessB ofA) (hcuids : w₀.db.Cuids) :
    (tr.tenants runtime w₀ businessA businessB ofA).Inv w₀.db := by
  have hnew : ∀ id ∈ w₀.db.rowIds,
      ¬ (tr.tenants runtime w₀ businessA businessB ofA).writtenForA id := by
    rintro _ hid ⟨turn, hturn, ha, rfl⟩
    exact h.newIds turn hturn ha hid
  refine {
    configuration := .refl _
    customers := rfl
    recorded := fun e he => ⟨e, he, rfl⟩
    notCustom := hcuids.ledgerEntries
    transactionRefs := ?_
    ledgerEntries := ?_
    ruleExecutions := ?_
    processedEvents := ?_
    bucketLedgerEntries := ?_ }
  · intro e he
    refine iff_of_false (hnew e.id ?_) fun href => href.2 e he rfl
    simp only [Db.rowIds, List.mem_append, List.mem_map]
    exact .inl (.inl (.inl ⟨e, he, rfl⟩))
  · intro e he hid
    refine absurd hid (hnew e.id ?_)
    simp only [Db.rowIds, List.mem_append, List.mem_map]
    exact .inl (.inl (.inl ⟨e, he, rfl⟩))
  · intro x hx hid
    refine absurd hid (hnew x.id ?_)
    simp only [Db.rowIds, List.mem_append, List.mem_map]
    exact .inl (.inl (.inr ⟨x, hx, rfl⟩))
  · intro e he hid
    refine absurd hid (hnew e.id ?_)
    simp only [Db.rowIds, List.mem_append, List.mem_map]
    exact .inl (.inr ⟨e, he, rfl⟩)
  · intro e he hid
    refine absurd hid (hnew e.id ?_)
    simp only [Db.rowIds, List.mem_append, List.mem_map]
    exact .inr ⟨e, he, rfl⟩

/-- A's methods are confined to what is A's. -/
theorem Between.confined_a (h : tr.Between runtime w₀ businessA businessB ofA)
    (hT : (tr.tenants runtime w₀ businessA businessB ofA).Apart) {i : ι} (hi : ofA i) :
    ((tr.requests i).method runtime).Confined
      ((tr.tenants runtime w₀ businessA businessB ofA).scope .a) fun _ => True := by
  have hdispatched := h.dispatched i hi
  have habout : ∀ p, (tr.requests i).IsAbout runtime p →
      (tr.tenants runtime w₀ businessA businessB ofA).eventIds .a p.eventId ∧
        (WebhookProcessor.isCustomEvent p = false →
          (tr.tenants runtime w₀ businessA businessB ofA).transactionRefs .a p.transactionRef) :=
    fun p hp => ⟨⟨i, p, hi, hp, rfl⟩, fun hinflow => ⟨i, p, hi, hp, hinflow, rfl⟩⟩
  generalize tr.requests i = request at hdispatched habout ⊢
  cases request with
  | webhook rawBody signature => exact absurd hdispatched id
  | simulate params eventUuid transactionUuid => exact absurd hdispatched id
  | elsewhere change => exact absurd hdispatched id
  | dispatch accountRef eventId eventName businessId =>
    exact Tenants.confined_dispatch hT hdispatched (habout _ ⟨"", rfl⟩).1
  | serve payload =>
    obtain ⟨a, ha, hbusiness, eventId, eventName, rfl⟩ := hdispatched
    obtain ⟨hevent, href⟩ := habout _ rfl
    refine Tenants.confined_serveJob hT ⟨a, ha, hbusiness, rfl⟩ hevent fun hor => ?_
    exact href (hor.resolve_left (by simp))

/-- B's methods do not see what is A's. -/
theorem Between.confined_b (h : tr.Between runtime w₀ businessA businessB ofA)
    (hT : (tr.tenants runtime w₀ businessA businessB ofA).Apart) {i : ι} (hi : ¬ ofA i) :
    ((tr.requests i).method runtime).Confined
      ((tr.tenants runtime w₀ businessA businessB ofA).scope .b) fun _ => True := by
  have hreceived := h.received i hi
  have habout : ∀ p, (tr.requests i).IsAbout runtime p →
      (tr.tenants runtime w₀ businessA businessB ofA).eventIds .b p.eventId ∧
        (tr.tenants runtime w₀ businessA businessB ofA).transactionRefs .b p.transactionRef :=
    fun p hp => ⟨⟨i, p, hi, hp, rfl⟩, ⟨i, p, hi, hp, rfl⟩⟩
  generalize tr.requests i = request at hreceived habout ⊢
  cases request with
  | simulate params eventUuid transactionUuid => exact absurd hreceived id
  | elsewhere change => exact absurd hreceived id
  | dispatch accountRef eventId eventName businessId =>
    exact Tenants.confined_dispatch hT hreceived (habout _ ⟨"", rfl⟩).1
  | webhook rawBody signature =>
    refine Tenants.confined_processInflowWebhook hT fun raw body data hraw hparse hdata hne => ?_
    cases hnumber : data.accountNumber with
    | none => simp [hnumber] at hne
    | some accountNumber =>
      obtain ⟨a, ha, hbusiness, hnum⟩ := hreceived raw
        (WebhooksService.inflowJob body data accountNumber) hraw
        ⟨body, data, accountNumber, hparse, hdata, hnumber, rfl⟩
      exact ⟨a, ha, hbusiness, hnum⟩
  | serve payload =>
    obtain ⟨a, ha, hbusiness, hnumber⟩ := hreceived
    obtain ⟨hevent, href⟩ := habout _ rfl
    exact Tenants.confined_serveJob hT ⟨a, ha, hbusiness, hnumber⟩ hevent fun _ => href

variable [DecidableEq ι] [DecidablePred ofA]

/-- The traffic without A's turns: B's methods, started as those of `tr'`. -/
def withoutA (runtime : WebhookRuntime) (w₀ : World) (ofA : ι → Prop) [DecidablePred ofA]
    (tr tr' : Traffic ι) : Outcome ι World Env Call Error Unit :=
  exec (fun i => (tr'.requests i).method runtime) w₀ (publicTurns ofA tr.sched)

/-- A's turns make no difference for B. -/
theorem Between.sameOutcome (h : tr.Between runtime w₀ businessA businessB ofA)
    (hne : businessA ≠ businessB) (hunique : w₀.db.UniqueColumns) (hcuids : w₀.db.Cuids)
    (hdistinct : tr.Distinct runtime ofA)
    (hrequests : ∀ i, ¬ ofA i → tr.requests i = tr'.requests i) :
    SameOutcome ofA (fun w w' => SameRecords businessB w.db w'.db) (tr.run runtime w₀)
      (withoutA runtime w₀ ofA tr tr') := by
  have hT := apart hne hunique hcuids hdistinct
  have hinv := h.inv hcuids
  have hsep := Tenants.separates (T := tr.tenants runtime w₀ businessA businessB ofA)
  have hforB : ∀ turn ∈ tr.sched, ¬ ofA turn.1 →
      ¬ (tr.tenants runtime w₀ businessA businessB ofA).writtenForA turn.2.row.id := by
    rintro turn hturn hb ⟨turn', hturn', ha, heq⟩
    exact h.distinctIds turn' hturn' turn hturn ha hb heq
  obtain ⟨hend, hend', hsame⟩ := hsep.exec hinv hinv (hsep.low_refl w₀)
    (fun i hi => h.confined_a hT hi) (fun i hi => h.confined_b hT hi)
    (fun i hi => congrArg (Request.method runtime) (hrequests i hi))
    (fun turn hturn ha => ⟨⟨turn, hturn, ha, rfl⟩, h.cuids turn hturn⟩)
    (fun turn hturn hb => ⟨hforB turn hturn hb, h.cuids turn hturn⟩)
  exact ⟨hsame.calls, hsame.threads, hsame.state.db.sameRecords hT hend hend'⟩

end Traffic

/-- **Tenants do not deduplicate each other's events**, as long as none of A's events has the event
id of one of B's, nor the transaction reference when the worker takes it for an inflow: whatever A
dispatches and whenever its jobs are served, B's methods make the same calls, with the same results,
and the same is recorded for B. -/
theorem events_stay_apart {ι : Type} [DecidableEq ι] (runtime : WebhookRuntime)
    {businessA businessB : String} (hne : businessA ≠ businessB) {w₀ : World}
    (hunique : w₀.db.UniqueColumns) (hcuids : w₀.db.Cuids) (ofA : ι → Prop) [DecidablePred ofA]
    {tr tr' : Traffic ι} (h : tr.Between runtime w₀ businessA businessB ofA)
    (h' : tr'.Between runtime w₀ businessA businessB ofA) (hsame : tr.SameForB ofA tr')
    (hdistinct : tr.Distinct runtime ofA) (hdistinct' : tr'.Distinct runtime ofA) :
    SameOutcome ofA (fun w w' => SameRecords businessB w.db w'.db) (tr.run runtime w₀)
      (tr'.run runtime w₀) := by
  have hwithout := h.sameOutcome hne hunique hcuids hdistinct fun i _ => (rfl : tr.requests i = _)
  have hwithout' := h'.sameOutcome hne hunique hcuids hdistinct'
    fun i hi => (hsame.requests i hi).symm
  have hcommon :
      Traffic.withoutA runtime w₀ ofA tr' tr = Traffic.withoutA runtime w₀ ofA tr tr := by
    unfold Traffic.withoutA
    rw [hsame.turns]
  rw [hcommon] at hwithout'
  exact {
    calls := hwithout.calls.trans hwithout'.calls.symm
    threads := fun i hi => (hwithout.threads i hi).trans (hwithout'.threads i hi).symm
    state := hwithout.state.symm_trans hwithout'.state }

/-! ### One event id, two businesses -/

namespace Sample

/-- The account of another business. -/
def stall : Account where
  id := "acc2"
  accountRef := "stall"
  nombaAccountId := "nba2"
  accountNumber := "0009998887"
  businessId := "rival"

def twoShops : World where
  db := {
    businesses := [{ id := "biz" }, { id := "rival" }]
    accounts := [account, stall] }

/-- The rival dispatches an event, and its job is served; an inflow of the shop is served. -/
inductive Errand
  | dispatch | event | inflow
deriving DecidableEq

def rivalRequests (eventId : String) : Errand → Request
  | .dispatch => .dispatch "stall" eventId "ping" "rival"
  | .event => .serve (EventsService.customEventJob "0009998887" eventId "ping")
  | .inflow => .serve inflow

def turnsOf (i : Errand) (id : String) : List (Errand × Env) :=
  List.replicate 10 (i, { row := { id } })

def rivalFirst (eventId : String) : Traffic Errand :=
  ⟨rivalRequests eventId,
    turnsOf .dispatch "row1" ++ turnsOf .event "row1" ++ turnsOf .inflow "row2"⟩

def shopAlone (eventId : String) : Traffic Errand :=
  ⟨rivalRequests eventId, turnsOf .inflow "row2"⟩

def ofRival (i : Errand) : Prop := i ≠ .inflow

instance : DecidablePred ofRival := fun i => inferInstanceAs (Decidable (i ≠ .inflow))

theorem uniqueColumns_twoShops : twoShops.db.UniqueColumns := by
  constructor <;> decide

theorem cuids_twoShops : twoShops.db.Cuids := by
  constructor <;> decide

theorem between_of_sublist {eventId : String} {sched : List (Errand × Env)}
    (h : sched ⊆ (rivalFirst eventId).sched) :
    (⟨rivalRequests eventId, sched⟩ : Traffic Errand).Between noWebhooks twoShops "rival" "biz"
      ofRival := by
  -- the ids are generated by who makes the turn
  have hturn : ∀ turn ∈ sched, (ofRival turn.1 ∧ turn.2.row.id = "row1") ∨
      (¬ ofRival turn.1 ∧ turn.2.row.id = "row2") := by
    intro turn hturn
    have hmem := h hturn
    simp only [rivalFirst, turnsOf, List.mem_append, List.mem_replicate] at hmem
    rcases hmem with (⟨-, rfl⟩ | ⟨-, rfl⟩) | ⟨-, rfl⟩
    · exact .inl ⟨by decide, rfl⟩
    · exact .inl ⟨by decide, rfl⟩
    · exact .inr ⟨by decide, rfl⟩
  refine ⟨?_, ?_, ?_, ?_, ?_⟩
  · intro i hi
    cases i with
    | dispatch => rfl
    | event => exact ⟨stall, by decide, rfl, eventId, "ping", rfl⟩
    | inflow => exact absurd rfl hi
  · intro i hi
    cases i with
    | dispatch => exact absurd (by decide) hi
    | event => exact absurd (by decide) hi
    | inflow => exact ⟨account, by decide, rfl, rfl⟩
  · intro turn _ _
    exact List.not_mem_nil
  · intro turn hmem turn' hmem' ha hb
    rcases hturn turn hmem with ⟨-, hid⟩ | ⟨hn, -⟩
    · rcases hturn turn' hmem' with ⟨ha', -⟩ | ⟨-, hid'⟩
      · exact absurd ha' hb
      · rw [hid, hid']
        decide
    · exact absurd ha hn
  · intro turn hmem
    unfold IsCustomId
    rcases hturn turn hmem with ⟨-, hid⟩ | ⟨-, hid⟩
    · rw [hid]
      decide
    · rw [hid]
      decide

theorem between_rivalFirst (eventId : String) :
    (rivalFirst eventId).Between noWebhooks twoShops "rival" "biz" ofRival :=
  between_of_sublist (List.Subset.refl _)

theorem between_shopAlone (eventId : String) :
    (shopAlone eventId).Between noWebhooks twoShops "rival" "biz" ofRival :=
  between_of_sublist (List.subset_append_right _ _)

theorem sameForB (eventId : String) :
    (rivalFirst eventId).SameForB ofRival (shopAlone eventId) where
  requests _ _ := rfl
  turns := rfl

end Sample

/-- Another event id of the rival's makes no difference for the shop. -/
theorem events_stay_apart_other_id :
    SameOutcome Sample.ofRival (fun w w' => SameRecords "biz" w.db w'.db)
      ((Sample.rivalFirst "evt0").run Sample.noWebhooks Sample.twoShops)
      ((Sample.shopAlone "evt0").run Sample.noWebhooks Sample.twoShops) := by
  have hdistinct : ∀ sched : List (Sample.Errand × Env),
      (⟨Sample.rivalRequests "evt0", sched⟩ : Traffic Sample.Errand).Distinct Sample.noWebhooks
        Sample.ofRival := by
    intro sched i j p q hi hj hp hq
    obtain rfl : j = .inflow := not_not.1 hj
    obtain rfl : q = Sample.inflow := hq
    have hjob : ∃ n, p = EventsService.customEventJob n "evt0" "ping" := by
      cases i with
      | dispatch => exact hp
      | event => exact ⟨_, hp⟩
      | inflow => exact absurd rfl hi
    obtain ⟨n, rfl⟩ := hjob
    have hevent : "evt0" ≠ Sample.inflow.eventId := by decide
    have hcustom : WebhookProcessor.isCustomEvent
        (EventsService.customEventJob n "evt0" "ping") = true := rfl
    refine ⟨hevent, fun hinflow => ?_⟩
    rw [hcustom] at hinflow
    cases hinflow
  exact events_stay_apart Sample.noWebhooks (by decide) Sample.uniqueColumns_twoShops
    Sample.cuids_twoShops Sample.ofRival (Sample.between_rivalFirst "evt0")
    (Sample.between_shopAlone "evt0") (Sample.sameForB "evt0") (hdistinct _) (hdistinct _)

/-- **A dispatch discards a foreign inflow.** The rival dispatches an event with the event id of the
shop's inflow: the inflow, which is recorded when nothing is dispatched, never reaches the ledger.
-/
theorem dispatch_discards_foreign_inflow :
    (Sample.rivalFirst "evt1").Between Sample.noWebhooks Sample.twoShops "rival" "biz"
        Sample.ofRival ∧
      (Sample.shopAlone "evt1").Between Sample.noWebhooks Sample.twoShops "rival" "biz"
        Sample.ofRival ∧
      (Sample.rivalFirst "evt1").SameForB Sample.ofRival (Sample.shopAlone "evt1") ∧
      ((Sample.rivalFirst "evt1").run Sample.noWebhooks Sample.twoShops).2.2.db.ledgerEntries = [] ∧
      (((Sample.shopAlone "evt1").run Sample.noWebhooks Sample.twoShops).2.2.db.ledgerEntries.map
        fun e => (e.accountId, e.amountKobo)) = [("acc1", 500)] ∧
      ¬ SameOutcome Sample.ofRival (fun w w' => SameRecords "biz" w.db w'.db)
        ((Sample.rivalFirst "evt1").run Sample.noWebhooks Sample.twoShops)
        ((Sample.shopAlone "evt1").run Sample.noWebhooks Sample.twoShops) := by
  refine ⟨Sample.between_rivalFirst "evt1", Sample.between_shopAlone "evt1",
    Sample.sameForB "evt1", by decide +kernel, by decide +kernel, fun hsame => ?_⟩
  have hcount := congrArg List.length hsame.state.ledgerEntries
  revert hcount
  decide +kernel

end AccountOS
