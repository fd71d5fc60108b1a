import AccountOS.Queue.Correctness.ExecutionCalls
import AccountOS.Queue.Correctness.SuspendedGate
import AccountOS.Rules.Correctness.EventKinds
import AccountOS.Sql.Slice

/-!
# The calls that allocate an inflow

A CREDIT entry with a source is written by the execution of a rule, or by a retry of an execution.
The first executes a rule that its thread has found for an entry that it has recorded itself; the
second goes by what it reads of the execution. For each call of each of them: what it adds to the
tables that matter, and what its thread has done before.
-/

namespace AccountOS

open Conc Sql WebhookProcessor

/-! ### What lasts -/

/-- Rows are never deleted, and of a row these columns never change. -/
structure Db.Extends (db db' : Db) : Prop where
  accounts : ∀ a ∈ db.accounts, ∃ a' ∈ db'.accounts, a'.id = a.id ∧ a'.businessId = a.businessId
  rules : ∀ r ∈ db.rules, ∃ r' ∈ db'.rules, r'.id = r.id ∧ r'.accountId = r.accountId ∧
    r'.action = r.action ∧ r'.payload = r.payload
  ledgerEntries : ∀ e ∈ db.ledgerEntries, ∃ e' ∈ db'.ledgerEntries, e'.id = e.id ∧
    e'.nombaTransactionRef = e.nombaTransactionRef ∧ e'.accountId = e.accountId ∧
    e'.amountKobo = e.amountKobo ∧ e'.cumulativeAmountKobo = e.cumulativeAmountKobo
  treasuryBuckets : db'.treasuryBuckets = db.treasuryBuckets

namespace Db.Extends

variable {db db' db'' : Db}

@[refl] theorem refl (db : Db) : db.Extends db where
  accounts a ha := ⟨a, ha, rfl, rfl⟩
  rules r hr := ⟨r, hr, rfl, rfl, rfl, rfl⟩
  ledgerEntries e he := ⟨e, he, rfl, rfl, rfl, rfl, rfl⟩
  treasuryBuckets := rfl

theorem trans (h : db.Extends db') (h' : db'.Extends db'') : db.Extends db'' where
  accounts a ha := by
    obtain ⟨a', ha', hid, hbusiness⟩ := h.accounts a ha
    obtain ⟨a'', ha'', hid', hbusiness'⟩ := h'.accounts a' ha'
    exact ⟨a'', ha'', hid'.trans hid, hbusiness'.trans hbusiness⟩
  rules r hr := by
    obtain ⟨r', hr', hid, haccount, haction, hpayload⟩ := h.rules r hr
    obtain ⟨r'', hr'', hid', haccount', haction', hpayload'⟩ := h'.rules r' hr'
    exact ⟨r'', hr'', hid'.trans hid, haccount'.trans haccount, haction'.trans haction,
      hpayload'.trans hpayload⟩
  ledgerEntries e he := by
    obtain ⟨e', he', hid, href, haccount, hamount, htotal⟩ := h.ledgerEntries e he
    obtain ⟨e'', he'', hid', href', haccount', hamount', htotal'⟩ := h'.ledgerEntries e' he'
    exact ⟨e'', he'', hid'.trans hid, href'.trans href, haccount'.trans haccount,
      hamount'.trans hamount, htotal'.trans htotal⟩
  treasuryBuckets := h'.treasuryBuckets.trans h.treasuryBuckets

theorem of_accounts {accounts : List Account} (h : ∀ a ∈ db.accounts, ∃ a' ∈ accounts,
    a'.id = a.id ∧ a'.businessId = a.businessId) : db.Extends { db with accounts } :=
  { Extends.refl db with accounts := h }

theorem of_rules {rules : List Rule} (h : ∀ r ∈ db.rules, ∃ r' ∈ rules, r'.id = r.id ∧
    r'.accountId = r.accountId ∧ r'.action = r.action ∧ r'.payload = r.payload) :
    db.Extends { db with rules } :=
  { Extends.refl db with rules := h }

theorem of_ledgerEntries {ledgerEntries : List LedgerEntry}
    (h : ∀ e ∈ db.ledgerEntries, ∃ e' ∈ ledgerEntries, e'.id = e.id ∧
      e'.nombaTransactionRef = e.nombaTransactionRef ∧ e'.accountId = e.accountId ∧
      e'.amountKobo = e.amountKobo ∧ e'.cumulativeAmountKobo = e.cumulativeAmountKobo) :
    db.Extends { db with ledgerEntries } :=
  { Extends.refl db with ledgerEntries := h }

/-- Rows of another table. -/
theorem of_same (haccounts : db'.accounts = db.accounts) (hrules : db'.rules = db.rules)
    (hledger : db'.ledgerEntries = db.ledgerEntries)
    (hbuckets : db'.treasuryBuckets = db.treasuryBuckets) : db.Extends db' where
  accounts a ha := ⟨a, haccounts ▸ ha, rfl, rfl⟩
  rules r hr := ⟨r, hrules ▸ hr, rfl, rfl, rfl, rfl⟩
  ledgerEntries e he := ⟨e, hledger ▸ he, rfl, rfl, rfl, rfl, rfl⟩
  treasuryBuckets := hbuckets

/-- **No statement ever does anything else.** -/
theorem of_apply {o : WriteOp} (hop : o.apply db = .ok db') : db.Extends db' := by
  have hsame := WriteOp.sameExcept hop
  cases o with
  | updateAccountStatus id status =>
    obtain ⟨-, rfl⟩ := updateAccountStatus_eq_ok.1 hop
    exact of_accounts fun a ha => exists_mem_updateRow (fun _ h => h) ⟨a, ha, rfl, rfl⟩
  | updateAccountModel id model =>
    obtain ⟨-, rfl⟩ := updateAccountModel_eq_ok.1 hop
    exact of_accounts fun a ha => exists_mem_updateRow (fun _ h => h) ⟨a, ha, rfl, rfl⟩
  | closeAccount id closedAt closedReason =>
    obtain ⟨-, rfl⟩ := closeAccount_eq_ok.1 hop
    exact of_accounts fun a ha => exists_mem_updateRow (fun _ h => h) ⟨a, ha, rfl, rfl⟩
  | createAccount a =>
    obtain ⟨-, -, -, -, -, -, rfl⟩ := createAccount_eq_ok.1 hop
    exact of_accounts fun x hx => ⟨x, List.mem_append_left _ hx, rfl, rfl⟩
  | archiveRules accountId archivedAt =>
    cases hop
    refine of_rules fun r hr => ⟨_, List.mem_map_of_mem hr, ?_⟩
    split <;> exact ⟨rfl, rfl, rfl, rfl⟩
  | flagRules ids =>
    cases hop
    refine of_rules fun r hr => ⟨_, List.mem_map_of_mem hr, ?_⟩
    split <;> exact ⟨rfl, rfl, rfl, rfl⟩
  | updateRule id data =>
    obtain ⟨-, rfl⟩ := updateRule_eq_ok.1 hop
    exact of_rules fun r hr => exists_mem_updateRow (fun _ h => h) ⟨r, hr, rfl, rfl, rfl, rfl⟩
  | createRule r =>
    obtain ⟨-, -, rfl⟩ := createRule_eq_ok.1 hop
    exact of_rules fun x hx => ⟨x, List.mem_append_left _ hx, rfl, rfl, rfl, rfl⟩
  | createLedgerEntry e =>
    obtain ⟨-, -, -, rfl⟩ := createLedgerEntry_eq_ok.1 hop
    exact of_ledgerEntries fun x hx =>
      ⟨x, List.mem_append_left _ hx, rfl, rfl, rfl, rfl, rfl⟩
  | updateReconciliationByRef ref status =>
    obtain ⟨-, rfl⟩ := updateReconciliationByRef_eq_ok.1 hop
    exact of_ledgerEntries fun e he =>
      exists_mem_updateRow (fun _ h => h) ⟨e, he, rfl, rfl, rfl, rfl, rfl⟩
  | updateReconciliationById id status =>
    obtain ⟨-, rfl⟩ := updateReconciliationById_eq_ok.1 hop
    exact of_ledgerEntries fun e he =>
      exists_mem_updateRow (fun _ h => h) ⟨e, he, rfl, rfl, rfl, rfl, rfl⟩
  | _ =>
    exact of_same (hsame.accounts nofun) (hsame.rules nofun) (hsame.ledgerEntries nofun)
      hsame.treasuryBuckets

end Db.Extends

/-- A rule has been executed for a ledger entry. -/
def Db.HasExecuted (db : Db) (ruleId ledgerEntryId : String) : Prop :=
  ∃ x ∈ db.ruleExecutions, x.ruleId = ruleId ∧ x.triggeredByLedgerEntryId = some ledgerEntryId

/-- What every call does to what lasts. -/
structure World.Extends (w w' : World) : Prop where
  unique : w.db.UniqueColumns → w'.db.UniqueColumns
  rows : w.db.Extends w'.db

/-- Nothing is allocated, and no rule is executed. -/
structure AllocatesNothing (w w' : World) : Prop extends World.Extends w w' where
  executions : ∀ r e, w'.db.HasExecuted r e → w.db.HasExecuted r e
  credits : w'.db.bucketLedgerEntries = w.db.bucketLedgerEntries

theorem AllocatesNothing.of_db {w w' : World} (hdb : w'.db = w.db) : AllocatesNothing w w' := by
  refine ⟨⟨?_, ?_⟩, ?_, ?_⟩
  · rw [hdb]
    exact id
  · rw [hdb]
  · rw [hdb]
    exact fun _ _ h => h
  · rw [hdb]

theorem AllocatesNothing.of_sameData {w w' : World} (h : World.SameData w w') :
    AllocatesNothing w w' :=
  .of_db h.db

/-- The statements that neither execute a rule nor credit a bucket. -/
def WriteOp.Allocates : WriteOp → Prop
  | createRuleExecution _ | createBucketLedgerEntry _ => True
  | _ => False

theorem footprint_allocatesNothing : Footprint (fun o => ¬ o.Allocates) AllocatesNothing where
  sameData h := .of_sameData h
  writes := by
    rintro o w w' db ho hop rfl
    have hsame := WriteOp.sameExcept hop
    refine ⟨⟨fun hunique => hunique.apply hop, .of_apply hop⟩, ?_, ?_⟩
    · rintro r e ⟨x, hx, hrule, hentry⟩
      have hx : x ∈ db.ruleExecutions := hx
      cases o with
      | createRuleExecution _ => exact absurd trivial ho
      | updateRuleExecution id data =>
        obtain ⟨-, rfl⟩ := Db.updateRuleExecution_eq_ok.1 hop
        rcases mem_updateRow_cases hx with ⟨y, hy, -, rfl⟩ | ⟨hy, -⟩
        · exact ⟨y, hy, hrule, hentry⟩
        · exact ⟨x, hy, hrule, hentry⟩
      | archiveExecutions accountId =>
        cases hop
        obtain ⟨y, hy, rfl⟩ := List.mem_map.1 hx
        refine ⟨y, hy, ?_⟩
        split at hrule
        next hif =>
          rw [if_pos hif] at hentry
          exact ⟨hrule, hentry⟩
        next hif =>
          rw [if_neg hif] at hentry
          exact ⟨hrule, hentry⟩
      | _ =>
        have hexecutions : db.ruleExecutions = w.db.ruleExecutions := hsame.ruleExecutions nofun
        rw [hexecutions] at hx
        exact ⟨x, hx, hrule, hentry⟩
    · show db.bucketLedgerEntries = w.db.bucketLedgerEntries
      cases o with
      | createBucketLedgerEntry _ => exact absurd trivial ho
      | _ => exact hsame.bucketLedgerEntries nofun

/-! ### What a call may allocate -/

section Events

variable {ι : Type}

/-- The first calls of a thread: it has found the account `a`, it has recorded the inflow `e`, and
at the call `q` it has read the rules. -/
structure HasEvaluated (past : Calls ι) (a : Account) (e : LedgerEntry)
    (q : Event ι World Env Call) : Prop where
  found : ∃ r, past[1]? = some r ∧ LooksUp r a
  recorded : ∃ x, past[2]? = some x ∧ CommitsEntry x e
  evaluated : past[3]? = some q
  call : q.call = .findRules a.id
  account : e.accountId = a.id

/-- The rules that the thread executes for the inflow, each with its account. -/
def rulesFor (a : Account) (e : LedgerEntry) (q : Event ι World Env Call) :
    List (Rule × RuleAccount) :=
  firing a.executionModel (inflowEvent e.amountKobo e.cumulativeAmountKobo)
    (q.before.db.findRules q.choice.rank a.id)

/-- The thread executes `rule` for the inflow that it has recorded, and that it has found again as
`entry`. -/
def Triggered (past : Calls ι) (entry : TriggerEntry) (rule : EvaluatedRule) : Prop :=
  ∃ a e q, HasEvaluated past a e q ∧ (∃ p ∈ rulesFor a e q, rule = p.1.evaluated p.2) ∧
    ∃ s ∈ past, ∃ e', s.before.db.findLedgerEntry e.nombaTransactionRef = some e' ∧
      entry = e'.trigger

/-- What is executed for a ledger entry that exists. What stands in for the entry of a custom event
is none. -/
def Ready (past : Calls ι) (entry : TriggerEntry) (rule : EvaluatedRule) : Prop :=
  entry.realLedgerEntryId ≠ none → Triggered past entry rule

/-- The entry `c` is what the payload of a rule releases of an inflow, in a bucket that the thread
has found. -/
structure Releases (past : Calls ι) (payload : Option RulePayload) (businessId : String)
    (amountKobo : Int) (nombaTransactionRef : String) (c : BucketLedgerEntry) : Prop where
  amount : releaseAmount (payload.getD {}) amountKobo = some (.ok c.amountKobo)
  reference : c.reference = allocationReference nombaTransactionRef c.bucketId
  bucket : ∃ s ∈ past, ∃ bucketRef b, (payload.getD {}).destinationAccountRef = some bucketRef ∧
    s.before.db.findBucket businessId bucketRef = some b ∧ b.id = c.bucketId

/-- The source of a CREDIT entry: an execution for an inflow, or a retry of one. -/
inductive CreditSource (past : Calls ι) (c : BucketLedgerEntry) : Prop
  | first (rule : EvaluatedRule) (entry : TriggerEntry) (ready : Ready past entry rule)
      (action : rule.action = .releaseFunds) (source : c.sourceLedgerEntryId = some entry.id)
      (releases : Releases past rule.payload rule.account.businessId entry.amountKobo
        entry.nombaTransactionRef c)
  | retry (s : Event ι World Env Call) (hs : s ∈ past) (id : String) (found : FoundExecution)
      (e : LedgerEntry) (read : s.before.db.findRuleExecution id = some found)
      (triggered : found.triggeredByLedgerEntry = some e)
      (action : found.rule.action = .releaseFunds) (source : c.sourceLedgerEntryId = some e.id)
      (releases : Releases past found.rule.payload found.account.businessId e.amountKobo
        e.nombaTransactionRef c)

/-- What a call may do, after the calls that its thread has made. -/
inductive AllocationCall (past : Calls ι) (ev : Event ι World Env Call) : Prop
  | none (h : AllocatesNothing ev.before ev.after)
  | execute (rule : EvaluatedRule) (entry : TriggerEntry) (ready : Ready past entry rule)
      (executions : ∀ r e, ev.after.db.HasExecuted r e → ev.before.db.HasExecuted r e ∨
        r = rule.id ∧ entry.realLedgerEntryId = some e)
      (credits : ev.after.db.bucketLedgerEntries = ev.before.db.bucketLedgerEntries)
  | credit (c : BucketLedgerEntry) (source : CreditSource past c)
      (executions : ∀ r e, ev.after.db.HasExecuted r e → ev.before.db.HasExecuted r e)
      (credits : ev.after.db.bucketLedgerEntries = ev.before.db.bucketLedgerEntries ++ [c])

structure AllocationEvent (past : Calls ι) (ev : Event ι World Env Call) : Prop
    extends World.Extends ev.before ev.after where
  does : AllocationCall past ev

variable {past past' : Calls ι} {rule : EvaluatedRule} {entry : TriggerEntry}

theorem AllocationEvent.none {ev : Event ι World Env Call}
    (h : AllocatesNothing ev.before ev.after) :
    AllocationEvent past ev :=
  ⟨h.toExtends, .none h⟩

theorem AllocationEvent.of_sameData {ev : Event ι World Env Call}
    (h : World.SameData ev.before ev.after) : AllocationEvent past ev :=
  .none (.of_sameData h)

/-- What has been called stays called. -/
theorem getElem?_of_prefix {n : ℕ} {x : Event ι World Env Call} (hpast : past <+: past')
    (hx : past[n]? = some x) : past'[n]? = some x := by
  obtain ⟨later, rfl⟩ := hpast
  rw [List.getElem?_append_left (List.getElem?_eq_some_iff.1 hx).1]
  exact hx

theorem HasEvaluated.mono {a : Account} {e : LedgerEntry} {q : Event ι World Env Call}
    (hpast : past <+: past') (h : HasEvaluated past a e q) : HasEvaluated past' a e q where
  found := by
    obtain ⟨r, hr, hfound⟩ := h.found
    exact ⟨r, getElem?_of_prefix hpast hr, hfound⟩
  recorded := by
    obtain ⟨x, hx, hcommits⟩ := h.recorded
    exact ⟨x, getElem?_of_prefix hpast hx, hcommits⟩
  evaluated := getElem?_of_prefix hpast h.evaluated
  call := h.call
  account := h.account

theorem Ready.mono (hpast : past <+: past') (h : Ready past entry rule) :
    Ready past' entry rule := by
  intro hreal
  obtain ⟨a, e, q, hevaluated, hrule, s, hs, e', hfound, hentry⟩ := h hreal
  exact ⟨a, e, q, hevaluated.mono hpast, hrule, s, hpast.subset hs, e', hfound, hentry⟩

end Events

/-! ### The methods, call by call -/

/-- Every call of the method is as described. -/
abbrev AllocationTraced {ι α : Type} (i : ι) (p : Action α) (past : Calls ι) : Prop :=
  p.Traced i AllocationEvent (fun _ past' => past <+: past') (fun _ past' => past <+: past') past

section Traced

variable {ι α β : Type} {i : ι} {past : Calls ι} {rule : EvaluatedRule} {entry : TriggerEntry}

namespace AllocationTraced

theorem bind {p : Action β} {k : β → Action α} (hp : AllocationTraced i p past)
    (hk : ∀ b past', past <+: past' → AllocationTraced i (k b) past') :
    AllocationTraced i (p.bind k) past := by
  refine Proc.Traced.bind (hp.mono (fun b past' hpast => ?_) fun _ _ h => h)
  exact (hk b past' hpast).mono (fun _ _ h => hpast.trans h) fun _ _ h => hpast.trans h

theorem catching {p : Action α} {k : Error → Action α} (hp : AllocationTraced i p past)
    (hk : ∀ e past', past <+: past' → AllocationTraced i (k e) past') :
    AllocationTraced i (p.catching k) past := by
  refine Proc.Traced.catching (hp.mono (fun _ _ h => h) fun e past' hpast => ?_)
  exact (hk e past' hpast).mono (fun _ _ h => hpast.trans h) fun _ _ h => hpast.trans h

/-- A method that allocates nothing. -/
theorem none {p : Action α} (hp : p.Keeps (fun _ _ _ _ => True) AllocatesNothing) :
    AllocationTraced i p past := by
  refine (hp.traced fun _ _ _ _ h => .none h).mono ?_ ?_
  · rintro _ _ ⟨later, rfl, -⟩
    exact List.prefix_append past later
  · rintro _ _ ⟨later, rfl, -⟩
    exact List.prefix_append past later

/-- A read, and what is done with its result. -/
theorem find {l : Call} {f : Env → Db → β} {k : β → Action α}
    (hk : ∀ env w, AllocationTraced i (k (f env w.db)) (past ++ [⟨i, l, env, w, w⟩])) :
    AllocationTraced i ((AccountOS.find l f).bind k) past := by
  refine Proc.Traced.bind (traced_find (fun env w => ⟨.of_sameData (.refl w), ?_⟩)
    fun env w e w' hsame => ⟨.of_sameData hsame, List.prefix_append past _⟩)
  exact (hk env w).mono (fun _ _ h => (List.prefix_append past _).trans h)
    fun _ _ h => (List.prefix_append past _).trans h

/-- Reading the rules, and what is done with those that match. -/
theorem evaluate {accountId : String} {model : ExecutionModel} {event : RuleEvent}
    {k : List EvaluatedRule → Action α}
    (hk : ∀ env w, AllocationTraced i
      (k (selectMatching model event (w.db.findRules env.rank accountId)))
      (past ++ [⟨i, .findRules accountId, env, w, w⟩])) :
    AllocationTraced i ((AccountOS.evaluate accountId model event).bind k) past := by
  refine Proc.Traced.bind (Proc.Traced.bind (traced_find (fun env w => ⟨.of_sameData (.refl w), ?_⟩)
    fun env w e w' hsame => ⟨.of_sameData hsame, List.prefix_append past _⟩))
  exact (hk env w).mono (fun _ _ h => (List.prefix_append past _).trans h)
    fun _ _ h => (List.prefix_append past _).trans h

end AllocationTraced

/-! #### A credit -/

/-- A call whose credit is new, or whose reference is taken. -/
theorem allocationTraced_credit {p : CreditParams}
    (hsource : ∀ past' c, past <+: past' → c.bucketId = p.bucketId → c.amountKobo = p.amountKobo →
      c.reference = p.reference → c.sourceLedgerEntryId = p.sourceLedgerEntryId →
        CreditSource past' c) : AllocationTraced i (credit p) past := by
  have htx : ∀ past', past <+: past' →
      AllocationTraced i (transaction (.credit p.bucketId p.reference p.amountKobo)
        fun env => creditTx p env.row) past' := by
    intro past' hpast
    refine traced_transaction logsOnly_nothing ?_
      fun env w e w' hsame => ⟨.of_sameData hsame, List.prefix_append past' _⟩
    intro env w a db w' hrun hw'
    refine ⟨?_, List.prefix_append past' _⟩
    rcases (creditTx_run_eq_ok w.db).1 hrun with ⟨e, -, -, rfl⟩ | ⟨-, -, hop⟩
    · rw [hw']
      exact .of_sameData (.refl w)
    · subst hw'
      have hunique : w.db.UniqueColumns → db.UniqueColumns := fun h =>
        h.apply (o := .createBucketLedgerEntry _) hop
      have hrows : w.db.Extends db := .of_apply (o := .createBucketLedgerEntry _) hop
      obtain ⟨-, -, -, -, rfl⟩ := Db.createBucketLedgerEntry_eq_ok.1 hop
      exact ⟨⟨hunique, hrows⟩, .credit _ (hsource past' _ hpast rfl rfl rfl rfl)
        (fun _ _ h => h) rfl⟩
  have hloop : ∀ n past', past <+: past' →
      AllocationTraced i (runSerializable (transaction (.credit p.bucketId p.reference p.amountKobo)
        fun env => creditTx p env.row) n) past' := by
    intro n
    induction n with
    | zero => exact htx
    | succ n ih =>
      intro past' hpast
      refine (htx past' hpast).catching fun err past'' hpast' => ?_
      split
      · exact ih past'' (hpast.trans hpast')
      · exact List.prefix_rfl
  refine (hloop maxRetries past List.prefix_rfl).bind fun cumulative past' _ => ?_
  exact .bind (.none footprint_allocatesNothing.keeps_audit) fun _ _ _ => List.prefix_rfl

/-! #### Executing a rule -/

section Execute

theorem recording_allocatesNothing (o : WriteOp) (h : o.Recording) : ¬ o.Allocates := by
  cases o with
  | updateRuleExecution | updateAccountStatus => exact id
  | _ => cases h

theorem reconciling_allocatesNothing (o : WriteOp) (h : o.Reconciling) : ¬ o.Allocates := by
  cases o with
  | updateReconciliationByRef | updateReconciliationById => exact id
  | _ => cases h

theorem claiming_allocatesNothing (o : WriteOp) (h : o.Claiming) : ¬ o.Allocates := by
  cases o with
  | createProcessedEvent => exact id
  | _ => cases h

theorem allocationTraced_handleReleaseFunds {x : String} (hready : Ready past entry rule)
    (hrule : rule.action = .releaseFunds) :
    AllocationTraced i (handleReleaseFunds x rule.payload rule.account entry) past := by
  have F := footprint_allocatesNothing
  have hfailed : ∀ message past', AllocationTraced i (markExecutionFailed x message) past' :=
    fun _ _ => .none (F.keeps_markExecutionFailed recording_allocatesNothing)
  unfold handleReleaseFunds
  dsimp only
  split
  next => exact hfailed _ _
  next hne =>
    -- past the check there is a destination
    have href : (rule.payload.getD {}).destinationAccountRef =
        some ((rule.payload.getD {}).destinationAccountRef.getD "") := by
      cases h : (rule.payload.getD {}).destinationAccountRef with
      | none => simp [h] at hne
      | some ref => rfl
    refine .find fun env w => ?_
    cases hb : w.db.findBucket rule.account.businessId
      ((rule.payload.getD {}).destinationAccountRef.getD "") with
    | none => exact hfailed _ _
    | some bucket =>
      dsimp only
      split
      next => exact hfailed _ _
      next =>
        split
        next => exact hfailed _ _
        next => exact List.prefix_rfl
        next amount hamount =>
          split
          next => exact .none (F.keeps_markCompleted recording_allocatesNothing)
          next =>
            refine .catching (.bind (allocationTraced_credit ?_) fun cumulative past' _ => ?_)
              fun err past' _ => .none (F.keeps_markRetrying recording_allocatesNothing)
            · intro past' c hpast hbucket hc href' hsource
              refine .first rule entry (hready.mono ((List.prefix_append _ _).trans hpast)) hrule
                hsource ⟨?_, ?_, _,
                  hpast.subset (List.mem_append_right _ (List.mem_singleton_self _)),
                  _, bucket, href, hb, hbucket.symm⟩
              · rw [hc]
                exact hamount
              · rw [href', hbucket]
                rfl
            · refine .bind (.none (F.keeps_markCompleted recording_allocatesNothing))
                fun _ _ _ => ?_
              exact .bind (.none F.keeps_audit) fun _ _ _ => List.prefix_rfl

/-- **The execution of a rule.** -/
theorem allocationTraced_execute (hready : Ready past entry rule) :
    AllocationTraced i (execute rule entry) past := by
  have F := footprint_allocatesNothing
  refine .bind (traced_transaction logsOnly_nothing ?_
    fun _ _ _ _ hsame => ⟨.of_sameData hsame, List.prefix_append past _⟩) fun x past' hpast => ?_
  · intro env w a db w' hrun hw'
    obtain ⟨hop, rfl⟩ := createRuleExecution_run_eq_ok hrun
    subst hw'
    have hunique : w.db.UniqueColumns → db.UniqueColumns := fun h =>
      h.apply (o := .createRuleExecution _) hop
    have hrows : w.db.Extends db := .of_apply (o := .createRuleExecution _) hop
    obtain ⟨-, -, -, -, rfl⟩ := Db.createRuleExecution_eq_ok.1 hop
    refine ⟨⟨⟨hunique, hrows⟩, .execute rule entry hready ?_ rfl⟩, List.prefix_append past _⟩
    rintro r e ⟨y, hy, hid, htriggered⟩
    rcases List.mem_append.1 hy with hy | hy
    · exact .inl ⟨y, hy, hid, htriggered⟩
    · rw [List.mem_singleton.1 hy] at hid htriggered
      exact .inr ⟨hid.symm, htriggered⟩
  · unfold act
    split
    next haction => exact allocationTraced_handleReleaseFunds (hready.mono hpast) haction
    next => exact .none (F.keeps_handleStatusChange recording_allocatesNothing)
    next => exact .none (F.keeps_handleStatusChange recording_allocatesNothing)
    next => exact .none (F.keeps_handleStatusChange recording_allocatesNothing)
    next =>
      exact .none (F.keeps_handleFlagForReview recording_allocatesNothing
        (.inr reconciling_allocatesNothing))
    next => exact .none (F.keeps_handleNotifyWebhook recording_allocatesNothing)

theorem allocationTraced_executeAll {after : ExecutionResult → Action Unit}
    (hafter : ∀ r, (after r).Keeps (fun _ _ _ _ => True) AllocatesNothing)
    {rules : List EvaluatedRule} (hready : ∀ rule ∈ rules, Ready past entry rule) :
    AllocationTraced i (executeAll after entry rules) past := by
  induction rules generalizing past with
  | nil => exact List.prefix_rfl
  | cons rule rules ih =>
    refine .bind (allocationTraced_execute (hready rule List.mem_cons_self)) fun r past' hpast => ?_
    refine .bind (.none (hafter r)) fun _ past'' hpast' => ?_
    exact ih fun rule' hrule' =>
      (hready rule' (List.mem_cons_of_mem _ hrule')).mono (hpast.trans hpast')

end Execute

/-! #### A retry -/

section Retry

open RetryProcessor

theorem allocationTraced_attemptRelease {found : FoundExecution} {attempt : Nat}
    {s : Event ι World Env Call} {id : String} (hs : s ∈ past)
    (hread : s.before.db.findRuleExecution id = some found)
    (haction : found.rule.action = .releaseFunds) :
    AllocationTraced i (attemptRelease found attempt) past := by
  unfold attemptRelease
  dsimp only
  split
  next => exact List.prefix_rfl
  next hne =>
    have href : (found.rule.payload.getD {}).destinationAccountRef =
        some ((found.rule.payload.getD {}).destinationAccountRef.getD "") := by
      cases h : (found.rule.payload.getD {}).destinationAccountRef with
      | none => simp [h] at hne
      | some ref => rfl
    refine .find fun env w => ?_
    cases hb : w.db.findBucket found.account.businessId
      ((found.rule.payload.getD {}).destinationAccountRef.getD "") with
    | none => exact List.prefix_rfl
    | some bucket =>
      cases he : found.triggeredByLedgerEntry with
      | none => exact List.prefix_rfl
      | some e =>
        dsimp only
        split
        next => exact List.prefix_rfl
        next => exact List.prefix_rfl
        next amount hamount =>
          refine .catching (.bind (allocationTraced_credit ?_) fun _ _ _ => List.prefix_rfl)
            fun _ _ _ => List.prefix_rfl
          intro past' c hpast hbucket hc href' hsource
          have hread' : s ∈ past' := hpast.subset (List.mem_append_left _ hs)
          refine .retry s hread' id found e hread he haction hsource ⟨?_, ?_, _,
            hpast.subset (List.mem_append_right _ (List.mem_singleton_self _)), _, bucket, href, hb,
            hbucket.symm⟩
          · rw [hc]
            exact hamount
          · rw [href', hbucket]
            rfl

theorem allocationTraced_settleOutcome {job : RetryDelivery} {found : FoundExecution}
    {outcome : AttemptOutcome} : AllocationTraced i (settleOutcome job found outcome) past := by
  have F := footprint_allocatesNothing
  have hrecord : ∀ (data : Nat → RuleExecutionData) past',
      AllocationTraced i (updateRuleExecution job.ruleExecutionId data) past' :=
    fun _ _ => .none (F.keeps_updateRuleExecution recording_allocatesNothing)
  unfold settleOutcome
  dsimp only
  split
  next => exact .bind (hrecord _ _) fun _ _ _ => .none F.keeps_audit
  next =>
    split
    next => exact .bind (hrecord _ _) fun _ _ _ => .none F.keeps_audit
    next => exact .bind (hrecord _ _) fun _ _ _ => List.prefix_rfl

/-- **A retry.** -/
theorem allocationTraced_retry {job : RetryDelivery} : AllocationTraced i (process job) past := by
  have F := footprint_allocatesNothing
  refine .find fun env w => ?_
  cases hfound : w.db.findRuleExecution job.ruleExecutionId with
  | none => exact List.prefix_rfl
  | some found =>
    dsimp only
    split
    next => exact List.prefix_rfl
    next =>
      split
      next haction =>
        refine .bind (allocationTraced_attemptRelease
          (List.mem_append_right _ (List.mem_singleton_self _)) hfound haction) fun _ _ _ => ?_
        exact allocationTraced_settleOutcome
      next =>
        refine .bind (.none ?_) fun _ _ _ => allocationTraced_settleOutcome
        unfold attemptNotify
        dsimp only
        split
        next => trivial
        next =>
          refine Proc.Keeps.bind F.keeps_deliver fun result => ?_
          cases result <;> trivial
      next => exact .none (F.keeps_updateRuleExecution recording_allocatesNothing)

end Retry

/-! #### A delivery -/

section Delivery

variable {payload : InflowPayload} {account : Account}

theorem allocationTraced_customEvent :
    AllocationTraced i (processCustomEvent payload account) past := by
  have F := footprint_allocatesNothing
  refine .bind (.none (F.keeps_claim claiming_allocatesNothing)) fun claimed past' _ => ?_
  cases claimed with
  | false => exact List.prefix_rfl
  | true =>
    refine .bind (.none F.keeps_evaluate) fun rules past' _ => ?_
    refine .bind ?_ fun _ _ _ => .none F.keeps_audit
    unfold executeForEvent
    split
    next => exact List.prefix_rfl
    next =>
      refine .bind (.none F.keeps_find) fun business past' _ => ?_
      cases business with
      | none => exact List.prefix_rfl
      | some b =>
        refine allocationTraced_executeAll ?_ fun rule _ hreal => ?_
        · exact fun _ => trivial
        · exact absurd Footprint.realLedgerEntryId_pseudoLedgerEntry hreal

/-- Executing the rules that a thread has found for the inflow that it has recorded. -/
theorem allocationTraced_settleInflow {a : Account} {e : LedgerEntry} {q : Event ι World Env Call}
    (h : HasEvaluated past a e q) (href : e.nombaTransactionRef = payload.transactionRef) :
    AllocationTraced i (settleInflow payload account
      ((rulesFor a e q).map fun p => p.1.evaluated p.2)) past := by
  have F := footprint_allocatesNothing
  have hreconcile : ∀ status matchedRules past', AllocationTraced i
      (WebhookProcessor.reconcile payload account status matchedRules) past' :=
    fun _ _ _ => .none (F.keeps_reconcile reconciling_allocatesNothing)
  unfold settleInflow
  split
  next => exact hreconcile _ _ _
  next =>
    refine .bind ?_ fun _ _ _ => hreconcile _ _ _
    refine .bind (.none F.keeps_find) fun business past' hpast => ?_
    cases business with
    | none => exact List.prefix_rfl
    | some b =>
      refine .find fun env w => ?_
      cases hrecord : w.db.findLedgerEntry payload.transactionRef with
      | none => exact List.prefix_rfl
      | some e' =>
        refine allocationTraced_executeAll ?_ fun rule hrule _ => ?_
        · intro result
          unfold enqueueIfRetrying
          split
          next => exact F.keeps_enqueueRetry fun _ => .of_db rfl
          next => trivial
        · obtain ⟨p, hp, rfl⟩ := List.mem_map.1 hrule
          refine ⟨a, e, q, h.mono (hpast.trans (List.prefix_append _ _)), ⟨p, hp, rfl⟩, _,
            List.mem_append_right _ (List.mem_singleton_self _), e', ?_, rfl⟩
          rw [href]
          exact hrecord

/-- An inflow that has been recorded. -/
theorem allocationTraced_recorded {a : Account} {e : LedgerEntry} {x₀ r x : Event ι World Env Call}
    (hfound : LooksUp r a) (hx : CommitsEntry x e) (haccount : e.accountId = a.id)
    (hamount : payload.amountKobo = e.amountKobo)
    (href : e.nombaTransactionRef = payload.transactionRef) :
    AllocationTraced i ((bigIntOrThrow payload.amountKobo).bind fun amountKobo =>
      (evaluate a.id a.executionModel (inflowEvent amountKobo e.cumulativeAmountKobo)).bind
        fun matchingRules => (settleInflow payload a matchingRules).bind fun _ =>
          createProcessedEvent payload "NOMBA_INFLOW" a) [x₀, r, x] := by
  have hreturns : bigIntOrThrow payload.amountKobo = .ret e.amountKobo := by
    rw [bigIntOrThrow, bigInt_eq_ok.2 hamount]
  rw [hreturns]
  refine .evaluate fun env w => ?_
  have hevaluated : HasEvaluated ([x₀, r, x] ++ [⟨i, .findRules a.id, env, w, w⟩]) a e
      ⟨i, .findRules a.id, env, w, w⟩ :=
    ⟨⟨r, rfl, hfound⟩, ⟨x, rfl, hx⟩, rfl, rfl, haccount⟩
  rw [selectMatching_eq_map]
  exact (allocationTraced_settleInflow hevaluated href).bind fun _ _ _ =>
    .none (footprint_allocatesNothing.keeps_createProcessedEvent claiming_allocatesNothing)

/-- Recording an inflow, and what is done with its account's new total. -/
theorem allocationTraced_writeInflow {found : FoundAccount} {status : ReconciliationStatus}
    {k : Int → Action Unit}
    (hk : ∀ x e, CommitsEntry x e → e.accountId = found.account.id →
      payload.amountKobo = e.amountKobo → e.nombaTransactionRef = payload.transactionRef →
      AllocationTraced i (k e.cumulativeAmountKobo) (past ++ [x])) :
    AllocationTraced i ((writeInflow (inflowDto payload found) status).bind k) past := by
  refine Proc.Traced.bind (traced_transaction logsOnly_nothing ?_
    fun _ _ _ _ hsame => ⟨.of_sameData hsame, List.prefix_append past _⟩)
  intro env w total db w' hrun hw'
  obtain ⟨amountKobo, hamount, rfl, hop⟩ := (writeInflowTx_run_eq_ok w.db).1 hrun
  have hnothing : AllocatesNothing w w' :=
    footprint_allocatesNothing.writes (o := .createLedgerEntry _) id hop hw'
  obtain ⟨-, -, -, hdb⟩ := Db.createLedgerEntry_eq_ok.1 hop
  have hcommits : CommitsEntry (⟨i, .writeInflow payload.transactionRef, env, w, w'⟩ :
      Event ι World Env Call) ((inflowDto payload found).entry status env amountKobo
        (w.db.inflowSum found.account.id)) := by
    rw [CommitsEntry, hw', hdb]
    rfl
  refine ⟨.none hnothing, ?_⟩
  exact (hk _ _ hcommits rfl hamount rfl).mono (fun _ _ h => (List.prefix_append past _).trans h)
    fun _ _ h => (List.prefix_append past _).trans h

/-- **The processing of a delivery.** -/
theorem allocationTraced_process : AllocationTraced i (process payload) [] := by
  have haudit : ∀ (entry : AuditLogEntry) past', AllocationTraced i (audit entry) past' :=
    fun _ _ => .none footprint_allocatesNothing.keeps_audit
  refine AllocationTraced.catching (.find fun env₀ w₀ => ?_) fun err past' _ => ?_
  · cases w₀.db.findProcessedEvent payload.eventId with
    | some _ => exact haudit _ _
    | none =>
      refine .find fun env w => ?_
      cases hfound : w.db.findAccount payload.accountNumber with
      | none => exact haudit _ _
      | some a =>
        have hlooked : LooksUp (⟨i, .findAccount payload.accountNumber, env, w, w⟩ :
            Event ι World Env Call) a := ⟨_, rfl, hfound⟩
        dsimp only [Option.map_some]
        split
        next => exact allocationTraced_customEvent
        next =>
          split
          next => exact allocationTraced_writeInflow fun _ _ _ _ _ _ => haudit _ _
          next => exact haudit _ _
          next => exact haudit _ _
          next =>
            exact allocationTraced_writeInflow fun x e hx haccount hamount href =>
              allocationTraced_recorded hlooked hx haccount hamount href
  · split
    · exact haudit _ _
    · exact List.prefix_rfl

end Delivery

end Traced

end AccountOS
