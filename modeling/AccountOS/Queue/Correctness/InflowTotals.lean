import AccountOS.Accounts.Correctness.TerminalStates
import AccountOS.Queue.Correctness.AllocationCalls
import AccountOS.Rules.Correctness.Calls
import AccountOS.Rules.Correctness.ReleaseTotals

/-!
# How much of an inflow is allocated

Workers process deliveries and retries, while rule sets are replaced, rules are enabled and deleted,
and accounts are opened and closed. All that is ever credited of an inflow was released by the rules
that were found when it was evaluated, each of them once: retries go by the same rules, whose
payloads never change, and by the same references.

`inflow_allocations_bounded`: if the rule set in force was an accepted one, the credits are at most
the inflow and the fixed amounts of the rules that it matched. `fixed_amount_exceeds_inflow` is an
inflow that is smaller than a fixed amount.
-/

namespace AccountOS

open Conc Sql WebhookProcessor

/-! ### The threads -/

/-- What runs: the workers of the two queues, and requests that change rules or accounts. -/
inductive AllocationThread
  | deliver (payload : InflowPayload)
  | retry (job : RetryProcessor.RetryDelivery)
  | rules (op : RulesOp)
  | provision (dto : ProvisionAccountDto) (businessId : String)
  | status (op : StatusOp)

def AllocationThread.run (isUrl : String → Bool) : AllocationThread → Action Unit
  | deliver payload => process payload
  | retry job => RetryProcessor.process job
  | rules op => op.run isUrl
  | provision dto businessId => (provisionAccount isUrl dto businessId).bind fun _ => .ret ()
  | status op => op.run

section Threads

variable {ι α : Type} {i : ι} {past : Calls ι}

theorem AllocatesNothing.of_apply {o : WriteOp} {w w' : World} {db : Db} (ho : ¬ o.Allocates)
    (hop : o.apply w.db = .ok db) (hdb : w'.db = db) : AllocatesNothing w w' := by
  have h : AllocatesNothing w { w with db } := footprint_allocatesNothing.writes ho hop rfl
  have h' : AllocatesNothing { w with db } w' := .of_db hdb
  exact ⟨⟨fun hunique => h'.unique (h.unique hunique), h.rows.trans h'.rows⟩,
    fun r e hr => h.executions r e (h'.executions r e hr), h'.credits.trans h.credits⟩

/-- Requests that change rules allocate nothing. -/
theorem RulesEvent.allocatesNothing {tiers : String → KycTier → Prop}
    {ev : Event ι World Env Call} (h : RulesEvent tiers past ev) :
    AllocatesNothing ev.before ev.after := by
  have hstatement : ∀ o : WriteOp, o.table = .rules ∨ o.table = .customers →
      o.apply ev.before.db = .ok ev.after.db → AllocatesNothing ev.before ev.after := by
    intro o ho hop
    refine .of_apply (o := o) ?_ hop rfl
    cases o <;> simp [WriteOp.table, WriteOp.Allocates] at ho ⊢
  rcases h.does.writes_cases with hdb | ⟨o, ho, hop⟩ | ⟨id, kycTier, -, -, hop⟩ |
    ⟨accounts, added, hdb, haccounts⟩
  · exact .of_db hdb
  · exact hstatement o (.inl ho) hop
  · exact hstatement (.updateCustomerTier id kycTier) (.inr rfl) hop
  · refine ⟨⟨h.unique, ?_⟩, ?_, ?_⟩
    · rw [hdb]
      refine { Db.Extends.refl ev.before.db with
        accounts := fun x hx => ?_
        rules := fun x hx => ⟨x, List.mem_append_left _ hx, rfl, rfl, rfl, rfl⟩ }
      rcases haccounts with ⟨id, executionModel, rfl⟩ | ⟨a, -, rfl⟩
      · exact exists_mem_updateRow (fun _ h => h) ⟨x, hx, rfl, rfl⟩
      · exact ⟨x, List.mem_append_left _ hx, rfl, rfl⟩
    · rw [hdb]
      exact fun _ _ h => h
    · rw [hdb]

/-- So do requests that change statuses. -/
theorem StatusOp.keeps_run (op : StatusOp) :
    op.run.Keeps (fun _ _ _ _ => True) AllocatesNothing := by
  have F := footprint_allocatesNothing
  have hupdate : ∀ {l : Call} {id : String} {op : Env → WriteOp}, (∀ env, ¬ (op env).Allocates) →
      (transaction l fun env => updateAccountTx id (op env)).Keeps (fun _ _ _ _ => True)
        AllocatesNothing := by
    intro l id op hop
    refine F.keeps_transaction logsOnly_nothing ?_
    intro env w a db w' hrun hw'
    simp only [updateAccountTx, Tx.bind_eq, Tx.run_bind_eq_ok, Tx.run_exec_eq_ok, schema_apply,
      Tx.run_query] at hrun
    obtain ⟨_, db', happly, hquery⟩ := hrun
    cases hquery
    exact F.writes (hop env) happly hw'
  cases op with
  | updateStatus accountRef dto businessId actor =>
    refine Proc.Keeps.bind (Proc.Keeps.bind F.keeps_find fun account => ?_) fun _ => trivial
    cases account with
    | none => trivial
    | some account =>
      dsimp only
      split
      next => trivial
      next =>
        split
        next => trivial
        next =>
          split
          next => trivial
          next =>
            refine Proc.Keeps.bind (hupdate fun _ => id) fun updated => ?_
            exact Proc.Keeps.bind F.keeps_audit fun _ => trivial
  | closeAccount accountRef businessId actor =>
    refine Proc.Keeps.bind (Proc.Keeps.bind F.keeps_find fun account => ?_) fun _ => trivial
    -- the archiving, the request to Nomba, and the update
    have hclose : ∀ account, (close account businessId actor).Keeps (fun _ _ _ _ => True)
        AllocatesNothing := by
      intro account
      refine Proc.Keeps.bind (F.keeps_transaction logsOnly_nothing ?_) fun archivedCount => ?_
      · intro env w count db w' hrun hw'
        have hop := archiveExecutionsTx_run_eq_ok hrun
        exact F.writes (o := .archiveExecutions account.id) id hop hw'
      · refine Proc.Keeps.bind (Proc.Keeps.call fun env w _ => ?_) fun _ => ?_
        · cases env.fault <;> exact .of_db rfl
        · refine Proc.Keeps.bind (hupdate fun _ => id) fun updated => ?_
          exact Proc.Keeps.bind F.keeps_audit fun _ => trivial
    cases account with
    | none => trivial
    | some account =>
      dsimp only
      split
      next => trivial
      next => trivial
      next => exact hclose account
      next => exact hclose account
  | rule change executionId account =>
    cases change <;>
      exact Proc.Keeps.bind (F.keeps_handleStatusChange recording_allocatesNothing) fun _ => trivial

/-- **Every call of every thread.** -/
theorem AllocationThread.traced_run {isUrl : String → Bool} (thread : AllocationThread) :
    (thread.run isUrl).Traced i AllocationEvent (fun _ _ => True) (fun _ _ => True) [] := by
  cases thread with
  | deliver payload =>
    exact allocationTraced_process.mono (fun _ _ _ => trivial) fun _ _ _ => trivial
  | retry job => exact allocationTraced_retry.mono (fun _ _ _ => trivial) fun _ _ _ => trivial
  | rules op =>
    refine (op.traced_run.imp fun past ev _ hev => ?_).mono (fun _ _ _ => trivial)
      fun _ _ _ => trivial
    exact .none hev.allocatesNothing
  | provision dto businessId =>
    have htraced : RulesTraced (fun _ _ => False) i (fun _ _ => True)
        ((provisionAccount isUrl dto businessId).bind fun _ => .ret ()) [] :=
      Proc.Traced.bind (traced_provisionAccount.mono (fun _ _ _ => trivial) fun _ _ h => h)
    refine (htraced.imp fun past ev _ hev => ?_).mono (fun _ _ _ => trivial) fun _ _ _ => trivial
    exact .none hev.allocatesNothing
  | status op =>
    have htraced : AllocationTraced i op.run [] := .none op.keeps_run
    exact htraced.mono (fun _ _ _ => trivial) fun _ _ _ => trivial

end Threads

/-! ### What lasts, to the end of a run -/

namespace Db.Extends

variable {db₁ db₂ db : Db} (h₁ : db₁.Extends db) (h₂ : db₂.Extends db) (unique : db.UniqueColumns)
include h₁ h₂ unique

/-- Two entries with one id, or with one reference, are one entry. -/
theorem same_entry {e e' : LedgerEntry} (he : e ∈ db₁.ledgerEntries) (he' : e' ∈ db₂.ledgerEntries)
    (hkey : e'.id = e.id ∨ e'.nombaTransactionRef = e.nombaTransactionRef) :
    e'.id = e.id ∧ e'.nombaTransactionRef = e.nombaTransactionRef ∧ e'.accountId = e.accountId ∧
      e'.amountKobo = e.amountKobo ∧ e'.cumulativeAmountKobo = e.cumulativeAmountKobo := by
  obtain ⟨x, hx, hid, href, haccount, hamount, htotal⟩ := h₁.ledgerEntries e he
  obtain ⟨y, hy, hid', href', haccount', hamount', htotal'⟩ := h₂.ledgerEntries e' he'
  obtain rfl : y = x := by
    rcases hkey with hkey | hkey
    · exact eq_of_key_eq unique.ledgerEntries hy hx (by rw [hid', hid, hkey])
    · exact eq_of_key_eq unique.transactionRefs hy hx (by rw [href', href, hkey])
  exact ⟨hid'.symm.trans hid, href'.symm.trans href, haccount'.symm.trans haccount,
    hamount'.symm.trans hamount, htotal'.symm.trans htotal⟩

theorem same_rule {r r' : Rule} (hr : r ∈ db₁.rules) (hr' : r' ∈ db₂.rules) (hkey : r'.id = r.id) :
    r'.accountId = r.accountId ∧ r'.action = r.action ∧ r'.payload = r.payload := by
  obtain ⟨x, hx, hid, haccount, haction, hpayload⟩ := h₁.rules r hr
  obtain ⟨y, hy, hid', haccount', haction', hpayload'⟩ := h₂.rules r' hr'
  obtain rfl : y = x := eq_of_key_eq unique.rules hy hx (by rw [hid', hid, hkey])
  exact ⟨haccount'.symm.trans haccount, haction'.symm.trans haction,
    hpayload'.symm.trans hpayload⟩

theorem same_business {a a' : Account} (ha : a ∈ db₁.accounts) (ha' : a' ∈ db₂.accounts)
    (hkey : a'.id = a.id) : a'.businessId = a.businessId := by
  obtain ⟨x, hx, hid, hbusiness⟩ := h₁.accounts a ha
  obtain ⟨y, hy, hid', hbusiness'⟩ := h₂.accounts a' ha'
  obtain rfl : y = x := eq_of_key_eq unique.accounts hy hx (by rw [hid', hid, hkey])
  exact hbusiness'.symm.trans hbusiness

omit h₂ unique in
theorem findBucket (businessId bucketRef : String) :
    db₁.findBucket businessId bucketRef = db.findBucket businessId bucketRef := by
  unfold Db.findBucket
  rw [h₁.treasuryBuckets]

end Db.Extends

/-! ### Where the credits come from -/

/-- Nothing has been done about a ledger entry: no rule was executed for it, and no bucket was
credited of it. -/
structure Db.NothingFrom (db : Db) (ledgerEntryId : String) : Prop where
  executions : ∀ ruleId, ¬ db.HasExecuted ruleId ledgerEntryId
  credits : ∀ c ∈ db.bucketLedgerEntries, c.sourceLedgerEntryId ≠ some ledgerEntryId

/-- What has been credited of a ledger entry, to all buckets. -/
def Db.allocatedFrom (db : Db) (ledgerEntryId : String) : Int :=
  sumWhere (fun c => c.entryType = .credit ∧ c.sourceLedgerEntryId = some ledgerEntryId)
    BucketLedgerEntry.amountKobo db.bucketLedgerEntries

/-- The thread that has recorded the inflow `e` has found the rule for it. -/
def Chosen {ι : Type} [DecidableEq ι] (hist : List (Event ι World Env Call)) (e : LedgerEntry)
    (p : Rule × RuleAccount) : Prop :=
  ∃ j a q, HasEvaluated (callsOf j hist) a e q ∧ p ∈ rulesFor a e q

/-- The credit `c` is what the rule releases of the inflow `e`. -/
structure ReleasedBy (db : Db) (e : LedgerEntry) (p : Rule × RuleAccount) (c : BucketLedgerEntry) :
    Prop where
  action : p.1.action = .releaseFunds
  amount : releaseAmount (p.1.payload.getD {}) e.amountKobo = some (.ok c.amountKobo)
  bucket : ∃ bucketRef b, (p.1.payload.getD {}).destinationAccountRef = some bucketRef ∧
    db.findBucket p.2.businessId bucketRef = some b ∧ b.id = c.bucketId
  reference : c.reference = allocationReference e.nombaTransactionRef c.bucketId

/-- An id that is that of a ledger entry, and not what stands in for one. -/
theorem eq_of_realLedgerEntryId {entry : TriggerEntry} {id : String}
    (h : entry.realLedgerEntryId = some id) : entry.id = id ∧ entry.realLedgerEntryId ≠ none := by
  refine ⟨?_, by simp [h]⟩
  unfold TriggerEntry.realLedgerEntryId at h
  split at h
  next => cases h
  next => exact Option.some_inj.1 h

theorem realLedgerEntryId_congr {entry entry' : TriggerEntry} (h : entry.id = entry'.id) :
    entry.realLedgerEntryId = entry'.realLedgerEntryId := by
  unfold TriggerEntry.realLedgerEntryId
  rw [h]

section Runs

variable {ι : Type} [DecidableEq ι] {isUrl : String → Bool} {threads : ι → AllocationThread}
  {w₀ w : World} {hist : List (Event ι World Env Call)} {ps : ι → Action Unit}
  (run : Run (fun _ _ _ _ => True) (fun i => (threads i).run isUrl) w₀ hist ps w)
include run

theorem allocationEvent_of_run {n : ℕ} {ev : Event ι World Env Call} (hev : hist[n]? = some ev) :
    AllocationEvent (callsOf ev.who (hist.take n)) ev :=
  (run.traced fun i => (threads i).traced_run).1 n ev hev

theorem unique_after (hunique : w₀.db.UniqueColumns) (n : ℕ) :
    (stateAt hist w n).db.UniqueColumns :=
  run.always (I := fun w => w.db.UniqueColumns) hunique
    (fun _ _ hev => (allocationEvent_of_run run hev).unique) n

theorem extends_stateAt {m n : ℕ} (hmn : m ≤ n) :
    (stateAt hist w m).db.Extends (stateAt hist w n).db :=
  run.persists (P := fun s => (stateAt hist w m).db.Extends s.db) hmn (.refl _)
    fun _ _ _ _ hev h => h.trans (allocationEvent_of_run run hev).rows

/-- What a call has found lasts to the end, and so does what it has left. -/
theorem extends_end {n : ℕ} {ev : Event ι World Env Call} (hev : hist[n]? = some ev) :
    ev.before.db.Extends w.db ∧ ev.after.db.Extends w.db := by
  have hlt := (List.getElem?_eq_some_iff.1 hev).1
  have hend : stateAt hist w hist.length = w := stateAt_of_le le_rfl
  have hbefore := extends_stateAt run (le_of_lt hlt)
  have hafter := extends_stateAt run (Nat.succ_le_of_lt hlt)
  rw [hend] at hbefore hafter
  rw [stateAt_eq_before hev] at hbefore
  rw [run.stateAt_succ hev] at hafter
  exact ⟨hbefore, hafter⟩

/-- A call that a thread has made before a point of the run. -/
theorem extends_of_mem_callsOf {j : ι} {n : ℕ} {ev : Event ι World Env Call}
    (hev : ev ∈ callsOf j (hist.take n)) :
    ev.before.db.Extends w.db ∧ ev.after.db.Extends w.db := by
  obtain ⟨-, m, -, hm⟩ := mem_callsOf_take.1 hev
  exact extends_end run hm

/-- An inflow that a thread evaluates has been recorded. -/
theorem recorded_of_hasEvaluated {j : ι} {a : Account} {e : LedgerEntry}
    {q : Event ι World Env Call} (h : HasEvaluated (callsOf j hist) a e q) :
    ∃ db : Db, db.Extends w.db ∧ e ∈ db.ledgerEntries := by
  obtain ⟨x, hx, hcommits⟩ := h.recorded
  obtain ⟨-, m, hm⟩ := mem_callsOf.1 (List.mem_of_getElem? hx)
  refine ⟨x.after.db, (extends_end run hm).2, ?_⟩
  rw [hcommits]
  exact List.mem_append_right _ (List.mem_singleton_self e)

namespace Chosen

variable {e : LedgerEntry} {p : Rule × RuleAccount} (h : Chosen hist e p)
include h

/-- An inflow that rules were chosen for has been recorded. -/
theorem entry : ∃ db : Db, db.Extends w.db ∧ e ∈ db.ledgerEntries := by
  obtain ⟨j, a, q, hevaluated, -⟩ := h
  exact recorded_of_hasEvaluated run hevaluated

/-- The rules that were chosen are rules of the database, with their accounts. -/
theorem rule : ∃ db : Db, db.Extends w.db ∧ p.1 ∈ db.rules ∧
    ∃ a ∈ db.accounts, a.id = p.1.accountId ∧ p.2 = a.forRule := by
  obtain ⟨j, a, q, hevaluated, hp⟩ := h
  obtain ⟨-, m, hm⟩ := mem_callsOf.1 (List.mem_of_getElem? hevaluated.evaluated)
  obtain ⟨hrule, ⟨haccount, -⟩, x, hx, hid, hforRule⟩ :=
    Db.mem_findRules (mem_of_mem_firing hp).1
  exact ⟨q.before.db, (extends_end run hm).1, hrule, x, hx, hid.trans haccount.symm, hforRule⟩

end Chosen

/-- What is executed for an inflow was chosen for it. -/
theorem chosen_of_triggered (hunique : w.db.UniqueColumns) {j : ι} {n : ℕ} {entry : TriggerEntry}
    {rule : EvaluatedRule} (h : Triggered (callsOf j (hist.take n)) entry rule) :
    ∃ e p, Chosen hist e p ∧ rule = p.1.evaluated p.2 ∧ entry.id = e.id ∧
      entry.amountKobo = e.amountKobo ∧ entry.nombaTransactionRef = e.nombaTransactionRef := by
  obtain ⟨a, e, q, hevaluated, ⟨p, hp, hrule⟩, s, hs, e', hfound, rfl⟩ := h
  have hprefix : callsOf j (hist.take n) <+: callsOf j hist := by
    conv_rhs => rw [← List.take_append_drop n hist, callsOf_append]
    exact List.prefix_append _ _
  have hchosen : Chosen hist e p := ⟨j, a, q, hevaluated.mono hprefix, hp⟩
  obtain ⟨db, hdb, hrecorded⟩ := hchosen.entry run
  obtain ⟨hmem, href⟩ := findLedgerEntry_eq_some _ hfound
  obtain ⟨hid, href', -, hamount, -⟩ := hdb.same_entry (extends_of_mem_callsOf run hs).1 hunique
    hrecorded hmem (.inr href)
  exact ⟨e, p, hchosen, hrule, hid, hamount, href'⟩

/-- **The executions of an inflow** are of rules that were chosen for it. -/
theorem chosen_of_hasExecuted (hunique : w.db.UniqueColumns) {id ruleId : String} {n : ℕ}
    (h₀ : ¬ w₀.db.HasExecuted ruleId id) (h : (stateAt hist w n).db.HasExecuted ruleId id) :
    ∃ e p, Chosen hist e p ∧ e.id = id ∧ p.1.id = ruleId := by
  obtain ⟨k, ev, -, -, hev, hbefore, hafter⟩ := run.exists_change
    (P := fun s => ¬ s.db.HasExecuted ruleId id) (Nat.zero_le n)
    (by rw [run.stateAt_zero]; exact h₀) (not_not.2 h)
  have hafter := not_not.1 hafter
  cases (allocationEvent_of_run run hev).does with
  | none hnone => exact absurd (hnone.executions _ _ hafter) hbefore
  | credit c source executions => exact absurd (executions _ _ hafter) hbefore
  | execute rule entry ready executions credits =>
    rcases executions _ _ hafter with hold | ⟨rfl, hreal⟩
    · exact absurd hold hbefore
    · obtain ⟨hid, hne⟩ := eq_of_realLedgerEntryId hreal
      obtain ⟨e, p, hchosen, rfl, heid, -⟩ := chosen_of_triggered run hunique (ready hne)
      exact ⟨e, p, hchosen, heid.symm.trans hid, rfl⟩

/-- **A retry** releases what the rule releases that its execution was of: neither the rule's
payload nor the inflow has changed since it was chosen. -/
theorem releasedBy_of_retry (hunique : w.db.UniqueColumns) {s : Event ι World Env Call} {m n : ℕ}
    {j : ι} {executionId : String} {found : FoundExecution} {e' : LedgerEntry}
    {c : BucketLedgerEntry} (hm : hist[m]? = some s)
    (hnew : ∀ ruleId, ¬ w₀.db.HasExecuted ruleId e'.id)
    (read : s.before.db.findRuleExecution executionId = some found)
    (triggered : found.triggeredByLedgerEntry = some e')
    (action : found.rule.action = .releaseFunds)
    (releases : Releases (callsOf j (hist.take n)) found.rule.payload found.account.businessId
      e'.amountKobo e'.nombaTransactionRef c) :
    ∃ e p, Chosen hist e p ∧ e.id = e'.id ∧ ReleasedBy w.db e p c := by
  have hrows : s.before.db.Extends w.db := (extends_end run hm).1
  obtain ⟨⟨hexecution, -⟩, ⟨hrule, hruleId⟩, ⟨haccount, haccountId⟩, hentry⟩ :=
    Db.findRuleExecution_eq_some read
  -- the entry that the execution names is the one that the retry has found
  obtain ⟨entryId, hnames, hfound⟩ := Option.bind_eq_some_iff.1 (hentry.symm.trans triggered)
  have hmem : e' ∈ s.before.db.ledgerEntries := List.mem_of_find?_eq_some hfound
  have hentryId : e'.id = entryId := by simpa using List.find?_some hfound
  have hexecuted : (stateAt hist w m).db.HasExecuted found.rule.id e'.id := by
    rw [stateAt_eq_before hm, hentryId]
    exact ⟨_, hexecution, hruleId.symm, hnames⟩
  obtain ⟨e, p, hchosen, heid, hpid⟩ :=
    chosen_of_hasExecuted run hunique (hnew _) hexecuted
  obtain ⟨db, hdb, hp, a, ha, haid, hforRule⟩ := hchosen.rule run
  obtain ⟨hsameAccount, hsameAction, hsamePayload⟩ := hdb.same_rule hrows hunique hp hrule hpid.symm
  have hbusiness : found.account.businessId = p.2.businessId := by
    rw [hforRule]
    exact hdb.same_business hrows hunique ha haccount
      (haccountId.trans (hsameAccount.trans haid.symm))
  obtain ⟨db', hdb', hrecorded⟩ := hchosen.entry run
  obtain ⟨-, href, -, hamount, -⟩ := hdb'.same_entry hrows hunique hrecorded hmem (.inl heid.symm)
  obtain ⟨hreleased, hreference, s', hs', bucketRef, b, hdestination, hbucket, hb⟩ := releases
  rw [hsamePayload, hamount] at hreleased
  rw [hsamePayload] at hdestination
  rw [(extends_of_mem_callsOf run hs').1.findBucket, hbusiness] at hbucket
  exact ⟨e, p, hchosen, heid, hsameAction.symm.trans action, hreleased,
    ⟨bucketRef, b, hdestination, hbucket, hb⟩, href ▸ hreference⟩

/-- **The credits of an inflow** are released by rules that were chosen for it. -/
theorem releasedBy_of_credit (hunique : w.db.UniqueColumns) {id : String}
    (hreal : ∀ entry : TriggerEntry, entry.id = id → entry.realLedgerEntryId ≠ none)
    (hnew : w₀.db.NothingFrom id) {c : BucketLedgerEntry} (hc : c ∈ w.db.bucketLedgerEntries)
    (hsource : c.sourceLedgerEntryId = some id) :
    ∃ e p, Chosen hist e p ∧ e.id = id ∧ ReleasedBy w.db e p c := by
  have hend : stateAt hist w hist.length = w := stateAt_of_le le_rfl
  obtain ⟨k, ev, -, -, hev, hbefore, hafter⟩ := run.exists_change
    (P := fun s => c ∉ s.db.bucketLedgerEntries) (Nat.zero_le hist.length)
    (by rw [run.stateAt_zero]; exact fun hmem => hnew.credits c hmem hsource)
    (by rw [hend]; exact not_not.2 hc)
  have hafter := not_not.1 hafter
  cases (allocationEvent_of_run run hev).does with
  | none hnone =>
    rw [hnone.credits] at hafter
    exact absurd hafter hbefore
  | execute rule entry ready executions credits =>
    rw [credits] at hafter
    exact absurd hafter hbefore
  | credit c' source executions credits =>
    rw [credits] at hafter
    obtain rfl : c = c' := by
      rcases List.mem_append.1 hafter with hold | hnew
      · exact absurd hold hbefore
      · exact List.mem_singleton.1 hnew
    cases source with
    | first rule entry ready action source releases =>
      have hid : entry.id = id := Option.some_inj.1 (source.symm.trans hsource)
      obtain ⟨e, p, hchosen, rfl, heid, hamount, href⟩ :=
        chosen_of_triggered run hunique (ready (hreal entry hid))
      obtain ⟨hreleased, hreference, s, hs, bucketRef, b, hdestination, hbucket, hb⟩ := releases
      refine ⟨e, p, hchosen, heid.symm.trans hid, action, hamount ▸ hreleased,
        ⟨bucketRef, b, hdestination, ?_, hb⟩, href ▸ hreference⟩
      rw [← (extends_of_mem_callsOf run hs).1.findBucket]
      exact hbucket
    | retry s hs executionId found e' read triggered action source releases =>
      obtain ⟨-, m, -, hm⟩ := mem_callsOf_take.1 hs
      obtain rfl : e'.id = id := Option.some_inj.1 (source.symm.trans hsource)
      exact releasedBy_of_retry run hunique hm hnew.executions read triggered action releases

/-! ### One inflow -/

section Inflow

variable (unique : w₀.db.UniqueColumns)
include unique

/-- An entry is recorded by one call. -/
theorem commitsEntry_once {m n : ℕ} {x y : Event ι World Env Call} {e e' : LedgerEntry}
    (hx : hist[m]? = some x) (hy : hist[n]? = some y) (hxe : CommitsEntry x e)
    (hye : CommitsEntry y e') (hid : e'.id = e.id) : m = n := by
  have hlater : ∀ {m n : ℕ} {x y : Event ι World Env Call} {e e' : LedgerEntry},
      hist[m]? = some x → hist[n]? = some y → CommitsEntry x e → CommitsEntry y e' →
      e'.id = e.id → ¬ m < n := by
    intro m n x y e e' hx hy hxe hye hid hmn
    have hrows := extends_stateAt run (Nat.succ_le_of_lt hmn)
    rw [run.stateAt_succ hx, stateAt_eq_before hy] at hrows
    obtain ⟨z, hz, hzid, -⟩ := hrows.ledgerEntries e (by
      rw [hxe]
      exact List.mem_append_right _ (List.mem_singleton_self e))
    -- the entry would be there twice
    have hnodup := (unique_after run unique (n + 1)).ledgerEntries
    rw [run.stateAt_succ hy, hye, List.map_append, List.nodup_append] at hnodup
    exact hnodup.2.2 z.id (List.mem_map_of_mem hz) e'.id (by simp) (hzid.trans hid.symm)
  have hle := hlater hx hy hxe hye hid
  have hge := hlater hy hx hye hxe hid.symm
  omega

/-- An inflow is evaluated once. -/
theorem hasEvaluated_once {j j' : ι} {a a' : Account} {e e' : LedgerEntry}
    {q q' : Event ι World Env Call} (h : HasEvaluated (callsOf j hist) a e q)
    (h' : HasEvaluated (callsOf j' hist) a' e' q') (hid : e'.id = e.id) :
    a' = a ∧ e' = e ∧ q' = q := by
  obtain ⟨x, hx, hcommits⟩ := h.recorded
  obtain ⟨x', hx', hcommits'⟩ := h'.recorded
  obtain ⟨hwho, m, hm⟩ := mem_callsOf.1 (List.mem_of_getElem? hx)
  obtain ⟨hwho', m', hm'⟩ := mem_callsOf.1 (List.mem_of_getElem? hx')
  have hmm' := commitsEntry_once run unique hm hm' hcommits hcommits' hid
  rw [← hmm', hm] at hm'
  cases hm'
  obtain rfl : j = j' := hwho.symm.trans hwho'
  obtain ⟨r, hr, number, hcall, hfound⟩ := h.found
  obtain ⟨r', hr', number', hcall', hfound'⟩ := h'.found
  rw [hr] at hr'
  cases hr'
  rw [hcall] at hcall'
  cases hcall'
  rw [hfound] at hfound'
  cases hfound'
  have hq := h'.evaluated
  rw [h.evaluated] at hq
  cases hq
  refine ⟨rfl, ?_, rfl⟩
  rw [CommitsEntry] at hcommits hcommits'
  rw [hcommits, List.append_cancel_left_eq, List.singleton_inj] at hcommits'
  exact hcommits'.symm

/-- **What is credited of an inflow** is at most what the rules release that were found for it. -/
theorem allocatedFrom_le {j : ι} {a : Account} {e : LedgerEntry} {q : Event ι World Env Call}
    (h : HasEvaluated (callsOf j hist) a e q)
    (hreal : ∀ entry : TriggerEntry, entry.id = e.id → entry.realLedgerEntryId ≠ none)
    (hnew : w₀.db.NothingFrom e.id) (haccepted : ∀ p ∈ rulesFor a e q, p.1.ReleaseAccepted) :
    (w.db.allocatedFrom e.id : ℚ) ≤
      sumWhere (fun p => p.1.action = .releaseFunds) (fun p => p.1.share e.amountKobo)
        (rulesFor a e q) := by
  have hunique : w.db.UniqueColumns := by
    have hlast := unique_after run unique hist.length
    rwa [stateAt_of_le le_rfl] at hlast
  -- every credit comes from a rule of the one evaluation
  have hreleased : ∀ c ∈ w.db.bucketLedgerEntries, c.sourceLedgerEntryId = some e.id →
      ∃ p ∈ rulesFor a e q, ReleasedBy w.db e p c := by
    intro c hc hsource
    obtain ⟨e', p, ⟨j', a', q', hevaluated, hp⟩, hid, hby⟩ :=
      releasedBy_of_credit run hunique hreal hnew hc hsource
    obtain ⟨rfl, rfl, rfl⟩ := hasEvaluated_once run unique h hevaluated hid
    exact ⟨p, hp, hby⟩
  have hcast : (w.db.allocatedFrom e.id : ℚ) = ((w.db.bucketLedgerEntries.filter fun c =>
      c.entryType = .credit ∧ c.sourceLedgerEntryId = some e.id).map
        fun c => (c.amountKobo : ℚ)).sum :=
    (sumWhere_map _ (Int.castAddHom ℚ) BucketLedgerEntry.amountKobo _).symm
  rw [hcast]
  refine sum_map_le_sumWhere _ (fun p => ((w.db.findBucket p.2.businessId
    ((p.1.payload.getD {}).destinationAccountRef.getD "")).map TreasuryBucket.id).getD "")
    (k := BucketLedgerEntry.bucketId) ?_ ?_ ?_
  · -- the references of the credits differ, and so do the buckets
    have hrefs := (List.filter_sublist (p := fun c : BucketLedgerEntry => decide
      (c.entryType = .credit ∧ c.sourceLedgerEntryId = some e.id))).map
        BucketLedgerEntry.reference |>.nodup hunique.references
    refine List.Nodup.of_map (allocationReference e.nombaTransactionRef) ?_
    rw [List.map_map]
    refine (List.map_congr_left fun c hc => ?_) ▸ hrefs
    obtain ⟨hc, hsource⟩ := List.mem_filter.1 hc
    obtain ⟨p, -, hby⟩ := hreleased c hc (of_decide_eq_true hsource).2
    exact hby.reference
  · intro p hp haction
    exact Rule.share_nonneg (haccepted p hp) haction _
  · intro c hc
    obtain ⟨hc, hsource⟩ := List.mem_filter.1 hc
    obtain ⟨p, hp, hby⟩ := hreleased c hc (of_decide_eq_true hsource).2
    obtain ⟨bucketRef, b, hdestination, hbucket, hb⟩ := hby.bucket
    refine ⟨p, hp, hby.action, ?_,
      Rule.releaseAmount_le_share (haccepted p hp) hby.action hby.amount⟩
    rw [hdestination, Option.getD_some, hbucket, Option.map_some, Option.getD_some]
    exact hb

end Inflow

/-! ### The bound -/

/-- At the call, the thread that has recorded the inflow reads the rules that are in force for it.
-/
structure Evaluates {ι : Type} (hist : List (Event ι World Env Call)) (e : LedgerEntry)
    (ev : Event ι World Env Call) : Prop where
  mem : ev ∈ hist
  call : ev.call = .findRules e.accountId
  recorded : ∃ x ∈ hist, x.who = ev.who ∧ ∃ e', CommitsEntry x e' ∧ e'.id = e.id

/-- The execution model that the thread has found the account with is still that of the account. -/
def ModelCurrent {ι : Type} (hist : List (Event ι World Env Call)) (ev : Event ι World Env Call) :
    Prop :=
  ∀ r ∈ hist, r.who = ev.who → ∀ a, LooksUp r a →
    ∀ b ∈ ev.before.db.accounts, b.id = a.id → b.executionModel = a.executionModel

omit run in
/-- What an accepted rule set releases of the inflow that it is read for. -/
theorem shares_rulesFor_le {j : ι} {a : Account} {e : LedgerEntry} {q : Event ι World Env Call}
    (h : HasEvaluated (callsOf j hist) a e q) (accepted : q.before.db.Accepted e.accountId)
    (model : ModelCurrent hist q) :
    (∀ p ∈ rulesFor a e q, p.1.ReleaseAccepted) ∧
      sumWhere (fun p => p.1.action = .releaseFunds) (fun p => p.1.share e.amountKobo)
        (rulesFor a e q) ≤ (max 0 e.amountKobo : Int) + q.before.db.fixedReleases e := by
  obtain ⟨r, hr, hfound⟩ := h.found
  have hrcall := mem_callsOf.1 (List.mem_of_getElem? hr)
  have hqcall := mem_callsOf.1 (List.mem_of_getElem? h.evaluated)
  have hmem : r ∈ hist := by
    obtain ⟨-, n, hn⟩ := hrcall
    exact List.mem_of_getElem? hn
  constructor
  · intro p hp
    obtain ⟨hrule, ⟨haccount, hactive⟩, -⟩ := Db.mem_findRules (mem_of_mem_firing hp).1
    refine accepted.payloads p.1 (Db.mem_activeRules.2 ⟨hrule, ?_, hactive⟩)
    rw [haccount, h.account]
  · have hmodel : ∀ b ∈ q.before.db.accounts, b.id = e.accountId →
        b.executionModel = a.executionModel := by
      intro b hb hid
      exact model r hmem (hrcall.1.trans hqcall.1.symm) a hfound b hb (hid.trans h.account)
    rw [h.account] at accepted
    exact accepted.shares_firing_le hmodel h.account.symm

/-- The inflow that was evaluated, as it is found at the end. -/
theorem evaluates_of_hasEvaluated (unique : w.db.UniqueColumns) {j : ι} {a : Account}
    {e L : LedgerEntry} {q : Event ι World Env Call} (h : HasEvaluated (callsOf j hist) a e q)
    (hL : L ∈ w.db.ledgerEntries) (hid : e.id = L.id) :
    Evaluates hist L q ∧ L.accountId = e.accountId ∧ L.amountKobo = e.amountKobo ∧
      L.cumulativeAmountKobo = e.cumulativeAmountKobo := by
  obtain ⟨x, hx, hcommits⟩ := h.recorded
  have hxcall := mem_callsOf.1 (List.mem_of_getElem? hx)
  have hqcall := mem_callsOf.1 (List.mem_of_getElem? h.evaluated)
  obtain ⟨db, hdb, hrecorded⟩ := recorded_of_hasEvaluated run h
  obtain ⟨-, -, haccount, hamount, htotal⟩ :=
    hdb.same_entry (Db.Extends.refl w.db) unique hrecorded hL (.inl hid.symm)
  have hev : Evaluates hist L q := by
    constructor
    · obtain ⟨-, n, hn⟩ := hqcall
      exact List.mem_of_getElem? hn
    · rw [h.call, haccount, h.account]
    · obtain ⟨hwho, n, hn⟩ := hxcall
      exact ⟨x, List.mem_of_getElem? hn, hwho.trans hqcall.1.symm, e, hcommits, hid⟩
  exact ⟨hev, haccount, hamount, htotal⟩

/-- **What is allocated of an inflow**, if the rule set in force when it is evaluated is an accepted
one: at most the inflow, and the fixed amounts of the rules that it matches. -/
theorem inflow_allocations_bounded (unique : w₀.db.UniqueColumns) {L : LedgerEntry}
    (hL : L ∈ w.db.ledgerEntries) (real : L.trigger.realLedgerEntryId = some L.id)
    (new : w₀.db.NothingFrom L.id)
    (accepted : ∀ ev, Evaluates hist L ev →
      ev.before.db.Accepted L.accountId ∧ ModelCurrent hist ev) :
    w.db.allocatedFrom L.id = 0 ∨ ∃ ev, Evaluates hist L ev ∧
      (w.db.allocatedFrom L.id : ℚ) ≤
        (max 0 L.amountKobo : Int) + ev.before.db.fixedReleases L := by
  have hunique : w.db.UniqueColumns := by
    have hlast := unique_after run unique hist.length
    rwa [stateAt_of_le le_rfl] at hlast
  have hreal : ∀ entry : TriggerEntry, entry.id = L.id → entry.realLedgerEntryId ≠ none := by
    intro entry hid
    have hsome : entry.realLedgerEntryId = some L.id := by
      rw [← real]
      exact realLedgerEntryId_congr hid
    rw [hsome]
    exact Option.some_ne_none _
  by_cases hcredit : ∃ c ∈ w.db.bucketLedgerEntries, c.sourceLedgerEntryId = some L.id
  · obtain ⟨c, hc, hsource⟩ := hcredit
    obtain ⟨e, p, ⟨j, a, q, h, -⟩, hid, -⟩ :=
      releasedBy_of_credit run hunique hreal new hc hsource
    obtain ⟨hev, haccount, hamount, htotal⟩ := evaluates_of_hasEvaluated run hunique h hL hid
    obtain ⟨haccepted, hmodel⟩ := accepted q hev
    rw [haccount] at haccepted
    obtain ⟨hpayloads, hshares⟩ := shares_rulesFor_le h haccepted hmodel
    rw [← hid] at hreal new ⊢
    have htotals := allocatedFrom_le run unique h hreal new hpayloads
    have hfixed : q.before.db.fixedReleases L = q.before.db.fixedReleases e := by
      rw [Db.fixedReleases, Db.fixedReleases, haccount, hamount, htotal]
    right
    refine ⟨q, hev, ?_⟩
    rw [hfixed, hamount]
    exact htotals.trans hshares
  · left
    rw [Db.allocatedFrom]
    refine sumWhere_eq_zero _ fun c hc hP => ?_
    exact hcredit ⟨c, hc, hP.2⟩

end Runs

namespace Sample

/-- Half of an inflow goes to `ops`, and ₦10.00 go to `tax`. -/
def mixedSet : ReplaceRuleSetDto where
  rules := [{
    trigger := "inflow_received"
    condition := { amountGte := some 1 }
    action := "release_funds"
    payload := some { destinationAccountRef := some "ops", percentage := some 50 } }, {
    trigger := "inflow_received"
    condition := { amountGte := some 1 }
    action := "release_funds"
    payload := some { destinationAccountRef := some "tax", amountKobo := some 1000 } }]

/-- The account has no rules yet; its business has two buckets. -/
def taxShop : World :=
  shop [{ id := "bkt1aaaaaaaa", bucketRef := "ops", businessId := "biz" },
    { id := "bkt2bbbbbbbb", bucketRef := "tax", businessId := "biz" }] []

/-- The rule set is replaced, and ₦5.00 arrive. -/
def mixedThreads : Bool → AllocationThread
  | false => .rules (.replaceRuleSet "shop" "biz" mixedSet)
  | true => .deliver inflow

/-- What the database chooses for the two requests. Nothing fails. -/
def mixedChoices : Bool → List Env
  | false => List.replicate 5 { rows := fun n => ⟨1, if n = 0 then "rule1" else "rule2"⟩ }
  | true => [{}, {}, { row := ⟨2, "led1"⟩ }, {}, {}, {}, { row := ⟨3, "exe1"⟩ }, {},
      { row := ⟨4, "crd1"⟩ }, {}, {}, {}, { row := ⟨5, "exe2"⟩ }, {}, { row := ⟨6, "crd2"⟩ }, {},
      {},
      {}, {}, {}, {}]

def mixedRun : List (Event Bool World Env Call) × (Bool → Action Unit) × World :=
  exec (fun i => (mixedThreads i).run fun _ => true) taxShop
    ([false, true].flatMap fun i => (mixedChoices i).map fun env => (i, env))

theorem run_mixedRun :
    Run (fun _ _ _ _ => True) (fun i => (mixedThreads i).run fun _ => true) taxShop
      mixedRun.1 mixedRun.2.1 mixedRun.2.2 :=
  Run.of_exec _ _ _ fun _ _ => trivial

end Sample

/-- The rules in force when the inflow is evaluated are those of the rule set. -/
theorem inflow_allocations_bounded_mixed :
    let r := Sample.mixedRun
    ∃ L ∈ r.2.2.db.ledgerEntries, r.2.2.db.allocatedFrom L.id = 1250 ∧
      (r.2.2.db.allocatedFrom L.id = 0 ∨ ∃ ev, Evaluates r.1 L ev ∧
        (r.2.2.db.allocatedFrom L.id : ℚ) ≤
          (max 0 L.amountKobo : Int) + ev.before.db.fixedReleases L) := by
  have hunique : Sample.taxShop.db.UniqueColumns := by constructor <;> decide
  have hlength : Sample.mixedRun.2.2.db.ledgerEntries.length = 1 := by decide +kernel
  obtain ⟨L, hentries⟩ := List.length_eq_one_iff.1 hlength
  have hL : L ∈ Sample.mixedRun.2.2.db.ledgerEntries := by
    rw [hentries]
    exact List.mem_singleton_self L
  have hentry : ∀ e ∈ Sample.mixedRun.2.2.db.ledgerEntries, e.accountId = "acc1" ∧
      e.trigger.realLedgerEntryId = some e.id ∧
        Sample.mixedRun.2.2.db.allocatedFrom e.id = 1250 := by decide +kernel
  obtain ⟨haccount, hreal, htotal⟩ := hentry L hL
  have hnew : Sample.taxShop.db.NothingFrom L.id := by
    constructor
    · rintro ruleId ⟨x, hx, -⟩
      cases hx
    · intro c hc
      cases hc
  have hrules : ∀ ev ∈ Sample.mixedRun.1, ev.call = .findRules "acc1" →
      (∀ r ∈ ev.before.db.activeRules "acc1", r.payload.any releaseFundsPayloadSchema = true) ∧
        ev.before.db.activePercentage "acc1" ≤ 100 := by decide +kernel
  have hmodel : ∀ ev ∈ Sample.mixedRun.1, ∀ a ∈ ev.before.db.accounts,
      a.executionModel = .parallel := by decide +kernel
  have haccepted : ∀ ev, Evaluates Sample.mixedRun.1 L ev →
      ev.before.db.Accepted L.accountId ∧ ModelCurrent Sample.mixedRun.1 ev := by
    intro ev hev
    have hcall := hev.call
    rw [haccount] at hcall ⊢
    obtain ⟨hpayloads, hpercentage⟩ := hrules ev hev.mem hcall
    constructor
    · exact ⟨fun r hr _ => (Option.any_eq_true _ _).1 (hpayloads r hr), fun _ => hpercentage⟩
    · rintro r hr - a ⟨number, -, hfound⟩ b hb -
      rw [hmodel ev hev.mem b hb]
      exact (hmodel r hr a (List.mem_of_find?_eq_some hfound)).symm
  exact ⟨L, hL, htotal,
    inflow_allocations_bounded Sample.run_mixedRun hunique hL hreal hnew haccepted⟩

/-- ₦12.50 are credited of an inflow of ₦5.00, and nothing else has been received. -/
theorem fixed_amount_exceeds_inflow :
    let r := Sample.mixedRun
    (∀ i, (r.2.1 i).returned.isSome) ∧
      (r.2.2.db.activeRules "acc1").map Rule.id = ["rule1", "rule2"] ∧
      r.2.2.db.ledgerEntries.map (fun e => (e.id, e.accountId, e.amountKobo)) =
        [("led1", "acc1", 500)] ∧
      r.2.2.db.allocatedFrom "led1" = 1250 ∧
      (r.2.2.db.bucketLedgerEntries.map BucketLedgerEntry.amountKobo).sum = 1250 := by
  refine ⟨?_, ?_, ?_, ?_, ?_⟩ <;> decide +kernel

end AccountOS
