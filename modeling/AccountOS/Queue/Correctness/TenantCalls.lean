import AccountOS.Queue.Correctness.Tenants
import AccountOS.Queue.WebhookProcessor

/-!
# The calls of a tenant's methods

A method that runs for A changes only what is A's; a method that runs for B does the same whatever
is A's. Both are confined to the scope of their tenant: for each kind of call, what has to be known
of its arguments, and then for the ledgers and for each method of the engine.
-/

namespace AccountOS

open Conc Sql

namespace Tenants

variable (T : Tenants)

/-! ### The scopes of the tenants -/

/-- Two worlds that differ at most in A's rows and jobs, and in the audit log. -/
structure SameWorlds (w w' : World) : Prop where
  db : T.SameOutside w.db w'.db
  webhookQueue : SameRows (fun p : InflowPayload => ¬ T.OwnsNumber .a p.accountNumber)
    w.webhookQueue w'.webhookQueue
  retryQueue : SameRows (fun job : RetryJob => ¬ T.writtenForA job.ruleExecutionId)
    w.retryQueue w'.retryQueue

/-- The ids generated for a tenant. -/
def Generates (t : Tenant) (env : Env) : Prop :=
  T.WrittenFor t env.row.id ∧ ¬ IsCustomId env.row.id

/-- A changes only what is A's; B sees only what is not. -/
def scope : Tenant → Scope World Env
  | .a => ⟨T.Generates .a, fun w => T.Inv w.db, Eq, T.SameWorlds⟩
  | .b => ⟨T.Generates .b, fun w => T.Inv w.db, T.SameWorlds, fun _ _ => True⟩

variable {T} {w w' : World}

theorem SameWorlds.of_sameData (h : World.SameData w w') : T.SameWorlds w w' where
  db := by
    rw [h.db]
  webhookQueue := .of_eq h.webhookQueue.symm
  retryQueue := .of_eq h.retryQueue.symm

theorem SameWorlds.symm (h : T.SameWorlds w w') : T.SameWorlds w' w :=
  ⟨h.db.symm, h.webhookQueue.symm, h.retryQueue.symm⟩

theorem SameWorlds.trans {w'' : World} (h : T.SameWorlds w w') (h' : T.SameWorlds w' w'') :
    T.SameWorlds w w'' :=
  ⟨h.db.trans h'.db, h.webhookQueue.trans h'.webhookQueue, h.retryQueue.trans h'.retryQueue⟩

/-- Calls without an effect leave two worlds as much alike as they were. -/
theorem SameWorlds.sameData {u u' : World} (h : T.SameWorlds w w') (hu : World.SameData w u)
    (hu' : World.SameData w' u') : T.SameWorlds u u' :=
  (SameWorlds.of_sameData hu).symm.trans (h.trans (.of_sameData hu'))

/-- **What A changes, B does not see.** -/
theorem separates : Separates (T.scope .a) (T.scope .b) where
  inv _ := Iff.rfl
  high_refl _ := rfl
  low_refl w := .of_sameData (.refl w)
  hidden _ _ _ hkeeps hsees := hkeeps.symm.trans hsees

/-! ### Kinds of calls -/

section Calls

variable {α : Type} {t : Tenant} {Q : α → Prop}

/-- The rule for a call: it keeps the invariant, when made for A it changes only what is A's, and
when made for B it has one outcome. -/
theorem confined_call {l : Call} {f : Env → World → Except Error α × World}
    (hinv : ∀ env w, T.Generates t env → T.Inv w.db → T.Inv (f env w).2.db)
    (hret : ∀ env w a, T.Generates t env → T.Inv w.db → (f env w).1 = .ok a → Q a)
    (ha : t = .a → ∀ env w, T.Generates t env → T.Inv w.db → T.SameWorlds w (f env w).2)
    (hb : t = .b → ∀ env w w', T.Generates t env → T.Inv w.db → T.Inv w'.db → T.SameWorlds w w' →
      (f env w).1 = (f env w').1 ∧ T.SameWorlds (f env w).2 (f env w').2) :
    (Proc.call l f).Confined (T.scope t) Q := by
  refine Proc.Confined.call ?_
  intro env w w' hgen hw hw' hsees
  cases t with
  | a =>
    cases hsees
    exact ⟨hinv env w hgen hw, ha rfl env w hgen hw, rfl, rfl, fun a => hret env w a hgen hw⟩
  | b =>
    obtain ⟨hsame, hnext⟩ := hb rfl env w w' hgen hw hw' hsees
    exact ⟨hinv env w hgen hw, trivial, hnext, hsame, fun a => hret env w a hgen hw⟩

/-- What two runs of a transaction agree on. -/
def SameCommit (r r' : α × Db) : Prop := r.1 = r'.1 ∧ T.SameOutside r.2 r'.2

theorem transactionStep_agrees {body : Env → TxBody α} {env : Env} (hw : T.SameWorlds w w')
    (hrun : Agrees T.SameCommit ((body env).run schema w.db) ((body env).run schema w'.db)) :
    (transactionStep body (fun _ _ w => w) env w).1 =
        (transactionStep body (fun _ _ w => w) env w').1 ∧
      T.SameWorlds (transactionStep body (fun _ _ w => w) env w).2
        (transactionStep body (fun _ _ w => w) env w').2 := by
  have hfault : ∀ f, T.SameWorlds (w.recordFault f) (w'.recordFault f) :=
    fun f => hw.sameData (w.sameData_recordFault f) (w'.sameData_recordFault f)
  have herror : ∀ e, T.SameWorlds (w.recordError e) (w'.recordError e) :=
    fun e => hw.sameData (w.sameData_recordError e) (w'.sameData_recordError e)
  unfold transactionStep
  generalize (body env).run schema w.db = r at hrun
  generalize (body env).run schema w'.db = r' at hrun
  cases env.fault with
  | none =>
    cases hrun with
    | @ok s s' h => exact ⟨congrArg Except.ok h.1, h.2, hw.webhookQueue, hw.retryQueue⟩
    | error e => exact ⟨rfl, herror e⟩
  | some f =>
    obtain ⟨e, atCommit⟩ := f
    cases atCommit with
    | false => exact ⟨rfl, hfault _⟩
    | true =>
      cases hrun with
      | ok h => exact ⟨rfl, hfault _⟩
      | error e' => exact ⟨rfl, herror e'⟩

/-- **A transaction.** -/
theorem confined_transaction {l : Call} (body : Env → TxBody α)
    (hok : ∀ env db a db', T.Generates t env → T.Inv db → (body env).run schema db = .ok (a, db') →
      T.Inv db' ∧ Q a ∧ (t = .a → T.SameOutside db db'))
    (hb : t = .b → ∀ env db db', T.Generates t env → T.Inv db → T.Inv db' → T.SameOutside db db' →
      Agrees T.SameCommit ((body env).run schema db) ((body env).run schema db')) :
    (transaction l body).Confined (T.scope t) Q := by
  refine confined_call ?_ ?_ ?_ ?_
  · intro env w hgen hw
    rcases transactionStep_cases body logsOnly_nothing env w with
      ⟨a, db, -, hrun, hstep⟩ | ⟨e, w', hstep, hthrown⟩
    · rw [hstep]
      exact (hok env w.db a db hgen hw hrun).1
    · rw [hstep, hthrown.same.db]
      exact hw
  · intro env w a hgen hw ha
    rcases transactionStep_cases body logsOnly_nothing env w with
      ⟨a', db, -, hrun, hstep⟩ | ⟨e, w', hstep, -⟩
    · rw [hstep] at ha
      cases ha
      exact (hok env w.db a db hgen hw hrun).2.1
    · rw [hstep] at ha
      cases ha
  · intro ht env w hgen hw
    rcases transactionStep_cases body logsOnly_nothing env w with
      ⟨a, db, -, hrun, hstep⟩ | ⟨e, w', hstep, hthrown⟩
    · rw [hstep]
      exact ⟨(hok env w.db a db hgen hw hrun).2.2 ht, .refl _, .refl _⟩
    · rw [hstep]
      exact .of_sameData hthrown.same
  · intro ht env w w' hgen hw hw' hsame
    exact transactionStep_agrees hsame (hb ht env w.db w'.db hgen hw hw' hsame.db)

/-- A single writing statement. -/
theorem confined_statement (hT : T.Apart) {l : Call} {op : Env → WriteOp}
    (hop : ∀ env, T.Generates t env → T.Writes t (op env)) :
    (statement l op).Confined (T.scope t) fun _ => True := by
  refine confined_transaction (fun env => Tx.exec (op env)) ?_ ?_
  · intro env db a db' hgen hdb hrun
    have hop' := Tx.run_exec_eq_ok.1 hrun
    refine ⟨hdb.apply hT (hop env hgen) hop', trivial, fun ht => ?_⟩
    subst ht
    exact .of_writes hT (hop env hgen) hdb hop'
  · intro ht env db db' hgen hdb hdb' hsame
    subst ht
    rw [Tx.run_exec, Tx.run_exec]
    exact (agrees_apply hT (hop env hgen) hdb hdb' hsame).map fun s s' h => ⟨rfl, h⟩

/-- A single reading statement. -/
theorem confined_find {l : Call} {f : Env → Db → α} (hQ : ∀ env db, T.Inv db → Q (f env db))
    (hb : t = .b → ∀ env db db', T.Inv db → T.Inv db' → T.SameOutside db db' →
      f env db = f env db') :
    (find l f).Confined (T.scope t) Q := by
  refine confined_transaction (fun env => Tx.query [] (f env)) ?_ ?_
  · intro env db a db' _ hdb hrun
    rw [Tx.run_query] at hrun
    cases hrun
    exact ⟨hdb, hQ env db hdb, fun _ => .refl db⟩
  · intro ht env db db' _ hdb hdb' hsame
    rw [Tx.run_query, Tx.run_query]
    exact .ok ⟨hb ht env db db' hdb hdb' hsame, hsame⟩

/-- A call without an effect on the data, that always answers the same. -/
theorem confined_quiet {l : Call} {f : Env → World → Except Error α × World} (hQ : ∀ a, Q a)
    (hsame : ∀ env w, World.SameData w (f env w).2)
    (hret : ∀ env w w', (f env w).1 = (f env w').1) :
    (Proc.call l f).Confined (T.scope t) Q := by
  refine confined_call ?_ ?_ ?_ ?_
  · intro env w _ hw
    rw [(hsame env w).db]
    exact hw
  · intro env w a _ _ _
    exact hQ a
  · intro _ env w _ _
    exact .of_sameData (hsame env w)
  · intro _ env w w' _ _ _ h
    exact ⟨hret env w w', h.sameData (hsame env w) (hsame env w')⟩

theorem confined_audit {entry : AuditLogEntry} :
    (audit entry).Confined (T.scope t) fun _ => True :=
  confined_quiet (fun _ => trivial) (fun env w => w.sameData_log env entry) fun _ _ _ => rfl

theorem confined_deliver {url : String} :
    (deliver url).Confined (T.scope t) fun _ => True :=
  confined_quiet (fun _ => trivial) (fun _ w => .refl w) fun _ _ _ => rfl

theorem confined_takeJob {payload : InflowPayload} :
    (takeJob payload).Confined (T.scope t) fun _ => True :=
  confined_quiet (fun _ => trivial) (fun _ w => .refl w) fun _ _ _ => rfl

theorem confined_enqueueRetry {job : RetryJob} (hjob : T.WrittenFor t job.ruleExecutionId) :
    (enqueueRetry job).Confined (T.scope t) fun _ => True := by
  refine confined_call ?_ (fun _ _ _ _ _ _ => trivial) ?_ ?_
  · intro env w _ hw
    cases env.fault <;> exact hw
  · intro ht env w _ hw
    subst ht
    cases env.fault with
    | none => exact ⟨.refl _, .refl _, .append_of_not (not_not.2 hjob)⟩
    | some f => exact .of_sameData (.refl w)
  · intro _ env w w' _ _ _ h
    cases env.fault with
    | none => exact ⟨rfl, h.db, h.webhookQueue, h.retryQueue.append job⟩
    | some f => exact ⟨rfl, h⟩

theorem confined_enqueueInflow {payload : InflowPayload}
    (hnumber : T.OwnsNumber t payload.accountNumber) :
    (enqueueInflow payload).Confined (T.scope t) fun _ => True := by
  refine confined_call ?_ (fun _ _ _ _ _ _ => trivial) ?_ ?_
  · intro env w _ hw
    cases env.fault <;> exact hw
  · intro ht env w _ hw
    subst ht
    cases env.fault with
    | none => exact ⟨.refl _, .append_of_not (not_not.2 hnumber), .refl _⟩
    | some f => exact .of_sameData (.refl w)
  · intro _ env w w' _ _ _ h
    cases env.fault with
    | none => exact ⟨rfl, h.db, h.webhookQueue.append payload, h.retryQueue⟩
    | some f => exact ⟨rfl, h⟩

theorem confined_bigIntOrThrow {x : ℚ} :
    (bigIntOrThrow x).Confined (T.scope t) fun _ => True := by
  unfold bigIntOrThrow
  split <;> trivial

end Calls

/-! ### The ledgers -/

section Ledgers

variable (hT : T.Apart) {t : Tenant}
include hT

/-- An inflow of the tenant; it is only written when its transaction reference is a new one. -/
theorem confined_writeInflow {dto : WriteInflowDto} {status : ReconciliationStatus}
    (haccount : T.OwnsAccount t dto.accountId)
    (href : T.transactionRefs t dto.nombaTransactionRef) :
    (writeInflow dto status).Confined (T.scope t)
      fun _ => T.RecordsRef t dto.nombaTransactionRef := by
  refine confined_transaction (writeInflowTx dto status) ?_ ?_
  · intro env db total db' hgen hdb hrun
    obtain ⟨amountKobo, -, -, hcreate⟩ := (writeInflowTx_run_eq_ok db).1 hrun
    have hnew : T.RecordsRef t dto.nombaTransactionRef := by
      cases t with
      | a =>
        refine ⟨href, fun e₀ he₀ heq => ?_⟩
        obtain ⟨-, hunique, -, -⟩ := Db.createLedgerEntry_eq_ok.1 hcreate
        obtain ⟨e, he, heref⟩ := hdb.recorded e₀ he₀
        exact hunique e he (heref.trans heq)
      | b => exact href
    have hop : T.Writes t (.createLedgerEntry
        (dto.entry status env amountKobo (db.inflowSum dto.accountId))) :=
      ⟨hgen.1, hgen.2, haccount, hnew⟩
    refine ⟨hdb.apply hT hop hcreate, hnew, fun ht => ?_⟩
    subst ht
    exact .of_writes hT hop hdb hcreate
  · intro ht env db db' hgen hdb hdb' hsame
    subst ht
    have htotal : db.inflowSum dto.accountId = db'.inflowSum dto.accountId :=
      hsame.ledgerEntries.sumWhere_eq
        (fun e he hp => hdb.ledgerEntries_of_account hT haccount e he hp.1)
        fun e he hp => hdb'.ledgerEntries_of_account hT haccount e he hp.1
    rw [writeInflowTx_run, writeInflowTx_run, htotal]
    cases bigInt dto.amountKobo with
    | error e => exact .error _
    | ok amountKobo =>
      have hop : T.Writes .b (.createLedgerEntry
          (dto.entry status env amountKobo (db'.inflowSum dto.accountId))) :=
        ⟨hgen.1, hgen.2, haccount, href⟩
      exact (agrees_apply hT hop hdb hdb' hsame).map fun s s' h => ⟨rfl, h⟩

/-- The transaction of a credit; the entry it writes is the tenant's. A credit whose source is no
ledger entry at all is not written. -/
theorem confined_creditTx {l : Call} {p : CreditParams}
    (hop : ∀ env balance, T.Generates t env →
      (t = .b ∨ ∀ id ∈ p.sourceLedgerEntryId, ¬ IsCustomId id) →
      T.Writes t (.createBucketLedgerEntry (p.entry env.row balance))) :
    (transaction l fun env => creditTx p env.row).Confined (T.scope t) fun _ => True := by
  refine confined_transaction _ ?_ ?_
  · intro env db a db' hgen hdb hrun
    rcases (creditTx_run_eq_ok db).1 hrun with ⟨e, -, -, rfl⟩ | ⟨-, -, hcreate⟩
    · exact ⟨hdb, trivial, fun _ => .refl _⟩
    · have hsource : ∀ id ∈ p.sourceLedgerEntryId, ¬ IsCustomId id := by
        intro id hid
        obtain ⟨-, -, -, hsource, -⟩ := Db.createBucketLedgerEntry_eq_ok.1 hcreate
        obtain ⟨e, he, rfl⟩ := hsource id hid
        exact hdb.notCustom e he
      have hwrites := hop env (db.balance p.bucketId) hgen (.inr hsource)
      refine ⟨hdb.apply hT hwrites hcreate, trivial, fun ht => ?_⟩
      subst ht
      exact .of_writes hT hwrites hdb hcreate
  · intro ht env db db' hgen hdb hdb' hsame
    subst ht
    have hwrites := fun balance => hop env balance hgen (.inl rfl)
    obtain ⟨-, hown, href, -⟩ := hwrites 0
    have hfind : db.findEntry p.reference = db'.findEntry p.reference :=
      hsame.bucketLedgerEntries.find?_eq (hdb.bucketLedgerEntries_of_reference hT href)
        (hdb'.bucketLedgerEntries_of_reference hT href)
    have hsum : ∀ entryType, db.entrySum p.bucketId entryType = db'.entrySum p.bucketId entryType :=
      fun entryType => hsame.bucketLedgerEntries.sumWhere_eq
        (fun e he hp => hdb.bucketLedgerEntries_of_bucket hT hown e he hp.1)
        fun e he hp => hdb'.bucketLedgerEntries_of_bucket hT hown e he hp.1
    have hbalance : db.balance p.bucketId = db'.balance p.bucketId := by
      unfold Db.balance
      rw [hsum, hsum]
    cases hfound : db.findEntry p.reference with
    | some e =>
      rw [creditTx_run_of_some db hfound, creditTx_run_of_some db' (hfind ▸ hfound)]
      exact .ok ⟨rfl, hsame⟩
    | none =>
      rw [creditTx_run_of_none db hfound, creditTx_run_of_none db' (hfind ▸ hfound), hbalance]
      exact (agrees_apply hT (hwrites _) hdb hdb' hsame).map fun s s' h => ⟨rfl, h⟩

theorem confined_credit {p : CreditParams}
    (hop : ∀ env balance, T.Generates t env →
      (t = .b ∨ ∀ id ∈ p.sourceLedgerEntryId, ¬ IsCustomId id) →
      T.Writes t (.createBucketLedgerEntry (p.entry env.row balance))) :
    (credit p).Confined (T.scope t) fun _ => True := by
  have hloop : ∀ n, (runSerializable (transaction (.credit p.bucketId p.reference p.amountKobo)
      fun env => creditTx p env.row) n).Confined (T.scope t) fun _ => True := by
    intro n
    induction n with
    | zero => exact confined_creditTx hT hop
    | succ n ih =>
      refine Proc.Confined.catching (confined_creditTx hT hop) fun err => ?_
      split
      next => exact ih
      next => trivial
  refine Proc.Confined.bind (hloop maxRetries) fun cumulative _ => ?_
  exact Proc.Confined.bind confined_audit fun _ _ => trivial

end Ledgers

/-! ### Executing a rule -/

/-- What triggers an execution for the tenant: one of its entries, or for a custom event what stands
in for one. -/
def Triggers (T : Tenants) (t : Tenant) (e : TriggerEntry) : Prop :=
  T.Sources t e.id ∧ (t = .b ∨ ¬ IsCustomId e.id → T.RecordsRef t e.nombaTransactionRef)

/-- An account of the tenant, as the engine knows it. -/
def OwnsRuleAccount (T : Tenants) (t : Tenant) (account : RuleAccount) : Prop :=
  T.OwnsAccount t account.id ∧ account.businessId = T.businessId t

section Execute

variable (hT : T.Apart) {t : Tenant} {x : String} {account : RuleAccount}
include hT

theorem confined_updateRuleExecution {data : Nat → RuleExecutionData} (hx : T.WrittenFor t x) :
    (updateRuleExecution x data).Confined (T.scope t) fun _ => True :=
  confined_statement hT fun _ _ => hx

theorem confined_markExecutionFailed {message : String} (hx : T.WrittenFor t x) :
    (markExecutionFailed x message).Confined (T.scope t)
      fun r => T.WrittenFor t r.ruleExecutionId :=
  Proc.Confined.bind (confined_updateRuleExecution hT hx) fun _ _ => hx

theorem confined_markCompleted {response : Option (List (String × Json))}
    (hx : T.WrittenFor t x) :
    (markCompleted x response).Confined (T.scope t) fun r => T.WrittenFor t r.ruleExecutionId :=
  Proc.Confined.bind (confined_updateRuleExecution hT hx) fun _ _ => hx

theorem confined_markRetrying {message : String} (hx : T.WrittenFor t x) :
    (markRetrying x message).Confined (T.scope t) fun r => T.WrittenFor t r.ruleExecutionId :=
  Proc.Confined.bind (confined_updateRuleExecution hT hx) fun _ _ => hx

theorem confined_allocate {ref : String} {bucket : TreasuryBucket} {entry : TriggerEntry}
    {amountKobo : Int} (hx : T.WrittenFor t x) (hbucket : bucket ∈ T.db₀.treasuryBuckets)
    (hbusiness : bucket.businessId = T.businessId t) (hentry : T.Triggers t entry) :
    (allocate x ref bucket.id account entry amountKobo).Confined (T.scope t)
      fun r => T.WrittenFor t r.ruleExecutionId := by
  refine Proc.Confined.bind (confined_credit hT ?_) fun cumulative _ => ?_
  · intro env balance hgen hsource
    have href : T.RecordsRef t entry.nombaTransactionRef :=
      hentry.2 (hsource.imp id fun h => h entry.id rfl)
    refine ⟨hgen.1, ⟨bucket, hbucket, hbusiness, rfl⟩,
      ⟨entry.nombaTransactionRef, href, bucket, hbucket, rfl⟩, ?_⟩
    intro l hl
    cases hl
    exact hentry.1
  · refine Proc.Confined.bind (confined_markCompleted hT hx) fun completed hcompleted => ?_
    exact Proc.Confined.bind confined_audit fun _ _ => hcompleted

theorem confined_handleReleaseFunds {payload : Option RulePayload} {entry : TriggerEntry}
    (hx : T.WrittenFor t x) (haccount : T.OwnsRuleAccount t account) (hentry : T.Triggers t entry) :
    (handleReleaseFunds x payload account entry).Confined (T.scope t)
      fun r => T.WrittenFor t r.ruleExecutionId := by
  unfold handleReleaseFunds
  dsimp only
  split
  next => exact confined_markExecutionFailed hT hx
  next =>
    refine Proc.Confined.bind (Q := fun found => ∀ b, found = some b →
      b ∈ T.db₀.treasuryBuckets ∧ b.businessId = T.businessId t) (confined_find ?_ ?_) ?_
    · intro env db hdb b hb
      rw [hdb.configuration.findBucket] at hb
      obtain ⟨hmem, hbusiness, -⟩ := findBucket_eq_some T.db₀ hb
      exact ⟨hmem, hbusiness.trans haccount.2⟩
    · intro _ env db db' hdb hdb' _
      rw [hdb.configuration.findBucket, hdb'.configuration.findBucket]
    · intro destinationBucket hbucket
      cases destinationBucket with
      | none => exact confined_markExecutionFailed hT hx
      | some bucket =>
        obtain ⟨hmem, hbusiness⟩ := hbucket bucket rfl
        dsimp only
        split
        next => exact confined_markExecutionFailed hT hx
        next =>
          split
          next => exact confined_markExecutionFailed hT hx
          next => trivial
          next =>
            split
            next => exact confined_markCompleted hT hx
            next =>
              exact Proc.Confined.catching (confined_allocate hT hx hmem hbusiness hentry)
                fun _ => confined_markRetrying hT hx

theorem confined_handleStatusChange {target : AccountStatus} {allowedFrom : List AccountStatus}
    {auditAction : AuditAction} (hx : T.WrittenFor t x)
    (haccount : T.OwnsRuleAccount t account) :
    (handleStatusChange x account target allowedFrom auditAction).Confined (T.scope t)
      fun r => T.WrittenFor t r.ruleExecutionId := by
  refine Proc.Confined.bind (Q := fun _ => True) (confined_find (fun _ _ _ => trivial) ?_) ?_
  · intro ht env db db' hdb hdb' hsame
    subst ht
    have hfind : db.findAccountById account.id = db'.findAccountById account.id :=
      hsame.accounts.find?_eq (hdb.accounts_of_id hT haccount.1) (hdb'.accounts_of_id hT haccount.1)
    rw [hfind]
  · intro current _
    cases current with
    | none => exact confined_markCompleted hT hx
    | some status =>
      dsimp only
      split
      next =>
        refine Proc.Confined.bind (confined_statement hT fun _ _ => haccount.1) fun _ _ => ?_
        exact Proc.Confined.bind confined_audit fun _ _ => confined_markCompleted hT hx
      next => exact confined_markCompleted hT hx

theorem confined_handleNotifyWebhook {payload : Option RulePayload} (hx : T.WrittenFor t x) :
    (handleNotifyWebhook x payload account).Confined (T.scope t)
      fun r => T.WrittenFor t r.ruleExecutionId := by
  unfold handleNotifyWebhook
  dsimp only
  split
  next => exact confined_markExecutionFailed hT hx
  next =>
    refine Proc.Confined.bind confined_deliver fun result _ => ?_
    cases result with
    | ok status =>
      refine Proc.Confined.bind (confined_markCompleted hT hx) fun completed hcompleted => ?_
      exact Proc.Confined.bind confined_audit fun _ _ => hcompleted
    | error e => exact confined_markRetrying hT hx

theorem confined_handleFlagForReview {ledgerEntryId : Option String} (hx : T.WrittenFor t x)
    (hentry : ∀ l ∈ ledgerEntryId, T.WrittenFor t l) :
    (handleFlagForReview x account ledgerEntryId).Confined (T.scope t)
      fun r => T.WrittenFor t r.ruleExecutionId := by
  have hflag : (flagLedgerEntry ledgerEntryId).Confined (T.scope t) fun _ => True := by
    cases ledgerEntryId with
    | none => trivial
    | some id => exact confined_statement hT fun _ _ => hentry id rfl
  refine Proc.Confined.bind hflag fun _ _ => ?_
  exact Proc.Confined.bind confined_audit fun _ _ => confined_markCompleted hT hx

omit hT in
theorem Triggers.writtenFor {entry : TriggerEntry} (hentry : T.Triggers t entry) :
    ∀ l ∈ entry.realLedgerEntryId, T.WrittenFor t l := by
  intro l hl
  unfold TriggerEntry.realLedgerEntryId at hl
  split at hl
  next => cases hl
  next hcustom =>
    cases hl
    exact hentry.1.resolve_left hcustom

/-- **The execution of a rule** of the tenant's account. -/
theorem confined_execute {rule : EvaluatedRule} {entry : TriggerEntry}
    (haccount : T.OwnsRuleAccount t rule.account) (hentry : T.Triggers t entry) :
    (execute rule entry).Confined (T.scope t) fun r => T.WrittenFor t r.ruleExecutionId := by
  have hop : ∀ env, T.Generates t env →
      T.Writes t (.createRuleExecution (pendingExecution env.row.id rule entry)) :=
    fun env hgen => ⟨hgen.1, haccount.1, hentry.writtenFor⟩
  have hrun : ∀ (env : Env) (db : Db),
      (do Tx.exec (.createRuleExecution (pendingExecution env.row.id rule entry))
          return env.row.id : TxBody String).run schema db =
        ((WriteOp.createRuleExecution (pendingExecution env.row.id rule entry)).apply db).map
          fun db' => (env.row.id, db') := by
    intro env db
    simp only [Tx.bind_eq, Tx.run_bind, Tx.run_exec, schema_apply, Tx.pure_eq]
    cases (WriteOp.createRuleExecution (pendingExecution env.row.id rule entry)).apply db <;> rfl
  have hcreate : (createRuleExecution rule entry).Confined (T.scope t) (T.WrittenFor t) := by
    refine confined_transaction _ ?_ ?_
    · intro env db a db' hgen hdb hok
      rw [hrun] at hok
      cases hcreate : (WriteOp.createRuleExecution
          (pendingExecution env.row.id rule entry)).apply db with
      | error e =>
        rw [hcreate] at hok
        cases hok
      | ok db'' =>
        rw [hcreate] at hok
        cases hok
        refine ⟨hdb.apply hT (hop env hgen) hcreate, hgen.1, fun ht => ?_⟩
        subst ht
        exact .of_writes hT (hop env hgen) hdb hcreate
    · intro ht env db db' hgen hdb hdb' hsame
      subst ht
      rw [hrun, hrun]
      exact (agrees_apply hT (hop env hgen) hdb hdb' hsame).map fun s s' h => ⟨rfl, h⟩
  refine Proc.Confined.bind hcreate fun x hx => ?_
  unfold act
  split
  next => exact confined_handleReleaseFunds hT hx haccount hentry
  next => exact confined_handleStatusChange hT hx haccount
  next => exact confined_handleStatusChange hT hx haccount
  next => exact confined_handleStatusChange hT hx haccount
  next => exact confined_handleFlagForReview hT hx hentry.writtenFor
  next => exact confined_handleNotifyWebhook hT hx

end Execute

end Tenants

end AccountOS
