import AccountOS.Queue.RetryProcessor

/-!
# A retry against the first attempt

RELEASE_FUNDS is implemented twice, in `handleReleaseFunds` and in `attemptRelease`. Both look up
the destination bucket, compute the amount and credit it, and in the same state, with the same
environment, they credit the same amount to the same bucket under the same reference. Only the
first attempt looks at the bucket's status and at the sign of the amount
(`retry_agrees_iff`).
-/

namespace AccountOS

open Conc Sql RetryProcessor

/-! ### What a method writes to the buckets -/

/-- A bucket entry without its id and time, its running balance and its narration. -/
structure WrittenEntry where
  entryType : BucketEntryType
  bucketId : String
  amountKobo : Int
  reference : String
  sourceLedgerEntryId : Option String
deriving DecidableEq, Repr

def BucketLedgerEntry.written (e : BucketLedgerEntry) : WrittenEntry :=
  ⟨e.entryType, e.bucketId, e.amountKobo, e.reference, e.sourceLedgerEntryId⟩

section Writes

variable {α : Type} (env : Call → Env) (w : World)

/-- The bucket entries after a method has run. -/
def entriesAfter (p : Action α) : List BucketLedgerEntry :=
  (p.runWith env w).2.db.bucketLedgerEntries

/-- The entries that a method adds. -/
def writtenBy (p : Action α) : List WrittenEntry :=
  ((entriesAfter env w p).drop w.db.bucketLedgerEntries.length).map BucketLedgerEntry.written

theorem writtenBy_of_entriesAfter {p : Action α} {added : List BucketLedgerEntry}
    (h : entriesAfter env w p = w.db.bucketLedgerEntries ++ added) :
    writtenBy env w p = added.map BucketLedgerEntry.written := by
  rw [writtenBy, h, List.drop_left]

end Writes

/-! ### Calls that write no bucket entry -/

section Quiet

variable (env : Call → Env) (w : World)

theorem entriesAfter_updateRuleExecution (id : String) (data : Nat → RuleExecutionData) :
    entriesAfter env w (updateRuleExecution id data) = w.db.bucketLedgerEntries := by
  unfold entriesAfter updateRuleExecution statement
  rw [Proc.runWith_call]
  rcases statementStep_cases (fun e => .updateRuleExecution id (data e.now))
    (env (.updateRuleExecution id)) w with ⟨-, db, hdb, hstep⟩ | ⟨e, w', hstep, hsame, -⟩
  · rw [hstep]
    obtain ⟨-, rfl⟩ := Db.updateRuleExecution_eq_ok.1 hdb
    rfl
  · rw [hstep, hsame.db]

theorem entriesAfter_audit (entry : AuditLogEntry) :
    entriesAfter env w (audit entry) = w.db.bucketLedgerEntries := by
  unfold entriesAfter audit
  rw [Proc.runWith_call, World.log_db]

/-- A method whose value does not matter after its only write. -/
theorem entriesAfter_bind_ret {α β : Type} (p : Action α) (f : α → β) :
    entriesAfter env w (p.bind fun a => .ret (f a)) = entriesAfter env w p := by
  unfold entriesAfter
  rw [Proc.runWith_bind]
  rcases p.runWith env w with ⟨e | a, w'⟩ <;> rfl

/-- Nothing is added by what follows when it adds nothing in any world. -/
theorem entriesAfter_bind {α β : Type} {p : Action α} {f : α → Action β}
    (h : ∀ a w', entriesAfter env w' (f a) = w'.db.bucketLedgerEntries) :
    entriesAfter env w (p.bind f) = entriesAfter env w p := by
  unfold entriesAfter at h ⊢
  rw [Proc.runWith_bind]
  rcases hp : p.runWith env w with ⟨e | a, w'⟩
  · rfl
  · exact h a w'

theorem entriesAfter_catching {α : Type} {p : Action α} {f : Error → Action α}
    (h : ∀ e w', entriesAfter env w' (f e) = w'.db.bucketLedgerEntries) :
    entriesAfter env w (p.catching f) = entriesAfter env w p := by
  unfold entriesAfter at h ⊢
  rw [Proc.runWith_catching]
  rcases hp : p.runWith env w with ⟨e | a, w'⟩
  · exact h e w'
  · rfl

end Quiet

/-! ### `credit` -/

section Credit

variable (env : Call → Env) (db : Db) (w : World)

/-- The environment's choice at the transaction of a credit. -/
def creditEnv (p : CreditParams) : Env := env (.credit p.bucketId p.reference p.amountKobo)

/-- A credit that writes its entry: the call does not fail, the reference is not taken and the
insert meets the constraints. -/
def Creditable (p : CreditParams) : Prop :=
  (creditEnv env p).fault = none ∧
  (∀ e ∈ db.bucketLedgerEntries, e.id ≠ (creditEnv env p).row.id) ∧
  (∀ e ∈ db.bucketLedgerEntries, e.reference ≠ p.reference) ∧
  (∃ b ∈ db.treasuryBuckets, b.id = p.bucketId) ∧
  ∀ l ∈ p.sourceLedgerEntryId, ∃ e ∈ db.ledgerEntries, e.id = l

instance (p : CreditParams) : Decidable (Creditable env db p) := by
  unfold Creditable
  infer_instance

/-- What a credit adds. -/
def creditAdds (p : CreditParams) : List BucketLedgerEntry :=
  if Creditable env db p then [p.entry (creditEnv env p).row (db.balance p.bucketId)] else []

theorem creditable_iff (p : CreditParams) :
    Creditable env db p ↔ (creditEnv env p).fault = none ∧ db.findEntry p.reference = none ∧
      ∃ db', db.createBucketLedgerEntry
        (p.entry (creditEnv env p).row (db.balance p.bucketId)) = .ok db' := by
  unfold Creditable
  rw [findEntry_eq_none_iff]
  constructor
  · rintro ⟨hf, hid, href, hbucket, hsource⟩
    exact ⟨hf, href, _, Db.createBucketLedgerEntry_eq_ok.2 ⟨hid, href, hbucket, hsource, rfl⟩⟩
  · rintro ⟨hf, href, db', hdb⟩
    obtain ⟨hid, -, hbucket, hsource, -⟩ := Db.createBucketLedgerEntry_eq_ok.1 hdb
    exact ⟨hf, hid, href, hbucket, hsource⟩

/-- One attempt at the transaction: it adds what the credit adds, and one that throws leaves the
database as it is. -/
theorem creditTx_step (p : CreditParams) :
    (∃ a, ∃ w' : World, transactionStep (fun e => creditTx p e.row) (fun _ _ w => w)
        (creditEnv env p) w = (.ok a, w') ∧
      w'.db.bucketLedgerEntries = w.db.bucketLedgerEntries ++ creditAdds env w.db p) ∨
    (∃ e, ∃ w' : World, transactionStep (fun e => creditTx p e.row) (fun _ _ w => w)
        (creditEnv env p) w = (.error e, w') ∧
      w'.db = w.db ∧ creditAdds env w.db p = []) := by
  rcases transactionStep_cases (fun e => creditTx p e.row) logsOnly_nothing (creditEnv env p) w with
    ⟨a, db, hf, hrun, hstep⟩ | ⟨e, w', hstep, hthrown⟩
  · refine .inl ⟨a, _, hstep, ?_⟩
    rcases (creditTx_run_eq_ok w.db).1 hrun with ⟨e, he, -, rfl⟩ | ⟨hnone, -, hdb⟩
    · have hno : ¬ Creditable env w.db p := by
        rw [creditable_iff]
        rintro ⟨-, hnone, -⟩
        rw [Option.mem_def, hnone] at he
        cases he
      rw [creditAdds, if_neg hno, List.append_nil]
    · rw [creditAdds, if_pos ((creditable_iff env w.db p).2 ⟨hf, hnone, db, hdb⟩)]
      obtain ⟨-, -, -, -, rfl⟩ := Db.createBucketLedgerEntry_eq_ok.1 hdb
      rfl
  · refine .inr ⟨e, w', hstep, hthrown.same.db, if_neg fun hcredit => ?_⟩
    obtain ⟨hf, hnone, db, hdb⟩ := (creditable_iff env w.db p).1 hcredit
    exact hthrown.aborted hf (w.db.balance p.bucketId + p.amountKobo, db)
      ((creditTx_run_eq_ok w.db).2 (.inr ⟨hnone, rfl, hdb⟩))

/-- Trying again after a serialization failure adds no more than one attempt. -/
theorem entriesAfter_runSerializable (p : CreditParams) (retries : Nat) :
    entriesAfter env w (runSerializable
      (transaction (.credit p.bucketId p.reference p.amountKobo) fun e => creditTx p e.row)
      retries) = w.db.bucketLedgerEntries ++ creditAdds env w.db p := by
  have hrun : ∀ w, (transaction (.credit p.bucketId p.reference p.amountKobo)
      fun e => creditTx p e.row).runWith env w =
        transactionStep (fun e => creditTx p e.row) (fun _ _ w => w) (creditEnv env p) w :=
    fun w => Proc.runWith_call _ _ _ _
  induction retries generalizing w with
  | zero =>
    unfold entriesAfter runSerializable
    rw [hrun]
    rcases creditTx_step env w p with ⟨a, w', hstep, hadds⟩ | ⟨e, w', hstep, hdb, hadds⟩
    · rw [hstep, hadds]
    · rw [hstep, hadds, hdb, List.append_nil]
  | succ retries ih =>
    unfold entriesAfter runSerializable
    rw [Proc.runWith_catching, hrun]
    rcases creditTx_step env w p with ⟨a, w', hstep, hadds⟩ | ⟨e, w', hstep, hdb, hadds⟩
    · rw [hstep, hadds]
    · rw [hstep]
      dsimp only
      split
      · have hagain := ih w'
        rw [hdb] at hagain
        exact hagain
      · rw [Proc.runWith_raise, hdb, hadds, List.append_nil]

/-- **What `credit` writes.** -/
theorem entriesAfter_credit (p : CreditParams) :
    entriesAfter env w (credit p) = w.db.bucketLedgerEntries ++ creditAdds env w.db p := by
  unfold credit
  rw [Proc.bind_eq, entriesAfter_bind, entriesAfter_runSerializable]
  intro a w'
  rw [Proc.bind_eq, Proc.pure_eq, entriesAfter_bind_ret, entriesAfter_audit]

/-- Credits that differ in their narration alone add the same. -/
theorem written_creditAdds_congr {p q : CreditParams} (hbucket : p.bucketId = q.bucketId)
    (hamount : p.amountKobo = q.amountKobo) (href : p.reference = q.reference)
    (hsource : p.sourceLedgerEntryId = q.sourceLedgerEntryId) :
    (creditAdds env w.db p).map BucketLedgerEntry.written =
      (creditAdds env w.db q).map BucketLedgerEntry.written := by
  obtain ⟨bucketId, businessId, amountKobo, reference, source, narration, accountRef⟩ := p
  obtain ⟨bucketId', businessId', amountKobo', reference', source', narration', accountRef'⟩ := q
  dsimp only at hbucket hamount href hsource
  subst hbucket hamount href hsource
  have hiff : Creditable env w.db
      ⟨bucketId, businessId, amountKobo, reference, source, narration, accountRef⟩ ↔
        Creditable env w.db
      ⟨bucketId, businessId', amountKobo, reference, source, narration', accountRef'⟩ := Iff.rfl
  unfold creditAdds
  by_cases h : Creditable env w.db
      ⟨bucketId, businessId, amountKobo, reference, source, narration, accountRef⟩
  · rw [if_pos h, if_pos (hiff.1 h)]
    rfl
  · rw [if_neg h, if_neg (fun h' => h (hiff.2 h'))]

end Credit

/-! ### The two attempts -/

section Attempts

variable (env : Call → Env) (w : World)

/-- The bucket and the amount that a release arrives at: the payload names a bucket of the
business, and it has an amount. -/
def releaseTarget (businessId : String) (payload : Option RulePayload) (inflow : Int) :
    Option (TreasuryBucket × Int) :=
  let destinationAccountRef := (payload.getD {}).destinationAccountRef.getD ""
  if destinationAccountRef = "" ∨
      (env (.findBucket businessId destinationAccountRef)).fault ≠ none then
    none
  else
    match w.db.findBucket businessId destinationAccountRef,
      releaseAmount (payload.getD {}) inflow with
    | some bucket, some (.ok amountKobo) => some (bucket, amountKobo)
    | _, _ => none

theorem entriesAfter_markExecutionFailed (id message : String) :
    entriesAfter env w (markExecutionFailed id message) = w.db.bucketLedgerEntries := by
  unfold markExecutionFailed
  rw [Proc.bind_eq, Proc.pure_eq, entriesAfter_bind_ret, entriesAfter_updateRuleExecution]

theorem entriesAfter_markCompleted (id : String) (response : Option (List (String × Json))) :
    entriesAfter env w (markCompleted id response) = w.db.bucketLedgerEntries := by
  unfold markCompleted
  rw [Proc.bind_eq, Proc.pure_eq, entriesAfter_bind_ret, entriesAfter_updateRuleExecution]

theorem entriesAfter_markRetrying (id message : String) :
    entriesAfter env w (markRetrying id message) = w.db.bucketLedgerEntries := by
  unfold markRetrying
  rw [Proc.bind_eq, Proc.pure_eq, entriesAfter_bind_ret, entriesAfter_updateRuleExecution]

theorem entriesAfter_allocate (executionId ref bucketId : String) (account : RuleAccount)
    (ledgerEntry : TriggerEntry) (amountKobo : Int) :
    entriesAfter env w (allocate executionId ref bucketId account ledgerEntry amountKobo) =
      w.db.bucketLedgerEntries ++
        creditAdds env w.db (releaseCredit bucketId account ledgerEntry amountKobo) := by
  unfold allocate
  rw [Proc.bind_eq, entriesAfter_bind, entriesAfter_credit]
  intro cumulative w'
  rw [Proc.bind_eq, entriesAfter_bind, entriesAfter_markCompleted]
  intro completed w''
  rw [Proc.bind_eq, Proc.pure_eq, entriesAfter_bind_ret, entriesAfter_audit]

theorem entriesAfter_reallocate (p : CreditParams) (ref : String) :
    entriesAfter env w (reallocate p ref) =
      w.db.bucketLedgerEntries ++ creditAdds env w.db p := by
  unfold reallocate
  simp only [Proc.bind_eq, Proc.pure_eq, entriesAfter_bind_ret, entriesAfter_credit]

/-- A lookup that goes on when it answers. -/
theorem entriesAfter_find {α β : Type} {l : Call} {f : Env → Db → β} {k : β → Action α} :
    entriesAfter env w ((find l f).bind k) =
      if (env l).fault = none then entriesAfter env w (k (f (env l) w.db))
      else w.db.bucketLedgerEntries := by
  unfold entriesAfter find
  rw [Proc.runWith_bind, Proc.runWith_call]
  rcases findStep_cases f (env l) w with ⟨hf, hstep⟩ | ⟨e, w', hstep, hsame, -⟩
  · rw [hstep, if_pos hf]
  · rw [hstep]
    dsimp only
    rw [hsame.db]
    split
    next hf =>
      -- without a fault a lookup answers
      simp [findStep, transactionStep, hf] at hstep
    next => rfl

/-- **What the first attempt writes.** -/
theorem entriesAfter_handleReleaseFunds (executionId : String) (payload : Option RulePayload)
    (account : RuleAccount) (ledgerEntry : TriggerEntry) :
    entriesAfter env w (handleReleaseFunds executionId payload account ledgerEntry) =
      w.db.bucketLedgerEntries ++
        match releaseTarget env w account.businessId payload ledgerEntry.amountKobo with
        | none => []
        | some (bucket, amountKobo) =>
          if bucket.status = .active ∧ 0 < amountKobo then
            creditAdds env w.db (releaseCredit bucket.id account ledgerEntry amountKobo)
          else [] := by
  unfold handleReleaseFunds releaseTarget
  dsimp only
  by_cases hdest : (payload.getD {}).destinationAccountRef.getD "" = ""
  · rw [if_pos hdest, if_pos (.inl hdest), entriesAfter_markExecutionFailed, List.append_nil]
  rw [if_neg hdest, Proc.bind_eq, entriesAfter_find]
  by_cases hfault : (env (.findBucket account.businessId
      ((payload.getD {}).destinationAccountRef.getD ""))).fault = none
  swap
  · rw [if_neg hfault, if_pos (.inr hfault), List.append_nil]
  rw [if_pos hfault, if_neg (by simp [hdest, hfault])]
  cases w.db.findBucket account.businessId ((payload.getD {}).destinationAccountRef.getD "") with
  | none => rw [entriesAfter_markExecutionFailed, List.append_nil]
  | some bucket =>
    dsimp only
    by_cases hstatus : bucket.status = .active
    swap
    · -- the execution fails before the amount is computed
      rw [if_pos hstatus, entriesAfter_markExecutionFailed]
      rcases releaseAmount (payload.getD {}) ledgerEntry.amountKobo with _ | e | amountKobo
      · rw [List.append_nil]
      · rw [List.append_nil]
      · dsimp only
        rw [if_neg (fun h => hstatus h.1), List.append_nil]
    rw [if_neg (not_not_intro hstatus)]
    rcases releaseAmount (payload.getD {}) ledgerEntry.amountKobo with _ | e | amountKobo
    · rw [entriesAfter_markExecutionFailed, List.append_nil]
    · simp [entriesAfter]
    · dsimp only
      by_cases hpos : 0 < amountKobo
      · rw [if_neg (not_le.2 hpos), if_pos ⟨hstatus, hpos⟩, Proc.tryCatch_eq, entriesAfter_catching,
          entriesAfter_allocate]
        exact fun e w' => entriesAfter_markRetrying env w' executionId e.message
      · rw [if_pos (not_lt.1 hpos), if_neg (fun h => hpos h.2), entriesAfter_markCompleted,
          List.append_nil]

/-- **What a retry writes.** Neither the bucket's status nor the sign of the amount is looked
at. -/
theorem entriesAfter_attemptRelease (execution : RuleExecution) (rule : Rule) (account : Account)
    (ledgerEntry : LedgerEntry) (attempt : Nat) :
    entriesAfter env w (attemptRelease ⟨execution, rule, account, some ledgerEntry⟩ attempt) =
      w.db.bucketLedgerEntries ++
        match releaseTarget env w account.businessId rule.payload ledgerEntry.amountKobo with
        | none => []
        | some (bucket, amountKobo) =>
          creditAdds env w.db (retryCredit bucket.id account ledgerEntry amountKobo attempt) := by
  have hret : ∀ outcome : AttemptOutcome,
      entriesAfter env w (.ret outcome) = w.db.bucketLedgerEntries := fun _ => rfl
  unfold attemptRelease releaseTarget
  dsimp only
  by_cases hdest : (rule.payload.getD {}).destinationAccountRef.getD "" = ""
  · rw [if_pos hdest, if_pos (.inl hdest), Proc.pure_eq, hret, List.append_nil]
  rw [if_neg hdest, Proc.bind_eq, entriesAfter_find]
  by_cases hfault : (env (.findBucket account.businessId
      ((rule.payload.getD {}).destinationAccountRef.getD ""))).fault = none
  swap
  · rw [if_neg hfault, if_pos (.inr hfault), List.append_nil]
  rw [if_pos hfault, if_neg (by simp [hdest, hfault])]
  cases w.db.findBucket account.businessId
      ((rule.payload.getD {}).destinationAccountRef.getD "") with
  | none => rw [Proc.pure_eq, hret, List.append_nil]
  | some bucket =>
    dsimp only
    rcases releaseAmount (rule.payload.getD {}) ledgerEntry.amountKobo with _ | e | amountKobo
    · rw [Proc.pure_eq, hret, List.append_nil]
    · simp [entriesAfter]
    · dsimp only
      rw [Proc.tryCatch_eq, entriesAfter_catching, entriesAfter_reallocate]
      exact fun e w' => rfl

end Attempts

/-! ### When they agree -/

/-- What a release adds, written as one credit: the narration is not looked at. -/
def releaseParams (bucket : TreasuryBucket) (account : Account) (ledgerEntry : LedgerEntry)
    (amountKobo : Int) : CreditParams :=
  releaseCredit bucket.id account.forRule ledgerEntry.trigger amountKobo

/-- **When a retry agrees with the first attempt.** In the same state and with the same
environment the two write the same entries exactly when the destination bucket is ACTIVE and the
amount positive, or there is nothing to write. -/
theorem retry_agrees_iff (env : Call → Env) (w : World) (execution : RuleExecution) (rule : Rule)
    (account : Account) (ledgerEntry : LedgerEntry) (attempt : Nat) (executionId : String) :
    writtenBy env w (attemptRelease ⟨execution, rule, account, some ledgerEntry⟩ attempt) =
        writtenBy env w (handleReleaseFunds executionId rule.payload account.forRule
          ledgerEntry.trigger) ↔
      ∀ bucket amountKobo,
        releaseTarget env w account.businessId rule.payload ledgerEntry.amountKobo =
          some (bucket, amountKobo) →
        (bucket.status = .active ∧ 0 < amountKobo) ∨
          ¬ Creditable env w.db (releaseParams bucket account ledgerEntry amountKobo) := by
  rw [writtenBy_of_entriesAfter env w (entriesAfter_attemptRelease env w execution rule account
      ledgerEntry attempt),
    writtenBy_of_entriesAfter env w (entriesAfter_handleReleaseFunds env w executionId rule.payload
      account.forRule ledgerEntry.trigger)]
  show _ = List.map _ (match releaseTarget env w account.businessId rule.payload
    ledgerEntry.amountKobo with
      | none => []
      | some (bucket, amountKobo) => if bucket.status = .active ∧ 0 < amountKobo then
          creditAdds env w.db (releaseParams bucket account ledgerEntry amountKobo) else []) ↔ _
  rcases releaseTarget env w account.businessId rule.payload ledgerEntry.amountKobo with
    _ | ⟨bucket, amountKobo⟩
  · simp
  · dsimp only
    -- the attempt is in the narration only
    have hsame : (creditAdds env w.db (retryCredit bucket.id account ledgerEntry amountKobo
        attempt)).map BucketLedgerEntry.written = (creditAdds env w.db
        (releaseParams bucket account ledgerEntry amountKobo)).map BucketLedgerEntry.written :=
      written_creditAdds_congr env w rfl rfl rfl rfl
    have hempty : (creditAdds env w.db (releaseParams bucket account ledgerEntry amountKobo)).map
        BucketLedgerEntry.written = [] ↔
          ¬ Creditable env w.db (releaseParams bucket account ledgerEntry amountKobo) := by
      unfold creditAdds
      split <;> simp [*]
    rw [hsame]
    constructor
    · intro heq bucket' amountKobo' htarget
      obtain ⟨rfl, rfl⟩ : bucket = bucket' ∧ amountKobo = amountKobo' := by simpa using htarget
      by_cases h : bucket.status = .active ∧ 0 < amountKobo
      · exact .inl h
      · rw [if_neg h] at heq
        exact .inr (hempty.1 heq)
    · intro h
      rcases h bucket amountKobo rfl with hok | hno
      · rw [if_pos hok]
      · rw [hempty.2 hno]
        split
        · rw [hempty.2 hno]
        · rfl

/-! ### A bucket that was closed in between -/

namespace Sample

/-- The inflow's entry, whose allocation has failed once. -/
def inflowEntry : LedgerEntry where
  id := "entry1"
  accountId := "acc1"
  nombaTransactionRef := "trx1"
  nombaEventId := "evt1"
  direction := .inflow
  amountKobo := 500
  customerNameSnapshot := "Unknown"
  kycTierAtTime := .tier0
  cumulativeAmountKobo := 500
  receivedAt := 0
  createdAt := 0

/-- The execution that is tried again. -/
def retryingExecution : RuleExecution where
  id := "exec1"
  ruleId := "rule1"
  accountId := "acc1"
  triggeredByLedgerEntryId := some "entry1"
  triggeredBy := "evt1"
  status := .retrying
  attempt := 1

/-- Half of every inflow goes to `ops`. -/
def halfToOps : RulePayload where
  destinationAccountRef := some "ops"
  percentage := some 50

/-- The account while `ops` has the given status. -/
def shopWithEntry (status : AccountStatus) : World :=
  let w := shop [{ id := "bkt1aaaaaaaa", bucketRef := "ops", businessId := "biz", status }]
    [release "rule1" halfToOps]
  { w with db := { w.db with
    ledgerEntries := [inflowEntry], ruleExecutions := [retryingExecution] } }

end Sample

/-- The bucket `ops` is CLOSED when the retry runs: the retry credits it, and a first attempt would
not have. -/
theorem retry_credits_closed_bucket :
    writtenBy (fun _ => {}) (Sample.shopWithEntry .closed)
        (attemptRelease ⟨Sample.retryingExecution, Sample.release "rule1" Sample.halfToOps,
          Sample.account, some Sample.inflowEntry⟩ 2) ≠
      writtenBy (fun _ => {}) (Sample.shopWithEntry .closed)
        (handleReleaseFunds "exec1" (some Sample.halfToOps) Sample.account.forRule
          Sample.inflowEntry.trigger) := by
  decide +kernel

end AccountOS
