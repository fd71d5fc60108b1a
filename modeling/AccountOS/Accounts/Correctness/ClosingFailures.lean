import AccountOS.Accounts.AccountLifecycle
import AccountOS.Queue.Correctness.ExecutionCalls
import AccountOS.Queue.Correctness.RetryAgreement
import AccountOS.Sql.Column

/-!
# A closing that fails

`closeAccount` archives the executions of the account that are not finished, then asks Nomba to
expire the virtual account, and then closes the account. When one of the two later steps fails, the
account stays open and its executions stay ARCHIVED, so that their retries do nothing any more
(`closing_leaves_state_iff`).
-/

namespace AccountOS

open Conc Sql AccountLifecycle

/-! ### The statement -/

/-- The account's status and the status of every execution. -/
def Db.closingState (db : Db) (accountId : String) :
    Option AccountStatus × List (String × RuleExecutionStatus) :=
  (columnOf Account.id Account.status accountId db.accounts,
    db.ruleExecutions.map fun x => (x.id, x.status))

/-- A call that throws has left the statuses as they were. -/
def LeavesState (accountId : String) (w : World) (r : Except Error (Option Account)) (w' : World) :
    Prop :=
  ∀ e, r = .error e → w'.db.closingState accountId = w.db.closingState accountId

/-- The executions are archived: the account is found open, and none of the steps up to the
archiving fails. -/
structure ReachesArchiving (env : Call → Env) (accountRef businessId : String) (a : Account) :
    Prop where
  account : (env (.findAccountByRef businessId accountRef)).fault = none
  isOpen : a.status = .active ∨ a.status = .suspended
  archive : (env (.archiveExecutions a.id)).fault = none

/-- One of the steps after the archiving fails. -/
def FailsLater (env : Call → Env) (a : Account) : Prop :=
  (env (.expireDva a.nombaAccountId)).fault ≠ none ∨
    (env (.updateAccountStatus a.id .closed)).fault ≠ none

/-! ### The steps -/

section Steps

variable {env : Call → Env} {w : World} {a : Account}

theorem runWith_expireDva_of_none {nombaAccountId : String}
    (hfault : (env (.expireDva nombaAccountId)).fault = none) :
    (expireDva nombaAccountId).runWith env w = (.ok (), w) := by
  simp [expireDva, hfault]

theorem runWith_expireDva_of_fault {nombaAccountId : String}
    (hfault : (env (.expireDva nombaAccountId)).fault ≠ none) :
    ∃ e, (expireDva nombaAccountId).runWith env w = (.error e, w) := by
  obtain ⟨f, hf⟩ := Option.ne_none_iff_exists'.1 hfault
  exact ⟨f.error, by simp [expireDva, hf]⟩

/-- The world with the unfinished executions archived. -/
def World.withArchived (w : World) (accountId : String) : World :=
  { w with db := { w.db with
    ruleExecutions := w.db.ruleExecutions.map (RuleExecution.archivedWith accountId) } }

/-- **Archiving changes nothing** exactly if nothing is unfinished. -/
theorem closingState_withArchived_iff {accountId : String} :
    (w.withArchived accountId).db.closingState accountId = w.db.closingState accountId ↔
      w.db.unfinished accountId = [] := by
  unfold World.withArchived Db.closingState Db.unfinished
  dsimp only
  rw [List.map_map, Prod.mk.injEq, eq_self, true_and]
  apply map_comp_eq_iff
  · intro x hunfinished hsame
    have hstatus := congrArg Prod.snd hsame
    rw [RuleExecution.archivedWith, if_pos hunfinished] at hstatus
    have harchived : RuleExecutionStatus.archived = x.status := hstatus
    rw [← harchived] at hunfinished
    rcases hunfinished.2 with h | h <;> cases h
  · exact fun x hfinished => if_neg hfinished

/-- The archiving is a statement of its own. -/
theorem runWith_archiveExecutions (hfault : (env (.archiveExecutions a.id)).fault = none) :
    (transaction (.archiveExecutions a.id) fun _ => archiveExecutionsTx a.id).runWith env w =
      (.ok (w.db.unfinished a.id).length, w.withArchived a.id) :=
  runWith_transaction_of_ok hfault rfl

/-- The account is updated when it is there. -/
theorem runWith_updateAccount (ha : ∃ a' ∈ w.db.accounts, a'.id = a.id)
    (hfault : (env (.updateAccountStatus a.id .closed)).fault = none) :
    ∃ updated w', (transaction (.updateAccountStatus a.id .closed) fun env =>
      updateAccountTx a.id (.closeAccount a.id env.now "Account closed via API")).runWith env w =
        (.ok updated, w') := by
  obtain ⟨db', hclose⟩ : ∃ db', w.db.closeAccount a.id (env (.updateAccountStatus a.id .closed)).now
      "Account closed via API" = .ok db' := ⟨_, Db.closeAccount_eq_ok.2 ⟨ha, rfl⟩⟩
  have hbody : (updateAccountTx a.id (.closeAccount a.id
      (env (.updateAccountStatus a.id .closed)).now "Account closed via API")).run schema w.db =
        .ok (db'.findAccountById a.id, db') := by
    simp only [updateAccountTx, Tx.bind_eq, Tx.run_bind_eq_ok, Tx.run_exec_eq_ok, schema_apply,
      WriteOp.apply]
    exact ⟨(), db', hclose, rfl⟩
  exact ⟨_, _, runWith_transaction_of_ok hfault hbody⟩

/-- **A closing after the archiving**: it throws exactly if a later step fails, and then the
executions are archived and nothing else has changed. -/
theorem runWith_close {businessId actor : String} (ha : a ∈ w.db.accounts)
    (harchive : (env (.archiveExecutions a.id)).fault = none) :
    (FailsLater env a → ∃ e w', (close a businessId actor).runWith env w = (.error e, w') ∧
        World.SameData (w.withArchived a.id) w') ∧
      (¬ FailsLater env a →
        ∃ updated w', (close a businessId actor).runWith env w = (.ok updated, w')) := by
  rw [close, Proc.bind_eq, Proc.runWith_bind, runWith_archiveExecutions harchive]
  dsimp only
  rw [Proc.bind_eq, Proc.runWith_bind]
  -- the executions are archived by now, and Nomba is asked next
  by_cases hexpire : (env (.expireDva a.nombaAccountId)).fault = none
  swap
  · obtain ⟨e, hrun⟩ : ∃ e, (expireDva a.nombaAccountId).runWith env (w.withArchived a.id) =
        (.error e, w.withArchived a.id) := runWith_expireDva_of_fault hexpire
    rw [hrun]
    exact ⟨fun _ => ⟨e, _, rfl, .refl _⟩, fun h => absurd (.inl hexpire) h⟩
  rw [runWith_expireDva_of_none hexpire]
  dsimp only
  rw [Proc.bind_eq, Proc.runWith_bind]
  by_cases hupdate : (env (.updateAccountStatus a.id .closed)).fault = none
  · obtain ⟨updated, w', hrun⟩ : ∃ updated w', (transaction (.updateAccountStatus a.id .closed)
        fun env => updateAccountTx a.id (.closeAccount a.id env.now
          "Account closed via API")).runWith env (w.withArchived a.id) = (.ok updated, w') :=
      runWith_updateAccount ⟨a, ha, rfl⟩ hupdate
    rw [hrun]
    constructor
    · rintro (h | h)
      · exact absurd hexpire h
      · exact absurd hupdate h
    · exact fun _ => ⟨updated, _, rfl⟩
  · obtain ⟨e, w', hrun, hsame⟩ : ∃ e w', (transaction (.updateAccountStatus a.id .closed)
        fun env => updateAccountTx a.id (.closeAccount a.id env.now
          "Account closed via API")).runWith env (w.withArchived a.id) = (.error e, w') ∧
            World.SameData (w.withArchived a.id) w' :=
      runWith_transaction_of_fault hupdate
    rw [hrun]
    exact ⟨fun _ => ⟨e, w', rfl, hsame⟩, fun h => absurd (.inr hupdate) h⟩

/-- **Before the archiving** a failure leaves everything as it is. -/
theorem runWith_closeAccount_of_not_reaches {accountRef businessId actor : String}
    (found : w.db.findAccountByRef accountRef businessId = some a)
    (h : ¬ ReachesArchiving env accountRef businessId a) :
    ∃ e w', (closeAccount accountRef businessId actor).runWith env w = (.error e, w') ∧
      World.SameData w w' := by
  rw [closeAccount, Proc.bind_eq, Proc.runWith_bind]
  by_cases haccount : (env (.findAccountByRef businessId accountRef)).fault = none
  swap
  · obtain ⟨e, w', hrun, hsame⟩ : ∃ e w', (find (.findAccountByRef businessId accountRef)
        fun _ db => db.findAccountByRef accountRef businessId).runWith env w = (.error e, w') ∧
          World.SameData w w' := runWith_find_of_fault haccount
    rw [hrun]
    exact ⟨e, w', rfl, hsame⟩
  rw [runWith_find_of_none haccount, found]
  dsimp only
  have hclose : a.status = .active ∨ a.status = .suspended →
      ∃ e w', (close a businessId actor).runWith env w = (.error e, w') ∧
        World.SameData w w' := by
    intro hopen
    have harchive : (env (.archiveExecutions a.id)).fault ≠ none :=
      fun harchive => h ⟨haccount, hopen, harchive⟩
    obtain ⟨e, w', hrun, hsame⟩ : ∃ e w', (transaction (.archiveExecutions a.id)
        fun _ => archiveExecutionsTx a.id).runWith env w = (.error e, w') ∧ World.SameData w w' :=
      runWith_transaction_of_fault harchive
    refine ⟨e, w', ?_, hsame⟩
    rw [close, Proc.bind_eq, Proc.runWith_bind, hrun]
  -- CLOSED and EXPIRED accounts are refused
  split
  · exact ⟨_, _, rfl, .refl w⟩
  · exact ⟨_, _, rfl, .refl w⟩
  next hactive => exact hclose (.inl hactive)
  next hsuspended => exact hclose (.inr hsuspended)

/-- **When a closing that fails leaves the statuses as they were**: it fails by the archiving, or
nothing was PENDING or RETRYING. -/
theorem closing_leaves_state_iff {accountRef businessId actor : String}
    (found : w.db.findAccountByRef accountRef businessId = some a) :
    LeavesState a.id w ((closeAccount accountRef businessId actor).runWith env w).1
        ((closeAccount accountRef businessId actor).runWith env w).2 ↔
      (ReachesArchiving env accountRef businessId a → FailsLater env a →
        w.db.unfinished a.id = []) := by
  by_cases hreaches : ReachesArchiving env accountRef businessId a
  swap
  · obtain ⟨e, w', hrun, hsame⟩ := runWith_closeAccount_of_not_reaches found hreaches
    rw [hrun]
    refine iff_of_true (fun _ _ => ?_) fun h => absurd h hreaches
    rw [hsame.db]
  have hrun : (closeAccount accountRef businessId actor).runWith env w =
      (close a businessId actor).runWith env w := by
    rw [closeAccount, Proc.bind_eq, Proc.runWith_bind, runWith_find_of_none hreaches.account, found]
    dsimp only
    rcases hreaches.isOpen with hstatus | hstatus <;> rw [hstatus]
  rw [hrun]
  obtain ⟨hfails, hcloses⟩ :
      (FailsLater env a → ∃ e w', (close a businessId actor).runWith env w = (.error e, w') ∧
        World.SameData (w.withArchived a.id) w') ∧ _ :=
    runWith_close (List.mem_of_find?_eq_some found) hreaches.archive
  by_cases hlater : FailsLater env a
  · obtain ⟨e, w', hthrown, hsame⟩ := hfails hlater
    rw [hthrown]
    constructor
    · intro h _ _
      have hleft := h e rfl
      rwa [hsame.db, closingState_withArchived_iff] at hleft
    · intro h _ _
      rw [hsame.db, closingState_withArchived_iff]
      exact h hreaches hlater
  · obtain ⟨updated, w', hclosed⟩ := hcloses hlater
    rw [hclosed]
    exact iff_of_true nofun fun _ h => absurd h hlater

end Steps

namespace Sample

/-- Nomba does not answer. -/
def nombaFails : Call → Env
  | .expireDva _ => { fault := some { error := .other "Nomba account expiry failed" } }
  | _ => {}

/-- The database does not archive. -/
def archivingFails : Call → Env
  | .archiveExecutions _ => { fault := some { error := .other "Connection lost" } }
  | _ => {}

/-- The account with a RETRYING execution, after its closing. -/
def closing (env : Call → Env) : Except Error (Option Account) × World :=
  (closeAccount "shop" "biz" "api").runWith env (shopWithEntry .active)

/-- A delivery of the retry job. -/
def afterRetry (w : World) : World :=
  ((RetryProcessor.process ⟨"exec1", 5, 0⟩).runWith (fun _ => {}) w).2

end Sample

/-- The archiving fails, and so does the call: the execution is RETRYING as before. -/
theorem closing_leaves_state_iff_archivingFails :
    (∃ e, (Sample.closing Sample.archivingFails).1 = .error e) ∧
      LeavesState "acc1" (Sample.shopWithEntry .active) (Sample.closing Sample.archivingFails).1
        (Sample.closing Sample.archivingFails).2 := by
  have found : (Sample.shopWithEntry .active).db.findAccountByRef "shop" "biz" =
      some Sample.account := rfl
  refine ⟨⟨_, rfl⟩, (closing_leaves_state_iff found).2 fun hreaches => ?_⟩
  cases hreaches.archive

/-- **A closing that cancels the retries of an account that stays open.** Nomba does not answer, and
the call throws. The account is ACTIVE as before, its execution ARCHIVED, and the retry that would
have completed the execution does nothing. -/
theorem failed_closing_cancels_retry :
    (∃ e, (Sample.closing Sample.nombaFails).1 = .error e) ∧
      (Sample.closing Sample.nombaFails).2.db.accounts.map Account.status = [.active] ∧
      (Sample.closing Sample.nombaFails).2.db.ruleExecutions.map RuleExecution.status =
        [.archived] ∧
      (Sample.afterRetry (Sample.closing Sample.nombaFails).2).db.ruleExecutions.map
        RuleExecution.status = [.archived] ∧
      (Sample.afterRetry (Sample.shopWithEntry .active)).db.ruleExecutions.map
        RuleExecution.status = [.completed] ∧
      ¬ LeavesState "acc1" (Sample.shopWithEntry .active) (Sample.closing Sample.nombaFails).1
        (Sample.closing Sample.nombaFails).2 := by
  have thrown : ∃ e, (Sample.closing Sample.nombaFails).1 = .error e := ⟨_, rfl⟩
  refine ⟨thrown, by decide +kernel, by decide +kernel, by decide +kernel, by decide +kernel, ?_⟩
  intro h
  obtain ⟨e, he⟩ := thrown
  exact absurd (h e he) (by decide +kernel)

end AccountOS
