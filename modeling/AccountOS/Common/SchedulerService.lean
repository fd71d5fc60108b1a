import AccountOS.Queue.WebhookProcessor

/-!
# `SchedulerService`

Every hour `evaluateTimeElapsedRules` reads the ACTIVE accounts that have an ACTIVE TIME_ELAPSED
rule, with these rules and the latest ledger entry, and writes an audit entry for every rule that
matches. The time is that of the last call, and `new Date()` reads it.
-/

namespace AccountOS

open Conc Sql

/-! ### The accounts to look at -/

/-- An account as the scheduler reads it. -/
structure TimedAccount where
  account : Account
  rules : List Rule
  ledgerEntries : List LedgerEntry

/-- The order of `ORDER BY "createdAt" DESC`; rows of one time come in any order. -/
def createdAtGE (rank : String → Nat) (e f : LedgerEntry) : Prop :=
  f.createdAt < e.createdAt ∨ e.createdAt = f.createdAt ∧ rank e.id ≤ rank f.id

instance (rank : String → Nat) : DecidableRel (createdAtGE rank) :=
  fun _ _ => inferInstanceAs (Decidable (_ ∨ _))

/-- No order: the rows come as the database likes. -/
def rankLE (rank : String → Nat) (a b : Account) : Prop := rank a.id ≤ rank b.id

instance (rank : String → Nat) : DecidableRel (rankLE rank) :=
  fun _ _ => inferInstanceAs (Decidable (_ ≤ _))

namespace Db

variable (db : Db) (rank : String → Nat)

/-- The ACTIVE TIME_ELAPSED rules of an account, by priority. -/
def timeRules (accountId : String) : List Rule :=
  ((db.activeRules accountId).filter fun r => r.trigger = .timeElapsed).insertionSort
    (priorityLE rank)

/-- The latest ledger entry of an account, when it has one. -/
def latestEntries (accountId : String) : List LedgerEntry :=
  ((db.ledgerEntries.filter fun e => e.accountId = accountId).insertionSort (createdAtGE rank)).take 1

/-- `account.findMany` with its rules and ledger entries. -/
def findTimedAccounts : List TimedAccount :=
  ((db.accounts.filter fun a => a.status = .active ∧
      ∃ r ∈ db.rules, r.accountId = a.id ∧ r.trigger = .timeElapsed ∧ r.status = .active).insertionSort
    (rankLE rank)).map fun a => ⟨a, db.timeRules rank a.id, db.latestEntries rank a.id⟩

end Db

/-- When the account was last active: `ledgerEntries[0]?.createdAt ?? createdAt`. -/
def TimedAccount.lastActivityAt (a : TimedAccount) : Nat :=
  (a.ledgerEntries.head?.map LedgerEntry.createdAt).getD a.account.createdAt

/-! ### `matchesTimeRule` -/

/-- The full days between two times. -/
def daysSince (lastActivityAt now : Nat) : Int := ((now : Int) - lastActivityAt) / (1000 * 60 * 60 * 24)

/-- `SchedulerService.matchesTimeRule`. -/
def matchesTimeRule (rule : Rule) (lastActivityAt now : Nat) : Bool :=
  match rule.condition with
  | none => false
  | some condition =>
    let daysSinceLastActivity : ℚ := daysSince lastActivityAt now
    condition.noInflowForDays.any (· ≤ daysSinceLastActivity) ||
      condition.noEventForDays.any (· ≤ daysSinceLastActivity)

/-! ### `evaluateTimeElapsedRules` -/

/-- The entry that is written for a rule that matches. -/
def firedEntry (a : TimedAccount) (rule : Rule) : AuditLogEntry where
  actor := "scheduler"
  action := .ruleActionCompleted
  businessId := some a.account.businessId
  accountId := some a.account.id
  metadata := [
    ("ruleId", .str rule.id),
    ("trigger", .str "TIME_ELAPSED"),
    ("action", .str (WebhookProcessor.ruleActionName rule.action))]

/-- `AuditService.log`, and the time when it is done. -/
def auditNow (entry : AuditLogEntry) : Action Nat :=
  Proc.call (.audit entry.action) fun env w => (.ok env.now, w.log env entry)

/-- The loop over the rules of an account. -/
def fireRules (a : TimedAccount) : List Rule → Nat → Action Nat
  | [], now => return now
  | rule :: rules, now =>
    if matchesTimeRule rule a.lastActivityAt now then do
      let now ← auditNow (firedEntry a rule)
      fireRules a rules now
    else
      fireRules a rules now

/-- The loop over the accounts; an error is logged, and the next account is looked at. -/
def evaluateAccounts : List TimedAccount → Nat → Action Unit
  | [], _ => return ()
  | a :: accounts, now => do
    let now ← tryCatch (fireRules a a.rules now) fun _ => return now
    evaluateAccounts accounts now

/-- `SchedulerService.evaluateTimeElapsedRules`. -/
def evaluateTimeElapsedRules : Action Unit := do
  let (accounts, now) ← find .findTimeRules fun env db => (db.findTimedAccounts env.rank, env.now)
  evaluateAccounts accounts now

end AccountOS
