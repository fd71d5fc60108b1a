import AccountOS.Queue.WebhookProcessor

/-!
# What the workers leave alone

The workers write ledgers, executions and statuses. They never write the rules of an account, its
execution model or the buckets of a business, so what they read of these does not depend on when
they read it.
-/

namespace AccountOS

open Conc Sql

/-- An account without its status. -/
def Account.steady (a : Account) : Account := { a with status := .active }

/-- Two databases with the same businesses, buckets and rules, and the same accounts up to their
statuses. -/
structure SameConfiguration (db₀ db : Db) : Prop where
  businesses : db.businesses = db₀.businesses
  accounts : db.accounts.map Account.steady = db₀.accounts.map Account.steady
  rules : db.rules = db₀.rules
  treasuryBuckets : db.treasuryBuckets = db₀.treasuryBuckets

/-- The statements that change the configuration. -/
def WriteOp.Configures : WriteOp → Prop
  | updateAccountModel .. | archiveRules .. | createRule _ | updateRule .. | flagRules _
  | createAccount _ | closeAccount .. => True
  | _ => False

namespace SameConfiguration

variable {db₀ db db' : Db}

@[refl] theorem refl (db : Db) : SameConfiguration db db := ⟨rfl, rfl, rfl, rfl⟩

theorem trans (h : SameConfiguration db₀ db) (h' : SameConfiguration db db') :
    SameConfiguration db₀ db' :=
  ⟨h'.businesses.trans h.businesses, h'.accounts.trans h.accounts, h'.rules.trans h.rules,
    h'.treasuryBuckets.trans h.treasuryBuckets⟩

/-- **The other statements leave the configuration alone.** -/
theorem of_apply {o : WriteOp} (hop : o.apply db = .ok db') (hkeep : ¬ o.Configures) :
    SameConfiguration db db' := by
  have hsame := WriteOp.sameExcept hop
  cases o with
  | updateAccountStatus id status =>
    obtain ⟨-, rfl⟩ := Db.updateAccountStatus_eq_ok.1 hop
    exact ⟨rfl, map_updateRow (fun _ => by rfl) _, rfl, rfl⟩
  | updateAccountModel | createAccount | closeAccount | archiveRules | createRule | updateRule
  | flagRules =>
    exact absurd trivial hkeep
  | _ =>
    have haccounts : db'.accounts = db.accounts := hsame.accounts nofun
    exact ⟨hsame.businesses, by rw [haccounts], hsame.rules nofun, hsame.treasuryBuckets⟩

theorem apply (h : SameConfiguration db₀ db) {o : WriteOp} (hop : o.apply db = .ok db')
    (hkeep : ¬ o.Configures) : SameConfiguration db₀ db' :=
  h.trans (of_apply hop hkeep)

theorem writeInflow (h : SameConfiguration db₀ db) {dto : WriteInflowDto}
    {status : ReconciliationStatus} {env : Env} {t : Int}
    (hrun : (writeInflowTx dto status env).run schema db = .ok (t, db')) :
    SameConfiguration db₀ db' := by
  obtain ⟨n, -, -, hdb⟩ := (writeInflowTx_run_eq_ok db).1 hrun
  exact h.apply (o := .createLedgerEntry _) hdb id

theorem credit (h : SameConfiguration db₀ db) {p : CreditParams} {row : Generated} {a : Int}
    (hrun : (creditTx p row).run schema db = .ok (a, db')) : SameConfiguration db₀ db' := by
  rcases (creditTx_run_eq_ok db).1 hrun with ⟨e, -, -, rfl⟩ | ⟨-, -, hdb⟩
  · exact h
  · exact h.apply (o := .createBucketLedgerEntry _) hdb id

/-! ### Reading the configuration -/

theorem findBucket (h : SameConfiguration db₀ db) (businessId bucketRef : String) :
    db.findBucket businessId bucketRef = db₀.findBucket businessId bucketRef := by
  unfold Db.findBucket
  rw [h.treasuryBuckets]

theorem findBusiness (h : SameConfiguration db₀ db) (id : String) :
    db.findBusiness id = db₀.findBusiness id := by
  unfold Db.findBusiness
  rw [h.businesses]

/-- A row found by a column other than the status, up to the status. -/
theorem find_steady (h : SameConfiguration db₀ db) (p : Account → Bool)
    (hp : ∀ a : Account, p a.steady = p a) :
    (db.accounts.find? p).map Account.steady = (db₀.accounts.find? p).map Account.steady := by
  have hmap : ∀ accounts : List Account,
      (accounts.find? p).map Account.steady = (accounts.map Account.steady).find? p := by
    intro accounts
    rw [List.find?_map, show p ∘ Account.steady = p from funext hp]
  rw [hmap, hmap, h.accounts]

/-- What the engine reads of an account. -/
theorem findAccountById (h : SameConfiguration db₀ db) (id : String) :
    (db.findAccountById id).map Account.forRule = (db₀.findAccountById id).map Account.forRule := by
  have hsteady := congrArg (Option.map Account.forRule) (h.find_steady (fun a => a.id = id)
    fun _ => rfl)
  unfold Db.findAccountById
  simpa only [Option.map_map, show Account.forRule ∘ Account.steady = Account.forRule from rfl]
    using hsteady

theorem findRules (h : SameConfiguration db₀ db) (rank : String → Nat) (accountId : String) :
    db.findRules rank accountId = db₀.findRules rank accountId := by
  have hactive : db.activeRules accountId = db₀.activeRules accountId := by
    unfold Db.activeRules
    rw [h.rules]
  unfold Db.findRules
  rw [hactive]
  refine List.filterMap_congr fun rule _ => ?_
  have hjoin := congrArg (Option.map fun account => (rule, account))
    (h.findAccountById rule.accountId)
  simpa only [Option.map_map, Function.comp_def] using hjoin

end SameConfiguration

end AccountOS
