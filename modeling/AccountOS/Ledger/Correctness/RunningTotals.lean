import AccountOS.Ledger.Ledger
import AccountOS.Sql.RunningTotal
import AccountOS.Sql.Serializability
import Mathlib.Data.Setoid.Basic

/-!
# Running totals of an account

`writeInflow` stores the account's total after each inflow. It runs `READ COMMITTED` and takes the
lock on the account's row before it sums up the entries, and every insert shares that lock through
its foreign key. So the sum it has read is still the committed one when it commits, and the totals
are exact in any interleaving (`inflow_totals_exact`).
-/

namespace AccountOS

open Conc Sql

/-! ### Exact totals -/

/-- The amount of an entry and the total it stores. -/
def inflowTotals : RunningTotal LedgerEntry Int where
  delta := LedgerEntry.amountKobo
  stored := LedgerEntry.cumulativeAmountKobo

namespace Db

/-- Every INFLOW entry stores the total of its account after it. -/
def TotalsExact (db : Db) : Prop := ∀ accountId, inflowTotals.Exact (db.inflowsOf accountId)

theorem inflowSum_eq_total (db : Db) (accountId : String) :
    db.inflowSum accountId = inflowTotals.total (db.inflowsOf accountId) := rfl

variable {db db' : Db}

theorem inflowSum_congr (h : db'.ledgerEntries = db.ledgerEntries) (accountId : String) :
    db'.inflowSum accountId = db.inflowSum accountId := by
  unfold inflowSum
  rw [h]

/-- Setting an entry's reconciliation status leaves the totals alone. -/
theorem inflowSum_reconcile {κ : Type} [DecidableEq κ] {key : LedgerEntry → κ} {k : κ}
    {status : ReconciliationStatus} (h : db'.ledgerEntries =
      updateRow key k (fun e => { e with reconciliationStatus := status }) db.ledgerEntries)
    (accountId : String) : db'.inflowSum accountId = db.inflowSum accountId := by
  unfold inflowSum
  rw [h]
  exact sumWhere_updateRow_of_eq (fun _ _ _ => Iff.rfl) fun _ _ _ => rfl

/-- A statement changes the total of an account only by adding an entry to it. -/
theorem inflowSum_apply {op : WriteOp} (hop : op.apply db = .ok db') {accountId : String}
    (h : ∀ e, op = .createLedgerEntry e → e.accountId ≠ accountId) :
    db'.inflowSum accountId = db.inflowSum accountId := by
  cases op with
  | createLedgerEntry e =>
    obtain ⟨-, -, -, rfl⟩ := createLedgerEntry_eq_ok.1 hop
    have hne : e.accountId ≠ accountId := h e rfl
    simp [inflowSum, hne]
  | updateReconciliationByRef ref status =>
    obtain ⟨-, rfl⟩ := updateReconciliationByRef_eq_ok.1 hop
    exact inflowSum_reconcile rfl accountId
  | updateReconciliationById id status =>
    obtain ⟨-, rfl⟩ := updateReconciliationById_eq_ok.1 hop
    exact inflowSum_reconcile rfl accountId
  | _ =>
    refine inflowSum_congr ((WriteOp.sameExcept hop).ledgerEntries ?_) accountId
    simp [WriteOp.table]

/-- `writeInflow` alone keeps the totals exact. -/
theorem TotalsExact.writeInflow (h : db.TotalsExact) {dto : WriteInflowDto}
    {status : ReconciliationStatus} {env : Env} {total : Int}
    (hrun : (writeInflowTx dto status env).run schema db = .ok (total, db')) :
    db'.TotalsExact := by
  obtain ⟨amountKobo, -, -, hdb⟩ := (writeInflowTx_run_eq_ok db).1 hrun
  obtain ⟨-, -, -, rfl⟩ := createLedgerEntry_eq_ok.1 hdb
  intro accountId
  have hold := h accountId
  unfold inflowsOf at hold ⊢
  rw [List.filter_append]
  by_cases ha : dto.accountId = accountId
  · subst ha
    rw [List.filter_cons_of_pos (by simp [WriteInflowDto.entry]), List.filter_nil]
    refine (inflowTotals.exact_append_singleton _ _).2 ⟨hold, ?_⟩
    show db.inflowSum dto.accountId + amountKobo =
      inflowTotals.total (db.inflowsOf dto.accountId) + amountKobo
    rw [inflowSum_eq_total]
  · rw [List.filter_cons_of_neg (by simp [WriteInflowDto.entry, ha]), List.filter_nil,
      List.append_nil]
    exact hold

end Db

/-! ### What the transaction depends on -/

/-- The part of the database that `writeInflow` reads: the totals of the accounts. -/
def inflowFootprint : Footprint schema where
  agree
    | .ledgerEntriesOf accountId => Setoid.ker fun db => db.inflowSum accountId
    | _ => ⊤
  frame := by
    rintro op db db' k hop hk
    cases k with
    | ledgerEntriesOf accountId =>
      refine (Db.inflowSum_apply hop ?_).symm
      rintro e rfl rfl
      simp [schema, WriteOp.touches] at hk
    | _ => trivial

/-- An account's row protects its entries: the foreign key of every entry locks it. -/
theorem protects_ledgerEntriesOf (accountId : String) :
    Protects schema [.account accountId] (.ledgerEntriesOf accountId) := by
  intro op hop
  cases op with
  | createLedgerEntry e =>
    obtain rfl : accountId = e.accountId := by simpa [schema, WriteOp.touches] using hop
    exact ⟨_, List.mem_singleton_self _, by simp [schema, WriteOp.shares]⟩
  | _ => simp [schema, WriteOp.touches] at hop

section Transaction

variable (dto : WriteInflowDto) (status : ReconciliationStatus) (env : Env)

theorem writeInflowTx_isolable :
    (writeInflowTx dto status env).Isolable inflowFootprint .readCommitted := by
  dsimp only [writeInflowTx, Tx.query, Tx.forUpdate, Tx.bind_eq, Tx.bind]
  refine ⟨⟨fun db db' hrows => ?_, fun db => ?_⟩, fun _ => ⟨fun k hk => ?_, fun db => ?_⟩,
    fun h => by cases h⟩
  · have htotal : db.inflowSum dto.accountId = db'.inflowSum dto.accountId :=
      hrows (.ledgerEntriesOf dto.accountId) (by simp)
    simp only [htotal]
  · dsimp only
    cases bigInt dto.amountKobo <;> trivial
  · rw [List.mem_singleton.1 hk]
    exact protects_ledgerEntriesOf dto.accountId
  · dsimp only
    cases bigInt dto.amountKobo <;> trivial

end Transaction

/-! ### Any interleaving -/

/-- A thread that writes one inflow, statement by statement. -/
def inflowThread {ι : Type} [DecidableEq ι] (i : ι) (dto : WriteInflowDto)
    (status : ReconciliationStatus) :
    Proc (Shared ι Db Key) (StepChoice Env Error) (StepLabel ι Key WriteInflowDto) Error Int :=
  isolated schema i dto .readCommitted (writeInflowTx dto status)

/-- **Running totals are exact under concurrency.** Any number of `writeInflow` transactions run
statement by statement in any order, each of them possibly aborted at any statement. In every state
reached the INFLOW entries of each account, in commit order, store the prefix sums of their
amounts; and a call that has returned a value has committed an entry of its inflow that stores this
value. -/
theorem inflow_totals_exact {ι : Type} [DecidableEq ι] {dtos : ι → WriteInflowDto}
    {status : ι → ReconciliationStatus} {db₀ : Db} (hstart : db₀.TotalsExact)
    {m : Shared ι Db Key}
    {hist : List (Event ι (Shared ι Db Key) (StepChoice Env Error)
      (StepLabel ι Key WriteInflowDto))}
    {ps : ι → Proc (Shared ι Db Key) (StepChoice Env Error) (StepLabel ι Key WriteInflowDto)
      Error Int}
    (run : Run (fun l c m _ => Allows l c m) (fun i => inflowThread i (dtos i) (status i))
      ⟨db₀, [], []⟩ hist ps m) :
    m.committed.TotalsExact ∧
      ∀ i total, ps i = .ret total → ∃ ev ∈ hist, ev.who = i ∧
        ∃ e : LedgerEntry, e.accountId = (dtos i).accountId ∧ e.direction = .inflow ∧
          e.nombaTransactionRef = (dtos i).nombaTransactionRef ∧
          e.amountKobo = (dtos i).amountKobo ∧ e.cumulativeAmountKobo = total ∧
          ev.after.committed.ledgerEntries = ev.before.committed.ledgerEntries ++ [e] := by
  constructor
  · exact readCommitted_inv inflowFootprint
      (fun i env => writeInflowTx_isolable (dtos i) (status i) env)
      (fun i env db total db' hdb hrun => hdb.writeInflow hrun) hstart run
  · intro i total hreturned
    obtain ⟨ev, hev, hwho, env, hrun⟩ := readCommitted_returned inflowFootprint
      (fun i env => writeInflowTx_isolable (dtos i) (status i) env) run hreturned
    obtain ⟨amountKobo, hamount, htotal, hcreate⟩ :=
      (writeInflowTx_run_eq_ok ev.before.committed).1 hrun
    obtain ⟨-, -, -, hafter⟩ := Db.createLedgerEntry_eq_ok.1 hcreate
    exact ⟨ev, hev, hwho, _, rfl, rfl, rfl, hamount.symm, htotal.symm, by rw [hafter]⟩

namespace Sample

/-- An account that has received nothing yet. -/
def freshAccount : Db where
  accounts := [{
    id := "acc1", accountRef := "shop", nombaAccountId := "nba1", accountNumber := "0001112223"
    businessId := "biz" }]

/-- Two inflows for it. -/
def twoInflows : Bool → WriteInflowDto
  | false => {
      accountId := "acc1", nombaTransactionRef := "trx1", nombaEventId := "evt1"
      amountKobo := 300 }
  | true => {
      accountId := "acc1", nombaTransactionRef := "trx2", nombaEventId := "evt2"
      amountKobo := 200 }

/-- A statement of one of the two transactions. -/
def inflowStep (thread : Bool) : Bool × StepChoice Env Error :=
  (thread, { env := { row := ⟨1, if thread then "entry2" else "entry1"⟩ } })

/-- Both begin; the second one gets the lock when the first one has committed. -/
def waitsForLock : List (Bool × StepChoice Env Error) :=
  [inflowStep true, inflowStep false, inflowStep false, inflowStep false, inflowStep false,
    inflowStep false, inflowStep true, inflowStep true, inflowStep true, inflowStep true]

end Sample

/-- Two inflows of one account side by side: the second one stores and returns the total of
both. -/
theorem inflow_totals_exact_twoInflows :
    let r := exec (fun i => inflowThread i (Sample.twoInflows i) .pending)
      ⟨Sample.freshAccount, [], []⟩ Sample.waitsForLock
    r.2.2.committed.TotalsExact ∧ ∃ ev ∈ r.1, ev.who = true ∧ ∃ e : LedgerEntry,
      e.cumulativeAmountKobo = 500 ∧
        ev.after.committed.ledgerEntries = ev.before.committed.ledgerEntries ++ [e] := by
  have hrun := @inflow_totals_exact Bool _ Sample.twoInflows (fun _ => .pending)
    Sample.freshAccount (fun _ => RunningTotal.exact_nil _) _ _ _
    (Run.of_exec _ _ Sample.waitsForLock (by decide +kernel))
  obtain ⟨ev, hev, hwho, e, -, -, -, -, htotal, hafter⟩ :=
    hrun.2 true 500 (Proc.returned_eq_some.1 (by decide +kernel))
  exact ⟨hrun.1, ev, hev, hwho, e, htotal, hafter⟩

end AccountOS
