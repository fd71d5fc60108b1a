import AccountOS.Treasury.Correctness.Balance
import AccountOS.Treasury.Correctness.Steps

/-!
# The fast balance and the slow one

`latestBalance` reads the cumulative amount of the latest entry, `computeBalance` adds up all
entries. The four writers keep the two equal, each in its own way: `credit`, a transfer and an
internal settlement store the sum plus their own amount, an external settlement the latest figure
minus its amount. The one exception is an internal settlement whose destination is its own source:
`transferBetweenBuckets` rejects that, `settleInternal` does not, and its CREDIT then stores the
balance from before its DEBIT.

`latestBalance_eq_balance` covers every run in which that does not happen, of any number of
threads that each serve any requests one after the other.
-/

namespace AccountOS

open Conc Sql

/-- The condition on a step: no internal settlement moves money from a bucket to itself. -/
def BetweenBuckets : Call → Prop
  | .settleInternal _ sourceRef destRef _ _ => sourceRef ≠ destRef
  | _ => True

instance : DecidablePred BetweenBuckets := fun l =>
  decidable_of_iff ((match l with
    | .settleInternal _ sourceRef destRef _ _ => decide (sourceRef ≠ destRef)
    | _ => true) = true)
    (by unfold BetweenBuckets; split <;> simp only [decide_eq_true_eq])

/-! ### One transaction -/

section Transactions

variable {db db' : Db} {env : Env}

namespace Db.Agreed

theorem congr (hdb : db.Agreed) (h : db'.bucketLedgerEntries = db.bucketLedgerEntries) :
    db'.Agreed := by
  unfold Db.Agreed Db.entriesOf at hdb ⊢
  rwa [h]

theorem credit (hdb : db.Agreed) {p : CreditParams} {a : Int}
    (hrun : (creditTx p env.row).run schema db = .ok (a, db')) : db'.Agreed := by
  rcases (creditTx_run_eq_ok db).1 hrun with ⟨e, -, -, rfl⟩ | ⟨-, -, hcreate⟩
  · exact hdb
  · obtain ⟨-, -, -, -, rfl⟩ := Db.createBucketLedgerEntry_eq_ok.1 hcreate
    exact hdb.append rfl rfl

theorem moveTx (hdb : db.Agreed) {db₁ : Db} {m : Move} {row row₂ : Generated}
    (hne : m.sourceId ≠ m.destinationId)
    (h₁ : db.createBucketLedgerEntry (m.debit row (db.balance m.sourceId)) = .ok db₁)
    (h₂ : db₁.createBucketLedgerEntry (m.credit row₂ (db.balance m.destinationId)) = .ok db') :
    db'.Agreed := by
  obtain ⟨-, -, -, -, rfl⟩ := Db.createBucketLedgerEntry_eq_ok.1 h₁
  obtain ⟨-, -, -, -, rfl⟩ := Db.createBucketLedgerEntry_eq_ok.1 h₂
  exact hdb.move hne rfl rfl

theorem transfer (hdb : db.Agreed) (hunique : db.UniqueColumns) {src dst biz : String}
    {amount : Int} {narration : Option String} {out : TransferOutcome} (hne : src ≠ dst)
    (hrun : (transferTx src dst biz amount narration env).run schema db = .ok (out, db')) :
    db'.Agreed := by
  obtain ⟨s, d, db₁, hs, hd, -, -, -, h₁, h₂, -⟩ := (transferTx_run_eq_ok db).1 hrun
  exact hdb.moveTx (findBucket_id_ne hunique.treasuryBuckets hs hd hne) h₁ h₂

theorem settleInternal (hdb : db.Agreed) (hunique : db.UniqueColumns) {r : SettlementRequest}
    {id destRef ref : String} (hne : r.bucketRef ≠ destRef)
    (hrun : (settleInternalTx r id destRef env).run schema db = .ok (ref, db')) : db'.Agreed := by
  obtain ⟨s, d, db₁, db₂, hs, hd, h₁, h₂, h₃, -⟩ := (settleInternalTx_run_eq_ok db).1 hrun
  obtain ⟨-, -, rfl⟩ := Db.updateSettlement_eq_ok.1 h₃
  have hmoved : db₂.Agreed :=
    hdb.moveTx (findBucket_id_ne hunique.treasuryBuckets hs hd hne) h₁ h₂
  exact hmoved.congr rfl

/-- The completion of an external settlement starts from the latest figure, so it relies on the
order of the entries. -/
theorem completeSettlement (hdb : db.Agreed) (hc : db.Chronological) {r : SettlementRequest}
    {id ref : String} {u : Unit}
    (hrun : (completeSettlementTx r id ref env).run schema db = .ok (u, db')) : db'.Agreed := by
  obtain ⟨b, db₁, -, h₁, h₂⟩ := (completeSettlementTx_run_eq_ok db).1 hrun
  obtain ⟨-, -, -, -, rfl⟩ := Db.createBucketLedgerEntry_eq_ok.1 h₁
  obtain ⟨-, -, rfl⟩ := Db.updateSettlement_eq_ok.1 h₂
  refine hdb.append rfl ?_
  rw [(Db.agreed_iff hc).1 hdb]
  rfl

end Db.Agreed

/-- The stored figures are right as long as the entries are in chronological order. -/
def FiguresRight (db : Db) : Prop := db.Chronological → db.Agreed

namespace FiguresRight

theorem congr (hdb : FiguresRight db) (h : db'.bucketLedgerEntries = db.bucketLedgerEntries) :
    FiguresRight db' := by
  unfold FiguresRight Db.Chronological Db.Agreed Db.entriesOf at hdb ⊢
  rwa [h]

/-- A transaction that keeps the figures right. -/
theorem of_run (hdb : FiguresRight db) {α : Type} {t : TxBody α} {a : α}
    (hrun : t.run schema db = .ok (a, db'))
    (hkeep : db.Chronological → db.Agreed → db'.Agreed) : FiguresRight db' := by
  intro hc'
  have hc : db.Chronological := Db.Chronological.of_run (r := (a, db')) hc' hrun
  exact hkeep hc (hdb hc)

end FiguresRight

end Transactions

/-! ### Any run -/

/-- The protocol: the stored figures stay right. -/
def agreement (ι : Type) : Protocol ι World Env Call Unit where
  allowed l _ _ _ := BetweenBuckets l
  inv _ _ w := w.db.UniqueColumns ∧ FiguresRight w.db

/-- Every operation of the treasury follows it. -/
def agreementSteps {ι : Type} [DecidableEq ι] (i : ι) : TreasurySteps (agreement ι) i where
  idle := ()
  held _ _ := ()
  paid _ _ := ()
  paidMayFail := True
  quiet := by
    rintro G hist w w' i l env hinv - hsame
    simpa [agreement, hsame.db] using hinv
  credit := by
    rintro p l G hist w env a db w' - - ⟨hunique, hdb⟩ - hrun rfl
    exact ⟨hunique.run hrun, hdb.of_run hrun fun _ h => h.credit hrun⟩
  transfer := by
    rintro src dst biz amount narration l G hist w env a db w' hne - - ⟨hunique, hdb⟩ - hrun rfl
    exact ⟨hunique.run hrun, hdb.of_run hrun fun _ h => h.transfer hunique hne hrun⟩
  reserve := by
    rintro r l G hist w env s db w' - - ⟨hunique, hdb⟩ - hrun rfl
    refine ⟨hunique.run hrun, hdb.congr ?_⟩
    obtain ⟨b, type, -, -, -, -, hcreate⟩ := (reserveTx_run_eq_ok w.db).1 hrun
    obtain ⟨-, -, -, rfl⟩ := Db.createSettlement_eq_ok.1 hcreate
    rfl
  processing := by
    rintro r id l G hist w env db w' - - ⟨hunique, hdb⟩ - hop rfl
    refine ⟨hunique.apply (show (WriteOp.updateSettlement id _).apply _ = _ from hop), hdb.congr ?_⟩
    obtain ⟨-, -, rfl⟩ := Db.updateSettlement_eq_ok.1 hop
    rfl
  sent := by
    rintro r id request l G hist w env w' - - hinv - - - rfl
    exact hinv
  completed := by
    rintro r id ref u l G hist w env db w' - - ⟨hunique, hdb⟩ - hrun rfl
    exact ⟨hunique.run hrun, hdb.of_run hrun fun hc h => h.completeSettlement hc hrun⟩
  thrown := fun _ _ _ _ _ => trivial
  settledInternally := by
    rintro r id destRef ref l G hist w env db w' rfl - ⟨hunique, hdb⟩ hallowed hrun - - rfl
    exact ⟨hunique.run hrun, hdb.of_run hrun fun _ h => h.settleInternal hunique hallowed hrun⟩
  failed := by
    rintro r id data l G hist w env db w' - - ⟨hunique, hdb⟩ - - - hop rfl
    refine ⟨hunique.apply (show (WriteOp.updateSettlement id data).apply _ = _ from hop),
      hdb.congr ?_⟩
    obtain ⟨-, -, rfl⟩ := Db.updateSettlement_eq_ok.1 hop
    rfl

/-- **The fast balance agrees with the slow one.** Any number of threads each serve treasury
requests one after the other, with any calls failing. If no internal settlement moves money from a
bucket to itself and every entry is later than those committed before it, then in every state
reached `latestBalance` is `computeBalance` for every bucket, provided it was at the start. -/
theorem latestBalance_eq_balance {ι : Type} [DecidableEq ι] {ops : ι → List TreasuryOp}
    {w₀ w : World} {hist : List (Event ι World Env Call)} {ps : ι → Action Unit}
    (hunique : w₀.db.UniqueColumns)
    (hstart : w₀.db.Chronological →
      ∀ bucketId, w₀.db.latestBalance bucketId = w₀.db.balance bucketId)
    (run : Run (fun l _ _ _ => BetweenBuckets l) (fun i => TreasuryOp.runAll (ops i)) w₀ hist ps w)
    (hchron : w.db.Chronological) (bucketId : String) :
    w.db.latestBalance bucketId = w.db.balance bucketId := by
  obtain ⟨-, -, hright⟩ := (agreement ι).inv_of_run (fun _ => ())
    ⟨hunique, fun hc => (Db.agreed_iff hc).2 (hstart hc)⟩
    (fun i => (agreementSteps i).wp_runAll (ops i) ()) run
  exact (Db.agreed_iff hchron).1 (hright hchron) bucketId

/-! ### A settlement of a bucket to itself -/

namespace Sample

/-- A withdrawal to a bucket of the same business. -/
def internal (destinationBucketRef : String) : CreateSettlementDto where
  amountKobo := 100000
  destinationType := some "INTERNAL_BUCKET"
  destinationBucketRef := some destinationBucketRef
  one_le_amountKobo := payout.one_le_amountKobo

/-- One thread serves a withdrawal from `ops` to the given bucket. -/
def internalThread (destinationBucketRef : String) : Unit → Action Unit :=
  fun _ => TreasuryOp.runAll [.initiate "ops" (internal destinationBucketRef) "biz" "key"]

/-- All calls succeed: find the bucket, TX1, PROCESSING, the internal transaction and the audit
entry. -/
def internalSchedule : List (Unit × Env) :=
  [((), {}), ((), { row := ⟨2, "stl1"⟩ }), ((), {}),
    ((), { uuid := "u1", row := ⟨3, "ble2"⟩, row₂ := ⟨4, "ble3"⟩ }), ((), {})]

/-- `funded` with a second, empty bucket. -/
def twoBuckets : World :=
  { funded with db := { funded.db with
      treasuryBuckets := [bucket, { id := "bkt2", bucketRef := "tax", businessId := "biz" }] } }

theorem uniqueColumns_twoBuckets : twoBuckets.db.UniqueColumns :=
  ⟨by decide, by decide, by decide, by decide, by decide, by decide, by decide, by decide,
    by decide, by decide⟩

theorem agreed_twoBuckets : twoBuckets.db.Agreed :=
  (show Db.Agreed { twoBuckets.db with bucketLedgerEntries := [] } from fun _ => rfl).append rfl rfl

end Sample

/-- The agreement after a settlement from one bucket to another. -/
theorem latestBalance_eq_balance_twoBuckets :
    let w := (exec (Sample.internalThread "tax") Sample.twoBuckets Sample.internalSchedule).2.2
    w.db.Chronological ∧ w.db.latestBalance "bkt2" = w.db.balance "bkt2" :=
  ⟨by decide, latestBalance_eq_balance Sample.uniqueColumns_twoBuckets
    (fun hc => (Db.agreed_iff hc).1 Sample.agreed_twoBuckets)
    (Run.of_exec (Sample.internalThread "tax") _ _ (by decide)) (by decide) "bkt2"⟩

/-- A settlement of a bucket to itself leaves `latestBalance` at twice the balance. -/
theorem latestBalance_ne_balance_of_self :
    let w := (exec (Sample.internalThread "ops") Sample.funded Sample.internalSchedule).2.2
    w.db.Chronological ∧ w.db.latestBalance "bkt1" = 200000 ∧ w.db.balance "bkt1" = 100000 := by
  decide

end AccountOS
