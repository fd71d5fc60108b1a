import AccountOS.Sql.Serializability
import AccountOS.Treasury.Correctness.BalanceAgreement
import Mathlib.Data.Setoid.Basic

/-!
# Lost updates of a running balance

The writers of a bucket's ledger exclude each other in two ways. Transfers and settlements lock the
bucket's row and run `READ COMMITTED`; `credit` runs `SERIALIZABLE` and locks nothing. PostgreSQL
looks for conflicts only among transactions of the second kind, so a credit that has read the
balance can commit after a settlement has changed it, and then the credit stores a figure that the
settlement is missing from.

`no_lost_update` says that nothing else goes wrong: as long as no credit commits stale, and every
completion of an external settlement finds the entries in the order it reads them, the last entry
of every bucket stores the sum of its entries, whatever the interleaving.
-/

namespace AccountOS

open Conc Sql

/-! ### The transactions -/

/-- The transactions that write to the ledger of a bucket, with their arguments. -/
inductive LedgerTx
  | credit (p : CreditParams)
  | transferBetweenBuckets (sourceBucketRef destinationBucketRef businessId : String)
      (amountKobo : Int) (narration : Option String)
      (distinct : sourceBucketRef ≠ destinationBucketRef)
  | settleInternal (r : SettlementRequest) (settlementId destRef : String)
      (distinct : r.bucketRef ≠ destRef)
  | completeSettlement (r : SettlementRequest) (settlementId nombaReference : String)

namespace LedgerTx

/-- The isolation level the code asks for. -/
def level : LedgerTx → Level
  | credit _ => .serializable
  | transferBetweenBuckets .. => .readCommitted
  | settleInternal .. => .readCommitted
  | completeSettlement .. => .readCommitted

def Result : LedgerTx → Type
  | credit _ => Int
  | transferBetweenBuckets .. => TransferOutcome
  | settleInternal .. => String
  | completeSettlement .. => Unit

def body : (tx : LedgerTx) → Env → TxBody tx.Result
  | credit p, env => creditTx p env.row
  | transferBetweenBuckets src dst biz amount narration _, env =>
    transferTx src dst biz amount narration env
  | settleInternal r id destRef _, env => settleInternalTx r id destRef env
  | completeSettlement r id ref, env => completeSettlementTx r id ref env

/-- A completion reads the latest entry by `(createdAt, id)`; it relies on that being the one
committed last. -/
def FindsOrder : LedgerTx → Db → Prop
  | completeSettlement .., db => db.Chronological
  | _, _ => True

instance (tx : LedgerTx) (db : Db) : Decidable (tx.FindsOrder db) := by
  cases tx <;> first | exact isTrue trivial | exact inferInstanceAs (Decidable db.Chronological)

end LedgerTx

/-! ### What the transactions depend on -/

/-- The parts of the database that the transactions of the ledger read: the entries of a bucket,
the entry of a reference, and the buckets. -/
def ledgerFootprint : Sql.Footprint schema where
  agree
    | .entriesOf bucketId => Setoid.ker fun db => db.entriesOf bucketId
    | .entryReference reference => Setoid.ker fun db => db.findEntry reference
    | .bucketRef .. => Setoid.ker Db.treasuryBuckets
    | .treasuryBucket _ => Setoid.ker Db.treasuryBuckets
    | _ => ⊤
  frame := by
    rintro op db db' k hop hk
    obtain ⟨hbuckets, hentries⟩ := Db.apply_ledger hop
    cases k with
    | bucketRef biz ref => exact hbuckets.symm
    | treasuryBucket id => exact hbuckets.symm
    | entriesOf bucketId =>
      show db.entriesOf bucketId = db'.entriesOf bucketId
      rcases hentries with ⟨e, rfl, hentries⟩ | hentries
      · have hne : e.bucketId ≠ bucketId := by
          rintro rfl
          simp [schema, WriteOp.touches] at hk
        simp [Db.entriesOf, hentries, hne]
      · simp [Db.entriesOf, hentries]
    | entryReference reference =>
      show db.findEntry reference = db'.findEntry reference
      rcases hentries with ⟨e, rfl, hentries⟩ | hentries
      · have hne : e.reference ≠ reference := by
          rintro rfl
          simp [schema, WriteOp.touches] at hk
        simp [Db.findEntry, hentries, List.find?_append, hne]
      · simp [Db.findEntry, hentries]
    | _ => trivial

/-- A bucket's row protects its entries: the foreign key of every entry locks it. -/
theorem protects_entriesOf {locked : List Key} {bucketId : String}
    (h : .treasuryBucket bucketId ∈ locked) : Protects schema locked (.entriesOf bucketId) := by
  intro op hop
  cases op with
  | createBucketLedgerEntry e =>
    obtain rfl : bucketId = e.bucketId := by simpa [schema, WriteOp.touches] using hop
    exact ⟨_, h, by simp [schema, WriteOp.shares]⟩
  | _ => simp [schema, WriteOp.touches] at hop

/-- No statement of the services changes a bucket. -/
theorem protects_bucketRef {locked : List Key} {biz ref : String} :
    Protects schema locked (.bucketRef biz ref) := by
  intro op hop
  cases op <;> simp [schema, WriteOp.touches] at hop

theorem protects_treasuryBucket {locked : List Key} {id : String} :
    Protects schema locked (.treasuryBucket id) := by
  intro op hop
  cases op <;> simp [schema, WriteOp.touches] at hop

/-! ### Each statement -/

section Statements

variable {α : Type} {f : LockedBucket → TxBody α} {k : Int → TxBody α} {locked : List Key}
  {bucketId : String}

theorem entrySum_eq_of_agree {db db' : Db} (entryType : BucketEntryType)
    (h : db.entriesOf bucketId = db'.entriesOf bucketId) :
    db.entrySum bucketId entryType = db'.entrySum bucketId entryType := by
  have hfilter : ∀ db : Db, db.entrySum bucketId entryType =
      sumWhere (fun e => e.entryType = entryType) BucketLedgerEntry.amountKobo
        (db.entriesOf bucketId) := by
    intro db
    simp only [Db.entrySum, Db.entriesOf, sumWhere, List.filter_filter]
    congr 3
    funext e
    simp [Bool.and_comm]
  rw [hfilter, hfilter, h]

theorem scoped_lockBucketOr {notFound : Error} {ref biz : String}
    (hf : ∀ b, (f b).Scoped ledgerFootprint) :
    ((lockBucketOr notFound ref biz).bind f).Scoped ledgerFootprint := by
  dsimp only [lockBucketOr, Tx.query, Tx.forUpdate, Tx.bind_eq, Tx.bind]
  refine ⟨fun db db' hrows => ?_, fun db => ?_⟩
  · have hbuckets : db.treasuryBuckets = db'.treasuryBuckets := hrows (.bucketRef biz ref) (by simp)
    simp only [Db.findBucket, hbuckets]
  · dsimp only
    cases db.findBucket biz ref with
    | none => trivial
    | some found =>
      refine ⟨fun db db' hrows => ?_, fun db => ?_⟩
      · have hbuckets : db.treasuryBuckets = db'.treasuryBuckets :=
          hrows (.treasuryBucket found.id) (by simp)
        simp only [Db.findBucket, hbuckets]
      · dsimp only
        cases (db.findBucket biz ref).filter fun b => b.id = found.id with
        | none => trivial
        | some b => exact hf _

/-- After the lock, the row of the bucket that is returned is locked. -/
theorem locksFirst_lockBucketOr {notFound : Error} {ref biz : String}
    (hf : ∀ b : LockedBucket, (f b).LocksFirst schema (locked ++ [.treasuryBucket b.id])) :
    ((lockBucketOr notFound ref biz).bind f).LocksFirst schema locked := by
  dsimp only [lockBucketOr, Tx.query, Tx.forUpdate, Tx.bind_eq, Tx.bind]
  refine ⟨fun k hk => ?_, fun db => ?_⟩
  · rw [List.mem_singleton.1 hk]
    exact protects_bucketRef
  · dsimp only
    cases db.findBucket biz ref with
    | none => trivial
    | some found =>
      refine ⟨fun k hk => ?_, fun db => ?_⟩
      · rw [List.mem_singleton.1 hk]
        exact protects_treasuryBucket
      · dsimp only
        cases hb : (db.findBucket biz ref).filter fun b => b.id = found.id with
        | none => trivial
        | some b =>
          obtain ⟨-, hid⟩ : db.findBucket biz ref = some b ∧ b.id = found.id := by
            simpa [Option.filter_eq_some_iff] using hb
          have hb' := hf ⟨b.id, b.status⟩
          rw [← hid]
          exact hb'

theorem scoped_computeBalance (hk : ∀ x, (k x).Scoped ledgerFootprint) :
    ((computeBalance bucketId).bind k).Scoped ledgerFootprint := by
  refine ⟨fun db db' hrows => ?_, fun db => ⟨fun db db' hrows => ?_, fun db => hk _⟩⟩ <;>
  · have hentries : db.entriesOf bucketId = db'.entriesOf bucketId :=
      hrows (.entriesOf bucketId) (by simp)
    simp only [entrySum_eq_of_agree _ hentries]

theorem locksFirst_computeBalance (hlocked : .treasuryBucket bucketId ∈ locked)
    (hk : ∀ x, (k x).LocksFirst schema locked) :
    ((computeBalance bucketId).bind k).LocksFirst schema locked := by
  refine ⟨fun key hkey => ?_, fun db => ⟨fun key hkey => ?_, fun db => hk _⟩⟩ <;>
  · rw [List.mem_singleton.1 hkey]
    exact protects_entriesOf hlocked

end Statements

/-! ### Each transaction -/

section Transactions

variable {env : Env}

theorem creditTx_isolable (p : CreditParams) (row : Generated) :
    (creditTx p row).Isolable ledgerFootprint .serializable := by
  dsimp only [creditTx, Tx.query, Tx.bind_eq, Tx.bind, Tx.pure_eq]
  refine ⟨⟨fun db db' hrows => ?_, fun db => ?_⟩, (fun h => by cases h), fun _ db => ?_⟩ <;>
    dsimp only
  · have hentry : db.findEntry p.reference = db'.findEntry p.reference :=
      hrows (.entryReference p.reference) (by simp)
    simp only [hentry]
  · cases db.findEntry p.reference with
    | some e => trivial
    | none => exact scoped_computeBalance fun x => trivial
  · cases db.findEntry p.reference with
    | some e => exact .inl rfl
    | none =>
      -- the entries of the bucket and the reference: read, and written by the CREDIT
      refine fun db₁ db₂ => .inr fun k => ?_
      simp [schema, WriteOp.touches, CreditParams.entry, or_comm]

theorem transferTx_isolable (src dst biz : String) (amount : Int) (narration : Option String) :
    (transferTx src dst biz amount narration env).Isolable ledgerFootprint .readCommitted := by
  refine ⟨?_, fun _ => ?_, (fun h => by cases h)⟩
  · refine scoped_lockBucketOr fun s => scoped_lockBucketOr fun d => ?_
    split
    next => trivial
    next =>
      split
      next => trivial
      next =>
        refine scoped_computeBalance fun x => ?_
        split
        next => trivial
        next => exact scoped_computeBalance fun y => trivial
  · refine locksFirst_lockBucketOr fun s => locksFirst_lockBucketOr fun d => ?_
    split
    next => trivial
    next =>
      split
      next => trivial
      next =>
        refine locksFirst_computeBalance (by simp) fun x => ?_
        split
        next => trivial
        next => exact locksFirst_computeBalance (by simp) fun y => trivial

theorem settleInternalTx_isolable (r : SettlementRequest) (id destRef : String) :
    (settleInternalTx r id destRef env).Isolable ledgerFootprint .readCommitted := by
  refine ⟨?_, fun _ => ?_, (fun h => by cases h)⟩
  · exact scoped_lockBucketOr fun s => scoped_lockBucketOr fun d =>
      scoped_computeBalance fun x => scoped_computeBalance fun y => trivial
  · exact locksFirst_lockBucketOr fun s => locksFirst_lockBucketOr fun d =>
      locksFirst_computeBalance (by simp) fun x =>
        locksFirst_computeBalance (by simp) fun y => trivial

theorem completeSettlementTx_isolable (r : SettlementRequest) (id ref : String) :
    (completeSettlementTx r id ref env).Isolable ledgerFootprint .readCommitted := by
  refine ⟨?_, fun _ => ?_, (fun h => by cases h)⟩
  · refine scoped_lockBucketOr fun b => ⟨fun db db' hrows => ?_, fun db => trivial⟩
    have hentries : db.entriesOf b.id = db'.entriesOf b.id := hrows (.entriesOf b.id) (by simp)
    simp only [Db.latestBalance, hentries]
  · refine locksFirst_lockBucketOr fun b => ⟨fun k hk => ?_, fun db => trivial⟩
    rw [List.mem_singleton.1 hk]
    exact protects_entriesOf (by simp)

theorem LedgerTx.isolable (tx : LedgerTx) (env : Env) :
    (tx.body env).Isolable ledgerFootprint tx.level := by
  cases tx with
  | credit p => exact creditTx_isolable p env.row
  | transferBetweenBuckets src dst biz amount narration _ =>
    exact transferTx_isolable src dst biz amount narration
  | settleInternal r id destRef _ => exact settleInternalTx_isolable r id destRef
  | completeSettlement r id ref => exact completeSettlementTx_isolable r id ref

/-- Alone, each transaction keeps the stored figures right. -/
theorem LedgerTx.agreed {tx : LedgerTx} {db db' : Db} {a : tx.Result} (horder : tx.FindsOrder db)
    (hdb : db.UniqueColumns ∧ db.Agreed) (hrun : (tx.body env).run schema db = .ok (a, db')) :
    db'.UniqueColumns ∧ db'.Agreed := by
  refine ⟨hdb.1.run hrun, ?_⟩
  cases tx with
  | credit p => exact hdb.2.credit hrun
  | transferBetweenBuckets src dst biz amount narration hne => exact hdb.2.transfer hdb.1 hne hrun
  | settleInternal r id destRef hne => exact hdb.2.settleInternal hdb.1 hne hrun
  | completeSettlement r id ref => exact hdb.2.completeSettlement horder hrun

end Transactions

/-! ### Any interleaving -/

/-- The database as the threads share it. -/
abbrev SharedDb (ι : Type) := Shared ι Db Key

/-- A thread that runs transactions of the ledger, statement by statement. -/
abbrev LedgerThread (ι : Type) :=
  Proc (SharedDb ι) (StepChoice Env Error) (StepLabel ι Key LedgerTx) Error Unit

/-- The thread `i` runs the transactions one after the other. -/
def ledgerThread {ι : Type} [DecidableEq ι] (i : ι) (txs : List LedgerTx) : LedgerThread ι :=
  serve schema LedgerTx.level LedgerTx.body i txs

/-- The cumulative amount of the bucket's last entry in commit order, `0` before the first one. -/
def Db.lastBalance (db : Db) (bucketId : String) : Int :=
  ((db.entriesOf bucketId).getLast?.map BucketLedgerEntry.cumulativeAmountKobo).getD 0

/-- **No lost update of a running balance.** Any number of threads run credits, transfers and
settlements, statement by statement in any order, each of them possibly aborted at any statement.
If no credit commits stale, and every completion finds the entries in chronological order when it
commits, then in every state reached the last committed entry of every bucket stores the sum of its
entries. -/
theorem no_lost_update {ι : Type} [DecidableEq ι] {txs : ι → List LedgerTx} {db₀ : Db}
    (hunique : db₀.UniqueColumns)
    (hstart : ∀ bucketId, db₀.lastBalance bucketId = db₀.balance bucketId)
    {m : SharedDb ι}
    {hist : List (Event ι (SharedDb ι) (StepChoice Env Error) (StepLabel ι Key LedgerTx))}
    {ps : ι → LedgerThread ι}
    (run : Run (fun l c m _ => Allows l c m ∧ ¬ CommitsStale l c m ∧
        CommitsOn LedgerTx.FindsOrder l c m)
      (fun i => ledgerThread i (txs i)) ⟨db₀, [], []⟩ hist ps m) (bucketId : String) :
    m.committed.lastBalance bucketId = m.committed.balance bucketId := by
  have hagreed : db₀.Agreed := by
    intro b
    have hb := hstart b
    rw [Db.balance_eq_total] at hb
    exact hb
  have hend := committed_inv ledgerFootprint (fun tx env => tx.isolable env)
    (fun tx env db a db' horder hdb hrun => tx.agreed horder hdb hrun) ⟨hunique, hagreed⟩ run
  rw [Db.balance_eq_total]
  exact hend.2 bucketId

/-! ### A credit that commits stale -/

namespace Sample

/-- `ops` with ₦1,000.00 in it, of which a settlement is about to take ₦400.00. -/
def settling : Db :=
  { funded.db with
    settlements := [{
      id := "stl1", createdAt := 2, bucketId := "bkt1", businessId := "biz", amountKobo := 40000
      status := .processing, destinationType := .bankAccount, initiatedBy := "key" }] }

def withdrawal : SettlementRequest where
  bucketRef := "ops"
  businessId := "biz"
  actor := "key"
  required := 40000
  amountKobo := 40000
  dest := ⟨"BANK_ACCOUNT", none, none, none, none⟩
  narration := none

def allocation : CreditParams where
  bucketId := "bkt1"
  businessId := "biz"
  amountKobo := 50000
  reference := "alloc_t2_bkt1"

/-- One thread credits `ops`, the other completes the settlement. -/
def writers : Bool → List LedgerTx
  | false => [.credit allocation]
  | true => [.completeSettlement withdrawal "stl1" "n1"]

/-- A step of a thread, with the row that its transaction writes. -/
def turn (thread : Bool) (row : Generated) : Bool × StepChoice Env Error :=
  (thread, { env := { row } })

/-- The completion runs and commits after the credit has read the balance. -/
def completesInBetween : List (Bool × StepChoice Env Error) :=
  List.replicate 4 (turn false ⟨4, "ble3"⟩) ++ List.replicate 8 (turn true ⟨3, "ble2"⟩) ++
    List.replicate 2 (turn false ⟨4, "ble3"⟩)

/-- The credit has committed before the completion begins. -/
def completesAfter : List (Bool × StepChoice Env Error) :=
  List.replicate 6 (turn false ⟨3, "ble2"⟩) ++ List.replicate 8 (turn true ⟨4, "ble3"⟩)

end Sample

/-- When the credit has committed before the completion begins, both are in the last figure. -/
theorem no_lost_update_completesAfter :
    let m := (exec (fun i => ledgerThread i (Sample.writers i)) ⟨Sample.settling, [], []⟩
      Sample.completesAfter).2.2
    m.log.length = 2 ∧ m.committed.lastBalance "bkt1" = m.committed.balance "bkt1" := by
  refine ⟨by decide +kernel, no_lost_update ⟨by decide, by decide, by decide, by decide, by decide,
    by decide, by decide, by decide, by decide, by decide⟩ (fun b => ?_)
    (Run.of_exec _ _ _ (by decide +kernel)) "bkt1"⟩
  rw [Db.balance_eq_total]
  exact Sample.agreed_twoBuckets b

/-- PostgreSQL allows every step, both transactions commit, and the last entry is ₦400.00 above the
sum of the entries. -/
theorem credit_overwrites_settlement :
    let r := exec (fun i => ledgerThread i (Sample.writers i)) ⟨Sample.settling, [], []⟩
      Sample.completesInBetween
    (∀ ev ∈ r.1, Allows ev.call ev.choice ev.before) ∧ r.2.2.log.length = 2 ∧
      r.2.2.committed.Chronological ∧ r.2.2.committed.lastBalance "bkt1" = 150000 ∧
      r.2.2.committed.balance "bkt1" = 110000 := by
  decide +kernel

end AccountOS
