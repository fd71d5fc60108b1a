import AccountOS.Queue.Correctness.Steps
import AccountOS.Treasury.Close
import AccountOS.Treasury.Correctness.Postings

/-!
# Closed buckets

A bucket is closed when it is empty. That it stays empty depends on everyone who writes to a bucket
looking at its status. Allocations and transfers do, and so does the source's side of a settlement;
the destination of an internal settlement is the one bucket nobody looks at. The headline result,
`closed_buckets_stay_empty`, says that nothing else can put money into a closed bucket.

The operations are run one at a time. So what an operation has read is still there when it writes:
the protocol's ghost is what the database has of the treasury.
-/

namespace AccountOS

open Conc Sql

namespace Db

variable (db : Db)

/-- The bucket is not closed. -/
def Open (bucketId : String) : Prop :=
  ∀ b ∈ db.treasuryBuckets, b.id = bucketId → b.status ≠ .closed

/-- There is nothing in a closed bucket, and nothing reserved. -/
def ClosedEmpty : Prop :=
  ∀ b ∈ db.treasuryBuckets, b.status = .closed → db.balance b.id = 0 ∧ db.reservedKobo b.id = 0

variable {db}

/-- The row of a bucket decides whether it is closed. -/
theorem open_of_mem (hunique : db.UniqueColumns) {b : TreasuryBucket} (hb : b ∈ db.treasuryBuckets)
    (hstatus : b.status ≠ .closed) : db.Open b.id := by
  intro b' hb' hid
  rwa [eq_of_key_eq hunique.treasuryBuckets hb' hb hid]

theorem open_of_active (hunique : db.UniqueColumns) {b : TreasuryBucket}
    (hb : b ∈ db.treasuryBuckets) (hactive : b.status = .active) : db.Open b.id :=
  open_of_mem hunique hb (by simp [hactive])

theorem not_open_of_mem {b : TreasuryBucket} (hb : b ∈ db.treasuryBuckets)
    (hclosed : b.status = .closed) : ¬ db.Open b.id :=
  fun hopen => hopen b hb rfl hclosed

end Db

/-! ### Steps that leave closed buckets alone -/

variable {db db' : Db}

/-- A step that posts to open buckets only and changes no reservation in a closed one, or that
closes an empty bucket. -/
inductive SparesClosed (db db' : Db) : Prop
  | posts {es : List BucketLedgerEntry} (posts : Posts db db' es)
    (entries : ∀ e ∈ es, db.Open e.bucketId)
    (reserved : ∀ id, ¬ db.Open id → db'.reservedKobo id = db.reservedKobo id)
  | closes {id : String} (balance : db.balance id = 0) (reserved : db.reservedKobo id = 0)
    (update : db.updateBucketStatus id .closed = .ok db')

namespace SparesClosed

/-- A step that changes neither entries nor settlements. -/
theorem quiet (hposts : Posts db db' []) (hsettlements : db'.settlements = db.settlements) :
    SparesClosed db db' :=
  .posts hposts (fun _ he => absurd he List.not_mem_nil) fun id _ =>
    Db.reservedKobo_congr hsettlements id

/-- **Nothing is written to a closed bucket.** -/
theorem entriesOf (h : SparesClosed db db') {b : TreasuryBucket} (hb : b ∈ db.treasuryBuckets)
    (hclosed : b.status = .closed) : db'.entriesOf b.id = db.entriesOf b.id := by
  cases h with
  | @posts es posts entries reserved =>
    have hnone : es.filter (fun e => e.bucketId = b.id) = [] := by
      refine List.filter_eq_nil_iff.2 fun e he hid => ?_
      have hopen := entries e he
      rw [of_decide_eq_true hid] at hopen
      exact Db.not_open_of_mem hb hclosed hopen
    rw [Db.entriesOf_append posts.entries, hnone, List.append_nil]
  | closes balance reserved update =>
    obtain ⟨-, rfl⟩ := Db.updateBucketStatus_eq_ok.1 update
    rfl

theorem balance (h : SparesClosed db db') {b : TreasuryBucket} (hb : b ∈ db.treasuryBuckets)
    (hclosed : b.status = .closed) : db'.balance b.id = db.balance b.id := by
  rw [Db.balance_eq_total, Db.balance_eq_total, h.entriesOf hb hclosed]

/-- A closed bucket is never opened again. -/
theorem stays_closed (h : SparesClosed db db') {b : TreasuryBucket} (hb : b ∈ db.treasuryBuckets)
    (hclosed : b.status = .closed) : b ∈ db'.treasuryBuckets := by
  cases h with
  | posts posts entries reserved => rwa [posts.buckets]
  | closes balance reserved update =>
    obtain ⟨-, rfl⟩ := Db.updateBucketStatus_eq_ok.1 update
    refine mem_updateRow.2 ⟨b, hb, ?_⟩
    rw [← hclosed]
    exact (ite_self b).symm

/-- **Closed buckets stay empty, step by step.** -/
theorem closedEmpty (h : SparesClosed db db') (hdb : db.ClosedEmpty) : db'.ClosedEmpty := by
  intro b hb hclosed
  cases h with
  | @posts es posts entries reserved =>
    rw [posts.buckets] at hb
    have hspares : SparesClosed db db' := .posts posts entries reserved
    obtain ⟨hbalance, hreserved⟩ := hdb b hb hclosed
    rw [hspares.balance hb hclosed, reserved b.id (Db.not_open_of_mem hb hclosed)]
    exact ⟨hbalance, hreserved⟩
  | @closes id balance reserved update =>
    obtain ⟨-, rfl⟩ := Db.updateBucketStatus_eq_ok.1 update
    show db.balance b.id = 0 ∧ db.reservedKobo b.id = 0
    obtain ⟨y, hy, rfl⟩ := mem_updateRow.1 hb
    by_cases hid : y.id = id
    · rw [if_pos hid]
      exact ⟨hid ▸ balance, hid ▸ reserved⟩
    · rw [if_neg hid] at hclosed ⊢
      exact hdb y hy hclosed

end SparesClosed

/-! ### The protocol -/

/-- What the database has of the treasury. -/
def Db.treasury (db : Db) : Db where
  treasuryBuckets := db.treasuryBuckets
  bucketLedgerEntries := db.bucketLedgerEntries
  settlements := db.settlements

/-- The condition on a step: the destination of an internal settlement is not closed. -/
def EntersOpen (l : Call) (db : Db) : Prop :=
  match l with
  | .settleInternal businessId _ destRef _ _ =>
    ∀ d ∈ db.findBucket businessId destRef, d.status ≠ .closed
  | _ => True

instance (l : Call) (db : Db) : Decidable (EntersOpen l db) :=
  decidable_of_iff ((match l with
    | .settleInternal businessId _ destRef _ _ =>
      decide (∀ d ∈ db.findBucket businessId destRef, d.status ≠ .closed)
    | _ => true) = true)
    (by unfold EntersOpen; split <;> simp only [decide_eq_true_eq])

/-- One thread, whose ghost is what it knows the treasury to be, spares closed buckets at each call.
-/
def sparing : Protocol Unit World Env Call Db where
  allowed l _ w _ := EntersOpen l w.db
  inv G hist w := w.db.treasury = G () ∧ w.db.UniqueColumns ∧
    ∀ ev ∈ hist, SparesClosed ev.before.db ev.after.db

section Steps

variable {G : Unit → Db} {hist : List (Event Unit World Env Call)} {l : Call} {env : Env}
  {w w' : World}

/-- One more call; the new ghost is the new state of the treasury. -/
theorem sparing_step (h : sparing.inv G hist w) (hunique : w'.db.UniqueColumns)
    (hspares : SparesClosed w.db w'.db) :
    sparing.inv (Function.update G () w'.db.treasury) (hist ++ [⟨(), l, env, w, w'⟩]) w' := by
  refine ⟨by rw [Function.update_self], hunique, fun ev hev => ?_⟩
  rcases List.mem_append.1 hev with hev | hev
  · exact h.2.2 ev hev
  · rw [List.mem_singleton.1 hev]
    exact hspares

/-- A call that leaves the treasury as it is. -/
theorem sparing_same (h : sparing.inv G hist w) (hunique : w'.db.UniqueColumns)
    (hsame : w'.db.treasury = w.db.treasury) :
    sparing.inv G (hist ++ [⟨(), l, env, w, w'⟩]) w' := by
  have hbuckets : w'.db.treasury.treasuryBuckets = w.db.treasury.treasuryBuckets := by rw [hsame]
  have hentries : w'.db.treasury.bucketLedgerEntries = w.db.treasury.bucketLedgerEntries := by
    rw [hsame]
  have hsettlements : w'.db.treasury.settlements = w.db.treasury.settlements := by rw [hsame]
  have hstep : sparing.inv (Function.update G () w'.db.treasury)
      (hist ++ [⟨(), l, env, w, w'⟩]) w' :=
    sparing_step h hunique (.quiet (.nothing hentries hbuckets) hsettlements)
  rw [hsame, h.1, Function.update_eq_self] at hstep
  exact hstep

theorem sparing_quiet : Quiet sparing := by
  rintro G hist w w' i l env hinv - hsame
  exact sparing_same hinv (hsame.db ▸ hinv.2.1) (congrArg Db.treasury hsame.db)

end Steps

/-! ### Settlements and transfers -/

/-- The thread has found the bucket and the bucket is active. -/
def FoundActive (businessId bucketRef : String) (db : Db) : Prop :=
  ∃ b, db.findBucket businessId bucketRef = some b ∧ b.status = .active

/-- The settlement is on the active bucket of its request. -/
def OnActive (r : SettlementRequest) (id : String) (db : Db) : Prop :=
  ∃ b, db.findBucket r.businessId r.bucketRef = some b ∧ b.status = .active ∧
    ∀ s ∈ db.settlements, s.id = id → s.bucketId = b.id

section Settlement

variable {r : SettlementRequest} {id : String}

/-- Updating a settlement on an active bucket changes no reservation in a closed one. -/
theorem OnActive.reservedKobo (h : OnActive r id db) (hunique : db.UniqueColumns)
    {data : SettlementData} (hexists : ∃ s ∈ db.settlements, s.id = id)
    (hsettlements : db'.settlements = updateRow Settlement.id id data.set db.settlements)
    (bucketId : String) (hclosed : ¬ db.Open bucketId) :
    db'.reservedKobo bucketId = db.reservedKobo bucketId := by
  obtain ⟨b, hb, hactive, hon⟩ := h
  obtain ⟨s, hs, rfl⟩ := hexists
  have hopen := Db.open_of_active hunique (findBucket_eq_some db hb).1 hactive
  have hne : s.bucketId ≠ bucketId := by
    rintro rfl
    rw [hon s hs rfl] at hclosed
    exact hclosed hopen
  rw [Db.reservedKobo_update hunique.settlements hs hsettlements]
  simp [hne]

/-- The update itself keeps the settlement on its bucket. -/
theorem OnActive.update (h : OnActive r id db) {data : SettlementData}
    (hop : db.updateSettlement id data = .ok db') : OnActive r id db' := by
  obtain ⟨b, hb, hactive, hon⟩ := h
  obtain ⟨-, -, rfl⟩ := Db.updateSettlement_eq_ok.1 hop
  refine ⟨b, hb, hactive, fun s hs hid => ?_⟩
  obtain ⟨y, hy, rfl⟩ := mem_updateRow.1 hs
  by_cases hy' : y.id = id
  · rw [if_pos hy']
    exact hon y hy hy'
  · rw [if_neg hy'] at hid
    exact absurd hid hy'

/-- The bucket that a settlement on an active bucket is about is open. -/
theorem OnActive.bucketOpen (h : OnActive r id db) (hunique : db.UniqueColumns) {b : TreasuryBucket}
    (hb : db.findBucket r.businessId r.bucketRef = some b) : db.Open b.id := by
  obtain ⟨b', hb', hactive, -⟩ := h
  obtain rfl : b = b' := by simpa [hb] using hb'
  exact Db.open_of_active hunique (findBucket_eq_some db hb).1 hactive

/-- A settlement on an active bucket is marked. -/
theorem OnActive.sparesClosed (h : OnActive r id db) (hunique : db.UniqueColumns)
    {data : SettlementData} (hop : db.updateSettlement id data = .ok db') :
    SparesClosed db db' := by
  obtain ⟨hexists, -, rfl⟩ := Db.updateSettlement_eq_ok.1 hop
  exact .posts (.nothing rfl rfl) (fun _ he => absurd he List.not_mem_nil)
    (h.reservedKobo hunique hexists rfl)

end Settlement

/-- A settlement looks at the status of its own bucket, and the condition at its destination's. -/
def sparingSettlements : SettlementSteps sparing () where
  Ready := FoundActive
  Held := OnActive
  Paid := OnActive
  paidMayFail := True
  quiet := sparing_quiet
  found := by
    intro biz ref bucket G hist w hinv hfound hactive
    rw [← hinv.1]
    exact ⟨bucket, hfound, hactive⟩
  reserve := by
    rintro r l G hist w env s db w' - rfl hready hinv - hrun rfl
    rw [← hinv.1] at hready
    change FoundActive r.businessId r.bucketRef w.db at hready
    obtain ⟨b, hb, hactive⟩ := hready
    have hunique := hinv.2.1.run hrun
    obtain ⟨b', type, hb', -, -, hs, hcreate⟩ := (reserveTx_run_eq_ok w.db).1 hrun
    obtain rfl : b = b' := by simpa [hb] using hb'
    -- a reservation is made on an ACTIVE bucket, and so on no closed one
    have hopen := Db.open_of_active hinv.2.1 (findBucket_eq_some w.db hb).1 hactive
    have hbucket : s.bucketId = b.id := by rw [hs, SettlementRequest.settlement_bucketId]
    obtain ⟨hfresh, -, -, rfl⟩ := Db.createSettlement_eq_ok.1 hcreate
    refine ⟨_, sparing_step hinv hunique
      (.posts (.nothing rfl rfl) (fun _ he => absurd he List.not_mem_nil) ?_), b, hb, hactive, ?_⟩
    · intro bucketId hclosed
      have hne : b.id ≠ bucketId := fun hid => hclosed (hid ▸ hopen)
      rw [Db.reservedKobo_append rfl, hbucket]
      simp [hne]
    · intro s' hs' hid
      rcases List.mem_append.1 hs' with hs' | hs'
      · exact absurd hid (hfresh s' hs')
      · rw [List.mem_singleton.1 hs', hbucket]
  processing := by
    rintro r id l G hist w env db w' rfl hheld hinv - hop rfl
    rw [← hinv.1] at hheld
    change OnActive r id w.db at hheld
    have hunique := hinv.2.1.apply (show (WriteOp.updateSettlement id _).apply _ = _ from hop)
    have hupdated := hheld.update hop
    exact ⟨_, sparing_step hinv hunique (hheld.sparesClosed hinv.2.1 hop), hupdated⟩
  sent := by
    rintro r id request l G hist w env w' rfl hheld hinv - - - rfl
    rw [← hinv.1] at hheld
    change OnActive r id w.db at hheld
    exact ⟨_, sparing_step hinv hinv.2.1 (.quiet (.nothing rfl rfl) rfl), hheld⟩
  completed := by
    rintro r id ref u l G hist w env db w' rfl hpaid hinv - hrun rfl
    rw [← hinv.1] at hpaid
    change OnActive r id w.db at hpaid
    have hunique := hinv.2.1.run hrun
    obtain ⟨b, db₁, hb, h₁, h₂⟩ := (completeSettlementTx_run_eq_ok w.db).1 hrun
    obtain ⟨-, -, -, -, rfl⟩ := Db.createBucketLedgerEntry_eq_ok.1 h₁
    obtain ⟨hexists, -, rfl⟩ := Db.updateSettlement_eq_ok.1 h₂
    have hopen := hpaid.bucketOpen hinv.2.1 hb
    refine ⟨_, sparing_step hinv hunique (.posts ⟨rfl, rfl⟩ ?_
      (hpaid.reservedKobo hinv.2.1 hexists rfl))⟩
    intro e he
    rw [List.mem_singleton.1 he]
    exact hopen
  thrown := fun _ _ _ _ _ => trivial
  settledInternally := by
    rintro r id destRef ref l G hist w env db w' rfl hheld hinv hallowed hrun - - rfl
    rw [← hinv.1] at hheld
    change OnActive r id w.db at hheld
    have hunique := hinv.2.1.run hrun
    obtain ⟨b, d, db₁, db₂, hb, hd, h₁, h₂, h₃, -⟩ := (settleInternalTx_run_eq_ok w.db).1 hrun
    obtain ⟨-, -, -, -, rfl⟩ := Db.createBucketLedgerEntry_eq_ok.1 h₁
    obtain ⟨-, -, -, -, rfl⟩ := Db.createBucketLedgerEntry_eq_ok.1 h₂
    obtain ⟨hexists, -, rfl⟩ := Db.updateSettlement_eq_ok.1 h₃
    have hsource := hheld.bucketOpen hinv.2.1 hb
    -- nothing in the code looks at the destination: this is the condition
    have hdest := Db.open_of_mem hinv.2.1 (findBucket_eq_some w.db hd).1 (hallowed d hd)
    refine ⟨_, sparing_step hinv hunique (.posts ⟨List.append_assoc .., rfl⟩ ?_
      (hheld.reservedKobo hinv.2.1 hexists rfl))⟩
    intro e he
    rcases List.mem_cons.1 he with rfl | he
    · exact hsource
    · rw [List.mem_singleton.1 he]
      exact hdest
  failed := by
    rintro r id data l G hist w env db w' rfl hown hinv - - - hop rfl
    have hheld : OnActive r id w.db.treasury := by
      rw [hinv.1]
      rcases hown with hheld | ⟨-, hpaid⟩
      · exact hheld
      · exact hpaid
    change OnActive r id w.db at hheld
    have hunique := hinv.2.1.apply (show (WriteOp.updateSettlement id data).apply _ = _ from hop)
    exact ⟨_, sparing_step hinv hunique (hheld.sparesClosed hinv.2.1 hop)⟩

variable {g : Db}

/-- A transfer looks at the status of both of its buckets. -/
theorem wp_transferBetweenBuckets_sparing {src : String} {dto : TransferBucketDto}
    {biz actor : String} :
    (transferBetweenBuckets src dto biz actor).Wp sparing () (fun _ _ => True)
      (fun _ _ => True) g := by
  refine wp_transferBetweenBuckets sparing_quiet ?_
  rintro amount G hist w env a db w' - - hinv - hrun rfl
  have hunique := hinv.2.1.run hrun
  obtain ⟨s, d, db₁, hs, hd, hsource, hdest, -, h₁, h₂, -⟩ := (transferTx_run_eq_ok w.db).1 hrun
  obtain ⟨-, -, -, -, rfl⟩ := Db.createBucketLedgerEntry_eq_ok.1 h₁
  obtain ⟨-, -, -, -, rfl⟩ := Db.createBucketLedgerEntry_eq_ok.1 h₂
  refine ⟨_, sparing_step hinv hunique (.posts ⟨List.append_assoc .., rfl⟩ ?_ fun _ _ => rfl)⟩
  intro e he
  rcases List.mem_cons.1 he with rfl | he
  · exact Db.open_of_active hinv.2.1 (findBucket_eq_some w.db hs).1 hsource
  · rw [List.mem_singleton.1 he]
    exact Db.open_of_active hinv.2.1 (findBucket_eq_some w.db hd).1 hdest

/-! ### Executions -/

/-- An allocation looks at the status of its bucket, which stays what it is: the buckets are those
the execution started with. -/
def sparingExecution (rule : EvaluatedRule) (entry : TriggerEntry) (buckets : List TreasuryBucket) :
    ExecutionSteps sparing () rule entry where
  Start db := db.treasuryBuckets = buckets
  Running _ db := db.treasuryBuckets = buckets
  Credited _ _ _ db := db.treasuryBuckets = buckets
  Done _ db := db.treasuryBuckets = buckets
  Destination b := b ∈ buckets ∧ b.status = .active
  quiet := sparing_quiet
  create := by
    rintro l G hist w env db w' rfl hg hinv - hop rfl
    rw [← hinv.1] at hg
    change w.db.treasuryBuckets = buckets at hg
    have hunique := hinv.2.1.apply (show (WriteOp.createRuleExecution _).apply _ = _ from hop)
    obtain ⟨-, -, -, -, rfl⟩ := Db.createRuleExecution_eq_ok.1 hop
    exact ⟨_, sparing_step hinv hunique (.quiet (.nothing rfl rfl) rfl), hg⟩
  destination := by
    intro x ref bucket G hist w hg hinv _ hfound hactive
    rw [← hinv.1] at hg
    change w.db.treasuryBuckets = buckets at hg
    exact ⟨hg ▸ (findBucket_eq_some w.db hfound).1, hactive⟩
  credit := by
    rintro x bucket amount l G hist w env a db w' rfl - ⟨hbucket, hactive⟩ - - hg hinv - hrun rfl
    rw [← hinv.1] at hg
    change w.db.treasuryBuckets = buckets at hg
    have hunique := hinv.2.1.run hrun
    rcases (creditTx_run_eq_ok w.db).1 hrun with ⟨e, -, -, rfl⟩ | ⟨-, -, hcreate⟩
    · exact ⟨_, sparing_step hinv hunique (.quiet (.nothing rfl rfl) rfl), hg⟩
    · obtain ⟨-, -, -, -, rfl⟩ := Db.createBucketLedgerEntry_eq_ok.1 hcreate
      refine ⟨_, sparing_step hinv hunique (.posts ⟨rfl, rfl⟩ ?_ fun _ _ => rfl), hg⟩
      intro e he
      rw [List.mem_singleton.1 he]
      exact Db.open_of_active hinv.2.1 (hg ▸ hbucket) hactive
  record := by
    rintro x o data l G hist w env db w' rfl hg - hinv - hop rfl
    have hbuckets : w.db.treasury.treasuryBuckets = buckets := by
      rw [hinv.1]
      rcases hg with ⟨hg, -⟩ | ⟨-, -, hg⟩
      · exact hg
      · exact hg
    have hunique := hinv.2.1.apply (show (WriteOp.updateRuleExecution x data).apply _ = _ from hop)
    obtain ⟨-, rfl⟩ := Db.updateRuleExecution_eq_ok.1 hop
    exact ⟨_, sparing_step hinv hunique (.quiet (.nothing rfl rfl) rfl), hbuckets⟩
  changeStatus := by
    rintro x status l G hist w env db w' rfl hg hinv - hop rfl
    have hunique := hinv.2.1.apply
      (show (WriteOp.updateAccountStatus _ status).apply _ = _ from hop)
    obtain ⟨-, rfl⟩ := Db.updateAccountStatus_eq_ok.1 hop
    exact sparing_same hinv hunique rfl
  flag := by
    rintro x id l G hist w env db w' rfl - hg hinv - hop rfl
    have hunique := hinv.2.1.apply
      (show (WriteOp.updateReconciliationById id .flagged).apply _ = _ from hop)
    obtain ⟨-, rfl⟩ := Db.updateReconciliationById_eq_ok.1 hop
    exact sparing_same hinv hunique rfl

/-! ### Closing a bucket -/

/-- A bucket is closed in the state in which it has been found empty. -/
theorem wp_closeWhenEmpty {bucket : TreasuryBucket} {biz actor : String}
    (hbalance : g.balance bucket.id = 0) (hreserved : g.reservedKobo bucket.id = 0) :
    ((updateBucketStatus bucket.id .closed).bind fun closedAt =>
      (audit {
        actor
        action := .treasuryBucketClosed
        businessId := some biz
        beforeState := [("status", .str (toString bucket.status))]
        afterState := [("status", .str "CLOSED"), ("closedAt", .num closedAt)]
        reasonCode := some "BUCKET_CLOSED" }).bind fun _ =>
      (.ret { bucket with status := .closed } : Action TreasuryBucket)).Wp sparing ()
        (fun _ _ => True) (fun _ _ => True) g := by
  refine Proc.Wp.bind (Proc.Wp.call fun G hist w env hG hinv hallowed => ?_)
  -- the thread is alone: the bucket is as empty as it was when it was read
  have hsame : w.db.treasury = g := hinv.1.trans hG
  have hbalance' : w.db.treasury.balance bucket.id = 0 := by rw [hsame, hbalance]
  have hreserved' : w.db.treasury.reservedKobo bucket.id = 0 := by rw [hsame, hreserved]
  rcases updateBucketStatusStep_cases bucket.id .closed env w with
    ⟨db, hdb, hstep⟩ | ⟨e, w', hstep, hquiet⟩
  · rw [hstep]
    have hspares : SparesClosed w.db db := .closes hbalance' hreserved' hdb
    refine ⟨_, sparing_step hinv (hinv.2.1.updateBucketStatus hdb) hspares, fun a _ => ?_,
      fun e he => by simp at he⟩
    exact Proc.Wp.bind (wp_audit sparing_quiet trivial)
  · rw [hstep] at hallowed ⊢
    exact ⟨g, sparing_quiet.step hG hinv hallowed hquiet, fun a ha => by simp at ha,
      fun _ _ => trivial⟩

theorem wp_closeBucket {bucketRef biz actor : String} :
    (closeBucket bucketRef biz actor).Wp sparing () (fun _ _ => True) (fun _ _ => True) g := by
  refine Proc.Wp.bind (Proc.Wp.bind
    (wp_find sparing_quiet (fun G hist w env hG hinv => ?_) fun _ => trivial))
  cases hfound : w.db.findBucket biz bucketRef with
  | none => trivial
  | some b =>
    show Proc.Wp sparing () _ _ (ite _ _ _) g
    split
    next => trivial
    next =>
      refine Proc.Wp.bind (wp_read (f := fun db => db.balance b.id) sparing_quiet
        (fun db => computeBalance_run db b.id) (fun G₁ hist₁ w₁ hG₁ hinv₁ => ?_) fun _ => trivial)
      refine Proc.Wp.bind (wp_read (f := fun db => db.reservedKobo b.id) sparing_quiet
        (fun db => (reservedKobo_run_eq_ok db).2 rfl) (fun G₂ hist₂ w₂ hG₂ hinv₂ => ?_)
        fun _ => trivial)
      have hbalance : w₁.db.treasury.balance b.id = g.balance b.id := by rw [hinv₁.1, hG₁]
      have hreserved : w₂.db.treasury.reservedKobo b.id = g.reservedKobo b.id := by
        rw [hinv₂.1, hG₂]
      show Proc.Wp sparing () _ _ (ite _ _ _) g
      split
      next => trivial
      next hempty =>
        obtain ⟨hbalance₀, hreserved₀⟩ := not_or.1 hempty
        exact wp_closeWhenEmpty (hbalance ▸ not_not.1 hbalance₀) (hreserved ▸ not_not.1 hreserved₀)

/-! ### Any operations, one at a time -/

theorem wp_runAll_sparing (ops : List TreasuryCommand) (g : Db) :
    (TreasuryCommand.runAll ops).Wp sparing () (fun _ _ => True) (fun _ _ => True) g := by
  induction ops generalizing g with
  | nil => trivial
  | cons op ops ih =>
    have hop : op.run.Wp sparing () (fun _ _ => True) (fun _ _ => True) g := by
      cases op with
      | execute rule entry =>
        exact Proc.Wp.bind (((sparingExecution rule entry g.treasuryBuckets).wp_execute rfl).mono
          (fun _ _ _ => trivial) fun _ _ h => h)
      | transferBetweenBuckets src dto biz actor =>
        exact Proc.Wp.bind (wp_transferBetweenBuckets_sparing.mono (fun _ _ _ => trivial)
          fun _ _ h => h)
      | initiate bucketRef dto biz actor =>
        exact Proc.Wp.bind ((sparingSettlements.wp_initiate g).mono (fun _ _ _ => trivial)
          fun _ _ h => h)
      | closeBucket bucketRef biz actor =>
        exact Proc.Wp.bind (wp_closeBucket.mono (fun _ _ _ => trivial) fun _ _ h => h)
    exact Proc.Wp.bind (Proc.Wp.catching (hop.mono (fun _ g' _ => ih g') fun _ g' _ => ih g'))

/-- **A closed bucket stays empty.** Treasury operations are run one at a time, with any calls
failing. If every internal settlement finds its destination not closed, then in every state reached
a closed bucket has nothing in it and nothing reserved; and since it was closed nothing has been
written to it. -/
theorem closed_buckets_stay_empty {ops : List TreasuryCommand} {w₀ w : World}
    {hist : List (Event Unit World Env Call)} {ps : Unit → Action Unit}
    (hunique : w₀.db.UniqueColumns) (hstart : w₀.db.ClosedEmpty)
    (run : Run (fun l _ w _ => EntersOpen l w.db) (fun _ : Unit => TreasuryCommand.runAll ops)
      w₀ hist ps w) :
    w.db.ClosedEmpty ∧ ∀ ev ∈ hist, ∀ b ∈ ev.before.db.treasuryBuckets, b.status = .closed →
      ev.after.db.entriesOf b.id = ev.before.db.entriesOf b.id ∧
        b ∈ ev.after.db.treasuryBuckets := by
  obtain ⟨G, -, -, hspares⟩ := sparing.inv_of_run (fun _ => w₀.db.treasury)
    ⟨rfl, hunique, by simp⟩ (fun _ => wp_runAll_sparing ops _) run
  refine ⟨?_, fun ev hev b hb hclosed => ?_⟩
  · exact run.preserves (I := fun w => w.db.ClosedEmpty) hstart
      fun ev hev hbefore => (hspares ev hev).closedEmpty hbefore
  · have hev' := hspares ev hev
    exact ⟨hev'.entriesOf hb hclosed, hev'.stays_closed hb hclosed⟩

/-! ### A settlement to a closed bucket -/

namespace Sample

/-- Close `tax`, then withdraw from `ops` to the given bucket. -/
def closeThenSettle (destinationBucketRef : String) : List TreasuryCommand :=
  [.closeBucket "tax" "biz" "key",
    .initiate "ops" (internal destinationBucketRef) "biz" "key"]

/-- All calls succeed. -/
def allSucceed : List (Unit × Env) :=
  unit [{}, {}, {}, {}, {}, {}, { row := ⟨2, "stl1"⟩ }, {},
    { uuid := "u1", row := ⟨3, "ble2"⟩, row₂ := ⟨4, "ble3"⟩ }, {}]

end Sample

/-- A bucket is closed, and a settlement of another one to itself goes through. -/
theorem closed_buckets_stay_empty_self :
    let w := (exec (fun _ : Unit => TreasuryCommand.runAll (Sample.closeThenSettle "ops"))
      Sample.twoBuckets Sample.allSucceed).2.2
    (∃ b ∈ w.db.treasuryBuckets, b.status = .closed) ∧
      (∃ s ∈ w.db.settlements, s.status = .completed) ∧ w.db.ClosedEmpty := by
  refine ⟨by decide, by decide, ?_⟩
  have hrun := closed_buckets_stay_empty Sample.uniqueColumns_twoBuckets
    (fun b hb hclosed => absurd hclosed (by revert b; decide))
    (Run.of_exec (fun _ : Unit => TreasuryCommand.runAll (Sample.closeThenSettle "ops")) _
      Sample.allSucceed (by decide))
  exact hrun.1

/-- The settlement puts ₦1,000.00 into the bucket that has been closed before. -/
theorem settlement_fills_closed_bucket :
    let w := (exec (fun _ : Unit => TreasuryCommand.runAll (Sample.closeThenSettle "tax"))
      Sample.twoBuckets Sample.allSucceed).2.2
    (∃ b ∈ w.db.treasuryBuckets, b.status = .closed ∧ w.db.balance b.id = 100000) ∧
      ¬ w.db.ClosedEmpty := by
  refine ⟨by decide, fun hempty => ?_⟩
  have hbalance := (hempty _ (List.mem_cons_of_mem _ (List.mem_singleton_self _)) rfl).1
  revert hbalance
  decide

end AccountOS
