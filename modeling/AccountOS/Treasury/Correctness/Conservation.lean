import AccountOS.Treasury.Correctness.Moves

/-!
# Conservation of allocated money

The balances of a business's buckets add up to what was credited to them, less what has left the
business by completed settlements. A transfer and an internal settlement post two entries that
cancel each other, and a settlement to an external destination completes in the transaction that
posts its DEBIT.
-/

namespace AccountOS

open Conc Sql

namespace Db

variable (db : Db) (businessId : String)

/-- The sum of the balances of a business's buckets. -/
def allocated : Int :=
  sumWhere (fun b => b.businessId = businessId) (fun b => db.balance b.id) db.treasuryBuckets

/-- The sum of a business's completed settlements to external destinations. -/
def settledExternally : Int :=
  sumWhere (fun s => s.businessId = businessId ∧ s.status = .completed ∧
    s.destinationType ≠ .internalBucket) Settlement.amountKobo db.settlements

/-- The business has the bucket. -/
def Owns (bucketId : String) : Prop :=
  ∃ b ∈ db.treasuryBuckets, b.businessId = businessId ∧ b.id = bucketId

instance : DecidablePred (db.Owns businessId) := fun _ => List.decidableBEx _ _

/-- A bucket of its own. -/
theorem owns_iff {db : Db} {businessId : String}
    (hunique : (db.treasuryBuckets.map TreasuryBucket.id).Nodup) {b : TreasuryBucket}
    (hb : b ∈ db.treasuryBuckets) : db.Owns businessId b.id ↔ b.businessId = businessId := by
  constructor
  · rintro ⟨b', hb', hbusiness, hid⟩
    rwa [eq_of_key_eq hunique hb hb' hid.symm]
  · exact fun hbusiness => ⟨b, hb, hbusiness, rfl⟩

theorem balance_eq_sumWhere (bucketId : String) :
    db.balance bucketId =
      sumWhere (fun e => e.bucketId = bucketId) BucketLedgerEntry.signed db.bucketLedgerEntries :=
  db.balance_eq_total bucketId

/-- The balances of a business's buckets are the entries on its buckets. -/
theorem allocated_eq {db : Db} (hunique : (db.treasuryBuckets.map TreasuryBucket.id).Nodup)
    (businessId : String) :
    db.allocated businessId =
      sumWhere (fun e => db.Owns businessId e.bucketId) BucketLedgerEntry.signed
        db.bucketLedgerEntries := by
  unfold allocated
  simp only [balance_eq_sumWhere]
  exact sumWhere_groups _ hunique

end Db

variable {db db' : Db} {businessId : String}

/-- What is posted is added to what the business has. -/
theorem Posts.allocated {es : List BucketLedgerEntry} (h : Posts db db' es)
    (hunique : (db.treasuryBuckets.map TreasuryBucket.id).Nodup) :
    db'.allocated businessId = db.allocated businessId +
      sumWhere (fun e => db.Owns businessId e.bucketId) BucketLedgerEntry.signed es := by
  have hunique' : (db'.treasuryBuckets.map TreasuryBucket.id).Nodup := by rwa [h.buckets]
  have howns : ∀ bucketId, db'.Owns businessId bucketId ↔ db.Owns businessId bucketId := by
    unfold Db.Owns
    simp [h.buckets]
  have hsame : ∀ t, sumWhere (fun e => db'.Owns businessId e.bucketId) BucketLedgerEntry.signed t =
      sumWhere (fun e => db.Owns businessId e.bucketId) BucketLedgerEntry.signed t :=
    fun t => sumWhere_congr _ fun e _ => howns e.bucketId
  rw [Db.allocated_eq hunique', Db.allocated_eq hunique, h.entries, sumWhere_append, hsame, hsame]

/-- The two entries of a move within a business cancel each other. -/
theorem Posts.allocated_move {m : Move} {source dest : TreasuryBucket}
    {biz sourceRef destRef : String}
    {row row₂ : Generated} {x y : Int} (h : Posts db db' [m.debit row x, m.credit row₂ y])
    (hunique : (db.treasuryBuckets.map TreasuryBucket.id).Nodup)
    (hsource : db.findBucket biz sourceRef = some source) (hsourceId : m.sourceId = source.id)
    (hdest : db.findBucket biz destRef = some dest) (hdestId : m.destinationId = dest.id) :
    db'.allocated businessId = db.allocated businessId := by
  obtain ⟨hsource', hbiz, -⟩ := findBucket_eq_some db hsource
  obtain ⟨hdest', hbiz', -⟩ := findBucket_eq_some db hdest
  have howns : db.Owns businessId m.sourceId ↔ db.Owns businessId m.destinationId := by
    rw [hsourceId, hdestId, Db.owns_iff hunique hsource', Db.owns_iff hunique hdest', hbiz, hbiz']
  rw [h.allocated hunique]
  by_cases hown : db.Owns businessId m.destinationId
  · simp [howns, hown]
  · simp [howns, hown]

/-- A settlement under way becomes part of the sum when it completes. -/
theorem Updates.settledExternally {s : Settlement} {data : SettlementData}
    (h : Updates db db' s data) (hs : UnderWay db s)
    (hunique : (db.settlements.map Settlement.id).Nodup) :
    db'.settledExternally businessId = db.settledExternally businessId +
      if s.businessId = businessId ∧ data.status = .completed ∧
        s.destinationType ≠ .internalBucket then s.amountKobo else 0 := by
  have hopen : s.status ≠ .completed := by
    intro hc
    have hreserving := hs.reserving
    rw [hc] at hreserving
    exact absurd hreserving (by decide)
  unfold Db.settledExternally
  rw [show db'.settlements = _ from h, sumWhere_updateRow hunique hs.mem rfl]
  simp [hopen, SettlementData.set]

/-! ### What was credited -/

/-- What a call of `AllocationService.credit` has written to the buckets of a business. -/
def creditedTo {ι : Type} (businessId : String) (ev : Event ι World Env Call) : Int :=
  match ev.call with
  | .credit .. =>
    sumWhere (fun e => ev.before.db.Owns businessId e.bucketId) BucketLedgerEntry.amountKobo
      (ev.after.db.bucketLedgerEntries.drop ev.before.db.bucketLedgerEntries.length)
  | _ => 0

theorem creditedTo_of_quiet {ι : Type} {ev : Event ι World Env Call}
    (h : Posts ev.before.db ev.after.db []) : creditedTo businessId ev = 0 := by
  unfold creditedTo
  split
  · rw [h.entries, List.append_nil, List.drop_length]
    rfl
  · rfl

/-- **Each step conserves the money.** What the buckets of a business hold and what has left it
grow together by what is credited. -/
theorem Posted.conserves {ι : Type} {ev : Event ι World Env Call} (h : Posted ev) :
    ev.after.db.allocated businessId + ev.after.db.settledExternally businessId =
      ev.before.db.allocated businessId + ev.before.db.settledExternally businessId +
        creditedTo businessId ev := by
  obtain ⟨who, call, choice, before, after⟩ := ev
  obtain ⟨⟨hunique, -⟩, hposting⟩ := h
  dsimp only at hunique hposting ⊢
  cases hposting with
  | quiet posts settlements =>
    have hsettled :
        after.db.settledExternally businessId = before.db.settledExternally businessId := by
      rw [Db.settledExternally, settlements, Db.settledExternally]
    rw [creditedTo_of_quiet posts, posts.allocated hunique.treasuryBuckets, hsettled]
    simp
  | @credited e credit posts settlements =>
    have hsettled :
        after.db.settledExternally businessId = before.db.settledExternally businessId := by
      rw [Db.settledExternally, settlements, Db.settledExternally]
    have hsigned : e.signed = e.amountKobo := by rw [BucketLedgerEntry.signed, credit]
    have hcredited : ∀ l : Call, l = .credit e.bucketId e.reference e.amountKobo →
        creditedTo businessId (⟨who, l, choice, before, after⟩ : Event ι World Env Call) =
          if before.db.Owns businessId e.bucketId then e.amountKobo else 0 := by
      rintro l rfl
      rw [creditedTo]
      dsimp only
      rw [posts.entries, List.drop_left, sumWhere_cons, sumWhere_nil, add_zero]
    rw [hcredited _ rfl, posts.allocated hunique.treasuryBuckets, hsettled, sumWhere_cons,
      sumWhere_nil, hsigned]
    omega
  | moved sourceFound destFound sourceId destId posts settlements =>
    have hsettled :
        after.db.settledExternally businessId = before.db.settledExternally businessId := by
      rw [Db.settledExternally, settlements, Db.settledExternally]
    rw [posts.allocated_move hunique.treasuryBuckets sourceFound sourceId destFound destId,
      hsettled]
    exact (add_zero _).symm
  | @reserved s bucketRef fresh status reference posts settlements =>
    have hsettled :
        after.db.settledExternally businessId = before.db.settledExternally businessId := by
      rw [Db.settledExternally, settlements, Db.settledExternally, sumWhere_append, sumWhere_cons,
        sumWhere_nil, status]
      simp
    rw [creditedTo_of_quiet posts, posts.allocated hunique.treasuryBuckets, hsettled]
    simp
  | @marked s data underWay status reference posts updates =>
    rw [creditedTo_of_quiet posts, posts.allocated hunique.treasuryBuckets,
      updates.settledExternally underWay hunique.settlements]
    simp [status]
  | @paidOut s bucket e bucketRef reference now underWay external found bucketId entryBucket debit
      amount entryReference posts updates =>
    obtain ⟨hbucket, hbusiness, -⟩ := findBucket_eq_some before.db found
    have hsigned : e.signed = -s.amountKobo := by rw [BucketLedgerEntry.signed, debit, amount]
    rw [posts.allocated hunique.treasuryBuckets,
      updates.settledExternally underWay hunique.settlements, sumWhere_cons, sumWhere_nil, hsigned,
      entryBucket, bucketId]
    have howns : before.db.Owns businessId bucket.id ↔ s.businessId = businessId := by
      rw [Db.owns_iff hunique.treasuryBuckets hbucket, hbusiness]
    -- what leaves the bucket leaves the business
    by_cases hown : s.businessId = businessId
    · simp [howns, hown, external, completedData, creditedTo]
      omega
    · simp [howns, hown, creditedTo]
  | movedOut underWay internal sourceFound bucketId ref destFound sourceId destId amount posts
      updates =>
    rw [posts.allocated_move hunique.treasuryBuckets sourceFound sourceId destFound destId,
      updates.settledExternally underWay hunique.settlements]
    simp [internal, creditedTo]

/-! ### Any run -/

section Run

variable {ι : Type} [DecidableEq ι] {ops : ι → LedgerOp} {w₀ w : World}
  {hist : List (Event ι World Env Call)} {ps : ι → Action Unit}

/-- What the calls of an operation have done when it returns. -/
def LedgerOp.Settled : LedgerOp → Calls ι → Prop
  | request (.transferBetweenBuckets src dto biz _), calls =>
    src ≠ dto.destinationBucketRef ∧ ∃ amountKobo : Int, dto.amountKobo = amountKobo ∧
      PostsOnce (fun db db' => db.UniqueColumns →
        MovesBetween db db' biz src dto.destinationBucketRef amountKobo) calls
  | request (.initiate bucketRef dto biz actor), calls =>
    ∃ (bucket : TreasuryBucket) (amountKobo : Int),
      (∃ x ∈ calls, x.call = .findBucket biz bucketRef ∧
        x.before.db.findBucket biz bucketRef = some bucket) ∧
      dto.amountKobo = amountKobo ∧
      SettlementRequest.SettledInternally ⟨bucketRef, biz, actor, dto.amountKobo, amountKobo,
        resolveDestination dto bucket, dto.narration⟩ calls
  | _, _ => True

omit [DecidableEq ι] in
theorem endsWith_ledgerOp {i : ι} (op : LedgerOp) :
    EndsWith i op.run (fun _ calls => op.Settled calls) [] := by
  cases op with
  | credit p => exact Proc.Traced.bind (endsWith_credit.mono (fun _ _ h => h) fun _ _ h => h)
  | request op =>
    cases op with
    | credit p pos => exact Proc.Traced.bind (endsWith_credit.mono (fun _ _ h => h) fun _ _ h => h)
    | transferBetweenBuckets src dto biz actor =>
      exact Proc.Traced.bind (endsWith_transferBetweenBuckets.mono (fun _ _ h => h) fun _ _ h => h)
    | initiate bucketRef dto biz actor =>
      exact Proc.Traced.bind (endsWith_initiate.mono (fun _ _ h => h) fun _ _ h => h)

/-- **Allocated money is conserved.** Any number of operations are served side by side or one after
the other, each by a thread, with any calls failing. In every state reached, for each business, the
sum of its buckets' balances is what `credit` has written minus its completed settlements to external
destinations (counted from where the run started). A transfer that has returned has moved its amount
from one bucket to the other in one of its calls, and changed no other bucket; so has an internal
settlement between two buckets; and an operation that has thrown has posted no entry. -/
theorem allocated_money_conserved (hunique : w₀.db.UniqueColumns)
    (run : Run (fun _ _ _ _ => True) (fun i => (ops i).run) w₀ hist ps w) :
    (∀ businessId,
      w.db.allocated businessId - w₀.db.allocated businessId =
        (hist.map (creditedTo businessId)).sum -
          (w.db.settledExternally businessId - w₀.db.settledExternally businessId)) ∧
    (∀ i src dto biz actor, ops i = .request (.transferBetweenBuckets src dto biz actor) →
      (ps i).returned = some () →
      src ≠ dto.destinationBucketRef ∧ ∃ amountKobo : Int, dto.amountKobo = amountKobo ∧
        MovesOnce (callsOf i hist) biz src dto.destinationBucketRef amountKobo) ∧
    (∀ i bucketRef dto biz actor, ops i = .request (.initiate bucketRef dto biz actor) →
      (ps i).returned = some () →
      ∃ (bucket : TreasuryBucket) (amountKobo : Int),
        (∃ x ∈ callsOf i hist, x.call = .findBucket biz bucketRef ∧
          x.before.db.findBucket biz bucketRef = some bucket) ∧
        dto.amountKobo = amountKobo ∧
        ((resolveDestination dto bucket).type = "INTERNAL_BUCKET" →
          ∃ destRef, dto.destinationBucketRef = some destRef ∧
            (bucketRef ≠ destRef →
              MovesOnce (callsOf i hist) biz bucketRef destRef amountKobo))) ∧
    ∀ i e, ps i = .raise e → NothingPosted (callsOf i hist) := by
  have hposted := postings_of_wp hunique (fun i => (ops i).wp_run) run
  have hends := (run.traced (K := fun _ _ _ => True) (Q := fun i _ calls => (ops i).Settled calls)
    (E := fun _ _ calls => NothingPosted calls) fun i => endsWith_ledgerOp (ops i)).2
  have hunique' : ∀ {i}, ∀ x ∈ callsOf i hist, x.before.db.UniqueColumns := by
    intro i x hx
    exact (hposted x (List.mem_filter.1 hx).1).unique.1
  have hsettled : ∀ i, (ps i).returned = some () → (ops i).Settled (callsOf i hist) := by
    intro i hi
    have hend := hends i
    rw [Proc.returned_eq_some.1 hi] at hend
    exact hend
  refine ⟨fun businessId => ?_, ?_, ?_, ?_⟩
  · have hsum := run.eq_add_sum
      (f := fun w => w.db.allocated businessId + w.db.settledExternally businessId)
      fun ev hev => (hposted ev hev).conserves
    omega
  · intro i src dto biz actor hop hi
    have hmoved := hsettled i hi
    rw [hop] at hmoved
    obtain ⟨hne, amountKobo, hamount, hposts⟩ := hmoved
    exact ⟨hne, amountKobo, hamount, hposts.imp fun x hx h => h (hunique' x hx)⟩
  · intro i bucketRef dto biz actor hop hi
    have hmoved := hsettled i hi
    rw [hop] at hmoved
    obtain ⟨bucket, amountKobo, hfound, hamount, hinternal⟩ := hmoved
    refine ⟨bucket, amountKobo, hfound, hamount, fun htype => ?_⟩
    obtain ⟨destRef, hdest, hposts⟩ := hinternal htype
    exact ⟨destRef, hdest, fun hne => hposts.imp fun x hx h => h (hunique' x hx) hne⟩
  · intro i e hi
    have hend := hends i
    rw [hi] at hend
    exact hend

end Run

namespace Sample

/-- An allocation of ₦5.00 to `tax`. -/
def smallAllocation : CreditParams where
  bucketId := "bkt2"
  businessId := "biz"
  amountKobo := 500
  reference := "alloc_t2_bkt2"

/-- ₦3.00 of it go on to `ops`. -/
def backToOps : TransferBucketDto where
  destinationBucketRef := "ops"
  amountKobo := 300
  narration := "ops"
  one_le_amountKobo := by norm_num

/-- An allocation, a transfer, and a withdrawal of everything that is in `ops` at the start. -/
def threeOps : Option Bool → LedgerOp
  | none => .credit smallAllocation
  | some false => .request (.transferBetweenBuckets "tax" backToOps "biz" "key")
  | some true => .request (.initiate "ops" payout "biz" "key")

/-- The allocation and the transfer land while the withdrawal is under way. -/
def landingInBetween : List (Option Bool × Env) :=
  [(some true, {}), (some true, { row := ⟨2, "stl1"⟩ }), (none, { row := ⟨3, "ble2"⟩ }),
    (some true, {}),
    (some false, { uuid := "7f7f7f7f-0000", row := ⟨4, "ble3"⟩, row₂ := ⟨4, "ble4"⟩ }),
    (some false, {}), (some true, { uuid := "0a1b2c3d-0000" }), (some true, { row := ⟨5, "ble5"⟩ })]

def threeOpsRun :
    List (Event (Option Bool) World Env Call) × (Option Bool → Action Unit) × World :=
  exec (fun i => (threeOps i).run) twoBuckets landingInBetween

end Sample

/-- ₦5.00 comes in, ₦3.00 is moved and ₦1,000.00 goes out. -/
theorem allocated_money_conserved_allocationInBetween :
    let r := Sample.threeOpsRun
    (r.1.map (creditedTo "biz")).sum = 500 ∧ r.2.2.db.settledExternally "biz" = 100000 ∧
      r.2.2.db.allocated "biz" - Sample.twoBuckets.db.allocated "biz" = 500 - 100000 ∧
      MovesOnce (callsOf (some false) r.1) "biz" "tax" "ops" 300 := by
  have hcredited : (Sample.threeOpsRun.1.map (creditedTo "biz")).sum = 500 := by decide +kernel
  have hsettled : Sample.threeOpsRun.2.2.db.settledExternally "biz" = 100000 := by decide +kernel
  have hstart : Sample.twoBuckets.db.settledExternally "biz" = 0 := by decide
  have hreturned : (Sample.threeOpsRun.2.1 (some false)).returned = some () := by decide +kernel
  have hrun : Run (fun _ _ _ _ => True) (fun i => (Sample.threeOps i).run) Sample.twoBuckets
      Sample.threeOpsRun.1 Sample.threeOpsRun.2.1 Sample.threeOpsRun.2.2 :=
    Run.of_exec _ _ Sample.landingInBetween fun _ _ => trivial
  obtain ⟨hconserved, htransfers, -⟩ :=
    allocated_money_conserved Sample.uniqueColumns_twoBuckets hrun
  obtain ⟨-, amountKobo, hamount, hmoves⟩ := htransfers (some false) _ _ _ _ rfl hreturned
  obtain rfl : amountKobo = 300 := by
    have hamount : (300 : ℚ) = amountKobo := hamount
    exact_mod_cast hamount.symm
  have htotal := hconserved "biz"
  rw [hcredited, hsettled, hstart] at htotal
  exact ⟨hcredited, hsettled, htotal, hmoves⟩

end AccountOS
