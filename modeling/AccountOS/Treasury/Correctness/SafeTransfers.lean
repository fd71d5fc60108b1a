import AccountOS.Treasury.Correctness.Reservation

/-!
# Transfers and reserved funds

`SettlementService` checks a settlement against the balance minus what is reserved.
`transferBetweenBuckets` checks a transfer against the balance alone, so it can take what a
settlement has reserved, and the completion of that settlement then overdraws the bucket.

The headline result, `transfers_leave_reservations`, says that this is the only way: in a run in
which no transfer is made that the balance covers only together with the reserved part, every
bucket always has what is reserved in it.
-/

namespace AccountOS

open Conc Sql

/-- The amount is more than what is not reserved in the bucket, but not more than the given
figure. -/
def DipsIntoReserved (db : Db) (figure amount : Int) (bucketId : String) : Prop :=
  db.balance bucketId - db.reservedKobo bucketId < amount ∧ amount ≤ figure

/-- The condition on a step. A transfer does not dip into the reserved part of its source's
balance. TX1 runs on entries in chronological order, or at least its figure does not let it dip
into what is reserved already. An internal settlement is between two buckets. -/
def RespectsReservations (l : Call) (db : Db) : Prop :=
  match l with
  | .transferBetweenBuckets businessId sourceRef _ amount =>
    ∀ b ∈ db.findBucket businessId sourceRef,
      ¬ DipsIntoReserved db (db.balance b.id) amount b.id
  | .reserve businessId bucketRef amount =>
    db.Chronological ∨ ∀ b ∈ db.findBucket businessId bucketRef,
      ¬ DipsIntoReserved db (db.latestBalance b.id - db.reservedKobo b.id) amount b.id
  | .settleInternal _ sourceRef destRef _ _ => sourceRef ≠ destRef
  | _ => True

instance (db : Db) (figure amount : Int) (bucketId : String) :
    Decidable (DipsIntoReserved db figure amount bucketId) :=
  inferInstanceAs (Decidable (_ ∧ _))

instance (l : Call) (db : Db) : Decidable (RespectsReservations l db) :=
  decidable_of_iff ((match l with
    | .transferBetweenBuckets businessId sourceRef _ amount =>
      decide (∀ b ∈ db.findBucket businessId sourceRef,
        ¬ DipsIntoReserved db (db.balance b.id) amount b.id)
    | .reserve businessId bucketRef amount =>
      decide (db.Chronological ∨ ∀ b ∈ db.findBucket businessId bucketRef,
        ¬ DipsIntoReserved db (db.latestBalance b.id - db.reservedKobo b.id) amount b.id)
    | .settleInternal _ sourceRef destRef _ _ => decide (sourceRef ≠ destRef)
    | _ => true) = true)
    (by unfold RespectsReservations; split <;> simp only [decide_eq_true_eq])

/-- A transfer that was accepted had its amount available: the balance of its source minus what
was reserved there covered it. -/
def TransferCovered {ι : Type} (ev : Event ι World Env Call) : Prop :=
  ∀ businessId sourceRef destRef amount b,
    ev.call = .transferBetweenBuckets businessId sourceRef destRef amount →
    ev.after.db.bucketLedgerEntries ≠ ev.before.db.bucketLedgerEntries →
    ev.before.db.findBucket businessId sourceRef = some b →
    amount ≤ ev.before.db.balance b.id - ev.before.db.reservedKobo b.id

/-- The protocol: the database stays solvent. -/
def solvency (ι : Type) : Protocol ι World Env Call (Option Holding) where
  allowed l _ w _ := RespectsReservations l w.db
  inv G hist w := Books G w.db ∧ ∀ ev ∈ hist, TransferCovered ev

section Steps

variable {ι : Type} {hist : List (Event ι World Env Call)} {i : ι} {l : Call} {env : Env}
  {w w' : World}

theorem covered_append (hhist : ∀ ev ∈ hist, TransferCovered ev)
    (hev : TransferCovered (⟨i, l, env, w, w'⟩ : Event ι World Env Call)) :
    ∀ ev ∈ hist ++ [⟨i, l, env, w, w'⟩], TransferCovered ev := by
  intro ev hmem
  rcases List.mem_append.1 hmem with hmem | hmem
  · exact hhist ev hmem
  · rw [List.mem_singleton.1 hmem]
    exact hev

/-- A call that is no transfer. -/
theorem covered_of_ne (hl : ∀ biz src dst amount, l ≠ .transferBetweenBuckets biz src dst amount) :
    TransferCovered (⟨i, l, env, w, w'⟩ : Event ι World Env Call) :=
  fun biz src dst amount _ hcall => absurd hcall (hl biz src dst amount)

/-- A call that leaves the ledger as it is. -/
theorem covered_of_same (h : w'.db.bucketLedgerEntries = w.db.bucketLedgerEntries) :
    TransferCovered (⟨i, l, env, w, w'⟩ : Event ι World Env Call) :=
  fun _ _ _ _ _ _ hchanged => absurd h hchanged

/-- What a transfer that is not refused and respects reservations takes is available. -/
theorem available_of_transfer {src dst biz : String} {amount : Int} {narration : Option String}
    {out : TransferOutcome} {db db' : Db}
    (hallowed : RespectsReservations (.transferBetweenBuckets biz src dst amount) db)
    (hrun : (transferTx src dst biz amount narration env).run schema db = .ok (out, db'))
    (b : TreasuryBucket) (hb : db.findBucket biz src = some b) :
    amount ≤ db.balance b.id - db.reservedKobo b.id := by
  obtain ⟨s, d, db₁, hs, -, -, -, hbalance, -⟩ := (transferTx_run_eq_ok db).1 hrun
  obtain rfl : b = s := by simpa [hb] using hs
  have hnot := hallowed b hb
  unfold DipsIntoReserved at hnot
  omega

/-- What TX1 reserves is available. -/
theorem available_of_reserve {r : SettlementRequest} {s : Settlement} {db db' : Db}
    (hdb : Solvent db)
    (hallowed : RespectsReservations (.reserve r.businessId r.bucketRef r.amountKobo) db)
    (hrun : (reserveTx r env).run schema db = .ok (s, db'))
    (b : TreasuryBucket) (hb : db.findBucket r.businessId r.bucketRef = some b) :
    r.amountKobo ≤ db.balance b.id - db.reservedKobo b.id := by
  obtain ⟨b', type, hb', havail, -⟩ := (reserveTx_run_eq_ok db).1 hrun
  obtain rfl : b = b' := by simpa [hb] using hb'
  rcases hallowed with hchron | hnot
  · rwa [hdb.latestBalance_eq hchron] at havail
  · have hdips := hnot b hb
    unfold DipsIntoReserved at hdips
    omega

end Steps

/-- Every operation of the treasury keeps the database solvent, call by call. -/
def solvencySteps {ι : Type} [DecidableEq ι] (i : ι) : TreasurySteps (solvency ι) i where
  idle := none
  held r id := some ⟨r, id, false⟩
  paid r id := some ⟨r, id, true⟩
  paidMayFail := True
  quiet := by
    rintro G hist w w' j l env ⟨hbooks, hhist⟩ - hsame
    have hentries : w'.db.bucketLedgerEntries = w.db.bucketLedgerEntries := by rw [hsame.db]
    exact ⟨hsame.db ▸ hbooks, covered_append hhist (covered_of_same hentries)⟩
  credit := by
    rintro p l G hist w env a db w' hpos rfl ⟨hbooks, hhist⟩ - hrun rfl
    exact ⟨hbooks.credit hpos hrun, covered_append hhist (covered_of_ne (by simp))⟩
  transfer := by
    rintro src dst biz amount narration l G hist w env out db w' hne hpos rfl ⟨hbooks, hhist⟩
      hallowed hrun rfl
    have havail := available_of_transfer hallowed hrun
    refine ⟨hbooks.transfer hpos hne hrun havail, covered_append hhist ?_⟩
    rintro biz' src' dst' amount' b ⟨⟩ - hb
    exact havail b hb
  reserve := by
    rintro r l G hist w env s db w' hpos rfl ⟨hbooks, hhist⟩ hallowed hrun rfl
    have havail := available_of_reserve hbooks.solvent hallowed hrun
    exact ⟨hbooks.reserve hpos hrun havail, covered_append hhist (covered_of_ne (by simp))⟩
  processing := by
    rintro r id l G hist w env db w' rfl hheld ⟨hbooks, hhist⟩ - hop rfl
    exact ⟨hbooks.processing hheld hop, covered_append hhist (covered_of_ne (by simp))⟩
  sent := by
    rintro r id request l G hist w env w' rfl hheld ⟨hbooks, hhist⟩ - - - rfl
    exact ⟨hbooks.pay hheld, covered_append hhist (covered_of_ne (by simp))⟩
  completed := by
    rintro r id ref u l G hist w env db w' rfl hpaid ⟨hbooks, hhist⟩ - hrun rfl
    exact ⟨hbooks.completeSettlement hpaid hrun, covered_append hhist (covered_of_ne (by simp))⟩
  thrown := fun _ _ _ _ _ => trivial
  settledInternally := by
    rintro r id destRef ref l G hist w env db w' rfl hheld ⟨hbooks, hhist⟩ hallowed hrun - -
      rfl
    exact ⟨hbooks.settleInternal hheld hallowed hrun,
      covered_append hhist (covered_of_ne (by simp))⟩
  failed := by
    rintro r id data l G hist w env db w' rfl hown ⟨hbooks, hhist⟩ - - - hop rfl
    have hfailed : Books (Function.update G i none) db := by
      rcases hown with hheld | ⟨-, hpaid⟩
      · exact hbooks.fail hheld hop
      · exact hbooks.fail hpaid hop
    exact ⟨hfailed, covered_append hhist (covered_of_ne (by simp))⟩

/-- **Reserved funds stay where they are.** Any number of threads each serve treasury requests one
after the other, with any calls failing. If every step respects reservations, then every transfer
that was accepted had its amount available, and in every state reached no bucket has more reserved
in it than it has, so that no completion can overdraw it. -/
theorem transfers_leave_reservations {ι : Type} [DecidableEq ι] {ops : ι → List TreasuryOp}
    {w₀ w : World} {hist : List (Event ι World Env Call)} {ps : ι → Action Unit}
    (hstart : Solvent w₀.db)
    (run : Run (fun l _ w _ => RespectsReservations l w.db) (fun i => TreasuryOp.runAll (ops i))
      w₀ hist ps w) :
    (∀ ev ∈ hist, TransferCovered ev) ∧
      ∀ bucketId, 0 ≤ w.db.balance bucketId - w.db.reservedKobo bucketId ∧
        0 ≤ w.db.balance bucketId := by
  have hheld : Holdings (fun _ : ι => none) w₀.db := ⟨by simp, by simp⟩
  obtain ⟨G, hbooks, hhist⟩ := (solvency ι).inv_of_run (fun _ => none)
    ⟨⟨hstart, hheld⟩, by simp⟩ (fun i => (solvencySteps i).wp_runAll (ops i) none) run
  refine ⟨hhist, fun bucketId => ⟨?_, hbooks.solvent.balance_nonneg bucketId⟩⟩
  have hcovered := hbooks.solvent.covered bucketId
  omega

/-! ### A transfer of reserved funds -/

namespace Sample

/-- A transfer of everything in `ops` to `tax`. -/
def transferAll : TransferBucketDto where
  destinationBucketRef := "tax"
  amountKobo := 100000
  narration := "tax"
  one_le_amountKobo := payout.one_le_amountKobo

/-- One thread withdraws everything from `ops`, the other transfers everything out of it. -/
def rivals : Bool → Action Unit
  | false => TreasuryOp.runAll [.initiate "ops" payout "biz" "key"]
  | true => TreasuryOp.runAll [.transferBetweenBuckets "ops" transferAll "biz" "key"]

/-- The transfer lands between TX1 and Nomba's answer. -/
def transferInBetween : List (Bool × Env) :=
  [(false, {}), (false, { row := ⟨2, "stl1"⟩ }), (false, {}),
    (true, { uuid := "u1", row := ⟨3, "ble2"⟩, row₂ := ⟨4, "ble3"⟩ }),
    (false, { uuid := "0a1b2c3d-0000" }), (false, { row := ⟨5, "ble4"⟩ })]

/-- The transfer comes first, and TX1 is refused. -/
def transferFirst : List (Bool × Env) :=
  [(true, { uuid := "u1", row := ⟨3, "ble2"⟩, row₂ := ⟨4, "ble3"⟩ }), (false, {}),
    (false, { row := ⟨5, "stl1"⟩ })]

theorem solvent_twoBuckets : Solvent twoBuckets.db where
  unique := uniqueColumns_twoBuckets
  amounts := by decide
  covered bucketId := by
    rw [Db.balance_eq_total]
    by_cases hid : "bkt1" = bucketId
    · subst hid
      decide
    · simp [Db.reservedKobo, twoBuckets, funded, Db.entriesOf, hid]
  figures := fun _ => agreed_twoBuckets

end Sample

/-- In a run in which the transfer comes first nothing goes wrong. -/
theorem transfers_leave_reservations_transferFirst :
    let r := exec Sample.rivals Sample.twoBuckets Sample.transferFirst
    (∀ ev ∈ r.1, TransferCovered ev) ∧
      ∀ bucketId, 0 ≤ r.2.2.db.balance bucketId - r.2.2.db.reservedKobo bucketId ∧
        0 ≤ r.2.2.db.balance bucketId := by
  have hrivals : Sample.rivals = fun i => TreasuryOp.runAll (match i with
      | false => [.initiate "ops" Sample.payout "biz" "key"]
      | true => [.transferBetweenBuckets "ops" Sample.transferAll "biz" "key"]) := by
    funext i
    cases i <;> rfl
  rw [hrivals]
  exact transfers_leave_reservations Sample.solvent_twoBuckets (Run.of_exec _ _ _ (by decide))

/-- The transfer is accepted although everything is reserved, and the completion then takes the
balance to minus ₦1,000.00. -/
theorem transfer_takes_reserved_funds :
    let r := exec Sample.rivals Sample.twoBuckets Sample.transferInBetween
    (∃ ev ∈ r.1, ¬ TransferCovered ev) ∧ r.2.2.db.Chronological ∧
      r.2.2.db.balance "bkt1" = -100000 := by
  refine ⟨⟨_, List.getElem_mem (show 3 < _ by decide), fun hcovered => ?_⟩, by decide, by decide⟩
  have hle := hcovered "biz" "ops" "tax" 100000 Sample.bucket rfl (by decide) rfl
  revert hle
  decide

end AccountOS
