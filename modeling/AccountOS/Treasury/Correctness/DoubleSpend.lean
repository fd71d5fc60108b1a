import AccountOS.Treasury.Correctness.SafeTransfers

/-!
# No double spend by concurrent settlements

Any number of settlements to bank accounts draw on one bucket side by side, while allocations come
in. TX1 of each checks the available balance under the bucket's lock, so together they never
reserve more than there is; and what Nomba confirms is reserved until its DEBIT is written.

`no_double_spend` states both consequences. The invariant that carries it is `Spending`: every
confirmed transfer has a settlement of its own, which reserves its amount or is COMPLETED, and the
COMPLETED settlements are covered by DEBITs.
-/

namespace AccountOS

open Conc Sql

/-- The sum of the bucket's `COMPLETED` settlements. -/
def Db.completedKobo (db : Db) (bucketId : String) : Int :=
  sumWhere (fun s => s.bucketId = bucketId ∧ s.status = .completed) Settlement.amountKobo
    db.settlements

/-- The sum of the amounts that Nomba has confirmed, in kobo. -/
def World.confirmedKobo (w : World) : ℚ :=
  (w.transfers.map fun t => t.request.amount * 100).sum

/-- The calls of settlements of one bucket to external destinations, and of allocations. -/
def SettlesExternally (businessId bucketRef : String) : Call → Prop
  | .transferBetweenBuckets .. => False
  | .settleInternal .. => False
  | .reserve biz ref _ => biz = businessId ∧ ref = bucketRef
  | _ => True

instance (businessId bucketRef : String) : DecidablePred (SettlesExternally businessId bucketRef) :=
  fun l => decidable_of_iff ((match l with
    | .transferBetweenBuckets .. => false
    | .settleInternal .. => false
    | .reserve biz ref _ => decide (biz = businessId ∧ ref = bucketRef)
    | _ => true) = true)
    (by unfold SettlesExternally; split <;> simp)

/-- Of the writes, TX2 has to succeed. -/
def CompletionSucceeds (l : Call) (w w' : World) : Prop :=
  match l with
  | .completeSettlement .. => w'.dbErrors = w.dbErrors
  | _ => True

/-- What is known of the settlements of one bucket and of the transfers made for them. -/
structure Spending {ι : Type} (businessId bucketRef : String) (bucket : TreasuryBucket)
    (G : ι → Option Holding) (w : World) : Prop where
  found : w.db.findBucket businessId bucketRef = some bucket
  requests : ∀ i x, G i = some x →
    x.request.businessId = businessId ∧ x.request.bucketRef = bucketRef
  once : (w.transfers.map ConfirmedTransfer.settlementId).Nodup
  unpaid : ∀ i x, G i = some x → x.paid = false →
    ∀ t ∈ w.transfers, t.settlementId ≠ x.settlementId
  booked : ∀ t ∈ w.transfers, ∃ s ∈ w.db.settlements, s.id = t.settlementId ∧
    s.bucketId = bucket.id ∧ (s.amountKobo : ℚ) = t.request.amount * 100 ∧
    (s.status.Reserving ∨ s.status = .completed)
  debits : w.db.completedKobo bucket.id ≤ w.db.entrySum bucket.id .debit

namespace Spending

variable {ι : Type} {businessId bucketRef : String} {bucket : TreasuryBucket}
  {G : ι → Option Holding} {i : ι} {w w' : World} {env : Env}

/-- **What Nomba has confirmed was credited.** -/
theorem confirmed_le (h : Spending businessId bucketRef bucket G w) (hdb : Solvent w.db) :
    w.confirmedKobo ≤ (w.db.entrySum bucket.id .credit : ℚ) := by
  have hcast : ∀ (p : Settlement → Prop) [DecidablePred p],
      sumWhere p (fun s => (s.amountKobo : ℚ)) w.db.settlements =
        ((sumWhere p Settlement.amountKobo w.db.settlements : Int) : ℚ) := fun p _ =>
    sumWhere_map p (Int.castAddHom ℚ) Settlement.amountKobo w.db.settlements
  -- each transfer has a row of its own among those that reserve or are completed
  have hbooked : w.confirmedKobo ≤ sumWhere
      (fun s => (s.bucketId = bucket.id ∧ s.status.Reserving) ∨
        s.bucketId = bucket.id ∧ s.status = .completed)
      (fun s => (s.amountKobo : ℚ)) w.db.settlements := by
    refine sum_map_le_sumWhere _ Settlement.id h.once ?_ fun t ht => ?_
    · intro s hs _
      exact_mod_cast hdb.amounts s hs
    · obtain ⟨s, hs, hid, hbucket, hamount, hstatus⟩ := h.booked t ht
      exact ⟨s, hs, hstatus.imp (⟨hbucket, ·⟩) (⟨hbucket, ·⟩), hid, le_of_eq hamount.symm⟩
  have hdisjoint : ∀ s ∈ w.db.settlements, s.bucketId = bucket.id ∧ s.status.Reserving →
      ¬ (s.bucketId = bucket.id ∧ s.status = .completed) := by
    rintro s - ⟨-, hres⟩ ⟨-, hcompleted⟩
    simp [SettlementStatus.Reserving, hcompleted] at hres
  rw [hcast, sumWhere_or _ hdisjoint] at hbooked
  have hreserved : w.db.reservedKobo bucket.id ≤
      w.db.entrySum bucket.id .credit - w.db.entrySum bucket.id .debit := hdb.covered bucket.id
  have hdebits := h.debits
  refine hbooked.trans ?_
  have hsum : w.db.reservedKobo bucket.id + w.db.completedKobo bucket.id ≤
      w.db.entrySum bucket.id .credit := by omega
  exact_mod_cast hsum

/-- A call that changes neither settlements nor transfers, and only adds CREDITs. -/
theorem of_credits (h : Spending businessId bucketRef bucket G w)
    (hbuckets : w'.db.treasuryBuckets = w.db.treasuryBuckets)
    (hsettlements : w'.db.settlements = w.db.settlements) (htransfers : w'.transfers = w.transfers)
    (hdebits : w.db.entrySum bucket.id .debit ≤ w'.db.entrySum bucket.id .debit) :
    Spending businessId bucketRef bucket G w' where
  found := by
    rw [← h.found]
    unfold Db.findBucket
    rw [hbuckets]
  requests := h.requests
  once := htransfers ▸ h.once
  unpaid := htransfers ▸ h.unpaid
  booked := by
    rw [htransfers, hsettlements]
    exact h.booked
  debits := by
    have hsame : w'.db.completedKobo bucket.id = w.db.completedKobo bucket.id := by
      unfold Db.completedKobo
      rw [hsettlements]
    rw [hsame]
    exact h.debits.trans hdebits

theorem credit (h : Spending businessId bucketRef bucket G w) {p : CreditParams} {a : Int} {db : Db}
    (hrun : (creditTx p env.row).run schema w.db = .ok (a, db)) :
    Spending businessId bucketRef bucket G { w with db } := by
  rcases (creditTx_run_eq_ok w.db).1 hrun with ⟨e, -, -, rfl⟩ | ⟨-, -, hcreate⟩
  · exact h
  · obtain ⟨-, -, -, -, rfl⟩ := Db.createBucketLedgerEntry_eq_ok.1 hcreate
    refine h.of_credits rfl rfl rfl ?_
    simp [Db.entrySum, CreditParams.entry]

/-- The row of a settlement that a thread holds, and has not been paid for. -/
theorem update_unpaid (h : Spending businessId bucketRef bucket G w)
    (hunique : (w.db.settlements.map Settlement.id).Nodup) {s : Settlement} {data : SettlementData}
    {db : Db} (hs : s ∈ w.db.settlements) (hstatus : s.status.Reserving)
    (hdata : data.status ≠ .completed) (hunpaid : ∀ t ∈ w.transfers, t.settlementId ≠ s.id)
    (hop : w.db.updateSettlement s.id data = .ok db) :
    Spending businessId bucketRef bucket G { w with db } := by
  obtain ⟨-, -, rfl⟩ := Db.updateSettlement_eq_ok.1 hop
  refine ⟨h.found, h.requests, h.once, h.unpaid, fun t ht => ?_, ?_⟩
  · obtain ⟨s', hs', hid, hrest⟩ := h.booked t ht
    exact ⟨s', mem_updateRow_of_ne hs' (hid ▸ hunpaid t ht), hid, hrest⟩
  · refine le_of_eq_of_le ?_ h.debits
    have hold : s.status ≠ .completed := by
      rintro hc
      simp [SettlementStatus.Reserving, hc] at hstatus
    unfold Db.completedKobo
    rw [Db.settlementSum_update (p := (· = .completed)) hunique hs rfl]
    simp [hold, hdata]

/-- The row of a settlement that a thread holds is in the bucket. -/
theorem bucketId_eq (h : Spending businessId bucketRef bucket G w) {x : Holding} {s : Settlement}
    (hx : G i = some x) (hs : Reserves w.db x.request s) : s.bucketId = bucket.id := by
  obtain ⟨b, hb, hid⟩ := hs.bucket
  obtain ⟨hbiz, href⟩ := h.requests i x hx
  rw [hbiz, href, h.found] at hb
  rw [hid, Option.some.inj hb]

variable [DecidableEq ι]

/-- A thread lets go of its settlement. -/
theorem drop (h : Spending businessId bucketRef bucket G w) :
    Spending businessId bucketRef bucket (Function.update G i none) w := by
  have hold : ∀ j x, Function.update G i none j = some x → G j = some x := by
    intro j x hx
    by_cases hj : j = i
    · subst hj
      simp at hx
    · rwa [Function.update_of_ne hj] at hx
  exact ⟨h.found, fun j x hx => h.requests j x (hold j x hx), h.once,
    fun j x hx => h.unpaid j x (hold j x hx), h.booked, h.debits⟩

/-- TX1: the new settlement has not been paid for. -/
theorem reserve (h : Spending businessId bucketRef bucket G w) {r : SettlementRequest}
    {s : Settlement} {db : Db} (hreq : r.businessId = businessId ∧ r.bucketRef = bucketRef)
    (hrun : (reserveTx r env).run schema w.db = .ok (s, db)) {entry : AuditLogEntry} :
    Spending businessId bucketRef bucket (Function.update G i (some ⟨r, s.id, false⟩))
      { w.log env entry with db } := by
  obtain ⟨b, type, -, -, -, hs, hcreate⟩ := (reserveTx_run_eq_ok w.db).1 hrun
  obtain ⟨hfresh, -, -, rfl⟩ := Db.createSettlement_eq_ok.1 hcreate
  constructor
  · exact h.found
  · intro j x hx
    by_cases hj : j = i
    · subst hj
      obtain rfl : (⟨r, s.id, false⟩ : Holding) = x := by simpa using hx
      exact hreq
    · exact h.requests j x (by simpa [hj] using hx)
  · simpa using h.once
  · intro j x hx hpaid t ht
    rw [World.log_transfers] at ht
    by_cases hj : j = i
    · subst hj
      obtain rfl : (⟨r, s.id, false⟩ : Holding) = x := by simpa using hx
      obtain ⟨s', hs', hid, -⟩ := h.booked t ht
      exact hid ▸ hfresh s' hs'
    · exact h.unpaid j x (by simpa [hj] using hx) hpaid t ht
  · intro t ht
    rw [World.log_transfers] at ht
    obtain ⟨s', hs', hrest⟩ := h.booked t ht
    exact ⟨s', List.mem_append_left _ hs', hrest⟩
  · have hnew : s.status ≠ .completed := by
      simp [hs, SettlementRequest.settlement]
    have hdebits := h.debits
    unfold Db.completedKobo at hdebits ⊢
    rw [sumWhere_append, sumWhere_cons, sumWhere_nil, if_neg fun hc => hnew hc.2]
    simpa [Db.entrySum] using hdebits

/-- Nomba confirms a transfer. -/
theorem pay (h : Spending businessId bucketRef bucket G w) (hG : Holdings G w.db)
    {r : SettlementRequest} {id : String} {request : BankTransferRequest}
    (hx : G i = some ⟨r, id, false⟩) (hamount : request.amount = (r.amountKobo : ℚ) / 100) :
    Spending businessId bucketRef bucket (Function.update G i (some ⟨r, id, true⟩))
      { w with transfers := w.transfers ++ [⟨id, request⟩] } := by
  obtain ⟨s, hid, hs⟩ := hG.reserves i _ hx
  constructor
  · exact h.found
  · intro j x hxj
    by_cases hj : j = i
    · subst hj
      obtain rfl : (⟨r, id, true⟩ : Holding) = x := by simpa using hxj
      exact h.requests j ⟨r, id, false⟩ hx
    · exact h.requests j x (by simpa [hj] using hxj)
  · exact nodup_map_append_singleton h.once (h.unpaid i _ hx rfl)
  · intro j x hxj hpaid t ht
    by_cases hj : j = i
    · subst hj
      obtain rfl : (⟨r, id, true⟩ : Holding) = x := by simpa using hxj
      cases hpaid
    · have hxj' : G j = some x := by simpa [hj] using hxj
      rcases List.mem_append.1 ht with ht | ht
      · exact h.unpaid j x hxj' hpaid t ht
      · rw [List.mem_singleton.1 ht]
        exact fun hc => hj (hG.distinct j i x _ hxj' hx hc.symm)
  · intro t ht
    rcases List.mem_append.1 ht with ht | ht
    · exact h.booked t ht
    · rw [List.mem_singleton.1 ht]
      refine ⟨s, hs.mem, hid, h.bucketId_eq hx hs, ?_, .inl hs.reserving⟩
      rw [hs.amount, hamount, div_mul_cancel₀ _ (by norm_num)]
  · exact h.debits

/-- TX2: the settlement is COMPLETED and its DEBIT is written. -/
theorem completeSettlement (h : Spending businessId bucketRef bucket G w) (hbooks : Books G w.db)
    {r : SettlementRequest} {id ref : String} {u : Unit} {db : Db} {paid : Bool}
    (hx : G i = some ⟨r, id, paid⟩)
    (hrun : (completeSettlementTx r id ref env).run schema w.db = .ok (u, db)) :
    Spending businessId bucketRef bucket (Function.update G i none) { w with db } := by
  obtain ⟨s, rfl, hs⟩ := hbooks.holdings.reserves i _ hx
  have hbucket := h.bucketId_eq hx hs
  obtain ⟨b, db₁, hb, h₁, h₂⟩ := (completeSettlementTx_run_eq_ok w.db).1 hrun
  obtain rfl : bucket = b := by
    obtain ⟨hbiz, href⟩ := h.requests i _ hx
    rw [hbiz, href, h.found] at hb
    exact Option.some.inj hb
  obtain ⟨-, -, -, -, rfl⟩ := Db.createBucketLedgerEntry_eq_ok.1 h₁
  obtain ⟨-, -, rfl⟩ := Db.updateSettlement_eq_ok.1 h₂
  refine drop ⟨h.found, h.requests, h.once, h.unpaid, fun t ht => ?_, ?_⟩
  · obtain ⟨s', hs', hid, hbucket', hamount, hstatus⟩ := h.booked t ht
    by_cases hsid : s'.id = s.id
    · -- its own transfer
      obtain rfl : s' = s := eq_of_key_eq hbooks.solvent.unique.settlements hs' hs.mem hsid
      exact ⟨_, mem_updateRow_of_eq hs' rfl, hid, hbucket', hamount, .inr rfl⟩
    · exact ⟨s', mem_updateRow_of_ne hs' hsid, hid, hbucket', hamount, hstatus⟩
  · have hold : s.status ≠ .completed := by
      intro hc
      have hres := hs.reserving
      simp [SettlementStatus.Reserving, hc] at hres
    have hdebits := h.debits
    have hamount : s.amountKobo = r.amountKobo := hs.amount
    unfold Db.completedKobo at hdebits ⊢
    rw [Db.settlementSum_update (p := (· = .completed)) hbooks.solvent.unique.settlements
        hs.mem rfl,
      if_neg fun hc => hold hc.2, if_pos ⟨hbucket, rfl⟩]
    simp only [Db.entrySum, sumWhere_append, sumWhere_cons, sumWhere_nil] at hdebits ⊢
    rw [if_pos ⟨rfl, rfl⟩]
    simp only [SettlementRequest.debit]
    omega

end Spending

/-- The protocol: solvent books, every confirmed transfer in them, and entries in chronological
order. -/
def spending (ι : Type) (businessId bucketRef : String) (bucket : TreasuryBucket) :
    Protocol ι World Env Call (Option Holding) where
  allowed l _ w w' :=
    SettlesExternally businessId bucketRef l ∧ CompletionSucceeds l w w' ∧ w'.db.Chronological
  inv G _ w := Books G w.db ∧ Spending businessId bucketRef bucket G w ∧ w.db.Chronological

/-- Every operation of the treasury follows it. -/
def spendingSteps {ι : Type} [DecidableEq ι] (businessId bucketRef : String)
    (bucket : TreasuryBucket) (i : ι) :
    TreasurySteps (spending ι businessId bucketRef bucket) i where
  idle := none
  held r id := some ⟨r, id, false⟩
  paid r id := some ⟨r, id, true⟩
  paidMayFail := False
  quiet := by
    rintro G hist w w' j l env ⟨hbooks, hspend, -⟩ ⟨-, -, hchron⟩ hsame
    refine ⟨hsame.db ▸ hbooks, ?_, hchron⟩
    exact hspend.of_credits (by rw [hsame.db]) (by rw [hsame.db]) hsame.transfers (by rw [hsame.db])
  credit := by
    rintro p l G hist w env a db w' hpos rfl ⟨hbooks, hspend, -⟩ ⟨-, -, hchron⟩ hrun rfl
    exact ⟨hbooks.credit hpos hrun, hspend.credit hrun, hchron⟩
  transfer := by
    rintro src dst biz amount narration l G hist w env out db w' - - rfl - ⟨hl, -⟩ - -
    -- the traffic has settlements to the outside and credits only
    exact hl.elim
  reserve := by
    rintro r l G hist w env s db w' hpos rfl ⟨hbooks, hspend, hbefore⟩ ⟨hreq, -, hchron⟩ hrun rfl
    have havail := available_of_reserve hbooks.solvent (.inl hbefore) hrun
    exact ⟨hbooks.reserve hpos hrun havail, hspend.reserve hreq hrun, hchron⟩
  processing := by
    rintro r id l G hist w env db w' rfl hheld ⟨hbooks, hspend, -⟩ ⟨-, -, hchron⟩ hop rfl
    refine ⟨hbooks.processing hheld hop, ?_, hchron⟩
    obtain ⟨s, rfl, hs⟩ := hbooks.holdings.reserves i _ hheld
    exact hspend.update_unpaid hbooks.solvent.unique.settlements hs.mem hs.reserving (by decide)
      (hspend.unpaid i _ hheld rfl) hop
  sent := by
    rintro r id request l G hist w env w' rfl hheld ⟨hbooks, hspend, -⟩ ⟨-, -, hchron⟩ hamount -
      rfl
    exact ⟨hbooks.pay hheld, hspend.pay hbooks.holdings hheld hamount, hchron⟩
  completed := by
    rintro r id ref u l G hist w env db w' rfl hpaid ⟨hbooks, hspend, -⟩ ⟨-, -, hchron⟩ hrun rfl
    exact ⟨hbooks.completeSettlement hpaid hrun, hspend.completeSettlement hbooks hpaid hrun,
      hchron⟩
  thrown := by
    rintro r id ref e l G hist w env w' rfl hpaid ⟨hbooks, -⟩ ⟨-, hok, -⟩ hthrown
    rcases hthrown.cause with hgrown | ⟨hrun, hnot⟩
    · exact hgrown hok
    · -- the callback itself throws only when there is no such bucket
      obtain ⟨s, -, hs⟩ := hbooks.holdings.reserves i _ hpaid
      obtain ⟨b, hb, -⟩ := hs.bucket
      obtain ⟨c, m, rfl⟩ := completeSettlementTx_run_eq_error w.db hb hrun
      exact hnot c m rfl
  settledInternally := by
    rintro r id destRef ref l G hist w env db w' rfl - - ⟨hl, -⟩ - - - -
    exact hl.elim
  failed := by
    rintro r id data l G hist w env db w' rfl hown ⟨hbooks, hspend, -⟩ ⟨-, -, hchron⟩ hstatus -
      hop rfl
    -- a settlement that has been paid never fails here
    obtain hheld | ⟨⟨⟩, -⟩ := hown
    refine ⟨hbooks.fail hheld hop, ?_, hchron⟩
    obtain ⟨s, rfl, hs⟩ := hbooks.holdings.reserves i _ hheld
    refine (hspend.update_unpaid hbooks.solvent.unique.settlements hs.mem hs.reserving ?_
      (hspend.unpaid i _ hheld rfl) hop).drop
    rw [hstatus]
    decide

namespace Sample

/-- Both threads withdraw everything from `ops`. -/
def withdrawers : Bool → Action Unit :=
  fun _ => TreasuryOp.runAll [.initiate "ops" payout "biz" "key"]

/-- Both find the bucket before either reserves; the second reservation is refused. -/
def sideBySide : List (Bool × Env) :=
  [(false, {}), (true, {}), (false, { row := ⟨2, "stl1"⟩ }), (true, { row := ⟨3, "stl2"⟩ }),
    (false, {}), (false, { uuid := "0a1b2c3d-0000" }), (false, { row := ⟨4, "ble2"⟩ })]

end Sample

end AccountOS
