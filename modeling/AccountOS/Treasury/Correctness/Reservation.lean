import AccountOS.Treasury.Correctness.BalanceAgreement

/-!
# Reservations

What a settlement reserves between TX1 and its completion has to stay in the bucket. `Solvent` says
so of a database: every bucket's balance covers what is reserved in it. The first half of this file
says when each transaction keeps that; only two of them can break it, the ones that check an
available balance of their own.

A settlement under way is held by the thread that executes it. The second half keeps track of that:
`Holdings` ties what the threads hold to the rows of the database, so that the completion of a
settlement is known to release exactly what it takes.
-/

namespace AccountOS

open Conc Sql

variable {db db' : Db} {env : Env}

section Rows

variable {row : Generated} {x : Int}

@[simp] theorem CreditParams.entry_bucketId {p : CreditParams} :
    (p.entry row x).bucketId = p.bucketId := rfl

@[simp] theorem CreditParams.entry_signed {p : CreditParams} :
    (p.entry row x).signed = p.amountKobo := rfl

variable {r : SettlementRequest} {bucketId ref : String}

@[simp] theorem SettlementRequest.debit_bucketId :
    (r.debit bucketId ref row x).bucketId = bucketId := rfl

@[simp] theorem SettlementRequest.debit_signed :
    (r.debit bucketId ref row x).signed = -r.amountKobo := rfl

variable {type : SettlementDestinationType}

@[simp] theorem SettlementRequest.settlement_bucketId :
    (r.settlement bucketId type row).bucketId = bucketId := rfl

@[simp] theorem SettlementRequest.settlement_amountKobo :
    (r.settlement bucketId type row).amountKobo = r.amountKobo := rfl

end Rows

/-! ### Solvent databases -/

/-- Every bucket has what is reserved in it. -/
structure Solvent (db : Db) : Prop where
  unique : db.UniqueColumns
  amounts : ∀ s ∈ db.settlements, 0 ≤ s.amountKobo
  covered : ∀ bucketId, db.reservedKobo bucketId ≤ db.balance bucketId
  figures : FiguresRight db

namespace Solvent

theorem reservedKobo_nonneg (h : Solvent db) (bucketId : String) : 0 ≤ db.reservedKobo bucketId :=
  sumWhere_nonneg _ fun s hs _ => h.amounts s hs

theorem balance_nonneg (h : Solvent db) (bucketId : String) : 0 ≤ db.balance bucketId :=
  (h.reservedKobo_nonneg bucketId).trans (h.covered bucketId)

theorem latestBalance_eq (h : Solvent db) (hc : db.Chronological) (bucketId : String) :
    db.latestBalance bucketId = db.balance bucketId :=
  (Db.agreed_iff hc).1 (h.figures hc) bucketId

theorem credit (h : Solvent db) {p : CreditParams} (hpos : 0 < p.amountKobo) {a : Int}
    (hrun : (creditTx p env.row).run schema db = .ok (a, db')) : Solvent db' := by
  have hunique := h.unique.run hrun
  have hfigures := h.figures.of_run hrun fun _ hagreed => hagreed.credit hrun
  rcases (creditTx_run_eq_ok db).1 hrun with ⟨e, -, -, rfl⟩ | ⟨-, -, hcreate⟩
  · exact h
  · obtain ⟨-, -, -, -, hdb⟩ := Db.createBucketLedgerEntry_eq_ok.1 hcreate
    have hentries : db'.bucketLedgerEntries =
      db.bucketLedgerEntries ++ [p.entry env.row (db.balance p.bucketId)] := by rw [hdb]
    have hsettlements : db'.settlements = db.settlements := by rw [hdb]
    refine ⟨hunique, by simpa [hsettlements] using h.amounts, fun bucketId => ?_, hfigures⟩
    have hcov := h.covered bucketId
    rw [Db.balance_append hentries, Db.reservedKobo_congr hsettlements, CreditParams.entry_bucketId,
      CreditParams.entry_signed]
    split <;> omega

/-- **A transfer of no more than what is not reserved.** -/
theorem transfer (h : Solvent db) {src dst biz : String} {amount : Int} {narration : Option String}
    {out : TransferOutcome} (hpos : 0 < amount) (hne : src ≠ dst)
    (hrun : (transferTx src dst biz amount narration env).run schema db = .ok (out, db'))
    (havail : ∀ b, db.findBucket biz src = some b →
      amount ≤ db.balance b.id - db.reservedKobo b.id) : Solvent db' := by
  have hunique := h.unique.run hrun
  have hfigures := h.figures.of_run hrun fun _ hagreed => hagreed.transfer h.unique hne hrun
  obtain ⟨s, d, db₁, hs, hd, -, -, -, h₁, h₂, -⟩ := (transferTx_run_eq_ok db).1 hrun
  obtain ⟨-, -, -, -, hdb₁⟩ := Db.createBucketLedgerEntry_eq_ok.1 h₁
  obtain ⟨-, -, -, -, hdb⟩ := Db.createBucketLedgerEntry_eq_ok.1 h₂
  have hsettlements : db'.settlements = db.settlements := by rw [hdb, hdb₁]
  refine ⟨hunique, by simpa [hsettlements] using h.amounts, fun bucketId => ?_, hfigures⟩
  have hcov := h.covered bucketId
  have hsrc := havail s hs
  rw [balance_move (congrArg Db.bucketLedgerEntries hdb₁) (congrArg Db.bucketLedgerEntries hdb),
    Db.reservedKobo_congr hsettlements]
  dsimp only
  by_cases hid : s.id = bucketId
  · subst hid
    rw [if_pos rfl]
    split <;> omega
  · rw [if_neg hid]
    split <;> omega

/-- **A reservation of no more than what is not reserved yet.** -/
theorem reserve (h : Solvent db) {r : SettlementRequest} {s : Settlement} (hpos : 0 < r.amountKobo)
    (hrun : (reserveTx r env).run schema db = .ok (s, db'))
    (havail : ∀ b, db.findBucket r.businessId r.bucketRef = some b →
      r.amountKobo ≤ db.balance b.id - db.reservedKobo b.id) : Solvent db' := by
  have hunique := h.unique.run hrun
  obtain ⟨b, type, hb, -, -, hs, hcreate⟩ := (reserveTx_run_eq_ok db).1 hrun
  obtain ⟨-, -, -, hdb⟩ := Db.createSettlement_eq_ok.1 hcreate
  have hsettlements : db'.settlements = db.settlements ++ [s] := by rw [hdb]
  have hentries : db'.bucketLedgerEntries = db.bucketLedgerEntries := by rw [hdb]
  refine ⟨hunique, ?_, fun bucketId => ?_, h.figures.congr hentries⟩
  · intro x hx
    rw [hsettlements, List.mem_append, List.mem_singleton] at hx
    rcases hx with hx | rfl
    · exact h.amounts x hx
    · rw [hs]
      exact hpos.le
  · have hcov := h.covered bucketId
    have hsrc := havail b hb
    rw [Db.balance_congr hentries, Db.reservedKobo_append hsettlements, hs,
      SettlementRequest.settlement_bucketId, SettlementRequest.settlement_amountKobo]
    split
    next hb' =>
      rw [← hb'.1] at hcov ⊢
      omega
    next => omega

/-- Updating a settlement's status does not change its amount. -/
theorem amounts_update (h : Solvent db) {id : String} {data : SettlementData}
    (hsettlements : db'.settlements = updateRow Settlement.id id data.set db.settlements) :
    ∀ s ∈ db'.settlements, 0 ≤ s.amountKobo := by
  intro x hx
  rw [hsettlements] at hx
  obtain ⟨y, hy, rfl⟩ := mem_updateRow.1 hx
  split <;> exact h.amounts y hy

/-- The update of a settlement that does not make it reserve anything new. -/
theorem updateSettlement (h : Solvent db) {s : Settlement} {data : SettlementData}
    (hs : s ∈ db.settlements) (hstatus : data.status.Reserving → s.status.Reserving)
    (hop : db.updateSettlement s.id data = .ok db') : Solvent db' := by
  have hunique := h.unique.apply (show (WriteOp.updateSettlement s.id data).apply db = _ from hop)
  obtain ⟨-, -, hdb⟩ := Db.updateSettlement_eq_ok.1 hop
  have hsettlements := congrArg Db.settlements hdb
  have hentries : db'.bucketLedgerEntries = db.bucketLedgerEntries := by rw [hdb]
  refine ⟨hunique, h.amounts_update hsettlements, fun bucketId => ?_, h.figures.congr hentries⟩
  have hcov := h.covered bucketId
  have hamount := h.amounts s hs
  rw [Db.balance_congr hentries, Db.reservedKobo_update h.unique.settlements hs hsettlements]
  by_cases hres : data.status.Reserving
  · simpa [hres, hstatus hres] using hcov
  · simp only [hres, and_false, if_false, add_zero]
    split <;> omega

end Solvent

/-! ### The reservation of a settlement under way -/

/-- The row of a settlement under way: it reserves the amount of its request in the bucket of its
request. -/
structure Reserves (db : Db) (r : SettlementRequest) (s : Settlement) : Prop where
  mem : s ∈ db.settlements
  reserving : s.status.Reserving
  amount : s.amountKobo = r.amountKobo
  bucket : ∃ b, db.findBucket r.businessId r.bucketRef = some b ∧ s.bucketId = b.id

/-- A completed settlement reserves nothing. -/
theorem not_reserving_completedData {ref : String} {now : Nat} :
    ¬ (completedData ref now).status.Reserving := by
  simp [completedData, SettlementStatus.Reserving]

namespace Solvent

variable {r : SettlementRequest} {s : Settlement} {ref : String}

/-- **The completion takes out of the bucket what it stops reserving.** -/
theorem completeSettlement (h : Solvent db) (hs : Reserves db r s) {u : Unit}
    (hrun : (completeSettlementTx r s.id ref env).run schema db = .ok (u, db')) : Solvent db' := by
  have hunique := h.unique.run hrun
  have hfigures := h.figures.of_run hrun fun hc hagreed => hagreed.completeSettlement hc hrun
  obtain ⟨b, db₁, hb, h₁, h₂⟩ := (completeSettlementTx_run_eq_ok db).1 hrun
  obtain ⟨b', hb', hbucket⟩ := hs.bucket
  obtain rfl : b = b' := by simpa [hb] using hb'
  obtain ⟨-, -, -, -, hdb₁⟩ := Db.createBucketLedgerEntry_eq_ok.1 h₁
  obtain ⟨-, -, hdb⟩ := Db.updateSettlement_eq_ok.1 h₂
  have hentries : db'.bucketLedgerEntries =
    db.bucketLedgerEntries ++ [r.debit b.id ref env.row (db.latestBalance b.id)] := by
      rw [hdb, hdb₁]
  have hsettlements : db'.settlements =
    updateRow Settlement.id s.id (completedData ref env.now).set db.settlements := by rw [hdb, hdb₁]
  refine ⟨hunique, h.amounts_update hsettlements, fun bucketId => ?_, hfigures⟩
  have hcov := h.covered bucketId
  rw [Db.balance_append hentries, Db.reservedKobo_release h.unique.settlements hs.mem hs.reserving
    not_reserving_completedData hsettlements, hbucket, hs.amount, SettlementRequest.debit_bucketId,
    SettlementRequest.debit_signed]
  split <;> omega

/-- **An internal settlement likewise**, and the destination gains. -/
theorem settleInternal (h : Solvent db) (hs : Reserves db r s) {destRef : String}
    (hne : r.bucketRef ≠ destRef)
    (hrun : (settleInternalTx r s.id destRef env).run schema db = .ok (ref, db')) :
    Solvent db' := by
  have hunique := h.unique.run hrun
  have hfigures := h.figures.of_run hrun fun _ hagreed => hagreed.settleInternal h.unique hne hrun
  obtain ⟨b, d, db₁, db₂, hb, hd, h₁, h₂, h₃, -⟩ := (settleInternalTx_run_eq_ok db).1 hrun
  obtain ⟨b', hb', hbucket⟩ := hs.bucket
  obtain rfl : b = b' := by simpa [hb] using hb'
  obtain ⟨-, -, -, -, hdb₁⟩ := Db.createBucketLedgerEntry_eq_ok.1 h₁
  obtain ⟨-, -, -, -, hdb₂⟩ := Db.createBucketLedgerEntry_eq_ok.1 h₂
  obtain ⟨-, -, hdb⟩ := Db.updateSettlement_eq_ok.1 h₃
  have hsettlements : db'.settlements = updateRow Settlement.id s.id
    (completedData (r.move b.id d.id env.uuid).ref env.now).set db.settlements := by
      rw [hdb, hdb₂, hdb₁]
  have hentries : db'.bucketLedgerEntries = db₂.bucketLedgerEntries := by rw [hdb]
  have hamount : 0 ≤ r.amountKobo := hs.amount ▸ h.amounts s hs.mem
  refine ⟨hunique, h.amounts_update hsettlements, fun bucketId => ?_, hfigures⟩
  have hcov := h.covered bucketId
  rw [Db.balance_congr hentries, balance_move (congrArg Db.bucketLedgerEntries hdb₁)
    (congrArg Db.bucketLedgerEntries hdb₂), Db.reservedKobo_release h.unique.settlements hs.mem
    hs.reserving not_reserving_completedData hsettlements, hbucket, hs.amount]
  show _ ≤ db.balance bucketId - (if b.id = bucketId then r.amountKobo else 0) +
    if d.id = bucketId then r.amountKobo else 0
  split <;> split <;> omega

end Solvent

/-! ### What the threads hold -/

/-- A settlement in the middle of its steps: what was asked for, its row, and whether Nomba has
confirmed the transfer. -/
structure Holding where
  request : SettlementRequest
  settlementId : String
  paid : Bool

/-- Each thread is in the middle of at most one settlement, whose row reserves its amount, and no
two threads are in the middle of the same one. -/
structure Holdings {ι : Type} (G : ι → Option Holding) (db : Db) : Prop where
  reserves : ∀ i x, G i = some x → ∃ s, s.id = x.settlementId ∧ Reserves db x.request s
  distinct : ∀ i j x y, G i = some x → G j = some y → x.settlementId = y.settlementId → i = j

theorem Reserves.of_mem {r : SettlementRequest} {s s' : Settlement} (h : Reserves db r s)
    (hbuckets : db'.treasuryBuckets = db.treasuryBuckets) (hs : s' ∈ db'.settlements)
    (hreserving : s'.status.Reserving) (hamount : s'.amountKobo = s.amountKobo)
    (hbucket : s'.bucketId = s.bucketId) : Reserves db' r s' := by
  obtain ⟨b, hb, hid⟩ := h.bucket
  refine ⟨hs, hreserving, hamount.trans h.amount, b, ?_, hbucket.trans hid⟩
  rw [← hb]
  unfold Db.findBucket
  rw [hbuckets]

namespace Holdings

variable {ι : Type} {G : ι → Option Holding} {i : ι} {x : Holding}

theorem congr (h : Holdings G db) (hbuckets : db'.treasuryBuckets = db.treasuryBuckets)
    (hsettlements : db'.settlements = db.settlements) : Holdings G db' := by
  refine ⟨fun j y hy => ?_, h.distinct⟩
  obtain ⟨s, hid, hs⟩ := h.reserves j y hy
  exact ⟨s, hid, hs.of_mem hbuckets (hsettlements ▸ hs.mem) hs.reserving rfl rfl⟩

/-- The row of a settlement that a thread holds is updated: the other threads keep theirs. -/
theorem others (h : Holdings G db) (hx : G i = some x) {data : SettlementData}
    (hbuckets : db'.treasuryBuckets = db.treasuryBuckets)
    (hsettlements : db'.settlements =
      updateRow Settlement.id x.settlementId data.set db.settlements) :
    ∀ j y, j ≠ i → G j = some y → ∃ s, s.id = y.settlementId ∧ Reserves db' y.request s := by
  intro j y hj hy
  obtain ⟨s, hid, hs⟩ := h.reserves j y hy
  have hne : s.id ≠ x.settlementId := fun hc => hj (h.distinct j i y x hy hx (hid.symm.trans hc))
  have hmem : s ∈ db'.settlements := by
    rw [hsettlements]
    exact mem_updateRow_of_ne hs.mem hne
  exact ⟨s, hid, hs.of_mem hbuckets hmem hs.reserving rfl rfl⟩

/-- The row of a settlement under way changes, but still reserves. -/
theorem keep (h : Holdings G db) (hx : G i = some x) {data : SettlementData}
    (hdata : data.status.Reserving) (hbuckets : db'.treasuryBuckets = db.treasuryBuckets)
    (hsettlements : db'.settlements =
      updateRow Settlement.id x.settlementId data.set db.settlements) : Holdings G db' := by
  refine ⟨fun j y hy => ?_, h.distinct⟩
  by_cases hj : j = i
  · subst hj
    obtain rfl : x = y := by simpa [hx] using hy
    obtain ⟨s, hid, hs⟩ := h.reserves j x hx
    have hmem : data.set s ∈ db'.settlements := by
      rw [hsettlements]
      exact mem_updateRow_of_eq hs.mem hid
    exact ⟨data.set s, hid, hs.of_mem hbuckets hmem hdata rfl rfl⟩
  · exact h.others hx hbuckets hsettlements j y hj hy

variable [DecidableEq ι]

/-- A thread that changes what it holds, but not to what another thread holds. -/
theorem update (h : Holdings G db) {y : Option Holding}
    (hy : ∀ z ∈ y, (∃ s, s.id = z.settlementId ∧ Reserves db z.request s) ∧
      ∀ j x, j ≠ i → G j = some x → x.settlementId ≠ z.settlementId) :
    Holdings (Function.update G i y) db := by
  refine ⟨fun j z hz => ?_, fun j k z z' hz hz' hid => ?_⟩
  · by_cases hj : j = i
    · subst hj
      rw [Function.update_self] at hz
      exact (hy z hz).1
    · rw [Function.update_of_ne hj] at hz
      exact h.reserves j z hz
  · by_cases hj : j = i <;> by_cases hk : k = i
    · rw [hj, hk]
    · subst hj
      rw [Function.update_self] at hz
      rw [Function.update_of_ne hk] at hz'
      exact absurd hid.symm ((hy z hz).2 k z' hk hz')
    · subst hk
      rw [Function.update_self] at hz'
      rw [Function.update_of_ne hj] at hz
      exact absurd hid ((hy z' hz').2 j z hj hz)
    · rw [Function.update_of_ne hj] at hz
      rw [Function.update_of_ne hk] at hz'
      exact h.distinct j k z z' hz hz' hid

/-- A thread lets go of its settlement. -/
theorem drop (h : Holdings G db) : Holdings (Function.update G i none) db :=
  h.update fun z hz => by simp at hz

/-- Nomba confirms the transfer of the settlement a thread holds. -/
theorem pay (h : Holdings G db) (hx : G i = some x) :
    Holdings (Function.update G i (some { x with paid := true })) db := by
  refine h.update fun z hz => ?_
  obtain rfl : { x with paid := true } = z := by simpa using hz
  refine ⟨h.reserves i x hx, fun j y hj hy hid => hj ?_⟩
  exact h.distinct j i y x hy hx hid

/-- A thread reserves: the row it creates is nobody else's. -/
theorem reserve (h : Holdings G db) {r : SettlementRequest} {s : Settlement}
    (hrun : (reserveTx r env).run schema db = .ok (s, db')) :
    Holdings (Function.update G i (some ⟨r, s.id, false⟩)) db' := by
  obtain ⟨b, type, hb, -, -, hs, hcreate⟩ := (reserveTx_run_eq_ok db).1 hrun
  obtain ⟨hfresh, -, -, hdb⟩ := Db.createSettlement_eq_ok.1 hcreate
  have hbuckets : db'.treasuryBuckets = db.treasuryBuckets := by rw [hdb]
  have hsettlements : db'.settlements = db.settlements ++ [s] := by rw [hdb]
  have hold : Holdings G db' := by
    refine ⟨fun j y hy => ?_, h.distinct⟩
    obtain ⟨s', hid, hs'⟩ := h.reserves j y hy
    have hmem : s' ∈ db'.settlements := by
      rw [hsettlements]
      exact List.mem_append_left _ hs'.mem
    exact ⟨s', hid, hs'.of_mem hbuckets hmem hs'.reserving rfl rfl⟩
  refine hold.update fun z hz => ?_
  obtain rfl : (⟨r, s.id, false⟩ : Holding) = z := by simpa using hz
  refine ⟨⟨s, rfl, ?_, ?_, ?_, b, ?_, ?_⟩, fun j y _ hy hid => ?_⟩
  · simp [hsettlements]
  · rw [hs]
    exact .inl rfl
  · rw [hs, SettlementRequest.settlement_amountKobo]
  · rw [← hb]
    unfold Db.findBucket
    rw [hbuckets]
  · rw [hs, SettlementRequest.settlement_bucketId]
  · obtain ⟨s', hid', hs'⟩ := h.reserves j y hy
    exact hfresh s' hs'.mem (hid'.trans hid)

/-- A thread is done with its settlement. -/
theorem release (h : Holdings G db) (hx : G i = some x) {data : SettlementData}
    (hbuckets : db'.treasuryBuckets = db.treasuryBuckets)
    (hsettlements : db'.settlements =
      updateRow Settlement.id x.settlementId data.set db.settlements) :
    Holdings (Function.update G i none) db' := by
  have hothers := h.others hx hbuckets hsettlements
  have hdropped := h.drop (i := i)
  refine ⟨fun j y hy => ?_, hdropped.distinct⟩
  have hj : j ≠ i := by
    rintro rfl
    simp at hy
  rw [Function.update_of_ne hj] at hy
  exact hothers j y hj hy

end Holdings

/-! ### Both together -/

/-- The database is solvent, and what the threads hold is reserved in it. -/
structure Books {ι : Type} (G : ι → Option Holding) (db : Db) : Prop where
  solvent : Solvent db
  holdings : Holdings G db

namespace Books

variable {ι : Type} {G : ι → Option Holding} {i : ι} {r : SettlementRequest} {id : String}
  {paid : Bool}

theorem credit (h : Books G db) {p : CreditParams} {a : Int} (hpos : 0 < p.amountKobo)
    (hrun : (creditTx p env.row).run schema db = .ok (a, db')) : Books G db' := by
  refine ⟨h.solvent.credit hpos hrun, ?_⟩
  rcases (creditTx_run_eq_ok db).1 hrun with ⟨e, -, -, rfl⟩ | ⟨-, -, hcreate⟩
  · exact h.holdings
  · obtain ⟨-, -, -, -, rfl⟩ := Db.createBucketLedgerEntry_eq_ok.1 hcreate
    exact h.holdings.congr rfl rfl

theorem transfer (h : Books G db) {src dst biz : String} {amount : Int} {narration : Option String}
    {out : TransferOutcome} (hpos : 0 < amount) (hne : src ≠ dst)
    (hrun : (transferTx src dst biz amount narration env).run schema db = .ok (out, db'))
    (havail : ∀ b, db.findBucket biz src = some b →
      amount ≤ db.balance b.id - db.reservedKobo b.id) : Books G db' := by
  refine ⟨h.solvent.transfer hpos hne hrun havail, ?_⟩
  obtain ⟨s, d, db₁, -, -, -, -, -, h₁, h₂, -⟩ := (transferTx_run_eq_ok db).1 hrun
  obtain ⟨-, -, -, -, rfl⟩ := Db.createBucketLedgerEntry_eq_ok.1 h₁
  obtain ⟨-, -, -, -, rfl⟩ := Db.createBucketLedgerEntry_eq_ok.1 h₂
  exact h.holdings.congr rfl rfl

theorem processing (h : Books G db) (hx : G i = some ⟨r, id, paid⟩)
    (hop : db.updateSettlement id { status := .processing } = .ok db') : Books G db' := by
  obtain ⟨s, rfl, hs⟩ := h.holdings.reserves i _ hx
  refine ⟨h.solvent.updateSettlement hs.mem (fun _ => hs.reserving) hop, ?_⟩
  obtain ⟨-, -, rfl⟩ := Db.updateSettlement_eq_ok.1 hop
  exact h.holdings.keep hx (.inr rfl) rfl rfl

variable [DecidableEq ι]

theorem reserve (h : Books G db) {s : Settlement} (hpos : 0 < r.amountKobo)
    (hrun : (reserveTx r env).run schema db = .ok (s, db'))
    (havail : ∀ b, db.findBucket r.businessId r.bucketRef = some b →
      r.amountKobo ≤ db.balance b.id - db.reservedKobo b.id) :
    Books (Function.update G i (some ⟨r, s.id, false⟩)) db' :=
  ⟨h.solvent.reserve hpos hrun havail, h.holdings.reserve hrun⟩

theorem pay (h : Books G db) (hx : G i = some ⟨r, id, false⟩) :
    Books (Function.update G i (some ⟨r, id, true⟩)) db :=
  ⟨h.solvent, h.holdings.pay hx⟩

theorem completeSettlement (h : Books G db) (hx : G i = some ⟨r, id, paid⟩) {ref : String}
    {u : Unit}
    (hrun : (completeSettlementTx r id ref env).run schema db = .ok (u, db')) :
    Books (Function.update G i none) db' := by
  obtain ⟨s, rfl, hs⟩ := h.holdings.reserves i _ hx
  refine ⟨h.solvent.completeSettlement hs hrun, ?_⟩
  obtain ⟨b, db₁, -, h₁, h₂⟩ := (completeSettlementTx_run_eq_ok db).1 hrun
  obtain ⟨-, -, -, -, rfl⟩ := Db.createBucketLedgerEntry_eq_ok.1 h₁
  obtain ⟨-, -, rfl⟩ := Db.updateSettlement_eq_ok.1 h₂
  exact h.holdings.release hx rfl rfl

theorem settleInternal (h : Books G db) (hx : G i = some ⟨r, id, paid⟩) {destRef ref : String}
    (hne : r.bucketRef ≠ destRef)
    (hrun : (settleInternalTx r id destRef env).run schema db = .ok (ref, db')) :
    Books (Function.update G i none) db' := by
  obtain ⟨s, rfl, hs⟩ := h.holdings.reserves i _ hx
  refine ⟨h.solvent.settleInternal hs hne hrun, ?_⟩
  obtain ⟨b, d, db₁, db₂, -, -, h₁, h₂, h₃, -⟩ := (settleInternalTx_run_eq_ok db).1 hrun
  obtain ⟨-, -, -, -, rfl⟩ := Db.createBucketLedgerEntry_eq_ok.1 h₁
  obtain ⟨-, -, -, -, rfl⟩ := Db.createBucketLedgerEntry_eq_ok.1 h₂
  obtain ⟨-, -, rfl⟩ := Db.updateSettlement_eq_ok.1 h₃
  exact h.holdings.release hx rfl rfl

/-- A settlement fails, before or after Nomba has confirmed its transfer. -/
theorem fail (h : Books G db) (hx : G i = some ⟨r, id, paid⟩) {data : SettlementData}
    (hop : db.updateSettlement id data = .ok db') : Books (Function.update G i none) db' := by
  obtain ⟨s, rfl, hs⟩ := h.holdings.reserves i _ hx
  refine ⟨h.solvent.updateSettlement hs.mem (fun _ => hs.reserving) hop, ?_⟩
  obtain ⟨-, -, rfl⟩ := Db.updateSettlement_eq_ok.1 hop
  exact h.holdings.release hx rfl rfl

end Books

end AccountOS
