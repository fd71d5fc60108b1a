import AccountOS.Treasury.Correctness.Reservation

/-!
# What a call does to the books

The books are the buckets' entries and the settlements. Seen from there, the services of the
treasury are a small transition system: `Posting` lists its steps, each with the entries it posts
and the settlement it is about. `postings_of_run` says that this is all that happens: in every run
of the services each call is such a step. What holds of every step, in any order, then holds of
every run of the services, without another look at their code.
-/

namespace AccountOS

open Conc Sql

/-! ### The steps of the books -/

/-- The call posts the entries `es`, and leaves the buckets as they are. -/
structure Posts (db db' : Db) (es : List BucketLedgerEntry) : Prop where
  entries : db'.bucketLedgerEntries = db.bucketLedgerEntries ++ es
  buckets : db'.treasuryBuckets = db.treasuryBuckets

/-- Nothing is posted. -/
theorem Posts.nothing {db db' : Db} (hentries : db'.bucketLedgerEntries = db.bucketLedgerEntries)
    (hbuckets : db'.treasuryBuckets = db.treasuryBuckets) : Posts db db' [] :=
  ⟨by rw [hentries, List.append_nil], hbuckets⟩

/-- The settlement is given new data, and the other settlements are left as they are. -/
def Updates (db db' : Db) (s : Settlement) (data : SettlementData) : Prop :=
  db'.settlements = updateRow Settlement.id s.id data.set db.settlements

/-- A settlement that is under way: it is neither completed nor failed. -/
structure UnderWay (db : Db) (s : Settlement) : Prop where
  mem : s ∈ db.settlements
  reserving : s.status.Reserving

/-- One step of the books, for the call that makes it. -/
inductive Posting (db db' : Db) : Call → Prop
  /-- Nothing happens, as when a transaction is rolled back. -/
  | quiet {l : Call} (posts : Posts db db' []) (settlements : db'.settlements = db.settlements) :
    Posting db db' l
  /-- Money from outside comes into a bucket. -/
  | credited {e : BucketLedgerEntry} (credit : e.entryType = .credit) (posts : Posts db db' [e])
    (settlements : db'.settlements = db.settlements) :
    Posting db db' (.credit e.bucketId e.reference e.amountKobo)
  /-- Money goes from one bucket of a business to another one. -/
  | moved {m : Move} {businessId sourceRef destRef : String} {source dest : TreasuryBucket}
    {row row₂ : Generated} {x y : Int}
    (sourceFound : db.findBucket businessId sourceRef = some source)
    (destFound : db.findBucket businessId destRef = some dest) (sourceId : m.sourceId = source.id)
    (destId : m.destinationId = dest.id) (posts : Posts db db' [m.debit row x, m.credit row₂ y])
    (settlements : db'.settlements = db.settlements) :
    Posting db db' (.transferBetweenBuckets businessId sourceRef destRef m.amountKobo)
  /-- A settlement begins. -/
  | reserved {s : Settlement} {bucketRef : String} (fresh : ∀ x ∈ db.settlements, x.id ≠ s.id)
    (status : s.status = .pending) (reference : s.nombaTransferReference = none)
    (posts : Posts db db' []) (settlements : db'.settlements = db.settlements ++ [s]) :
    Posting db db' (.reserve s.businessId bucketRef s.amountKobo)
  /-- A settlement goes on, or fails. -/
  | marked {s : Settlement} {data : SettlementData} (underWay : UnderWay db s)
    (status : data.status ≠ .completed) (reference : data.nombaTransferReference = none)
    (posts : Posts db db' []) (updates : Updates db db' s data) :
    Posting db db' (.updateSettlement s.id data.status)
  /-- The money of a settlement leaves the business, and the settlement completes. -/
  | paidOut {s : Settlement} {bucket : TreasuryBucket} {e : BucketLedgerEntry}
    {bucketRef reference : String} {now : Nat} (underWay : UnderWay db s)
    (external : s.destinationType ≠ .internalBucket)
    (found : db.findBucket s.businessId bucketRef = some bucket) (bucketId : s.bucketId = bucket.id)
    (entryBucket : e.bucketId = s.bucketId) (debit : e.entryType = .debit)
    (amount : e.amountKobo = s.amountKobo) (entryReference : e.reference = s!"stl_{reference}")
    (posts : Posts db db' [e]) (updates : Updates db db' s (completedData reference now)) :
    Posting db db' (.completeSettlement s.businessId bucketRef s.id s.amountKobo)
  /-- The money of a settlement goes to another bucket, and the settlement completes. -/
  | movedOut {s : Settlement} {source dest : TreasuryBucket} {m : Move} {row row₂ : Generated}
    {x y : Int} {sourceRef destRef : String} {now : Nat} (underWay : UnderWay db s)
    (internal : s.destinationType = .internalBucket)
    (sourceFound : db.findBucket s.businessId sourceRef = some source)
    (bucketId : s.bucketId = source.id) (ref : s.destinationBucketRef = some destRef)
    (destFound : db.findBucket s.businessId destRef = some dest) (sourceId : m.sourceId = source.id)
    (destId : m.destinationId = dest.id) (amount : m.amountKobo = s.amountKobo)
    (posts : Posts db db' [m.debit row x, m.credit row₂ y])
    (updates : Updates db db' s (completedData m.ref now)) :
    Posting db db' (.settleInternal s.businessId sourceRef destRef s.id s.amountKobo)

/-! ### Requests and their settlements -/

/-- The settlement is the one the request asked for. -/
structure AskedFor (r : SettlementRequest) (s : Settlement) : Prop where
  businessId : s.businessId = r.businessId
  type : parseDestinationType r.dest.type = some s.destinationType
  destinationBucketRef : s.destinationBucketRef = r.dest.bucketRef

theorem AskedFor.internal {r : SettlementRequest} {s : Settlement} (h : AskedFor r s)
    (htype : r.dest.type = "INTERNAL_BUCKET") : s.destinationType = .internalBucket := by
  have hparse := h.type
  rw [htype, show parseDestinationType "INTERNAL_BUCKET" = some .internalBucket from rfl] at hparse
  exact (Option.some.inj hparse).symm

theorem AskedFor.external {r : SettlementRequest} {s : Settlement} (h : AskedFor r s)
    (htype : r.dest.type ≠ "INTERNAL_BUCKET") : s.destinationType ≠ .internalBucket := by
  intro hinternal
  have hparse := h.type
  rw [hinternal] at hparse
  unfold parseDestinationType at hparse
  split_ifs at hparse <;> simp_all

variable {ι : Type} {G : ι → Option Holding} {db db' : Db} {env : Env} {i : ι}

/-- What the threads hold was asked for, and only what goes to Nomba is ever paid. -/
structure Ongoing (G : ι → Option Holding) (db : Db) : Prop where
  unique : db.UniqueColumns
  holdings : Holdings G db
  askedFor : ∀ i x, G i = some x → ∀ s ∈ db.settlements, s.id = x.settlementId →
    AskedFor x.request s
  external : ∀ i x, G i = some x → x.paid = true → x.request.dest.type ≠ "INTERNAL_BUCKET"

namespace Ongoing

variable {r : SettlementRequest} {id : String} {paid : Bool}

theorem congr (h : Ongoing G db) (hunique : db'.UniqueColumns)
    (hbuckets : db'.treasuryBuckets = db.treasuryBuckets)
    (hsettlements : db'.settlements = db.settlements) : Ongoing G db' := by
  refine ⟨hunique, h.holdings.congr hbuckets hsettlements, ?_, h.external⟩
  rw [hsettlements]
  exact h.askedFor

/-- The row of the settlement that a thread holds, with what is known of it. -/
theorem row (h : Ongoing G db) (hx : G i = some ⟨r, id, paid⟩) :
    ∃ s, s.id = id ∧ UnderWay db s ∧ Reserves db r s ∧ AskedFor r s := by
  obtain ⟨s, hid, hs⟩ := h.holdings.reserves i _ hx
  exact ⟨s, hid, ⟨hs.mem, hs.reserving⟩, hs, h.askedFor i _ hx s hs.mem hid⟩

/-- An update of a settlement does not change what it was asked for as. -/
theorem askedFor_update (h : Ongoing G db) {data : SettlementData}
    (hsettlements : db'.settlements = updateRow Settlement.id id data.set db.settlements) :
    ∀ i x, G i = some x → ∀ s ∈ db'.settlements, s.id = x.settlementId → AskedFor x.request s := by
  intro j x hx s hs hid
  rw [hsettlements] at hs
  obtain ⟨y, hy, rfl⟩ := mem_updateRow.1 hs
  have hold := h.askedFor j x hx y hy
  by_cases hy' : y.id = id
  · rw [if_pos hy'] at hid ⊢
    obtain ⟨hbusiness, htype, hdest⟩ := hold hid
    exact ⟨hbusiness, htype, hdest⟩
  · rw [if_neg hy'] at hid ⊢
    exact hold hid

theorem keep (h : Ongoing G db) (hx : G i = some ⟨r, id, paid⟩) {data : SettlementData}
    (hdata : data.status.Reserving) (hunique : db'.UniqueColumns)
    (hbuckets : db'.treasuryBuckets = db.treasuryBuckets)
    (hsettlements : db'.settlements = updateRow Settlement.id id data.set db.settlements) :
    Ongoing G db' :=
  ⟨hunique, h.holdings.keep hx hdata hbuckets hsettlements, h.askedFor_update hsettlements,
    h.external⟩

variable [DecidableEq ι]

theorem pay (h : Ongoing G db) (hx : G i = some ⟨r, id, false⟩)
    (htype : r.dest.type ≠ "INTERNAL_BUCKET") :
    Ongoing (Function.update G i (some ⟨r, id, true⟩)) db := by
  refine ⟨h.unique, h.holdings.pay hx, fun j x hj => ?_, fun j x hj => ?_⟩ <;> by_cases hji : j = i
  · subst hji
    obtain rfl : (⟨r, id, true⟩ : Holding) = x := by simpa using hj
    have hold := h.askedFor j _ hx
    exact hold
  · rw [Function.update_of_ne hji] at hj
    exact h.askedFor j x hj
  · subst hji
    obtain rfl : (⟨r, id, true⟩ : Holding) = x := by simpa using hj
    exact fun _ => htype
  · rw [Function.update_of_ne hji] at hj
    exact h.external j x hj

theorem reserve (h : Ongoing G db) {s : Settlement}
    (hrun : (reserveTx r env).run schema db = .ok (s, db')) :
    Ongoing (Function.update G i (some ⟨r, s.id, false⟩)) db' := by
  have hholdings := h.holdings.reserve (i := i) hrun
  obtain ⟨b, type, -, -, htype, hs, hcreate⟩ := (reserveTx_run_eq_ok db).1 hrun
  obtain ⟨hfresh, -, -, hdb⟩ := Db.createSettlement_eq_ok.1 hcreate
  have hsettlements : db'.settlements = db.settlements ++ [s] := by rw [hdb]
  have hnew : AskedFor r s := by
    rw [hs]
    exact ⟨rfl, htype, rfl⟩
  refine ⟨h.unique.run hrun, hholdings, fun j x hj y hy hid => ?_, fun j x hj => ?_⟩
  · rw [hsettlements, List.mem_append, List.mem_singleton] at hy
    by_cases hji : j = i
    · subst hji
      obtain rfl : (⟨r, s.id, false⟩ : Holding) = x := by simpa using hj
      rcases hy with hy | rfl
      · exact absurd hid (hfresh y hy)
      · exact hnew
    · rw [Function.update_of_ne hji] at hj
      rcases hy with hy | rfl
      · exact h.askedFor j x hj y hy hid
      · obtain ⟨y', hid', hy'⟩ := h.holdings.reserves j x hj
        exact absurd (hid'.trans hid.symm) (hfresh y' hy'.mem)
  · by_cases hji : j = i
    · subst hji
      obtain rfl : (⟨r, s.id, false⟩ : Holding) = x := by simpa using hj
      exact fun hpaid => by cases hpaid
    · rw [Function.update_of_ne hji] at hj
      exact h.external j x hj

theorem release (h : Ongoing G db) (hx : G i = some ⟨r, id, paid⟩) {data : SettlementData}
    (hunique : db'.UniqueColumns) (hbuckets : db'.treasuryBuckets = db.treasuryBuckets)
    (hsettlements : db'.settlements = updateRow Settlement.id id data.set db.settlements) :
    Ongoing (Function.update G i none) db' := by
  have hold : ∀ j x, Function.update G i none j = some x → G j = some x := by
    intro j x hj
    by_cases hji : j = i
    · subst hji
      simp at hj
    · rwa [Function.update_of_ne hji] at hj
  exact ⟨hunique, h.holdings.release hx hbuckets hsettlements,
    fun j x hj => h.askedFor_update hsettlements j x (hold j x hj),
    fun j x hj => h.external j x (hold j x hj)⟩

end Ongoing

/-! ### Every call is a step -/

namespace Posting

variable {l : Call} {r : SettlementRequest} {id : String} {paid : Bool}

theorem credit {p : CreditParams} {a : Int}
    (hrun : (creditTx p env.row).run schema db = .ok (a, db')) :
    Posting db db' (.credit p.bucketId p.reference p.amountKobo) := by
  rcases (creditTx_run_eq_ok db).1 hrun with ⟨e, -, -, rfl⟩ | ⟨-, -, hcreate⟩
  · exact .quiet (.nothing rfl rfl) rfl
  · obtain ⟨-, -, -, -, rfl⟩ := Db.createBucketLedgerEntry_eq_ok.1 hcreate
    exact .credited (e := p.entry env.row (db.balance p.bucketId)) rfl ⟨rfl, rfl⟩ rfl

theorem transfer {src dst biz : String} {amount : Int} {narration : Option String}
    {out : TransferOutcome}
    (hrun : (transferTx src dst biz amount narration env).run schema db = .ok (out, db')) :
    Posting db db' (.transferBetweenBuckets biz src dst amount) := by
  obtain ⟨s, d, db₁, hs, hd, -, -, -, h₁, h₂, -⟩ := (transferTx_run_eq_ok db).1 hrun
  obtain ⟨-, -, -, -, rfl⟩ := Db.createBucketLedgerEntry_eq_ok.1 h₁
  obtain ⟨-, -, -, -, rfl⟩ := Db.createBucketLedgerEntry_eq_ok.1 h₂
  exact .moved (m := ⟨s.id, d.id, amount, _, narration⟩) hs hd rfl rfl
    ⟨List.append_assoc .., rfl⟩ rfl

theorem reserve {s : Settlement} (hrun : (reserveTx r env).run schema db = .ok (s, db')) :
    Posting db db' (.reserve r.businessId r.bucketRef r.amountKobo) := by
  obtain ⟨b, type, -, -, -, rfl, hcreate⟩ := (reserveTx_run_eq_ok db).1 hrun
  obtain ⟨hfresh, -, -, rfl⟩ := Db.createSettlement_eq_ok.1 hcreate
  exact .reserved (s := r.settlement b.id type env.row) hfresh rfl rfl (.nothing rfl rfl) rfl

/-- A settlement under way is marked as anything but completed. -/
theorem mark (h : Ongoing G db) (hx : G i = some ⟨r, id, paid⟩) {data : SettlementData}
    (hstatus : data.status ≠ .completed) (href : data.nombaTransferReference = none)
    (hop : db.updateSettlement id data = .ok db') :
    Posting db db' (.updateSettlement id data.status) := by
  obtain ⟨s, rfl, hs, -, -⟩ := h.row hx
  obtain ⟨-, -, rfl⟩ := Db.updateSettlement_eq_ok.1 hop
  exact .marked hs hstatus href (.nothing rfl rfl) rfl

theorem completeSettlement (h : Ongoing G db) (hx : G i = some ⟨r, id, true⟩) {ref : String}
    {u : Unit} (hrun : (completeSettlementTx r id ref env).run schema db = .ok (u, db')) :
    Posting db db' (.completeSettlement r.businessId r.bucketRef id r.amountKobo) := by
  obtain ⟨s, rfl, hs, hres, hasked⟩ := h.row hx
  obtain ⟨b, db₁, hb, h₁, h₂⟩ := (completeSettlementTx_run_eq_ok db).1 hrun
  obtain ⟨-, -, -, -, rfl⟩ := Db.createBucketLedgerEntry_eq_ok.1 h₁
  obtain ⟨-, -, rfl⟩ := Db.updateSettlement_eq_ok.1 h₂
  obtain ⟨b', hb', hbucket⟩ := hres.bucket
  obtain rfl : b = b' := by simpa [hb] using hb'
  have hexternal := hasked.external (h.external i _ hx rfl)
  rw [← hasked.businessId] at hb ⊢
  rw [← hres.amount]
  exact .paidOut hs hexternal hb hbucket hbucket.symm rfl hres.amount.symm rfl ⟨rfl, rfl⟩ rfl

theorem settleInternal (h : Ongoing G db) (hx : G i = some ⟨r, id, paid⟩) {destRef ref : String}
    (htype : r.dest.type = "INTERNAL_BUCKET") (hdest : truthy r.dest.bucketRef = some destRef)
    (hrun : (settleInternalTx r id destRef env).run schema db = .ok (ref, db')) :
    Posting db db' (.settleInternal r.businessId r.bucketRef destRef id r.amountKobo) := by
  obtain ⟨s, rfl, hs, hres, hasked⟩ := h.row hx
  obtain ⟨b, d, db₁, db₂, hb, hd, h₁, h₂, h₃, -⟩ := (settleInternalTx_run_eq_ok db).1 hrun
  obtain ⟨-, -, -, -, rfl⟩ := Db.createBucketLedgerEntry_eq_ok.1 h₁
  obtain ⟨-, -, -, -, rfl⟩ := Db.createBucketLedgerEntry_eq_ok.1 h₂
  obtain ⟨-, -, rfl⟩ := Db.updateSettlement_eq_ok.1 h₃
  obtain ⟨b', hb', hbucket⟩ := hres.bucket
  obtain rfl : b = b' := by simpa [hb] using hb'
  have hdestRef := hasked.destinationBucketRef.trans (truthy_eq_some hdest)
  rw [← hasked.businessId] at hb hd ⊢
  rw [← hres.amount]
  exact .movedOut (m := r.move b.id d.id env.uuid) hs (hasked.internal htype) hb hbucket hdestRef hd
    rfl rfl hres.amount.symm ⟨List.append_assoc .., rfl⟩ rfl

end Posting

/-- A call of a run, seen from the books. -/
structure Posted (ev : Event ι World Env Call) : Prop where
  unique : ev.before.db.UniqueColumns ∧ ev.after.db.UniqueColumns
  posting : Posting ev.before.db ev.after.db ev.call

/-- The protocol: every call made so far was a step of the books. -/
def posting (ι : Type) : Protocol ι World Env Call (Option Holding) where
  allowed _ _ _ _ := True
  inv G hist w := Ongoing G w.db ∧ ∀ ev ∈ hist, Posted ev

section Steps

variable {hist : List (Event ι World Env Call)} {l : Call} {w w' : World} {G' : ι → Option Holding}

/-- One more call, a step of the books. -/
theorem posting_append (h : (posting ι).inv G hist w) (hongoing : Ongoing G' w'.db)
    (hposting : Posting w.db w'.db l) :
    (posting ι).inv G' (hist ++ [⟨i, l, env, w, w'⟩]) w' := by
  refine ⟨hongoing, fun ev hev => ?_⟩
  rcases List.mem_append.1 hev with hev | hev
  · exact h.2 ev hev
  · rw [List.mem_singleton.1 hev]
    exact ⟨⟨h.1.unique, hongoing.unique⟩, hposting⟩

/-- A credit, of whatever amount. -/
theorem posting_credit {p : CreditParams} {a : Int} {db : Db} (h : (posting ι).inv G hist w)
    (hrun : (creditTx p env.row).run schema w.db = .ok (a, db)) :
    (posting ι).inv G
      (hist ++ [⟨i, .credit p.bucketId p.reference p.amountKobo, env, w, { w with db }⟩])
      { w with db } := by
  have hunique := h.1.unique.run hrun
  refine posting_append h ?_ (.credit hrun)
  -- the reference was taken, or the entry is written
  rcases (creditTx_run_eq_ok w.db).1 hrun with ⟨e, -, -, rfl⟩ | ⟨-, -, hcreate⟩
  · exact h.1
  · obtain ⟨-, -, -, -, rfl⟩ := Db.createBucketLedgerEntry_eq_ok.1 hcreate
    exact h.1.congr hunique rfl rfl

end Steps

/-- Every operation of the treasury follows it. -/
def postingSteps {ι : Type} [DecidableEq ι] (i : ι) : TreasurySteps (posting ι) i where
  idle := none
  held r id := some ⟨r, id, false⟩
  paid r id := some ⟨r, id, true⟩
  paidMayFail := True
  quiet := by
    intro G hist w w' j l env hinv _ hsame
    have hongoing : Ongoing G w'.db := hsame.db ▸ hinv.1
    refine posting_append hinv hongoing (.quiet (.nothing ?_ ?_) ?_) <;> rw [hsame.db]
  credit := by
    rintro p l G hist w env a db w' - rfl hinv - hrun rfl
    exact posting_credit hinv hrun
  transfer := by
    rintro src dst biz amount narration l G hist w env out db w' - - rfl hinv - hrun rfl
    have hunique := hinv.1.unique.run hrun
    refine posting_append hinv ?_ (.transfer hrun)
    obtain ⟨s, d, db₁, -, -, -, -, -, h₁, h₂, -⟩ := (transferTx_run_eq_ok w.db).1 hrun
    obtain ⟨-, -, -, -, rfl⟩ := Db.createBucketLedgerEntry_eq_ok.1 h₁
    obtain ⟨-, -, -, -, rfl⟩ := Db.createBucketLedgerEntry_eq_ok.1 h₂
    exact hinv.1.congr hunique rfl rfl
  reserve := by
    rintro r l G hist w env s db w' - rfl hinv - hrun rfl
    exact posting_append hinv (hinv.1.reserve hrun) (.reserve hrun)
  processing := by
    rintro r id l G hist w env db w' rfl hheld hinv - hop rfl
    have hunique := hinv.1.unique.apply (show (WriteOp.updateSettlement id _).apply _ = _ from hop)
    refine posting_append hinv ?_ (.mark hinv.1 hheld (by decide) rfl hop)
    obtain ⟨-, -, rfl⟩ := Db.updateSettlement_eq_ok.1 hop
    exact hinv.1.keep hheld (.inr rfl) hunique rfl rfl
  sent := by
    rintro r id request l G hist w env w' rfl hheld hinv - - htype rfl
    exact posting_append hinv (hinv.1.pay hheld htype) (.quiet (.nothing rfl rfl) rfl)
  completed := by
    rintro r id ref u l G hist w env db w' rfl hpaid hinv - hrun rfl
    have hunique := hinv.1.unique.run hrun
    refine posting_append hinv ?_ (.completeSettlement hinv.1 hpaid hrun)
    obtain ⟨b, db₁, -, h₁, h₂⟩ := (completeSettlementTx_run_eq_ok w.db).1 hrun
    obtain ⟨-, -, -, -, rfl⟩ := Db.createBucketLedgerEntry_eq_ok.1 h₁
    obtain ⟨-, -, rfl⟩ := Db.updateSettlement_eq_ok.1 h₂
    exact hinv.1.release hpaid hunique rfl rfl
  thrown := fun _ _ _ _ _ => trivial
  settledInternally := by
    rintro r id destRef ref l G hist w env db w' rfl hheld hinv - hrun htype hdest rfl
    have hunique := hinv.1.unique.run hrun
    refine posting_append hinv ?_ (.settleInternal hinv.1 hheld htype hdest hrun)
    obtain ⟨b, d, db₁, db₂, -, -, h₁, h₂, h₃, -⟩ := (settleInternalTx_run_eq_ok w.db).1 hrun
    obtain ⟨-, -, -, -, rfl⟩ := Db.createBucketLedgerEntry_eq_ok.1 h₁
    obtain ⟨-, -, -, -, rfl⟩ := Db.createBucketLedgerEntry_eq_ok.1 h₂
    obtain ⟨-, -, rfl⟩ := Db.updateSettlement_eq_ok.1 h₃
    exact hinv.1.release hheld hunique rfl rfl
  failed := by
    rintro r id data l G hist w env db w' rfl hown hinv - hstatus href hop rfl
    have hunique := hinv.1.unique.apply
      (show (WriteOp.updateSettlement id data).apply _ = _ from hop)
    obtain ⟨paid, hx⟩ : ∃ paid, G i = some ⟨r, id, paid⟩ := by
      rcases hown with hheld | ⟨-, hpaid⟩
      · exact ⟨false, hheld⟩
      · exact ⟨true, hpaid⟩
    have hposting : Posting w.db db (.updateSettlement id .failed) := by
      rw [← hstatus]
      exact .mark hinv.1 hx (by rw [hstatus]; decide) href hop
    refine posting_append hinv ?_ hposting
    obtain ⟨-, -, rfl⟩ := Db.updateSettlement_eq_ok.1 hop
    exact hinv.1.release hx hunique rfl rfl

/-- So does an allocation of any amount. -/
theorem LedgerOp.wp_run {ι : Type} [DecidableEq ι] {i : ι} (op : LedgerOp) :
    op.run.Wp (posting ι) i (fun _ _ => True) (fun _ _ => True) none := by
  cases op with
  | credit p =>
    refine Proc.Wp.bind ((wp_credit (postingSteps i).quiet (fun _ => trivial) ?_).mono
      (fun _ _ h => h) fun _ _ h => h)
    intro G hist w env a db w' hG hinv _ hrun hw'
    refine ⟨none, ?_, trivial⟩
    rw [← hG, Function.update_eq_self, hw']
    exact posting_credit hinv hrun
  | request op => exact (postingSteps i).wp_run op none

section Run

variable {ι : Type} [DecidableEq ι] {w₀ w : World} {hist : List (Event ι World Env Call)}
  {ps : ι → Action Unit} (hunique : w₀.db.UniqueColumns)
include hunique

theorem postings_of_wp {start : ι → Action Unit}
    (hstart : ∀ i, (start i).Wp (posting ι) i (fun _ _ => True) (fun _ _ => True) none)
    (run : Run (fun _ _ _ _ => True) start w₀ hist ps w) : ∀ ev ∈ hist, Posted ev := by
  have hnone : Ongoing (fun _ : ι => none) w₀.db := ⟨hunique, ⟨by simp, by simp⟩, by simp, by simp⟩
  obtain ⟨G, -, hposted⟩ := (posting ι).inv_of_run (fun _ => none) ⟨hnone, by simp⟩ hstart run
  exact hposted

/-- **Every call is a step of the books.** Any number of threads each serve treasury requests one
after the other, with any calls failing. -/
theorem postings_of_run {ops : ι → List TreasuryOp}
    (run : Run (fun _ _ _ _ => True) (fun i => TreasuryOp.runAll (ops i)) w₀ hist ps w) :
    ∀ ev ∈ hist, Posted ev :=
  postings_of_wp hunique (fun i => (postingSteps i).wp_runAll (ops i) none) run

end Run

end AccountOS
