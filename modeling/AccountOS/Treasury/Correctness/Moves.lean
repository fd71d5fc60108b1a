import AccountOS.Store.Trace
import AccountOS.Treasury.Correctness.Postings

/-!
# What an operation posts

An operation of the treasury posts entries in one transaction at most, its other calls post nothing.
So an operation that throws has posted nothing (`NothingPosted`), and a transfer or an internal
settlement that returns has moved its amount in one of its calls (`MovesOnce`).
-/

namespace AccountOS

open Conc Sql

/-! ### What a move changes -/

/-- The amount goes from one bucket to the other, and no other bucket changes. -/
structure MovesExactly (db db' : Db) (sourceId destId : String) (amountKobo : Int) : Prop where
  source : db'.balance sourceId = db.balance sourceId - amountKobo
  dest : db'.balance destId = db.balance destId + amountKobo
  others : ∀ bucketId, bucketId ≠ sourceId → bucketId ≠ destId →
    db'.balance bucketId = db.balance bucketId

theorem movesExactly_of_move {db₁ : Db} {m : Move} {row row₂ : Generated} {x y : Int}
    (hne : m.sourceId ≠ m.destinationId)
    (h₁ : db₁.bucketLedgerEntries = db.bucketLedgerEntries ++ [m.debit row x])
    (h₂ : db'.bucketLedgerEntries = db₁.bucketLedgerEntries ++ [m.credit row₂ y]) :
    MovesExactly db db' m.sourceId m.destinationId m.amountKobo := by
  refine ⟨?_, ?_, fun bucketId hsource hdest => ?_⟩
  · rw [balance_move h₁ h₂, if_pos rfl, if_neg hne.symm, add_zero]
  · rw [balance_move h₁ h₂, if_neg hne, if_pos rfl, sub_zero]
  · rw [balance_move h₁ h₂, if_neg hsource.symm, if_neg hdest.symm, sub_zero, add_zero]

/-- A transfer or an internal settlement, as a transaction, between two buckets of a business. -/
def MovesBetween (db db' : Db) (businessId sourceRef destRef : String) (amountKobo : Int) : Prop :=
  ∃ source dest, db.findBucket businessId sourceRef = some source ∧
    db.findBucket businessId destRef = some dest ∧
    MovesExactly db db' source.id dest.id amountKobo

section Transactions

variable {env : Env} {db db' : Db}

theorem movesBetween_of_transfer (hunique : db.UniqueColumns) {src dst biz : String} {amount : Int}
    {narration : Option String} {out : TransferOutcome} (hne : src ≠ dst)
    (hrun : (transferTx src dst biz amount narration env).run schema db = .ok (out, db')) :
    MovesBetween db db' biz src dst amount := by
  obtain ⟨s, d, db₁, hs, hd, -, -, -, h₁, h₂, -⟩ := (transferTx_run_eq_ok db).1 hrun
  obtain ⟨-, -, -, -, hdb₁⟩ := Db.createBucketLedgerEntry_eq_ok.1 h₁
  obtain ⟨-, -, -, -, hdb⟩ := Db.createBucketLedgerEntry_eq_ok.1 h₂
  have hids := findBucket_id_ne hunique.treasuryBuckets hs hd hne
  exact ⟨s, d, hs, hd, movesExactly_of_move (m := ⟨s.id, d.id, amount, _, narration⟩) hids
    (congrArg Db.bucketLedgerEntries hdb₁) (congrArg Db.bucketLedgerEntries hdb)⟩

theorem movesBetween_of_settleInternal (hunique : db.UniqueColumns) {r : SettlementRequest}
    {id destRef ref : String} (hne : r.bucketRef ≠ destRef)
    (hrun : (settleInternalTx r id destRef env).run schema db = .ok (ref, db')) :
    MovesBetween db db' r.businessId r.bucketRef destRef r.amountKobo := by
  obtain ⟨s, d, db₁, db₂, hs, hd, h₁, h₂, h₃, -⟩ := (settleInternalTx_run_eq_ok db).1 hrun
  obtain ⟨-, -, -, -, hdb₁⟩ := Db.createBucketLedgerEntry_eq_ok.1 h₁
  obtain ⟨-, -, -, -, hdb₂⟩ := Db.createBucketLedgerEntry_eq_ok.1 h₂
  obtain ⟨-, -, hdb⟩ := Db.updateSettlement_eq_ok.1 h₃
  have hids := findBucket_id_ne hunique.treasuryBuckets hs hd hne
  have hentries : db'.bucketLedgerEntries = db₂.bucketLedgerEntries := by rw [hdb]
  have hlast := congrArg Db.bucketLedgerEntries hdb₂
  exact ⟨s, d, hs, hd, movesExactly_of_move (m := r.move s.id d.id env.uuid) hids
    (congrArg Db.bucketLedgerEntries hdb₁) (hentries.trans hlast)⟩

end Transactions

/-! ### The calls of an operation -/

/-- The call posts nothing. -/
def PostsNothing (w w' : World) : Prop := w'.db.bucketLedgerEntries = w.db.bucketLedgerEntries

theorem postsNothing_footprint :
    Footprint (fun o => ∀ e, o ≠ .createBucketLedgerEntry e) PostsNothing where
  sameData h := congrArg Db.bucketLedgerEntries h.db
  writes := by
    rintro o w w' db ho hop rfl
    refine (WriteOp.sameExcept hop).bucketLedgerEntries ?_
    cases o <;> first | exact absurd rfl (ho _) | nofun

section Calls

variable {ι : Type}

def NothingPosted (calls : Calls ι) : Prop := ∀ x ∈ calls, PostsNothing x.before x.after

/-- One of the calls changes the books as `R` says, and the others post nothing. -/
def PostsOnce (R : Db → Db → Prop) (calls : Calls ι) : Prop :=
  ∃ past ev later, calls = past ++ ev :: later ∧ R ev.before.db ev.after.db ∧
    NothingPosted (past ++ later)

/-- One of the calls moves the amount from one bucket of the business to another one, and the others
post nothing. -/
def MovesOnce (calls : Calls ι) (businessId sourceRef destRef : String) (amountKobo : Int) : Prop :=
  PostsOnce (fun db db' => MovesBetween db db' businessId sourceRef destRef amountKobo) calls

variable {calls later : Calls ι} {R R' : Db → Db → Prop}

theorem NothingPosted.append (h : NothingPosted calls) (hlater : NothingPosted later) :
    NothingPosted (calls ++ later) := by
  intro x hx
  rcases List.mem_append.1 hx with hx | hx
  · exact h x hx
  · exact hlater x hx

theorem NothingPosted.postsOnce (h : NothingPosted calls) {ev : Event ι World Env Call}
    (hev : R ev.before.db ev.after.db) : PostsOnce R (calls ++ [ev]) :=
  ⟨calls, ev, [], rfl, hev, by rwa [List.append_nil]⟩

theorem PostsOnce.append (h : PostsOnce R calls) (hlater : NothingPosted later) :
    PostsOnce R (calls ++ later) := by
  obtain ⟨past, ev, rest, rfl, hev, hquiet⟩ := h
  refine ⟨past, ev, rest ++ later, by rw [List.append_assoc, List.cons_append], hev, ?_⟩
  rw [← List.append_assoc]
  exact hquiet.append hlater

theorem PostsOnce.imp (h : PostsOnce R calls)
    (hR : ∀ ev ∈ calls, R ev.before.db ev.after.db → R' ev.before.db ev.after.db) :
    PostsOnce R' calls := by
  obtain ⟨past, ev, rest, rfl, hev, hquiet⟩ := h
  exact ⟨past, ev, rest, rfl, hR ev (List.mem_append_right _ List.mem_cons_self) hev, hquiet⟩

end Calls

/-! ### The operations, call by call -/

section Traced

variable {ι α : Type} {i : ι} {past : Calls ι}

/-- What is shown of a method: nothing of its single calls. -/
abbrev EndsWith (i : ι) (p : Action α) (Q : α → Calls ι → Prop) (past : Calls ι) : Prop :=
  p.Traced i (fun _ _ => True) Q (fun _ calls => NothingPosted calls) past

/-- A method that posts nothing. -/
theorem traced_quiet {p : Action α} (hp : p.Keeps (fun _ _ _ _ => True) PostsNothing)
    {P : Calls ι → Prop} (hP : ∀ later, NothingPosted later → P (past ++ later)) :
    p.Traced i (fun _ _ => True) (fun _ calls => P calls) (fun _ calls => P calls) past := by
  refine (hp.traced fun _ _ _ _ _ => trivial).mono ?_ ?_
  · rintro _ _ ⟨later, rfl, hlater⟩
    exact hP later hlater
  · rintro _ _ ⟨later, rfl, hlater⟩
    exact hP later hlater

theorem endsWith_quiet {p : Action α} (hp : p.Keeps (fun _ _ _ _ => True) PostsNothing)
    (h : NothingPosted past) : EndsWith i p (fun _ calls => NothingPosted calls) past :=
  traced_quiet hp fun _ hlater => h.append hlater

/-- A transaction that posts. -/
theorem endsWith_transaction {l : Call} {body : Env → TxBody α} {R : Db → Db → Prop}
    (hbody : ∀ env db a db', (body env).run schema db = .ok (a, db') → R db db')
    (h : NothingPosted past) :
    EndsWith i (transaction l body) (fun _ calls => PostsOnce R calls) past := by
  refine traced_transaction logsOnly_nothing ?_ fun env w e w' hsame => ⟨trivial, ?_⟩
  · rintro env w a db w' hrun rfl
    exact ⟨trivial, h.postsOnce (hbody env w.db a db hrun)⟩
  · refine h.append fun x hx => ?_
    rw [List.mem_singleton.1 hx]
    exact postsNothing_footprint.sameData hsame

/-- An audit entry, after whatever has been posted. -/
theorem endsWith_audit {entry : AuditLogEntry} {P : Calls ι → Prop}
    (hP : ∀ later, NothingPosted later → P (past ++ later)) :
    EndsWith i (audit entry) (fun _ calls => P calls) past :=
  traced_audit fun env w w' hsame => ⟨trivial, hP _ fun x hx => by
    rw [List.mem_singleton.1 hx]
    exact postsNothing_footprint.sameData hsame⟩

theorem endsWith_bigIntOrThrow {x : ℚ} (h : NothingPosted past) :
    EndsWith i (bigIntOrThrow x) (fun n calls => x = n ∧ NothingPosted calls) past := by
  unfold bigIntOrThrow
  split
  next n hn => exact ⟨bigInt_eq_ok.1 hn, h⟩
  next => exact h

/-- **What a transfer posts.** When it returns, the amount has gone from one bucket to another one;
when it throws, nothing has been posted. -/
theorem endsWith_transferBetweenBuckets {src : String} {dto : TransferBucketDto}
    {businessId actor : String} :
    EndsWith i (transferBetweenBuckets src dto businessId actor)
      (fun _ calls => src ≠ dto.destinationBucketRef ∧ ∃ amountKobo : Int,
        dto.amountKobo = amountKobo ∧ PostsOnce (fun db db' => db.UniqueColumns →
          MovesBetween db db' businessId src dto.destinationBucketRef amountKobo) calls) [] := by
  have hnone : NothingPosted ([] : Calls ι) := fun _ hx => absurd hx List.not_mem_nil
  unfold transferBetweenBuckets
  split
  next => exact hnone
  next hne =>
    refine Proc.Traced.bind ((endsWith_bigIntOrThrow hnone).mono ?_ fun _ _ h => h)
    rintro amountKobo calls ⟨hamount, hquiet⟩
    refine Proc.Traced.bind ((endsWith_transaction (R := fun db db' => db.UniqueColumns →
      MovesBetween db db' businessId src dto.destinationBucketRef amountKobo) ?_ hquiet).mono ?_
        fun _ _ h => h)
    · exact fun env db out db' hrun hunique => movesBetween_of_transfer hunique (Ne.symm hne) hrun
    · intro out calls hposts
      refine Proc.Traced.bind (endsWith_audit fun later hlater => ?_)
      exact ⟨Ne.symm hne, amountKobo, hamount, hposts.append hlater⟩

/-- An internal settlement has moved its amount, if that was to go to another bucket. -/
def SettlementRequest.SettledInternally (r : SettlementRequest) (calls : Calls ι) : Prop :=
  r.dest.type = "INTERNAL_BUCKET" → ∃ destRef, r.dest.bucketRef = some destRef ∧
    PostsOnce (fun db db' => db.UniqueColumns → r.bucketRef ≠ destRef →
      MovesBetween db db' r.businessId r.bucketRef destRef r.amountKobo) calls

theorem endsWith_executeTransfer {r : SettlementRequest} {id : String} (h : NothingPosted past) :
    EndsWith i (executeTransfer r id) (fun _ calls => r.SettledInternally calls) past := by
  unfold executeTransfer
  split
  next htype =>
    split
    next => exact h
    next destRef hdest =>
      refine Proc.Traced.bind ((endsWith_transaction (R := fun db db' => db.UniqueColumns →
        r.bucketRef ≠ destRef → MovesBetween db db' r.businessId r.bucketRef destRef r.amountKobo)
          ?_ h).mono ?_ fun _ _ h => h)
      · exact fun env db ref db' hrun hunique hne => movesBetween_of_settleInternal hunique hne hrun
      · intro ref calls hposts
        exact endsWith_audit fun later hlater _ =>
          ⟨destRef, truthy_eq_some hdest, hposts.append hlater⟩
  next htype =>
    -- an external settlement posts a debit, and moves nothing between buckets
    split
    next =>
      have hsent : ∀ request, (bankTransfer id request).Keeps (fun _ _ _ _ => True)
          PostsNothing := by
        refine fun request => Proc.Keeps.call fun env w _ => ?_
        cases env.fault <;> rfl
      refine Proc.Traced.bind ((endsWith_quiet (hsent _) h).mono ?_ fun _ _ h => h)
      intro sent calls hquiet
      refine Proc.Traced.bind ((endsWith_transaction (R := fun _ _ => True)
        (fun _ _ _ _ _ => trivial) hquiet).mono ?_ fun _ _ h => h)
      exact fun _ _ _ => endsWith_audit fun _ _ hinternal => absurd hinternal htype
    next => exact h

/-- A settlement is marked. -/
theorem keeps_mark {l : Call} {id : String} {data : SettlementData} :
    (statement l fun _ => .updateSettlement id data).Keeps (fun _ _ _ _ => True) PostsNothing :=
  postsNothing_footprint.keeps_statement fun _ _ => nofun

/-- What was thrown is thrown on. -/
theorem endsWith_failSettlement {r : SettlementRequest} {id : String} {error : Error}
    (h : NothingPosted past) :
    EndsWith i (failSettlement r id error : Action α) (fun _ _ => False) past := by
  have hmarked : ((statement (.updateSettlement id .failed) fun _ => .updateSettlement id {
        status := .failed, failureReason := some error.message }).catching
          fun _ => pure ()).Keeps (fun _ _ _ _ => True) PostsNothing :=
    keeps_mark.catching fun _ => trivial
  refine Proc.Traced.bind ((endsWith_quiet hmarked h).mono ?_ fun _ _ h => h)
  intro _ calls hquiet
  refine Proc.Traced.bind (endsWith_audit fun later hlater => ?_)
  split <;> exact hquiet.append hlater

theorem endsWith_settle {r : SettlementRequest} (h : NothingPosted past) :
    EndsWith i (settle r) (fun _ calls => r.SettledInternally calls) past := by
  have hreserve : (reserve r).Keeps (fun _ _ _ _ => True) PostsNothing := by
    refine postsNothing_footprint.keeps_transaction (logsOnly_log _) ?_
    rintro env w s db w' hrun rfl
    obtain ⟨-, -, -, -, -, -, hcreate⟩ := (reserveTx_run_eq_ok w.db).1 hrun
    obtain ⟨-, -, -, rfl⟩ := Db.createSettlement_eq_ok.1 hcreate
    rfl
  -- neither the reservation nor the new status posts anything
  refine Proc.Traced.bind ((endsWith_quiet hreserve h).mono ?_ fun _ _ h => h)
  intro s calls hquiet
  refine Proc.Traced.bind ((endsWith_quiet keeps_mark hquiet).mono ?_ fun _ _ h => h)
  intro _ calls hquiet
  refine Proc.Traced.catching (Proc.Traced.bind ((endsWith_executeTransfer hquiet).mono ?_ ?_))
  · exact fun _ _ hsettled => hsettled
  · exact fun e calls hquiet =>
      (endsWith_failSettlement hquiet).mono (fun _ _ hfalse => hfalse.elim) fun _ _ h => h

/-- **What a settlement posts.** When it returns, an amount for another bucket has gone there; when it
throws, nothing has been posted. -/
theorem endsWith_initiate {bucketRef : String} {dto : CreateSettlementDto}
    {businessId actor : String} :
    EndsWith i (initiate bucketRef dto businessId actor)
      (fun _ calls => ∃ (bucket : TreasuryBucket) (amountKobo : Int),
        (∃ x ∈ calls, x.call = .findBucket businessId bucketRef ∧
          x.before.db.findBucket businessId bucketRef = some bucket) ∧
        dto.amountKobo = amountKobo ∧
        SettlementRequest.SettledInternally ⟨bucketRef, businessId, actor, dto.amountKobo, amountKobo,
          resolveDestination dto bucket, dto.narration⟩ calls) [] := by
  have hnone : NothingPosted ([] : Calls ι) := fun _ hx => absurd hx List.not_mem_nil
  have hresolved : EndsWith i (resolveBucket bucketRef businessId) (fun bucket calls =>
      (∃ x ∈ calls, x.call = .findBucket businessId bucketRef ∧
        x.before.db.findBucket businessId bucketRef = some bucket) ∧ NothingPosted calls) [] := by
    refine Proc.Traced.bind (traced_find (fun env w => ⟨trivial, ?_⟩) fun env w e w' hsame =>
      ⟨trivial, ?_⟩)
    · have hquiet : NothingPosted [(⟨i, .findBucket businessId bucketRef, env, w, w⟩ :
          Event ι World Env Call)] := fun x hx => by
        rw [List.mem_singleton.1 hx]
        rfl
      split
      next => exact hquiet
      next bucket hbucket => exact ⟨⟨_, List.mem_singleton_self _, rfl, hbucket⟩, hquiet⟩
    · intro x hx
      rw [List.mem_singleton.1 hx]
      exact postsNothing_footprint.sameData hsame
  -- the calls are kept track of, so that the lookup is still among them at the end
  refine Proc.Traced.bind (hresolved.mono ?_ fun _ _ h => h)
  rintro bucket calls ⟨⟨x, hx, hcall, hbucket⟩, hquiet⟩
  split
  next => exact hquiet
  next =>
    refine Proc.Traced.bind ((endsWith_bigIntOrThrow hquiet).prefixed.mono ?_ fun _ _ h => h.2)
    rintro amountKobo calls' ⟨hpast, hamount, hquiet'⟩
    refine (endsWith_settle hquiet').prefixed.mono ?_ fun _ _ h => h.2
    rintro _ calls'' ⟨hpast', hsettled⟩
    have hmem : x ∈ calls'' := (hpast.trans hpast').subset hx
    exact ⟨bucket, amountKobo, ⟨x, hmem, hcall, hbucket⟩, hamount, hsettled⟩

/-! ### Allocations -/

theorem endsWith_credit {p : CreditParams} : EndsWith i (credit p) (fun _ _ => True) [] := by
  have hnone : NothingPosted ([] : Calls ι) := fun _ hx => absurd hx List.not_mem_nil
  have htx : ∀ calls : Calls ι, NothingPosted calls →
      EndsWith i (transaction (.credit p.bucketId p.reference p.amountKobo) fun env =>
        creditTx p env.row) (fun _ _ => True) calls := by
    intro calls hquiet
    exact (endsWith_transaction (R := fun _ _ => True) (fun _ _ _ _ _ => trivial) hquiet).mono
      (fun _ _ _ => trivial) fun _ _ h => h
  -- an attempt that has thrown has posted nothing, and so the next one starts like the first
  have hattempts : ∀ (retries : ℕ) (calls : Calls ι), NothingPosted calls →
      EndsWith i (runSerializable (transaction (.credit p.bucketId p.reference p.amountKobo)
        fun env => creditTx p env.row) retries) (fun _ _ => True) calls := by
    intro retries
    induction retries with
    | zero => exact htx
    | succ retries ih =>
      intro calls hquiet
      refine Proc.Traced.catching ((htx calls hquiet).mono (fun _ _ h => h) fun e calls' h => ?_)
      split
      next => exact ih calls' h
      next => exact h
  refine Proc.Traced.bind ((hattempts maxRetries [] hnone).mono ?_ fun _ _ h => h)
  exact fun _ _ _ => Proc.Traced.bind (endsWith_audit fun _ _ => trivial)

end Traced

end AccountOS
