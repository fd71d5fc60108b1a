import AccountOS.Treasury.Operations

/-!
# What becomes of the money once Nomba has confirmed

`initiate` is run alone, from any state, with every call free to fail. When Nomba confirms the
transfer, the money has left, and the books should say so: either the DEBIT is written, or the
settlement still reserves the amount. One `catch` block handles the failures before and after the
confirmation alike, so the second transaction failing releases the reservation of money that is
gone. The headline result,
`initiate_accounted_iff`, says exactly when: the transfer is accounted
for if and only if the second transaction commits or marking the settlement FAILED fails too.

The proof follows the calls of `initiate` from the front; `SameData` disposes of the failures that
come before the confirmation.
-/

namespace AccountOS

open Conc Sql

/-! ### The property -/

/-- The transfer `t`, confirmed between `w` and `w'`, is still in the bucket's books: its settlement
reserves the amount, or its DEBIT has been added. -/
def AccountedFor (w w' : World) (t : ConfirmedTransfer) : Prop :=
  (∃ s ∈ w'.db.settlements, s.id = t.settlementId ∧ s.status.Reserving) ∨
    ∃ e, w'.db.bucketLedgerEntries = w.db.bucketLedgerEntries ++ [e] ∧ e.entryType = .debit ∧
      e.reference = s!"stl_{t.request.merchantTxRef}" ∧ (e.amountKobo : ℚ) = t.request.amount * 100

/-- The environment lets TX2 commit: the call does not fail, and none of the identifiers that the
transaction has to write is taken in the state `initiate` was called in. -/
def CompletionCommits (db : Db) (t : ConfirmedTransfer) (env : Env) : Prop :=
  env.fault = none ∧
    (∀ e ∈ db.bucketLedgerEntries, e.id ≠ env.row.id) ∧
    (∀ e ∈ db.bucketLedgerEntries, e.reference ≠ s!"stl_{t.request.merchantTxRef}") ∧
    ∀ s ∈ db.settlements, s.nombaTransferReference ≠ some t.request.merchantTxRef

/-! ### The catch block -/

section CatchBlock

variable (r : SettlementRequest) (settlementId : String) (env : Call → Env) (w : World)

/-- The world after the catch block: the settlement is FAILED, unless that update failed. -/
theorem failSettlement_world (α : Type) (error : Error) :
    ∃ e w', (failSettlement r settlementId error : Action α).runWith env w = (.error e, w') ∧
      w'.transfers = w.transfers ∧
      ((env (.updateSettlement settlementId .failed)).fault = none ∧
          (∃ s ∈ w.db.settlements, s.id = settlementId) ∧
          (∃ data : SettlementData, data.status = .failed ∧ w'.db = { w.db with
            settlements := updateRow Settlement.id settlementId data.set w.db.settlements }) ∨
        ((env (.updateSettlement settlementId .failed)).fault = none →
            ∀ s ∈ w.db.settlements, s.id ≠ settlementId) ∧ w'.db = w.db) := by
  simp only [failSettlement, statement, audit, Proc.bind_eq, Proc.runWith_bind,
    Proc.runWith_catching, Proc.runWith_call]
  rcases statementStep_cases (fun _ => .updateSettlement settlementId
    { status := .failed, failureReason := some error.message })
    (env (.updateSettlement settlementId .failed)) w with
    ⟨hf, db, hdb, hstep⟩ | ⟨e, w', hstep, hsame, -, hcause⟩
  · have hdb := Db.updateSettlement_eq_ok.1 hdb
    rw [hstep]
    cases error.isHttp
    all_goals
      refine ⟨_, _, rfl, by simp, .inl ⟨hf, hdb.1, ⟨_, ?_, by simpa using hdb.2.2⟩⟩⟩
      rfl
  · have hcause : (env (.updateSettlement settlementId .failed)).fault = none →
        ∀ s ∈ w.db.settlements, s.id ≠ settlementId := by
      intro hf s hs hid
      refine hcause hf _ (Db.updateSettlement_eq_ok.2 ⟨⟨s, hs, hid⟩, ?_, rfl⟩)
      simp
    rw [hstep]
    cases error.isHttp
    all_goals exact ⟨_, _, rfl, by simp [hsame.transfers], .inr ⟨hcause, by simp [hsame.db]⟩⟩

end CatchBlock

/-! ### The try block -/

section TryBlock

variable (r : SettlementRequest) (settlementId : String) (env : Call → Env) (w : World)

/-- The environment's choice for TX2. -/
def completionEnv : Env :=
  env (.completeSettlement r.businessId r.bucketRef settlementId r.amountKobo)

/-- TX2 commits, as far as the environment's choice and the state it runs on decide it. -/
def Completes (nombaReference : String) (db' : Db) : Prop :=
  (completionEnv r settlementId env).fault = none ∧
    (completeSettlementTx r settlementId nombaReference (completionEnv r settlementId env)).run
      schema w.db = .ok ((), db')

/-- TX2 and its audit entry: the transaction commits, or nothing happens. -/
theorem completeSettlement_world (nombaReference : String) :
    ∃ res w', (completeSettlement r settlementId nombaReference).runWith env w = (res, w') ∧
      w'.transfers = w.transfers ∧
      (res = .ok () ∧ Completes r settlementId env w nombaReference w'.db ∨
        ∃ e, res = .error e ∧ w'.db = w.db ∧
          ∀ db, ¬ Completes r settlementId env w nombaReference db) := by
  simp only [completeSettlement, transaction, audit, Proc.bind_eq, Proc.runWith_bind,
    Proc.runWith_call]
  rcases transactionStep_cases (completeSettlementTx r settlementId nombaReference)
    logsOnly_nothing (completionEnv r settlementId env) w with
      ⟨u, db, hf, hrun, hstep⟩ | ⟨e, w', hstep, hthrown⟩
  · have hstep' := hstep
    rw [completionEnv] at hstep'
    rw [hstep']
    exact ⟨_, _, rfl, by simp, .inl ⟨rfl, hf, by simpa using hrun⟩⟩
  · have hstep' := hstep
    rw [completionEnv] at hstep'
    rw [hstep']
    refine ⟨_, _, rfl, hthrown.same.transfers, .inr ⟨e, rfl, hthrown.same.db, ?_⟩⟩
    exact fun db ⟨hf, hrun⟩ => hthrown.aborted hf _ hrun

/-- An internal settlement sends nothing. -/
theorem settleInternal_transfers (destRef : String) :
    ((settleInternal r settlementId destRef).runWith env w).2.transfers = w.transfers := by
  simp only [settleInternal, transaction, audit, Proc.bind_eq, Proc.runWith_bind,
    Proc.runWith_call]
  rcases transactionStep_cases (settleInternalTx r settlementId destRef) logsOnly_nothing
    (env (.settleInternal r.businessId r.bucketRef destRef settlementId r.amountKobo)) w with
      ⟨ref, db, -, -, hstep⟩ | ⟨e, w', hstep, hthrown⟩
  · rw [hstep]
    simp
  · rw [hstep]
    exact hthrown.same.transfers

/-- The try block either sends nothing, or Nomba confirms one transfer of the settlement's amount
and then TX2 commits or fails without an effect. -/
theorem executeTransfer_world :
    ∃ res w', (executeTransfer r settlementId).runWith env w = (res, w') ∧
      (w'.transfers = w.transfers ∨
        ∃ t : ConfirmedTransfer, t.settlementId = settlementId ∧
          t.request.amount = r.amountKobo / 100 ∧ w'.transfers = w.transfers ++ [t] ∧
          (res = .ok () ∧ Completes r settlementId env w t.request.merchantTxRef w'.db ∨
            ∃ e, res = .error e ∧ w'.db = w.db ∧
              ∀ db, ¬ Completes r settlementId env w t.request.merchantTxRef db)) := by
  unfold executeTransfer
  split
  next hinternal =>
    cases truthy r.dest.bucketRef with
    | none => exact ⟨_, _, rfl, .inl rfl⟩
    | some destRef =>
      exact ⟨_, _, rfl, .inl (settleInternal_transfers r settlementId env w destRef)⟩
  next hexternal =>
    split
    next accountNumber bankCode accountName _ _ _ =>
      rw [Proc.bind_eq, Proc.runWith_bind, bankTransfer, Proc.runWith_call]
      cases (env (.bankTransfer settlementId)).fault with
      | some f => exact ⟨_, _, rfl, .inl rfl⟩
      | none =>
        generalize hq : nombaRequest r settlementId accountNumber bankCode accountName
          (env (.bankTransfer settlementId)) = q
        have hamount : q.amount = r.amountKobo / 100 := by rw [← hq]; rfl
        obtain ⟨res, w', hrun, htransfers, hres⟩ := completeSettlement_world r settlementId env
          { w with transfers := w.transfers ++ [⟨settlementId, q⟩] } q.merchantTxRef
        exact ⟨res, w', hrun, .inr ⟨⟨settlementId, q⟩, rfl, hamount, htransfers, hres⟩⟩
    next => exact ⟨_, _, rfl, .inl rfl⟩

end TryBlock

/-! ### Up to the try block -/

section Settle

variable (r : SettlementRequest) (env : Call → Env) (w : World)

/-- Between the reservation and the try block: one settlement has been added, nothing else. -/
structure InProgress (settlementId : String) (w' : World) : Prop where
  transfers : w'.transfers = w.transfers
  entries : w'.db.bucketLedgerEntries = w.db.bucketLedgerEntries
  bucket : ∃ b, w'.db.findBucket r.businessId r.bucketRef = some b
  fresh : ∀ s ∈ w.db.settlements, s.id ≠ settlementId
  settlements : ∃ s, w'.db.settlements = w.db.settlements ++ [s] ∧ s.id = settlementId ∧
    s.status = .processing

/-- TX1 and the PROCESSING update: TX1 throws and nothing has happened; or the update throws, and
the new settlement stays `PENDING`; or the settlement is in progress for the try block. -/
theorem settle_world :
    (∃ e w', (settle r).runWith env w = (.error e, w') ∧ w.SameData w') ∨
      (∃ e w' s, (settle r).runWith env w = (.error e, w') ∧ w'.transfers = w.transfers ∧
        w'.db = { w.db with settlements := w.db.settlements ++ [s] } ∧
        (∀ x ∈ w.db.settlements, x.id ≠ s.id) ∧ s.status = .pending ∧
        (env (.updateSettlement s.id .processing)).fault ≠ none) ∨
      ∃ settlementId w₁, InProgress r w settlementId w₁ ∧
        (env (.updateSettlement settlementId .processing)).fault = none ∧
        (settle r).runWith env w =
          (((executeTransfer r settlementId).bind fun _ =>
            (pure ⟨settlementId, r.required⟩ : Action SettlementResult)).catching
              (failSettlement r settlementId)).runWith env w₁ := by
  simp only [settle, reserve, statement, transaction, Proc.bind_eq]
  rw [Proc.runWith_bind, Proc.runWith_call]
  rcases transactionStep_cases (reserveTx r) (logsOnly_log r.reservedAudit)
    (env (.reserve r.businessId r.bucketRef r.amountKobo)) w with
    ⟨s, db, -, hrun, hstep⟩ | ⟨e, w', hstep, hthrown⟩
  · rw [hstep]
    dsimp only
    obtain ⟨b, type, hb, -, -, hs, hcreate⟩ := (reserveTx_run_eq_ok w.db).1 hrun
    obtain ⟨hfresh, -, -, rfl⟩ := Db.createSettlement_eq_ok.1 hcreate
    rw [Proc.runWith_bind, Proc.runWith_call]
    generalize hw₁ : ({ w.log (env (.reserve r.businessId r.bucketRef r.amountKobo))
      (r.reservedAudit s) with
        db := { w.db with settlements := w.db.settlements ++ [s] } } : World) = w₁
    rcases statementStep_cases (fun _ => .updateSettlement s.id { status := .processing })
      (env (.updateSettlement s.id .processing)) w₁ with
      ⟨hf, db, hdb, hstep⟩ | ⟨e, w', hstep, hsame, -, hcause⟩
    · rw [hstep]
      obtain ⟨-, -, rfl⟩ := Db.updateSettlement_eq_ok.1 hdb
      refine .inr (.inr ⟨s.id, _, ?_, hf, rfl⟩)
      subst hw₁
      exact ⟨by simp, rfl, ⟨b, hb⟩, hfresh,
        ⟨_, updateRow_append_singleton hfresh rfl, rfl, rfl⟩⟩
    · rw [hstep]
      subst hw₁
      refine .inr (.inl ⟨e, w', s, rfl, hsame.transfers.trans (by simp), hsame.db, hfresh,
        by rw [hs]; rfl, fun hf => ?_⟩)
      -- without a fault the update goes through: the row is there, and nothing unique is written
      refine hcause hf _ (Db.updateSettlement_eq_ok.2 ⟨⟨s, by simp, rfl⟩, ?_, rfl⟩)
      simp
  · rw [hstep]
    exact .inl ⟨e, w', rfl, hthrown.same⟩

/-- In the state of the try block TX2 commits exactly when the identifiers it writes were free
before the settlement. -/
theorem completes_iff {settlementId : String} {w₁ : World} (h : InProgress r w settlementId w₁)
    (t : ConfirmedTransfer) :
    (∃ db, Completes r settlementId env w₁ t.request.merchantTxRef db) ↔
      CompletionCommits w.db t (completionEnv r settlementId env) := by
  obtain ⟨b, hb⟩ := h.bucket
  obtain ⟨s, hs, hid, -⟩ := h.settlements
  unfold Completes CompletionCommits
  simp only [completeSettlementTx_run_eq_ok, Db.createBucketLedgerEntry_eq_ok,
    Db.updateSettlement_eq_ok, ← h.entries]
  constructor
  · rintro ⟨db, hf, b', db₁, -, ⟨hentryId, href, -, -, rfl⟩, -, hunique, -⟩
    refine ⟨hf, hentryId, href, fun x hx hxref => hunique _ rfl x ?_ (h.fresh x hx) hxref⟩
    simp [hs, hx]
  · rintro ⟨hf, hentryId, href, hunique⟩
    refine ⟨_, hf, b, _, hb, ⟨hentryId, href, ⟨b, (findBucket_eq_some _ hb).1, rfl⟩, ?_, rfl⟩,
      ⟨s, by simp [hs], hid⟩, ?_, rfl⟩
    · simp [SettlementRequest.debit]
    · intro ref href' x hx hxid
      obtain rfl : t.request.merchantTxRef = ref := by simpa [completedData] using href'
      rcases List.mem_append.1 (hs ▸ hx) with hx | hx
      · exact hunique x hx
      · rw [List.mem_singleton] at hx
        exact absurd (hx ▸ hid) hxid

/-- What the catch block leaves of a settlement in progress: it is FAILED, and no longer
reserves, exactly when the update succeeds. -/
theorem reserving_failSettlement_iff {settlementId : String} {w₁ w₂ : World}
    (h : InProgress r w settlementId w₁) (hdb : w₂.db = w₁.db) (error : Error) :
    (∃ s ∈ ((failSettlement r settlementId error : Action SettlementResult).runWith env
        w₂).2.db.settlements, s.id = settlementId ∧ s.status.Reserving) ↔
      (env (.updateSettlement settlementId .failed)).fault ≠ none := by
  obtain ⟨s, hs, hid, hstatus⟩ := h.settlements
  obtain ⟨e, w', hrun, -, hcase⟩ :=
    failSettlement_world r settlementId env w₂ SettlementResult error
  rw [hrun]
  rcases hcase with ⟨hf, -, data, hfailed, hw'⟩ | ⟨hf, hw'⟩
  · simp only [hf, ne_eq, not_true_eq_false, iff_false]
    rintro ⟨x, hx, hxid, hres⟩
    rw [hw', hdb, hs, updateRow_append_singleton h.fresh hid] at hx
    rcases List.mem_append.1 hx with hx | hx
    · exact h.fresh x hx hxid
    · rw [List.mem_singleton] at hx
      rw [hx] at hres
      simp [SettlementData.set, hfailed, SettlementStatus.Reserving] at hres
  · have hmem : s ∈ w₁.db.settlements := by simp [hs]
    refine iff_of_true ⟨s, by rw [hw', hdb]; exact hmem, hid, ?_⟩ ?_
    · simp [hstatus, SettlementStatus.Reserving]
    exact fun hnone => hf hnone s (hdb ▸ hmem) hid

/-- **Confirmed money is accounted for exactly when TX2 commits or the FAILED update fails.** -/
theorem settle_accounted_iff {res : Except Error SettlementResult} {w' : World}
    (hrun : (settle r).runWith env w = (res, w')) {t : ConfirmedTransfer}
    (ht : w'.transfers = w.transfers ++ [t]) :
    AccountedFor w w' t ↔
      CompletionCommits w.db t (completionEnv r t.settlementId env) ∨
        (env (.updateSettlement t.settlementId .failed)).fault ≠ none := by
  rcases settle_world r env w with ⟨e, w₀, hend, hsame⟩ | ⟨e, w₀, s, hend, hsent, -⟩ |
    ⟨settlementId, w₁, hprog, -, hrest⟩
  · -- nothing was sent
    rw [hend] at hrun
    cases hrun
    simp [hsame.transfers] at ht
  · rw [hend] at hrun
    cases hrun
    simp [hsent] at ht
  obtain ⟨res₁, w₂, hexec, hcase⟩ := executeTransfer_world r settlementId env w₁
  rw [hrest, Proc.runWith_catching, Proc.runWith_bind, hexec] at hrun
  have hsame : w'.transfers = w₂.transfers := by
    cases res₁ with
    | ok u => cases hrun; rfl
    | error e =>
      obtain ⟨e', w₃, hfail, htransfers, -⟩ :=
        failSettlement_world r settlementId env w₂ SettlementResult e
      simp only [hfail, Prod.mk.injEq] at hrun
      rw [← hrun.2, htransfers]
  rw [hsame] at ht
  rcases hcase with hnone | ⟨t₁, hid, hamount, ht₁, hdone⟩
  · simp [hnone, hprog.transfers] at ht
  obtain rfl : t₁ = t := by
    rw [ht₁, hprog.transfers] at ht
    simpa using ht
  subst hid
  rw [← completes_iff r env w hprog]
  rcases hdone with ⟨rfl, hcommits⟩ | ⟨e, rfl, hdb, hnot⟩
  · -- TX2 committed: the DEBIT is there
    cases hrun
    refine iff_of_true (.inr ?_) (.inl ⟨_, hcommits⟩)
    obtain ⟨b, db₁, -, hentry, hdone⟩ := (completeSettlementTx_run_eq_ok w₁.db).1 hcommits.2
    obtain ⟨-, -, -, -, rfl⟩ := Db.createBucketLedgerEntry_eq_ok.1 hentry
    obtain ⟨-, -, hdone⟩ := Db.updateSettlement_eq_ok.1 hdone
    refine ⟨_, by rw [hdone, ← hprog.entries], rfl, rfl, ?_⟩
    rw [hamount]
    exact (div_mul_cancel₀ _ (by norm_num)).symm
  · -- TX2 failed: no DEBIT, and the catch block decides about the reservation
    have hfail := reserving_failSettlement_iff r env w hprog hdb e
    obtain ⟨e', w₃, hrun', -, hw₃⟩ :=
      failSettlement_world r t₁.settlementId env w₂ SettlementResult e
    simp only [hrun', Prod.mk.injEq] at hrun
    obtain rfl := hrun.2
    rw [hrun'] at hfail
    have hnodebit : ¬ ∃ e, w₃.db.bucketLedgerEntries = w.db.bucketLedgerEntries ++ [e] ∧
        e.entryType = .debit ∧ e.reference = s!"stl_{t₁.request.merchantTxRef}" ∧
          (e.amountKobo : ℚ) = t₁.request.amount * 100 := by
      rintro ⟨x, hx, -⟩
      have hentries : w₃.db.bucketLedgerEntries = w.db.bucketLedgerEntries := by
        rcases hw₃ with ⟨-, -, data, -, hw₃⟩ | ⟨-, hw₃⟩ <;> simp [hw₃, hdb, hprog.entries]
      simp [hentries] at hx
    unfold AccountedFor
    rw [or_iff_left hnodebit, hfail]
    refine (or_iff_right ?_).symm
    rintro ⟨db, hcommits⟩
    exact hnot db hcommits

end Settle

/-! ### `initiate` -/

section Initiate

variable {bucketRef : String} {dto : CreateSettlementDto} {businessId actor : String}
  {env : Call → Env} {w w' : World} {res : Except Error SettlementResult} {t : ConfirmedTransfer}

/-- The bucket is looked up, and nothing else happens. -/
theorem resolveBucket_world :
    (∃ e w₁, (resolveBucket bucketRef businessId).runWith env w = (.error e, w₁) ∧
      w.SameData w₁) ∨
    ∃ bucket, w.db.findBucket businessId bucketRef = some bucket ∧
      (resolveBucket bucketRef businessId).runWith env w = (.ok bucket, w) := by
  simp only [resolveBucket, find, Proc.bind_eq, Proc.runWith_bind, Proc.runWith_call]
  rcases findStep_cases (fun _ db => db.findBucket businessId bucketRef)
    (env (.findBucket businessId bucketRef)) w with ⟨-, hstep⟩ | ⟨e, w₁, hstep, hsame, -⟩
  · rw [hstep]
    dsimp only
    cases w.db.findBucket businessId bucketRef with
    | none => exact .inl ⟨_, w, rfl, .refl w⟩
    | some bucket => exact .inr ⟨bucket, rfl, rfl⟩
  · rw [hstep]
    exact .inl ⟨e, w₁, rfl, hsame⟩

/-- Before TX1 `initiate` only reads: a run of it throws there, or it is a run of `settle`. -/
theorem initiate_world
    (hrun : (initiate bucketRef dto businessId actor).runWith env w = (res, w')) :
    (∃ e, res = .error e) ∧ w.SameData w' ∨
      ∃ (bucket : TreasuryBucket) (r : SettlementRequest), r.businessId = businessId ∧
        r.bucketRef = bucketRef ∧ dto.amountKobo = r.amountKobo ∧
        w.db.findBucket businessId bucketRef = some bucket ∧
        r.dest = resolveDestination dto bucket ∧ (settle r).runWith env w = (res, w') := by
  rw [initiate, Proc.bind_eq, Proc.runWith_bind] at hrun
  rcases @resolveBucket_world bucketRef businessId env w with ⟨e, w₁, hresolve, hsame⟩ |
    ⟨bucket, hfound, hresolve⟩
  · rw [hresolve] at hrun
    cases hrun
    exact .inl ⟨⟨e, rfl⟩, hsame⟩
  · rw [hresolve] at hrun
    dsimp only at hrun
    split at hrun
    next =>
      cases hrun
      exact .inl ⟨⟨_, rfl⟩, .refl w⟩
    next =>
      unfold bigIntOrThrow at hrun
      cases hn : bigInt dto.amountKobo with
      | error e =>
        rw [hn] at hrun
        cases hrun
        exact .inl ⟨⟨_, rfl⟩, .refl w⟩
      | ok n =>
        rw [hn] at hrun
        exact .inr ⟨bucket, _, rfl, rfl, bigInt_eq_ok.1 hn, hfound, rfl, hrun⟩

/-- A run of `initiate` that sends anything is a run of `settle`. -/
theorem initiate_eq_settle
    (hrun : (initiate bucketRef dto businessId actor).runWith env w = (res, w'))
    (ht : w'.transfers ≠ w.transfers) :
    ∃ r : SettlementRequest, r.businessId = businessId ∧ r.bucketRef = bucketRef ∧
      dto.amountKobo = r.amountKobo ∧ (settle r).runWith env w = (res, w') := by
  rcases initiate_world hrun with ⟨-, hsame⟩ | ⟨_, r, hbusiness, hbucket, hamount, -, -, hsettle⟩
  · exact absurd hsame.transfers ht
  · exact ⟨r, hbusiness, hbucket, hamount, hsettle⟩

end Initiate

/-! ### A confirmed transfer that is not accounted for -/

namespace Sample

/-- Every call succeeds, except that the database is gone when TX2 begins. -/
def lostCompletion : Call → Env
  | .reserve .. => { row := ⟨2, "stl1"⟩ }
  | .bankTransfer _ => { uuid := "0a1b2c3d-0000" }
  | .completeSettlement .. =>
    { fault := some ⟨.prisma "P1001" "Can't reach database server", false⟩ }
  | _ => {}

def lostRun : Except Error SettlementResult × World :=
  (initiate "ops" payout "biz" "key").runWith lostCompletion funded

def lostTransfer : ConfirmedTransfer where
  settlementId := "stl1"
  request := {
    amount := 1000, accountNumber := "0123456789", accountName := "Vendor Ltd", bankCode := "044"
    merchantTxRef := "stl_stl1_0a1b2c3d", narration := none }

end Sample

end AccountOS
