import AccountOS.Treasury.Correctness.SettlementOutcome

/-!
# When a failed settlement gives its reservation back

TX1 commits a `PENDING` settlement, and from then on only the catch block of `initiate` releases the
amount. The catch block covers the try block, but the update to `PROCESSING` stands between TX1 and
the try: an error there is thrown past it, and the settlement stays `PENDING`. The headline result,
`initiate_released_iff`: a call that has passed TX1 and thrown, with nothing confirmed by Nomba,
leaves no trace but a FAILED settlement if and only if the update to `PROCESSING` went through.

As in `SettlementOutcome`, `initiate` is run alone, from any state.
-/

namespace AccountOS

open Conc Sql

/-! ### The property -/

/-- Between `w` and `w'` the settlement has failed and given back what it had reserved: it is FAILED,
every bucket reserves what it did, and nothing was written to the books. -/
structure Released (w w' : World) (settlementId : String) : Prop where
  failed : ∃ s ∈ w'.db.settlements, s.id = settlementId ∧ s.status = .failed
  reservedKobo : ∀ bucketId, w'.db.reservedKobo bucketId = w.db.reservedKobo bucketId
  entries : w'.db.bucketLedgerEntries = w.db.bucketLedgerEntries

/-- A settlement that reserves nothing does not count. -/
theorem Db.reservedKobo_append_of_not_reserving {db : Db} {s : Settlement}
    (hs : ¬ s.status.Reserving) (bucketId : String) :
    ({ db with settlements := db.settlements ++ [s] } : Db).reservedKobo bucketId
      = db.reservedKobo bucketId := by
  unfold Db.reservedKobo
  rw [sumWhere_append, sumWhere_cons, if_neg fun h => hs h.2, sumWhere_nil, add_zero, add_zero]

/-! ### The try block -/

section TryBlock

variable (r : SettlementRequest) (settlementId : String) (env : Call → Env) (w : World)

/-- The transaction of an internal settlement commits, or nothing happens. -/
theorem settleInternal_thrown {destRef : String} {e : Error} {w' : World}
    (hrun : (settleInternal r settlementId destRef).runWith env w = (.error e, w')) :
    w'.db = w.db := by
  simp only [settleInternal, transaction, audit, Proc.bind_eq, Proc.runWith_bind,
    Proc.runWith_call] at hrun
  rcases transactionStep_cases (settleInternalTx r settlementId destRef) logsOnly_nothing
    (env (.settleInternal r.businessId r.bucketRef destRef settlementId r.amountKobo)) w with
      ⟨ref, db, -, -, hstep⟩ | ⟨e', w₁, hstep, hthrown⟩
  · rw [hstep] at hrun
    cases hrun
  · rw [hstep] at hrun
    cases hrun
    exact hthrown.same.db

/-- A try block that throws with nothing confirmed has not changed the data. -/
theorem executeTransfer_thrown {e : Error} {w' : World}
    (hrun : (executeTransfer r settlementId).runWith env w = (.error e, w'))
    (hunsent : w'.transfers = w.transfers) : w'.db = w.db := by
  unfold executeTransfer at hrun
  split at hrun
  next hinternal =>
    cases hdest : truthy r.dest.bucketRef with
    | none =>
      rw [hdest] at hrun
      cases hrun
      rfl
    | some destRef =>
      rw [hdest] at hrun
      exact settleInternal_thrown r settlementId env w hrun
  next hexternal =>
    split at hrun
    next accountNumber bankCode accountName _ _ _ =>
      rw [Proc.bind_eq, Proc.runWith_bind, bankTransfer, Proc.runWith_call] at hrun
      cases hf : (env (.bankTransfer settlementId)).fault with
      | some f =>
        rw [hf] at hrun
        cases hrun
        rfl
      | none =>
        -- Nomba has confirmed, and nothing takes that back
        rw [hf] at hrun
        dsimp only at hrun
        obtain ⟨res, w₁, hrun₁, htransfers, -⟩ := completeSettlement_world r settlementId env
          { w with transfers := w.transfers ++ [⟨settlementId, nombaRequest r settlementId
            accountNumber bankCode accountName (env (.bankTransfer settlementId))⟩] }
          (nombaRequest r settlementId accountNumber bankCode accountName
            (env (.bankTransfer settlementId))).merchantTxRef
        rw [hrun₁] at hrun
        cases hrun
        rw [htransfers] at hunsent
        simp at hunsent
    next =>
      cases hrun
      rfl

end TryBlock

/-! ### From TX1 on -/

section Settle

variable {r : SettlementRequest} {env : Call → Env} {w : World}

/-- The catch block releases a settlement in progress, unless its update fails. -/
theorem released_failSettlement {settlementId : String} {w₁ w₂ : World}
    (h : InProgress r w settlementId w₁) (hdb : w₂.db = w₁.db)
    (hf : (env (.updateSettlement settlementId .failed)).fault = none) (error : Error) :
    Released w ((failSettlement r settlementId error : Action SettlementResult).runWith env w₂).2
      settlementId := by
  obtain ⟨s, hs, hid, -⟩ := h.settlements
  obtain ⟨e, w', hrun, -, hcase⟩ :=
    failSettlement_world r settlementId env w₂ SettlementResult error
  rw [hrun]
  rcases hcase with ⟨-, -, data, hfailed, hw'⟩ | ⟨hnone, -⟩
  · have hsettlements : w'.db.settlements = w.db.settlements ++ [data.set s] := by
      rw [hw', hdb, hs]
      exact updateRow_append_singleton h.fresh hid
    have hstatus : (data.set s).status = .failed := hfailed
    refine ⟨⟨data.set s, ?_, hid, hstatus⟩, fun bucketId => ?_, ?_⟩
    · rw [hsettlements]
      exact List.mem_append_right _ (List.mem_singleton_self _)
    · have hreserving : ¬ (data.set s).status.Reserving := by
        rw [hstatus]
        decide
      show sumWhere _ Settlement.amountKobo w'.db.settlements = _
      rw [hsettlements]
      exact Db.reservedKobo_append_of_not_reserving hreserving bucketId
    · rw [hw']
      exact (congrArg Db.bucketLedgerEntries hdb).trans h.entries
  · -- without a fault the update goes through: the settlement is there
    have hmem : s ∈ w₂.db.settlements := by
      rw [hdb, hs]
      exact List.mem_append_right _ (List.mem_singleton_self _)
    exact absurd hid (hnone hf s hmem)

/-- **A reservation is released exactly when the settlement was marked PROCESSING.** -/
theorem settle_released_iff {e : Error} {w' : World} {s : Settlement}
    (hrun : (settle r).runWith env w = (.error e, w')) (hs : s ∈ w'.db.settlements)
    (hnew : ∀ x ∈ w.db.settlements, x.id ≠ s.id) (hunsent : w'.transfers = w.transfers)
    (hf : (env (.updateSettlement s.id .failed)).fault = none) :
    Released w w' s.id ↔ (env (.updateSettlement s.id .processing)).fault = none := by
  have hadded : ∀ {t : Settlement}, s ∈ w.db.settlements ++ [t] → s = t := by
    intro t hmem
    rcases List.mem_append.1 hmem with hold | hlast
    · exact absurd rfl (hnew s hold)
    · exact List.mem_singleton.1 hlast
  rcases settle_world r env w with ⟨e₀, w₀, hend, hsame⟩ | ⟨e₀, w₀, t, hend, -, hdb, -, hpending, hp⟩ |
    ⟨settlementId, w₁, hprog, hp, hrest⟩
  · -- TX1 threw: there is no new settlement
    rw [hend] at hrun
    cases hrun
    rw [hsame.db] at hs
    exact absurd rfl (hnew s hs)
  · -- the update threw, outside of the try block: the settlement stays PENDING
    rw [hend] at hrun
    cases hrun
    obtain rfl : s = t := hadded (by rw [hdb] at hs; exact hs)
    refine iff_of_false (fun h => ?_) hp
    obtain ⟨x, hx, hid, hfailed⟩ := h.failed
    rw [hdb] at hx
    rcases List.mem_append.1 hx with hold | hlast
    · exact hnew x hold hid
    · rw [List.mem_singleton.1 hlast, hpending] at hfailed
      cases hfailed
  · rw [hrest, Proc.runWith_catching, Proc.runWith_bind] at hrun
    obtain ⟨res, w₂, hexec, -⟩ := executeTransfer_world r settlementId env w₁
    rw [hexec] at hrun
    cases res with
    | ok u => cases hrun
    | error e₁ =>
      obtain ⟨e₂, w₃, hfail, htransfers, hcase⟩ :=
        failSettlement_world r settlementId env w₂ SettlementResult e₁
      simp only [hfail] at hrun
      cases hrun
      have hsent : w₂.transfers = w₁.transfers := by
        rw [hprog.transfers, ← htransfers, hunsent]
      have hdb : w₂.db = w₁.db := executeTransfer_thrown r settlementId env w₁ hexec hsent
      have hid : s.id = settlementId := by
        obtain ⟨t, ht, hid, -⟩ := hprog.settlements
        rcases hcase with ⟨-, -, data, -, hw'⟩ | ⟨-, hw'⟩
        · rw [hw', hdb, ht, updateRow_append_singleton hprog.fresh hid] at hs
          rw [hadded hs]
          exact hid
        · rw [hw', hdb, ht] at hs
          rw [hadded hs]
          exact hid
      subst hid
      have hreleased := released_failSettlement hprog hdb hf e₁
      rw [hfail] at hreleased
      exact iff_of_true hreleased hp

end Settle

/-! ### `initiate` -/

section Initiate

variable {bucketRef : String} {dto : CreateSettlementDto} {businessId actor : String}
  {env : Call → Env} {w w' : World} {e : Error} {s : Settlement}

/-- **When a failed settlement gives its reservation back.** For every state, request and choice of
the environment: if `initiate` has created the settlement `s` and thrown, with no transfer confirmed
and the database there for the catch block, then the settlement is released exactly when the update
to `PROCESSING` did not fail. -/
theorem initiate_released_iff
    (hrun : (initiate bucketRef dto businessId actor).runWith env w = (.error e, w'))
    (hs : s ∈ w'.db.settlements) (hnew : ∀ x ∈ w.db.settlements, x.id ≠ s.id)
    (hunsent : w'.transfers = w.transfers)
    (hf : (env (.updateSettlement s.id .failed)).fault = none) :
    Released w w' s.id ↔ (env (.updateSettlement s.id .processing)).fault = none := by
  rcases initiate_world hrun with ⟨-, hsame⟩ | ⟨-, r, -, -, -, -, -, hsettle⟩
  · rw [hsame.db] at hs
    exact absurd rfl (hnew s hs)
  · exact settle_released_iff hsettle hs hnew hunsent hf

end Initiate

/-! ### A reservation that stays -/

namespace Sample

/-- Every call succeeds, except that the database is gone for the update to `PROCESSING`. -/
def lostProcessing : Call → Env
  | .reserve .. => { row := ⟨2, "stl1"⟩ }
  | .updateSettlement _ .processing =>
    { fault := some ⟨.prisma "P1001" "Can't reach database server", false⟩ }
  | _ => {}

def strandedRun : Except Error SettlementResult × World :=
  (initiate "ops" payout "biz" "key").runWith lostProcessing funded

/-- The settlement of the run. -/
def stranded : Settlement where
  id := "stl1"
  createdAt := 2
  bucketId := "bkt1"
  businessId := "biz"
  amountKobo := 100000
  status := .pending
  destinationType := .bankAccount
  destinationAccountName := some "Vendor Ltd"
  destinationAccountNumber := some "0123456789"
  destinationBankCode := some "044"
  initiatedBy := "key"

/-- What is thrown, and where the run ends. -/
theorem strandedRun_eq : ∃ e w', strandedRun = (.error e, w') ∧ stranded ∈ w'.db.settlements ∧
    w'.transfers = [] := by
  exact ⟨_, _, rfl, by decide, rfl⟩

end Sample

/-- The characterisation at a run whose update to `PROCESSING` fails. -/
theorem initiate_released_iff_stranded : ∃ e w',
    Sample.strandedRun = (.error e, w') ∧ (Released Sample.funded w' Sample.stranded.id ↔
      (Sample.lostProcessing (.updateSettlement Sample.stranded.id .processing)).fault = none) := by
  obtain ⟨e, w', hrun, hs, hsent⟩ := Sample.strandedRun_eq
  refine ⟨e, w', hrun, initiate_released_iff hrun hs ?_ hsent rfl⟩
  exact fun x hx => absurd hx List.not_mem_nil

/-- The one failing step is the update to `PROCESSING`: the call throws with nothing confirmed, and
the settlement stays `PENDING` and reserves ₦1,000.00. -/
theorem initiate_strands_reservation : ∃ e w',
    Sample.strandedRun = (.error e, w') ∧ Sample.stranded ∈ w'.db.settlements ∧
      w'.transfers = [] ∧ Sample.funded.db.reservedKobo "bkt1" = 0 ∧
      w'.db.reservedKobo "bkt1" = 100000 ∧
      (∀ l, (Sample.lostProcessing l).fault ≠ none → ∃ id, l = .updateSettlement id .processing) ∧
      ¬ Released Sample.funded w' Sample.stranded.id := by
  refine ⟨_, _, rfl, by decide, rfl, by decide, by decide, ?_, ?_⟩
  · intro l hl
    unfold Sample.lostProcessing at hl
    split at hl
    next => exact absurd rfl hl
    next id => exact ⟨id, rfl⟩
    next => exact absurd rfl hl
  · rintro ⟨-, hreserved, -⟩
    exact absurd (hreserved "bkt1") (by decide)

end AccountOS
