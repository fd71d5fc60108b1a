import AccountOS.Conc.Noted
import AccountOS.Treasury.Correctness.ReservationRelease

/-!
# Where a withdrawal is paid to

`initiate` falls back to the bucket's saved destination for the account number, the bank code and
the account name one by one, and then checks that none of the three is missing or empty.
`initiate_destination`: what `bankTransfer` is called with, whether or not Nomba confirms it, and
what becomes of a withdrawal whose destination stays incomplete. A request that gives only an
account number is paid to that number at the saved bank (`initiate_mixes_destinations`).
-/

namespace AccountOS

open Conc Sql

/-! ### Payees -/

/-- The three details of a bank transfer that say who is paid, as far as they are known. -/
structure Payee where
  accountNumber : Option String
  bankCode : Option String
  accountName : Option String
deriving DecidableEq, Repr

namespace Payee

/-- Field by field, the first one that knows it. -/
def orElse (p p' : Payee) : Payee where
  accountNumber := p.accountNumber <|> p'.accountNumber
  bankCode := p.bankCode <|> p'.bankCode
  accountName := p.accountName <|> p'.accountName

/-- A bank transfer can be made: nothing is missing, and nothing is empty. -/
structure Complete (p : Payee) : Prop where
  accountNumber : (truthy p.accountNumber).isSome
  bankCode : (truthy p.bankCode).isSome
  accountName : (truthy p.accountName).isSome

/-- All three details are given. -/
structure Given (p : Payee) : Prop where
  accountNumber : p.accountNumber.isSome
  bankCode : p.bankCode.isSome
  accountName : p.accountName.isSome

/-- Nothing is known. -/
def unknown : Payee := ⟨none, none, none⟩

variable {p p' : Payee}

theorem orElse_of_given (h : p.Given) : p.orElse p' = p := by
  obtain ⟨hnumber, hcode, hname⟩ := h
  obtain ⟨number, code, name⟩ := p
  obtain ⟨n, rfl⟩ := Option.isSome_iff_exists.1 hnumber
  obtain ⟨c, rfl⟩ := Option.isSome_iff_exists.1 hcode
  obtain ⟨m, rfl⟩ := Option.isSome_iff_exists.1 hname
  rfl

@[simp] theorem unknown_orElse : unknown.orElse p = p := rfl

end Payee

def CreateSettlementDto.payee (dto : CreateSettlementDto) : Payee :=
  ⟨dto.destinationAccountNumber, dto.destinationBankCode, dto.destinationAccountName⟩

def TreasuryBucket.payee (bucket : TreasuryBucket) : Payee :=
  ⟨bucket.settlementAccountNumber, bucket.settlementBankCode, bucket.settlementAccountName⟩

def Destination.payee (dest : Destination) : Payee :=
  ⟨dest.accountNumber, dest.bankCode, dest.accountName⟩

def BankTransferRequest.payee (request : BankTransferRequest) : Payee :=
  ⟨some request.accountNumber, some request.bankCode, some request.accountName⟩

/-- The fallback is made for each field by itself. -/
theorem payee_resolveDestination (dto : CreateSettlementDto) (bucket : TreasuryBucket) :
    (resolveDestination dto bucket).payee = dto.payee.orElse bucket.payee := rfl

/-! ### The requests sent to Nomba -/

/-- The request of a call of `bankTransfer`: what Nomba confirms when the call does not fail. -/
def requestOf : Call → Env → (Env → World → World) → World → List BankTransferRequest
  | .bankTransfer _, env, next, w =>
    ((next { env with fault := none } w).transfers.drop w.transfers.length).map
      ConfirmedTransfer.request
  | _, _, _, _ => []

/-- The requests that `bankTransfer` is called with in a run, whether or not the calls fail. -/
def bankTransfers {α : Type} (env : Call → Env) (p : Action α) (w : World) :
    List BankTransferRequest :=
  p.noted requestOf env w

section Sent

variable (r : SettlementRequest) (settlementId : String) (env : Call → Env) (w : World)

theorem bankTransfers_bankTransfer (request : Env → BankTransferRequest)
    (hrequest : ∀ c : Env, request { c with fault := none } = request c) :
    bankTransfers env (bankTransfer settlementId request) w =
      [request (env (.bankTransfer settlementId))] := by
  unfold bankTransfers bankTransfer
  rw [Proc.noted_call]
  simp [requestOf, hrequest]

theorem bankTransfers_completeSettlement (nombaReference : String) :
    bankTransfers env (completeSettlement r settlementId nombaReference) w = [] := by
  simp only [bankTransfers, completeSettlement, transaction, audit, Proc.bind_eq, Proc.noted_bind,
    Proc.noted_call, requestOf]
  split <;> rfl

theorem bankTransfers_settleInternal (destRef : String) :
    bankTransfers env (settleInternal r settlementId destRef) w = [] := by
  simp only [bankTransfers, settleInternal, transaction, audit, Proc.bind_eq, Proc.noted_bind,
    Proc.noted_call, requestOf]
  split <;> rfl

theorem not_mem_bankTransfers_failSettlement {error : Error} {q : BankTransferRequest} :
    q ∉ bankTransfers env (failSettlement r settlementId error : Action SettlementResult) w := by
  intro hq
  unfold bankTransfers failSettlement at hq
  simp only [statement, audit, Proc.bind_eq, Proc.mem_noted_bind, Proc.mem_noted_catching,
    Proc.noted_call, requestOf, Proc.pure_eq, Proc.noted_ret, List.not_mem_nil, false_or,
    and_false, exists_false] at hq
  obtain ⟨u, w₁, -, u', w₂, -, hq⟩ := hq
  split at hq
  next => simp at hq
  next => simp at hq

/-- **Who is paid**: the resolved destination, when nothing of it is missing or empty. -/
theorem payee_of_mem_executeTransfer {q : BankTransferRequest}
    (hq : q ∈ bankTransfers env (executeTransfer r settlementId) w) :
    q.payee = r.dest.payee ∧ r.dest.payee.Complete ∧ r.dest.type ≠ "INTERNAL_BUCKET" := by
  unfold executeTransfer at hq
  split at hq
  next hinternal =>
    cases hdest : truthy r.dest.bucketRef with
    | none =>
      rw [hdest] at hq
      cases hq
    | some destRef =>
      rw [hdest] at hq
      dsimp only at hq
      rw [bankTransfers_settleInternal] at hq
      cases hq
  next hexternal =>
    split at hq
    next accountNumber bankCode accountName hnumber hcode hname =>
      have hsent : q = nombaRequest r settlementId accountNumber bankCode accountName
          (env (.bankTransfer settlementId)) := by
        unfold bankTransfers at hq
        rw [Proc.bind_eq, Proc.mem_noted_bind] at hq
        rcases hq with hq | ⟨sent, w₁, -, hq⟩
        · have hone := bankTransfers_bankTransfer settlementId env w
            (nombaRequest r settlementId accountNumber bankCode accountName) fun _ => rfl
          unfold bankTransfers at hone
          rw [hone] at hq
          exact List.mem_singleton.1 hq
        · -- TX2 comes after the call, and sends nothing
          have hnone := bankTransfers_completeSettlement r settlementId env w₁ sent.merchantTxRef
          unfold bankTransfers at hnone
          rw [hnone] at hq
          cases hq
      have hdest : r.dest.payee = ⟨some accountNumber, some bankCode, some accountName⟩ := by
        unfold Destination.payee
        rw [truthy_eq_some hnumber, truthy_eq_some hcode, truthy_eq_some hname]
      refine ⟨by rw [hdest, hsent]; rfl, ⟨?_, ?_, ?_⟩, hexternal⟩
      · exact Option.isSome_of_eq_some hnumber
      · exact Option.isSome_of_eq_some hcode
      · exact Option.isSome_of_eq_some hname
    next => cases hq

theorem payee_of_mem_settle {q : BankTransferRequest}
    (hq : q ∈ bankTransfers env (settle r) w) :
    q.payee = r.dest.payee ∧ r.dest.payee.Complete ∧ r.dest.type ≠ "INTERNAL_BUCKET" := by
  unfold bankTransfers settle at hq
  simp only [reserve, transaction, statement, Proc.bind_eq, Proc.mem_noted_bind, Proc.noted_call,
    requestOf, List.not_mem_nil, false_or] at hq
  obtain ⟨s, w₁, -, u, w₂, -, hq⟩ := hq
  rw [Proc.mem_noted_catching, Proc.mem_noted_bind] at hq
  rcases hq with (hq | ⟨u', w₃, -, hq⟩) | ⟨e, w₃, -, hq⟩
  · exact payee_of_mem_executeTransfer r s.id env w₂ hq
  · cases hq
  · exact absurd hq (not_mem_bankTransfers_failSettlement r s.id env w₃)

end Sent

/-! ### An incomplete destination -/

section Incomplete

variable {r : SettlementRequest} {env : Call → Env} {w w' : World}
  {res : Except Error SettlementResult} (hexternal : r.dest.type ≠ "INTERNAL_BUCKET")
  (hincomplete : ¬ r.dest.payee.Complete)
include hexternal hincomplete

/-- The check of the three details throws. -/
theorem executeTransfer_incomplete (settlementId : String) :
    ∃ e, (executeTransfer r settlementId).runWith env w = (.error e, w) := by
  unfold executeTransfer
  rw [if_neg hexternal]
  split
  next accountNumber bankCode accountName hnumber hcode hname =>
    refine absurd ⟨?_, ?_, ?_⟩ hincomplete
    · exact Option.isSome_of_eq_some hnumber
    · exact Option.isSome_of_eq_some hcode
    · exact Option.isSome_of_eq_some hname
  next => exact ⟨_, rfl⟩

/-- From TX1 on, nothing moves. -/
theorem settle_incomplete (hrun : (settle r).runWith env w = (res, w')) :
    (∃ e, res = .error e) ∧ w'.transfers = w.transfers ∧
      w'.db.bucketLedgerEntries = w.db.bucketLedgerEntries := by
  rcases settle_world r env w with ⟨e, w₀, hend, hsame⟩ | ⟨e, w₀, s, hend, hsent, hdb, -⟩ |
    ⟨settlementId, w₁, hprog, -, hrest⟩
  · rw [hend] at hrun
    cases hrun
    exact ⟨⟨e, rfl⟩, hsame.transfers, congrArg Db.bucketLedgerEntries hsame.db⟩
  · rw [hend] at hrun
    cases hrun
    exact ⟨⟨e, rfl⟩, hsent, by rw [hdb]⟩
  · -- the check is made after the settlement has been marked PROCESSING, in the try block
    obtain ⟨e, hexec⟩ := executeTransfer_incomplete hexternal hincomplete settlementId
    obtain ⟨e', w₂, hfail, htransfers, hcase⟩ :=
      failSettlement_world r settlementId env w₁ SettlementResult e
    rw [hrest, Proc.runWith_catching, Proc.runWith_bind, hexec] at hrun
    dsimp only at hrun
    rw [hfail] at hrun
    cases hrun
    have hentries : w'.db.bucketLedgerEntries = w₁.db.bucketLedgerEntries := by
      rcases hcase with ⟨-, -, data, -, hdb⟩ | ⟨-, hdb⟩
      · rw [hdb]
      · rw [hdb]
    exact ⟨⟨e', rfl⟩, htransfers.trans hprog.transfers, hentries.trans hprog.entries⟩

end Incomplete

/-! ### `initiate` -/

section Initiate

variable {bucketRef : String} {dto : CreateSettlementDto} {businessId actor : String}
  {env : Call → Env} {w w' : World} {res : Except Error SettlementResult} {bucket : TreasuryBucket}

theorem not_mem_bankTransfers_resolveBucket {q : BankTransferRequest} :
    q ∉ bankTransfers env (resolveBucket bucketRef businessId) w := by
  intro hq
  unfold bankTransfers resolveBucket at hq
  simp only [find, Proc.bind_eq, Proc.mem_noted_bind, Proc.noted_call, requestOf,
    List.not_mem_nil, false_or] at hq
  obtain ⟨found, w₁, -, hq⟩ := hq
  cases found with
  | none => cases hq
  | some b => cases hq

variable (hb : w.db.findBucket businessId bucketRef = some bucket)
include hb

theorem payee_of_mem_initiate {q : BankTransferRequest}
    (hq : q ∈ bankTransfers env (initiate bucketRef dto businessId actor) w) :
    q.payee = dto.payee.orElse bucket.payee ∧ (dto.payee.orElse bucket.payee).Complete ∧
      (resolveDestination dto bucket).type ≠ "INTERNAL_BUCKET" := by
  unfold bankTransfers initiate at hq
  rw [Proc.bind_eq, Proc.mem_noted_bind] at hq
  rcases hq with hq | ⟨b, w₁, hresolve, hq⟩
  · exact absurd hq not_mem_bankTransfers_resolveBucket
  have hfound : b = bucket := by
    rcases @resolveBucket_world bucketRef businessId env w with ⟨e, w₂, hthrown, -⟩ |
      ⟨b', hb', hresolved⟩
    · rw [hthrown] at hresolve
      cases hresolve
    · rw [hresolved] at hresolve
      cases hresolve
      exact Option.some.inj (hb'.symm.trans hb)
  rw [hfound] at hq
  split at hq
  next => cases hq
  next =>
    unfold bigIntOrThrow at hq
    cases hn : bigInt dto.amountKobo with
    | error e =>
      rw [hn] at hq
      cases hq
    | ok n =>
      rw [hn] at hq
      exact payee_of_mem_settle _ env w₁ hq

/-- **Where a withdrawal is paid to.** Each detail that `bankTransfer` is called with is the
request's where the request gives it, and else the bucket's; a withdrawal to a bank that lacks a
detail then is rejected before anything moves, and its settlement is released when its two updates
go through. -/
theorem initiate_destination
    (hrun : (initiate bucketRef dto businessId actor).runWith env w = (res, w')) :
    (∀ q ∈ bankTransfers env (initiate bucketRef dto businessId actor) w,
      q.payee = dto.payee.orElse bucket.payee ∧ (dto.payee.Given → q.payee = dto.payee) ∧
        (dto.payee = .unknown → q.payee = bucket.payee)) ∧
    ((resolveDestination dto bucket).type ≠ "INTERNAL_BUCKET" →
      ¬ (dto.payee.orElse bucket.payee).Complete →
      bankTransfers env (initiate bucketRef dto businessId actor) w = [] ∧
        (∃ e, res = .error e) ∧ w'.transfers = w.transfers ∧
        w'.db.bucketLedgerEntries = w.db.bucketLedgerEntries ∧
        ∀ s ∈ w'.db.settlements, (∀ x ∈ w.db.settlements, x.id ≠ s.id) →
          (env (.updateSettlement s.id .processing)).fault = none →
          (env (.updateSettlement s.id .failed)).fault = none → Released w w' s.id) := by
  have hpayee := fun q (hq : q ∈ bankTransfers env (initiate bucketRef dto businessId actor) w) =>
    payee_of_mem_initiate hb hq
  refine ⟨fun q hq => ?_, fun hexternal hincomplete => ?_⟩
  · obtain ⟨hq, -, -⟩ := hpayee q hq
    refine ⟨hq, fun hgiven => ?_, fun hunknown => ?_⟩
    · rw [hq, Payee.orElse_of_given hgiven]
    · rw [hq, hunknown, Payee.unknown_orElse]
  · refine ⟨List.eq_nil_iff_forall_not_mem.2 fun q hq => hincomplete (hpayee q hq).2.1, ?_⟩
    rcases initiate_world hrun with ⟨herror, hsame⟩ | ⟨b, r, -, -, -, hb', hdest, hsettle⟩
    · -- TX1 has not begun: there is no new settlement
      refine ⟨herror, hsame.transfers, congrArg Db.bucketLedgerEntries hsame.db, ?_⟩
      intro s hs hnew
      rw [hsame.db] at hs
      exact absurd rfl (hnew s hs)
    · obtain rfl := Option.some.inj (hb.symm.trans hb')
      have hexternal' : r.dest.type ≠ "INTERNAL_BUCKET" := by
        rw [hdest]
        exact hexternal
      have hincomplete' : ¬ r.dest.payee.Complete := by
        rw [hdest, payee_resolveDestination]
        exact hincomplete
      obtain ⟨⟨e, rfl⟩, hsent, hentries⟩ :=
        settle_incomplete hexternal' hincomplete' hsettle
      refine ⟨⟨e, rfl⟩, hsent, hentries, fun s hs hnew hprocessing hfailed => ?_⟩
      exact (settle_released_iff hsettle hs hnew hsent hfailed).2 hprocessing

end Initiate

/-! ### A request with an account number only -/

namespace Sample

def savedBucket : TreasuryBucket where
  id := "bkt1"
  bucketRef := "ops"
  businessId := "biz"
  settlementType := some .bankAccount
  settlementAccountName := some "AjoApp Payroll"
  settlementAccountNumber := some "9998887776"
  settlementBankCode := some "058"

def savedWorld : World :=
  { funded with db := { funded.db with treasuryBuckets := [savedBucket] } }

def numberOnly : CreateSettlementDto where
  amountKobo := 100000
  destinationAccountNumber := some "0123456789"
  one_le_amountKobo := payout.one_le_amountKobo

end Sample

/-- A bucket that has saved nothing: the withdrawal is rejected, and its settlement is released. -/
theorem initiate_destination_rejected :
    bankTransfers (fun _ => {}) (initiate "ops" Sample.numberOnly "biz" "key") Sample.funded = [] ∧
      ∃ e w', (initiate "ops" Sample.numberOnly "biz" "key").runWith (fun _ => {}) Sample.funded =
        (.error e, w') ∧ ∃ s ∈ w'.db.settlements, Released Sample.funded w' s.id := by
  have hb : Sample.funded.db.findBucket "biz" "ops" = some Sample.bucket := by decide +kernel
  have hexternal :
      (resolveDestination Sample.numberOnly Sample.bucket).type ≠ "INTERNAL_BUCKET" := by
    decide +kernel
  have hincomplete : ¬ (Sample.numberOnly.payee.orElse Sample.bucket.payee).Complete := by
    rintro ⟨-, hcode, -⟩
    cases hcode
  obtain ⟨hsent, ⟨e, he⟩, -, -, hreleased⟩ := (@initiate_destination "ops" Sample.numberOnly "biz"
    "key" (fun _ => {}) Sample.funded _ _ Sample.bucket hb rfl).2 hexternal hincomplete
  have hsettlement : ∃ s ∈ ((initiate "ops" Sample.numberOnly "biz" "key").runWith (fun _ => {})
      Sample.funded).2.db.settlements, s.amountKobo = 100000 := by decide +kernel
  obtain ⟨s, hs, -⟩ := hsettlement
  refine ⟨hsent, e, _, Prod.ext he rfl, s, hs, hreleased s hs ?_ rfl rfl⟩
  exact fun x hx => absurd hx List.not_mem_nil

/-- The account of the request is paid at the bank, and in the name, of the saved one. -/
theorem initiate_mixes_destinations :
    ∃ q ∈ bankTransfers (fun _ => {}) (initiate "ops" Sample.numberOnly "biz" "key")
        Sample.savedWorld,
      q.payee = ⟨some "0123456789", some "058", some "AjoApp Payroll"⟩ ∧
        q.payee ≠ Sample.numberOnly.payee ∧ q.payee ≠ Sample.savedBucket.payee := by
  refine ⟨{ amount := 1000, accountNumber := "0123456789", accountName := "AjoApp Payroll",
            bankCode := "058", merchantTxRef := "stl__", narration := none }, ?_, ?_⟩
  · decide +kernel
  · decide +kernel

end AccountOS
