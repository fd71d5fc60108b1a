import AccountOS.Store.Rules
import AccountOS.Treasury.Operations

/-!
# Walking through the treasury operations

A protocol about the treasury has to follow every operation call by call. This file does that
once. `SettlementSteps` lists what a protocol has to show of each call of a settlement that takes
effect; `TreasurySteps` does so for all operations of the treasury, for protocols whose ghost is
nothing but the settlement that a thread is in the middle of, and `TreasurySteps.wp_runAll`
concludes that every operation keeps the protocol's invariant.
-/

namespace AccountOS

open Conc Sql

variable {ι γ : Type} [DecidableEq ι]

/-! ### Crediting a bucket -/

section Credit

variable {P : Protocol ι World Env Call γ} {i : ι} {g : γ} {E : Error → γ → Prop}

/-- Retrying a transaction that keeps its ghost when it fails. -/
theorem wp_runSerializable {fn : Action Int} {Q : Int → γ → Prop} (hE : ∀ e, E e g)
    (h : fn.Wp P i Q (fun _ g' => g' = g) g) (retries : Nat) :
    (runSerializable fn retries).Wp P i Q E g := by
  induction retries with
  | zero =>
    refine h.mono (fun _ _ hQ => hQ) ?_
    rintro e g' rfl
    exact hE e
  | succ retries ih =>
    refine Proc.Wp.catching (h.mono (fun _ _ hQ => hQ) ?_)
    rintro e g' rfl
    split
    · exact ih
    · exact hE e

/-- A credit is one transaction, tried a few times. -/
theorem wp_credit (hP : Quiet P) {p : CreditParams} {Q : Int → γ → Prop} (hE : ∀ e, E e g)
    (hok : ∀ G hist w env a db w', G i = g → P.inv G hist w →
      P.allowed (.credit p.bucketId p.reference p.amountKobo) env w w' →
      (creditTx p env.row).run schema w.db = .ok (a, db) → w' = { w with db } →
      ∃ g', P.inv (Function.update G i g')
        (hist ++ [⟨i, .credit p.bucketId p.reference p.amountKobo, env, w, w'⟩]) w' ∧ Q a g') :
    (AccountOS.credit p).Wp P i Q E g := by
  refine Proc.Wp.bind (wp_runSerializable hE ?_ _)
  refine wp_transaction hP logsOnly_nothing ?_ fun _ _ _ _ _ _ _ _ _ _ => rfl
  intro G hist w env a db w' hG hinv hallowed hf hrun hw'
  obtain ⟨g', hinv', hQ⟩ := hok G hist w env a db w' hG hinv hallowed hrun hw'
  exact ⟨g', hinv', Proc.Wp.bind (wp_audit hP hQ)⟩

end Credit

/-! ### Transfers -/

/-- A transfer is one transaction, between two different buckets. -/
theorem wp_transferBetweenBuckets {P : Protocol ι World Env Call γ} {i : ι} {g : γ} (hP : Quiet P)
    {src : String} {dto : TransferBucketDto} {biz actor : String}
    (hok : ∀ amount G hist w env a db w', src ≠ dto.destinationBucketRef → 0 < amount →
      P.inv G hist w →
      P.allowed (.transferBetweenBuckets biz src dto.destinationBucketRef amount) env w w' →
      (transferTx src dto.destinationBucketRef biz amount (some dto.narration) env).run schema
          w.db =
        .ok (a, db) → w' = { w with db } →
      ∃ g', P.inv (Function.update G i g') (hist ++ [⟨i,
        .transferBetweenBuckets biz src dto.destinationBucketRef amount, env, w, w'⟩]) w') :
    (AccountOS.transferBetweenBuckets src dto biz actor).Wp P i (fun _ _ => True)
      (fun _ _ => True) g := by
  unfold AccountOS.transferBetweenBuckets
  split
  next => trivial
  next hne =>
    refine Proc.Wp.bind (wp_bigIntOrThrow (fun amount hamount => ?_) fun _ => trivial)
    have hpos : 0 < amount := by
      have := dto.one_le_amountKobo
      rw [hamount] at this
      exact_mod_cast lt_of_lt_of_le one_pos this
    refine Proc.Wp.bind (wp_transaction hP logsOnly_nothing ?_ fun _ _ _ _ _ _ _ _ _ _ => trivial)
    intro G hist w env a db w' hG hinv hallowed hf hrun hw'
    obtain ⟨g', hinv'⟩ := hok amount G hist w env a db w' (fun h => hne h.symm) hpos hinv hallowed
      hrun hw'
    exact ⟨g', hinv', Proc.Wp.bind (wp_audit hP trivial)⟩

/-! ### Settlements -/

/-- What a protocol has to show of thread `i` executing a settlement. `Ready b` holds when the
request has found its bucket, `Held r id` between TX1 and Nomba's answer, and `Paid r id` between
Nomba's answer and TX2. The catch block can be reached from both; `paidMayFail` says whether the
protocol allows a failure after the answer. -/
structure SettlementSteps (P : Protocol ι World Env Call γ) (i : ι) where
  Ready : String → String → γ → Prop
  Held : SettlementRequest → String → γ → Prop
  Paid : SettlementRequest → String → γ → Prop
  paidMayFail : Prop
  quiet : Quiet P
  found : ∀ {biz ref bucket G hist w}, P.inv G hist w → w.db.findBucket biz ref = some bucket →
    bucket.status = .active → Ready biz ref (G i)
  reserve : ∀ {r : SettlementRequest} {l G hist w env s db w'}, 0 < r.amountKobo →
    l = .reserve r.businessId r.bucketRef r.amountKobo → Ready r.businessId r.bucketRef (G i) →
    P.inv G hist w → P.allowed l env w w' →
    (reserveTx r env).run schema w.db = .ok (s, db) →
    w' = { w.log env (r.reservedAudit s) with db } →
    ∃ g, P.inv (Function.update G i g) (hist ++ [⟨i, l, env, w, w'⟩]) w' ∧ Held r s.id g
  processing : ∀ {r id l G hist w env db w'}, l = .updateSettlement id .processing →
    Held r id (G i) → P.inv G hist w → P.allowed l env w w' →
    w.db.updateSettlement id { status := .processing } = .ok db → w' = { w with db } →
    ∃ g, P.inv (Function.update G i g) (hist ++ [⟨i, l, env, w, w'⟩]) w' ∧ Held r id g
  sent : ∀ {r id} {request : BankTransferRequest} {l G hist w env w'}, l = .bankTransfer id →
    Held r id (G i) → P.inv G hist w → P.allowed l env w w' →
    request.amount = (r.amountKobo : ℚ) / 100 → r.dest.type ≠ "INTERNAL_BUCKET" →
    w' = { w with transfers := w.transfers ++ [⟨id, request⟩] } →
    ∃ g, P.inv (Function.update G i g) (hist ++ [⟨i, l, env, w, w'⟩]) w' ∧ Paid r id g
  completed : ∀ {r id ref u l G hist w env db w'},
    l = .completeSettlement r.businessId r.bucketRef id r.amountKobo → Paid r id (G i) →
    P.inv G hist w → P.allowed l env w w' →
    (completeSettlementTx r id ref env).run schema w.db = .ok (u, db) → w' = { w with db } →
    ∃ g, P.inv (Function.update G i g) (hist ++ [⟨i, l, env, w, w'⟩]) w'
  thrown : ∀ {r id ref e l G hist w env w'},
    l = .completeSettlement r.businessId r.bucketRef id r.amountKobo → Paid r id (G i) →
    P.inv G hist w → P.allowed l env w w' → Thrown (completeSettlementTx r id ref) env w e w' →
    paidMayFail
  settledInternally : ∀ {r id destRef ref l G hist w env db w'},
    l = .settleInternal r.businessId r.bucketRef destRef id r.amountKobo → Held r id (G i) →
    P.inv G hist w → P.allowed l env w w' →
    (settleInternalTx r id destRef env).run schema w.db = .ok (ref, db) →
    r.dest.type = "INTERNAL_BUCKET" → truthy r.dest.bucketRef = some destRef →
    w' = { w with db } →
    ∃ g, P.inv (Function.update G i g) (hist ++ [⟨i, l, env, w, w'⟩]) w'
  failed : ∀ {r id data l G hist w env db w'}, l = .updateSettlement id .failed →
    (Held r id (G i) ∨ paidMayFail ∧ Paid r id (G i)) → P.inv G hist w → P.allowed l env w w' →
    data.status = .failed → data.nombaTransferReference = none →
    w.db.updateSettlement id data = .ok db → w' = { w with db } →
    ∃ g, P.inv (Function.update G i g) (hist ++ [⟨i, l, env, w, w'⟩]) w'

namespace SettlementSteps

variable {P : Protocol ι World Env Call γ} {i : ι} (S : SettlementSteps P i)
include S

/-- Where the catch block can be reached from. -/
def MayFail (r : SettlementRequest) (id : String) (g : γ) : Prop :=
  S.Held r id g ∨ S.paidMayFail ∧ S.Paid r id g

variable {r : SettlementRequest} {id : String} {g : γ}

/-- The catch block, from a settlement that may fail. -/
theorem wp_failSettlement (hg : S.MayFail r id g) (error : Error) :
    (failSettlement r id error : Action SettlementResult).Wp P i (fun _ _ => True)
      (fun _ _ => True) g := by
  have haudit : ∀ g', (((audit {
      actor := "system"
      action := .settlementFailed
      businessId := some r.businessId
      metadata := [
        ("settlementId", .str id),
        ("bucketRef", .str r.bucketRef),
        ("amountKobo", .num r.required),
        ("error", .str error.message)] }).bind fun _ =>
      if error.isHttp then throw error
      else throw (.http 502 "Settlement failed: Nomba API error" "NOMBA_API_ERROR"
        [("settlementId", .str id), ("error", .str error.message)])) :
        Action SettlementResult).Wp P i (fun _ _ => True) (fun _ _ => True) g' := by
    intro g'
    refine Proc.Wp.bind (wp_audit S.quiet ?_)
    split <;> trivial
  refine Proc.Wp.bind (Proc.Wp.catching (wp_statement S.quiet ?_
    fun _ _ _ _ _ _ _ _ _ _ _ => haudit g))
  intro G hist w env db w' hG hinv hallowed hf hdb hw'
  subst hG
  obtain ⟨g', hinv'⟩ := S.failed rfl hg hinv hallowed rfl rfl hdb hw'
  exact ⟨g', hinv', haudit g'⟩

theorem wp_completeSettlement {ref : String} (hg : S.Paid r id g) :
    (completeSettlement r id ref).Wp P i (fun _ _ => True) (fun _ g' => S.MayFail r id g') g := by
  refine Proc.Wp.bind (wp_transaction S.quiet logsOnly_nothing ?_ ?_)
  · intro G hist w env a db w' hG hinv hallowed hf hrun hw'
    subst hG
    obtain ⟨g', hinv'⟩ := S.completed rfl hg hinv hallowed hrun hw'
    exact ⟨g', hinv', wp_audit S.quiet trivial⟩
  · intro G hist w env e w' hG hinv hallowed hthrown
    subst hG
    exact .inr ⟨S.thrown rfl hg hinv hallowed hthrown, hg⟩

theorem wp_settleInternal {destRef : String} (htype : r.dest.type = "INTERNAL_BUCKET")
    (hdest : truthy r.dest.bucketRef = some destRef) (hg : S.Held r id g) :
    (settleInternal r id destRef).Wp P i (fun _ _ => True) (fun _ g' => S.MayFail r id g') g := by
  refine Proc.Wp.bind (wp_transaction S.quiet logsOnly_nothing ?_
    fun _ _ _ _ _ _ _ _ _ _ => .inl hg)
  intro G hist w env a db w' hG hinv hallowed hf hrun hw'
  subst hG
  obtain ⟨g', hinv'⟩ := S.settledInternally rfl hg hinv hallowed hrun htype hdest hw'
  exact ⟨g', hinv', wp_audit S.quiet trivial⟩

/-- The try block. -/
theorem wp_executeTransfer (hg : S.Held r id g) :
    (executeTransfer r id).Wp P i (fun _ _ => True) (fun _ g' => S.MayFail r id g') g := by
  unfold executeTransfer
  split
  next htype =>
    split
    next => exact .inl hg
    next destRef hdest => exact S.wp_settleInternal htype hdest hg
  next htype =>
    split
    next =>
      refine Proc.Wp.bind (wp_bankTransfer S.quiet ?_ fun _ => .inl hg)
      intro G hist w env w' hG hinv hallowed hw'
      subst hG
      obtain ⟨g', hinv', hpaid⟩ := S.sent rfl hg hinv hallowed rfl htype hw'
      exact ⟨g', hinv', S.wp_completeSettlement hpaid⟩
    next => exact .inl hg

theorem wp_settle (hpos : 0 < r.amountKobo) (hg : S.Ready r.businessId r.bucketRef g) :
    (settle r).Wp P i (fun _ _ => True) (fun _ _ => True) g := by
  refine Proc.Wp.bind (wp_transaction S.quiet (logsOnly_log r.reservedAudit) ?_
    fun _ _ _ _ _ _ _ _ _ _ => trivial)
  intro G hist w env s db w' hG hinv hallowed hf hrun hw'
  subst hG
  obtain ⟨g', hinv', hheld⟩ := S.reserve hpos rfl hg hinv hallowed hrun hw'
  refine ⟨g', hinv', ?_⟩
  refine Proc.Wp.bind (wp_statement S.quiet ?_ fun _ _ _ _ _ _ _ _ _ _ _ => trivial)
  intro G hist w env db w' hG hinv hallowed hf hdb hw'
  subst hG
  obtain ⟨g'', hinv'', hheld'⟩ := S.processing rfl hheld hinv hallowed hdb hw'
  refine ⟨g'', hinv'', ?_⟩
  refine Proc.Wp.catching
    (Proc.Wp.bind ((S.wp_executeTransfer hheld').mono (fun _ _ _ => trivial) ?_))
  intro e g hg
  exact S.wp_failSettlement hg e

theorem wp_initiate {bucketRef : String} {dto : CreateSettlementDto} {biz actor : String} (g : γ) :
    (AccountOS.initiate bucketRef dto biz actor).Wp P i (fun _ _ => True) (fun _ _ => True) g := by
  refine Proc.Wp.bind (Proc.Wp.bind ?_)
  refine wp_find S.quiet (fun G hist w env hG hinv => ?_) fun _ => trivial
  cases hfound : w.db.findBucket biz bucketRef with
  | none => trivial
  | some b =>
    show Proc.Wp P i _ _ (ite _ _ _) g
    split
    next => trivial
    next hactive =>
      have hready : S.Ready biz bucketRef g := hG ▸ S.found hinv hfound (not_not.1 hactive)
      refine Proc.Wp.bind (wp_bigIntOrThrow (fun amount hamount => ?_) fun _ => trivial)
      refine S.wp_settle ?_ hready
      have := dto.one_le_amountKobo
      rw [hamount] at this
      exact_mod_cast lt_of_lt_of_le one_pos this

end SettlementSteps

/-! ### All operations -/

/-- What a protocol has to show of the transactions of the treasury, for thread `i`. -/
structure TreasurySteps (P : Protocol ι World Env Call γ) (i : ι) where
  idle : γ
  held : SettlementRequest → String → γ
  paid : SettlementRequest → String → γ
  paidMayFail : Prop
  quiet : Quiet P
  credit : ∀ {p : CreditParams} {l G hist w env a db w'}, 0 < p.amountKobo →
    l = .credit p.bucketId p.reference p.amountKobo → P.inv G hist w → P.allowed l env w w' →
    (creditTx p env.row).run schema w.db = .ok (a, db) → w' = { w with db } →
    P.inv G (hist ++ [⟨i, l, env, w, w'⟩]) w'
  transfer : ∀ {src dst biz amount narration l G hist w env a db w'}, src ≠ dst → 0 < amount →
    l = .transferBetweenBuckets biz src dst amount → P.inv G hist w → P.allowed l env w w' →
    (transferTx src dst biz amount narration env).run schema w.db = .ok (a, db) →
    w' = { w with db } → P.inv G (hist ++ [⟨i, l, env, w, w'⟩]) w'
  reserve : ∀ {r : SettlementRequest} {l G hist w env s db w'}, 0 < r.amountKobo →
    l = .reserve r.businessId r.bucketRef r.amountKobo → P.inv G hist w → P.allowed l env w w' →
    (reserveTx r env).run schema w.db = .ok (s, db) →
    w' = { w.log env (r.reservedAudit s) with db } →
    P.inv (Function.update G i (held r s.id)) (hist ++ [⟨i, l, env, w, w'⟩]) w'
  processing : ∀ {r id l G hist w env db w'}, l = .updateSettlement id .processing →
    G i = held r id → P.inv G hist w → P.allowed l env w w' →
    w.db.updateSettlement id { status := .processing } = .ok db → w' = { w with db } →
    P.inv G (hist ++ [⟨i, l, env, w, w'⟩]) w'
  sent : ∀ {r id} {request : BankTransferRequest} {l G hist w env w'}, l = .bankTransfer id →
    G i = held r id → P.inv G hist w → P.allowed l env w w' →
    request.amount = (r.amountKobo : ℚ) / 100 → r.dest.type ≠ "INTERNAL_BUCKET" →
    w' = { w with transfers := w.transfers ++ [⟨id, request⟩] } →
    P.inv (Function.update G i (paid r id)) (hist ++ [⟨i, l, env, w, w'⟩]) w'
  completed : ∀ {r id ref u l G hist w env db w'},
    l = .completeSettlement r.businessId r.bucketRef id r.amountKobo → G i = paid r id →
    P.inv G hist w → P.allowed l env w w' →
    (completeSettlementTx r id ref env).run schema w.db = .ok (u, db) → w' = { w with db } →
    P.inv (Function.update G i idle) (hist ++ [⟨i, l, env, w, w'⟩]) w'
  thrown : ∀ {r id ref e l G hist w env w'},
    l = .completeSettlement r.businessId r.bucketRef id r.amountKobo → G i = paid r id →
    P.inv G hist w → P.allowed l env w w' → Thrown (completeSettlementTx r id ref) env w e w' →
    paidMayFail
  settledInternally : ∀ {r id destRef ref l G hist w env db w'},
    l = .settleInternal r.businessId r.bucketRef destRef id r.amountKobo → G i = held r id →
    P.inv G hist w → P.allowed l env w w' →
    (settleInternalTx r id destRef env).run schema w.db = .ok (ref, db) →
    r.dest.type = "INTERNAL_BUCKET" → truthy r.dest.bucketRef = some destRef →
    w' = { w with db } →
    P.inv (Function.update G i idle) (hist ++ [⟨i, l, env, w, w'⟩]) w'
  failed : ∀ {r id data l G hist w env db w'}, l = .updateSettlement id .failed →
    (G i = held r id ∨ paidMayFail ∧ G i = paid r id) → P.inv G hist w → P.allowed l env w w' →
    data.status = .failed → data.nombaTransferReference = none →
    w.db.updateSettlement id data = .ok db → w' = { w with db } →
    P.inv (Function.update G i idle) (hist ++ [⟨i, l, env, w, w'⟩]) w'

namespace TreasurySteps

variable {P : Protocol ι World Env Call γ} {i : ι}

variable (S : TreasurySteps P i)
include S

/-- The settlements of a treasury: nothing has to be remembered of the bucket. -/
def settlementSteps : SettlementSteps P i where
  Ready _ _ _ := True
  Held r id g := g = S.held r id
  Paid r id g := g = S.paid r id
  paidMayFail := S.paidMayFail
  quiet := S.quiet
  found _ _ _ := trivial
  reserve hpos hl _ hinv hallowed hrun hw' := ⟨_, S.reserve hpos hl hinv hallowed hrun hw', rfl⟩
  processing := by
    intro r id l G hist w env db w' hl hheld hinv hallowed hop hw'
    refine ⟨G i, ?_, hheld⟩
    rw [Function.update_eq_self]
    exact S.processing hl hheld hinv hallowed hop hw'
  sent hl hheld hinv hallowed hamount htype hw' :=
    ⟨_, S.sent hl hheld hinv hallowed hamount htype hw', rfl⟩
  completed hl hpaid hinv hallowed hrun hw' := ⟨_, S.completed hl hpaid hinv hallowed hrun hw'⟩
  thrown := S.thrown
  settledInternally hl hheld hinv hallowed hrun htype hdest hw' :=
    ⟨_, S.settledInternally hl hheld hinv hallowed hrun htype hdest hw'⟩
  failed hl hown hinv hallowed hstatus href hop hw' :=
    ⟨_, S.failed hl hown hinv hallowed hstatus href hop hw'⟩

theorem wp_credit {p : CreditParams} (hpos : 0 < p.amountKobo) (g : γ) :
    (AccountOS.credit p).Wp P i (fun _ _ => True) (fun _ _ => True) g := by
  refine AccountOS.wp_credit S.quiet (fun _ => trivial) ?_
  intro G hist w env a db w' hG hinv hallowed hrun hw'
  refine ⟨g, ?_, trivial⟩
  rw [← hG, Function.update_eq_self]
  exact S.credit hpos rfl hinv hallowed hrun hw'

theorem wp_transferBetweenBuckets {src : String} {dto : TransferBucketDto} {biz actor : String}
    (g : γ) :
    (AccountOS.transferBetweenBuckets src dto biz actor).Wp P i (fun _ _ => True)
      (fun _ _ => True) g := by
  refine AccountOS.wp_transferBetweenBuckets S.quiet ?_
  intro amount G hist w env a db w' hne hpos hinv hallowed hrun hw'
  refine ⟨G i, ?_⟩
  rw [Function.update_eq_self]
  exact S.transfer hne hpos rfl hinv hallowed hrun hw'

/-- A request keeps the invariant. -/
theorem wp_run (op : TreasuryOp) (g : γ) :
    op.run.Wp P i (fun _ _ => True) (fun _ _ => True) g := by
  cases op with
  | credit p pos =>
    exact Proc.Wp.bind ((S.wp_credit pos g).mono (fun _ _ _ => trivial) fun _ _ h => h)
  | transferBetweenBuckets src dto biz actor =>
    exact Proc.Wp.bind
      ((S.wp_transferBetweenBuckets g).mono (fun _ _ _ => trivial) fun _ _ h => h)
  | initiate bucketRef dto biz actor =>
    exact Proc.Wp.bind
      ((S.settlementSteps.wp_initiate g).mono (fun _ _ _ => trivial) fun _ _ h => h)

/-- **Every sequence of treasury operations keeps the invariant.** -/
theorem wp_runAll (ops : List TreasuryOp) (g : γ) :
    (TreasuryOp.runAll ops).Wp P i (fun _ _ => True) (fun _ _ => True) g := by
  induction ops generalizing g with
  | nil => trivial
  | cons op ops ih =>
    exact Proc.Wp.bind (Proc.Wp.catching ((S.wp_run op g).mono (fun _ g' _ => ih g') fun _ g' _ =>
      ih g'))

end TreasurySteps

end AccountOS
