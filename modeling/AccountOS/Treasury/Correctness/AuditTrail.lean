import AccountOS.Conc.Trace
import AccountOS.Sql.Slice
import AccountOS.Store.AuditLog
import AccountOS.Store.Trace
import AccountOS.Treasury.Correctness.Balance
import AccountOS.Treasury.Operations
import Mathlib

/-!
# What the audit log says about the treasury

`AuditService.log` writes through a connection of its own, so an entry outlives the transaction it
describes: `initiate` logs `SETTLEMENT_RESERVED` from inside TX1, and the entry stays when TX1 is
rolled back at its commit. `credit` logs `ALLOCATE_FUNDS` after its transaction, also when that has
found the reference taken and credited nothing.

`audit_trail_sound` says that there is nothing else: in a run in which neither happens, every
reservation that is logged exists, and the allocations that are logged are among those that were
credited.
-/

namespace AccountOS

open Conc Sql

variable {ι : Type}

/-! ### What is logged, and what is written -/

namespace AuditLogEntry

/-- A metadata field that is a text. -/
def text (x : AuditLogEntry) (field : String) : Option String :=
  match x.metadata.lookup field with
  | some (.str s) => some s
  | _ => none

/-- The reference and the amount of an entry that reports an allocation. -/
def allocation (x : AuditLogEntry) : Option (String × Int) :=
  (x.text "reference").bind fun reference =>
    ((x.text "amountKobo").bind String.toInt?).map fun amountKobo => (reference, amountKobo)

end AuditLogEntry

/-- The `ALLOCATE_FUNDS` entry of a credit. -/
def CreditParams.allocated (p : CreditParams) (cumulative : Int) : AuditLogEntry where
  actor := "system"
  action := .allocateFunds
  businessId := some p.businessId
  metadata := [
    ("bucketId", .str p.bucketId),
    ("amountKobo", .str (toString p.amountKobo)),
    ("reference", .str p.reference),
    ("sourceAccountRef", .ofOption p.sourceAccountRef),
    ("cumulativeAmountKobo", .str (toString cumulative))]

theorem CreditParams.allocation_allocated (p : CreditParams) (cumulative : Int) :
    (p.allocated cumulative).allocation = some (p.reference, p.amountKobo) := by
  have hamount : (toString p.amountKobo).toInt? = some p.amountKobo := Int.toInt?_repr p.amountKobo
  show ((toString p.amountKobo).toInt?).map (fun amountKobo => (p.reference, amountKobo)) = _
  rw [hamount, Option.map_some]

/-- What has been logged since the run began. -/
def loggedSince (w₀ w : World) : List AuditLogEntry := w.auditLog.drop w₀.auditLog.length

/-- The `ALLOCATE_FUNDS` entries logged since the run began. -/
def allocationsSince (w₀ w : World) : List AuditLogEntry :=
  (loggedSince w₀ w).filter fun x => x.action = .allocateFunds

/-- The transaction of `credit`. -/
def Call.IsCredit : Call → Prop
  | .credit .. => True
  | _ => False

/-- The entries that a call of `credit` has written to a bucket. -/
def credited (ev : Event ι World Env Call) : List BucketLedgerEntry :=
  match ev.call with
  | .credit .. =>
    ev.after.db.bucketLedgerEntries.drop ev.before.db.bucketLedgerEntries.length
  | _ => []

/-- The audit trail from `w₀` to `w` is sound: every reservation that is logged is a settlement; the
allocations that are logged are, one by one, among the entries that credits have written, with their
reference and amount; and so they do not sum up to more. -/
structure TrailSound (w₀ : World) (hist : List (Event ι World Env Call)) (w : World) : Prop where
  reserved : ∀ x ∈ loggedSince w₀ w, x.action = .settlementReserved →
    ∃ s ∈ w.db.settlements, x.text "settlementId" = some s.id
  allocated : ((allocationsSince w₀ w).map AuditLogEntry.allocation).Subperm
    ((hist.flatMap credited).map fun e => some (e.reference, e.amountKobo))
  total : ((allocationsSince w₀ w).map fun x => (x.allocation.map Prod.snd).getD 0).sum ≤
    ((hist.flatMap credited).map BucketLedgerEntry.amountKobo).sum

/-! ### The two exceptions -/

/-- TX1 of a settlement is rolled back at its commit, after its audit entry has been written. -/
def AbortsReserved (ev : Event ι World Env Call) : Prop :=
  ∃ (r : SettlementRequest) (s : Settlement) (db : Db) (e : Error),
    ev.call = .reserve r.businessId r.bucketRef r.amountKobo ∧ ev.choice.fault = some ⟨e, true⟩ ∧
      ev.choice.auditFails = false ∧ (reserveTx r ev.choice).run schema ev.before.db = .ok (s, db)

/-- A credit that has found its reference taken writes its audit entry. -/
def AuditsReplay [DecidableEq ι] (past : List (Event ι World Env Call))
    (ev : Event ι World Env Call) : Prop :=
  ev.call = .audit .allocateFunds ∧ ev.choice.auditFails = false ∧
    ∃ x, (callsOf ev.who past).getLast? = some x ∧ ∃ bucketId reference amountKobo,
      x.call = .credit bucketId reference amountKobo ∧
        x.before.db.findEntry reference ≠ none

/-! ### The calls of the treasury -/

/-- Entries and settlements are never removed. -/
structure Grows (w w' : World) : Prop where
  entries : w.db.bucketLedgerEntries <+: w'.db.bucketLedgerEntries
  settlements : ∀ s ∈ w.db.settlements, ∃ s' ∈ w'.db.settlements, s'.id = s.id

namespace Grows

theorem of_db {w w' : World} (h : w'.db = w.db) : Grows w w' := by
  refine ⟨?_, fun s hs => ⟨s, ?_, rfl⟩⟩
  · rw [h]
  · rw [h]
    exact hs

/-- What the statements of a transaction can do. -/
theorem of_run {α : Type} {t : TxBody α} {w w' : World} {r : α × Db}
    (hrun : t.run schema w.db = .ok r) (hw' : w'.db = r.2) : Grows w w' := by
  have h : w.db.bucketLedgerEntries <+: r.2.bucketLedgerEntries ∧
      ∀ s ∈ w.db.settlements, ∃ s' ∈ r.2.settlements, s'.id = s.id := by
    refine Tx.run_preserves (I := fun db => w.db.bucketLedgerEntries <+: db.bucketLedgerEntries ∧
      ∀ s ∈ w.db.settlements, ∃ s' ∈ db.settlements, s'.id = s.id) ?_ hrun
      ⟨List.prefix_rfl, fun s hs => ⟨s, hs, rfl⟩⟩
    rintro op db db' hop ⟨hentries, hsettlements⟩
    have hop : op.apply db = .ok db' := hop
    constructor
    · obtain ⟨-, ⟨e, -, hadded⟩ | hsame⟩ := Db.apply_ledger hop
      · rw [hadded]
        exact hentries.trans (List.prefix_append _ _)
      · rw [hsame]
        exact hentries
    · intro s hs
      obtain ⟨x, hx, hid⟩ := hsettlements s hs
      cases op with
      | createSettlement y =>
        obtain ⟨-, -, -, rfl⟩ := Db.createSettlement_eq_ok.1 hop
        exact ⟨x, List.mem_append_left _ hx, hid⟩
      | updateSettlement id data =>
        obtain ⟨-, -, rfl⟩ := Db.updateSettlement_eq_ok.1 hop
        exact exists_mem_updateRow (fun _ h => h) ⟨x, hx, hid⟩
      | _ =>
        have hsame := (WriteOp.sameExcept hop).settlements nofun
        exact ⟨x, hsame ▸ hx, hid⟩
  rw [← hw'] at h
  exact ⟨h.1, h.2⟩

end Grows

/-- `x` is a credit of `p` that has gone through: its reference was taken, or it has written its
entry. -/
structure CreditDone (p : CreditParams) (x : Event ι World Env Call) : Prop where
  call : x.call = .credit p.bucketId p.reference p.amountKobo
  done : x.before.db.findEntry p.reference ≠ none ∨
    ∃ e, credited x = [e] ∧ e.reference = p.reference ∧ e.amountKobo = p.amountKobo

/-- What a call does to the trail, after the calls that its thread has made. -/
inductive TrailCall (past : Calls ι) (ev : Event ι World Env Call) : Prop
  | quiet (log : ∃ new, ev.after.auditLog = ev.before.auditLog ++ new ∧
        ∀ x ∈ new, x.action ≠ .allocateFunds ∧ x.action ≠ .settlementReserved)
      (writes : credited ev = [])
  | credit (p : CreditParams) (pos : 0 < p.amountKobo)
      (log : ev.after.auditLog = ev.before.auditLog)
      (free : ev.before.db.findEntry p.reference = none)
      (writes : ∃ e, credited ev = [e] ∧ e.reference = p.reference ∧ e.amountKobo = p.amountKobo)
  | allocated (p : CreditParams) (cumulative : Int) (call : ev.call = .audit .allocateFunds)
      (log : ev.after.auditLog = (ev.before.log ev.choice (p.allocated cumulative)).auditLog)
      (last : ∃ x, past.getLast? = some x ∧ CreditDone p x)
  | reserved (r : SettlementRequest) (s : Settlement)
      (log : ev.after.auditLog = (ev.before.log ev.choice (r.reservedAudit s)).auditLog)
      (writes : credited ev = []) (created : s ∈ ev.after.db.settlements ∨ AbortsReserved ev)

/-- A call of the treasury. -/
structure TrailEvent (past : Calls ι) (ev : Event ι World Env Call) : Prop
    extends Grows ev.before ev.after where
  does : TrailCall past ev

/-! ### The methods, call by call -/

section Traced

variable {α : Type} {i : ι} {past : Calls ι} {l : Call}

/-- A call that is no credit writes nothing as one. -/
theorem credited_eq_nil (hl : ¬ l.IsCredit) (env : Env) (w w' : World) :
    credited (⟨i, l, env, w, w'⟩ : Event ι World Env Call) = [] := by
  cases l <;> first | exact absurd trivial hl | rfl

/-- A call that leaves the entries alone. -/
theorem credited_eq_nil_of_same {ev : Event ι World Env Call}
    (h : ev.after.db.bucketLedgerEntries = ev.before.db.bucketLedgerEntries) :
    credited ev = [] := by
  unfold credited
  split
  next =>
    rw [h]
    exact List.drop_length
  next => rfl

/-- A call that logs nothing. -/
theorem TrailCall.silent {ev : Event ι World Env Call}
    (hlog : ev.after.auditLog = ev.before.auditLog) (hwrites : credited ev = []) :
    TrailCall past ev :=
  .quiet ⟨[], by rw [hlog, List.append_nil], fun x hx => absurd hx List.not_mem_nil⟩ hwrites

/-- A transaction of the treasury that is neither a credit nor TX1. -/
theorem trail_transaction {Q : α → Calls ι → Prop} {E : Error → Calls ι → Prop}
    (hl : ¬ l.IsCredit) {body : Env → TxBody α} (hQ : ∀ a past', Q a past') (hE : ∀ e past', E e past') :
    (transaction l body).Traced i TrailEvent Q E past := by
  refine Proc.Traced.call fun env w => ⟨⟨?_, ?_⟩, fun a _ => hQ a _, fun e _ => hE e _⟩
  · rcases transactionStep_cases body logsOnly_nothing env w with
      ⟨a, db, -, hrun, hstep⟩ | ⟨e, w', hstep, hthrown⟩
    · exact .of_run hrun (by rw [hstep])
    · exact .of_db (by rw [hstep]; exact hthrown.same.db)
  · exact .silent (transactionStep_auditLog body env w) (credited_eq_nil hl env w _)

/-- What a method is shown to do: nothing is asked of its end. -/
abbrev Trail (i : ι) (p : Action α) (past : Calls ι) : Prop :=
  p.Traced i TrailEvent (fun _ _ => True) (fun _ _ => True) past

theorem Trail.bind {β : Type} {p : Action β} {k : β → Action α} (hp : Trail i p past)
    (hk : ∀ b past', Trail i (k b) past') : Trail i (p.bind k) past :=
  Proc.Traced.bind (hp.mono (fun b past' _ => hk b past') fun _ _ h => h)

theorem Trail.catching {p : Action α} {k : Error → Action α} (hp : Trail i p past)
    (hk : ∀ e past', Trail i (k e) past') : Trail i (p.catching k) past :=
  Proc.Traced.catching (hp.mono (fun _ _ h => h) fun e past' _ => hk e past')

/-- An audit entry of another kind. -/
theorem trail_audit {entry : AuditLogEntry}
    (h : entry.action ≠ .allocateFunds ∧ entry.action ≠ .settlementReserved) :
    Trail i (audit entry) past := by
  refine Proc.Traced.call fun env w => ⟨⟨.of_db (w.log_db env entry), ?_⟩, fun _ _ => trivial,
    fun _ _ => trivial⟩
  refine .quiet ?_ (credited_eq_nil_of_same (by rw [World.log_db]))
  show ∃ new, (w.log env entry).auditLog = w.auditLog ++ new ∧ _
  unfold World.log
  split
  · exact ⟨[], (List.append_nil _).symm, fun x hx => absurd hx List.not_mem_nil⟩
  · refine ⟨[entry], rfl, fun x hx => ?_⟩
    rw [List.mem_singleton.1 hx]
    exact h

theorem trail_bankTransfer {settlementId : String} {request : Env → BankTransferRequest} :
    Trail i (bankTransfer settlementId request) past := by
  refine Proc.Traced.call fun env w => ⟨⟨.of_db ?_, .silent ?_ (credited_eq_nil_of_same ?_)⟩,
    fun _ _ => trivial, fun _ _ => trivial⟩
  · cases env.fault <;> rfl
  · cases env.fault <;> rfl
  · cases env.fault <;> rfl

/-- TX1: the settlement is there when its entry is, unless the commit fails. -/
theorem trail_reserve (r : SettlementRequest) : Trail i (reserve r) past := by
  refine Proc.Traced.call fun env w => ⟨⟨?_, ?_⟩, fun _ _ => trivial, fun _ _ => trivial⟩
  · rcases transactionStep_cases (reserveTx r) (logsOnly_log r.reservedAudit) env w with
      ⟨a, db, -, hrun, hstep⟩ | ⟨e, w', hstep, hthrown⟩
    · exact .of_run hrun (by rw [hstep])
    · exact .of_db (by rw [hstep]; exact hthrown.same.db)
  have hl : ¬ (Call.reserve r.businessId r.bucketRef r.amountKobo).IsCredit := not_false
  have hrecord : ∀ e : Error, (w.recordError e).auditLog = w.auditLog := by
    intro e
    unfold World.recordError
    split <;> rfl
  have hwrites := credited_eq_nil (i := i) hl env w
  unfold transactionStep
  split
  next => exact .silent rfl (hwrites _)
  next e hf =>
    split
    next s db hrun =>
      cases haudit : env.auditFails with
      | true =>
        refine .silent ?_ (hwrites _)
        show (w.log env (r.reservedAudit s)).auditLog = w.auditLog
        rw [World.log, haudit, if_pos rfl]
      | false => exact .reserved r s rfl (hwrites _) (.inr ⟨r, s, db, e, rfl, hf, haudit, hrun⟩)
    next e' hrun => exact .silent (hrecord e') (hwrites _)
  next hf =>
    split
    next s db hrun =>
      obtain ⟨b, type, -, -, -, -, hcreate⟩ := (reserveTx_run_eq_ok w.db).1 hrun
      obtain ⟨-, -, -, rfl⟩ := Db.createSettlement_eq_ok.1 hcreate
      exact .reserved r s rfl (hwrites _)
        (.inl (List.mem_append_right _ (List.mem_singleton_self s)))
    next e' hrun => exact .silent (hrecord e') (hwrites _)

theorem trail_failSettlement (r : SettlementRequest) (id : String) (error : Error) :
    Trail i (failSettlement r id error : Action SettlementResult) past := by
  refine Trail.bind (Trail.catching ?_ fun _ _ => trivial) fun _ _ =>
    Trail.bind (trail_audit ⟨nofun, nofun⟩) fun _ _ => ?_
  · exact trail_transaction (by exact not_false) (fun _ _ => trivial) fun _ _ => trivial
  · split <;> trivial

theorem trail_executeTransfer (r : SettlementRequest) (id : String) :
    Trail i (executeTransfer r id) past := by
  unfold executeTransfer
  split
  · split
    · trivial
    · exact Trail.bind (trail_transaction (by exact not_false) (fun _ _ => trivial) fun _ _ => trivial)
        fun _ _ => trail_audit ⟨nofun, nofun⟩
  · split
    · refine Trail.bind trail_bankTransfer fun _ _ => ?_
      exact Trail.bind (trail_transaction (by exact not_false) (fun _ _ => trivial) fun _ _ => trivial)
        fun _ _ => trail_audit ⟨nofun, nofun⟩
    · trivial

theorem trail_initiate (bucketRef : String) (dto : CreateSettlementDto) (businessId actor : String) :
    Trail i (initiate bucketRef dto businessId actor) past := by
  refine Trail.bind ?_ fun b _ => ?_
  · refine Trail.bind (trail_transaction (by exact not_false) (fun _ _ => trivial)
      fun _ _ => trivial) fun b _ => ?_
    split <;> trivial
  split
  · trivial
  refine Trail.bind ?_ fun amountKobo _ => ?_
  · unfold bigIntOrThrow
    split <;> trivial
  refine Trail.bind (trail_reserve _) fun s _ => Trail.bind ?_ fun _ _ => ?_
  · exact trail_transaction (by exact not_false) (fun _ _ => trivial) fun _ _ => trivial
  · exact Trail.catching (Trail.bind (trail_executeTransfer _ _) fun _ _ => trivial)
      fun e _ => trail_failSettlement _ _ e

theorem trail_transferBetweenBuckets (src : String) (dto : TransferBucketDto)
    (businessId actor : String) :
    Trail i (transferBetweenBuckets src dto businessId actor) past := by
  unfold transferBetweenBuckets
  split
  · trivial
  refine Trail.bind ?_ fun amountKobo _ => ?_
  · unfold bigIntOrThrow
    split <;> trivial
  refine Trail.bind (trail_transaction (by exact not_false) (fun _ _ => trivial)
    fun _ _ => trivial) fun r _ => ?_
  exact Trail.bind (trail_audit ⟨nofun, nofun⟩) fun _ _ => trivial

/-- The transaction of a credit: afterwards its reference was taken, or its entry is written. -/
theorem traced_creditTx (p : CreditParams) (pos : 0 < p.amountKobo) :
    (transaction (.credit p.bucketId p.reference p.amountKobo) fun env => creditTx p env.row).Traced
      i TrailEvent (fun _ past' => ∃ x, past'.getLast? = some x ∧ CreditDone p x)
      (fun _ _ => True) past := by
  refine Proc.Traced.call fun env w => ?_
  have hlog := transactionStep_auditLog (fun env => creditTx p env.row) env w
  rcases transactionStep_cases (fun env => creditTx p env.row) logsOnly_nothing env w with
    ⟨a, db, -, hrun, hstep⟩ | ⟨e, w', hstep, hthrown⟩
  · rw [hstep] at hlog ⊢
    have hgrows : Grows w { w with db } := .of_run hrun rfl
    rcases (creditTx_run_eq_ok w.db).1 hrun with ⟨e, he, -, rfl⟩ | ⟨hfree, -, hcreate⟩
    · refine ⟨⟨hgrows, .silent hlog (credited_eq_nil_of_same rfl)⟩, fun _ _ => ?_,
        fun _ _ => trivial⟩
      refine ⟨_, List.getLast?_concat, rfl, .inl ?_⟩
      rw [he]
      exact Option.some_ne_none e
    · obtain ⟨-, -, -, -, rfl⟩ := Db.createBucketLedgerEntry_eq_ok.1 hcreate
      have hcredited : ∀ w' : World, w'.db.bucketLedgerEntries = w.db.bucketLedgerEntries ++
          [p.entry env.row (w.db.balance p.bucketId)] →
          credited (⟨i, .credit p.bucketId p.reference p.amountKobo, env, w, w'⟩ :
            Event ι World Env Call) = [p.entry env.row (w.db.balance p.bucketId)] := by
        intro w' hw'
        show w'.db.bucketLedgerEntries.drop w.db.bucketLedgerEntries.length = _
        rw [hw', List.drop_left]
      refine ⟨⟨hgrows, .credit p pos hlog hfree ⟨_, hcredited _ rfl, rfl, rfl⟩⟩, fun _ _ => ?_,
        fun _ _ => trivial⟩
      exact ⟨_, List.getLast?_concat, rfl, .inr ⟨_, hcredited _ rfl, rfl, rfl⟩⟩
  · rw [hstep] at hlog ⊢
    refine ⟨⟨.of_db hthrown.same.db, .silent hlog (credited_eq_nil_of_same ?_)⟩,
      fun a ha => ?_, fun _ _ => trivial⟩
    · rw [hthrown.same.db]
    · cases ha

theorem trail_credit (p : CreditParams) (pos : 0 < p.amountKobo) : Trail i (credit p) past := by
  have hattempts : ∀ retries past, (runSerializable (transaction
      (.credit p.bucketId p.reference p.amountKobo) fun env => creditTx p env.row) retries).Traced
      i TrailEvent (fun _ past' => ∃ x, past'.getLast? = some x ∧ CreditDone p x)
      (fun _ _ => True) past := by
    intro retries
    induction retries with
    | zero => exact fun past => traced_creditTx p pos
    | succ retries ih =>
      intro past
      refine Proc.Traced.catching ((traced_creditTx p pos).mono (fun _ _ h => h) fun e past' _ => ?_)
      split
      · exact ih past'
      · trivial
  refine Proc.Traced.bind ((hattempts maxRetries past).mono ?_ fun _ _ _ => trivial)
  intro cumulative past' hdone
  refine Trail.bind (Proc.Traced.call fun env w => ?_) fun _ _ => trivial
  have hdb : (w.log env (p.allocated cumulative)).db = w.db := World.log_db ..
  exact ⟨⟨.of_db hdb, .allocated p cumulative rfl rfl hdone⟩, fun _ _ => trivial,
    fun _ _ => trivial⟩

theorem trail_runAll (ops : List TreasuryOp) : Trail i (TreasuryOp.runAll ops) past := by
  induction ops generalizing past with
  | nil => trivial
  | cons op ops ih =>
    refine Trail.bind (Trail.catching ?_ fun _ _ => trivial) fun _ _ => ih
    cases op with
    | credit p pos => exact Trail.bind (trail_credit p pos) fun _ _ => trivial
    | transferBetweenBuckets src dto businessId actor =>
      exact Trail.bind (trail_transferBetweenBuckets src dto businessId actor) fun _ _ => trivial
    | initiate bucketRef dto businessId actor =>
      exact Trail.bind (trail_initiate bucketRef dto businessId actor) fun _ _ => trivial

end Traced

/-! ### Any run -/

/-- Entries that have been logged since. -/
theorem loggedSince_append {w₀ w w' : World} {new : List AuditLogEntry}
    (hlog : w₀.auditLog <+: w.auditLog) (h : w'.auditLog = w.auditLog ++ new) :
    loggedSince w₀ w' = loggedSince w₀ w ++ new := by
  unfold loggedSince
  rw [h, List.drop_append_of_le_length hlog.length_le]

section Run

variable [DecidableEq ι] {ops : ι → List TreasuryOp} {w₀ w w₁ : World}
  {hist : List (Event ι World Env Call)} {ps : ι → Action Unit}

/-- Two credits do not both write an entry of one reference. -/
theorem eq_of_credited
    (run : Run (fun _ _ _ _ => True) (fun i => TreasuryOp.runAll (ops i)) w₀ hist ps w)
    {m n : ℕ} {x y : Event ι World Env Call} {e e' : BucketLedgerEntry} (hx : hist[m]? = some x)
    (hy : hist[n]? = some y) (he : credited x = [e]) (he' : credited y = [e'])
    (href : e.reference = e'.reference) : m = n := by
  have hcalls := (run.traced fun i => (trail_runAll (ops i) : Trail i _ [])).1
  -- the later one would have found the entry of the earlier one
  have hearlier : ∀ {m n : ℕ} {x y : Event ι World Env Call} {e e' : BucketLedgerEntry},
      hist[m]? = some x → hist[n]? = some y → credited x = [e] → credited y = [e'] →
        e.reference = e'.reference → ¬ m < n := by
    intro m n x y e e' hx hy he he' href hlt
    have hwritten : e ∈ x.after.db.bucketLedgerEntries := by
      have hmem : e ∈ credited x := by
        rw [he]
        exact List.mem_singleton_self e
      unfold credited at hmem
      split at hmem
      next => exact List.mem_of_mem_drop hmem
      next => exact absurd hmem List.not_mem_nil
    have hthere : ∃ a ∈ (stateAt hist w n).db.bucketLedgerEntries, a.reference = e.reference := by
      refine run.persists (P := fun w => ∃ a ∈ w.db.bucketLedgerEntries, a.reference = e.reference)
        (Nat.succ_le_of_lt hlt) ?_ ?_
      · rw [run.stateAt_succ hx]
        exact ⟨e, hwritten, rfl⟩
      · rintro k ev - - hev ⟨a, ha, haref⟩
        exact ⟨a, (hcalls k ev hev).entries.subset ha, haref⟩
    rw [stateAt_eq_before hy] at hthere
    obtain ⟨a, ha, haref⟩ := hthere
    cases (hcalls n y hy).does with
    | quiet _ hnone => rw [hnone] at he'; cases he'
    | credit p _ _ hfree hwrites =>
      obtain ⟨b, hb, hbref, -⟩ := hwrites
      rw [he'] at hb
      cases hb
      exact (findEntry_eq_none_iff _).1 hfree a ha (haref.trans (href.trans hbref))
    | allocated p cumulative hcall _ _ =>
      unfold credited at he'
      rw [hcall] at he'
      cases he'
    | reserved _ _ _ hnone _ => rw [hnone] at he'; cases he'
  rcases Nat.lt_trichotomy m n with hlt | heq | hlt
  · exact absurd hlt (hearlier hx hy he he' href)
  · exact heq
  · exact absurd hlt (hearlier hy hx he' he href.symm)

/-- The trail after the calls `past`. Each allocation that is logged was logged at a call `n`, after
the call `m` of the same thread, which had written its entry. -/
structure TrailSoFar (hist : List (Event ι World Env Call)) (w₀ : World) (length : ℕ) (w : World) :
    Prop where
  log : w₀.auditLog <+: w.auditLog
  reserved : ∀ x ∈ loggedSince w₀ w, x.action = .settlementReserved →
    ∃ s ∈ w.db.settlements, x.text "settlementId" = some s.id
  source : ∀ x ∈ allocationsSince w₀ w, ∃ (m n : ℕ) (c a : Event ι World Env Call)
    (e : BucketLedgerEntry), m < n ∧ n < length ∧ hist[m]? = some c ∧ hist[n]? = some a ∧
      c.who = a.who ∧ credited c = [e] ∧ x.allocation = some (e.reference, e.amountKobo)
  nodup : ((allocationsSince w₀ w).map AuditLogEntry.allocation).Nodup

namespace TrailSoFar

variable {w' : World} {length : ℕ} {new : List AuditLogEntry}

omit [DecidableEq ι] in
/-- A call that logs no allocation. -/
theorem step (h : TrailSoFar hist w₀ length w)
    (hsettlements : ∀ s ∈ w.db.settlements, ∃ s' ∈ w'.db.settlements, s'.id = s.id)
    (hlog : w'.auditLog = w.auditLog ++ new)
    (hnew : ∀ x ∈ new, x.action ≠ .allocateFunds ∧ (x.action = .settlementReserved →
      ∃ s ∈ w'.db.settlements, x.text "settlementId" = some s.id)) :
    TrailSoFar hist w₀ (length + 1) w' := by
  have hlogged := loggedSince_append h.log hlog
  have hallocations : allocationsSince w₀ w' = allocationsSince w₀ w := by
    have hnone : (new.filter fun x => x.action = .allocateFunds) = [] := by
      rw [List.filter_eq_nil_iff]
      intro x hx
      simpa using (hnew x hx).1
    unfold allocationsSince
    rw [hlogged, List.filter_append, hnone, List.append_nil]
  refine ⟨?_, fun x hx haction => ?_, ?_, ?_⟩
  · rw [hlog]
    exact h.log.trans (List.prefix_append _ _)
  · rw [hlogged] at hx
    rcases List.mem_append.1 hx with hold | hlast
    · obtain ⟨s, hs, hid⟩ := h.reserved x hold haction
      obtain ⟨s', hs', hid'⟩ := hsettlements s hs
      exact ⟨s', hs', hid'.symm ▸ hid⟩
    · exact (hnew x hlast).2 haction
  · rw [hallocations]
    intro x hx
    obtain ⟨m, n, c, a, e, hmn, hn, hrest⟩ := h.source x hx
    exact ⟨m, n, c, a, e, hmn, Nat.lt_succ_of_lt hn, hrest⟩
  · rw [hallocations]
    exact h.nodup

/-- A call that logs the allocation of the entry that its thread has written just before. -/
theorem allocate (h : TrailSoFar hist w₀ length w)
    (run : Run (fun _ _ _ _ => True) (fun i => TreasuryOp.runAll (ops i)) w₀ hist ps w₁)
    {p : CreditParams} {cumulative : Int} {ev c : Event ι World Env Call} {e : BucketLedgerEntry}
    (hsettlements : ∀ s ∈ w.db.settlements, ∃ s' ∈ w'.db.settlements, s'.id = s.id)
    (hlog : w'.auditLog = w.auditLog ++ [p.allocated cumulative])
    (hev : hist[length]? = some ev) (hlast : (callsOf ev.who (hist.take length)).getLast? = some c)
    (he : credited c = [e]) (href : e.reference = p.reference) (hamount : e.amountKobo = p.amountKobo) :
    TrailSoFar hist w₀ (length + 1) w' := by
  have hlogged := loggedSince_append h.log hlog
  have hallocations : allocationsSince w₀ w' = allocationsSince w₀ w ++ [p.allocated cumulative] := by
    unfold allocationsSince
    rw [hlogged, List.filter_append]
    rfl
  have hallocation : (p.allocated cumulative).allocation = some (e.reference, e.amountKobo) := by
    rw [p.allocation_allocated, href, hamount]
  -- the credit is the last call of its thread
  obtain ⟨earlier, hearlier⟩ : ∃ earlier, callsOf ev.who (hist.take length) = earlier ++ [c] :=
    List.getLast?_eq_some_iff.1 hlast
  obtain ⟨m, hm, -, hnone⟩ := exists_getElem?_of_callsOf hearlier
  have hwho : c.who = ev.who := by
    have hmem : c ∈ callsOf ev.who (hist.take length) := by
      rw [hearlier]
      exact List.mem_append_right _ (List.mem_singleton_self c)
    exact (mem_callsOf.1 hmem).1
  have hmlength : m < length ∧ hist[m]? = some c := by
    rw [List.getElem?_take] at hm
    split at hm
    next hlt => exact ⟨hlt, hm⟩
    next => cases hm
  refine ⟨?_, fun x hx haction => ?_, ?_, ?_⟩
  · rw [hlog]
    exact h.log.trans (List.prefix_append _ _)
  · rw [hlogged] at hx
    rcases List.mem_append.1 hx with hold | hnew
    · obtain ⟨s, hs, hid⟩ := h.reserved x hold haction
      obtain ⟨s', hs', hid'⟩ := hsettlements s hs
      exact ⟨s', hs', hid'.symm ▸ hid⟩
    · rw [List.mem_singleton.1 hnew] at haction
      cases haction
  · rw [hallocations]
    intro x hx
    rcases List.mem_append.1 hx with hold | hnew
    · obtain ⟨m, n, c, a, e, hmn, hn, hrest⟩ := h.source x hold
      exact ⟨m, n, c, a, e, hmn, Nat.lt_succ_of_lt hn, hrest⟩
    · rw [List.mem_singleton.1 hnew]
      exact ⟨m, length, c, ev, e, hmlength.1, Nat.lt_succ_self length, hmlength.2, hev, hwho, he,
        hallocation⟩
  · rw [hallocations, List.map_append, List.map_singleton, hallocation]
    refine List.nodup_append.2 ⟨h.nodup, List.nodup_singleton _, ?_⟩
    rintro _ hold _ hnew rfl
    rw [List.mem_singleton] at hnew
    obtain ⟨x, hx, hxe⟩ := List.mem_map.1 hold
    obtain ⟨m', n, c', a, e', hmn, hn, hc', ha, hsame, he', hallocated⟩ := h.source x hx
    have hentry : (e'.reference, e'.amountKobo) = (e.reference, e.amountKobo) := by
      rw [hxe, hnew] at hallocated
      exact (Option.some.inj hallocated).symm
    have hmm : m' = m :=
      eq_of_credited run hc' hmlength.2 he' he (congrArg Prod.fst hentry)
    -- so the thread has made a call since its last one
    subst hmm
    have hcc : c' = c := Option.some.inj (hc'.symm.trans hmlength.2)
    subst hcc
    have hmem : a ∈ callsOf ev.who ((hist.take length).drop (m' + 1)) := by
      refine mem_callsOf.2 ⟨hsame.symm.trans hwho, n - (m' + 1), ?_⟩
      rw [List.getElem?_drop, Nat.add_sub_cancel' (Nat.succ_le_of_lt hmn), List.getElem?_take,
        if_pos hn]
      exact ha
    rw [hnone] at hmem
    exact List.not_mem_nil hmem

end TrailSoFar

/-- What was credited is not negative, so what is among it sums up to no more. -/
theorem sum_le_of_subperm {α : Type} {l l' : List α} {f : α → Int} (h : l.Subperm l')
    (hf : ∀ x ∈ l', 0 ≤ f x) : (l.map f).sum ≤ (l'.map f).sum := by
  obtain ⟨t, hperm, hsub⟩ := h
  rw [← (hperm.map f).sum_eq]
  refine (hsub.map f).sum_le_sum fun y hy => ?_
  obtain ⟨x, hx, rfl⟩ := List.mem_map.1 hy
  exact hf x hx

/-- **The audit trail of the treasury is sound**, in every run in which no TX1 is rolled back at its
commit with its audit entry written, and no credit that has found its reference taken writes one. -/
theorem audit_trail_sound
    (run : Run (fun _ _ _ _ => True) (fun i => TreasuryOp.runAll (ops i)) w₀ hist ps w)
    (hcalls : ∀ past ev later, hist = past ++ ev :: later →
      ¬ AbortsReserved ev ∧ ¬ AuditsReplay past ev) : TrailSound w₀ hist w := by
  have htraced := (run.traced fun i => (trail_runAll (ops i) : Trail i _ [])).1
  -- the induction is on the calls that have been made
  have hfar : TrailSoFar hist w₀ hist.length w := by
    refine run.along (I := fun past w => TrailSoFar hist w₀ past.length w) ?_ ?_
    · have hnone : loggedSince w₀ w₀ = [] := List.drop_length
      refine ⟨List.prefix_rfl, ?_, ?_, ?_⟩ <;> simp [allocationsSince, hnone]
    rintro past ev later hhist h
    have hev : hist[past.length]? = some ev := by
      rw [hhist, List.getElem?_append_right (Nat.le_refl _), Nat.sub_self]
      rfl
    have hpast : hist.take past.length = past := by
      rw [hhist, List.take_left]
    have hcall := htraced past.length ev hev
    rw [List.length_append, List.length_singleton]
    cases hcall.does with
    | quiet log writes =>
      obtain ⟨new, hlog, hnew⟩ := log
      exact h.step hcall.settlements hlog fun x hx =>
        ⟨(hnew x hx).1, fun haction => absurd haction (hnew x hx).2⟩
    | credit p pos log free writes =>
      exact h.step hcall.settlements (log.trans (List.append_nil _).symm)
        fun x hx => absurd hx List.not_mem_nil
    | allocated p cumulative call log last =>
      cases haudit : ev.choice.auditFails with
      | true =>
        rw [World.log, haudit, if_pos rfl] at log
        exact h.step hcall.settlements (log.trans (List.append_nil _).symm)
          fun x hx => absurd hx List.not_mem_nil
      | false =>
        rw [World.log, haudit, if_neg Bool.false_ne_true] at log
        obtain ⟨c, hlast, hdone⟩ := last
        rcases hdone.done with htaken | ⟨e, he, href, hamount⟩
        · rw [hpast] at hlast
          exact absurd ⟨call, haudit, c, hlast, _, _, _, hdone.call, htaken⟩
            (hcalls past ev later hhist).2
        · exact h.allocate run hcall.settlements log hev hlast he href hamount
    | reserved r s log writes created =>
      have hcreated : s ∈ ev.after.db.settlements :=
        created.resolve_right (hcalls past ev later hhist).1
      unfold World.log at log
      split at log
      next =>
        exact h.step hcall.settlements (log.trans (List.append_nil _).symm)
          fun x hx => absurd hx List.not_mem_nil
      next =>
        refine h.step hcall.settlements log fun x hx => ?_
        rw [List.mem_singleton.1 hx]
        exact ⟨nofun, fun _ => ⟨s, hcreated, rfl⟩⟩
  -- each entry for an allocation comes from a credit of its own, and so the sums compare
  have hsubperm : ((allocationsSince w₀ w).map AuditLogEntry.allocation).Subperm
      ((hist.flatMap credited).map fun e => some (e.reference, e.amountKobo)) := by
    refine List.subperm_of_subset hfar.nodup fun y hy => ?_
    obtain ⟨x, hx, rfl⟩ := List.mem_map.1 hy
    obtain ⟨m, n, c, a, e, -, -, hc, -, -, he, hallocation⟩ := hfar.source x hx
    refine List.mem_map.2 ⟨e, List.mem_flatMap.2 ⟨c, List.mem_of_getElem? hc, ?_⟩,
      hallocation.symm⟩
    rw [he]
    exact List.mem_singleton_self e
  refine ⟨hfar.reserved, hsubperm, ?_⟩
  have hpos : ∀ e ∈ hist.flatMap credited, 0 ≤ e.amountKobo := by
    intro e he
    obtain ⟨ev, hev, hcredited⟩ := List.mem_flatMap.1 he
    obtain ⟨n, hn⟩ := List.mem_iff_getElem?.1 hev
    cases (htraced n ev hn).does with
    | quiet _ hnone => rw [hnone] at hcredited; exact absurd hcredited List.not_mem_nil
    | credit p pos _ _ hwrites =>
      obtain ⟨b, hb, -, hamount⟩ := hwrites
      rw [hb] at hcredited
      rw [List.mem_singleton.1 hcredited, hamount]
      exact Int.le_of_lt pos
    | allocated p cumulative hcall _ _ =>
      unfold credited at hcredited
      rw [hcall] at hcredited
      exact absurd hcredited List.not_mem_nil
    | reserved _ _ _ hnone _ => rw [hnone] at hcredited; exact absurd hcredited List.not_mem_nil
  have hsum := sum_le_of_subperm (f := fun o : Option (String × Int) => (o.map Prod.snd).getD 0)
    hsubperm fun y hy => by
      obtain ⟨e, he, rfl⟩ := List.mem_map.1 hy
      exact hpos e he
  rw [List.map_map, List.map_map] at hsum
  exact hsum

end Run

/-! ### An allocation reported twice, and a reservation that is not there -/

/-- A credit finds its reference free; other calls find none. -/
def FindsFree (ev : Event ι World Env Call) : Prop :=
  match ev.call with
  | .credit _ reference _ => ev.before.db.findEntry reference = none
  | _ => True

instance (ev : Event ι World Env Call) : Decidable (FindsFree ev) := by
  unfold FindsFree
  cases ev.call <;> infer_instance

/-- Without faults and replays nothing is reported that is not there. -/
theorem no_exception [DecidableEq ι] {hist : List (Event ι World Env Call)}
    (hfree : ∀ ev ∈ hist, FindsFree ev) (hfault : ∀ ev ∈ hist, ev.choice.fault.isNone) :
    ∀ past ev later, hist = past ++ ev :: later → ¬ AbortsReserved ev ∧ ¬ AuditsReplay past ev := by
  rintro past ev later rfl
  constructor
  · rintro ⟨r, s, db, e, -, hf, -⟩
    have hnone := hfault ev (List.mem_append_right _ List.mem_cons_self)
    rw [hf] at hnone
    cases hnone
  · rintro ⟨-, -, x, hlast, bucketId, reference, amountKobo, hcall, htaken⟩
    have hx : x ∈ past := List.mem_of_mem_filter (List.mem_of_getLast? hlast)
    have hfound := hfree x (List.mem_append_left _ hx)
    unfold FindsFree at hfound
    rw [hcall] at hfound
    exact htaken hfound

namespace Sample

def bonus : CreditParams where
  bucketId := "bkt1"
  businessId := "biz"
  amountKobo := 50000
  reference := "alloc_t2_bkt1"

/-- One thread credits the bucket, the other one pays out. -/
def creditAndPay : Bool → List TreasuryOp
  | false => [.credit bonus (by decide)]
  | true => [.initiate "ops" payout "biz" "key"]

/-- Both threads credit the bucket, for the same job. -/
def creditTwice (_ : Bool) : List TreasuryOp := [.credit bonus (by decide)]

/-- Each thread in turn, the calls as often as given. -/
def firstThenSecond (first second : Nat) : List (Bool × Env) :=
  List.replicate first (false, { row := ⟨2, "ble2"⟩ }) ++
    List.replicate second (true, { row := ⟨3, "row3"⟩, uuid := "0a1b2c3d-0000" })

/-- The calls and the end of a run. -/
def treasuryRun (ops : Bool → List TreasuryOp) (schedule : List (Bool × Env)) :
    List (Event Bool World Env Call) × World :=
  let r := exec (fun i => TreasuryOp.runAll (ops i)) funded schedule
  (r.1, r.2.2)

/-- TX1 is rolled back at its commit. -/
def abortsReservation : List (Bool × Env) :=
  [(true, {}), (true, {
    fault := some ⟨.prisma "P2034" "write conflict", true⟩, row := ⟨2, "stl1"⟩ })]

end Sample

/-- The trail of a credit and a withdrawal. -/
theorem audit_trail_sound_creditAndPay :
    let r := Sample.treasuryRun Sample.creditAndPay (Sample.firstThenSecond 2 6)
    r.2.auditLog.length = 3 ∧ TrailSound Sample.funded r.1 r.2 :=
  ⟨by decide +kernel, audit_trail_sound (Run.of_exec _ _ _ fun _ _ => trivial)
    (no_exception (by decide +kernel) (by decide +kernel))⟩

/-- A job that is delivered twice has its allocation reported twice, and an aborted TX1 leaves a
reservation in the log that no settlement answers to. -/
theorem audit_trail_reports_too_much :
    let twice := Sample.treasuryRun Sample.creditTwice (Sample.firstThenSecond 2 2)
    let aborted := Sample.treasuryRun Sample.creditAndPay Sample.abortsReservation
    ((allocationsSince Sample.funded twice.2).length = 2 ∧
        (twice.1.flatMap credited).length = 1 ∧ ¬ TrailSound Sample.funded twice.1 twice.2) ∧
      (∃ x ∈ loggedSince Sample.funded aborted.2, x.action = .settlementReserved) ∧
        aborted.2.db.settlements = [] ∧ ¬ TrailSound Sample.funded aborted.1 aborted.2 := by
  intro twice aborted
  have hreported : (allocationsSince Sample.funded twice.2).length = 2 := by decide +kernel
  have hwritten : (twice.1.flatMap credited).length = 1 := by decide +kernel
  have hlogged : ∃ x ∈ loggedSince Sample.funded aborted.2, x.action = .settlementReserved := by
    decide +kernel
  have hsettlements : aborted.2.db.settlements = [] := by decide +kernel
  refine ⟨⟨hreported, hwritten, fun h => ?_⟩, hlogged, hsettlements, fun h => ?_⟩
  · have hlength := h.allocated.length_le
    rw [List.length_map, List.length_map, hreported, hwritten] at hlength
    omega
  · obtain ⟨x, hx, haction⟩ := hlogged
    obtain ⟨s, hs, -⟩ := h.reserved x hx haction
    rw [hsettlements] at hs
    exact List.not_mem_nil hs

end AccountOS
