import AccountOS.Store.Trace
import AccountOS.Tenancy.Correctness.Footprint
import AccountOS.Treasury.Operations

/-!
# The calls of a withdrawal

No transaction spans the settlement of a withdrawal, the transfer that Nomba makes for it and what is
recorded of the transfer. `SettlementCall` says what each call of a request or a job does to
settlements and transfers, after the calls that its thread has made before (`traced_task`): a thread
creates at most one settlement, and then takes this one from stage to stage.
-/

namespace AccountOS

open Conc Sql

/-! ### What is asked and what is paid -/

/-- What Nomba was asked to pay is what the settlement records. -/
structure ConfirmedTransfer.Pays (t : ConfirmedTransfer) (s : Settlement) : Prop where
  settlementId : s.id = t.settlementId
  amount : t.request.amount = s.amountKobo / 100
  accountName : s.destinationAccountName = some t.request.accountName
  accountNumber : s.destinationAccountNumber = some t.request.accountNumber
  bankCode : s.destinationBankCode = some t.request.bankCode
  destinationType : s.destinationType ≠ .internalBucket

/-- The settlement is what a business has asked for, with this destination. -/
structure Settlement.AskedBy (s : Settlement) (businessId actor : String) (dto : CreateSettlementDto)
    (dest : Destination) : Prop where
  businessId : s.businessId = businessId
  initiatedBy : s.initiatedBy = actor
  amountKobo : (s.amountKobo : ℚ) = dto.amountKobo
  accountName : s.destinationAccountName = dest.accountName
  accountNumber : s.destinationAccountNumber = dest.accountNumber
  bankCode : s.destinationBankCode = dest.bankCode

theorem SettlementRequest.askedBy_settlement {r : SettlementRequest} {dto : CreateSettlementDto}
    (hamount : (r.amountKobo : ℚ) = dto.amountKobo) (bucketId : String)
    (type : SettlementDestinationType) (row : Generated) :
    (r.settlement bucketId type row).AskedBy r.businessId r.actor dto r.dest :=
  ⟨rfl, rfl, hamount, rfl, rfl, rfl⟩

theorem parseDestinationType_ne {type : String} {parsed : SettlementDestinationType}
    (hparsed : parseDestinationType type = some parsed) (hne : type ≠ "INTERNAL_BUCKET") :
    parsed ≠ .internalBucket := by
  rintro rfl
  unfold parseDestinationType at hparsed
  rw [if_neg hne] at hparsed
  split_ifs at hparsed <;> cases hparsed

theorem parseDestinationType_internal {parsed : SettlementDestinationType}
    (hparsed : parseDestinationType "INTERNAL_BUCKET" = some parsed) :
    parsed = .internalBucket := by
  simpa [parseDestinationType, eq_comm] using hparsed

/-! ### Stages of a thread -/

/-- Neither settlements nor transfers change. -/
structure SameSettled (w w' : World) : Prop where
  settlements : w'.db.settlements = w.db.settlements
  transfers : w'.transfers = w.transfers

theorem World.SameData.sameSettled {w w' : World} (h : World.SameData w w') : SameSettled w w' :=
  ⟨congrArg Db.settlements h.db, h.transfers⟩

section Stages

variable {ι : Type} {task : Task} {past : Calls ι} {ev : Event ι World Env Call} {s : Settlement}
  {t : ConfirmedTransfer}

/-- A settlement in a bucket of the business, as the task asks for it, after an earlier call has looked
up the bucket for the destination that it has saved. -/
def AsksFor (task : Task) (past : Calls ι) (db : Db) (s : Settlement) : Prop :=
  ∃ businessId bucketRef dto actor, task = .request businessId (.initiate bucketRef dto actor) ∧
    (∃ bucket, db.findBucket businessId bucketRef = some bucket ∧ s.bucketId = bucket.id) ∧
    ∃ r ∈ past, ∃ looked, r.before.db.findBucket businessId bucketRef = some looked ∧
      s.AskedBy businessId actor dto (resolveDestination dto looked)

/-- The call creates the settlement, before which the thread has done nothing of the kind. -/
structure Opens (task : Task) (past : Calls ι) (ev : Event ι World Env Call) (s : Settlement) :
    Prop where
  nothing : ∀ y ∈ past, SameSettled y.before y.after
  asked : AsksFor task past ev.before.db s
  pending : s.status = .pending
  creates : ev.before.db.createSettlement s = .ok ev.after.db
  transfers : ev.after.transfers = ev.before.transfers

/-- The call sets the status of a settlement, and what goes with it. -/
structure Marks (ev : Event ι World Env Call) (id : String) (status : SettlementStatus) : Prop where
  settlements : ∃ data : SettlementData, data.status = status ∧
    ev.after.db.settlements = updateRow Settlement.id id data.set ev.before.db.settlements
  transfers : ev.after.transfers = ev.before.transfers

/-- The call has the settlement paid. -/
structure HasPaid (ev : Event ι World Env Call) (t : ConfirmedTransfer) (s : Settlement) : Prop where
  transfers : ev.after.transfers = ev.before.transfers ++ [t]
  db : ev.after.db = ev.before.db
  pays : t.Pays s

/-- The last call of the thread that did anything to settlements or transfers. -/
def LastSettled (past earlier : Calls ι) (x : Event ι World Env Call) : Prop :=
  ∃ later, past = earlier ++ x :: later ∧ ∀ y ∈ later, SameSettled y.before y.after

/-- The thread has created the settlement. -/
def IsOpen (task : Task) (past : Calls ι) (s : Settlement) : Prop :=
  ∃ earlier x, LastSettled past earlier x ∧ Opens task earlier x s

/-- It has marked it as PROCESSING. -/
def IsStarted (task : Task) (past : Calls ι) (s : Settlement) : Prop :=
  ∃ earlier x, LastSettled past earlier x ∧ IsOpen task earlier s ∧ Marks x s.id .processing

/-- It has had it paid. -/
def IsPaid (task : Task) (past : Calls ι) (s : Settlement) (t : ConfirmedTransfer) : Prop :=
  ∃ earlier x, LastSettled past earlier x ∧ IsStarted task earlier s ∧ HasPaid x t s

/-- It is about to settle it. -/
def IsProcessing (task : Task) (past : Calls ι) (s : Settlement) : Prop :=
  IsStarted task past s ∨ ∃ t, IsPaid task past s t

/-- **What a call does** to settlements and transfers, after the calls of its thread. -/
inductive SettlementCall (task : Task) (past : Calls ι) (ev : Event ι World Env Call) : Prop
  | other (same : SameSettled ev.before ev.after)
  | opens {s : Settlement} (opens : Opens task past ev s)
  | starts {s : Settlement} (opened : IsOpen task past s) (marks : Marks ev s.id .processing)
  | pays {s : Settlement} {t : ConfirmedTransfer} (started : IsStarted task past s)
      (paid : HasPaid ev t s)
  | completes {s : Settlement} (processing : IsProcessing task past s)
      (settled : s.destinationType = .internalBucket ∨ ∃ t, IsPaid task past s t)
      (marks : Marks ev s.id .completed)
  | fails {s : Settlement} (processing : IsProcessing task past s) (marks : Marks ev s.id .failed)

theorem lastSettled_append_singleton (x : Event ι World Env Call) :
    LastSettled (past ++ [x]) past x :=
  ⟨[], rfl, fun _ hy => absurd hy List.not_mem_nil⟩

/-- A call that does nothing to them leaves the stage. -/
theorem LastSettled.append {earlier : Calls ι} {x y : Event ι World Env Call}
    (h : LastSettled past earlier x) (hy : SameSettled y.before y.after) :
    LastSettled (past ++ [y]) earlier x := by
  obtain ⟨later, rfl, hlater⟩ := h
  refine ⟨later ++ [y], by simp, ?_⟩
  simp only [List.mem_append, List.mem_singleton]
  rintro z (hz | rfl)
  · exact hlater z hz
  · exact hy

/-- The thread has created the settlement at some call. -/
def HasOpened (task : Task) (past : Calls ι) (s : Settlement) : Prop :=
  ∃ earlier x later, past = earlier ++ x :: later ∧ Opens task earlier x s

theorem HasOpened.of_last {earlier : Calls ι} {x : Event ι World Env Call}
    (hlast : LastSettled past earlier x) (h : HasOpened task earlier s) : HasOpened task past s := by
  obtain ⟨later, rfl, -⟩ := hlast
  obtain ⟨first, y, rest, rfl, hopens⟩ := h
  exact ⟨first, y, rest ++ x :: later, by simp, hopens⟩

theorem IsOpen.hasOpened (h : IsOpen task past s) : HasOpened task past s := by
  obtain ⟨earlier, x, ⟨later, hpast, -⟩, hopens⟩ := h
  exact ⟨earlier, x, later, hpast, hopens⟩

theorem IsStarted.hasOpened (h : IsStarted task past s) : HasOpened task past s := by
  obtain ⟨earlier, x, hlast, hopen, -⟩ := h
  exact hopen.hasOpened.of_last hlast

theorem IsPaid.hasOpened (h : IsPaid task past s t) : HasOpened task past s := by
  obtain ⟨earlier, x, hlast, hstarted, -⟩ := h
  exact hstarted.hasOpened.of_last hlast

theorem IsProcessing.hasOpened (h : IsProcessing task past s) : HasOpened task past s := by
  rcases h with hstarted | ⟨t, hpaid⟩
  · exact hstarted.hasOpened
  · exact hpaid.hasOpened

/-- Until a settlement is paid, the thread has had nothing paid. -/
theorem IsStarted.nothing_paid (h : IsStarted task past s) :
    ∀ y ∈ past, y.after.transfers = y.before.transfers := by
  obtain ⟨_, p, ⟨later, rfl, hlater⟩, ⟨_, x, ⟨between, rfl, hbetween⟩, hopens⟩, hmarks⟩ := h
  intro y hy
  simp only [List.mem_append, List.mem_cons] at hy
  rcases hy with (hy | rfl | hy) | rfl | hy
  · exact (hopens.nothing y hy).transfers
  · exact hopens.transfers
  · exact (hbetween y hy).transfers
  · exact hmarks.transfers
  · exact (hlater y hy).transfers

theorem IsProcessing.append {y : Event ι World Env Call} (h : IsProcessing task past s)
    (hy : SameSettled y.before y.after) : IsProcessing task (past ++ [y]) s := by
  rcases h with ⟨earlier, x, hlast, hrest⟩ | ⟨t, earlier, x, hlast, hrest⟩
  · exact .inl ⟨earlier, x, hlast.append hy, hrest⟩
  · exact .inr ⟨t, earlier, x, hlast.append hy, hrest⟩

/-- A call changes the transfers only by paying for the settlement of its thread. -/
theorem SettlementCall.transfers_cases (h : SettlementCall task past ev) :
    ev.after.transfers = ev.before.transfers ∨
      ∃ s t, IsStarted task past s ∧ HasPaid ev t s := by
  cases h with
  | other same => exact .inl same.transfers
  | opens opens => exact .inl opens.transfers
  | starts _ marks => exact .inl marks.transfers
  | pays started paid => exact .inr ⟨_, _, started, paid⟩
  | completes _ _ marks => exact .inl marks.transfers
  | fails _ marks => exact .inl marks.transfers

/-- A row of another settlement stays as it is. -/
theorem SettlementCall.mem_settlements {z : Settlement} (h : SettlementCall task past ev)
    (hz : z ∈ ev.before.db.settlements) :
    z ∈ ev.after.db.settlements ∨ ∃ s, HasOpened task past s ∧ s.id = z.id := by
  have hmarks : ∀ {s : Settlement} {status : SettlementStatus}, HasOpened task past s →
      Marks ev s.id status →
        z ∈ ev.after.db.settlements ∨ ∃ s, HasOpened task past s ∧ s.id = z.id := by
    rintro s status hopened ⟨⟨data, -, hdb⟩, -⟩
    by_cases hid : z.id = s.id
    · exact .inr ⟨s, hopened, hid.symm⟩
    · rw [hdb]
      exact .inl (mem_updateRow_of_ne hz hid)
  cases h with
  | other same => exact .inl (by rwa [same.settlements])
  | opens opens =>
    obtain ⟨-, -, -, hdb⟩ := Db.createSettlement_eq_ok.1 opens.creates
    rw [hdb]
    exact .inl (List.mem_append_left _ hz)
  | starts opened marks => exact hmarks opened.hasOpened marks
  | pays _ paid => exact .inl (by rwa [paid.db])
  | completes processing _ marks => exact hmarks processing.hasOpened marks
  | fails processing marks => exact hmarks processing.hasOpened marks

/-! ### Tracing the methods -/

variable {i : ι}

theorem WriteOp.sameSettled {o : WriteOp} {w : World} {db : Db} (ho : o.table ≠ .settlements)
    (hop : o.apply w.db = .ok db) : SameSettled w { w with db } :=
  ⟨(WriteOp.sameExcept hop).settlements ho, rfl⟩

theorem footprint_sameSettled : Footprint WriteOp.Delivering SameSettled where
  sameData := World.SameData.sameSettled
  writes := by
    rintro o w w' db ho hop rfl
    refine WriteOp.sameSettled ?_ hop
    cases o <;> first | exact ho.elim | nofun

theorem serviceFootprint_sameSettled : ServiceFootprint SameSettled where
  sameData := World.SameData.sameSettled
  writes := by
    rintro o w w' db ho hop rfl
    refine WriteOp.sameSettled ?_ hop
    cases o <;> first | exact ho.elim | nofun
  register := by
    rintro o w w' db hop rfl
    cases o with
    | createCustomer c h =>
      obtain ⟨-, -, -, -, rfl⟩ := Db.createCustomer_eq_ok.1 hop
      exact ⟨rfl, rfl⟩
    | renameCustomer id newName h =>
      obtain ⟨-, -, rfl⟩ := Db.renameCustomer_eq_ok.1 hop
      exact ⟨rfl, rfl⟩
    | createTreasuryBucket b =>
      obtain ⟨-, -, -, rfl⟩ := Db.createTreasuryBucket_eq_ok.1 hop
      exact ⟨rfl, rfl⟩
    | renameBucket id name =>
      obtain ⟨-, rfl⟩ := Db.renameBucket_eq_ok.1 hop
      exact ⟨rfl, rfl⟩
  bucketStatus := by
    rintro id status w w' db hop rfl
    obtain ⟨-, rfl⟩ := Db.updateBucketStatus_eq_ok.1 hop
    exact ⟨rfl, rfl⟩
  trans h h' := ⟨h'.settlements.trans h.settlements, h'.transfers.trans h.transfers⟩

theorem traced_sameSettled {α : Type} {p : Action α}
    (hp : p.Keeps (fun _ _ _ _ => True) SameSettled) :
    p.Traced i (SettlementCall task) (fun _ _ => True) (fun _ _ => True) past :=
  Proc.Traced.imp (fun _ _ _ h => .other h) hp.traced_each

/-- **The failure** of a settlement that the thread is processing. -/
theorem traced_failSettlement {α : Type} {r : SettlementRequest} {error : Error}
    (hprocessing : IsProcessing task past s) :
    (failSettlement r s.id error : Action α).Traced i (SettlementCall task) (fun _ _ => True)
      (fun _ _ => True) past := by
  refine Proc.Traced.bind (Proc.Traced.catching (traced_statement ?_ ?_))
  · rintro env w db _ hop rfl
    obtain ⟨-, -, rfl⟩ := Db.updateSettlement_eq_ok.1 hop
    refine ⟨.fails hprocessing ⟨⟨_, rfl, rfl⟩, rfl⟩, traced_sameSettled ?_⟩
    exact Proc.Keeps.bind serviceFootprint_sameSettled.keeps_audit fun _ => by split <;> trivial
  · refine fun env w e w' hsame => ⟨.other hsame.sameSettled, traced_sameSettled ?_⟩
    exact Proc.Keeps.bind serviceFootprint_sameSettled.keeps_audit fun _ => by split <;> trivial

/-- Whatever is thrown before the settlement is COMPLETED, the thread is still processing it. -/
theorem traced_thenAudit {α : Type} {l : Call} {body : Env → TxBody α} {entry : α → AuditLogEntry}
    (hprocessing : IsProcessing task past s)
    (hsettled : s.destinationType = .internalBucket ∨ ∃ t, IsPaid task past s t)
    (hbody : ∀ env db a db', (body env).run schema db = .ok (a, db') →
      ∃ data : SettlementData, data.status = .completed ∧
        db'.settlements = updateRow Settlement.id s.id data.set db.settlements) :
    ((transaction l body).bind fun a => audit (entry a)).Traced i (SettlementCall task)
      (fun _ _ => True) (fun _ past' => IsProcessing task past' s) past := by
  refine Proc.Traced.bind (traced_transaction logsOnly_nothing ?_ ?_)
  · rintro env w a db _ hrun rfl
    refine ⟨.completes hprocessing hsettled ⟨hbody env w.db a db hrun, rfl⟩, ?_⟩
    exact traced_audit fun _ _ _ hsame => ⟨.other hsame.sameSettled, trivial⟩
  · exact fun env w e w' hsame =>
      ⟨.other hsame.sameSettled, hprocessing.append hsame.sameSettled⟩

theorem traced_settleInternal {r : SettlementRequest} {destRef : String}
    (hprocessing : IsProcessing task past s) (hinternal : s.destinationType = .internalBucket) :
    (settleInternal r s.id destRef).Traced i (SettlementCall task) (fun _ _ => True)
      (fun _ past' => IsProcessing task past' s) past := by
  refine traced_thenAudit hprocessing (.inl hinternal) fun env db ref db' hrun => ?_
  obtain ⟨_, _, db₁, db₂, -, -, hdebit, hcredit, hupdate, -⟩ :=
    (settleInternalTx_run_eq_ok db).1 hrun
  obtain ⟨-, -, -, -, rfl⟩ := Db.createBucketLedgerEntry_eq_ok.1 hdebit
  obtain ⟨-, -, -, -, rfl⟩ := Db.createBucketLedgerEntry_eq_ok.1 hcredit
  obtain ⟨-, -, rfl⟩ := Db.updateSettlement_eq_ok.1 hupdate
  exact ⟨_, rfl, rfl⟩

theorem traced_completeSettlement {r : SettlementRequest} {nombaReference : String}
    (hpaid : IsPaid task past s t) :
    (completeSettlement r s.id nombaReference).Traced i (SettlementCall task) (fun _ _ => True)
      (fun _ past' => IsProcessing task past' s) past := by
  refine traced_thenAudit (.inr ⟨t, hpaid⟩) (.inr ⟨t, hpaid⟩) fun env db u db' hrun => ?_
  obtain ⟨_, db₁, -, hdebit, hupdate⟩ := (completeSettlementTx_run_eq_ok db).1 hrun
  obtain ⟨-, -, -, -, rfl⟩ := Db.createBucketLedgerEntry_eq_ok.1 hdebit
  obtain ⟨-, -, rfl⟩ := Db.updateSettlement_eq_ok.1 hupdate
  exact ⟨_, rfl, rfl⟩

/-- **The transfer** of a settlement that the thread has started. -/
theorem traced_executeTransfer {r : SettlementRequest} {bucketId : String}
    {type : SettlementDestinationType} {row : Generated}
    (htype : parseDestinationType r.dest.type = some type)
    (hstarted : IsStarted task past (r.settlement bucketId type row)) :
    (executeTransfer r (r.settlement bucketId type row).id).Traced i (SettlementCall task)
      (fun _ _ => True) (fun _ past' => IsProcessing task past' (r.settlement bucketId type row))
      past := by
  unfold executeTransfer
  split
  next hinternal =>
    split
    · exact .inl hstarted
    · rw [hinternal] at htype
      exact traced_settleInternal (.inl hstarted) (parseDestinationType_internal htype)
  next hexternal =>
    split
    next accountNumber bankCode accountName hnumber hcode hname =>
      refine Proc.Traced.bind (traced_bankTransfer ?_ ?_)
      · rintro env w _ rfl
        have hpays : ConfirmedTransfer.Pays
            ⟨row.id, nombaRequest r row.id accountNumber bankCode accountName env⟩
            (r.settlement bucketId type row) :=
          ⟨rfl, rfl, truthy_eq_some hname, truthy_eq_some hnumber, truthy_eq_some hcode,
            parseDestinationType_ne htype hexternal⟩
        exact ⟨.pays hstarted ⟨rfl, rfl, hpays⟩, traced_completeSettlement
          ⟨past, _, lastSettled_append_singleton _, hstarted, ⟨rfl, rfl, hpays⟩⟩⟩
      · exact fun env w e => ⟨.other ⟨rfl, rfl⟩, IsProcessing.append (.inl hstarted) ⟨rfl, rfl⟩⟩
    next => exact .inl hstarted

/-- **A settlement** from its reservation on, when the bucket has been looked up. -/
theorem traced_settle {r : SettlementRequest} {dto : CreateSettlementDto} {looked : TreasuryBucket}
    {first : Event ι World Env Call}
    (htask : task = .request r.businessId (.initiate r.bucketRef dto r.actor))
    (hfirst : SameSettled first.before first.after)
    (hlooked : first.before.db.findBucket r.businessId r.bucketRef = some looked)
    (hamount : (r.amountKobo : ℚ) = dto.amountKobo)
    (hdest : r.dest = resolveDestination dto looked) :
    (settle r).Traced i (SettlementCall task) (fun _ _ => True) (fun _ _ => True) [first] := by
  refine Proc.Traced.bind (traced_transaction (logsOnly_log _) ?_ fun _ _ _ _ hsame =>
    ⟨.other hsame.sameSettled, trivial⟩)
  rintro env w s db w' hrun hw'
  obtain ⟨b, type, hb, -, htype, rfl, hcreate⟩ := (reserveTx_run_eq_ok w.db).1 hrun
  have hopens : Opens task [first] ⟨i, .reserve r.businessId r.bucketRef r.amountKobo, env, w, w'⟩
      (r.settlement b.id type env.row) := by
    subst hw'
    refine ⟨?_, ?_, rfl, hcreate, w.log_transfers env _⟩
    · intro y hy
      rw [List.mem_singleton.1 hy]
      exact hfirst
    · refine ⟨r.businessId, r.bucketRef, dto, r.actor, htask, ⟨b, hb, rfl⟩, first,
        List.mem_singleton_self _, looked, hlooked, ?_⟩
      rw [← hdest]
      exact SettlementRequest.askedBy_settlement hamount b.id type env.row
  refine ⟨.opens hopens, ?_⟩
  have hopen : IsOpen task ([first] ++ [⟨i, .reserve r.businessId r.bucketRef r.amountKobo, env, w, w'⟩])
      (r.settlement b.id type env.row) := ⟨[first], _, lastSettled_append_singleton _, hopens⟩
  refine Proc.Traced.bind (traced_statement ?_ fun _ _ _ _ hsame =>
    ⟨.other hsame.sameSettled, trivial⟩)
  rintro env₂ w₂ db₂ w₃ hop rfl
  obtain ⟨-, -, rfl⟩ := Db.updateSettlement_eq_ok.1 hop
  refine ⟨.starts hopen ⟨⟨_, rfl, rfl⟩, rfl⟩, Proc.Traced.catching (Proc.Traced.bind ?_)⟩
  refine Proc.Traced.mono (fun _ _ _ => trivial) (fun _ _ h => traced_failSettlement h)
    (traced_executeTransfer htype ?_)
  exact ⟨_, _, lastSettled_append_singleton _, hopen, ⟨⟨_, rfl, rfl⟩, rfl⟩⟩

theorem traced_initiate {businessId bucketRef actor : String} {dto : CreateSettlementDto}
    (htask : task = .request businessId (.initiate bucketRef dto actor)) :
    (initiate bucketRef dto businessId actor).Traced i (SettlementCall task) (fun _ _ => True)
      (fun _ _ => True) [] := by
  refine Proc.Traced.bind (Proc.Traced.bind (traced_find ?_ fun _ _ _ _ hsame =>
    ⟨.other hsame.sameSettled, trivial⟩))
  intro env w
  refine ⟨.other ⟨rfl, rfl⟩, ?_⟩
  cases hlooked : w.db.findBucket businessId bucketRef with
  | none => trivial
  | some looked =>
    change Proc.Traced i _ _ _ (if _ then _ else _ : Action _) _
    split
    · trivial
    · unfold bigIntOrThrow
      cases hamount : bigInt dto.amountKobo with
      | error e => trivial
      | ok amountKobo =>
        exact traced_settle htask ⟨rfl, rfl⟩ hlooked (bigInt_eq_ok.1 hamount).symm rfl

/-- **The calls of a request or a job**, stage by stage. -/
theorem traced_task {isUrl : String → Bool} (task : Task) :
    (task.run isUrl).Traced i (SettlementCall task) (fun _ _ => True) (fun _ _ => True) [] := by
  cases task with
  | inflow payload =>
    exact traced_sameSettled
      (footprint_sameSettled.keeps_process (fun _ h => h) fun _ _ => ⟨rfl, rfl⟩)
  | retry job =>
    exact traced_sameSettled
      (footprint_sameSettled.keeps_retry (fun _ => trivial) fun _ h => h.executing.delivering)
  | request businessId r =>
    by_cases hr : ∃ bucketRef dto actor, r = .initiate bucketRef dto actor
    · obtain ⟨bucketRef, dto, actor, rfl⟩ := hr
      exact Proc.Traced.bind (traced_initiate rfl)
    · exact traced_sameSettled (serviceFootprint_sameSettled.keeps_request_of_ne
        fun bucketRef dto actor h => hr ⟨bucketRef, dto, actor, h⟩)

end Stages

end AccountOS
