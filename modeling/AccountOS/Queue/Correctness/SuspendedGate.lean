import AccountOS.Accounts.Correctness.TerminalStates
import AccountOS.Queue.Correctness.Footprint

/-!
# The gate of SUSPENDED accounts

A job looks its account up once. By the status that it finds there it decides how it records the
inflow, FLAGGED or PENDING, and whether the rules of the account are evaluated. The lock that makes
inflows of one account wait for each other is only taken afterwards, when the ledger entry is
written, and the status is not read again under it.
-/

namespace AccountOS

open Conc Sql

/-! ### Jobs and status changes -/

/-- A job of the webhook queue that is an inflow. -/
structure InflowJob where
  payload : InflowPayload
  inflow : WebhookProcessor.isCustomEvent payload = false

/-- What runs: the processing of inflows, and operations that change the status of an account. -/
inductive InflowOrStatus
  | inflow (job : InflowJob)
  | status (op : StatusOp)

def InflowOrStatus.run : InflowOrStatus → Action Unit
  | inflow job => WebhookProcessor.process job.payload
  | status op => op.run

/-- How an inflow is recorded that has found its account in a status, if at all. -/
def AccountStatus.recordedAs : AccountStatus → Option ReconciliationStatus
  | active => some .pending
  | suspended => some .flagged
  | closed | expired => none

/-- The calls by which rules are evaluated and executed. -/
def Call.triggersRules : Call → Bool
  | findRules _ | createRuleExecution .. => true
  | _ => false

section Events

variable {ι : Type}

/-- The call looks up an account by its number, and finds `a`. -/
def LooksUp (ev : Event ι World Env Call) (a : Account) : Prop :=
  ∃ number, ev.call = .findAccount number ∧ ev.before.db.findAccount number = some a

/-- The call commits the ledger entry `e`. -/
def CommitsEntry (ev : Event ι World Env Call) (e : LedgerEntry) : Prop :=
  ev.after.db.ledgerEntries = ev.before.db.ledgerEntries ++ [e]

end Events

/-! ### What each call of a job may do -/

/-- No ledger entry is added. -/
structure SameEntries (w w' : World) : Prop where
  unique : w.db.UniqueColumns → w'.db.UniqueColumns
  entries : w'.db.ledgerEntries.length = w.db.ledgerEntries.length

theorem SameEntries.of_sameData {w w' : World} (h : World.SameData w w') : SameEntries w w' := by
  have hdb : w'.db = w.db := h.db
  constructor
  · rw [hdb]
    exact id
  · rw [hdb]

/-- Every statement but the one that adds an entry. -/
theorem footprint_sameEntries : Footprint (fun o => ∀ e, o ≠ .createLedgerEntry e) SameEntries where
  sameData h := .of_sameData h
  writes := by
    rintro o w w' db ho hop rfl
    refine ⟨fun hunique => hunique.apply hop, ?_⟩
    show db.ledgerEntries.length = w.db.ledgerEntries.length
    by_cases htable : o.table = .ledgerEntries
    · cases o with
      | createLedgerEntry e => exact absurd rfl (ho e)
      | updateReconciliationByRef ref status =>
        obtain ⟨-, rfl⟩ := Db.updateReconciliationByRef_eq_ok.1 hop
        exact List.length_map ..
      | updateReconciliationById id status =>
        obtain ⟨-, rfl⟩ := Db.updateReconciliationById_eq_ok.1 hop
        exact List.length_map ..
      | _ => cases htable
    · have hledger : db.ledgerEntries = w.db.ledgerEntries :=
        (WriteOp.sameExcept hop).ledgerEntries htable
      rw [hledger]

/-- What a call of a job may do, after the calls that its thread has made. The job commits one entry
at most, recorded as the status says that it has found; it evaluates and executes rules after it has
committed an entry that is PENDING. -/
structure InflowCall {ι : Type} (payload : InflowPayload) (past : Calls ι)
    (ev : Event ι World Env Call) : Prop where
  unique : ev.before.db.UniqueColumns → ev.after.db.UniqueColumns
  commits : ∀ e, CommitsEntry ev e → e.nombaTransactionRef = payload.transactionRef ∧
    (∀ x ∈ past, World.SameData x.before x.after) ∧
      ∃ r ∈ past, ∃ a, LooksUp r a ∧ e.accountId = a.id ∧
        a.status.recordedAs = some e.reconciliationStatus
  triggers : ev.call.triggersRules = true →
    ∃ x ∈ past, ∃ e, CommitsEntry x e ∧ e.reconciliationStatus = .pending

section Traced

variable {ι : Type} {i : ι} {payload : InflowPayload} {past : Calls ι}
  {ev : Event ι World Env Call}

theorem SameEntries.not_commitsEntry (h : SameEntries ev.before ev.after) {e : LedgerEntry} :
    ¬ CommitsEntry ev e := by
  intro hcommits
  have hlength := h.entries
  rw [CommitsEntry] at hcommits
  rw [hcommits, List.length_append, List.length_singleton] at hlength
  omega

/-- A call that adds no entry and triggers nothing. -/
theorem InflowCall.of_sameEntries (h : SameEntries ev.before ev.after)
    (hcall : ev.call.triggersRules = false) : InflowCall payload past ev where
  unique := h.unique
  commits e hcommits := absurd hcommits h.not_commitsEntry
  triggers htriggers := by
    rw [hcall] at htriggers
    cases htriggers

theorem InflowCall.of_sameData (h : World.SameData ev.before ev.after)
    (hcall : ev.call.triggersRules = false) : InflowCall payload past ev :=
  .of_sameEntries (.of_sameData h) hcall

/-- A discarded job, or one that is done with its entry. -/
theorem traced_auditOnly {entry : AuditLogEntry} :
    (audit entry).Traced i (InflowCall payload) (fun _ _ => True) (fun _ _ => True) past :=
  traced_audit fun _ _ _ hsame => ⟨.of_sameData hsame rfl, trivial⟩

/-- Writing the entry, by the status that the account was found in. -/
theorem traced_writeInflow {found : FoundAccount} {status : ReconciliationStatus}
    {k : Int → Action Unit} (hpast : ∀ x ∈ past, World.SameData x.before x.after)
    {r : Event ι World Env Call} (hr : r ∈ past) (hfound : LooksUp r found.account)
    (hstatus : found.account.status.recordedAs = some status)
    (hk : ∀ total x e, CommitsEntry x e → e.reconciliationStatus = status →
      (k total).Traced i (InflowCall payload) (fun _ _ => True) (fun _ _ => True) (past ++ [x])) :
    ((writeInflow (WebhookProcessor.inflowDto payload found) status).bind k).Traced i
      (InflowCall payload) (fun _ _ => True) (fun _ _ => True) past := by
  refine Proc.Traced.bind (traced_transaction logsOnly_nothing ?_
    fun _ _ _ _ hsame => ⟨.of_sameData hsame rfl, trivial⟩)
  intro env w total db w' hrun hw'
  subst hw'
  obtain ⟨amountKobo, -, -, hop⟩ := (writeInflowTx_run_eq_ok w.db).1 hrun
  have hunique : w.db.UniqueColumns → db.UniqueColumns := fun h =>
    h.apply (o := .createLedgerEntry _) hop
  obtain ⟨-, -, -, hdb⟩ := Db.createLedgerEntry_eq_ok.1 hop
  have hcommits : CommitsEntry (⟨i, .writeInflow payload.transactionRef, env, w, { w with db }⟩ :
      Event ι World Env Call) ((WebhookProcessor.inflowDto payload found).entry status env
        amountKobo (w.db.inflowSum found.account.id)) := by
    show db.ledgerEntries = _
    rw [hdb]
    rfl
  refine ⟨⟨hunique, fun e he => ?_, nofun⟩, hk total _ _ hcommits rfl⟩
  -- a call commits one entry
  rw [CommitsEntry] at hcommits he
  rw [hcommits, List.append_cancel_left_eq, List.singleton_inj] at he
  subst he
  exact ⟨rfl, hpast, r, hr, found.account, hfound, rfl, hstatus⟩

/-- The rules of an inflow that has been recorded as PENDING. -/
theorem traced_rest {account : Account} {total : Int} {x : Event ι World Env Call} {e : LedgerEntry}
    (hx : CommitsEntry x e) (he : e.reconciliationStatus = .pending) :
    ((bigIntOrThrow payload.amountKobo).bind fun amountKobo =>
      (evaluate account.id account.executionModel
        (WebhookProcessor.inflowEvent amountKobo total)).bind fun matchingRules =>
      (WebhookProcessor.settleInflow payload account matchingRules).bind fun _ =>
      WebhookProcessor.createProcessedEvent payload "NOMBA_INFLOW" account).Traced i
        (InflowCall payload) (fun _ _ => True) (fun _ _ => True) (past ++ [x]) := by
  have F := footprint_sameEntries
  have hexecuting : ∀ o : WriteOp, o.Executing → ∀ e, o ≠ .createLedgerEntry e := by
    rintro o ho e rfl
    exact ho
  have hreconciling : ∀ o : WriteOp, o.Reconciling → ∀ e, o ≠ .createLedgerEntry e := by
    rintro o ho e rfl
    exact ho
  have hclaiming : ∀ o : WriteOp, o.Claiming → ∀ e, o ≠ .createLedgerEntry e := by
    rintro o ho e rfl
    exact ho
  refine Proc.Traced.mono (fun _ _ _ => trivial) (fun _ _ _ => trivial)
    (Proc.Keeps.traced (R := SameEntries) ?_ ?_)
  · refine Proc.Keeps.bind keeps_bigIntOrThrow fun amountKobo => ?_
    refine Proc.Keeps.bind F.keeps_evaluate fun matchingRules => ?_
    refine Proc.Keeps.bind (F.keeps_settleInflow hexecuting hreconciling ?_) fun _ =>
      F.keeps_createProcessedEvent hclaiming
    exact fun w job => ⟨id, rfl⟩
  · intro later ev _ _ hsame
    have hmem : x ∈ past ++ [x] ++ later := by simp
    exact ⟨hsame.unique, fun e' he' => absurd he' hsame.not_commitsEntry, fun _ =>
      ⟨x, hmem, e, hx, he⟩⟩

/-- **Each call of a job.** -/
theorem traced_inflow (hinflow : WebhookProcessor.isCustomEvent payload = false) :
    (WebhookProcessor.process payload).Traced i (InflowCall payload) (fun _ _ => True)
      (fun _ _ => True) [] := by
  have hhandler : ∀ past' err, (if Error.hasCode "P2002" err then
      audit (WebhookProcessor.duplicateDiscarded payload [("reason", .str "unique_conflict")])
      else .raise err : Action Unit).Traced i (InflowCall payload) (fun _ _ => True)
        (fun _ _ => True) past' := by
    intro past' err
    split
    · exact traced_auditOnly
    · trivial
  suffices h : (WebhookProcessor.processEvent payload).Traced i (InflowCall payload)
      (fun _ _ => True) (fun _ _ => True) [] from
    Proc.Traced.catching (h.mono (fun _ _ h => h) fun err past' _ => hhandler past' err)
  refine Proc.Traced.bind (traced_find (fun env w => ⟨.of_sameData (.refl w) rfl, ?_⟩)
    fun _ _ _ _ hsame => ⟨.of_sameData hsame rfl, trivial⟩)
  cases w.db.findProcessedEvent payload.eventId with
  | some e => exact traced_auditOnly
  | none =>
    refine Proc.Traced.bind (traced_find (fun env' w' => ⟨.of_sameData (.refl w') rfl, ?_⟩)
      fun _ _ _ _ hsame => ⟨.of_sameData hsame rfl, trivial⟩)
    cases hfound : w'.db.findAccount payload.accountNumber with
    | none => exact traced_auditOnly
    | some account =>
      have hlooked : LooksUp (⟨i, .findAccount payload.accountNumber, env', w', w'⟩ :
          Event ι World Env Call) account := ⟨_, rfl, hfound⟩
      -- nothing has been written before the account's status is looked at
      have hpast : ∀ x ∈ ([] ++ [⟨i, .findProcessedEvent payload.eventId, env, w, w⟩] ++
          [⟨i, .findAccount payload.accountNumber, env', w', w'⟩] : Calls ι),
          World.SameData x.before x.after := by
        intro x hx
        simp only [List.nil_append, List.cons_append, List.mem_cons, List.not_mem_nil,
          or_false] at hx
        rcases hx with rfl | rfl
        · exact .refl w
        · exact .refl w'
      simp only [Option.map_some, hinflow, Bool.false_eq_true, if_false]
      cases hstatus : account.status with
      | suspended =>
        exact traced_writeInflow hpast (by simp) hlooked (by rw [hstatus]; rfl) fun _ _ _ _ _ =>
          traced_auditOnly
      | closed => exact traced_auditOnly
      | expired => exact traced_auditOnly
      | active =>
        exact traced_writeInflow hpast (by simp) hlooked (by rw [hstatus]; rfl)
          fun _ _ _ hx he => traced_rest hx he

end Traced

/-! ### Runs -/

section Runs

variable {ι : Type}

/-- **The gate.** Rules are evaluated for an inflow only after its entry has been committed, and
only if the account was ACTIVE at that moment. An inflow that is committed while the account is
SUSPENDED is FLAGGED, and its job triggers no rule. -/
structure SuspendedGate (threads : ι → InflowOrStatus) (hist : List (Event ι World Env Call)) :
    Prop where
  evaluated : ∀ (n : ℕ) ev job, hist[n]? = some ev → threads ev.who = .inflow job →
    ev.call.triggersRules = true → ∃ (m : ℕ) (x : Event ι World Env Call) (e : LedgerEntry),
      m < n ∧ hist[m]? = some x ∧ x.who = ev.who ∧ CommitsEntry x e ∧
        e.nombaTransactionRef = job.payload.transactionRef ∧
        x.before.db.statusOf e.accountId = some .active
  flagged : ∀ x ∈ hist, ∀ job, threads x.who = .inflow job → ∀ e, CommitsEntry x e →
    x.before.db.statusOf e.accountId = some .suspended → e.reconciliationStatus = .flagged ∧
      ∀ ev ∈ hist, ev.who = x.who → ev.call.triggersRules = false

/-- Between the lookup by which a job finds its account ACTIVE and the commit of its entry, whenever
another thread takes the account out of ACTIVE, the account is put back before the commit. -/
def ActiveUntilCommitted (hist : List (Event ι World Env Call)) : Prop :=
  ∀ (m k n : ℕ) (r x ev : Event ι World Env Call) (a : Account) (e : LedgerEntry),
    m < k → k < n → hist[m]? = some r → hist[k]? = some x → hist[n]? = some ev →
    r.who = ev.who → x.who ≠ ev.who → LooksUp r a → a.status = .active →
    CommitsEntry ev e → e.accountId = a.id →
    x.before.db.statusOf a.id = some .active → x.after.db.statusOf a.id ≠ some .active →
    ∃ (j : ℕ) (y : Event ι World Env Call), k < j ∧ j < n ∧ hist[j]? = some y ∧
      y.after.db.statusOf a.id = some .active

variable [DecidableEq ι] {threads : ι → InflowOrStatus} {w₀ w : World}
  {hist : List (Event ι World Env Call)} {ps : ι → Action Unit}
  (run : Run (fun _ _ _ _ => True) (fun i => (threads i).run) w₀ hist ps w)
include run

theorem inflowCall_of_run {n : ℕ} {ev : Event ι World Env Call} (hev : hist[n]? = some ev) :
    (ev.before.db.UniqueColumns → ev.after.db.UniqueColumns) ∧
      ∀ job, threads ev.who = .inflow job →
        InflowCall job.payload (callsOf ev.who (hist.take n)) ev := by
  refine (run.traced (K := fun i past ev =>
    (ev.before.db.UniqueColumns → ev.after.db.UniqueColumns) ∧
      ∀ job, threads i = .inflow job → InflowCall job.payload past ev)
    (Q := fun _ _ _ => True) (E := fun _ _ _ => True) fun i => ?_).1 n ev hev
  cases hthread : threads i with
  | inflow job =>
    refine (traced_inflow job.inflow).imp fun past ev _ hcall => ⟨hcall.unique, ?_⟩
    rintro _ ⟨⟩
    exact hcall
  | status op =>
    refine op.traced_run.imp fun past ev _ hcall => ⟨hcall.unique, ?_⟩
    rintro _ ⟨⟩

theorem uniqueColumns_of_run (hunique : w₀.db.UniqueColumns) (n : ℕ) :
    (stateAt hist w n).db.UniqueColumns :=
  run.always (I := fun w => w.db.UniqueColumns) hunique
    (fun _ _ hev => (inflowCall_of_run run hev).1) n

/-- A job commits one entry at most. -/
theorem commitsEntry_unique {m n : ℕ} {x ev : Event ι World Env Call} {job : InflowJob}
    {e e' : LedgerEntry} (hx : hist[m]? = some x) (hev : hist[n]? = some ev)
    (hsame : x.who = ev.who) (hjob : threads ev.who = .inflow job) (hxe : CommitsEntry x e)
    (heve : CommitsEntry ev e') : e = e' := by
  have hlater : ∀ {m n : ℕ} {x ev : Event ι World Env Call} {e e' : LedgerEntry},
      hist[m]? = some x → hist[n]? = some ev → x.who = ev.who → threads ev.who = .inflow job →
      CommitsEntry x e → CommitsEntry ev e' → ¬ m < n := by
    intro m n x ev e e' hx hev hsame hjob hxe heve hmn
    obtain ⟨-, hpast, -⟩ := ((inflowCall_of_run run hev).2 job hjob).commits e' heve
    have hquiet := hpast x (mem_callsOf_take.2 ⟨hsame, m, hmn, hx⟩)
    exact (SameEntries.of_sameData hquiet).not_commitsEntry hxe
  have hmn : m = n := by
    have hle := hlater hx hev hsame hjob hxe heve
    have hge := hlater hev hx hsame.symm (by rw [hsame]; exact hjob) heve hxe
    omega
  subst hmn
  rw [hx] at hev
  cases hev
  rw [CommitsEntry] at hxe heve
  rw [hxe, List.append_cancel_left_eq, List.singleton_inj] at heve
  exact heve

/-- An entry that is PENDING was committed while its account was ACTIVE, unless the account has
changed behind the job's back. -/
theorem active_of_pending (hunique : w₀.db.UniqueColumns) (hactive : ActiveUntilCommitted hist)
    {n : ℕ} {ev : Event ι World Env Call} {job : InflowJob} {e : LedgerEntry}
    (hev : hist[n]? = some ev) (hjob : threads ev.who = .inflow job) (he : CommitsEntry ev e)
    (hpending : e.reconciliationStatus = .pending) :
    ev.before.db.statusOf e.accountId = some .active := by
  obtain ⟨-, hown, r, hr, a, hfound, hid, hrecorded⟩ :=
    ((inflowCall_of_run run hev).2 job hjob).commits e he
  have hstatus : a.status = .active := by
    rw [hpending] at hrecorded
    cases h : a.status with
    | active => rfl
    | suspended | closed | expired =>
      rw [h] at hrecorded
      cases hrecorded
  obtain ⟨hwho, m, hmn, hm⟩ := mem_callsOf_take.1 hr
  have hread : (stateAt hist w m).db.statusOf a.id = some .active := by
    have huniqueRead := uniqueColumns_of_run run hunique m
    rw [stateAt_eq_before hm] at huniqueRead ⊢
    obtain ⟨number, -, hlooked⟩ := hfound
    have hcolumn : r.before.db.statusOf a.id = some a.status :=
      columnOf_of_mem huniqueRead.accounts (List.mem_of_find?_eq_some hlooked)
    rw [hcolumn, hstatus]
  rw [hid]
  by_contra hnot
  rw [← stateAt_eq_before (s := w) hev] at hnot
  obtain ⟨k, x, hmk, hkn, hx, hbefore, hafter, hsince⟩ := run.exists_last_change
    (P := fun w => w.db.statusOf a.id = some .active) (Nat.le_of_lt hmn) hread hnot
  -- the account was taken out of ACTIVE by another thread, for the last time
  have hother : x.who ≠ ev.who := by
    intro hsame
    have hquiet := hown x (mem_callsOf_take.2 ⟨hsame, k, hkn, hx⟩)
    rw [hquiet.db] at hafter
    exact hafter hbefore
  have hne : m ≠ k := by
    rintro rfl
    rw [hm] at hx
    cases hx
    exact hother hwho
  obtain ⟨j, y, hkj, hjn, hy, hback⟩ :=
    hactive m k n r x ev a e (by omega) hkn hm hx hev hwho hother
    hfound hstatus he hid hbefore hafter
  refine hsince (j + 1) (by omega) (by omega) ?_
  rw [run.stateAt_succ hy]
  exact hback

/-- **The gate holds where no account leaves ACTIVE between the lookup and the commit of an
inflow.** The inflows are any number of jobs on any accounts, and run with any status changes in any
order of their calls. -/
theorem suspended_gate_of_activeUntilCommitted (hunique : w₀.db.UniqueColumns)
    (hactive : ActiveUntilCommitted hist) : SuspendedGate threads hist where
  evaluated := by
    intro n ev job hev hjob htriggers
    obtain ⟨x, hx, e, he, hpending⟩ :=
      ((inflowCall_of_run run hev).2 job hjob).triggers htriggers
    obtain ⟨hwho, m, hmn, hm⟩ := mem_callsOf_take.1 hx
    have hjobx : threads x.who = .inflow job := by rw [hwho]; exact hjob
    obtain ⟨href, -⟩ := ((inflowCall_of_run run hm).2 job hjobx).commits e he
    exact ⟨m, x, e, hmn, hm, hwho, he, href,
      active_of_pending run hunique hactive hm hjobx he hpending⟩
  flagged := by
    intro x hx job hjob e he hsuspended
    obtain ⟨n, hn⟩ := List.mem_iff_getElem?.1 hx
    obtain ⟨-, -, r, -, a, -, -, hrecorded⟩ :=
      ((inflowCall_of_run run hn).2 job hjob).commits e he
    have hflagged : e.reconciliationStatus = .flagged := by
      cases hstatus : a.status with
      | active =>
        rw [hstatus] at hrecorded
        have hpending : e.reconciliationStatus = .pending := (Option.some.inj hrecorded).symm
        rw [active_of_pending run hunique hactive hn hjob he hpending] at hsuspended
        cases hsuspended
      | suspended =>
        rw [hstatus] at hrecorded
        exact (Option.some.inj hrecorded).symm
      | closed | expired =>
        rw [hstatus] at hrecorded
        cases hrecorded
    refine ⟨hflagged, fun ev hev hsame => ?_⟩
    by_contra htriggers
    obtain ⟨k, hk⟩ := List.mem_iff_getElem?.1 hev
    obtain ⟨y, hy, e', he', hpending⟩ :=
      ((inflowCall_of_run run hk).2 job (by rw [hsame]; exact hjob)).triggers
        (Bool.eq_true_of_not_eq_false htriggers)
    obtain ⟨hwho, j, -, hj⟩ := mem_callsOf_take.1 hy
    have hone : e' = e := commitsEntry_unique run hj hn (hwho.trans hsame) hjob he' he
    rw [hone, hflagged] at hpending
    cases hpending

end Runs

/-! ### Two payments at nearly the same time -/

namespace Sample

/-- The first payment suspends the account. -/
def suspendingRule : Rule where
  id := "rule1"
  accountId := "acc1"
  trigger := .inflowReceived
  condition := some { amountGte := some 1 }
  action := .suspendAccount
  payload := none
  kycTierAtCreation := .tier1

def payment : Bool → InflowJob
  | false => ⟨{ inflow with eventId := "evt1", transactionRef := "trx1" }, rfl⟩
  | true => ⟨{ inflow with eventId := "evt2", transactionRef := "trx2" }, rfl⟩

def payments (i : Bool) : InflowOrStatus := .inflow (payment i)

/-- The calls of the two jobs, in the order of `turns`. -/
def payTwice (turns : List Bool) :
    List (Event Bool World Env Call) × (Bool → Action Unit) × World :=
  exec (fun i => (payments i).run) (shop [] [suspendingRule])
    (turns.map fun i => (i, { row := { id := if i then "row2" else "row1" } }))

theorem run_payTwice (turns : List Bool) :
    Run (fun _ _ _ _ => True) (fun i => (payments i).run) (shop [] [suspendingRule])
      (payTwice turns).1 (payTwice turns).2.1 (payTwice turns).2.2 :=
  Run.of_exec _ _ _ fun _ _ => trivial

end Sample

/-- One after the other: the second payment finds the account SUSPENDED. -/
theorem suspended_gate_inTurn :
    let r := Sample.payTwice (List.replicate 14 false ++ List.replicate 4 true)
    r.2.2.db.ledgerEntries.map LedgerEntry.reconciliationStatus = [.matched, .flagged] ∧
      SuspendedGate Sample.payments r.1 := by
  refine ⟨by decide +kernel, ?_⟩
  refine suspended_gate_of_activeUntilCommitted (Sample.run_payTwice _) ⟨by decide, by decide,
    by decide, by decide, by decide, by decide, by decide, by decide, by decide, by decide⟩ ?_
  intro m k n r x ev a e hmk hkn hr hx hev hsame hother
  have hbetween : Intervenes _ r x ev := ⟨m, k, n, hmk, hkn, hr, hx, hev, hsame, hother⟩
  exact absurd hbetween.overlapping (by decide +kernel)

/-- The second job looks the account up, the first one suspends it, and then the second one commits
its entry as PENDING and evaluates the rules. -/
theorem suspended_account_triggers_rules :
    let r := Sample.payTwice (List.replicate 2 true ++ List.replicate 14 false ++
      List.replicate 12 true)
    (∃ ev ∈ r.1, ev.who = true ∧ ev.call.triggersRules = true) ∧
      ¬ SuspendedGate Sample.payments r.1 := by
  have hpending : let r := Sample.payTwice (List.replicate 2 true ++ List.replicate 14 false ++
        List.replicate 12 true)
      ∃ x ∈ r.1, x.who = true ∧ ∃ e ∈ x.after.db.ledgerEntries,
        x.after.db.ledgerEntries = x.before.db.ledgerEntries ++ [e] ∧
          x.before.db.statusOf e.accountId = some .suspended ∧
            e.reconciliationStatus = .pending := by decide +kernel
  refine ⟨by decide +kernel, fun hgate => ?_⟩
  obtain ⟨x, hx, hwho, e, -, hcommits, hsuspended, hstatus⟩ := hpending
  have hjob : Sample.payments x.who = .inflow (Sample.payment true) := by rw [hwho]; rfl
  obtain ⟨hflagged, -⟩ := hgate.flagged x hx _ hjob e hcommits hsuspended
  rw [hstatus] at hflagged
  cases hflagged

end AccountOS
