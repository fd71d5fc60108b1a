import AccountOS.Accounts.AccountLifecycle
import AccountOS.Sql.Column
import AccountOS.Store.Trace

/-!
# CLOSED and EXPIRED are for good

Three operations write the status of an account: an override by hand, the closing of the account,
and the action of a rule. Each of them reads the status first and refuses an account that is CLOSED
or EXPIRED, and each of them writes later, by the id of the account alone. What another operation
has written in between is overwritten.
-/

namespace AccountOS

open Conc Sql

/-! ### The operations -/

/-- The status changes that a rule can make. -/
inductive StatusChange
  | suspend | expire | reactivate
deriving DecidableEq, Repr

/-- An operation that may change the status of an account. -/
inductive StatusOp
  | updateStatus (accountRef : String) (dto : UpdateStatusDto) (businessId actor : String)
  | closeAccount (accountRef businessId actor : String)
  | rule (change : StatusChange) (executionId : String) (account : RuleAccount)

namespace StatusOp

/-- Run the operation, without its answer. -/
def run : StatusOp → Action Unit
  | updateStatus accountRef dto businessId actor =>
    (AccountOS.updateStatus accountRef dto businessId actor).bind fun _ => .ret ()
  | closeAccount accountRef businessId actor =>
    (AccountOS.closeAccount accountRef businessId actor).bind fun _ => .ret ()
  | rule .suspend executionId account =>
    (handleStatusChange executionId account .suspended [.active] .accountSuspended).bind
      fun _ => .ret ()
  | rule .expire executionId account =>
    (handleStatusChange executionId account .expired [.active, .suspended] .accountExpired).bind
      fun _ => .ret ()
  | rule .reactivate executionId account =>
    (handleStatusChange executionId account .active [.suspended] .accountReactivated).bind
      fun _ => .ret ()

end StatusOp

/-! ### The status of an account -/

namespace Db

variable {db db' : Db}

def statusOf (db : Db) (id : String) : Option AccountStatus :=
  columnOf Account.id Account.status id db.accounts

/-- What the statement that sets the status of an account does. -/
theorem statusOf_updateRow {f : Account → Account} {id : String} {status : AccountStatus}
    (hid : ∀ a, (f a).id = a.id) (hstatus : ∀ a, (f a).status = status)
    (hrow : ∃ a ∈ db.accounts, a.id = id)
    (hdb : db' = { db with accounts := updateRow Account.id id f db.accounts }) :
    db'.statusOf id = some status ∧ ∀ x, x ≠ id → db'.statusOf x = db.statusOf x := by
  subst hdb
  constructor
  · show columnOf Account.id Account.status id (updateRow Account.id id f db.accounts) = _
    rw [columnOf_updateRow_self hid]
    simp only [hstatus]
    exact columnOf_const hrow
  · intro x hx
    exact columnOf_updateRow_of_ne hid hx

end Db

/-- A call after which the account has the status that the call sets. -/
def SetsStatus {ι : Type} (ev : Event ι World Env Call) (id : String) (status : AccountStatus) :
    Prop :=
  ev.call = .updateAccountStatus id status ∧ ev.after.db.statusOf id = some status

/-- The calls by which the operations read a status. -/
def Call.readsStatus : Call → Bool
  | findAccountByRef .. | findAccountStatus _ => true
  | _ => false

/-! ### What each call may do -/

/-- The statuses of the accounts stay as they are. -/
structure SameStatuses (w w' : World) : Prop where
  unique : w.db.UniqueColumns → w'.db.UniqueColumns
  statuses : ∀ id, w'.db.statusOf id = w.db.statusOf id

theorem SameStatuses.of_sameData {w w' : World} (h : World.SameData w w') : SameStatuses w w' := by
  have hdb : w'.db = w.db := h.db
  constructor
  · rw [hdb]
    exact id
  · intro id
    rw [hdb]

/-- The statements on other tables. -/
theorem footprint_sameStatuses : Footprint (fun o => o.table ≠ .accounts) SameStatuses where
  sameData h := .of_sameData h
  writes := by
    rintro o w w' db ho hop rfl
    have haccounts : db.accounts = w.db.accounts := (WriteOp.sameExcept hop).accounts ho
    refine ⟨fun hunique => hunique.apply hop, fun id => ?_⟩
    unfold Db.statusOf
    rw [haccounts]

/-- What a call may do to the statuses, after the calls that its thread has made: a status is only
changed by a thread that has changed none so far, and that has read of the account a status which is
not terminal. -/
structure Guarded {ι : Type} (past : Calls ι) (ev : Event ι World Env Call) : Prop where
  unique : ev.before.db.UniqueColumns → ev.after.db.UniqueColumns
  changes : ∀ id, ev.after.db.statusOf id ≠ ev.before.db.statusOf id →
    (∃ status, SetsStatus ev id status) ∧ (∀ x ∈ past, SameStatuses x.before x.after) ∧
      ∃ r ∈ past, r.call.readsStatus = true ∧
        ∃ a ∈ r.before.db.accounts, a.id = id ∧ a.status.terminal = false

section Traced

variable {ι α : Type} {i : ι} {past : Calls ι}

theorem Guarded.of_same {ev : Event ι World Env Call} (h : SameStatuses ev.before ev.after) :
    Guarded past ev :=
  ⟨h.unique, fun id hne => absurd (h.statuses id) hne⟩

/-- A method that changes no status. -/
theorem traced_of_sameStatuses {p : Action α}
    (hp : p.Keeps (fun _ _ _ _ => True) SameStatuses) :
    p.Traced i Guarded (fun _ _ => True) (fun _ _ => True) past :=
  (hp.traced fun _ _ _ _ h => .of_same h).mono (fun _ _ _ => trivial) fun _ _ _ => trivial

/-- The write of a status by a thread that has read one which is not terminal. -/
theorem Guarded.of_write {id : String} {status : AccountStatus} {op : WriteOp} {env : Env}
    {w w' : World} {db : Db} (hop : op.apply w.db = .ok db) (hw' : w' = { w with db })
    (hset : db.statusOf id = some status ∧ ∀ x, x ≠ id → db.statusOf x = w.db.statusOf x)
    (hpast : ∀ x ∈ past, SameStatuses x.before x.after)
    {r : Event ι World Env Call} (hr : r ∈ past) (hreads : r.call.readsStatus = true) {a : Account}
    (ha : a ∈ r.before.db.accounts) (hid : a.id = id) (hopen : a.status.terminal = false) :
    Guarded past ⟨i, .updateAccountStatus id status, env, w, w'⟩ := by
  subst hw'
  refine ⟨fun hunique => hunique.apply hop, fun x hx => ?_⟩
  have hxid : x = id := by
    by_contra hne
    exact hx (hset.2 x hne)
  subst hxid
  exact ⟨⟨status, rfl, hset.1⟩, hpast, r, hr, hreads, a, ha, hid, hopen⟩

/-- Writing the status of an account, and what follows. -/
theorem traced_updateAccount {id : String} {status : AccountStatus} {op : Env → WriteOp}
    {f : Env → Account → Account} {k : Option Account → Action α}
    (hop : ∀ env db db', (op env).apply db = .ok db' → (∃ a ∈ db.accounts, a.id = id) ∧
      db' = { db with accounts := updateRow Account.id id (f env) db.accounts })
    (hid : ∀ env a, (f env a).id = a.id) (hstatus : ∀ env a, (f env a).status = status)
    (hpast : ∀ x ∈ past, SameStatuses x.before x.after) {r : Event ι World Env Call}
    (hr : r ∈ past) (hreads : r.call.readsStatus = true) {a : Account}
    (ha : a ∈ r.before.db.accounts) (haid : a.id = id) (hopen : a.status.terminal = false)
    (hk : ∀ updated past', (k updated).Traced i Guarded (fun _ _ => True) (fun _ _ => True) past') :
    ((transaction (.updateAccountStatus id status) fun env =>
      updateAccountTx id (op env)).bind k).Traced i Guarded (fun _ _ => True) (fun _ _ => True)
        past := by
  refine Proc.Traced.bind (traced_transaction logsOnly_nothing ?_
    fun _ _ _ _ hsame => ⟨.of_same (.of_sameData hsame), trivial⟩)
  intro env w updated db w' hrun hw'
  simp only [updateAccountTx, Tx.bind_eq, Tx.run_bind_eq_ok, Tx.run_exec_eq_ok,
    schema_apply, Tx.run_query] at hrun
  obtain ⟨-, db', happly, hquery⟩ := hrun
  cases hquery
  obtain ⟨hrow, hdb⟩ := hop env _ _ happly
  have hset := Db.statusOf_updateRow (hid env) (hstatus env) hrow hdb
  exact ⟨.of_write happly hw' hset hpast hr hreads ha haid hopen, hk _ _⟩

theorem traced_updateStatus {accountRef businessId actor : String} {dto : UpdateStatusDto} :
    (updateStatus accountRef dto businessId actor).Traced i Guarded (fun _ _ => True)
      (fun _ _ => True) [] := by
  refine Proc.Traced.bind (traced_find (fun env w => ⟨.of_same (.of_sameData (.refl w)), ?_⟩)
    fun _ _ _ _ hsame => ⟨.of_same (.of_sameData hsame), trivial⟩)
  cases hfound : w.db.findAccountByRef accountRef businessId with
  | none => trivial
  | some account =>
    dsimp only
    split
    next => trivial
    next =>
      split
      next => trivial
      next hopen =>
        split
        next => trivial
        next =>
          have hmem : account ∈ w.db.accounts := List.mem_of_find?_eq_some hfound
          refine traced_updateAccount (f := fun _ a => { a with status := dto.status })
            (fun _ _ _ hop => Db.updateAccountStatus_eq_ok.1 hop) (fun _ _ => rfl)
            (fun _ _ => rfl) ?_ (List.mem_singleton_self _) rfl hmem rfl
              (by simpa using hopen) fun _ _ =>
              traced_of_sameStatuses
                (Proc.Keeps.bind footprint_sameStatuses.keeps_audit fun _ => trivial)
          intro x hx
          rw [List.mem_singleton.1 hx]
          exact .of_sameData (.refl w)

/-- Archiving the executions of an account. -/
theorem traced_archiveExecutions {id : String} {k : Nat → Action α}
    (hk : ∀ count ev, SameStatuses ev.before ev.after →
      (k count).Traced i Guarded (fun _ _ => True) (fun _ _ => True) (past ++ [ev])) :
    ((transaction (.archiveExecutions id) fun _ => archiveExecutionsTx id).bind k).Traced i Guarded
      (fun _ _ => True) (fun _ _ => True) past := by
  refine Proc.Traced.bind (traced_transaction logsOnly_nothing ?_
    fun _ _ _ _ hsame => ⟨.of_same (.of_sameData hsame), trivial⟩)
  intro env w count db w' hrun hw'
  have hop := archiveExecutionsTx_run_eq_ok hrun
  have hsame : SameStatuses w w' := footprint_sameStatuses.writes (by simp [WriteOp.table]) hop hw'
  exact ⟨.of_same hsame, hk _ ⟨i, _, env, w, w'⟩ hsame⟩

theorem traced_closeAccount {accountRef businessId actor : String} :
    (closeAccount accountRef businessId actor).Traced i Guarded (fun _ _ => True)
      (fun _ _ => True) [] := by
  refine Proc.Traced.bind (traced_find (fun env w => ⟨.of_same (.of_sameData (.refl w)), ?_⟩)
    fun _ _ _ _ hsame => ⟨.of_same (.of_sameData hsame), trivial⟩)
  cases hfound : w.db.findAccountByRef accountRef businessId with
  | none => trivial
  | some account =>
    have hmem : account ∈ w.db.accounts := List.mem_of_find?_eq_some hfound
    have hclose : account.status.terminal = false →
        (close account businessId actor).Traced i Guarded (fun _ _ => True) (fun _ _ => True)
          [⟨i, .findAccountByRef businessId accountRef, env, w, w⟩] := by
      intro hopen
      refine traced_archiveExecutions fun count archived harchived => ?_
      refine Proc.Traced.bind (traced_expireDva fun env' w₁ =>
        ⟨.of_same (.of_sameData (.refl w₁)), ?_, fun _ => trivial⟩)
      refine traced_updateAccount (f := fun env a => { a with
          status := .closed, closedAt := some env.now,
          closedReason := some "Account closed via API" })
        (fun _ _ _ hop => Db.closeAccount_eq_ok.1 hop) (fun _ _ => rfl) (fun _ _ => rfl) ?_
        List.mem_cons_self rfl hmem rfl hopen fun _ _ => traced_of_sameStatuses
          (Proc.Keeps.bind footprint_sameStatuses.keeps_audit fun _ => trivial)
      intro x hx
      simp only [List.cons_append, List.nil_append, List.mem_cons, List.not_mem_nil,
        or_false] at hx
      rcases hx with rfl | rfl | rfl
      · exact .of_sameData (.refl w)
      · exact harchived
      · exact .of_sameData (.refl w₁)
    dsimp only
    cases hstatus : account.status with
    | closed => trivial
    | expired => trivial
    | active => exact hclose (by rw [hstatus]; rfl)
    | suspended => exact hclose (by rw [hstatus]; rfl)

theorem traced_handleStatusChange {executionId : String} {account : RuleAccount}
    {target : AccountStatus} {allowedFrom : List AccountStatus} {auditAction : AuditAction}
    (hallowed : ∀ status ∈ allowedFrom, status.terminal = false) :
    (handleStatusChange executionId account target allowedFrom auditAction).Traced i Guarded
      (fun _ _ => True) (fun _ _ => True) [] := by
  have hcompleted : ∀ past, (markCompleted executionId).Traced i Guarded (fun _ _ => True)
      (fun _ _ => True) past :=
    fun past => traced_of_sameStatuses (Proc.Keeps.bind
      (footprint_sameStatuses.keeps_statement fun _ => by simp [WriteOp.table]) fun _ => trivial)
  refine Proc.Traced.bind (traced_find (fun env w => ⟨.of_same (.of_sameData (.refl w)), ?_⟩)
    fun _ _ _ _ hsame => ⟨.of_same (.of_sameData hsame), trivial⟩)
  cases hfound : w.db.findAccountById account.id with
  | none => exact hcompleted _
  | some current =>
    obtain ⟨hmem, hid⟩ := Db.findAccountById_eq_some hfound
    dsimp only [Option.map_some]
    split
    next hfrom =>
      refine Proc.Traced.bind (traced_statement ?_
        fun _ _ _ _ hsame => ⟨.of_same (.of_sameData hsame), trivial⟩)
      intro env' w₁ db w₁' hop hw₁'
      obtain ⟨hrow, hdb⟩ := Db.updateAccountStatus_eq_ok.1 hop
      have hset := Db.statusOf_updateRow (f := fun a => { a with status := target }) (fun _ => rfl)
        (fun _ => rfl) hrow hdb
      refine ⟨.of_write hop hw₁' hset ?_ (List.mem_singleton_self _) rfl hmem hid
        (hallowed _ hfrom), ?_⟩
      · intro x hx
        rw [List.mem_singleton.1 hx]
        exact .of_sameData (.refl w)
      · exact traced_of_sameStatuses (Proc.Keeps.bind footprint_sameStatuses.keeps_audit fun _ =>
          Proc.Keeps.bind (footprint_sameStatuses.keeps_statement fun _ => by simp [WriteOp.table])
            fun _ => trivial)
    next => exact hcompleted _

/-- **Each operation reads the status of an account before it changes it.** -/
theorem StatusOp.traced_run (op : StatusOp) :
    op.run.Traced i Guarded (fun _ _ => True) (fun _ _ => True) [] := by
  have hrule : ∀ executionId account target allowedFrom auditAction,
      (∀ status ∈ allowedFrom, AccountStatus.terminal status = false) →
      ((handleStatusChange executionId account target allowedFrom auditAction).bind
        fun _ => .ret ()).Traced i Guarded (fun _ _ => True) (fun _ _ => True) [] := by
    intro executionId account target allowedFrom auditAction hallowed
    exact Proc.Traced.bind (traced_handleStatusChange hallowed)
  cases op with
  | updateStatus accountRef dto businessId actor => exact Proc.Traced.bind traced_updateStatus
  | closeAccount accountRef businessId actor => exact Proc.Traced.bind traced_closeAccount
  | rule change executionId account =>
    cases change with
    | suspend => exact hrule _ _ _ _ _ (by decide)
    | expire => exact hrule _ _ _ _ _ (by decide)
    | reactivate => exact hrule _ _ _ _ _ (by decide)

end Traced

/-! ### Runs -/

section Runs

variable {ι : Type}

/-- Once an account is CLOSED or EXPIRED, its status never changes. -/
def TerminalAbsorbing (hist : List (Event ι World Env Call)) (w : World) : Prop :=
  ∀ m n : ℕ, m ≤ n → ∀ id status, (stateAt hist w m).db.statusOf id = some status →
    status.terminal = true → (stateAt hist w n).db.statusOf id = some status

/-- Between the call by which an operation reads a status and the one by which it writes a status,
no other operation closes or expires the account, unless both write the same. -/
def NoTerminalWriteBetween (hist : List (Event ι World Env Call)) : Prop :=
  ∀ r x ev, Intervenes hist r x ev → r.call.readsStatus = true →
    ∀ id written status, SetsStatus x id written → written.terminal = true →
      SetsStatus ev id status → written = status

variable [DecidableEq ι] {ops : ι → StatusOp} {w₀ w : World} {hist : List (Event ι World Env Call)}
  {ps : ι → Action Unit} (run : Run (fun _ _ _ _ => True) (fun i => (ops i).run) w₀ hist ps w)
include run

theorem guarded_of_run {n : ℕ} {ev : Event ι World Env Call} (hev : hist[n]? = some ev) :
    Guarded (callsOf ev.who (hist.take n)) ev :=
  (run.traced fun i => (ops i).traced_run).1 n ev hev

/-- **CLOSED and EXPIRED absorb exactly where no status is written over them that was read before.**
The operations are any updates, closings and rule actions, on any accounts and in any order of their
calls. -/
theorem terminal_states_absorbing_iff (hunique : w₀.db.UniqueColumns) :
    TerminalAbsorbing hist w ↔ NoTerminalWriteBetween hist := by
  have hunique : ∀ n, (stateAt hist w n).db.UniqueColumns :=
    run.always (I := fun w => w.db.UniqueColumns) hunique fun n ev hev =>
      (guarded_of_run run hev).unique
  constructor
  · intro habsorbing r x ev ⟨m, k, n, _, hkn, _, hk, hn, _⟩ _ id written status hx hterminal hset
    have hwritten : (stateAt hist w (k + 1)).db.statusOf id = some written := by
      rw [run.stateAt_succ hk]
      exact hx.2
    have hstays := habsorbing (k + 1) (n + 1) (by omega) id written hwritten hterminal
    rw [run.stateAt_succ hn, hset.2] at hstays
    exact (Option.some.inj hstays).symm
  · intro hbetween m n hmn id status hm hterminal
    by_contra hn
    obtain ⟨k, ev, -, -, hev, hbefore, hafter⟩ :=
      run.exists_change (P := fun w => w.db.statusOf id = some status) hmn hm hn
    -- the call that leaves the status has read another one
    obtain ⟨⟨written, hset⟩, hown, r, hr, hreads, a, ha, rfl, hopen⟩ :=
      (guarded_of_run run hev).changes id (by rw [hbefore]; exact hafter)
    have hread : r.before.db.statusOf a.id ≠ some status := by
      obtain ⟨-, j, -, hj⟩ := mem_callsOf_take.1 hr
      have huniqueRead := hunique j
      rw [stateAt_eq_before hj] at huniqueRead
      have hfound : r.before.db.statusOf a.id = some a.status :=
        columnOf_of_mem huniqueRead.accounts ha
      rw [hfound]
      rintro ⟨⟩
      rw [hopen] at hterminal
      cases hterminal
    obtain ⟨x, hbetweenCalls, hxbefore, hxafter⟩ :=
      run.exists_intervening (P := fun w => w.db.statusOf a.id ≠ some status) hev hr
        (fun x hx hx' => by rw [(hown x hx).statuses]; exact hx') hread (not_not.2 hbefore)
    -- the status was written in between
    have hxafter := not_not.1 hxafter
    obtain ⟨k', hk'⟩ := hbetweenCalls.exists_getElem?
    obtain ⟨⟨other, hx⟩, -⟩ := (guarded_of_run run hk').changes a.id (by
      rw [hxafter]
      exact Ne.symm hxbefore)
    have hother : other = status := by
      have := hx.2
      rw [hxafter] at this
      exact (Option.some.inj this).symm
    subst hother
    have hsame := hbetween r x ev hbetweenCalls hreads a.id other written hx hterminal hset
    rw [hset.2, hsame] at hafter
    exact hafter rfl

end Runs

/-! ### Closing an account that is being suspended -/

namespace Sample

/-- One operator suspends the account, another one closes it. -/
def suspendAndClose : Bool → StatusOp
  | false => .updateStatus "shop" { status := .suspended, reason := "dispute" } "biz" "ops"
  | true => .closeAccount "shop" "biz" "ops"

/-- The calls of the two, in the order of `turns`. -/
def suspendClose (turns : List Bool) :
    List (Event Bool World Env Call) × (Bool → Action Unit) × World :=
  exec (fun i => (suspendAndClose i).run) (shop [] []) (turns.map fun i => (i, {}))

theorem run_suspendClose (turns : List Bool) :
    Run (fun _ _ _ _ => True) (fun i => (suspendAndClose i).run) (shop [] [])
      (suspendClose turns).1 (suspendClose turns).2.1 (suspendClose turns).2.2 :=
  Run.of_exec _ _ _ fun _ _ => trivial

end Sample

/-- One after the other: the account is suspended and then closed for good. -/
theorem terminal_states_absorbing_inTurn :
    let r := Sample.suspendClose [false, false, false, true, true, true, true, true]
    r.2.2.db.statusOf "acc1" = some .closed ∧ TerminalAbsorbing r.1 r.2.2 := by
  refine ⟨by decide +kernel, ?_⟩
  rw [terminal_states_absorbing_iff (Sample.run_suspendClose _) ⟨by decide, by decide, by decide,
    by decide, by decide, by decide, by decide, by decide, by decide, by decide⟩]
  intro r x ev hbetween
  exact absurd hbetween.overlapping (by decide +kernel)

/-- The account is closed between the two calls of the operator who suspends it. -/
theorem closed_account_gets_suspended :
    let r := Sample.suspendClose [false, true, true, true, true, true, false, false]
    (stateAt r.1 r.2.2 6).db.statusOf "acc1" = some .closed ∧
      r.2.2.db.statusOf "acc1" = some .suspended ∧ ¬ TerminalAbsorbing r.1 r.2.2 := by
  have hclosed : let r := Sample.suspendClose [false, true, true, true, true, true, false, false]
      (stateAt r.1 r.2.2 6).db.statusOf "acc1" = some .closed := by decide +kernel
  have hsuspended : let r := Sample.suspendClose [false, true, true, true, true, true, false, false]
      (stateAt r.1 r.2.2 8).db.statusOf "acc1" = some .suspended := by decide +kernel
  refine ⟨hclosed, by decide +kernel, fun habsorbing => ?_⟩
  have hstays := habsorbing 6 8 (by decide) "acc1" .closed hclosed rfl
  rw [hsuspended] at hstays
  cases hstays

end AccountOS
