import AccountOS.Queue.Correctness.Configuration
import AccountOS.Queue.Correctness.Steps

/-!
# Delivering an event again after a crash

A worker that processes an inflow stops somewhere after it has written the ledger entry, and the
event is delivered again. The second delivery only ever finds out that it is a duplicate: from the
`ProcessedEvent` row, if the first one got that far, and otherwise from the ledger entry, whose
unique reference it violates. So it changes nothing, and what the first delivery had not done stays
undone unless it had done everything.
-/

namespace AccountOS

open Conc Sql WebhookProcessor

/-! ### What an uninterrupted run leaves -/

namespace Db

/-- A rule has been executed for an event: an execution is recorded, with its outcome. -/
def Executed (db : Db) (eventId ruleId : String) : Prop :=
  ∃ x ∈ db.ruleExecutions, x.ruleId = ruleId ∧ x.triggeredBy = eventId ∧ x.status ≠ .pending

/-- The inflow's entry is no longer PENDING, and every rule that the inflow matches has been
executed. -/
def Settled (db : Db) (payload : InflowPayload) (a : Account) : Prop :=
  ∃ e ∈ db.ledgerEntries, e.nombaTransactionRef = payload.transactionRef ∧
    e.reconciliationStatus ≠ .pending ∧
    ∃ rank, ∀ r ∈ selectMatching a.executionModel
        (inflowEvent e.amountKobo e.cumulativeAmountKobo) (db.findRules rank a.id),
      db.Executed payload.eventId r.id

/-- The event's `ProcessedEvent` row exists. -/
def Processed (db : Db) (payload : InflowPayload) : Prop :=
  ∃ e ∈ db.processedEvents, e.eventId = payload.eventId

/-- The state of an inflow after a run that was not interrupted. -/
def Recovered (db : Db) (payload : InflowPayload) (a : Account) : Prop :=
  db.Settled payload a ∧ db.Processed payload

/-- The inflow has been written to the ledger, with this amount and this total. -/
def Recorded (db : Db) (payload : InflowPayload) (n t : Int) : Prop :=
  (payload.transactionRef, payload.eventId, n, t) ∈ db.ledgerEntries.map fun e =>
    (e.nombaTransactionRef, e.nombaEventId, e.amountKobo, e.cumulativeAmountKobo)

/-! ### What a call keeps of it -/

variable {db db' : Db} {payload : InflowPayload} {eventId ruleId : String} {n t : Int}

theorem Executed.append (h : db.Executed eventId ruleId) {x : RuleExecution}
    (hdb : db.createRuleExecution x = .ok db') : db'.Executed eventId ruleId := by
  obtain ⟨-, -, -, -, rfl⟩ := createRuleExecution_eq_ok.1 hdb
  obtain ⟨y, hy, hfacts⟩ := h
  exact ⟨y, List.mem_append_left _ hy, hfacts⟩

/-- Recording an outcome leaves no execution PENDING that was not. -/
theorem Executed.update (h : db.Executed eventId ruleId) {id : String} {data : RuleExecutionData}
    (hdata : data.status ≠ .pending) (hdb : db.updateRuleExecution id data = .ok db') :
    db'.Executed eventId ruleId := by
  obtain ⟨-, rfl⟩ := updateRuleExecution_eq_ok.1 hdb
  obtain ⟨y, hy, hrule, hevent, hstatus⟩ := h
  by_cases hid : y.id = id
  · exact ⟨data.set y, mem_updateRow_of_eq hy hid, hrule, hevent, hdata⟩
  · exact ⟨y, mem_updateRow_of_ne hy hid, hrule, hevent, hstatus⟩

/-- Recording the outcome of a rule's execution. -/
theorem Executed.of_update {id : String} {data : RuleExecutionData} {x : RuleExecution}
    (hx : x ∈ db.ruleExecutions) (hid : x.id = id) (hdata : data.status ≠ .pending)
    (hdb : db.updateRuleExecution id data = .ok db') : db'.Executed x.triggeredBy x.ruleId := by
  obtain ⟨-, rfl⟩ := updateRuleExecution_eq_ok.1 hdb
  exact ⟨data.set x, mem_updateRow_of_eq hx hid, rfl, rfl, hdata⟩

theorem Recorded.exists_mem (h : db.Recorded payload n t) : ∃ e ∈ db.ledgerEntries,
    e.nombaTransactionRef = payload.transactionRef ∧ e.nombaEventId = payload.eventId ∧
      e.amountKobo = n ∧ e.cumulativeAmountKobo = t := by
  obtain ⟨e, he, hcore⟩ := List.mem_map.1 h
  simp only [Prod.mk.injEq] at hcore
  exact ⟨e, he, hcore⟩

theorem Recorded.congr (h : db.Recorded payload n t) (hdb : db'.ledgerEntries = db.ledgerEntries) :
    db'.Recorded payload n t := by
  unfold Recorded
  rwa [hdb]

theorem Recorded.flag (h : db.Recorded payload n t) {id : String} {status : ReconciliationStatus}
    (hdb : db.updateReconciliationById id status = .ok db') : db'.Recorded payload n t := by
  obtain ⟨-, rfl⟩ := updateReconciliationById_eq_ok.1 hdb
  unfold Recorded
  rwa [map_updateRow fun _ => by rfl]

/-- The entry that is found by the inflow's reference is the one that was recorded. -/
theorem Recorded.found (h : db.Recorded payload n t) (hunique : db.UniqueColumns)
    {e : LedgerEntry} (he : db.findLedgerEntry payload.transactionRef = some e) :
    e.nombaEventId = payload.eventId := by
  obtain ⟨hmem, href⟩ := findLedgerEntry_eq_some db he
  obtain ⟨x, hx, hxref, hxevent, -⟩ := h.exists_mem
  have hsame : e = x := eq_of_key_eq hunique.transactionRefs hmem hx (href.trans hxref.symm)
  rw [hsame, hxevent]

/-- `writeInflow` records the inflow. -/
theorem recorded_of_writeInflow {found : FoundAccount} {status : ReconciliationStatus} {env : Env}
    (hn : payload.amountKobo = (n : Int))
    (hrun : (writeInflowTx (inflowDto payload found) status env).run schema db = .ok (t, db')) :
    db'.Recorded payload n t := by
  obtain ⟨m, hm, rfl, hdb⟩ := (writeInflowTx_run_eq_ok db).1 hrun
  obtain rfl : m = n := by
    have : ((m : Int) : ℚ) = n := hm.symm.trans hn
    exact_mod_cast this
  obtain ⟨-, -, -, rfl⟩ := createLedgerEntry_eq_ok.1 hdb
  simp [Recorded, WriteInflowDto.entry, inflowDto]

/-- Setting the entry's status settles an inflow whose rules have been executed. -/
theorem settled_of_reconcile {a : Account} {status : ReconciliationStatus} {rank : String → Nat}
    (hrecorded : db.Recorded payload n t) (hstatus : status ≠ .pending)
    (hexecuted : ∀ r ∈ selectMatching a.executionModel (inflowEvent n t) (db.findRules rank a.id),
      db.Executed payload.eventId r.id)
    (hdb : db.updateReconciliationByRef payload.transactionRef status = .ok db') :
    db'.Settled payload a := by
  have hrules : db'.findRules rank a.id = db.findRules rank a.id :=
    (SameConfiguration.of_apply (o := .updateReconciliationByRef _ _) hdb id).findRules rank a.id
  obtain ⟨-, rfl⟩ := updateReconciliationByRef_eq_ok.1 hdb
  obtain ⟨e, he, href, -, rfl, rfl⟩ := hrecorded.exists_mem
  refine ⟨_, mem_updateRow_of_eq he href, href, hstatus, rank, fun r hr => ?_⟩
  rw [hrules] at hr
  exact hexecuted r hr

end Db

/-! ### How far the first delivery has come -/

/-- The first delivery, between two of its calls. While it executes, `rest` are the rules that it
has not finished and `current` is the recorded execution of the first of them. -/
inductive Stage
  | idle
  | unseen
  | written (n t : Int)
  | executing (rules rest : List EvaluatedRule) (current : Option String)
  | reconciled
  | processed

/-- No call so far has written to the ledger. -/
def NothingWritten (hist : List (Event Unit World Env Call)) : Prop :=
  ∀ ev ∈ hist, ev.after.db.ledgerEntries = ev.before.db.ledgerEntries

section Stage

variable (payload : InflowPayload) (a : Account) (db₀ : Db)

/-- `rules` are selected for the inflow of `n` with the new total `t`. -/
def Selects (n t : Int) (rules : List EvaluatedRule) : Prop :=
  ∃ rank, rules = selectMatching a.executionModel (inflowEvent n t) (db₀.findRules rank a.id)

/-- The execution `current` of a rule, which has no outcome yet. -/
def Db.Current (db : Db) (rest : List EvaluatedRule) (current : String) : Prop :=
  ∃ r rest', rest = r :: rest' ∧
    ∃ x ∈ db.ruleExecutions, x.id = current ∧ x.ruleId = r.id ∧ x.triggeredBy = payload.eventId

/-- The state of the loop over the matching rules. -/
structure Executing (rules rest : List EvaluatedRule) (current : Option String) (db : Db) :
    Prop where
  recorded : ∃ n t, db.Recorded payload n t ∧ Selects a db₀ n t rules
  finished : ∃ done, rules = done ++ rest ∧ ∀ r ∈ done, db.Executed payload.eventId r.id
  current : ∀ x ∈ current, db.Current payload rest x

/-- What is known at a stage. -/
def At (hist : List (Event Unit World Env Call)) (db : Db) : Stage → Prop
  | .idle => db = db₀ ∧ NothingWritten hist
  | .unseen => db = db₀ ∧ NothingWritten hist ∧ ¬ db.Processed payload
  | .written n t => db.Recorded payload n t ∧ ¬ db.Processed payload
  | .executing rules rest current =>
    Executing payload a db₀ rules rest current db ∧ ¬ db.Processed payload
  | .reconciled => db.Settled payload a ∧ ¬ db.Processed payload
  | .processed => db.Recovered payload a

/-- The invariant of the first delivery. -/
structure Advances (G : Unit → Stage) (hist : List (Event Unit World Env Call)) (w : World) :
    Prop where
  config : SameConfiguration db₀ w.db
  unique : w.db.UniqueColumns
  stage : At payload a db₀ hist w.db (G ())

/-- The protocol of the first delivery: it is alone, and every call is considered. -/
def advances : Protocol Unit World Env Call Stage where
  allowed _ _ _ _ := True
  inv := Advances payload a db₀

end Stage

/-! ### What one step keeps -/

section Steps

variable {payload : InflowPayload} {a : Account} {db₀ : Db} {G : Unit → Stage}
  {hist : List (Event Unit World Env Call)} {w : World} {db : Db} {l : Call} {env : Env}

theorem NothingWritten.append (h : NothingWritten hist) {ev : Event Unit World Env Call}
    (hev : ev.after.db.ledgerEntries = ev.before.db.ledgerEntries) :
    NothingWritten (hist ++ [ev]) := by
  intro x hx
  rcases List.mem_append.1 hx with hx | hx
  · exact h x hx
  · rw [List.mem_singleton] at hx
    exact hx ▸ hev

/-- A call that leaves the database alone leaves the stage alone. -/
theorem At.quiet {stage : Stage} {ev : Event Unit World Env Call}
    (h : At payload a db₀ hist db stage) (hev : ev.after.db = ev.before.db) :
    At payload a db₀ (hist ++ [ev]) db stage := by
  have hwrites : ev.after.db.ledgerEntries = ev.before.db.ledgerEntries := by rw [hev]
  cases stage with
  | idle => exact ⟨h.1, h.2.append hwrites⟩
  | unseen => exact ⟨h.1, h.2.1.append hwrites, h.2.2⟩
  | written n t => exact h
  | executing rules rest current => exact h
  | reconciled => exact h
  | processed => exact h

theorem advances_quiet : Quiet (advances payload a db₀) := by
  intro G hist w w' i l env hinv _ hsame
  obtain ⟨hconfig, hunique, hstage⟩ := hinv
  exact ⟨hsame.db ▸ hconfig, hsame.db ▸ hunique, hsame.db ▸ hstage.quiet hsame.db⟩

/-- A statement that takes the thread to another stage. -/
theorem Advances.statement (h : Advances payload a db₀ G hist w) {o : WriteOp}
    (hop : o.apply w.db = .ok db) (hkeep : ¬ o.Configures) {s : Stage}
    (hstage : At payload a db₀ (hist ++ [⟨(), l, env, w, { w with db }⟩]) db s) :
    Advances payload a db₀ (Function.update G () s)
      (hist ++ [⟨(), l, env, w, { w with db }⟩]) { w with db } where
  config := h.config.apply hop hkeep
  unique := h.unique.apply hop
  stage := by rwa [Function.update_self]

/-- What the first delivery knows of its stage. -/
theorem Advances.at (h : Advances payload a db₀ G hist w) {stage : Stage} (hG : G () = stage) :
    At payload a db₀ hist w.db stage :=
  hG ▸ h.stage

end Steps

namespace Executing

variable {payload : InflowPayload} {a : Account} {db₀ db db' : Db} {rule : EvaluatedRule}
  {rules rest : List EvaluatedRule} {current : Option String} {x : String}

/-- A statement about other tables. -/
theorem congr (h : Executing payload a db₀ rules rest current db)
    (hrecorded : ∀ n t, db.Recorded payload n t → db'.Recorded payload n t)
    (hexecutions : db'.ruleExecutions = db.ruleExecutions) :
    Executing payload a db₀ rules rest current db' where
  recorded := by
    obtain ⟨n, t, hn, hselects⟩ := h.recorded
    exact ⟨n, t, hrecorded n t hn, hselects⟩
  finished := by
    obtain ⟨done, hdone, hexecuted⟩ := h.finished
    refine ⟨done, hdone, fun r hr => ?_⟩
    unfold Db.Executed
    rw [hexecutions]
    exact hexecuted r hr
  current := by
    intro x hx
    unfold Db.Current
    rw [hexecutions]
    exact h.current x hx

/-- The execution of the next rule is recorded. -/
theorem create (h : Executing payload a db₀ rules (rule :: rest) none db) {entry : TriggerEntry}
    (hentry : entry.nombaEventId = payload.eventId)
    (hdb : db.createRuleExecution (pendingExecution x rule entry) = .ok db') :
    Executing payload a db₀ rules (rule :: rest) (some x) db' where
  recorded := by
    obtain ⟨n, t, hn, hselects⟩ := h.recorded
    obtain ⟨-, -, -, -, rfl⟩ := Db.createRuleExecution_eq_ok.1 hdb
    exact ⟨n, t, hn.congr rfl, hselects⟩
  finished := by
    obtain ⟨done, hdone, hexecuted⟩ := h.finished
    exact ⟨done, hdone, fun r hr => (hexecuted r hr).append hdb⟩
  current := by
    rintro _ ⟨⟩
    obtain ⟨-, -, -, -, rfl⟩ := Db.createRuleExecution_eq_ok.1 hdb
    exact ⟨rule, rest, rfl, _, List.mem_append_right _ (List.mem_singleton_self _), rfl, rfl,
      hentry⟩

/-- Its outcome is recorded, and the rule is finished. -/
theorem record (h : Executing payload a db₀ rules (rule :: rest) (some x) db)
    {data : RuleExecutionData} (hdata : data.status ≠ .pending)
    (hdb : db.updateRuleExecution x data = .ok db') :
    Executing payload a db₀ rules rest none db' where
  recorded := by
    obtain ⟨n, t, hn, hselects⟩ := h.recorded
    obtain ⟨-, rfl⟩ := Db.updateRuleExecution_eq_ok.1 hdb
    exact ⟨n, t, hn.congr rfl, hselects⟩
  finished := by
    obtain ⟨done, hdone, hexecuted⟩ := h.finished
    refine ⟨done ++ [rule], by simp [hdone], fun r hr => ?_⟩
    rcases List.mem_append.1 hr with hr | hr
    · exact (hexecuted r hr).update hdata hdb
    · rw [List.mem_singleton] at hr
      subst hr
      obtain ⟨r', rest', hcons, row, hrow, hid, hrule, hevent⟩ := h.current x rfl
      obtain ⟨rfl, rfl⟩ := List.cons.inj hcons
      rw [← hrule, ← hevent]
      exact Db.Executed.of_update hrow hid hdata hdb
  current := by simp

end Executing

theorem ExecutionOutcome.toStatus_ne_pending (o : ExecutionOutcome) : o.toStatus ≠ .pending := by
  cases o <;> simp [toStatus]

/-! ### The first delivery keeps it -/

section FirstDelivery

variable (payload : InflowPayload) (a : Account) (db₀ : Db)

/-- The execution of one of the matching rules. -/
def advancesExecution (entry : TriggerEntry) (rules : List EvaluatedRule) (rule : EvaluatedRule)
    (rest : List EvaluatedRule) : ExecutionSteps (advances payload a db₀) () rule entry where
  Start g := entry.nombaEventId = payload.eventId ∧ g = .executing rules (rule :: rest) none
  Running x g := entry.nombaEventId = payload.eventId ∧ g = .executing rules (rule :: rest) (some x)
  Credited x _ _ g :=
    entry.nombaEventId = payload.eventId ∧ g = .executing rules (rule :: rest) (some x)
  Done _ g := entry.nombaEventId = payload.eventId ∧ g = .executing rules rest none
  Destination _ := True
  quiet := advances_quiet
  create := by
    rintro l G hist w env db w' - ⟨hentry, hG⟩ hinv - hdb rfl
    obtain ⟨hexecuting, hnew⟩ := Advances.at hinv hG
    refine ⟨_, Advances.statement hinv (o := .createRuleExecution _) hdb id
      (s := .executing rules (rule :: rest) (some env.row.id))
      ⟨hexecuting.create hentry hdb, ?_⟩, hentry, rfl⟩
    obtain ⟨-, -, -, -, rfl⟩ := Db.createRuleExecution_eq_ok.1 hdb
    exact hnew
  destination := by
    intros
    trivial
  credit := by
    rintro x bucket amount l G hist w env c db w' - - - - - ⟨hentry, hG⟩ hinv - hrun rfl
    obtain ⟨hexecuting, hnew⟩ := Advances.at hinv hG
    refine ⟨.executing rules (rule :: rest) (some x),
      ⟨hinv.config.credit hrun, hinv.unique.run hrun, ?_⟩, hentry, rfl⟩
    rw [Function.update_self]
    -- no credit touches the executions
    rcases (creditTx_run_eq_ok w.db).1 hrun with ⟨e, -, -, rfl⟩ | ⟨-, -, hdb⟩
    · exact ⟨hexecuting, hnew⟩
    · obtain ⟨-, -, -, -, rfl⟩ := Db.createBucketLedgerEntry_eq_ok.1 hdb
      exact ⟨hexecuting.congr (fun _ _ h => h.congr rfl) rfl, hnew⟩
  record := by
    rintro x o data l G hist w env db w' - hg hdata hinv - hdb rfl
    obtain ⟨hentry, hG⟩ : entry.nombaEventId = payload.eventId ∧
        G () = .executing rules (rule :: rest) (some x) :=
      hg.elim (fun h => h.1) fun ⟨_, _, h⟩ => h
    obtain ⟨hexecuting, hnew⟩ := Advances.at hinv hG
    have hstatus : data.status ≠ .pending := hdata ▸ o.toStatus_ne_pending
    refine ⟨_, Advances.statement hinv (o := .updateRuleExecution _ _) hdb id
      (s := .executing rules rest none) ⟨hexecuting.record hstatus hdb, ?_⟩, hentry, rfl⟩
    obtain ⟨-, rfl⟩ := Db.updateRuleExecution_eq_ok.1 hdb
    exact hnew
  changeStatus := by
    rintro x status l G hist w env db w' - ⟨hentry, hG⟩ hinv - hdb rfl
    obtain ⟨hexecuting, hnew⟩ := Advances.at hinv hG
    rw [← Function.update_eq_self () G, hG]
    refine Advances.statement hinv (o := .updateAccountStatus _ _) hdb id ?_
    obtain ⟨-, rfl⟩ := Db.updateAccountStatus_eq_ok.1 hdb
    exact ⟨hexecuting.congr (fun _ _ h => h.congr rfl) rfl, hnew⟩
  flag := by
    rintro x id l G hist w env db w' - - ⟨hentry, hG⟩ hinv - hdb rfl
    obtain ⟨hexecuting, hnew⟩ := Advances.at hinv hG
    rw [← Function.update_eq_self () G, hG]
    refine Advances.statement hinv (o := .updateReconciliationById _ _) hdb (fun h => h) ?_
    have hrecorded : ∀ n t, w.db.Recorded payload n t → db.Recorded payload n t :=
      fun _ _ h => h.flag hdb
    obtain ⟨-, rfl⟩ := Db.updateReconciliationById_eq_ok.1 hdb
    exact ⟨hexecuting.congr hrecorded rfl, hnew⟩

/-- The first delivery of an inflow to the account `a`, which is ACTIVE. -/
def advancesDelivery (hfound : db₀.findAccount payload.accountNumber = some a)
    (hactive : a.status = .active) (hbusiness : db₀.findBusiness a.businessId ≠ none)
    (hinflow : isCustomEvent payload = false) :
    DeliverySteps (advances payload a db₀) () payload where
  Idle g := g = .idle
  Fresh g := g = .unseen
  Claimed _ _ := False
  Written _ n t g := g = .written n t
  Loop _ entry rules rest g := entry.nombaEventId = payload.eventId ∧ g = .executing rules rest none
  Reconciled _ g := g = .reconciled
  Located a' := a' = a
  Selected _ event rules :=
    ∀ n t, event = inflowEvent n t → Selects a db₀ n t rules
  businessMayBeMissing := False
  quiet := advances_quiet
  unprocessed := by
    rintro l G hist w env - hG hinv - hnone
    obtain ⟨hdb, hnothing⟩ := Advances.at hinv hG
    refine ⟨.unseen, ⟨hinv.config, hinv.unique, ?_⟩, rfl⟩
    rw [Function.update_self]
    refine ⟨hdb, hnothing.append rfl, ?_⟩
    rintro ⟨e, he, hid⟩
    simpa [hid] using List.find?_eq_none.1 hnone e he
  locate := by
    intro a' G hist w hG hinv ha
    obtain ⟨hdb, -⟩ := Advances.at hinv hG
    rw [hdb, hfound] at ha
    exact (Option.some.inj ha).symm
  select := by
    rintro a' event rank G hist w rfl hinv n t rfl
    exact ⟨rank, by rw [hinv.config.findRules]⟩
  business := by
    rintro a' G hist w rfl hinv hnone
    rw [hinv.config.findBusiness] at hnone
    exact hbusiness hnone
  claim := by
    rintro a' e l G hist w env db w' - hcustom
    simp [hinflow] at hcustom
  flagged := by
    rintro found t l G hist w env db w' - - hsuspended rfl
    simp [hactive] at hsuspended
  write := by
    rintro found n t l G hist w env db w' - - - hn - hG hinv - hrun rfl
    obtain ⟨-, -, hnew⟩ := Advances.at hinv hG
    refine ⟨.written n t, ⟨hinv.config.writeInflow hrun, hinv.unique.run hrun, ?_⟩, rfl⟩
    rw [Function.update_self]
    refine ⟨Db.recorded_of_writeInflow hn hrun, ?_⟩
    obtain ⟨m, -, -, hdb⟩ := (writeInflowTx_run_eq_ok w.db).1 hrun
    obtain ⟨-, -, -, rfl⟩ := Db.createLedgerEntry_eq_ok.1 hdb
    exact hnew
  entryExists := by
    rintro a' n t G hist w hG hinv hnone
    obtain ⟨e, he, href, -⟩ := (Advances.at hinv hG).1.exists_mem
    simpa [href] using List.find?_eq_none.1 hnone e he
  beginInflow := by
    rintro a' n t e rules l G hist w env - - hrules hG hinv - he
    obtain ⟨hrecorded, hnew⟩ := Advances.at hinv hG
    refine ⟨.executing rules rules none, ⟨hinv.config, hinv.unique, ?_⟩,
      hrecorded.found hinv.unique he, rfl⟩
    rw [Function.update_self]
    exact ⟨⟨⟨n, t, hrecorded, hrules n t rfl⟩, ⟨[], rfl, by simp⟩, by simp⟩, hnew⟩
  beginEvent := by
    rintro a' rules l G hist w env - - - ⟨⟩
  execution _ entry rules rule rest := advancesExecution payload a db₀ entry rules rule rest
  start h := h
  done h := h
  enqueue := by
    rintro a' entry rules rest job l G hist w env w' - ⟨-, hG⟩ hinv - rfl
    have hstage := Advances.at hinv hG
    refine ⟨hinv.config, hinv.unique, ?_⟩
    rw [hG]
    exact hstage
  reconcile := by
    rintro a' n t status l G hist w env db w' - hstatus - hdone hinv - hdb rfl
    -- either way every selected rule has been executed
    obtain ⟨m, u, rank, hrecorded, hexecuted, hnew⟩ : ∃ m u rank, w.db.Recorded payload m u ∧
        (∀ r ∈ selectMatching a.executionModel (inflowEvent m u) (w.db.findRules rank a.id),
          w.db.Executed payload.eventId r.id) ∧ ¬ w.db.Processed payload := by
      rcases hdone with ⟨e, rules, -, -, hG⟩ | ⟨hG, hrules | ⟨⟨⟩⟩⟩
      · obtain ⟨⟨⟨m, u, hrecorded, rank, hrules⟩, ⟨done, hdone, hexecuted⟩, -⟩, hnew⟩ :=
          Advances.at hinv hG
        rw [List.append_nil] at hdone
        refine ⟨m, u, rank, hrecorded, ?_, hnew⟩
        rw [hinv.config.findRules, ← hrules, hdone]
        exact hexecuted
      · obtain ⟨hrecorded, hnew⟩ := Advances.at hinv hG
        obtain ⟨rank, hnil⟩ := hrules n t rfl
        refine ⟨n, t, rank, hrecorded, ?_, hnew⟩
        rw [hinv.config.findRules, ← hnil]
        simp
    refine ⟨.reconciled, Advances.statement hinv (o := .updateReconciliationByRef _ _) hdb id
      ⟨Db.settled_of_reconcile hrecorded hstatus hexecuted hdb, ?_⟩, rfl⟩
    obtain ⟨-, rfl⟩ := Db.updateReconciliationByRef_eq_ok.1 hdb
    exact hnew
  finish := by
    rintro a' e l G hist w env db w' - he hG hinv - hdb rfl
    obtain ⟨hsettled, -⟩ := Advances.at hinv hG
    refine ⟨.processed, Advances.statement hinv (o := .createProcessedEvent _) hdb id ?_⟩
    obtain ⟨-, -, rfl⟩ := Db.createProcessedEvent_eq_ok.1 hdb
    exact ⟨hsettled, e, by simp, he⟩

end FirstDelivery

/-! ### The second delivery changes nothing -/

section SecondDelivery

variable {payload : InflowPayload} {db₁ : Db}

/-- The protocol of a delivery whose transaction reference is taken. -/
def refused (db₁ : Db) : Protocol Unit World Env Call Unit where
  allowed _ _ _ _ := True
  inv _ _ w := w.db = db₁

theorem refused_quiet : Quiet (refused db₁) := by
  intro G hist w w' i l env hinv _ hsame
  exact hsame.db.trans hinv

theorem not_writeInflow {found : FoundAccount} {status : ReconciliationStatus} {env : Env} {t : Int}
    {db : Db} (htaken : ∃ e ∈ db₁.ledgerEntries, e.nombaTransactionRef = payload.transactionRef) :
    (writeInflowTx (inflowDto payload found) status env).run schema db₁ ≠ .ok (t, db) := by
  intro hrun
  obtain ⟨n, -, -, hdb⟩ := (writeInflowTx_run_eq_ok db₁).1 hrun
  obtain ⟨-, hfree, -⟩ := Db.createLedgerEntry_eq_ok.1 hdb
  obtain ⟨e, he, href⟩ := htaken
  exact hfree e he href

/-- It never gets to executing a rule. -/
def refusedExecution (rule : EvaluatedRule) (entry : TriggerEntry) :
    ExecutionSteps (refused db₁) () rule entry where
  Start _ := False
  Running _ _ := False
  Credited _ _ _ _ := False
  Done _ _ := False
  Destination _ := False
  quiet := refused_quiet
  create := by
    rintro l G hist w env db w' - ⟨⟩
  destination := by
    rintro x ref bucket G hist w ⟨⟩
  credit := by
    rintro x bucket amount l G hist w env a db w' - - ⟨⟩
  record := by
    rintro x o data l G hist w env db w' - (⟨⟨⟩, -⟩ | ⟨_, _, ⟨⟩⟩)
  changeStatus := by
    rintro x status l G hist w env db w' - ⟨⟩
  flag := by
    rintro x id l G hist w env db w' - - ⟨⟩

def refusedDelivery (hinflow : isCustomEvent payload = false)
    (htaken : ∃ e ∈ db₁.ledgerEntries, e.nombaTransactionRef = payload.transactionRef) :
    DeliverySteps (refused db₁) () payload where
  Idle _ := True
  Fresh _ := True
  Claimed _ _ := False
  Written _ _ _ _ := False
  Loop _ _ _ _ _ := False
  Reconciled _ _ := False
  Located _ := True
  Selected _ _ _ := True
  businessMayBeMissing := True
  quiet := refused_quiet
  unprocessed := by
    rintro l G hist w env - - hinv - -
    exact ⟨(), hinv, trivial⟩
  locate := by
    intros
    trivial
  select := by
    intros
    trivial
  business := by
    intros
    trivial
  claim := by
    rintro a e l G hist w env db w' - hcustom
    simp [hinflow] at hcustom
  flagged := by
    rintro found t l G hist w env db w' - - - - - rfl - hrun
    exact absurd hrun (not_writeInflow htaken)
  write := by
    rintro found n t l G hist w env db w' - - - - - - rfl - hrun
    exact absurd hrun (not_writeInflow htaken)
  entryExists := by
    rintro a n t G hist w ⟨⟩
  beginInflow := by
    rintro a n t e rules l G hist w env - - - ⟨⟩
  beginEvent := by
    rintro a rules l G hist w env - - - ⟨⟩
  execution _ entry _ rule _ := refusedExecution rule entry
  start h := h
  done h := h
  enqueue := by
    rintro a entry rules rest job l G hist w env w' - ⟨⟩
  reconcile := by
    rintro a n t status l G hist w env db w' - - - (⟨_, _, -, ⟨⟩⟩ | ⟨⟨⟩, -⟩)
  finish := by
    rintro a e l G hist w env db w' - - ⟨⟩

/-- **A delivery whose transaction reference is taken changes nothing in the database**, at no
point of its run. -/
theorem redelivery_refused (hinflow : isCustomEvent payload = false) {w₁ w₂ : World}
    (htaken : ∃ e ∈ w₁.db.ledgerEntries, e.nombaTransactionRef = payload.transactionRef)
    {hist : List (Event Unit World Env Call)} {ps : Unit → Action Unit}
    (run : Run (fun _ _ _ _ => True) (fun _ => process payload) w₁ hist ps w₂) :
    w₂.db = w₁.db := by
  obtain ⟨_, hinv⟩ := (refused w₁.db).inv_of_run (fun _ => ()) rfl
    (fun _ => (refusedDelivery hinflow htaken).wp_process trivial) run
  exact hinv

end SecondDelivery

/-! ### Crash and redelivery -/

/-- What the first delivery has done once its entry is written: the inflow's reference is taken,
and the event is processed exactly when everything was done. -/
theorem first_delivery {payload : InflowPayload} {a : Account} {w₀ w₁ : World}
    {hist : List (Event Unit World Env Call)} {ps : Unit → Action Unit}
    (hunique : w₀.db.UniqueColumns) (hfound : w₀.db.findAccount payload.accountNumber = some a)
    (hactive : a.status = .active) (hbusiness : w₀.db.findBusiness a.businessId ≠ none)
    (hinflow : isCustomEvent payload = false)
    (run : Run (fun _ _ _ _ => True) (fun _ => process payload) w₀ hist ps w₁)
    (hwritten : ¬ NothingWritten hist) :
    (∃ e ∈ w₁.db.ledgerEntries, e.nombaTransactionRef = payload.transactionRef) ∧
      (w₁.db.Processed payload → w₁.db.Settled payload a) := by
  obtain ⟨G, hadvances⟩ := (advances payload a w₀.db).inv_of_run (fun _ => Stage.idle)
    ⟨.refl _, hunique, rfl, by simp [NothingWritten]⟩
    (fun _ => (advancesDelivery payload a w₀.db hfound hactive hbusiness hinflow).wp_process rfl)
    run
  have htaken : ∀ {n t}, w₁.db.Recorded payload n t →
      ∃ e ∈ w₁.db.ledgerEntries, e.nombaTransactionRef = payload.transactionRef := by
    intro n t hrecorded
    obtain ⟨e, he, href, -⟩ := hrecorded.exists_mem
    exact ⟨e, he, href⟩
  have hstage := hadvances.stage
  -- before the last step the event is not marked as processed
  cases hG : G () with
  | idle =>
    rw [hG] at hstage
    exact absurd hstage.2 hwritten
  | unseen =>
    rw [hG] at hstage
    exact absurd hstage.2.1 hwritten
  | written n t =>
    rw [hG] at hstage
    exact ⟨htaken hstage.1, fun h => absurd h hstage.2⟩
  | executing rules rest current =>
    rw [hG] at hstage
    obtain ⟨n, t, hrecorded, -⟩ := hstage.1.recorded
    exact ⟨htaken hrecorded, fun h => absurd h hstage.2⟩
  | reconciled =>
    rw [hG] at hstage
    obtain ⟨⟨e, he, href, -⟩, hnew⟩ := hstage
    exact ⟨⟨e, he, href⟩, fun h => absurd h hnew⟩
  | processed =>
    rw [hG] at hstage
    obtain ⟨e, he, href, -⟩ := hstage.1
    exact ⟨⟨e, he, href⟩, fun _ => hstage.1⟩

/-- **Crash and redelivery.** A worker processes an inflow to an ACTIVE account and stops at some
call after it has written the ledger entry, whether by a crash or because a call was thrown; then
the event is delivered again. At every point of the second delivery, its end included, the inflow
is in the state that an uninterrupted run leaves if and only if the first delivery had already
written the `ProcessedEvent` row. -/
theorem redelivery_recovers_iff {payload : InflowPayload} {a : Account} {w₀ w₁ w₂ : World}
    {hist hist' : List (Event Unit World Env Call)} {ps ps' : Unit → Action Unit}
    (hunique : w₀.db.UniqueColumns) (hfound : w₀.db.findAccount payload.accountNumber = some a)
    (hactive : a.status = .active) (hbusiness : w₀.db.findBusiness a.businessId ≠ none)
    (hinflow : isCustomEvent payload = false)
    (run : Run (fun _ _ _ _ => True) (fun _ => process payload) w₀ hist ps w₁)
    (hwritten : ¬ NothingWritten hist)
    (redelivery : Run (fun _ _ _ _ => True) (fun _ => process payload) w₁ hist' ps' w₂) :
    w₂.db.Recovered payload a ↔ w₁.db.Processed payload := by
  obtain ⟨htaken, hdone⟩ :=
    first_delivery hunique hfound hactive hbusiness hinflow run hwritten
  rw [redelivery_refused hinflow htaken redelivery]
  exact ⟨fun h => h.2, fun h => ⟨hdone h, h⟩⟩

namespace Sample

/-- The worker runs to the end. -/
def uninterrupted : List (Event Unit World Env Call) × (Unit → Action Unit) × World :=
  exec (fun _ => process inflow) opsShop (unit [{}, {}, { row := ⟨1, "ble1"⟩ }, {}, {}, {},
    { row := ⟨2, "exe1"⟩ }, {}, { row := ⟨3, "cre1"⟩ }, {}, {}, {}, {}, {},
    { row := ⟨4, "prc1"⟩ }])

/-- The worker stops right after `writeInflow`. -/
def interrupted : List (Event Unit World Env Call) × (Unit → Action Unit) × World :=
  exec (fun _ => process inflow) opsShop (unit [{}, {}, { row := ⟨1, "ble1"⟩ }])

/-- The event is delivered again. -/
def again (w : World) : List (Event Unit World Env Call) × (Unit → Action Unit) × World :=
  exec (fun _ => process inflow) w (unit [{}, {}, { row := ⟨9, "ble9"⟩ }, {}])

end Sample

/-- An event that was processed to the end and is delivered again. -/
theorem redelivery_recovers_iff_uninterrupted :
    let w₁ := Sample.uninterrupted.2.2
    w₁.db.Processed Sample.inflow ∧
      (Sample.again w₁).2.2.db.Recovered Sample.inflow Sample.account := by
  have hprocessed : Sample.uninterrupted.2.2.db.Processed Sample.inflow := by
    unfold Db.Processed
    decide +kernel
  have hunique : Sample.opsShop.db.UniqueColumns := by constructor <;> decide
  have hwritten : ¬ NothingWritten Sample.uninterrupted.1 := by
    unfold NothingWritten
    decide +kernel
  refine ⟨hprocessed, ?_⟩
  exact (redelivery_recovers_iff hunique rfl rfl (by decide) (by decide)
    (Run.of_exec _ _ _ fun _ _ => trivial) hwritten
    (Run.of_exec _ _ _ fun _ _ => trivial)).2 hprocessed

/-- A worker that stops after `writeInflow`: the second delivery runs to its end, but the inflow
stays PENDING and its rule is never executed. -/
theorem redelivery_discards_interrupted_inflow :
    let w₁ := Sample.interrupted.2.2
    let w₂ := (Sample.again w₁).2.2
    Run (fun _ _ _ _ => True) (fun _ => process Sample.inflow) Sample.opsShop
      Sample.interrupted.1 Sample.interrupted.2.1 w₁ ∧
    ¬ NothingWritten Sample.interrupted.1 ∧
    Run (fun _ _ _ _ => True) (fun _ => process Sample.inflow) w₁
      (Sample.again w₁).1 (Sample.again w₁).2.1 w₂ ∧
    (Sample.again w₁).2.1 () = .ret () ∧
    w₂.db.ledgerEntries.map LedgerEntry.reconciliationStatus = [.pending] ∧
    w₂.db.ruleExecutions.length = 0 ∧ ¬ w₂.db.Recovered Sample.inflow Sample.account := by
  refine ⟨Run.of_exec _ _ _ fun _ _ => trivial, ?_, Run.of_exec _ _ _ fun _ _ => trivial, rfl,
    by decide +kernel, by decide +kernel, fun h => ?_⟩
  · unfold NothingWritten
    decide +kernel
  · have hprocessed := h.2
    unfold Db.Processed at hprocessed
    revert hprocessed
    decide +kernel

end AccountOS
