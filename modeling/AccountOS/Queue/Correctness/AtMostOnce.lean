import AccountOS.Queue.Correctness.Steps

/-!
# Deliveries are processed at most once

Any number of workers process deliveries, each of them a thread whose calls interleave with those
of the others and which may stop at any call, while the statuses of accounts change. Of the
deliveries of one inflow, or of one custom event, at most one executes rules.

A delivery has to pass a *gate*: the unique transaction reference of the ledger entry for an
inflow, the unique event id of the `ProcessedEvent` row for a custom event. Only the thread that
writes the row goes on, and the row stays.
-/

namespace AccountOS

open Conc Sql WebhookProcessor

/-! ### Workers -/

/-- What a thread does: process one delivery, or set the status of an account. -/
inductive WorkerJob
  | deliver (payload : InflowPayload)
  | setStatus (accountId : String) (status : AccountStatus)

def WorkerJob.run : WorkerJob → Action Unit
  | deliver payload => process payload
  | setStatus accountId status =>
    statement (.updateAccountStatus accountId status) fun _ => .updateAccountStatus accountId status

/-- Two deliveries of one inflow, or of one custom event. -/
def SameEvent (p q : InflowPayload) : Prop :=
  p.eventId = q.eventId ∧ isCustomEvent p = isCustomEvent q ∧
    (isCustomEvent p = false → p.transactionRef = q.transactionRef)

/-- A call that records an execution of a rule for an event. -/
def Executes {ι : Type} (ev : Event ι World Env Call) (ruleId eventId : String) : Prop :=
  ev.call = .createRuleExecution ruleId eventId ∧
    ev.after.db.ruleExecutions ≠ ev.before.db.ruleExecutions

/-! ### Gates -/

/-- The unique value by which a delivery is recognised. -/
inductive Gate
  | transaction (nombaTransactionRef : String)
  | event (eventId : String)
deriving DecidableEq

def gate (payload : InflowPayload) : Gate :=
  if isCustomEvent payload then .event payload.eventId else .transaction payload.transactionRef

theorem SameEvent.gate_eq {p q : InflowPayload} (h : SameEvent p q) : gate p = gate q := by
  obtain ⟨hid, hcustom, href⟩ := h
  unfold gate
  rw [← hcustom]
  split
  next => rw [hid]
  next hp => rw [href (by simpa using hp)]

namespace Db

/-- Some delivery has passed the gate. -/
def Closed (db : Db) : Gate → Prop
  | .transaction ref => ∃ e ∈ db.ledgerEntries, e.nombaTransactionRef = ref
  | .event id => ∃ e ∈ db.processedEvents, e.eventId = id

variable {db db' : Db} {k : Gate}

theorem Closed.congr (hentries : db'.ledgerEntries.map LedgerEntry.nombaTransactionRef =
      db.ledgerEntries.map LedgerEntry.nombaTransactionRef)
    (hevents : db'.processedEvents = db.processedEvents) (h : db.Closed k) : db'.Closed k := by
  cases k with
  | transaction ref =>
    have href : ref ∈ db.ledgerEntries.map LedgerEntry.nombaTransactionRef := List.mem_map.2 h
    rw [← hentries] at href
    exact List.mem_map.1 href
  | event id =>
    unfold Closed at h ⊢
    rwa [hevents]

/-- **A gate stays closed.** -/
theorem Closed.apply {o : WriteOp} (hop : o.apply db = .ok db') (h : db.Closed k) :
    db'.Closed k := by
  have hsame := WriteOp.sameExcept hop
  cases o with
  | createLedgerEntry e =>
    obtain ⟨-, -, -, rfl⟩ := createLedgerEntry_eq_ok.1 hop
    cases k with
    | transaction ref =>
      obtain ⟨x, hx, href⟩ := h
      exact ⟨x, List.mem_append_left _ hx, href⟩
    | event id => exact h
  | updateReconciliationByRef ref status =>
    obtain ⟨-, rfl⟩ := updateReconciliationByRef_eq_ok.1 hop
    exact h.congr (Sql.map_updateRow (fun _ => by rfl) _) rfl
  | updateReconciliationById id status =>
    obtain ⟨-, rfl⟩ := updateReconciliationById_eq_ok.1 hop
    exact h.congr (Sql.map_updateRow (fun _ => by rfl) _) rfl
  | createProcessedEvent e =>
    obtain ⟨-, -, rfl⟩ := createProcessedEvent_eq_ok.1 hop
    cases k with
    | transaction ref => exact h
    | event id =>
      obtain ⟨x, hx, hid⟩ := h
      exact ⟨x, List.mem_append_left _ hx, hid⟩
  | _ =>
    have hledger : db'.ledgerEntries = db.ledgerEntries := hsame.ledgerEntries nofun
    exact h.congr (by rw [hledger]) (hsame.processedEvents nofun)

end Db

/-! ### The invariant -/

variable {ι : Type}

/-- `G i` says that thread `i` has passed its gate. A gate that was passed is closed, it was passed
by one thread only, and only such threads have executed rules. -/
structure Gated (jobs : ι → WorkerJob) (G : ι → Bool) (hist : List (Event ι World Env Call))
    (w : World) : Prop where
  unique : w.db.UniqueColumns
  closed : ∀ i p, jobs i = .deliver p → G i = true → w.db.Closed (gate p)
  once : ∀ i j p q, jobs i = .deliver p → jobs j = .deliver q → G i = true → G j = true →
    gate p = gate q → i = j
  executed : ∀ ev ∈ hist, ∀ ruleId eventId, Executes ev ruleId eventId → G ev.who = true

namespace Gated

variable {jobs : ι → WorkerJob} {G : ι → Bool} {hist : List (Event ι World Env Call)}
  {w w' : World} {i : ι} {l : Call} {env : Env}

/-- A call that closes no gate: it executes a rule only for a thread that has passed its own. -/
theorem step (h : Gated jobs G hist w) (hunique : w'.db.UniqueColumns)
    (hclosed : ∀ k, w.db.Closed k → w'.db.Closed k)
    (hexec : w'.db.ruleExecutions ≠ w.db.ruleExecutions → G i = true) :
    Gated jobs G (hist ++ [⟨i, l, env, w, w'⟩]) w' where
  unique := hunique
  closed j p hj hG := hclosed _ (h.closed j p hj hG)
  once := h.once
  executed := by
    intro ev hev ruleId eventId hex
    rcases List.mem_append.1 hev with hev | hev
    · exact h.executed ev hev ruleId eventId hex
    · rw [List.mem_singleton] at hev
      subst hev
      exact hexec hex.2

/-- A single statement. -/
theorem statement (h : Gated jobs G hist w) {o : WriteOp} {db : Db}
    (hop : o.apply w.db = .ok db)
    (hexec : db.ruleExecutions ≠ w.db.ruleExecutions → G i = true) :
    Gated jobs G (hist ++ [⟨i, l, env, w, { w with db }⟩]) { w with db } :=
  h.step (h.unique.apply hop) (fun _ hk => hk.apply hop) hexec

/-- A transaction of a thread that has passed its gate. -/
theorem transaction (h : Gated jobs G hist w) {α : Type} {t : TxBody α} {a : α} {db : Db}
    (hrun : t.run schema w.db = .ok (a, db))
    (hexec : db.ruleExecutions ≠ w.db.ruleExecutions → G i = true) :
    Gated jobs G (hist ++ [⟨i, l, env, w, { w with db }⟩]) { w with db } :=
  h.step (h.unique.run hrun)
    (fun k hk => Tx.run_preserves (I := fun db => db.Closed k)
      (fun _ _ _ hop hdb => hdb.apply hop) hrun hk) hexec

/-- A thread passes its gate: it was open, so nobody has passed it before. -/
theorem pass [DecidableEq ι] (h : Gated jobs G hist w) {p : InflowPayload}
    (hi : jobs i = .deliver p)
    (hopen : ¬ w.db.Closed (gate p)) (hnow : w'.db.Closed (gate p))
    (hunique : w'.db.UniqueColumns) (hclosed : ∀ k, w.db.Closed k → w'.db.Closed k) :
    Gated jobs (Function.update G i true) (hist ++ [⟨i, l, env, w, w'⟩]) w' where
  unique := hunique
  closed := by
    intro j q hj hG
    by_cases hji : j = i
    · subst hji
      rw [hi, WorkerJob.deliver.injEq] at hj
      exact hj ▸ hnow
    · rw [Function.update_of_ne hji] at hG
      exact hclosed _ (h.closed j q hj hG)
  once := by
    -- whoever had passed this gate before would have closed it
    have hfirst : ∀ j q, jobs j = .deliver q → Function.update G i true j = true →
        gate q = gate p → j = i := by
      intro j q hj hG hgate
      by_contra hji
      rw [Function.update_of_ne hji] at hG
      exact hopen (hgate ▸ h.closed j q hj hG)
    intro j k q r hj hk hGj hGk hgate
    by_cases hki : k = i
    · subst hki
      rw [hi, WorkerJob.deliver.injEq] at hk
      exact hfirst j q hj hGj (hk ▸ hgate)
    · by_cases hji : j = i
      · subst hji
        rw [hi, WorkerJob.deliver.injEq] at hj
        exact (hfirst k r hk hGk (hj ▸ hgate.symm)).symm
      · rw [Function.update_of_ne hji] at hGj
        rw [Function.update_of_ne hki] at hGk
        exact h.once j k q r hj hk hGj hGk hgate
  executed := by
    intro ev hev ruleId eventId hex
    by_cases hwho : ev.who = i
    · rw [hwho, Function.update_self]
    · rw [Function.update_of_ne hwho]
      rcases List.mem_append.1 hev with hev | hev
      · exact h.executed ev hev ruleId eventId hex
      · rw [List.mem_singleton] at hev
        exact absurd (by rw [hev]) hwho

end Gated

/-- The protocol: every call is considered. -/
def gated (jobs : ι → WorkerJob) : Protocol ι World Env Call Bool where
  allowed _ _ _ _ := True
  inv := Gated jobs

theorem gated_quiet (jobs : ι → WorkerJob) : Quiet (gated jobs) := by
  intro G hist w w' i l env hinv _ hsame
  refine Gated.step hinv (hsame.db ▸ hinv.unique) (fun k hk => hsame.db ▸ hk) fun hne => ?_
  exact absurd (by rw [hsame.db]) hne

/-! ### Every job keeps it -/

section Jobs

variable [DecidableEq ι] (jobs : ι → WorkerJob) (i : ι)

/-- Executing a rule needs nothing but having passed the gate. -/
def gatedExecution (rule : EvaluatedRule) (entry : TriggerEntry) :
    ExecutionSteps (gated jobs) i rule entry where
  Start g := g = true
  Running _ g := g = true
  Credited _ _ _ g := g = true
  Done _ g := g = true
  Destination _ := True
  quiet := gated_quiet jobs
  create := by
    rintro l G hist w env db w' - hG hinv - hdb rfl
    refine ⟨true, ?_, rfl⟩
    rw [← hG, Function.update_eq_self]
    exact Gated.statement hinv (o := .createRuleExecution _) hdb fun _ => hG
  destination := by
    intros
    trivial
  credit := by
    rintro x bucket amount l G hist w env a db w' - - - - - hG hinv - hrun rfl
    refine ⟨true, ?_, rfl⟩
    rw [← hG, Function.update_eq_self]
    exact Gated.transaction hinv hrun fun _ => hG
  record := by
    rintro x o data l G hist w env db w' - hG' - hinv - hdb rfl
    have hG : G i = true := hG'.elim (fun h => h.1) fun ⟨_, _, h⟩ => h
    refine ⟨true, ?_, rfl⟩
    rw [← hG, Function.update_eq_self]
    exact Gated.statement hinv (o := .updateRuleExecution _ _) hdb fun _ => hG
  changeStatus := by
    rintro x status l G hist w env db w' - hG hinv - hdb rfl
    exact Gated.statement hinv (o := .updateAccountStatus _ _) hdb fun _ => hG
  flag := by
    rintro x id l G hist w env db w' - - hG hinv - hdb rfl
    exact Gated.statement hinv (o := .updateReconciliationById _ _) hdb fun _ => hG

/-- A delivery passes its gate with the row it writes. -/
def gatedDelivery {payload : InflowPayload} (hi : jobs i = .deliver payload) :
    DeliverySteps (gated jobs) i payload where
  Idle _ := True
  Fresh _ := True
  Claimed _ g := g = true
  Written _ _ _ g := isCustomEvent payload = false ∧ g = true
  Loop _ _ _ _ g := g = true
  Reconciled _ g := g = true
  Located _ := True
  Selected _ _ _ := True
  businessMayBeMissing := True
  quiet := gated_quiet jobs
  unprocessed := by
    rintro l G hist w env - - hinv - -
    refine ⟨G i, ?_, trivial⟩
    rw [Function.update_eq_self]
    exact gated_quiet jobs G hist w w i l env hinv trivial (.refl w)
  locate := by
    intros
    trivial
  select := by
    intros
    trivial
  business := by
    intros
    trivial
  claim := by
    rintro a e l G hist w env db w' - hcustom he - - hinv - hdb rfl
    -- a custom event passes with its `ProcessedEvent` row
    have hgate : gate payload = .event payload.eventId := if_pos hcustom
    obtain ⟨-, hfree, hnew⟩ := Db.createProcessedEvent_eq_ok.1 hdb
    refine ⟨true, Gated.pass hinv hi ?_ ?_ (hinv.unique.apply (o := .createProcessedEvent e) hdb)
      (fun k hk => hk.apply (o := .createProcessedEvent e) hdb), rfl⟩
    · rw [hgate]
      rintro ⟨x, hx, hid⟩
      exact hfree x hx (hid.trans he.symm)
    · rw [hgate]
      exact ⟨e, by simp [hnew], he⟩
  flagged := by
    rintro found t l G hist w env db w' - - - - - hinv - hrun rfl
    refine Gated.transaction hinv hrun fun hne => ?_
    obtain ⟨n, -, -, hdb⟩ := (writeInflowTx_run_eq_ok w.db).1 hrun
    obtain ⟨-, -, -, rfl⟩ := Db.createLedgerEntry_eq_ok.1 hdb
    exact absurd rfl hne
  write := by
    rintro found n t l G hist w env db w' - hinflow - - - - hinv - hrun rfl
    -- an inflow passes with its ledger entry
    have hgate : gate payload = .transaction payload.transactionRef := if_neg (by simp [hinflow])
    obtain ⟨m, -, -, hdb⟩ := (writeInflowTx_run_eq_ok w.db).1 hrun
    obtain ⟨-, hfree, -, hnew⟩ := Db.createLedgerEntry_eq_ok.1 hdb
    refine ⟨true, Gated.pass hinv hi ?_ ?_ (hinv.unique.run hrun)
      (fun k hk => hk.apply (o := .createLedgerEntry _) hdb), hinflow, rfl⟩
    · rw [hgate]
      rintro ⟨x, hx, href⟩
      exact hfree x hx href
    · rw [hgate]
      exact ⟨_, by rw [hnew]; exact List.mem_append_right _ (List.mem_singleton_self _), rfl⟩
  entryExists := by
    rintro a n t G hist w ⟨hinflow, hG⟩ hinv hnone
    have hgate : gate payload = .transaction payload.transactionRef := if_neg (by simp [hinflow])
    have hclosed := Gated.closed hinv i payload hi hG
    rw [hgate] at hclosed
    obtain ⟨x, hx, href⟩ := hclosed
    simpa [href] using List.find?_eq_none.1 hnone x hx
  beginInflow := by
    rintro a n t e rules l G hist w env - - - ⟨-, hG⟩ hinv - -
    refine ⟨true, ?_, rfl⟩
    rw [← hG, Function.update_eq_self]
    exact gated_quiet jobs G hist w w i l env hinv trivial (.refl w)
  beginEvent := by
    rintro a rules l G hist w env - - - hG hinv -
    refine ⟨true, ?_, rfl⟩
    rw [← hG, Function.update_eq_self]
    exact gated_quiet jobs G hist w w i l env hinv trivial (.refl w)
  execution _ entry _ rule _ := gatedExecution jobs i rule entry
  start h := h
  done h := h
  enqueue := by
    rintro a entry rules rest job l G hist w env w' - hG hinv - rfl
    exact Gated.step hinv hinv.unique (fun _ hk => hk) fun _ => hG
  reconcile := by
    rintro a n t status l G hist w env db w' - - - hG' hinv - hdb rfl
    have hG : G i = true := hG'.elim (fun ⟨_, _, _, h⟩ => h) fun h => h.1.2
    refine ⟨true, ?_, rfl⟩
    rw [← hG, Function.update_eq_self]
    exact Gated.statement hinv (o := .updateReconciliationByRef _ _) hdb fun _ => hG
  finish := by
    rintro a e l G hist w env db w' - - hG hinv - hdb rfl
    refine ⟨true, ?_⟩
    rw [← hG, Function.update_eq_self]
    exact Gated.statement hinv (o := .createProcessedEvent _) hdb fun _ => hG

theorem wp_run : (jobs i).run.Wp (gated jobs) i (fun _ _ => True) (fun _ _ => True) false := by
  cases hi : jobs i with
  | deliver payload => exact (gatedDelivery jobs i hi).wp_process trivial
  | setStatus accountId status =>
    refine wp_statement (gated_quiet jobs) ?_ fun _ _ _ _ _ _ _ _ _ _ _ => trivial
    intro G hist w env db w' hG hinv hallowed hf hdb hw'
    subst hw'
    refine ⟨false, ?_, trivial⟩
    rw [← hG, Function.update_eq_self]
    refine Gated.statement hinv (o := .updateAccountStatus _ _) hdb fun hne => ?_
    obtain ⟨-, rfl⟩ := Db.updateAccountStatus_eq_ok.1 hdb
    exact absurd rfl hne

end Jobs

/-- **At-most-once processing.** Any number of workers process deliveries of any events, while
others change account statuses; their calls interleave in any order, any call may fail, and a
worker may stop at any call. Then at most one ledger entry carries a transaction reference, which
counts once in its account's total; and of the deliveries of one event at most one executes
rules. -/
theorem processed_at_most_once {ι : Type} [DecidableEq ι] {jobs : ι → WorkerJob} {w₀ w : World}
    {hist : List (Event ι World Env Call)} {ps : ι → Action Unit}
    (unique : w₀.db.UniqueColumns)
    (run : Run (fun _ _ _ _ => True) (fun i => (jobs i).run) w₀ hist ps w) :
    (∀ ref, (w.db.ledgerEntries.filter fun e => e.nombaTransactionRef = ref).length ≤ 1) ∧
    (∀ e ∈ w.db.ledgerEntries, e.direction = .inflow →
      w.db.inflowSum e.accountId = e.amountKobo +
        sumWhere (fun x => (x.accountId = e.accountId ∧ x.direction = .inflow) ∧
          x.nombaTransactionRef ≠ e.nombaTransactionRef) LedgerEntry.amountKobo
          w.db.ledgerEntries) ∧
    ∀ ev₁ ∈ hist, ∀ ev₂ ∈ hist, ∀ p₁ p₂, jobs ev₁.who = .deliver p₁ → jobs ev₂.who = .deliver p₂ →
      SameEvent p₁ p₂ → (∃ r, Executes ev₁ r p₁.eventId) → (∃ r, Executes ev₂ r p₂.eventId) →
      ev₁.who = ev₂.who := by
  have hstart : Gated jobs (fun _ => false) [] w₀ := ⟨unique, by simp, by simp, by simp⟩
  obtain ⟨G, hgated⟩ := (gated jobs).inv_of_run (fun _ => false) hstart
    (fun i => wp_run jobs i) run
  refine ⟨fun ref => ?_, fun e he hin => ?_, ?_⟩
  · exact length_filter_key_le_one hgated.unique.transactionRefs ref
  · exact sumWhere_eq_add_of_mem hgated.unique.transactionRefs he ⟨rfl, hin⟩
  · rintro ev₁ h₁ ev₂ h₂ p₁ p₂ hp₁ hp₂ hsame ⟨r₁, hex₁⟩ ⟨r₂, hex₂⟩
    exact hgated.once _ _ _ _ hp₁ hp₂ (hgated.executed _ h₁ _ _ hex₁)
      (hgated.executed _ h₂ _ _ hex₂) hsame.gate_eq

namespace Sample

/-- Two workers with the same inflow, and somebody who suspends the account. -/
def racers : Option Bool → WorkerJob
  | some _ => .deliver inflow
  | none => .setStatus "acc1" .suspended

/-- Both find the account ACTIVE; the account is suspended, and then the second worker loses. -/
def race : List (Option Bool × Env) :=
  [(some false, {}), (some true, {}), (some false, {}), (some true, {}),
    (some false, { row := ⟨1, "ble1"⟩ }), (none, {}), (some true, { row := ⟨2, "ble2"⟩ }),
    (some true, {}), (some false, {}), (some false, {}), (some false, {}),
    (some false, { row := ⟨3, "exe1"⟩ })]

end Sample

/-- The race of two workers. -/
theorem processed_at_most_once_race :
    let r := exec (fun i => (Sample.racers i).run) Sample.opsShop Sample.race
    r.2.2.db.ledgerEntries.map LedgerEntry.id = ["ble1"] ∧
    r.2.2.db.ruleExecutions.map RuleExecution.ruleId = ["rule1"] ∧
    ∀ ev₁ ∈ r.1, ∀ ev₂ ∈ r.1, ∀ p₁ p₂, Sample.racers ev₁.who = .deliver p₁ →
      Sample.racers ev₂.who = .deliver p₂ → SameEvent p₁ p₂ →
      (∃ r, Executes ev₁ r p₁.eventId) → (∃ r, Executes ev₂ r p₂.eventId) →
      ev₁.who = ev₂.who := by
  refine ⟨by decide +kernel, by decide +kernel, ?_⟩
  have unique : Sample.opsShop.db.UniqueColumns := by constructor <;> decide
  exact (processed_at_most_once unique (Run.of_exec _ _ _ fun _ _ => trivial)).2.2

end AccountOS
