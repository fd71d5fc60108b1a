import AccountOS.Conc.Alone
import AccountOS.Store.Client

/-!
# The calls of a method that nobody interrupts

For each kind of call, what it may leave behind, in terms of the weakest precondition of
`AccountOS.Conc.Alone` and of the relations that every call stays within.
-/

namespace AccountOS

open Conc Sql

variable {α : Type} {allowed : Call → Env → World → World → Prop} {w : World}
  {E : Error → World → Prop}

/-! ### Weakest preconditions -/

theorem ensures_transaction {Q : α → World → Prop} {l : Call} {body : Env → TxBody α}
    {inside : Env → α → World → World} (hinside : LogsOnly inside)
    (hok : ∀ env a db w', allowed l env w w' → env.fault = none →
      (body env).run schema w.db = .ok (a, db) → w' = { inside env a w with db } → Q a w')
    (herr : ∀ env e w', allowed l env w w' → Thrown body env w e w' → E e w') :
    (transaction l body inside).Ensures allowed Q E w := by
  refine Proc.Ensures.call fun env hallowed => ?_
  rcases transactionStep_cases body hinside env w with
    ⟨a, db, hf, hrun, hstep⟩ | ⟨e, w', hstep, hthrown⟩
  · rw [hstep] at hallowed ⊢
    refine ⟨fun a' ha => ?_, fun e he => by simp at he⟩
    cases ha
    exact hok env a db _ hallowed hf hrun rfl
  · rw [hstep] at hallowed ⊢
    refine ⟨fun a ha => by simp at ha, fun e' he => ?_⟩
    cases he
    exact herr env e w' hallowed hthrown

/-- A single writing statement. Without a fault it only fails on a constraint. -/
theorem ensures_statement {Q : Unit → World → Prop} {l : Call} {op : Env → WriteOp}
    (hok : ∀ env db w', allowed l env w w' → env.fault = none → (op env).apply w.db = .ok db →
      w' = { w with db } → Q () w')
    (herr : ∀ env e w', allowed l env w w' → World.SameData w w' →
      (env.fault = none → ∀ db, (op env).apply w.db ≠ .ok db) → E e w') :
    (statement l op).Ensures allowed Q E w := by
  refine Proc.Ensures.call fun env hallowed => ?_
  rcases statementStep_cases op env w with ⟨hf, db, hdb, hstep⟩ | ⟨e, w', hstep, hsame, -, hno⟩
  · rw [hstep] at hallowed ⊢
    exact ⟨fun _ _ => hok env db _ hallowed hf hdb rfl, fun e he => by simp at he⟩
  · rw [hstep] at hallowed ⊢
    refine ⟨fun a ha => by simp at ha, fun e' he => ?_⟩
    cases he
    exact herr env e w' hallowed hsame hno

/-- A single reading statement. Without a fault it answers. -/
theorem ensures_find {Q : α → World → Prop} {l : Call} {f : Env → Db → α}
    (hok : ∀ env, allowed l env w w → Q (f env w.db) w)
    (herr : ∀ env e w', allowed l env w w' → env.fault ≠ none → World.SameData w w' → E e w') :
    (find l f).Ensures allowed Q E w := by
  refine Proc.Ensures.call fun env hallowed => ?_
  rcases findStep_cases f env w with ⟨-, hstep⟩ | ⟨e, w', hstep, hsame, -⟩
  · rw [hstep] at hallowed ⊢
    refine ⟨fun a ha => ?_, fun e he => by simp at he⟩
    cases ha
    exact hok env hallowed
  · have hf : env.fault ≠ none := by
      intro hf
      simp [findStep, transactionStep, hf] at hstep
    rw [hstep] at hallowed ⊢
    refine ⟨fun a ha => by simp at ha, fun e' he => ?_⟩
    cases he
    exact herr env e w' hallowed hf hsame

theorem ensures_audit {Q : Unit → World → Prop} {entry : AuditLogEntry}
    (hQ : ∀ w', World.SameData w w' → Q () w') : (audit entry).Ensures allowed Q E w := by
  refine Proc.Ensures.call fun env _ => ?_
  exact ⟨fun _ _ => hQ _ (w.sameData_log env entry), fun e he => by simp at he⟩

theorem ensures_deliver {Q : Except String Nat → World → Prop} {url : String}
    (hQ : ∀ env, allowed (.deliver url) env w w → Q env.delivery w) :
    (deliver url).Ensures allowed Q E w := by
  refine Proc.Ensures.call fun env hallowed => ⟨fun r hr => ?_, fun e he => by simp at he⟩
  cases hr
  exact hQ env hallowed

theorem ensures_enqueueRetry {Q : Unit → World → Prop} {job : RetryJob}
    (hok : Q () { w with retryQueue := w.retryQueue ++ [job] })
    (herr : ∀ env e, allowed (.enqueueRetry job.ruleExecutionId) env w w → env.fault ≠ none →
      E e w) :
    (enqueueRetry job).Ensures allowed Q E w := by
  refine Proc.Ensures.call fun env hallowed => ?_
  cases hf : env.fault with
  | none => exact ⟨fun _ _ => hok, fun e he => by simp at he⟩
  | some f =>
    simp only [hf] at hallowed ⊢
    exact ⟨fun a ha => by simp at ha, fun e _ => herr env e hallowed (by simp [hf])⟩

/-- A run that starts with a reading statement which does not fail. -/
theorem finishesBy_find_bind {β : Type} {l : Call} {f : Db → α} {k : α → Action β}
    {choices : List Env} {r : Except Error β} {w' : World}
    (hallowed : ∀ env w', allowed l env w w' ↔ env.fault = none) :
    ((find l fun _ => f).bind k).FinishesBy allowed choices w r w' ↔
      ∃ first later, choices = first :: later ∧ first.fault = none ∧
        (k (f w.db)).FinishesBy allowed later w r w' := by
  have hstep : ∀ env : Env, env.fault = none → findStep (fun _ => f) env w = (.ok (f w.db), w) := by
    intro env hf
    simp [findStep, transactionStep, hf]
  show (Proc.step l (fun env w => (findStep (fun _ => f) env w).2)
    fun env w => (Proc.ofExcept (findStep (fun _ => f) env w).1).bind k).FinishesBy allowed choices w
      r w' ↔ _
  rw [Proc.finishesBy_step_iff]
  constructor
  · rintro ⟨first, later, rfl, ok, hlater⟩
    have hfault := (hallowed first _).1 ok
    rw [hstep first hfault] at hlater
    exact ⟨first, later, rfl, hfault, hlater⟩
  · rintro ⟨first, later, rfl, hfault, hlater⟩
    refine ⟨first, later, rfl, (hallowed first _).2 hfault, ?_⟩
    rw [hstep first hfault]
    exact hlater

/-! ### Runs in which the environment's choice is a function of the call -/

section RunWith

variable {env : Call → Env} {l : Call}

theorem runWith_find_of_none {f : Env → Db → α} (hfault : (env l).fault = none) :
    (find l f).runWith env w = (.ok (f (env l) w.db), w) := by
  simp [find, findStep, transactionStep, hfault]

theorem runWith_transaction_of_ok {body : Env → TxBody α} {a : α} {db : Db}
    (hfault : (env l).fault = none) (hrun : (body (env l)).run schema w.db = .ok (a, db)) :
    (transaction l body).runWith env w = (.ok a, { w with db }) := by
  simp only [transaction, Proc.runWith_call, transactionStep, hfault, hrun]

/-- A call of the database that fails leaves the data as it is. -/
theorem runWith_transaction_of_fault {body : Env → TxBody α} (hfault : (env l).fault ≠ none) :
    ∃ e w', (transaction l body).runWith env w = (.error e, w') ∧ World.SameData w w' := by
  have hcall : (transaction l body).runWith env w =
      transactionStep body (fun _ _ w => w) (env l) w := Proc.runWith_call _ _ _ _
  rcases transactionStep_cases body logsOnly_nothing (env l) w with
    ⟨a, db, hf, -, -⟩ | ⟨e, w', hstep, hthrown⟩
  · exact absurd hf hfault
  · exact ⟨e, w', hcall.trans hstep, hthrown.same⟩

theorem runWith_find_of_fault {f : Env → Db → α} (hfault : (env l).fault ≠ none) :
    ∃ e w', (find l f).runWith env w = (.error e, w') ∧ World.SameData w w' :=
  runWith_transaction_of_fault hfault

theorem runWith_statement_of_fault {op : Env → WriteOp} (hfault : (env l).fault ≠ none) :
    ∃ e w', (statement l op).runWith env w = (.error e, w') ∧ World.SameData w w' :=
  runWith_transaction_of_fault hfault

end RunWith

/-! ### Runs in which no call fails -/

section Calm

variable {env : Call → Env} (calm : ∀ l, (env l).fault = none)
include calm

theorem runWith_find {l : Call} {f : Env → Db → α} :
    (find l f).runWith env w = (.ok (f (env l) w.db), w) :=
  runWith_find_of_none (calm l)

theorem runWith_statement {l : Call} {op : Env → WriteOp} :
    (statement l op).runWith env w =
      match (op (env l)).apply w.db with
      | .ok db => (.ok (), { w with db })
      | .error e => (.error e, w.recordError e) := by
  simp only [statement, statementStep, Proc.runWith_call, transactionStep, calm, Tx.run_exec,
    schema_apply]
  cases (op (env l)).apply w.db <;> rfl

theorem runWith_transaction {l : Call} {body : Env → TxBody α}
    {inside : Env → α → World → World} :
    (transaction l body inside).runWith env w =
      match (body (env l)).run schema w.db with
      | .ok (a, db) => (.ok a, { inside (env l) a w with db })
      | .error e => (.error e, w.recordError e) := by
  cases hrun : (body (env l)).run schema w.db with
  | ok r => simp only [transaction, Proc.runWith_call, transactionStep, calm, hrun]
  | error e => simp only [transaction, Proc.runWith_call, transactionStep, calm, hrun]

end Calm

/-! ### Relations that a call stays within -/

/-- A relation that holds of every call which changes no data, and of every statement in `ops`. -/
structure Footprint (ops : WriteOp → Prop) (R : World → World → Prop) : Prop where
  sameData : ∀ {w w'}, World.SameData w w' → R w w'
  writes : ∀ {o : WriteOp} {w w' : World} {db : Db}, ops o → o.apply w.db = .ok db →
    w' = { w with db } → R w w'

namespace Footprint

variable {ops : WriteOp → Prop} {R : World → World → Prop} (F : Footprint ops R)
include F

theorem keeps_transaction {l : Call} {body : Env → TxBody α}
    {inside : Env → α → World → World} (hinside : LogsOnly inside)
    (hok : ∀ env w a db w', (body env).run schema w.db = .ok (a, db) →
      w' = { inside env a w with db } → R w w') :
    (transaction l body inside).Keeps allowed R := by
  refine Proc.Keeps.call fun env w _ => ?_
  rcases transactionStep_cases body hinside env w with
    ⟨a, db, -, hrun, hstep⟩ | ⟨e, w', hstep, hthrown⟩
  · rw [hstep]
    exact hok env w a db _ hrun rfl
  · rw [hstep]
    exact F.sameData hthrown.same

/-- A transaction all of whose statements are in `ops`. -/
theorem keeps_writes (htrans : ∀ {w w' w''}, R w w' → R w' w'' → R w w'') {l : Call}
    {body : Env → TxBody α} {inside : Env → α → World → World} (hinside : LogsOnly inside)
    (hbody : ∀ env, (body env).Writes ops) : (transaction l body inside).Keeps allowed R := by
  refine F.keeps_transaction hinside fun env w a db w' hrun hw' => ?_
  have hlogged : R w (inside env a w) := F.sameData (hinside env a w).1
  have hstart : R w { inside env a w with db := w.db } := by
    have hdb : (inside env a w).db = w.db := (hinside env a w).1.db
    rw [← hdb]
    exact hlogged
  rw [hw']
  refine (hbody env).run_preserves (I := fun db => R w { inside env a w with db }) ?_ hrun hstart
  exact fun op db db' hop happly hR => htrans hR (F.writes hop happly rfl)

theorem keeps_statement {l : Call} {op : Env → WriteOp} (hop : ∀ env, ops (op env)) :
    (statement l op).Keeps allowed R := by
  refine Proc.Keeps.call fun env w _ => ?_
  rcases statementStep_cases op env w with ⟨-, db, hdb, hstep⟩ | ⟨e, w', hstep, hw, -⟩
  · rw [hstep]
    exact F.writes (hop env) hdb rfl
  · rw [hstep]
    exact F.sameData hw

theorem keeps_find {l : Call} {f : Env → Db → α} : (find l f).Keeps allowed R := by
  refine Proc.Keeps.call fun env w _ => ?_
  rcases findStep_cases f env w with ⟨-, hstep⟩ | ⟨e, w', hstep, hw, -⟩
  · rw [hstep]
    exact F.sameData (.refl w)
  · rw [hstep]
    exact F.sameData hw

theorem keeps_audit {entry : AuditLogEntry} : (audit entry).Keeps allowed R :=
  Proc.Keeps.call fun env w _ => F.sameData (w.sameData_log env entry)

theorem keeps_deliver {url : String} : (deliver url).Keeps allowed R :=
  Proc.Keeps.call fun _ w _ => F.sameData (.refl w)

theorem keeps_enqueueRetry {job : RetryJob}
    (henqueue : ∀ w, R w { w with retryQueue := w.retryQueue ++ [job] }) :
    (enqueueRetry job).Keeps allowed R := by
  refine Proc.Keeps.call fun env w _ => ?_
  cases env.fault with
  | none => exact henqueue w
  | some f => exact F.sameData (.refl w)

end Footprint

theorem keeps_bigIntOrThrow {R : World → World → Prop} {x : ℚ} :
    (bigIntOrThrow x).Keeps allowed R := by
  unfold bigIntOrThrow
  split <;> trivial

end AccountOS
