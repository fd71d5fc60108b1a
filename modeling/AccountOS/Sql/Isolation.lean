import AccountOS.Conc.Pool
import AccountOS.Sql.Transaction

/-!
# Transactions of two isolation levels, statement by statement

Several threads run transaction bodies against one database, a statement at a time, the way
PostgreSQL runs them at the levels `READ COMMITTED` and `SERIALIZABLE`:

* a `READ COMMITTED` transaction reads what is committed at the moment of the statement, a
  `SERIALIZABLE` one what was committed when it began; both see their own writes;
* `SELECT … FOR UPDATE` waits until no other transaction holds a lock on the row, a write waits
  until none holds such a lock on the rows its foreign keys refer to; locks are held to the end;
* at its commit a `SERIALIZABLE` transaction is refused when it and a concurrent `SERIALIZABLE`
  transaction that has committed each read something that the other wrote. Nothing of that kind is
  looked for between transactions of different levels.

What that is good for is the subject of `AccountOS.Sql.Serializability`.
-/

namespace Sql

open Conc

variable {ι σ κ ω ε χ τ α : Type} [DecidableEq ι]

inductive Level
  | readCommitted | serializable
deriving DecidableEq, Repr

/-- `FOR UPDATE`, and `FOR KEY SHARE` of a foreign key. Two share locks are compatible, any other
two are not. -/
inductive LockMode
  | update | keyShare
deriving DecidableEq, Repr

structure HeldLock (ι κ : Type) where
  owner : ι
  row : κ
  mode : LockMode
deriving DecidableEq, Repr

/-- What is remembered of a committed transaction: its level, what it read and what it changed. -/
structure Committed (κ : Type) where
  level : Level
  reads : List κ
  touches : List κ
deriving DecidableEq, Repr

/-- The database as all threads share it: the committed data, the committed transactions in commit
order, and the locks of the open ones. -/
structure Shared (ι σ κ : Type) where
  committed : σ
  log : List (Committed κ) := []
  locks : List (HeldLock ι κ) := []

/-- What an open transaction knows of itself: the data and the length of the log when it began,
what it has read and what it has written. -/
structure Session (σ κ ω : Type) where
  level : Level
  snapshot : σ
  started : Nat
  reads : List κ := []
  ops : List ω := []

/-- The environment's choice at a step: whether the transaction is aborted, and values that the
body is given when it begins. -/
structure StepChoice (χ ε : Type) where
  abort : Option ε := none
  env : χ

/-- A step of a transaction `tx` of thread `i`. -/
inductive StepLabel (ι κ τ : Type)
  | begin (i : ι) (tx : τ)
  | select (i : ι) (rows : List κ)
  | lock (i : ι) (row : κ)
  | write (i : ι) (shares : List κ)
  | commit (i : ι) (tx : τ) (record : Committed κ) (started : Nat)
  | rollback (i : ι)

/-! ### Running a body statement by statement -/

namespace Schema

variable (S : Schema σ κ ω ε)

/-- Writes one after the other. -/
def applyAll : List ω → σ → Except ε σ
  | [], s => .ok s
  | op :: ops, s => (S.apply op s).bind (applyAll ops)

/-- What a list of writes changes. -/
def touchesAll (ops : List ω) : List κ := ops.flatMap S.touches

end Schema

namespace Shared

variable (m : Shared ι σ κ)

/-- The end of a transaction releases its locks. -/
def release (i : ι) : Shared ι σ κ := { m with locks := m.locks.filter fun h => h.owner ≠ i }

def acquire (i : ι) (mode : LockMode) (rows : List κ) : Shared ι σ κ :=
  { m with locks := m.locks ++ rows.map fun row => ⟨i, row, mode⟩ }

end Shared

namespace Session

variable (S : Schema σ κ ω ε) (se : Session σ κ ω)

/-- What a statement sees. -/
def view (m : Shared ι σ κ) : Except ε σ :=
  match se.level with
  | .readCommitted => S.applyAll se.ops m.committed
  | .serializable => S.applyAll se.ops se.snapshot

/-- The record of the transaction once it has committed. -/
def record : Committed κ := ⟨se.level, se.reads, S.touchesAll se.ops⟩

end Session

/-- One statement of thread `i`: it is carried out, or the transaction is aborted, by the
environment or because the statement fails. -/
def attempt {β : Type} (i : ι) (l : StepLabel ι κ τ)
    (f : Shared ι σ κ → Except ε (β × Shared ι σ κ))
    (k : β → Proc (Shared ι σ κ) (StepChoice χ ε) (StepLabel ι κ τ) ε α) :
    Proc (Shared ι σ κ) (StepChoice χ ε) (StepLabel ι κ τ) ε α :=
  .step l
    (fun c m =>
      match c.abort, f m with
      | none, .ok r => r.2
      | _, _ => m.release i)
    (fun c m =>
      match c.abort, f m with
      | some e, _ => .raise e
      | none, .ok r => k r.1
      | none, .error e => .raise e)

/-- The statements of a body. A constraint is checked against the data committed at the moment of
the write, and again when the writes are committed. -/
def statements (S : Schema σ κ ω ε) (i : ι) (tx : τ) :
    Tx σ κ ω ε α → Session σ κ ω →
      Proc (Shared ι σ κ) (StepChoice χ ε) (StepLabel ι κ τ) ε α
  | .ret a, se =>
    attempt i (.commit i tx (se.record S) se.started)
      (fun m => (S.applyAll se.ops m.committed).map fun s =>
        (a, { m.release i with committed := s, log := m.log ++ [se.record S] })) .ret
  | .throw e, _ => .step (.rollback i) (fun _ m => m.release i) fun _ _ => .raise e
  | .select rows cont, se =>
    attempt i (.select i rows) (fun m => (se.view S m).map fun s => (s, m)) fun s =>
      statements S i tx (cont s) { se with reads := se.reads ++ rows }
  | .lock row cont, se =>
    attempt i (.lock i row) (fun m => .ok ((), m.acquire i .update [row])) fun _ =>
      statements S i tx cont se
  | .write op cont, se =>
    attempt i (.write i (S.shares op))
      (fun m => (S.applyAll (se.ops ++ [op]) m.committed).map fun _ =>
        ((), m.acquire i .keyShare (S.shares op))) fun _ =>
      statements S i tx cont { se with ops := se.ops ++ [op] }

/-- A transaction of thread `i`. -/
def isolated (S : Schema σ κ ω ε) (i : ι) (tx : τ) (level : Level) (body : χ → Tx σ κ ω ε α) :
    Proc (Shared ι σ κ) (StepChoice χ ε) (StepLabel ι κ τ) ε α :=
  .step (.begin i tx) (fun _ m => m) fun c m =>
    statements S i tx (body c.env) ⟨level, m.committed, m.log.length, [], []⟩

/-! ### The steps that the database allows -/

/-- The transaction and a committed one have each read what the other has changed. -/
def RwConflict (c d : Committed κ) : Prop :=
  (∃ k ∈ c.reads, k ∈ d.touches) ∧ ∃ k ∈ c.touches, k ∈ d.reads

/-- A step is carried out only when its locks are free, and a commit only when it is serializable
among the transactions of that level. An abort is always possible. -/
def Allows (l : StepLabel ι κ τ) (c : StepChoice χ ε) (m : Shared ι σ κ) : Prop :=
  c.abort = none →
    match l with
    | .lock i row => ∀ h ∈ m.locks, h.row = row → h.owner = i
    | .write i shares => ∀ h ∈ m.locks, h.row ∈ shares → h.mode = .update → h.owner = i
    | .commit _ _ record started => record.level = .serializable →
      ∀ d ∈ m.log.drop started, d.level = .serializable → ¬ RwConflict record d
    | _ => True

instance [DecidableEq κ] (c d : Committed κ) : Decidable (RwConflict c d) :=
  inferInstanceAs (Decidable ((∃ k ∈ c.reads, k ∈ d.touches) ∧ ∃ k ∈ c.touches, k ∈ d.reads))

instance [DecidableEq κ] (l : StepLabel ι κ τ) (c : StepChoice χ ε) (m : Shared ι σ κ) :
    Decidable (Allows l c m) := by
  unfold Allows
  cases l <;> infer_instance

/-- The `SERIALIZABLE` transaction that commits has read something that a `READ COMMITTED` one has
changed since. -/
def CommitsStale (l : StepLabel ι κ τ) (c : StepChoice χ ε) (m : Shared ι σ κ) : Prop :=
  match l with
  | .commit _ _ record started => c.abort = none ∧ record.level = .serializable ∧
    ∃ d ∈ m.log.drop started, d.level = .readCommitted ∧ ∃ k ∈ record.reads, k ∈ d.touches
  | _ => False

omit [DecidableEq ι] in
instance [DecidableEq κ] (l : StepLabel ι κ τ) (c : StepChoice χ ε) (m : Shared ι σ κ) :
    Decidable (CommitsStale l c m) := by
  unfold CommitsStale
  cases l <;> infer_instance

/-- A transaction that commits finds the committed data as it expects. -/
def CommitsOn (pre : τ → σ → Prop) (l : StepLabel ι κ τ) (c : StepChoice χ ε)
    (m : Shared ι σ κ) : Prop :=
  match l with
  | .commit _ tx _ _ => c.abort = none → pre tx m.committed
  | _ => True

omit [DecidableEq ι] in
instance (pre : τ → σ → Prop) [∀ tx s, Decidable (pre tx s)] (l : StepLabel ι κ τ)
    (c : StepChoice χ ε) (m : Shared ι σ κ) : Decidable (CommitsOn pre l c m) := by
  unfold CommitsOn
  cases l <;> infer_instance

end Sql
