import Mathlib.Logic.Function.Basic

/-!
# The body of an interactive transaction

`Tx` is the callback given to the database client: statements that read rows, lock them and
write them, with ordinary code in between. Its meaning depends on who else is running. Here it
is run with nobody else running (`Tx.run`): then a lock is nothing, and either all of its writes
take effect or, when it throws, none does. `AccountOS.Sql.Isolation` runs the same bodies
statement by statement against each other.

A `Schema` says what the writes do. `κ` names the things that can be read, written or locked (a
row, the rows of a bucket, a value of a unique column), so that conflicts between two bodies can
be talked about.
-/

namespace Sql

variable {σ κ ω ε α β : Type}

/-- What a write does to the database, or the error of the constraint it violates; what it
changes, and the rows on which its foreign keys take a share lock. -/
structure Schema (σ κ ω ε : Type) where
  apply : ω → σ → Except ε σ
  touches : ω → List κ
  shares : ω → List κ

/-- The body of a transaction, statement by statement. A `select` names what it reads and goes on
with the database as it sees it. -/
inductive Tx (σ κ ω ε α : Type) where
  | ret (a : α)
  | throw (e : ε)
  | select (rows : List κ) (cont : σ → Tx σ κ ω ε α)
  | lock (row : κ) (cont : Tx σ κ ω ε α)
  | write (op : ω) (cont : Tx σ κ ω ε α)

namespace Tx

/-! ### The monad of bodies -/

def bind : Tx σ κ ω ε α → (α → Tx σ κ ω ε β) → Tx σ κ ω ε β
  | .ret a, f => f a
  | .throw e, _ => .throw e
  | .select rows cont, f => .select rows fun s => (cont s).bind f
  | .lock row cont, f => .lock row (cont.bind f)
  | .write op cont, f => .write op (cont.bind f)

instance : Monad (Tx σ κ ω ε) where
  pure := .ret
  bind := Tx.bind

@[simp] theorem pure_eq (a : α) : (pure a : Tx σ κ ω ε α) = .ret a := rfl

@[simp] theorem bind_eq (t : Tx σ κ ω ε α) (f : α → Tx σ κ ω ε β) : (t >>= f) = t.bind f := rfl

/-- `SELECT`: the value of a query over the rows it names. -/
def query (rows : List κ) (f : σ → α) : Tx σ κ ω ε α := .select rows fun s => .ret (f s)

/-- `SELECT … FOR UPDATE` of one row. -/
def forUpdate (row : κ) : Tx σ κ ω ε Unit := .lock row (.ret ())

/-- `INSERT` or `UPDATE`. -/
def exec (op : ω) : Tx σ κ ω ε Unit := .write op (.ret ())

theorem bind_assoc {γ : Type} (t : Tx σ κ ω ε α) (f : α → Tx σ κ ω ε β) (g : β → Tx σ κ ω ε γ) :
    (t.bind f).bind g = t.bind fun a => (f a).bind g := by
  induction t with
  | ret a => rfl
  | throw e => rfl
  | select rows cont ih => exact congrArg (select rows) (funext ih)
  | lock row cont ih => exact congrArg (lock row) ih
  | write op cont ih => exact congrArg (write op) ih

/-! ### Running a body alone -/

variable (S : Schema σ κ ω ε)

/-- Run the body on a database nobody else is using: the value and the database after the commit,
or the error after which everything is rolled back. -/
def run : Tx σ κ ω ε α → σ → Except ε (α × σ)
  | .ret a, s => .ok (a, s)
  | .throw e, _ => .error e
  | .select _ cont, s => (cont s).run s
  | .lock _ cont, s => cont.run s
  | .write op cont, s =>
    match S.apply op s with
    | .ok s' => cont.run s'
    | .error e => .error e

@[simp] theorem run_ret (a : α) (s : σ) : (ret a : Tx σ κ ω ε α).run S s = .ok (a, s) := rfl

@[simp] theorem run_throw (e : ε) (s : σ) : (throw e : Tx σ κ ω ε α).run S s = .error e := rfl

@[simp] theorem run_query (rows : List κ) (f : σ → α) (s : σ) :
    (query rows f : Tx σ κ ω ε α).run S s = .ok (f s, s) := rfl

@[simp] theorem run_forUpdate (row : κ) (s : σ) :
    (forUpdate row : Tx σ κ ω ε Unit).run S s = .ok ((), s) := rfl

@[simp] theorem run_exec (op : ω) (s : σ) :
    (exec op : Tx σ κ ω ε Unit).run S s = (S.apply op s).map fun s' => ((), s') := by
  simp only [exec, run]
  cases S.apply op s <;> rfl

/-- Two bodies in sequence: the second one runs on what the first one left. -/
@[simp] theorem run_bind (t : Tx σ κ ω ε α) (f : α → Tx σ κ ω ε β) (s : σ) :
    (t.bind f).run S s = (t.run S s).bind fun r => (f r.1).run S r.2 := by
  induction t generalizing s with
  | ret a => rfl
  | throw e => rfl
  | select rows cont ih => exact ih s s
  | lock row cont ih => exact ih s
  | write op cont ih =>
    simp only [bind, run]
    cases S.apply op s with
    | ok s' => exact ih s'
    | error e => rfl

/-! ### When a body runs through

A body with checks succeeds exactly when each statement does and no check fires. The two lemmas
below take such a body apart from the front. -/

variable {S}

theorem run_bind_eq_ok {t : Tx σ κ ω ε α} {f : α → Tx σ κ ω ε β} {s : σ} {r : β × σ} :
    (t.bind f).run S s = .ok r ↔
      ∃ a s', t.run S s = .ok (a, s') ∧ (f a).run S s' = .ok r := by
  rw [run_bind]
  rcases t.run S s with e | ⟨a, s'⟩
  · simp [Except.bind]
  · exact ⟨fun h => ⟨a, s', rfl, h⟩, by rintro ⟨_, _, ⟨⟩, h⟩; exact h⟩

theorem run_check_eq_ok {p : Prop} [Decidable p] {e : ε} {t : Tx σ κ ω ε α} {s : σ} {r : α × σ} :
    (if p then .throw e else t).run S s = .ok r ↔ ¬ p ∧ t.run S s = .ok r := by
  split <;> simp [*]

theorem run_exec_eq_ok {op : ω} {s : σ} {r : Unit × σ} :
    (exec op : Tx σ κ ω ε Unit).run S s = .ok r ↔ S.apply op s = .ok r.2 := by
  obtain ⟨u, s'⟩ := r
  rw [run_exec]
  cases S.apply op s <;> simp [Except.map]

/-- What every write keeps, a committed transaction keeps. -/
theorem run_preserves {I : σ → Prop} (h : ∀ op s s', S.apply op s = .ok s' → I s → I s')
    {t : Tx σ κ ω ε α} {s : σ} {r : α × σ} (hrun : t.run S s = .ok r) (hs : I s) : I r.2 := by
  induction t generalizing s with
  | ret a =>
    cases hrun
    exact hs
  | throw e => cases hrun
  | select rows cont ih => exact ih s hrun hs
  | lock row cont ih => exact ih hrun hs
  | write op cont ih =>
    unfold run at hrun
    split at hrun
    next s' hop => exact ih hrun (h op s s' hop hs)
    next => cases hrun

/-- Every write of the body is of the kind `ops`. -/
def Writes (ops : ω → Prop) : Tx σ κ ω ε α → Prop
  | .ret _ => True
  | .throw _ => True
  | .select _ cont => ∀ s, (cont s).Writes ops
  | .lock _ cont => cont.Writes ops
  | .write op cont => ops op ∧ cont.Writes ops

section Writes

variable {ops : ω → Prop}

theorem writes_query (rows : List κ) (f : σ → α) : (query rows f : Tx σ κ ω ε α).Writes ops :=
  fun _ => trivial

theorem writes_exec {op : ω} (hop : ops op) : (exec op : Tx σ κ ω ε Unit).Writes ops :=
  ⟨hop, trivial⟩

theorem Writes.bind {t : Tx σ κ ω ε α} {f : α → Tx σ κ ω ε β} (ht : t.Writes ops)
    (hf : ∀ a, (f a).Writes ops) : (t.bind f).Writes ops := by
  induction t with
  | ret a => exact hf a
  | throw e => trivial
  | select rows cont ih => exact fun s => ih s (ht s)
  | lock row cont ih => exact ih ht
  | write op cont ih => exact ⟨ht.1, ih ht.2⟩

/-- What the writes of this kind keep, a committed transaction keeps. -/
theorem Writes.run_preserves {I : σ → Prop} {t : Tx σ κ ω ε α} (ht : t.Writes ops)
    (h : ∀ op s s', ops op → S.apply op s = .ok s' → I s → I s') {s : σ} {r : α × σ}
    (hrun : t.run S s = .ok r) (hs : I s) : I r.2 := by
  induction t generalizing s with
  | ret a =>
    cases hrun
    exact hs
  | throw e => cases hrun
  | select rows cont ih => exact ih s (ht s) hrun hs
  | lock row cont ih => exact ih ht hrun hs
  | write op cont ih =>
    unfold run at hrun
    split at hrun
    next s' hop => exact ih ht.2 hrun (h op s s' ht.1 hop hs)
    next => cases hrun

end Writes

theorem run_exec_eq_error {op : ω} {s : σ} {e : ε} :
    (exec op : Tx σ κ ω ε Unit).run S s = .error e ↔ S.apply op s = .error e := by
  rw [run_exec]
  cases S.apply op s <;> simp [Except.map]

end Tx

end Sql
