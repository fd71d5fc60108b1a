import Mathlib.Data.List.Forall2
import Mathlib.Order.Defs.Unbundled

/-!
# Three-valued conditions and row triggers

`WHERE` keeps the rows whose condition is true, and a condition on `NULL` is neither true nor
false. A `BEFORE … FOR EACH ROW` trigger sees every row that an `UPDATE` or a `DELETE` selects
before it is changed, and an exception in it takes back the whole statement.
-/

namespace Sql

variable {α ε : Type}

/-! ### Conditions -/

/-- The value of a condition, where `none` is `NULL`. -/
abbrev Truth := Option Bool

/-- `AND`. -/
def Truth.and : Truth → Truth → Truth
  | some false, _ => some false
  | _, some false => some false
  | some true, some true => some true
  | _, _ => none

theorem Truth.and_eq_true {p q : Truth} :
    p.and q = some true ↔ p = some true ∧ q = some true := by
  rcases p with _ | _ | _ <;> rcases q with _ | _ | _ <;> decide

section Compare

variable [DecidableEq α]

/-- `x = y`. -/
def eq (x y : Option α) : Truth := x.bind fun a => y.map fun b => decide (a = b)

/-- `x <> y`. -/
def neq (x y : Option α) : Truth := x.bind fun a => y.map fun b => decide (a ≠ b)

/-- `x <> ALL (a)` for an array `a`. -/
def neqAll (x : Option α) (a : Option (List (Option α))) : Truth :=
  a.bind fun ys => ys.foldr (fun y t => (neq x y).and t) (some true)

/-- `x IS DISTINCT FROM y`, which compares `NULL` as one more value. -/
def isDistinctFrom (x y : Option α) : Bool := decide (x ≠ y)

@[simp] theorem eq_eq_true {a b : α} : eq (some a) (some b) = some true ↔ a = b := by
  simp [eq]

@[simp] theorem isDistinctFrom_iff {x y : Option α} : isDistinctFrom x y = true ↔ x ≠ y := by
  simp [isDistinctFrom]

/-- No value passes a comparison with all elements of a `NULL` array. -/
@[simp] theorem neqAll_null (x : Option α) : neqAll x none = none := rfl

theorem neqAll_eq_true {a : α} {ys : List α} :
    neqAll (some a) (some (ys.map some)) = some true ↔ a ∉ ys := by
  unfold neqAll
  rw [Option.bind_some]
  induction ys with
  | nil => simp
  | cons y ys ih =>
    rw [List.map_cons, List.foldr_cons, Truth.and_eq_true, ih, List.mem_cons, not_or]
    simp [neq]

end Compare

/-- `SELECT … WHERE p`. -/
def selectWhere (p : α → Truth) (t : List α) : List α := t.filter fun x => p x = some true

@[simp] theorem mem_selectWhere {p : α → Truth} {t : List α} {x : α} :
    x ∈ selectWhere p t ↔ x ∈ t ∧ p x = some true := by
  simp [selectWhere]

/-! ### Statements and row triggers -/

/-- A statement on one table: the rows to insert, or the condition that selects the rows to change
or to remove. -/
inductive Statement (α : Type) where
  | insert (rows : List α)
  | update (p : α → Truth) (set : α → α)
  | delete (p : α → Truth)

/-- What a row trigger is called with. -/
inductive RowChange (α : Type) where
  | update (old new : α)
  | delete (old : α)

/-- The body of a `BEFORE UPDATE OR DELETE … FOR EACH ROW` trigger. It raises, or it returns the
row to go on with, where `NULL` leaves this row out of the statement. -/
abbrev RowTrigger (α ε : Type) := RowChange α → Except ε (Option α)

/-- Do something with each row of a table, and stop at the first exception. -/
def rowwise (f : α → Except ε (List α)) : List α → Except ε (List α)
  | [] => .ok []
  | x :: t => do
    let ys ← f x
    let u ← rowwise f t
    return ys ++ u

/-- One row under an `UPDATE`. -/
def updateOne (trg : RowTrigger α ε) (p : α → Truth) (set : α → α) (x : α) : Except ε (List α) :=
  if p x = some true then (trg (.update x (set x))).map fun r => [r.getD x] else .ok [x]

/-- One row under a `DELETE`. -/
def deleteOne (trg : RowTrigger α ε) (p : α → Truth) (x : α) : Except ε (List α) :=
  if p x = some true then
    (trg (.delete x)).map fun | some _ => [] | none => [x]
  else .ok [x]

/-- The table after a statement, or the exception. -/
def Statement.execute (trg : RowTrigger α ε) (t : List α) : Statement α → Except ε (List α)
  | .insert rows => .ok (t ++ rows)
  | .update p set => rowwise (updateOne trg p set) t
  | .delete p => rowwise (deleteOne trg p) t

/-- The table a statement leaves behind: the old one when it raised. -/
def Statement.after (trg : RowTrigger α ε) (t : List α) (s : Statement α) : List α :=
  match s.execute trg t with
  | .ok u => u
  | .error _ => t

/-- The table after a sequence of statements. -/
def runAll (trg : RowTrigger α ε) (t : List α) (ss : List (Statement α)) : List α :=
  ss.foldl (Statement.after trg) t

theorem runAll_append (trg : RowTrigger α ε) (t : List α) (ss ss' : List (Statement α)) :
    runAll trg t (ss ++ ss') = runAll trg (runAll trg t ss) ss' :=
  List.foldl_append

theorem runAll_append_singleton (trg : RowTrigger α ε) (t : List α) (ss : List (Statement α))
    (s : Statement α) : runAll trg t (ss ++ [s]) = s.after trg (runAll trg t ss) := by
  rw [runAll_append]
  rfl

section Rowwise

variable {f : α → Except ε (List α)} {t : List α}

/-- One row that raises makes the whole statement raise. -/
theorem rowwise_eq_error {x : α} (hx : x ∈ t) (h : ∃ e, f x = .error e) :
    ∃ e, rowwise f t = .error e := by
  obtain ⟨e, h⟩ := h
  induction t with
  | nil => simp at hx
  | cons y t ih =>
    unfold rowwise
    rcases hf : f y with e' | ys
    · exact ⟨e', rfl⟩
    · have ht : x ∈ t := by
        rcases List.mem_cons.1 hx with rfl | ht
        · rw [h] at hf
          cases hf
        · exact ht
      obtain ⟨e', he'⟩ := ih ht
      exact ⟨e', by rw [he']; rfl⟩

/-- Rows that each give one related row give a table of related rows. -/
theorem forall₂_of_rowwise {R : α → α → Prop} {u : List α}
    (h : ∀ x ∈ t, ∀ ys, f x = .ok ys → ∃ y, ys = [y] ∧ R x y) (hrun : rowwise f t = .ok u) :
    List.Forall₂ R t u := by
  induction t generalizing u with
  | nil =>
    cases hrun
    exact .nil
  | cons x t ih =>
    unfold rowwise at hrun
    rcases hf : f x with e | ys <;> rw [hf] at hrun
    · cases hrun
    rcases ht : rowwise f t with e | v <;> rw [ht] at hrun
    · cases hrun
    cases hrun
    obtain ⟨y, rfl, hxy⟩ := h x List.mem_cons_self ys hf
    exact .cons hxy (ih (fun z hz => h z (List.mem_cons_of_mem _ hz)) ht)

theorem rowwise_eq_map {g : α → α} (h : ∀ x ∈ t, f x = .ok [g x]) :
    rowwise f t = .ok (t.map g) := by
  induction t with
  | nil => rfl
  | cons x t ih =>
    unfold rowwise
    rw [h x List.mem_cons_self, ih fun y hy => h y (List.mem_cons_of_mem _ hy)]
    rfl

end Rowwise

/-! ### What a table keeps -/

/-- Every row of `t` is still in its place in `u`, up to `R`. -/
def Keeps (R : α → α → Prop) (t u : List α) : Prop :=
  ∀ (i : ℕ) (x : α), t[i]? = some x → ∃ y, u[i]? = some y ∧ R x y

namespace Keeps

variable {R : α → α → Prop} {t u v : List α}

theorem of_forall₂ (h : List.Forall₂ R t u) : Keeps R t u := by
  induction h with
  | nil =>
    intro i x hx
    simp at hx
  | @cons x y t u hxy _ ih =>
    intro i z hz
    cases i with
    | zero =>
      obtain rfl : x = z := by simpa using hz
      exact ⟨y, rfl, hxy⟩
    | succ i => exact ih i z hz

theorem append [Std.Refl R] (t u : List α) : Keeps R t (t ++ u) := by
  intro i x hx
  have hlt : i < t.length := (List.getElem?_eq_some_iff.1 hx).1
  exact ⟨x, by rw [List.getElem?_append_left hlt, hx], Std.Refl.refl x⟩

theorem refl [Std.Refl R] (t : List α) : Keeps R t t := by
  intro i x hx
  exact ⟨x, hx, Std.Refl.refl x⟩

theorem trans [IsTrans α R] (h : Keeps R t u) (h' : Keeps R u v) : Keeps R t v := by
  intro i x hx
  obtain ⟨y, hy, hxy⟩ := h i x hx
  obtain ⟨z, hz, hyz⟩ := h' i y hy
  exact ⟨z, hz, IsTrans.trans x y z hxy hyz⟩

/-- **Run rule.** When every statement of a run keeps the rows, the run keeps them. -/
theorem runAll [Std.Refl R] [IsTrans α R] {trg : RowTrigger α ε} {ss ss' : List (Statement α)}
    (h : ∀ pre s post, ss ++ ss' = pre ++ s :: post →
      Keeps R (runAll trg t pre) (runAll trg t (pre ++ [s]))) :
    Keeps R (Sql.runAll trg t ss) (Sql.runAll trg t (ss ++ ss')) := by
  induction ss' generalizing ss with
  | nil =>
    rw [List.append_nil]
    exact refl _
  | cons s ss' ih =>
    have hstep := h ss s ss' rfl
    have hrest : Keeps R (Sql.runAll trg t (ss ++ [s])) (Sql.runAll trg t ((ss ++ [s]) ++ ss')) :=
      ih fun pre s' post heq => h pre s' post (by simpa using heq)
    rw [List.append_assoc, List.singleton_append] at hrest
    exact hstep.trans hrest

end Keeps

end Sql
