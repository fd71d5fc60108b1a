import AccountOS.Sql.Trigger
import Mathlib.Logic.Function.Basic

/-!
# Append-only tables

The trigger function of the migration `20260711000000_enforce_append_only` and the four tables it
is installed on. A row gives each column its value, or `NULL`; the function compares the values
after a cast to `text`, which is a parameter here.

* `append_only_iff`: which runs of statements on an append-only table keep it so.
* `audit_entry_is_rewritten`: an update that goes through on a table without exempt columns.
-/

namespace AccountOS

open Sql (Statement RowChange RowTrigger Keeps)

variable {V : Type}

/-- A row: the value of each column, by its name. -/
abbrev Row (V : Type) := String → Option V

/-- A row of `information_schema.columns`. -/
structure ColumnInfo where
  tableSchema : String
  tableName : String
  columnName : String
deriving DecidableEq, Repr

/-! ### The tables -/

/-- The tables with a `trg_append_only_*` trigger. -/
inductive AppendOnlyTable
  | ledgerEntry | auditLogEntry | bucketLedgerEntry | nameHistoryEntry
deriving DecidableEq, Repr

namespace AppendOnlyTable

def tableName : AppendOnlyTable → String
  | ledgerEntry => "LedgerEntry"
  | auditLogEntry => "AuditLogEntry"
  | bucketLedgerEntry => "BucketLedgerEntry"
  | nameHistoryEntry => "NameHistoryEntry"

/-- The columns, as the migrations create them. -/
def columns : AppendOnlyTable → List String
  | ledgerEntry =>
    ["id", "accountId", "nombaTransactionRef", "nombaEventId", "direction", "amountKobo",
      "currency", "senderName", "senderAccountNumber", "senderBankCode", "narration",
      "customerNameSnapshot", "kycTierAtTime", "cumulativeAmountKobo", "reconciliationStatus",
      "receivedAt", "createdAt"]
  | auditLogEntry =>
    ["id", "accountId", "customerId", "businessId", "actor", "action", "beforeState",
      "afterState", "reasonCode", "metadata", "requestId", "occurredAt"]
  | bucketLedgerEntry =>
    ["id", "bucketId", "entryType", "amountKobo", "cumulativeAmountKobo", "reference",
      "sourceLedgerEntryId", "narration", "createdAt"]
  | nameHistoryEntry =>
    ["id", "customerId", "previousName", "newName", "reason", "changedBy", "changedAt"]

/-- The arguments in `EXECUTE FUNCTION enforce_append_only(…)` of the trigger on the table. -/
def triggerArguments : AppendOnlyTable → List String
  | ledgerEntry => ["reconciliationStatus"]
  | auditLogEntry => []
  | bucketLedgerEntry => []
  | nameHistoryEntry => []

/-- A column that no `UPDATE` may change. -/
def Guarded (t : AppendOnlyTable) (c : String) : Prop :=
  c ∈ t.columns ∧ c ∉ t.triggerArguments

instance (t : AppendOnlyTable) (c : String) : Decidable (t.Guarded c) :=
  inferInstanceAs (Decidable (_ ∧ _))

end AppendOnlyTable

/-- The rows of `information_schema.columns` for these tables. -/
def informationSchemaColumns : List ColumnInfo :=
  [AppendOnlyTable.ledgerEntry, .auditLogEntry, .bucketLedgerEntry, .nameHistoryEntry].flatMap
    fun t => t.columns.map fun c => ⟨"public", t.tableName, c⟩

/-! ### The trigger function -/

/-- `TG_ARGV`: `NULL` in a trigger without arguments. -/
def tgArgv : List String → Option (List (Option String))
  | [] => none
  | a :: as => some ((a :: as).map some)

/-- The columns that the `FOR` loop goes through. -/
def loopColumns (tgTableSchema tgTableName : String) (exemptCols : Option (List (Option String))) :
    List String :=
  (Sql.selectWhere (fun row =>
    ((Sql.eq (some row.tableSchema) (some tgTableSchema)).and
      (Sql.eq (some row.tableName) (some tgTableName))).and
      (Sql.neqAll (some row.columnName) exemptCols)) informationSchemaColumns).map (·.columnName)

/-- The loop: the first column whose old and new text differ raises. -/
def checkColumns (text : V → String) (tgTableSchema tgTableName : String) (old new : Row V) :
    List String → Except String Unit
  | [] => .ok ()
  | colName :: rest => do
    let oldVal := (old colName).map text
    let newVal := (new colName).map text
    if Sql.isDistinctFrom oldVal newVal then
      throw s!"UPDATE forbidden on append-only column {tgTableSchema}.{tgTableName}.{colName}"
    checkColumns text tgTableSchema tgTableName old new rest

/-- `enforce_append_only()`. -/
def enforceAppendOnly (text : V → String) (tgTableSchema tgTableName : String)
    (tgArgv : Option (List (Option String))) : RowTrigger (Row V) String
  | .delete _ =>
    throw s!"DELETE forbidden on append-only table {tgTableSchema}.{tgTableName}"
  | .update old new => do
    let exemptCols := tgArgv
    checkColumns text tgTableSchema tgTableName old new
      (loopColumns tgTableSchema tgTableName exemptCols)
    return some new

/-- The trigger that is installed on a table. -/
def AppendOnlyTable.trigger (t : AppendOnlyTable) (text : V → String) : RowTrigger (Row V) String :=
  enforceAppendOnly text "public" t.tableName (tgArgv t.triggerArguments)

/-! ### What the function lets pass -/

theorem mem_informationSchemaColumns {t : AppendOnlyTable} {c : String} :
    (⟨"public", t.tableName, c⟩ : ColumnInfo) ∈ informationSchemaColumns ↔ c ∈ t.columns := by
  cases t <;> simp [informationSchemaColumns, AppendOnlyTable.tableName, AppendOnlyTable.columns]

theorem mem_loopColumns (t : AppendOnlyTable) (args : List String) (c : String) :
    c ∈ loopColumns "public" t.tableName (some (args.map some)) ↔ c ∈ t.columns ∧ c ∉ args := by
  simp only [loopColumns, List.mem_map, Sql.mem_selectWhere, Sql.Truth.and_eq_true,
    Sql.eq_eq_true, Sql.neqAll_eq_true]
  constructor
  · rintro ⟨⟨_, _, _⟩, ⟨hmem, ⟨rfl, rfl⟩, hargs⟩, rfl⟩
    exact ⟨mem_informationSchemaColumns.1 hmem, hargs⟩
  · rintro ⟨hmem, hargs⟩
    exact ⟨⟨"public", t.tableName, c⟩,
      ⟨mem_informationSchemaColumns.2 hmem, ⟨rfl, rfl⟩, hargs⟩, rfl⟩

/-- A trigger without arguments selects no column. -/
@[simp] theorem loopColumns_null (s t : String) : loopColumns s t none = [] := by
  unfold loopColumns
  rw [List.map_eq_nil_iff, List.eq_nil_iff_forall_not_mem]
  intro row hrow
  have hcond := (Sql.mem_selectWhere.1 hrow).2
  rw [Sql.Truth.and_eq_true, Sql.neqAll_null] at hcond
  cases hcond.2

theorem checkColumns_cons (text : V → String) (s t : String) (old new : Row V) (c : String)
    (cols : List String) :
    checkColumns text s t old new (c :: cols) =
      if Sql.isDistinctFrom ((old c).map text) ((new c).map text) then
        .error s!"UPDATE forbidden on append-only column {s}.{t}.{c}"
      else checkColumns text s t old new cols := by
  rw [checkColumns]
  dsimp only
  split <;> rfl

theorem checkColumns_eq_ok {text : V → String} (htext : Function.Injective text) {s t : String}
    {old new : Row V} {cols : List String} :
    checkColumns text s t old new cols = .ok () ↔ ∀ c ∈ cols, old c = new c := by
  induction cols with
  | nil => simp [checkColumns]
  | cons c cols ih =>
    have hcast : (old c).map text = (new c).map text ↔ old c = new c :=
      (Option.map_injective htext).eq_iff
    rw [List.forall_mem_cons, ← ih, ← hcast, checkColumns_cons]
    by_cases h : (old c).map text = (new c).map text <;> simp [Sql.isDistinctFrom, h]

theorem enforceAppendOnly_update (text : V → String) (s t : String)
    (argv : Option (List (Option String))) (old new : Row V) :
    enforceAppendOnly text s t argv (.update old new) =
      (checkColumns text s t old new (loopColumns s t argv)).map fun _ => some new := by
  unfold enforceAppendOnly
  dsimp only
  rcases checkColumns text s t old new (loopColumns s t argv) with e | u <;> rfl

namespace AppendOnlyTable

/-- The rows agree in every guarded column. -/
def SameGuarded (t : AppendOnlyTable) (x y : Row V) : Prop := ∀ c, t.Guarded c → x c = y c

instance (t : AppendOnlyTable) : @Std.Refl (Row V) t.SameGuarded := ⟨fun _ _ _ => rfl⟩

instance (t : AppendOnlyTable) : IsTrans (Row V) t.SameGuarded :=
  ⟨fun _ _ _ h h' c hc => (h c hc).trans (h' c hc)⟩

theorem trigger_delete (t : AppendOnlyTable) (text : V → String) (old : Row V) :
    t.trigger text (.delete old) =
      .error s!"DELETE forbidden on append-only table public.{t.tableName}" := rfl

/-- An update passes when it changes no guarded column, and on the tables without exempt columns
it passes whatever it changes. -/
theorem trigger_update {text : V → String} (htext : Function.Injective text) (t : AppendOnlyTable)
    (old new : Row V) :
    t.trigger text (.update old new) = .ok (some new) ↔
      (t = .ledgerEntry → t.SameGuarded old new) := by
  unfold trigger
  rw [enforceAppendOnly_update]
  cases t with
  | ledgerEntry =>
    have hloop : (∀ c ∈ loopColumns "public" ledgerEntry.tableName
        (tgArgv ledgerEntry.triggerArguments), old c = new c) ↔
          ledgerEntry.SameGuarded old new :=
      forall_congr' fun c => by
        rw [← show (c ∈ _ ↔ ledgerEntry.Guarded c) from
          mem_loopColumns ledgerEntry ledgerEntry.triggerArguments c]
        rfl
    rw [forall_prop_of_true rfl, ← hloop, ← checkColumns_eq_ok htext]
    rcases checkColumns text _ _ old new _ with e | u <;> simp [Except.map]
  | _ => simp [triggerArguments, tgArgv, checkColumns, Except.map]

/-- The function returns the new row or raises. -/
theorem trigger_update_cases (t : AppendOnlyTable) (text : V → String) (old new : Row V) :
    t.trigger text (.update old new) = .ok (some new) ∨
      ∃ e, t.trigger text (.update old new) = .error e := by
  unfold trigger
  rw [enforceAppendOnly_update]
  rcases checkColumns text _ _ old new _ with e | u
  · exact .inr ⟨e, rfl⟩
  · exact .inl rfl

end AppendOnlyTable

/-! ### Statements on an append-only table -/

section Statements

variable (t : AppendOnlyTable) (rows : List (Row V))

/-- An `UPDATE` that changes a guarded column of a row it selects. -/
def ChangesGuarded : Statement (Row V) → Prop
  | .update p set => ∃ x ∈ rows, p x = some true ∧ ¬ t.SameGuarded x (set x)
  | .insert _ | .delete _ => False

/-- A statement that an append-only table must refuse. -/
def Mutates (s : Statement (Row V)) : Prop :=
  ChangesGuarded t rows s ∨ ∃ p, s = .delete p ∧ ∃ x ∈ rows, p x = some true

end Statements

variable {text : V → String} {t : AppendOnlyTable} {rows : List (Row V)} {s : Statement (Row V)}

/-- A statement that would change the table raises, if it is on `LedgerEntry` or a `DELETE`. -/
theorem execute_eq_error (htext : Function.Injective text) (hs : Mutates t rows s)
    (h : t = .ledgerEntry ∨ ¬ ChangesGuarded t rows s) :
    ∃ e, s.execute (t.trigger text) rows = .error e := by
  rcases hs with hchange | ⟨p, rfl, x, hx, hp⟩
  · have ht : t = .ledgerEntry := h.resolve_right (not_not_intro hchange)
    cases s with
    | insert new => exact hchange.elim
    | delete p => exact hchange.elim
    | update p set =>
      obtain ⟨x, hx, hp, hne⟩ := hchange
      have hraise : ∃ e, t.trigger text (.update x (set x)) = .error e := by
        refine (t.trigger_update_cases text x (set x)).resolve_left fun hok => ?_
        exact hne ((AppendOnlyTable.trigger_update htext t x (set x)).1 hok ht)
      obtain ⟨e, he⟩ := hraise
      refine Sql.rowwise_eq_error hx ⟨e, ?_⟩
      rw [Sql.updateOne, if_pos hp, he]
      rfl
  · refine Sql.rowwise_eq_error hx
      ⟨s!"DELETE forbidden on append-only table public.{t.tableName}", ?_⟩
    rw [Sql.deleteOne, if_pos hp, AppendOnlyTable.trigger_delete]
    rfl

/-- Without a guard an `UPDATE` goes through. -/
theorem execute_update_eq_ok (htext : Function.Injective text) (ht : t ≠ .ledgerEntry)
    {p : Row V → Sql.Truth} {set : Row V → Row V} :
    (Statement.update p set).execute (t.trigger text) rows =
      .ok (rows.map fun x => if p x = some true then set x else x) := by
  refine Sql.rowwise_eq_map fun x _ => ?_
  unfold Sql.updateOne
  split
  · rw [(AppendOnlyTable.trigger_update htext t x (set x)).2 fun h => absurd h ht]
    rfl
  · rfl

/-- **Step.** A statement keeps the guarded columns of every row, on `LedgerEntry` and whenever it
changes none of them. -/
theorem keeps_after (htext : Function.Injective text)
    (h : t = .ledgerEntry ∨ ¬ ChangesGuarded t rows s) :
    Keeps t.SameGuarded rows (s.after (t.trigger text) rows) := by
  unfold Statement.after
  split
  next u hu =>
    cases s with
    | insert new =>
      cases hu
      exact Keeps.append rows new
    | update p set =>
      refine Keeps.of_forall₂ (Sql.forall₂_of_rowwise (fun x hx ys hys => ?_) hu)
      unfold Sql.updateOne at hys
      split at hys
      next hp =>
        have hsame : t.trigger text (.update x (set x)) = .ok (some (set x)) →
            t.SameGuarded x (set x) := fun hok => by
          rcases h with ht | hno
          · exact (AppendOnlyTable.trigger_update htext t x (set x)).1 hok ht
          · by_contra hne
            exact hno ⟨x, hx, hp, hne⟩
        rcases t.trigger_update_cases text x (set x) with hok | ⟨e, he⟩
        · rw [hok] at hys
          cases hys
          exact ⟨set x, rfl, hsame hok⟩
        · rw [he] at hys
          cases hys
      next =>
        cases hys
        exact ⟨x, rfl, Std.Refl.refl x⟩
    | delete p =>
      refine Keeps.of_forall₂ (Sql.forall₂_of_rowwise (fun x _ ys hys => ?_) hu)
      unfold Sql.deleteOne at hys
      split at hys
      · rw [AppendOnlyTable.trigger_delete] at hys
        cases hys
      · cases hys
        exact ⟨x, rfl, Std.Refl.refl x⟩
  next => exact Keeps.refl rows

/-! ### Runs -/

/-- What the triggers are for, in a run of statements on a table: whatever would remove a row or
change a guarded column raises and leaves the table as it is, and no guarded column of a row ever
changes. -/
structure StaysAppendOnly (text : V → String) (t : AppendOnlyTable) (rows : List (Row V))
    (ss : List (Statement (Row V))) : Prop where
  raises : ∀ pre s post, ss = pre ++ s :: post →
    Mutates t (Sql.runAll (t.trigger text) rows pre) s →
      (∃ e, s.execute (t.trigger text) (Sql.runAll (t.trigger text) rows pre) = .error e) ∧
      Sql.runAll (t.trigger text) rows (pre ++ [s]) = Sql.runAll (t.trigger text) rows pre
  constant : ∀ pre mid post, ss = pre ++ mid ++ post →
    Keeps t.SameGuarded (Sql.runAll (t.trigger text) rows pre)
      (Sql.runAll (t.trigger text) rows (pre ++ mid))

/-- **Where the triggers enforce append-only.** `LedgerEntry` stays append-only in every run of
statements. The three tables whose trigger has no arguments do only as long as no `UPDATE` tries to
change a column: there `TG_ARGV` is `NULL`, and the loop over the guarded columns is empty. -/
theorem append_only_iff (htext : Function.Injective text) (t : AppendOnlyTable)
    (rows : List (Row V)) (ss : List (Statement (Row V))) :
    StaysAppendOnly text t rows ss ↔
      t = .ledgerEntry ∨ ∀ pre s post, ss = pre ++ s :: post →
        ¬ ChangesGuarded t (Sql.runAll (t.trigger text) rows pre) s := by
  constructor
  · intro h
    by_contra hcon
    push Not at hcon
    obtain ⟨ht, pre, s, post, hss, hchange⟩ := hcon
    obtain ⟨⟨e, he⟩, -⟩ := h.raises pre s post hss (.inl hchange)
    cases s with
    | insert new => exact hchange
    | delete p => exact hchange
    | update p set =>
      rw [execute_update_eq_ok htext ht] at he
      cases he
  · intro h
    have hguard : ∀ pre s post, ss = pre ++ s :: post →
        t = .ledgerEntry ∨ ¬ ChangesGuarded t (Sql.runAll (t.trigger text) rows pre) s :=
      fun pre s post hss => h.imp_right fun hno => hno pre s post hss
    constructor
    · intro pre s post hss hs
      obtain ⟨e, he⟩ := execute_eq_error htext hs (hguard pre s post hss)
      refine ⟨⟨e, he⟩, ?_⟩
      rw [Sql.runAll_append_singleton, Statement.after, he]
    · intro pre mid post hss
      refine Keeps.runAll fun pre' s post' heq => ?_
      rw [Sql.runAll_append_singleton]
      exact keeps_after htext (hguard pre' s (post' ++ post) (by rw [hss, heq]; simp))

/-! ### Two tables -/

section Sample

/-- The row with the given values, and `NULL` elsewhere. -/
def rowOf (values : List (String × String)) : Row String := fun c => values.lookup c

def inflowRow : Row String := rowOf
  [("id", "entry1"), ("accountId", "acc1"), ("nombaTransactionRef", "txn1"),
    ("nombaEventId", "evt1"), ("direction", "INFLOW"), ("amountKobo", "5000"), ("currency", "NGN"),
    ("customerNameSnapshot", "Ada"), ("kycTierAtTime", "TIER_1"), ("cumulativeAmountKobo", "5000"),
    ("reconciliationStatus", "PENDING"), ("receivedAt", "2026-07-11 00:00:00"),
    ("createdAt", "2026-07-11 00:00:00")]

def auditRow : Row String := rowOf
  [("id", "audit1"), ("accountId", "acc1"), ("actor", "nomba_webhook"),
    ("action", "INFLOW_RECEIVED"), ("occurredAt", "2026-07-11 00:00:00")]

/-- `UPDATE … SET column = value` on all rows. -/
def setAll (column value : String) : Statement (Row String) :=
  .update (fun _ => some true) fun row => Function.update row column (some value)

/-- `append_only_iff` on both kinds of table: the ledger refuses a new amount and any `DELETE`, and
the audit log is rewritten. -/
theorem append_only_iff_sample :
    StaysAppendOnly id .ledgerEntry [inflowRow]
      [setAll "amountKobo" "9", setAll "reconciliationStatus" "MATCHED",
        .delete fun _ => some true] ∧
    ¬ StaysAppendOnly id .auditLogEntry [auditRow] [setAll "action" "RULES_UPDATED"] := by
  constructor
  · exact (append_only_iff Function.injective_id _ _ _).2 (.inl rfl)
  · intro h
    rcases (append_only_iff Function.injective_id _ _ _).1 h with ht | hno
    · cases ht
    · refine hno [] _ [] rfl ⟨auditRow, by simp [Sql.runAll], rfl, fun hsame => ?_⟩
      have haction := hsame "action" (by decide)
      revert haction
      decide

/-- The audit entry's `action` is changed by a plain `UPDATE`: the trigger raises nothing and the
new row is stored. -/
theorem audit_entry_is_rewritten :
    ¬ StaysAppendOnly id .auditLogEntry [auditRow] [setAll "action" "RULES_UPDATED"] := by
  intro h
  have hkeeps := h.constant [] [setAll "action" "RULES_UPDATED"] [] rfl
  obtain ⟨y, hy, hsame⟩ := hkeeps 0 auditRow rfl
  have haction : y "action" = some "RULES_UPDATED" := by
    rw [List.nil_append, ← List.nil_append [setAll _ _], Sql.runAll_append_singleton,
      Statement.after, setAll, execute_update_eq_ok Function.injective_id (by decide)] at hy
    obtain rfl : Function.update auditRow "action" (some "RULES_UPDATED") = y := by
      simpa [Sql.runAll] using hy
    exact Function.update_self _ _ _
  have hold := hsame "action" (by decide)
  rw [haction] at hold
  revert hold
  decide

end Sample

end AccountOS
