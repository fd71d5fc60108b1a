import AccountOS.Csv.Rfc4180
import AccountOS.Ledger.Queries

/-!
# The layout of an export

Every cell of `exportCsv` is a quoted field, whatever is in it, so that the export reads back as one
header and a row of ten fields for every entry (`parse_exportCsv`). A field is the value of its
column, with a single quote in front of a formula; no field begins as a formula does.
-/

namespace AccountOS

open Csv

/-! ### Cells -/

/-- What a cell stands for. -/
def guarded (value : String) : String := if IsFormula value then "'" ++ value else value

/-- No cell is a formula. -/
theorem not_isFormula_guarded (value : String) : ¬ IsFormula (guarded value) := by
  unfold guarded
  split
  next =>
    -- the single quote comes first
    rintro ⟨c, hc, hmem⟩
    rw [String.toList_append] at hc
    obtain rfl : '\'' = c := Option.some.inj hc
    revert hmem
    decide
  next h => exact h

theorem toList_csvCell (value : String) :
    (csvCell value).toList = quote (guarded value).toList := by
  have hquote : ("\"" : String).toList = ['"'] := rfl
  simp only [csvCell, String.toList_append, String.toList_ofList, hquote, List.append_assoc]
  rfl

theorem field_csvCell (value : String) : Field (csvCell value).toList (guarded value).toList := by
  rw [toList_csvCell]
  exact field_quote _

/-! ### Rows -/

/-- The columns of an export. -/
def exportColumns : List String :=
  ["entryId", "nombaTransactionRef", "direction", "amountNgn", "currency", "senderName",
    "customerNameSnapshot", "kycTierAtTime", "reconciliationStatus", "receivedAt"]

/-- The header has no cell that needs quotes. -/
theorem row_exportHeader : Csv.Row exportHeader.toList (exportColumns.map String.toList) := by
  have htext : exportHeader.toList = [','].intercalate (exportColumns.map String.toList) := by
    decide +kernel
  have hall : ((exportColumns.map String.toList).all fun t => t.all fun c => IsText c) = true := by
    decide +kernel
  have hplain : ∀ t ∈ exportColumns.map String.toList, ∀ c ∈ t, IsText c := by
    intro t ht c hc
    exact of_decide_eq_true (List.all_eq_true.1 (List.all_eq_true.1 hall t ht) c hc)
  have hfields : List.Forall₂ Field (exportColumns.map String.toList)
      (exportColumns.map String.toList) :=
    List.forall₂_same.2 fun t ht => .plain (hplain t ht)
  rw [htext]
  exact row_intercalate hfields (by decide)

/-- The fields of an entry. -/
def LedgerEntry.exportFields (e : LedgerEntry) : List String := e.exportValues.map guarded

theorem toList_exportRow (e : LedgerEntry) : (exportRow e).toList =
    [','].intercalate (e.exportValues.map fun value => (csvCell value).toList) := by
  rw [exportRow, String.toList_intercalate, List.map_map]
  rfl

theorem row_exportRow (e : LedgerEntry) :
    Csv.Row (exportRow e).toList (e.exportFields.map String.toList) := by
  rw [toList_exportRow, LedgerEntry.exportFields, List.map_map]
  refine row_intercalate ?_ (by simp [LedgerEntry.exportValues])
  rw [List.forall₂_map_left_iff, List.forall₂_map_right_iff]
  exact List.forall₂_same.2 fun value _ => field_csvCell value

/-- A row begins with a quote. -/
theorem exportRow_ne_nil (e : LedgerEntry) : (exportRow e).toList ≠ [] := by
  rw [toList_exportRow, LedgerEntry.exportValues, List.map_cons, List.map_cons,
    List.intercalate_cons_cons, toList_csvCell]
  simp [quote]

/-! ### The export -/

theorem file_exportCsv (rank : String → Nat) (db : Db) (accountId : String) :
    File (exportCsv rank db accountId).toList
      ((exportColumns :: (exportedEntries rank db accountId).map LedgerEntry.exportFields).map
        fun row => row.map String.toList) := by
  have hrows : List.Forall₂ Csv.Row
      (((exportedEntries rank db accountId).map exportRow).map String.toList)
      (((exportedEntries rank db accountId).map LedgerEntry.exportFields).map
        fun row => row.map String.toList) := by
    rw [List.map_map, List.map_map, List.forall₂_map_left_iff, List.forall₂_map_right_iff]
    exact List.forall₂_same.2 fun e _ => row_exportRow e
  rw [exportCsv, String.toList_intercalate]
  refine file_intercalate (.cons row_exportHeader hrows) (by simp) fun text htext => ?_
  rw [List.mem_map] at htext
  obtain ⟨t, ht, rfl⟩ := htext
  rcases List.mem_cons.1 ht with rfl | ht
  · decide +kernel
  · obtain ⟨e, -, rfl⟩ := List.mem_map.1 ht
    exact exportRow_ne_nil e

theorem parse_exportCsv_rows (rank : String → Nat) (db : Db) (accountId : String) :
    parse (exportCsv rank db accountId) =
      some (exportColumns :: (exportedEntries rank db accountId).map LedgerEntry.exportFields) := by
  rw [parse_of_file (file_exportCsv rank db accountId), List.map_map]
  have hid : String.ofList ∘ String.toList = id := funext fun _ => String.ofList_toList
  congr 1
  rw [List.map_congr_left (g := id) fun row _ => ?_, List.map_id]
  show (row.map String.toList).map String.ofList = row
  rw [List.map_map, hid, List.map_id]

/-- **The export keeps its layout for any content**: it reads as the header and one row of ten fields
for each entry, in order. A field is its value, after a single quote if the value is a formula, and
no field is one. -/
theorem parse_exportCsv (rank : String → Nat) (db : Db) (accountId : String) :
    parse (exportCsv rank db accountId) =
        some (exportColumns :: (exportedEntries rank db accountId).map LedgerEntry.exportFields) ∧
      exportColumns.length = 10 ∧
      ∀ e ∈ exportedEntries rank db accountId,
        e.exportFields = [guarded e.id, guarded e.nombaTransactionRef, guarded (toString e.direction),
          guarded (numberText (bigIntDiv e.amountKobo 100)), guarded e.currency,
          guarded (e.senderName.getD ""), guarded e.customerNameSnapshot,
          guarded (toString e.kycTierAtTime), guarded (toString e.reconciliationStatus),
          guarded (toISOString e.receivedAt)] ∧
        e.exportFields.length = 10 ∧ ∀ field ∈ e.exportFields, ¬ IsFormula field := by
  refine ⟨parse_exportCsv_rows rank db accountId, rfl, fun e _ => ⟨rfl, rfl, fun field hfield => ?_⟩⟩
  obtain ⟨value, -, rfl⟩ := List.mem_map.1 hfield
  exact not_isFormula_guarded value

end AccountOS
