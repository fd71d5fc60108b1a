import AccountOS.Ledger.Correctness.Export
import Mathlib.Algebra.BigOperators.Ring.Finset
import Mathlib.Algebra.BigOperators.Ring.List

/-!
# The amounts of an export

The column `amountNgn` has `Number(amountKobo / 100n)`: the kobo are cut off before the division, and
the quotient is shown as the double nearest to it. `exportsAmounts_iff`: the column gives back the
amounts of the ledger exactly when every amount is in whole naira that are shown as themselves.
-/

namespace AccountOS

open Csv Sql

/-! ### Reading the column -/

/-- A field without the quote in front of a formula. -/
def unguarded (field : String) : List Char :=
  match field.toList with
  | '\'' :: cs => cs
  | cs => cs

/-- The amount in a row, its fourth field. -/
def readAmount (row : List String) : Option ℚ :=
  row[3]?.bind fun field => Decimal.read (unguarded field)

/-- The column `amountNgn` of an export. -/
def amountColumn (csv : String) : Option (List (Option ℚ)) :=
  (parse csv).map fun rows => rows.tail.map readAmount

theorem unguarded_guarded {value : String} (h : value.toList.head? ≠ some '\'') :
    unguarded (guarded value) = value.toList := by
  unfold guarded
  split
  · have hquote : ("'" ++ value).toList = '\'' :: value.toList := String.toList_append
    rw [unguarded, hquote]
    rfl
  · unfold unguarded
    split
    next cs hcs =>
      rw [hcs] at h
      exact absurd rfl h
    next => rfl

/-- What the export has for an entry. -/
theorem readAmount_exportFields (e : LedgerEntry) : readAmount e.exportFields =
    Decimal.read (numberText (bigIntDiv e.amountKobo 100)).toList := by
  have hfield : e.exportFields[3]? = some (guarded (numberText (bigIntDiv e.amountKobo 100))) := rfl
  rw [readAmount, hfield, Option.bind_some, unguarded_guarded head?_numberText]

theorem amountColumn_exportCsv (rank : String → Nat) (db : Db) (accountId : String) :
    amountColumn (exportCsv rank db accountId) = some ((exportedEntries rank db accountId).map
      fun e => Decimal.read (numberText (bigIntDiv e.amountKobo 100)).toList) := by
  have hfields : (exportedEntries rank db accountId).map (readAmount ∘ LedgerEntry.exportFields) =
      (exportedEntries rank db accountId).map
        fun e => Decimal.read (numberText (bigIntDiv e.amountKobo 100)).toList := by
    refine List.map_congr_left fun e _ => ?_
    rw [Function.comp_apply, readAmount_exportFields]
  rw [amountColumn, parse_exportCsv_rows, Option.map_some, List.tail_cons, List.map_map, hfields]

/-! ### One amount -/

/-- Whole naira that are shown as themselves. -/
def WholeNaira (amountKobo : Int) : Prop := 100 ∣ amountKobo ∧ ShownExactly (amountKobo / 100)

instance (amountKobo : Int) : Decidable (WholeNaira amountKobo) :=
  inferInstanceAs (Decidable (_ ∧ _))

/-- The text gives the amount back exactly when the amount is in whole naira. -/
theorem exists_read_iff {amountKobo : Int} :
    (∃ a, Decimal.read (numberText (bigIntDiv amountKobo 100)).toList = some a ∧
      a * 100 = amountKobo) ↔ WholeNaira amountKobo := by
  have hdiv : 100 ∣ amountKobo → bigIntDiv amountKobo 100 = amountKobo / 100 :=
    fun h => Int.tdiv_eq_ediv_of_dvd h
  constructor
  · rintro ⟨a, hread, ha⟩
    rcases Nat.lt_or_ge (number (bigIntDiv amountKobo 100)).natAbs (2 ^ 1024) with hlt | hge
    · rw [read_numberText_of_lt hlt, Option.some.injEq] at hread
      -- what is shown is an integer, so that the amount is a multiple of 100
      have hshown : shown (bigIntDiv amountKobo 100) * 100 = amountKobo := by
        rw [← hread] at ha
        exact_mod_cast ha
      have hdvd : 100 ∣ amountKobo := ⟨shown (bigIntDiv amountKobo 100), by omega⟩
      rw [hdiv hdvd] at hlt hshown
      exact ⟨hdvd, hlt, by omega⟩
    · rw [read_numberText_of_infinite hge] at hread
      cases hread
  · rintro ⟨hdvd, hshown⟩
    refine ⟨((amountKobo / 100 : Int) : ℚ), ?_, ?_⟩
    · rw [hdiv hdvd]
      exact read_numberText_eq_iff.2 hshown
    · have hmul : amountKobo / 100 * 100 = amountKobo := Int.ediv_mul_cancel hdvd
      exact_mod_cast hmul

/-! ### The column -/

/-- The column `amountNgn` determines the amounts: times 100 they are those of the entries, and so
are their sums, also that of the summary when all entries are inflows. -/
def ExportsAmounts (rank : String → Nat) (db : Db) (accountId : String) : Prop :=
  ∃ amounts : List ℚ, amountColumn (exportCsv rank db accountId) = some (amounts.map some) ∧
    amounts.map (fun a => a * 100) =
      (exportedEntries rank db accountId).map (fun e => (e.amountKobo : ℚ)) ∧
    amounts.sum * 100 =
      (((exportedEntries rank db accountId).map LedgerEntry.amountKobo).sum : Int) ∧
    ((∀ e ∈ db.ledgerEntries, e.accountId = accountId → e.direction = .inflow) →
      amounts.sum * 100 = (getSummary (fun _ => db) accountId).totalAmountKobo)

section Column

variable {rank : String → Nat} {db : Db} {accountId : String}

/-- A ledger of inflows sums up to the total of the summary. -/
theorem sum_exportedEntries
    (h : ∀ e ∈ db.ledgerEntries, e.accountId = accountId → e.direction = .inflow) :
    ((exportedEntries rank db accountId).map LedgerEntry.amountKobo).sum =
      (getSummary (fun _ => db) accountId).totalAmountKobo := by
  have hperm : (exportedEntries rank db accountId).Perm
      (db.ledgerEntries.filter fun e => e.accountId = accountId) := perm_selectRows
  rw [(hperm.map _).sum_eq]
  show sumWhere (fun e => e.accountId = accountId) LedgerEntry.amountKobo db.ledgerEntries =
    db.inflowSum accountId
  exact sumWhere_congr _ fun e he => ⟨fun ha => ⟨ha, h e he ha⟩, And.left⟩

theorem mem_exportedEntries {e : LedgerEntry} : e ∈ exportedEntries rank db accountId ↔
    e ∈ db.ledgerEntries ∧ e.accountId = accountId := by
  rw [exportedEntries, mem_selectRows, decide_eq_true_eq]

/-- An amount that its row gives back is in whole naira. -/
theorem wholeNaira_of_exportsAmounts (h : ExportsAmounts rank db accountId) {e : LedgerEntry}
    (he : e ∈ exportedEntries rank db accountId) : WholeNaira e.amountKobo := by
  obtain ⟨amounts, hcolumn, hamounts, -⟩ := h
  rw [amountColumn_exportCsv, Option.some.injEq] at hcolumn
  -- the entry and what stands for it are at one place
  obtain ⟨i, hi, rfl⟩ := List.mem_iff_getElem.1 he
  have hread := congrArg (fun l => l[i]?) hcolumn
  have hkobo := congrArg (fun l => l[i]?) hamounts
  simp only [List.getElem?_map, List.getElem?_eq_getElem hi, Option.map_some] at hread hkobo
  cases hamount : amounts[i]? with
  | none =>
    rw [hamount] at hread
    cases hread
  | some a =>
    rw [hamount, Option.map_some, Option.some.injEq] at hread hkobo
    exact exists_read_iff.1 ⟨a, hread, hkobo⟩

theorem exportsAmounts_of_wholeNaira
    (h : ∀ e ∈ exportedEntries rank db accountId, WholeNaira e.amountKobo) :
    ExportsAmounts rank db accountId := by
  set amounts : List ℚ := (exportedEntries rank db accountId).map fun e => (e.amountKobo : ℚ) / 100
    with hamounts
  -- each row gives back the amount of its own entry
  have hcolumn : amountColumn (exportCsv rank db accountId) = some (amounts.map some) := by
    rw [amountColumn_exportCsv, hamounts, List.map_map, Option.some.injEq]
    refine List.map_congr_left fun e he => ?_
    obtain ⟨a, hread, ha⟩ := exists_read_iff.2 (h e he)
    have hvalue : (e.amountKobo : ℚ) / 100 = a := by
      rw [← ha]
      field_simp
    rw [hread]
    exact congrArg some hvalue.symm
  have hkobo : amounts.map (fun a => a * 100) =
      (exportedEntries rank db accountId).map fun e => (e.amountKobo : ℚ) := by
    rw [hamounts, List.map_map]
    refine List.map_congr_left fun e _ => ?_
    show (e.amountKobo : ℚ) / 100 * 100 = e.amountKobo
    field_simp
  have hsum : amounts.sum * 100 =
      (((exportedEntries rank db accountId).map LedgerEntry.amountKobo).sum : Int) := by
    have hmul : ∀ l : List ℚ, (l.map fun a => a * 100).sum = l.sum * 100 := by
      intro l
      rw [List.sum_map_mul_right, List.map_id']
    rw [← hmul, hkobo, Int.cast_list_sum, List.map_map]
    rfl
  refine ⟨amounts, hcolumn, hkobo, hsum, fun hinflow => ?_⟩
  rw [hsum, sum_exportedEntries hinflow]

/-- **The export loses no money exactly when every amount is in whole naira** that are shown as
themselves, as all below `2 ^ 53` are. -/
theorem exportsAmounts_iff : ExportsAmounts rank db accountId ↔
    ∀ e ∈ db.ledgerEntries, e.accountId = accountId → WholeNaira e.amountKobo := by
  constructor
  · exact fun h e he ha => wholeNaira_of_exportsAmounts h (mem_exportedEntries.2 ⟨he, ha⟩)
  · intro h
    refine exportsAmounts_of_wholeNaira fun e he => ?_
    obtain ⟨he, ha⟩ := mem_exportedEntries.1 he
    exact h e he ha

end Column

namespace Sample

/-- An account with one inflow. -/
def inflowOf (amountKobo : Int) : Db where
  ledgerEntries :=
    [{ id := "le1", accountId := "acc1", nombaTransactionRef := "trx1", nombaEventId := "evt1",
       direction := .inflow, amountKobo, customerNameSnapshot := "Ada", kycTierAtTime := .tier1,
       cumulativeAmountKobo := amountKobo, receivedAt := 0, createdAt := 0 }]

end Sample

/-- 1.50 naira are exported as 1, and 9007199254740993 naira as 9007199254740992. -/
theorem not_exportsAmounts : ¬ ExportsAmounts (fun _ => 0) (Sample.inflowOf 150) "acc1" ∧
    ¬ ExportsAmounts (fun _ => 0) (Sample.inflowOf 900719925474099300) "acc1" := by
  constructor
  · intro h
    have hwhole : WholeNaira 150 := wholeNaira_of_exportsAmounts h (mem_exportedEntries.2
      ⟨List.mem_singleton_self _, rfl⟩)
    revert hwhole
    decide +kernel
  · intro h
    have hwhole : WholeNaira 900719925474099300 := wholeNaira_of_exportsAmounts h
      (mem_exportedEntries.2 ⟨List.mem_singleton_self _, rfl⟩)
    revert hwhole
    decide +kernel

end AccountOS
