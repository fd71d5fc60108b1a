import Mathlib.Data.List.DropRight
import Mathlib.Data.List.Sort

/-!
# Paging by an offset

`offsetRows` is what a query returns that skips some of its rows and takes the next ones. Over rows
that stay the same, the pages are the rows, cut up (`flatten_offsetRows`).

Rows may also be added between two pages. They move those behind them to later pages, where they may
be seen twice; but none that has been there from the beginning is missed
(`exists_mem_offsetRows_of_growing`): what is left of the first rows after a page is among what is left
of the rows when the next one is read.
-/

namespace Sql

variable {α κ : Type}

/-! ### Pages -/

/-- `take` rows after the first `skip` ones; a negative `take` counts from the end. -/
def offsetRows (rows : List α) (skip : ℕ) (take : Int) : List α :=
  if 0 ≤ take then (rows.drop skip).take take.toNat else (rows.rdrop skip).rtake (-take).toNat

theorem offsetRows_natCast (rows : List α) (skip n : ℕ) :
    offsetRows rows skip n = (rows.drop skip).take n := by
  rw [offsetRows, if_pos (Int.natCast_nonneg n), Int.toNat_natCast]

theorem map_offsetRows {β : Type} (f : α → β) (rows : List α) (skip : ℕ) (take : Int) :
    (offsetRows rows skip take).map f = offsetRows (rows.map f) skip take := by
  unfold offsetRows
  split
  · rw [List.map_take, List.map_drop]
  · simp only [List.rtake, List.rdrop, List.map_drop, List.map_take, List.length_map,
      List.length_take]

/-- The first `K` pages of `n` rows are the first `K * n` rows. -/
theorem flatten_offsetRows (rows : List α) (n K : ℕ) :
    ((List.range K).map fun k => offsetRows rows (k * n) n).flatten = rows.take (K * n) := by
  induction K with
  | zero => simp
  | succ K ih =>
    rw [List.range_succ, List.map_append, List.flatten_append, ih]
    have hpage : offsetRows rows (K * n) n = (rows.drop (K * n)).take n := offsetRows_natCast ..
    have hlength : (K + 1) * n = K * n + n := Nat.succ_mul K n
    rw [List.map_singleton, List.flatten_singleton, hpage, hlength, List.take_add]

/-! ### Rows that are added between two pages -/

/-- **No page misses a row that was there from the beginning**, while rows are only added: page `k`
is read of `rowsAt k`, and the last one reaches the end of its rows. -/
theorem exists_mem_offsetRows_of_growing {key : α → κ} {rowsAt : ℕ → List α} {n K : ℕ}
    (hgrow : ∀ k < K, List.Sublist ((rowsAt k).map key) ((rowsAt (k + 1)).map key))
    (hlast : (rowsAt K).length ≤ (K + 1) * n) {x : κ} (hx : x ∈ (rowsAt 0).map key) :
    ∃ k ≤ K, x ∈ (offsetRows (rowsAt k) (k * n) n).map key := by
  -- before page `k`, the row has been shown, or it is behind the rows that have been skipped
  have hrest : ∀ k ≤ K, (∃ j < k, x ∈ (offsetRows (rowsAt j) (j * n) n).map key) ∨
      x ∈ ((rowsAt k).map key).drop (k * n) := by
    intro k
    induction k with
    | zero =>
      intro _
      right
      simpa using hx
    | succ k ih =>
      intro hk
      rcases ih (by omega) with ⟨j, hj, hshown⟩ | hleft
      · exact .inl ⟨j, by omega, hshown⟩
      · rw [← List.take_append_drop n (((rowsAt k).map key).drop (k * n)), List.mem_append] at hleft
        rcases hleft with hpage | hleft
        · refine .inl ⟨k, by omega, ?_⟩
          rw [map_offsetRows, offsetRows_natCast]
          exact hpage
        · right
          have hnext : (k + 1) * n = k * n + n := Nat.succ_mul k n
          rw [List.drop_drop, ← hnext] at hleft
          exact ((hgrow k (by omega)).drop _).subset hleft
  rcases hrest K (le_refl K) with ⟨j, hj, hshown⟩ | hleft
  · exact ⟨j, by omega, hshown⟩
  · refine ⟨K, le_refl K, ?_⟩
    have hpage : (((rowsAt K).map key).drop (K * n)).take n = ((rowsAt K).map key).drop (K * n) := by
      apply List.take_of_length_le
      rw [List.length_drop, List.length_map]
      have hnext : (K + 1) * n = K * n + n := Nat.succ_mul K n
      omega
    rw [map_offsetRows, offsetRows_natCast, hpage]
    exact hleft

/-! ### The order of the rows -/

/-- Rows that are added to a table find their places in its order between the others. -/
theorem insertionSort_sublist_of_subperm {r : α → α → Prop} [DecidableRel r] [Std.Antisymm r]
    [Std.Total r] [IsTrans α r] {t t' : List α} (h : List.Subperm t t') :
    List.Sublist (t.insertionSort r) (t'.insertionSort r) := by
  apply List.sublist_insertionSort' (List.pairwise_insertionSort r t)
  exact (List.perm_insertionSort r t).subperm.trans h

end Sql
