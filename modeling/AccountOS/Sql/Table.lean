import Mathlib.Algebra.BigOperators.Group.List.Basic
import Mathlib.Algebra.Order.BigOperators.Group.List
import Mathlib.Data.List.Forall2
import Mathlib.Data.List.MinMax
import Mathlib.Data.List.Nodup
import Mathlib.Tactic.Abel

/-!
# Tables as lists of rows

A table is the list of its rows in the order they were committed. This file has what the
services ask of one: a `SUM … WHERE`, an `UPDATE … WHERE` on a key, and the latest row in some
order. The facts about them are the ones a running balance needs: how a sum moves when a row is
appended or changed, and that the latest row of an append-only table whose rows arrive in order
is its last one.
-/

namespace Sql

variable {α κ M τ : Type}

/-! ### `SUM … WHERE` -/

section SumWhere

/-- `SELECT SUM(g) WHERE p`, with `0` for the sum of no rows. -/
def sumWhere [AddMonoid M] (p : α → Prop) [DecidablePred p] (g : α → M) (t : List α) : M :=
  ((t.filter p).map g).sum

variable (p : α → Prop) [DecidablePred p]

@[simp] theorem sumWhere_nil [AddMonoid M] (g : α → M) : sumWhere p g [] = 0 := rfl

@[simp] theorem sumWhere_cons [AddMonoid M] (g : α → M) (x : α) (t : List α) :
    sumWhere p g (x :: t) = (if p x then g x else 0) + sumWhere p g t := by
  unfold sumWhere
  by_cases hx : p x <;> simp [hx]

@[simp] theorem sumWhere_append [AddMonoid M] (g : α → M) (t u : List α) :
    sumWhere p g (t ++ u) = sumWhere p g t + sumWhere p g u := by
  simp [sumWhere]

/-- A sum only looks at the rows it selects. -/
theorem sumWhere_congr [AddMonoid M] {q : α → Prop} [DecidablePred q] {g : α → M} {t : List α}
    (h : ∀ x ∈ t, p x ↔ q x) : sumWhere p g t = sumWhere q g t := by
  unfold sumWhere
  rw [List.filter_congr fun x hx => decide_eq_decide.2 (h x hx)]

/-- The sum over no selected row is `0`. -/
theorem sumWhere_eq_zero [AddMonoid M] {g : α → M} {t : List α} (h : ∀ x ∈ t, ¬ p x) :
    sumWhere p g t = 0 := by
  induction t with
  | nil => rfl
  | cons x t ih =>
    rw [sumWhere_cons, if_neg (h x List.mem_cons_self), zero_add]
    exact ih fun y hy => h y (List.mem_cons_of_mem _ hy)

theorem sumWhere_nonneg [AddCommGroup M] [LinearOrder M] [IsOrderedAddMonoid M] {g : α → M}
    {t : List α} (h : ∀ x ∈ t, p x → 0 ≤ g x) : 0 ≤ sumWhere p g t := by
  induction t with
  | nil => exact le_rfl
  | cons x t ih =>
    rw [sumWhere_cons]
    have ht : 0 ≤ sumWhere p g t := ih fun y hy => h y (List.mem_cons_of_mem _ hy)
    split
    next hx => exact add_nonneg (h x List.mem_cons_self hx) ht
    next => simpa using ht

/-- Summing over more rows of non-negative value gives no less. -/
theorem sumWhere_le_sumWhere [AddCommGroup M] [LinearOrder M] [IsOrderedAddMonoid M]
    {q : α → Prop} [DecidablePred q] {g : α → M} {t : List α}
    (hpq : ∀ x ∈ t, p x → q x) (h : ∀ x ∈ t, q x → 0 ≤ g x) :
    sumWhere p g t ≤ sumWhere q g t := by
  induction t with
  | nil => exact le_rfl
  | cons x t ih =>
    rw [sumWhere_cons, sumWhere_cons]
    refine add_le_add ?_ (ih (fun y hy => hpq y (List.mem_cons_of_mem _ hy))
      fun y hy => h y (List.mem_cons_of_mem _ hy))
    have hx := hpq x List.mem_cons_self
    by_cases hpx : p x
    · simp [hpx, hx hpx]
    · by_cases hqx : q x
      · simpa [hpx, hqx] using h x List.mem_cons_self hqx
      · simp [hpx, hqx]

/-- Two conditions that exclude each other split a sum. -/
theorem sumWhere_or [AddCommMonoid M] {q : α → Prop} [DecidablePred q] {g : α → M} {t : List α}
    (h : ∀ x ∈ t, p x → ¬ q x) :
    sumWhere (fun x => p x ∨ q x) g t = sumWhere p g t + sumWhere q g t := by
  induction t with
  | nil => simp
  | cons x t ih =>
    have ht := ih fun y hy => h y (List.mem_cons_of_mem _ hy)
    have hx := h x List.mem_cons_self
    rw [sumWhere_cons, sumWhere_cons, sumWhere_cons, ht]
    by_cases hpx : p x
    · rw [if_pos (.inl hpx), if_pos hpx, if_neg (hx hpx), zero_add, add_assoc]
    · by_cases hqx : q x
      · rw [if_pos (.inr hqx), if_neg hpx, if_pos hqx, zero_add, add_left_comm]
      · rw [if_neg (not_or.2 ⟨hpx, hqx⟩), if_neg hpx, if_neg hqx, zero_add, zero_add, zero_add]

/-- Additive maps go through sums. -/
theorem sumWhere_map {N : Type} [AddMonoid M] [AddMonoid N] (φ : M →+ N) (g : α → M)
    (t : List α) : sumWhere p (fun x => φ (g x)) t = φ (sumWhere p g t) := by
  unfold sumWhere
  rw [map_list_sum, List.map_map]
  rfl

/-- **A sum over a referencing table.** When every row of `us` names a selected row of `t` that is
worth no less, by a key that `us` does not repeat, the rows of `us` are worth at most the selected
rows of `t`. -/
theorem sum_map_le_sumWhere {β : Type} [AddCommGroup M] [LinearOrder M] [IsOrderedAddMonoid M]
    (key : α → κ) {g : α → M} {k : β → κ} {v : β → M} {us : List β} {t : List α}
    (hk : (us.map k).Nodup) (hg : ∀ x ∈ t, p x → 0 ≤ g x)
    (h : ∀ u ∈ us, ∃ x ∈ t, p x ∧ key x = k u ∧ v u ≤ g x) :
    (us.map v).sum ≤ sumWhere p g t := by
  induction us generalizing t with
  | nil => exact sumWhere_nonneg p hg
  | cons u us ih =>
    rw [List.map_cons, List.nodup_cons] at hk
    obtain ⟨x, hx, hpx, hkey, hval⟩ := h u List.mem_cons_self
    obtain ⟨l, r, rfl⟩ := List.append_of_mem hx
    -- the other rows of `us` name other rows of `t`
    have hrest : (us.map v).sum ≤ sumWhere p g (l ++ r) := by
      refine ih hk.2 (fun y hy => hg y (by grind)) fun u' hu' => ?_
      obtain ⟨y, hy, hpy, hkey', hval'⟩ := h u' (List.mem_cons_of_mem _ hu')
      have hne : y ≠ x := by
        rintro rfl
        exact hk.1 (List.mem_map.2 ⟨u', hu', hkey'.symm.trans hkey⟩)
      exact ⟨y, by grind, hpy, hkey', hval'⟩
    rw [List.map_cons, List.sum_cons]
    calc v u + (us.map v).sum ≤ g x + sumWhere p g (l ++ r) := add_le_add hval hrest
      _ = sumWhere p g (l ++ x :: r) := by
        rw [sumWhere_append, sumWhere_append, sumWhere_cons, if_pos hpx]
        abel

/-- Changing rows so that no more of them are selected gives no more, when values stay and are not
negative. -/
theorem sumWhere_map_le [AddCommGroup M] [LinearOrder M] [IsOrderedAddMonoid M] {g : α → M}
    {f : α → α} {t : List α} (hp : ∀ x ∈ t, p (f x) → p x) (hg : ∀ x ∈ t, g (f x) = g x)
    (hnonneg : ∀ x ∈ t, p x → 0 ≤ g x) : sumWhere p g (t.map f) ≤ sumWhere p g t := by
  induction t with
  | nil => exact le_rfl
  | cons x t ih =>
    rw [List.map_cons, sumWhere_cons, sumWhere_cons]
    refine add_le_add ?_ (ih (fun y hy => hp y (List.mem_cons_of_mem _ hy))
      (fun y hy => hg y (List.mem_cons_of_mem _ hy))
      fun y hy => hnonneg y (List.mem_cons_of_mem _ hy))
    by_cases hfx : p (f x)
    · rw [if_pos hfx, if_pos (hp x List.mem_cons_self hfx), hg x List.mem_cons_self]
    · rw [if_neg hfx]
      split
      next hx => exact hnonneg x List.mem_cons_self hx
      next => exact le_rfl

/-- Leaving out rows of non-negative value gives no more. -/
theorem sumWhere_le_of_sublist [AddCommGroup M] [LinearOrder M] [IsOrderedAddMonoid M] {g : α → M}
    {t u : List α} (h : List.Sublist t u) (hg : ∀ x ∈ u, 0 ≤ g x) :
    sumWhere p g t ≤ sumWhere p g u := by
  induction h with
  | slnil => exact le_rfl
  | cons x _ ih =>
    rw [sumWhere_cons]
    have hle := ih fun y hy => hg y (List.mem_cons_of_mem _ hy)
    split
    · exact le_add_of_nonneg_of_le (hg x List.mem_cons_self) hle
    · simpa using hle
  | cons_cons x _ ih =>
    rw [sumWhere_cons, sumWhere_cons]
    exact add_le_add_right (ih fun y hy => hg y (List.mem_cons_of_mem _ hy)) _

/-- **A sublist with the same sums is the whole list**, when values are positive. -/
theorem eq_of_sublist_of_sums [DecidableEq κ] [AddCommGroup M] [LinearOrder M]
    [IsOrderedAddMonoid M] {k : α → κ} {g : α → M} {t u : List α} (h : List.Sublist t u)
    (hg : ∀ x ∈ u, 0 < g x)
    (hsum : ∀ b, sumWhere (fun x => k x = b) g t = sumWhere (fun x => k x = b) g u) : t = u := by
  induction h with
  | slnil => rfl
  | @cons t u x hsub ih =>
    -- the row left out is missing in the sum of its key
    have hle : sumWhere (fun y => k y = k x) g t ≤ sumWhere (fun y => k y = k x) g u :=
      sumWhere_le_of_sublist _ hsub fun y hy => (hg y (List.mem_cons_of_mem _ hy)).le
    have hx := hsum (k x)
    rw [sumWhere_cons, if_pos rfl] at hx
    exact absurd (hx ▸ hle) (not_le.2 (lt_add_of_pos_left _ (hg x List.mem_cons_self)))
  | @cons_cons t u x hsub ih =>
    rw [ih (fun y hy => hg y (List.mem_cons_of_mem _ hy)) fun b => ?_]
    have hb := hsum b
    rwa [sumWhere_cons, sumWhere_cons, add_right_inj] at hb

end SumWhere

/-! ### `UPDATE … WHERE key = k` -/

section UpdateRow

variable [DecidableEq κ] (key : α → κ) (k : κ) (f : α → α)

/-- `UPDATE … SET f WHERE key = k`. -/
def updateRow (t : List α) : List α :=
  t.map fun x => if key x = k then f x else x

@[simp] theorem updateRow_nil : updateRow key k f [] = [] := rfl

@[simp] theorem updateRow_cons (x : α) (t : List α) :
    updateRow key k f (x :: t) = (if key x = k then f x else x) :: updateRow key k f t := rfl

variable {key k f}

theorem mem_updateRow {t : List α} {x : α} :
    x ∈ updateRow key k f t ↔ ∃ y ∈ t, x = if key y = k then f y else y := by
  simp [updateRow, eq_comm]

/-- A row after the update is the updated one, or it has another key. -/
theorem mem_updateRow_cases {t : List α} {x : α} (h : x ∈ updateRow key k f t) :
    (∃ y ∈ t, key y = k ∧ x = f y) ∨ x ∈ t ∧ key x ≠ k := by
  obtain ⟨y, hy, rfl⟩ := mem_updateRow.1 h
  by_cases hk : key y = k
  · rw [if_pos hk]
    exact .inl ⟨y, hy, hk, rfl⟩
  · rw [if_neg hk]
    exact .inr ⟨hy, hk⟩

/-- A row with another key is not touched. -/
theorem mem_updateRow_of_ne {t : List α} {x : α} (hx : x ∈ t) (hk : key x ≠ k) :
    x ∈ updateRow key k f t :=
  mem_updateRow.2 ⟨x, hx, by rw [if_neg hk]⟩

theorem mem_updateRow_of_eq {t : List α} {x : α} (hx : x ∈ t) (hk : key x = k) :
    f x ∈ updateRow key k f t :=
  mem_updateRow.2 ⟨x, hx, by rw [if_pos hk]⟩

/-- An update that keeps the key keeps the column of keys. -/
theorem map_updateRow {g : α → τ} (hf : ∀ x, g (f x) = g x) (t : List α) :
    (updateRow key k f t).map g = t.map g := by
  induction t with
  | nil => rfl
  | cons x t ih =>
    rw [updateRow_cons, List.map_cons, List.map_cons, ih]
    split <;> simp [hf]

/-- An update that keeps a unique column keeps it unique. -/
theorem nodup_map_updateRow {g : α → τ} (hf : ∀ x, g (f x) = g x) {t : List α}
    (h : (t.map g).Nodup) : ((updateRow key k f t).map g).Nodup := by
  rw [map_updateRow hf]
  exact h

theorem updateRow_of_forall_ne {t : List α} (h : ∀ x ∈ t, key x ≠ k) :
    updateRow key k f t = t := by
  unfold updateRow
  rw [List.map_congr_left (g := id) fun x hx => by simp [h x hx], List.map_id]

/-- Two tables that correspond row by row still do when the corresponding rows are updated. -/
theorem forall₂_updateRow {β : Type} {R : α → β → Prop} {key' : β → κ} {g : β → β} {t : List α}
    {t' : List β} (hkey : ∀ x y, R x y → key x = key' y) (hf : ∀ x y, R x y → R (f x) (g y))
    (h : List.Forall₂ R t t') : List.Forall₂ R (updateRow key k f t) (updateRow key' k g t') := by
  induction h with
  | nil => exact .nil
  | @cons x y _ _ hxy _ ih =>
    rw [updateRow_cons, updateRow_cons, hkey x y hxy]
    refine .cons ?_ ih
    split
    · exact hf x y hxy
    · exact hxy

/-- What is said of some row of one table is said of some row of the other. -/
theorem exists_mem_iff_of_forall₂ {β : Type} {R : α → β → Prop} {p : α → Prop} {q : β → Prop}
    {t : List α} {t' : List β} (hR : ∀ x y, R x y → (p x ↔ q y)) (h : List.Forall₂ R t t') :
    (∃ x ∈ t, p x) ↔ ∃ y ∈ t', q y := by
  induction h with
  | nil => simp
  | cons hxy _ ih => simp only [List.exists_mem_cons_iff, hR _ _ hxy, ih]

/-- Updating the row that was appended last. -/
theorem updateRow_append_singleton {t : List α} {x : α} (h : ∀ y ∈ t, key y ≠ k) (hx : key x = k) :
    updateRow key k f (t ++ [x]) = t ++ [f x] := by
  have ht : t.map (fun y => if key y = k then f y else y) = t := updateRow_of_forall_ne h
  rw [updateRow, List.map_append, ht]
  simp [hx]

/-- **How an update moves a sum.** When keys are unique, the row with key `k` leaves the sum
with its old value and enters it with its new one. -/
theorem sumWhere_updateRow [AddCommGroup M] {p : α → Prop} [DecidablePred p] {g : α → M}
    {t : List α} (hnodup : (t.map key).Nodup) {r : α} (hr : r ∈ t) (hk : key r = k) :
    sumWhere p g (updateRow key k f t) =
      sumWhere p g t - (if p r then g r else 0) + (if p (f r) then g (f r) else 0) := by
  induction t with
  | nil => simp at hr
  | cons x t ih =>
    rw [List.map_cons, List.nodup_cons] at hnodup
    rw [updateRow_cons, sumWhere_cons, sumWhere_cons]
    by_cases hx : key x = k
    · have hrx : r = x := by
        rcases List.mem_cons.1 hr with h | h
        · exact h
        · exact absurd (List.mem_map.2 ⟨r, h, hk.trans hx.symm⟩) hnodup.1
      have hrest : updateRow key k f t = t := updateRow_of_forall_ne fun y hy hyk =>
        hnodup.1 (List.mem_map.2 ⟨y, hy, hyk.trans hx.symm⟩)
      rw [if_pos hx, hrest, hrx]
      abel
    · have hrt : r ∈ t := by
        rcases List.mem_cons.1 hr with h | h
        · exact absurd (h ▸ hk) hx
        · exact h
      rw [if_neg hx, ih hnodup.2 hrt]
      abel

/-- An update that changes neither which rows are selected nor their values leaves a sum alone. -/
theorem sumWhere_updateRow_of_eq [AddMonoid M] {p : α → Prop} [DecidablePred p] {g : α → M}
    {t : List α} (hp : ∀ x ∈ t, key x = k → (p (f x) ↔ p x))
    (hg : ∀ x ∈ t, key x = k → g (f x) = g x) :
    sumWhere p g (updateRow key k f t) = sumWhere p g t := by
  induction t with
  | nil => rfl
  | cons x t ih =>
    have ht := ih (fun y hy => hp y (List.mem_cons_of_mem _ hy))
      fun y hy => hg y (List.mem_cons_of_mem _ hy)
    rw [updateRow_cons, sumWhere_cons, sumWhere_cons, ht]
    by_cases hx : key x = k
    · simp [hx, hp x List.mem_cons_self hx, hg x List.mem_cons_self hx]
    · simp [hx]

end UpdateRow

/-! ### Unique keys -/

/-- In a table with unique keys a key names one row. -/
theorem eq_of_key_eq {key : α → κ} {t : List α} (hnodup : (t.map key).Nodup) {x y : α}
    (hx : x ∈ t) (hy : y ∈ t) (h : key x = key y) : x = y :=
  List.inj_on_of_nodup_map hnodup hx hy h

theorem nodup_map_append_singleton {key : α → κ} {t : List α} (hnodup : (t.map key).Nodup) {x : α}
    (hx : ∀ y ∈ t, key y ≠ key x) : ((t ++ [x]).map key).Nodup := by
  rw [List.map_append, List.nodup_append]
  refine ⟨hnodup, by simp, ?_⟩
  rintro _ ha _ hb rfl
  obtain ⟨y, hy, hkey⟩ := List.mem_map.1 ha
  simp only [List.map_cons, List.map_nil, List.mem_singleton] at hb
  exact hx y hy (hkey.trans hb)

/-- A unique key selects at most one row. -/
theorem length_filter_key_le_one [DecidableEq κ] {key : α → κ} {t : List α}
    (hnodup : (t.map key).Nodup) (k : κ) : (t.filter fun x => key x = k).length ≤ 1 := by
  have hcount := List.nodup_iff_count_le_one.1 hnodup k
  rw [List.count_eq_countP, List.countP_map, List.countP_eq_length_filter] at hcount
  simpa only [Function.comp_def, beq_eq_decide] using hcount

/-- A condition that fixes a unique key selects exactly one row when it selects any. -/
theorem length_filter_eq_one_iff [DecidableEq κ] {key : α → κ} {p : α → Prop} [DecidablePred p]
    {t : List α} (hnodup : (t.map key).Nodup) (hp : ∀ x y, p x → p y → key x = key y) :
    (t.filter p).length = 1 ↔ ∃ x ∈ t, p x := by
  constructor
  · intro h
    obtain ⟨x, hx⟩ := List.length_eq_one_iff.1 h
    have hmem : x ∈ t.filter p := by rw [hx]; exact List.mem_singleton_self x
    obtain ⟨hmem, hpx⟩ := List.mem_filter.1 hmem
    exact ⟨x, hmem, by simpa using hpx⟩
  · rintro ⟨x, hx, hpx⟩
    have hpos : 0 < (t.filter p).length :=
      List.length_pos_of_mem (List.mem_filter.2 ⟨hx, by simpa using hpx⟩)
    have hsub : List.Sublist (t.filter p) (t.filter fun y => key y = key x) :=
      List.monotone_filter_right t fun y hy => by
        simpa using hp y x (by simpa using hy) hpx
    have hle := hsub.length_le.trans (length_filter_key_le_one hnodup (key x))
    omega

/-- Of the rows that a sum selects, one with a unique key contributes once. -/
theorem sumWhere_eq_add_of_mem [DecidableEq κ] [AddCommMonoid M] {p : α → Prop} [DecidablePred p]
    {g : α → M} {key : α → κ} {t : List α} (hnodup : (t.map key).Nodup) {x : α} (hx : x ∈ t)
    (hp : p x) : sumWhere p g t = g x + sumWhere (fun y => p y ∧ key y ≠ key x) g t := by
  induction t with
  | nil => simp at hx
  | cons y t ih =>
    rw [List.map_cons, List.nodup_cons] at hnodup
    obtain ⟨hfresh, hnodup⟩ := hnodup
    rw [sumWhere_cons, sumWhere_cons]
    rcases List.mem_cons.1 hx with rfl | hx
    · have hothers : sumWhere p g t = sumWhere (fun y => p y ∧ key y ≠ key x) g t :=
        sumWhere_congr p fun z hz =>
          ⟨fun hpz => ⟨hpz, fun hkey => hfresh (hkey ▸ List.mem_map_of_mem hz)⟩, And.left⟩
      simp [hp, ← hothers]
    · have hne : key y ≠ key x := fun hkey => hfresh (hkey ▸ List.mem_map_of_mem hx)
      rw [ih hnodup hx]
      simp only [hne, ne_eq, not_false_eq_true, and_true]
      abel

/-- **Adding up groups.** The rows of `us`, added up for each selected row of a table with unique
keys, are the rows of `us` that name a selected row. -/
theorem sumWhere_groups {β : Type} [DecidableEq κ] [AddCommMonoid M] (p : α → Prop)
    [DecidablePred p] {key : α → κ} {k : β → κ} {g : β → M} {us : List β} {t : List α}
    (hnodup : (t.map key).Nodup) :
    sumWhere p (fun x => sumWhere (fun u => k u = key x) g us) t =
      sumWhere (fun u => ∃ x ∈ t, p x ∧ key x = k u) g us := by
  induction t with
  | nil => exact (sumWhere_eq_zero _ (by simp)).symm
  | cons x t ih =>
    rw [List.map_cons, List.nodup_cons] at hnodup
    obtain ⟨hfresh, hnodup⟩ := hnodup
    rw [sumWhere_cons, ih hnodup]
    by_cases hx : p x
    · rw [if_pos hx, ← sumWhere_or]
      · refine sumWhere_congr _ fun u _ => ?_
        simp [hx, eq_comm]
      · rintro u - hu ⟨y, hy, -, hkey⟩
        exact hfresh (List.mem_map.2 ⟨y, hy, hkey.trans hu⟩)
    · rw [if_neg hx, zero_add]
      refine sumWhere_congr _ fun u _ => ?_
      simp [hx]

/-! ### `INSERT … ON CONFLICT DO NOTHING` -/

section Firsts

variable [DecidableEq κ] (key : α → κ)

/-- The rows that are inserted when rows are offered one after another and one whose key is
`taken`, or has been offered before, is skipped. -/
def firsts : List κ → List α → List α
  | _, [] => []
  | taken, u :: us =>
    if key u ∈ taken then firsts taken us else u :: firsts (key u :: taken) us

theorem firsts_sublist (taken : List κ) (us : List α) :
    List.Sublist (firsts key taken us) us := by
  induction us generalizing taken with
  | nil => exact .slnil
  | cons u us ih =>
    unfold firsts
    split
    · exact (ih taken).cons u
    · exact (ih _).cons_cons u

/-- The keys that end up in the table. -/
theorem mem_map_firsts {taken : List κ} {us : List α} {k : κ} :
    k ∈ taken ∨ k ∈ (firsts key taken us).map key ↔ k ∈ taken ∨ k ∈ us.map key := by
  induction us generalizing taken with
  | nil => rfl
  | cons u us ih =>
    unfold firsts
    split
    next htaken => rw [ih]; grind
    next =>
      have := @ih (key u :: taken)
      simp only [List.map_cons, List.mem_cons] at this ⊢
      grind

/-- Offering one more row. -/
theorem firsts_append_singleton (taken : List κ) (us : List α) (u : α) :
    firsts key taken (us ++ [u]) =
      firsts key taken us ++ if key u ∈ taken ∨ key u ∈ us.map key then [] else [u] := by
  induction us generalizing taken with
  | nil => by_cases h : key u ∈ taken <;> simp [firsts, h]
  | cons x us ih =>
    rw [List.cons_append]
    unfold firsts
    split
    next htaken =>
      rw [ih]
      have hiff : (key u ∈ taken ∨ key u ∈ us.map key) ↔
          (key u ∈ taken ∨ key u ∈ (x :: us).map key) := by grind
      simp only [hiff]
    next =>
      rw [ih, List.cons_append]
      have hiff : (key u ∈ key x :: taken ∨ key u ∈ us.map key) ↔
          (key u ∈ taken ∨ key u ∈ (x :: us).map key) := by grind
      simp only [hiff]

/-- **Every row is inserted exactly when the keys are free and differ.** -/
theorem firsts_eq_self_iff {taken : List κ} {us : List α} :
    firsts key taken us = us ↔ (us.map key).Nodup ∧ ∀ u ∈ us, key u ∉ taken := by
  induction us generalizing taken with
  | nil => simp [firsts]
  | cons u us ih =>
    unfold firsts
    split
    next htaken =>
      have hshort : firsts key taken us ≠ u :: us := by
        intro h
        have hle := (firsts_sublist key taken us).length_le
        rw [h, List.length_cons] at hle
        omega
      simp [hshort, htaken]
    next hfree =>
      rw [List.cons.injEq, ih, List.map_cons, List.nodup_cons]
      grind

end Firsts

/-! ### The latest row -/

/-- When a new row comes after every row before it, it is the latest one. -/
theorem argmax_append_singleton [LinearOrder τ] {stamp : α → τ} {t : List α} {x : α}
    (h : ∀ y ∈ t, stamp y < stamp x) : (t ++ [x]).argmax stamp = some x := by
  rw [List.argmax_concat]
  cases ht : t.argmax stamp with
  | none => rfl
  | some y => simp [h y (List.argmax_mem ht)]

end Sql
