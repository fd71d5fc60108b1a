import AccountOS.Sql.Table

/-!
# A column of a row

`columnOf key col k t` is what the row with key `k` has in a column. What an update, an insert or a
change of every row does to it is all that there is to know of a state machine that lives in a
column.
-/

namespace Sql

variable {α κ τ : Type} [DecidableEq κ] {key : α → κ} {col : α → τ} {k : κ} {t : List α}

def columnOf (key : α → κ) (col : α → τ) (k : κ) (t : List α) : Option τ :=
  (t.find? fun x => key x = k).map col

theorem exists_of_columnOf {c : τ} (h : columnOf key col k t = some c) :
    ∃ x ∈ t, key x = k ∧ col x = c := by
  obtain ⟨x, hx, hc⟩ := Option.map_eq_some_iff.1 h
  have hk : key x = k := by simpa using List.find?_some hx
  exact ⟨x, List.mem_of_find?_eq_some hx, hk, hc⟩

/-- Where no key occurs twice, a row is the one of its key. -/
theorem columnOf_of_mem (unique : (t.map key).Nodup) {x : α} (hx : x ∈ t) :
    columnOf key col (key x) t = some (col x) := by
  induction t with
  | nil => cases hx
  | cons y t ih =>
    rw [List.map_cons, List.nodup_cons] at unique
    rw [columnOf, List.find?_cons]
    rcases List.mem_cons.1 hx with rfl | hx
    · simp
    · have hne : key y ≠ key x := fun h => unique.1 (h ▸ List.mem_map_of_mem hx)
      simp only [hne, decide_false]
      exact ih unique.2 hx

/-- Every row is changed, and keeps its key. -/
theorem columnOf_map {f : α → α} (hf : ∀ x, key (f x) = key x) :
    columnOf key col k (t.map f) = columnOf key (fun x => col (f x)) k t := by
  unfold columnOf
  rw [List.find?_map]
  simp only [Function.comp_def, hf, Option.map_map]

theorem columnOf_congr {col' : α → τ} (h : ∀ x ∈ t, key x = k → col x = col' x) :
    columnOf key col k t = columnOf key col' k t := by
  unfold columnOf
  cases hx : t.find? (fun x => key x = k) with
  | none => rfl
  | some x =>
    have hk : key x = k := by simpa using List.find?_some hx
    rw [Option.map_some, Option.map_some, h x (List.mem_of_find?_eq_some hx) hk]

/-- What the row has in the column after a change of every row. -/
theorem exists_columnOf_map {f : α → α} (hf : ∀ x, key (f x) = key x) {c : τ}
    (h : columnOf key col k t = some c) :
    ∃ x ∈ t, key x = k ∧ col x = c ∧ columnOf key col k (t.map f) = some (col (f x)) := by
  obtain ⟨x, hx, hc⟩ := Option.map_eq_some_iff.1 h
  have hk : key x = k := by simpa using List.find?_some hx
  refine ⟨x, List.mem_of_find?_eq_some hx, hk, hc, ?_⟩
  rw [columnOf_map hf, columnOf, hx]
  rfl

/-- An update of the row. -/
theorem columnOf_updateRow_self {f : α → α} (hf : ∀ x, key (f x) = key x) :
    columnOf key col k (updateRow key k f t) = columnOf key (fun x => col (f x)) k t := by
  unfold updateRow
  rw [columnOf_map (fun x => by split <;> simp [hf])]
  exact columnOf_congr fun x _ hk => by rw [if_pos hk]

/-- An update of another row. -/
theorem columnOf_updateRow_of_ne {f : α → α} {k' : κ} (hf : ∀ x, key (f x) = key x) (hne : k ≠ k') :
    columnOf key col k (updateRow key k' f t) = columnOf key col k t := by
  unfold updateRow
  rw [columnOf_map (fun x => by split <;> simp [hf])]
  exact columnOf_congr fun x _ hk => by rw [if_neg (by rw [hk]; exact hne)]

/-- A column that is set to a value. -/
theorem columnOf_const {c : τ} (hx : ∃ x ∈ t, key x = k) :
    columnOf key (fun _ => c) k t = some c := by
  obtain ⟨x, hx, hk⟩ := hx
  cases hfind : t.find? (fun x => key x = k) with
  | none => exact absurd hk (by simpa using List.find?_eq_none.1 hfind x hx)
  | some y =>
    rw [columnOf, hfind]
    rfl

/-- New rows do not change the rows that are there. -/
theorem columnOf_append_of_some {u : List α} {c : τ} (h : columnOf key col k t = some c) :
    columnOf key col k (t ++ u) = some c := by
  unfold columnOf at h ⊢
  obtain ⟨x, hx, hc⟩ := Option.map_eq_some_iff.1 h
  rw [List.find?_append, hx, Option.some_or, Option.map_some, hc]

/-- A change of the selected rows that changes their column leaves it in every row exactly if no row
is selected. -/
theorem map_comp_eq_iff {p : α → Prop} [DecidablePred p] {f : α → α}
    (hf : ∀ x, p x → col (f x) ≠ col x) (hkept : ∀ x, ¬ p x → f x = x) :
    t.map (col ∘ f) = t.map col ↔ t.filter (fun x => p x) = [] := by
  rw [List.map_inj_left, List.filter_eq_nil_iff]
  refine forall₂_congr fun x _ => ?_
  by_cases hp : p x
  · simp [hp, hf x hp]
  · simp [hp, hkept x hp]

end Sql
