import AccountOS.Sql.Table

/-!
# Tables that agree on some of their rows

A query that only looks at the rows with `q` gets one answer from two tables that have the same
such rows; a statement that only writes other rows leaves them the same.
-/

namespace Sql

variable {α κ M : Type}

open Classical in
/-- The rows with `q` are the same, in the same order. -/
def SameRows (q : α → Prop) (t t' : List α) : Prop := t.filter q = t'.filter q

namespace SameRows

variable {q : α → Prop} {t t' t'' : List α}

@[refl] theorem refl (t : List α) : SameRows q t t := Eq.refl _

theorem of_eq (h : t = t') : SameRows q t t' := h ▸ refl t

theorem symm (h : SameRows q t t') : SameRows q t' t := Eq.symm h

theorem trans (h : SameRows q t t') (h' : SameRows q t' t'') : SameRows q t t'' := Eq.trans h h'

/-! ### Queries -/

section Queries

variable {p : α → Prop} [DecidablePred p]

/-- The rows of a query that selects rows with `q` only. -/
theorem filter_eq (h : SameRows q t t') (hp : ∀ x ∈ t, p x → q x) (hp' : ∀ x ∈ t', p x → q x) :
    t.filter p = t'.filter p := by
  classical
  have hnarrow : ∀ u : List α, (∀ x ∈ u, p x → q x) → (u.filter q).filter p = u.filter p := by
    intro u hu
    rw [List.filter_filter]
    refine List.filter_congr fun x hx => ?_
    by_cases hpx : p x
    · simp [hpx, hu x hx hpx]
    · simp [hpx]
  have hslice : t.filter q = t'.filter q := by
    unfold SameRows at h
    convert h
  rw [← hnarrow t hp, ← hnarrow t' hp', hslice]

/-- The condition may be put in another way for each table. -/
theorem filter_eq_filter {p' : α → Prop} [DecidablePred p'] (h : SameRows q t t')
    (hp : ∀ x ∈ t, p x ↔ p' x) (hq : ∀ x ∈ t, p x → q x) (hq' : ∀ x ∈ t', p' x → q x) :
    t.filter p = t'.filter p' := by
  have hsame : t.filter p = t.filter p' := by
    refine List.filter_congr fun x hx => ?_
    rw [decide_eq_decide]
    exact hp x hx
  rw [hsame]
  exact h.filter_eq (fun x hx hpx => hq x hx ((hp x hx).2 hpx)) hq'

theorem find?_eq (h : SameRows q t t') (hp : ∀ x ∈ t, p x → q x) (hp' : ∀ x ∈ t', p x → q x) :
    (t.find? fun x => p x) = t'.find? fun x => p x := by
  rw [← List.head?_filter, ← List.head?_filter, h.filter_eq hp hp']

omit [DecidablePred p] in
theorem exists_iff (h : SameRows q t t') (hp : ∀ x ∈ t, p x → q x) (hp' : ∀ x ∈ t', p x → q x) :
    (∃ x ∈ t, p x) ↔ ∃ x ∈ t', p x := by
  classical
  have hfilter := h.filter_eq hp hp'
  have hmem : ∀ x, (x ∈ t ∧ p x) ↔ (x ∈ t' ∧ p x) := by
    intro x
    simpa using (Eq.congr_right (congrArg (x ∈ ·) hfilter)).1 rfl
  exact exists_congr hmem

theorem sumWhere_eq [AddMonoid M] {g : α → M} (h : SameRows q t t') (hp : ∀ x ∈ t, p x → q x)
    (hp' : ∀ x ∈ t', p x → q x) : sumWhere p g t = sumWhere p g t' := by
  unfold sumWhere
  rw [h.filter_eq hp hp']

end Queries

/-- No row is selected from the one table, and none from the other. -/
theorem forall_not_iff {p : α → Prop} (h : SameRows q t t') (hp : ∀ x ∈ t, p x → q x)
    (hp' : ∀ x ∈ t', p x → q x) : (∀ x ∈ t, ¬ p x) ↔ ∀ x ∈ t', ¬ p x := by
  have hiff := not_congr (h.exists_iff hp hp')
  push Not at hiff
  exact hiff

/-! ### The rows alone -/

section Alone

variable {p : α → Prop} [DecidablePred p] [DecidablePred q]

/-- The rows with `q`, without the others. -/
theorem filter_self (q : α → Prop) [DecidablePred q] (t : List α) : SameRows q t (t.filter q) := by
  unfold SameRows
  rw [List.filter_filter]
  refine List.filter_congr fun x _ => ?_
  by_cases hx : q x <;> simp [hx]

/-- A query for rows with `q` does not need the others. -/
theorem filter_filter_of_imp (h : ∀ x ∈ t, p x → q x) : (t.filter q).filter p = t.filter p :=
  ((filter_self q t).filter_eq h fun x hx => h x (List.mem_of_mem_filter hx)).symm

theorem find?_filter_of_imp (h : ∀ x ∈ t, p x → q x) :
    ((t.filter q).find? fun x => p x) = t.find? fun x => p x :=
  ((filter_self q t).find?_eq h fun x hx => h x (List.mem_of_mem_filter hx)).symm

theorem sumWhere_filter_of_imp [AddMonoid M] {g : α → M} (h : ∀ x ∈ t, p x → q x) :
    sumWhere p g (t.filter q) = sumWhere p g t :=
  ((filter_self q t).sumWhere_eq h fun x hx => h x (List.mem_of_mem_filter hx)).symm

end Alone

/-! ### Writes -/

theorem append (h : SameRows q t t') (x : α) : SameRows q (t ++ [x]) (t' ++ [x]) := by
  unfold SameRows at h ⊢
  rw [List.filter_append, List.filter_append, h]

/-- A new row without `q`. -/
theorem append_of_not {x : α} (hx : ¬ q x) : SameRows q t (t ++ [x]) := by
  unfold SameRows
  simp [hx]

variable {key : α → κ} [DecidableEq κ] {k : κ} {f : α → α}

theorem filter_updateRow (hf : ∀ x, q (f x) ↔ q x) (t : List α) [DecidablePred q] :
    (updateRow key k f t).filter q = updateRow key k f (t.filter q) := by
  unfold updateRow
  rw [List.filter_map]
  congr 1
  refine List.filter_congr fun x _ => ?_
  by_cases hx : key x = k
  · simp [hx, hf x]
  · simp [hx]

theorem updateRow (h : SameRows q t t') (hf : ∀ x, q (f x) ↔ q x) :
    SameRows q (updateRow key k f t) (updateRow key k f t') := by
  unfold SameRows at h ⊢
  rw [filter_updateRow hf, filter_updateRow hf, h]

/-- An update of rows without `q`. -/
theorem updateRow_of_not (hf : ∀ x, q (f x) ↔ q x) (hk : ∀ x ∈ t, key x = k → ¬ q x) :
    SameRows q t (Sql.updateRow key k f t) := by
  unfold SameRows
  rw [filter_updateRow hf, updateRow_of_forall_ne]
  intro x hx hkey
  obtain ⟨hmem, hq⟩ := List.mem_filter.1 hx
  exact hk x hmem hkey (by simpa using hq)

/-- An update of the rows with `c`, none of which has `q`. -/
theorem map_of_not {c : α → Prop} [DecidablePred c] (hf : ∀ x, q (f x) ↔ q x)
    (hc : ∀ x ∈ t, c x → ¬ q x) : SameRows q t (t.map fun x => if c x then f x else x) := by
  classical
  unfold SameRows
  induction t with
  | nil => rfl
  | cons x t ih =>
    have htail := ih fun y hy => hc y (List.mem_cons_of_mem x hy)
    by_cases hx : c x
    · have hq := hc x List.mem_cons_self hx
      rw [List.map_cons, if_pos hx, List.filter_cons_of_neg (by simpa using hq),
        List.filter_cons_of_neg (by simpa [hf x] using hq)]
      exact htail
    · rw [List.map_cons, if_neg hx, List.filter_cons, List.filter_cons, htail]

end SameRows

/-! ### Rows after an update -/

/-- An update of the rows with `c` that keeps a column. -/
theorem map_map_ite {τ : Type} {c : α → Prop} [DecidablePred c] {f : α → α} {g : α → τ}
    (hf : ∀ x, g (f x) = g x) (t : List α) :
    (t.map fun x => if c x then f x else x).map g = t.map g := by
  rw [List.map_map]
  refine List.map_congr_left fun x _ => ?_
  by_cases hx : c x
  · rw [Function.comp_apply, if_pos hx, hf]
  · rw [Function.comp_apply, if_neg hx]

section UpdateRow

variable [DecidableEq κ] {key : α → κ} {k : κ} {f : α → α} {P : α → Prop} {t : List α}

/-- What an update keeps of every row. -/
theorem forall_mem_updateRow (hf : ∀ x, P x → P (f x)) (h : ∀ x ∈ t, P x) :
    ∀ x ∈ updateRow key k f t, P x := by
  intro x hx
  obtain ⟨y, hy, rfl⟩ := mem_updateRow.1 hx
  split
  next => exact hf y (h y hy)
  next => exact h y hy

theorem exists_mem_updateRow (hf : ∀ x, P x → P (f x)) (h : ∃ x ∈ t, P x) :
    ∃ x ∈ updateRow key k f t, P x := by
  obtain ⟨x, hx, hP⟩ := h
  by_cases hk : key x = k
  · exact ⟨f x, mem_updateRow_of_eq hx hk, hf x hP⟩
  · exact ⟨x, mem_updateRow_of_ne hx hk, hP⟩

end UpdateRow

/-! ### Statements -/

section Agrees

variable {σ σ' τ τ' ε : Type} {R : σ → τ → Prop}

/-- Two statements that fail with one error, or leave databases that `R` relates. -/
inductive Agrees (R : σ → τ → Prop) : Except ε σ → Except ε τ → Prop
  | ok {s : σ} {t : τ} (h : R s t) : Agrees R (.ok s) (.ok t)
  | error (e : ε) : Agrees R (.error e) (.error e)

/-- Two checks that fire together. -/
theorem Agrees.check {p p' : Prop} [Decidable p] [Decidable p'] {e : ε} {r : Except ε σ}
    {r' : Except ε τ} (hp : p ↔ p') (h : Agrees R r r') :
    Agrees R (if p then .error e else r) (if p' then .error e else r') := by
  by_cases hpos : p
  · rw [if_pos hpos, if_pos (hp.1 hpos)]
    exact .error e
  · rw [if_neg hpos, if_neg fun hpos' => hpos (hp.2 hpos')]
    exact h

theorem Agrees.map {R' : σ' → τ' → Prop} {f : σ → σ'} {g : τ → τ'} {r : Except ε σ}
    {r' : Except ε τ} (h : Agrees R r r') (hfg : ∀ s t, R s t → R' (f s) (g t)) :
    Agrees R' (r.map f) (r'.map g) := by
  cases h with
  | ok h => exact .ok (hfg _ _ h)
  | error e => exact .error e

end Agrees

end Sql
