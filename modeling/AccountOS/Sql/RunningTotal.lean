import AccountOS.Sql.Table

/-!
# Append-only tables that carry a running total

Each row of such a table moves a total by some amount and stores what the total is after it.
The stored figure of the last row is then a cheap way to read the total, as long as every row
was written with the figure that its predecessors give. `Agrees` says that the cheap figure is
the real one, and `agrees_append` is the whole story of how it can stop being so: the new row
stored something else than the sum before it plus its own amount.
-/

namespace Sql

variable {α M τ : Type} [AddMonoid M]

/-- The amount by which a row moves the total and the figure it stores. -/
structure RunningTotal (α M : Type) where
  delta : α → M
  stored : α → M

namespace RunningTotal

variable (R : RunningTotal α M)

/-- The total, added up from the first row. -/
def total (t : List α) : M := (t.map R.delta).sum

/-- The figure stored in the last row, `0` before the first one. -/
def last (t : List α) : M := (t.getLast?.map R.stored).getD 0

/-- The cheap figure is the total. -/
def Agrees (t : List α) : Prop := R.last t = R.total t

@[simp] theorem total_nil : R.total [] = 0 := rfl

@[simp] theorem total_append (t u : List α) : R.total (t ++ u) = R.total t + R.total u := by
  simp [total]

@[simp] theorem total_singleton (x : α) : R.total [x] = R.delta x := by simp [total]

@[simp] theorem last_append_singleton (t : List α) (x : α) : R.last (t ++ [x]) = R.stored x := by
  simp [last]

@[simp] theorem agrees_nil : R.Agrees [] := rfl

/-- **A row keeps the agreement exactly when it stores the sum before it plus its own amount.** -/
theorem agrees_append (t : List α) (x : α) :
    R.Agrees (t ++ [x]) ↔ R.stored x = R.total t + R.delta x := by
  unfold Agrees
  rw [last_append_singleton, total_append, total_singleton]

/-- Every row stores the sum of the rows up to it. -/
def Exact (t : List α) : Prop :=
  ∀ u x v, t = u ++ x :: v → R.stored x = R.total (u ++ [x])

@[simp] theorem exact_nil : R.Exact [] := by
  intro u x v h
  simp at h

/-- A new row keeps it so exactly when it stores the sum before it plus its own amount. -/
theorem exact_append_singleton (t : List α) (x : α) :
    R.Exact (t ++ [x]) ↔ R.Exact t ∧ R.stored x = R.total t + R.delta x := by
  constructor
  · intro h
    refine ⟨fun u y v ht => h u y (v ++ [x]) (by simp [ht]), ?_⟩
    have hlast := h t x [] rfl
    rwa [total_append, total_singleton] at hlast
  · rintro ⟨ht, hx⟩ u y v heq
    rcases List.eq_nil_or_concat v with rfl | ⟨v, z, rfl⟩
    · obtain ⟨rfl, hy⟩ := List.append_inj' heq rfl
      obtain rfl : x = y := by simpa using hy
      rw [total_append, total_singleton, hx]
    · -- the row is one of the old ones
      rw [List.concat_eq_append, ← List.cons_append, ← List.append_assoc] at heq
      exact ht u y v (List.append_inj' heq rfl).1

/-- When the rows arrive in increasing order of their stamps, the figure of the row with the
greatest stamp is the figure of the last row. -/
theorem stored_argmax_eq_last [LinearOrder τ] {stamp : α → τ} {t : List α}
    (h : t.Pairwise fun x y => stamp x < stamp y) :
    ((t.argmax stamp).map R.stored).getD 0 = R.last t := by
  rcases List.eq_nil_or_concat t with rfl | ⟨t, x, rfl⟩
  · rfl
  · rw [List.concat_eq_append] at h ⊢
    rw [List.pairwise_append] at h
    rw [argmax_append_singleton fun y hy => h.2.2 y hy x (List.mem_singleton_self x),
      last_append_singleton]
    rfl

end RunningTotal

end Sql
