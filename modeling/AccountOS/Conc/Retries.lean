import Mathlib.Data.List.Range

/-!
# Work that is attempted at most `n` times

The attempts are made one after the other, each with one of three outcomes. A success and a
failure that is not worth another attempt end the work; after a transient failure the next attempt
is due, unless it was the last of the `n`. So the work ends by its first outcome that is not
transient, if that is among the first `n`, and is given up otherwise (`statusAfter_eq_verdict`).
-/

namespace Retries

/-- The outcome of an attempt. -/
inductive Outcome
  | ok | terminal | transient
deriving DecidableEq, Repr

/-- What has become of the work. -/
inductive Status
  | due | done | givenUp
deriving DecidableEq, Repr

/-- What an attempt leaves the work as, when it is the last one or not. -/
def Outcome.settle (last : Prop) [Decidable last] : Outcome → Status
  | ok => .done
  | terminal => .givenUp
  | transient => if last then .givenUp else .due

section Settle

variable {last : Prop} [Decidable last]

theorem Outcome.settle_eq_due_iff {o : Outcome} :
    o.settle last = .due ↔ o = .transient ∧ ¬ last := by
  cases o <;> simp [settle]

end Settle

variable (n : ℕ) (o : ℕ → Outcome)

/-- The work after `k` attempts. -/
def statusAfter : ℕ → Status
  | 0 => .due
  | k + 1 => (o k).settle (n ≤ k + 1)

/-- Each of the first `k` attempts was due when it was made. -/
def Reached (k : ℕ) : Prop := ∀ j < k, statusAfter n o j = .due

/-- What is to become of the work. -/
def verdict : Status :=
  match ((List.range n).map o).find? (· ≠ .transient) with
  | some .ok => .done
  | _ => .givenUp

variable {n o}

theorem reached_zero : Reached n o 0 := fun _ hj => absurd hj (Nat.not_lt_zero _)

/-- Another attempt is made. -/
theorem Reached.succ {k : ℕ} (h : Reached n o k) (hdue : statusAfter n o k = .due) :
    Reached n o (k + 1) := by
  intro j hj
  rcases Nat.lt_succ_iff_lt_or_eq.1 hj with hlt | rfl
  · exact h j hlt
  · exact hdue

/-- While attempts are due, all outcomes are transient. -/
theorem Reached.transient {k : ℕ} (h : Reached n o k) {j : ℕ} (hj : j + 1 < k) :
    o j = .transient :=
  (Outcome.settle_eq_due_iff.1 (h (j + 1) hj)).1

/-- **At most `n` attempts** are made. -/
theorem Reached.le {k : ℕ} (h : Reached n o k) (hn : 0 < n) : k ≤ n := by
  by_contra hlt
  have hdue : statusAfter n o n = .due := h n (by omega)
  obtain ⟨m, rfl⟩ : ∃ m, n = m + 1 := ⟨n - 1, by omega⟩
  exact (Outcome.settle_eq_due_iff.1 hdue).2 le_rfl

/-- An attempt that is due is one of the `n`. -/
theorem Reached.lt {k : ℕ} (h : Reached n o k) (hn : 0 < n) (hdue : statusAfter n o k = .due) :
    k < n :=
  (h.succ hdue).le hn

/-- The outcomes of the first `n` attempts, around the `k`th. -/
theorem map_range_split {k : ℕ} (hk : k < n) :
    ((List.range n).map o) =
      (List.range k).map o ++ o k :: (List.range (n - (k + 1))).map fun i => o (k + 1 + i) := by
  obtain ⟨m, rfl⟩ := Nat.exists_eq_add_of_lt hk
  have hm : k + m + 1 - (k + 1) = m := by omega
  rw [hm, show k + m + 1 = (k + 1) + m by omega, List.range_add, List.map_append, List.range_succ,
    List.map_append, List.map_map, List.append_assoc]
  rfl

/-- **What becomes of the work** is decided by the first outcome that is not transient. -/
theorem statusAfter_eq_verdict {k : ℕ} (h : Reached n o k) (hn : 0 < n)
    (hover : statusAfter n o k ≠ .due) : statusAfter n o k = verdict n o := by
  have hle : k ≤ n := h.le hn
  cases k with
  | zero => exact absurd rfl hover
  | succ k =>
    have hnone : ((List.range k).map o).find? (· ≠ .transient) = none := by
      rw [List.find?_eq_none]
      intro x hx
      obtain ⟨j, hj, rfl⟩ := List.mem_map.1 hx
      have hj : o j = .transient := h.transient (by simpa using hj)
      simp [hj]
    have hsplit := map_range_split (o := o) hle
    rw [verdict, hsplit, List.find?_append, hnone, Option.none_or]
    show (o k).settle (n ≤ k + 1) = _
    have hover : (o k).settle (n ≤ k + 1) ≠ .due := hover
    cases hk : o k with
    | ok => rfl
    | terminal => rfl
    | transient =>
      -- it was the last attempt, and nothing comes after it
      rw [hk] at hover
      have hlast : n ≤ k + 1 := by
        by_contra hlast
        exact hover (if_neg hlast)
      have hrest : n - (k + 1) = 0 := by omega
      rw [hrest, Outcome.settle, if_pos hlast]
      rfl

end Retries
