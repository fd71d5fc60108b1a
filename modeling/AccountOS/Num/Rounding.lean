import Mathlib.Algebra.BigOperators.Group.List.Basic
import Mathlib.Algebra.Order.Floor.Ring
import Mathlib.Algebra.Order.SuccPred
import Mathlib.Tactic.Linarith

/-!
# Rounding

Two kinds of rounding and what they keep. The parts of a whole that are rounded down never add up
to more than the whole, and each falls short by less than 1 (`sum_floor_le`,
`sum_lt_sum_floor_add_length`). A monotone rounding that leaves two neighbours as they are does not
confuse the sides of the gap between them, however coarse it is elsewhere (`Rounds.map_le_iff`,
`Rounds.le_map_iff`).
-/

namespace Rounding

/-! ### Parts that are rounded down -/

section Floor

variable {K ι : Type*} [Field K] [LinearOrder K] [FloorRing K]

/-- The parts of a list, each rounded down. -/
def floors (f : ι → K) (l : List ι) : List Int := l.map fun x => ⌊f x⌋

@[simp] theorem floors_nil (f : ι → K) : floors f [] = [] := rfl

@[simp] theorem floors_cons (f : ι → K) (x : ι) (l : List ι) :
    floors f (x :: l) = ⌊f x⌋ :: floors f l := rfl

variable [IsStrictOrderedRing K]

/-- Rounding down does not add. -/
theorem sum_floor_le (f : ι → K) (l : List ι) : ((floors f l).sum : K) ≤ (l.map f).sum := by
  induction l with
  | nil => simp
  | cons x l ih =>
    have hx : (⌊f x⌋ : K) ≤ f x := Int.floor_le (f x)
    rw [floors_cons, List.sum_cons, List.map_cons, List.sum_cons, Int.cast_add]
    exact add_le_add hx ih

/-- Rounding down takes away less than 1 from each part. -/
theorem sum_le_sum_floor_add_length (f : ι → K) (l : List ι) :
    (l.map f).sum ≤ (floors f l).sum + l.length := by
  induction l with
  | nil => simp
  | cons x l ih =>
    have hx : f x < ⌊f x⌋ + 1 := Int.lt_floor_add_one (f x)
    rw [floors_cons, List.sum_cons, List.map_cons, List.sum_cons, List.length_cons, Int.cast_add,
      Nat.cast_add, Nat.cast_one]
    linarith

theorem sum_lt_sum_floor_add_length (f : ι → K) {l : List ι} (hl : l ≠ []) :
    (l.map f).sum < (floors f l).sum + l.length := by
  cases l with
  | nil => exact absurd rfl hl
  | cons x l =>
    have hx : f x < ⌊f x⌋ + 1 := Int.lt_floor_add_one (f x)
    have hrest := sum_le_sum_floor_add_length f l
    rw [floors_cons, List.sum_cons, List.map_cons, List.sum_cons, List.length_cons, Int.cast_add,
      Nat.cast_add, Nat.cast_one]
    linarith

end Floor

/-! ### Monotone roundings -/

section Monotone

variable {α : Type*} [LinearOrder α]

/-- A monotone rounding that leaves the elements of `s` as they are. -/
structure Rounds (f : α → α) (s : Set α) : Prop where
  mono : Monotone f
  exact : ∀ x ∈ s, f x = x

namespace Rounds

variable {f : α → α} {s : Set α} {t t' x : α}

/-- An upper bound whose successor is exact, too. -/
theorem map_le_iff (h : Rounds f s) (ht : t ∈ s) (ht' : t' ∈ s) (hcov : t ⋖ t') :
    f x ≤ t ↔ x ≤ t := by
  constructor
  · intro hx
    by_contra hlt
    have hle : t' ≤ x := hcov.ge_of_gt (not_le.1 hlt)
    have hround : f t' ≤ f x := h.mono hle
    rw [h.exact t' ht'] at hround
    exact absurd (hround.trans hx) (not_le.2 hcov.lt)
  · intro hx
    rw [← h.exact t ht]
    exact h.mono hx

/-- A lower bound whose predecessor is exact, too. -/
theorem le_map_iff (h : Rounds f s) (ht : t ∈ s) (ht' : t' ∈ s) (hcov : t' ⋖ t) :
    t ≤ f x ↔ t ≤ x := by
  rw [← not_lt, ← not_lt, not_iff_not]
  constructor
  · intro hx
    have hle : f x ≤ t' := hcov.le_of_lt hx
    exact ((h.map_le_iff ht' ht hcov).1 hle).trans_lt hcov.lt
  · intro hx
    have hle : x ≤ t' := hcov.le_of_lt hx
    exact ((h.map_le_iff ht' ht hcov).2 hle).trans_lt hcov.lt

end Rounds

end Monotone

/-! ### The nearest multiple -/

/-- The multiple of `d` that is nearest to `n`, the even one of two that are equally near. -/
def nearest (d n : Nat) : Nat :=
  if 2 * (n % d) < d then n / d * d
  else if d < 2 * (n % d) then (n / d + 1) * d
  else if n / d % 2 = 0 then n / d * d
  else (n / d + 1) * d

section Nearest

variable {d : Nat}

theorem nearest_eq_or (d n : Nat) :
    nearest d n = n / d * d ∨ nearest d n = (n / d + 1) * d ∧ d ≤ 2 * (n % d) := by
  unfold nearest
  split
  · exact .inl rfl
  next hge =>
    split
    · exact .inr ⟨rfl, not_lt.1 hge⟩
    · split
      · exact .inl rfl
      · exact .inr ⟨rfl, not_lt.1 hge⟩

/-- A multiple below stays below. -/
theorem mul_le_nearest (hd : 0 < d) {c n : Nat} (h : c * d ≤ n) : c * d ≤ nearest d n := by
  have hc : c ≤ n / d := (Nat.le_div_iff_mul_le hd).2 h
  have hle : c * d ≤ n / d * d := Nat.mul_le_mul_right d hc
  rcases nearest_eq_or d n with heq | ⟨heq, -⟩
  · rw [heq]
    exact hle
  · rw [heq, Nat.add_mul]
    omega

/-- A multiple above stays above. -/
theorem nearest_le_mul (hd : 0 < d) {c n : Nat} (h : n ≤ c * d) : nearest d n ≤ c * d := by
  have hdiv : n / d * d + n % d = n := Nat.div_add_mod' n d
  rcases nearest_eq_or d n with heq | ⟨heq, hhalf⟩
  · rw [heq]
    omega
  · -- something is left over, so that the next multiple is not above `c * d`
    have hlt : n / d < c := by
      refine (Nat.div_lt_iff_lt_mul hd).2 (lt_of_le_of_ne h ?_)
      rintro rfl
      rw [Nat.mul_mod_left] at hhalf
      omega
    rw [heq]
    exact Nat.mul_le_mul_right d hlt

theorem nearest_mono (hd : 0 < d) : Monotone (nearest d) := by
  intro n m hnm
  have hdiv : n / d ≤ m / d := Nat.div_le_div_right hnm
  rcases lt_or_eq_of_le hdiv with hlt | heq
  · -- there is a multiple between the two
    have hn : n ≤ (n / d + 1) * d := by
      rw [Nat.add_mul, Nat.one_mul]
      have hmod : n % d < d := Nat.mod_lt n hd
      have hsum : n / d * d + n % d = n := Nat.div_add_mod' n d
      omega
    have hm : (n / d + 1) * d ≤ m := (Nat.mul_le_mul_right d hlt).trans (Nat.div_mul_le_self m d)
    exact (nearest_le_mul hd hn).trans (mul_le_nearest hd hm)
  · have hmod : n % d ≤ m % d := by
      have hn : n / d * d + n % d = n := Nat.div_add_mod' n d
      have hm : m / d * d + m % d = m := Nat.div_add_mod' m d
      rw [← heq] at hm
      omega
    have hle : n / d * d ≤ (n / d + 1) * d := Nat.mul_le_mul_right d (Nat.le_succ _)
    unfold nearest
    rw [← heq]
    split_ifs <;> omega

@[simp] theorem nearest_one (n : Nat) : nearest 1 n = n := by
  simp [nearest, Nat.mod_one]

end Nearest

end Rounding
