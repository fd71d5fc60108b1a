import Mathlib.Algebra.BigOperators.Group.List.Basic
import Mathlib.Algebra.GroupWithZero.Nat
import Mathlib.Data.Nat.Notation

/-!
# Texts in UTF-16 code units

Where a text is a sequence of UTF-16 code units, a character of the basic plane counts as one and any
other character as the two halves of a surrogate pair. `take` cuts such a text after `n` units. Half
of a pair at its end is no character: whoever encodes the text writes U+FFFD for it.

A text cut after `n` units has `n` of them, or all it had (`size_take`), and the units at the end of a
text tell what is in front of them (`append_inj_of_size`).
-/

namespace Utf16

/-- The code units of a character. -/
def units (c : Char) : ℕ := if c.toNat < 0x10000 then 1 else 2

/-- The code units of a text. -/
def size (cs : List Char) : ℕ := (cs.map units).sum

/-- The first `n` code units. -/
def take : ℕ → List Char → List Char
  | _, [] => []
  | n, c :: cs =>
    if n = 0 then []
    else if units c ≤ n then c :: take (n - units c) cs
    else ['\uFFFD']

theorem units_pos (c : Char) : 0 < units c := by
  unfold units
  split <;> omega

theorem units_le (c : Char) : units c ≤ 2 := by
  unfold units
  split <;> omega

@[simp] theorem size_nil : size [] = 0 := rfl

@[simp] theorem size_cons (c : Char) (cs : List Char) : size (c :: cs) = units c + size cs := by
  rw [size, List.map_cons, List.sum_cons]
  rfl

@[simp] theorem size_append (cs ds : List Char) : size (cs ++ ds) = size cs + size ds := by
  rw [size, List.map_append, List.sum_append]
  rfl

/-- Every character counts. -/
theorem length_le_size (cs : List Char) : cs.length ≤ size cs := by
  induction cs with
  | nil => exact Nat.le_refl 0
  | cons c cs ih =>
    have hc := units_pos c
    rw [List.length_cons, size_cons]
    omega

theorem size_take (n : ℕ) (cs : List Char) : size (take n cs) = min n (size cs) := by
  induction cs generalizing n with
  | nil => simp [take]
  | cons c cs ih =>
    rw [take, size_cons]
    split
    next hn =>
      rw [hn, Nat.zero_min]
      rfl
    next hn =>
      split
      next hle =>
        rw [size_cons, ih]
        omega
      next hlt =>
        -- one unit is left, and the character has two
        have hc := units_le c
        have hhalf : size ['\uFFFD'] = 1 := rfl
        rw [hhalf]
        omega

example : take 3 ['😀', '😀'] = ['😀', '\uFFFD'] := by decide

/-- **Equally many units at the end** of one text are the same ones, after the same characters. -/
theorem append_inj_of_size {as bs cs ds : List Char} (h : as ++ cs = bs ++ ds)
    (hsize : size cs = size ds) : as = bs ∧ cs = ds := by
  -- the longer one of the two ends has the units of some more characters
  have hnone : ∀ {xs ys zs : List Char}, xs = ys ++ zs → size xs = size zs → ys = [] := by
    intro xs ys zs hxs hsize
    have hys := length_le_size ys
    rw [hxs, size_append] at hsize
    exact List.length_eq_zero_iff.1 (by omega)
  rcases List.append_eq_append_iff.1 h with ⟨es, hbs, hcs⟩ | ⟨es, has, hds⟩
  · obtain rfl := hnone hcs hsize
    exact ⟨by rw [hbs, List.append_nil], hcs⟩
  · obtain rfl := hnone hds hsize.symm
    exact ⟨by rw [has, List.append_nil], hds.symm⟩

end Utf16
