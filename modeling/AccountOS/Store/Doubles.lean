import AccountOS.Num.Rounding
import AccountOS.Store.Number
import Mathlib.Data.Int.SuccPred

/-!
# What a conversion to a number keeps

`Number(n)` of a `BigInt` keeps at most 53 significant bits. It is a monotone rounding that is exact
up to `2 ^ 53` in absolute value (`rounds_number`), so that a comparison with a threshold of the
rule schema, which is below that, comes out as it does in exact arithmetic.
-/

namespace AccountOS

open Rounding

/-- The unit in the last place of the number that `n` is converted to. -/
def ulp (n : Nat) : Nat := 2 ^ (n.log2 - 52)

theorem ulp_pos (n : Nat) : 0 < ulp n := Nat.two_pow_pos _

theorem roundToDouble_eq_nearest (n : Nat) : roundToDouble n = nearest (ulp n) n := rfl

@[simp] theorem roundToDouble_zero : roundToDouble 0 = 0 := rfl

/-- Up to `2 ^ 53` no bit is lost. -/
theorem roundToDouble_eq_self {n : Nat} (h : n ≤ 2 ^ 53) : roundToDouble n = n := by
  rw [roundToDouble_eq_nearest]
  rcases lt_or_eq_of_le h with hlt | rfl
  · have hlog : n.log2 - 52 = 0 := by
      by_cases hn : n = 0
      · rw [hn, Nat.log2_zero]
      · have hbits := (Nat.log2_lt hn).2 hlt
        omega
    rw [ulp, hlog, pow_zero, nearest_one]
  · -- `2 ^ 53` is even, so that its last bit may go
    rw [ulp, Nat.log2_two_pow]
    rfl

/-- A power of two with as many bits is a multiple of the last place. -/
theorem exists_mul_ulp {n k : Nat} (hk : n.log2 ≤ k) : ∃ c, 2 ^ k = c * ulp n := by
  refine ⟨2 ^ (k - (n.log2 - 52)), ?_⟩
  rw [ulp, ← pow_add]
  congr 1
  omega

theorem roundToDouble_mono : Monotone roundToDouble := by
  intro n m hnm
  rcases Nat.eq_zero_or_pos n with rfl | hn
  · exact Nat.zero_le _
  have hn₀ : n ≠ 0 := Nat.pos_iff_ne_zero.1 hn
  have hm₀ : m ≠ 0 := Nat.pos_iff_ne_zero.1 (hn.trans_le hnm)
  rw [roundToDouble_eq_nearest, roundToDouble_eq_nearest]
  have hlog : n.log2 ≤ m.log2 := (Nat.le_log2 hm₀).2 ((Nat.log2_self_le hn₀).trans hnm)
  rcases lt_or_eq_of_le hlog with hlt | heq
  · -- a power of two is between the two
    have hbelow : n ≤ 2 ^ (n.log2 + 1) := le_of_lt Nat.lt_log2_self
    have habove : 2 ^ m.log2 ≤ m := Nat.log2_self_le hm₀
    obtain ⟨c, hc⟩ := exists_mul_ulp (Nat.le_succ n.log2)
    obtain ⟨c', hc'⟩ := exists_mul_ulp (le_refl m.log2)
    calc nearest (ulp n) n ≤ 2 ^ (n.log2 + 1) := by
          rw [hc] at hbelow ⊢
          exact nearest_le_mul (ulp_pos n) hbelow
      _ ≤ 2 ^ m.log2 := Nat.pow_le_pow_right two_pos hlt
      _ ≤ nearest (ulp m) m := by
          rw [hc'] at habove ⊢
          exact mul_le_nearest (ulp_pos m) habove
  · have hulp : ulp n = ulp m := by rw [ulp, ulp, heq]
    rw [hulp]
    exact nearest_mono (ulp_pos m) hnm

/-! ### Of an integer -/

theorem number_of_nonneg {n : Int} (h : 0 ≤ n) : number n = roundToDouble n.natAbs := by
  rcases h.eq_or_lt with rfl | hpos
  · rfl
  · rw [number, Int.sign_eq_one_of_pos hpos, one_mul]

theorem number_neg (n : Int) : number (-n) = -number n := by
  rw [number, number, Int.sign_neg, Int.natAbs_neg, neg_mul]

theorem number_nonneg {n : Int} (h : 0 ≤ n) : 0 ≤ number n := by
  rw [number_of_nonneg h]
  exact Int.natCast_nonneg _

theorem number_mono_of_nonneg {n m : Int} (hn : 0 ≤ n) (hnm : n ≤ m) : number n ≤ number m := by
  have habs : n.natAbs ≤ m.natAbs := by omega
  rw [number_of_nonneg hn, number_of_nonneg (hn.trans hnm)]
  exact_mod_cast roundToDouble_mono habs

theorem number_mono {n m : Int} (hnm : n ≤ m) : number n ≤ number m := by
  rcases le_total 0 n with hn | hn
  · exact number_mono_of_nonneg hn hnm
  have hneg : number n ≤ 0 := by
    rw [← neg_nonneg, ← number_neg]
    exact number_nonneg (neg_nonneg.2 hn)
  rcases le_total 0 m with hm | hm
  · exact hneg.trans (number_nonneg hm)
  · rw [← neg_le_neg_iff, ← number_neg, ← number_neg]
    exact number_mono_of_nonneg (neg_nonneg.2 hm) (neg_le_neg hnm)

/-- The integers that a double holds exactly, with all that are closer to 0. -/
def exactIntegers : Set Int := {n | |n| ≤ 2 ^ 53}

/-- **`Number(n)` is a monotone rounding** that is exact up to `2 ^ 53`. -/
theorem rounds_number : Rounds number exactIntegers where
  mono := fun _ _ hnm => number_mono hnm
  exact n hn := by
    have hn : |n| ≤ 2 ^ 53 := hn
    have habs : n.natAbs ≤ 2 ^ 53 := by
      rw [← Int.natCast_natAbs] at hn
      exact_mod_cast hn
    rw [number, roundToDouble_eq_self habs]
    exact Int.sign_mul_natAbs n

/-- A threshold of the schema and its neighbours are exact. -/
theorem mem_exactIntegers {t : Int} (h : |t| ≤ 2 ^ 53 - 1) :
    t - 1 ∈ exactIntegers ∧ t ∈ exactIntegers ∧ t + 1 ∈ exactIntegers := by
  rw [abs_le] at h
  simp only [exactIntegers, Set.mem_ofPred, abs_le]
  omega

section Threshold

variable {t n : Int} (h : |t| ≤ 2 ^ 53 - 1)
include h

theorem number_le_iff : number n ≤ t ↔ n ≤ t :=
  rounds_number.map_le_iff (mem_exactIntegers h).2.1 (mem_exactIntegers h).2.2
    (Order.covBy_add_one t)

theorem le_number_iff : t ≤ number n ↔ t ≤ n :=
  rounds_number.le_map_iff (mem_exactIntegers h).2.1 (mem_exactIntegers h).1
    (Order.sub_one_covBy t)

theorem number_lt_iff : number n < t ↔ n < t := by
  rw [← not_le, le_number_iff h, not_le]

theorem number_eq_iff : number n = t ↔ n = t := by
  rw [le_antisymm_iff, le_antisymm_iff, number_le_iff h, le_number_iff h]

end Threshold

end AccountOS
