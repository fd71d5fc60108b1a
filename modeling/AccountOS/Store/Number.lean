import Mathlib.Data.Rat.Floor
import Mathlib.Algebra.Order.Round

/-!
# Numbers

Money is kept in kobo as `BigInt`, an unbounded integer, here `Int`. Numbers that come out of
JSON are doubles; they are modelled by their exact values, in `ℚ`, and turned into `BigInt`
where the code does so.
-/

namespace AccountOS

/-- The error of `BigInt(x)` for a number `x` that is not an integer. -/
structure RangeError where
  message : String
deriving DecidableEq, Repr

/-- `BigInt(x)`. -/
def bigInt (x : ℚ) : Except RangeError Int :=
  if x.den = 1 then
    .ok x.num
  else
    .error ⟨"The number cannot be converted to a BigInt because it is not an integer"⟩

/-- `Math.round(x)`: the nearest integer, the greater one when two are equally near. -/
def mathRound (x : ℚ) : Int := ⌊x + 1 / 2⌋

/-- An integer is not rounded. -/
theorem mathRound_intCast (n : Int) : mathRound (n : ℚ) = n := by
  rw [mathRound, Int.floor_eq_iff]
  constructor <;> linarith

/-- The integer with 53 significant bits that is nearest to `n`, the even one of two that are
equally near. -/
def roundToDouble (n : Nat) : Nat :=
  let ulp := 2 ^ (n.log2 - 52)
  let q := n / ulp
  let r := n % ulp
  if 2 * r < ulp then q * ulp
  else if ulp < 2 * r then (q + 1) * ulp
  else if q % 2 = 0 then q * ulp
  else (q + 1) * ulp

/-- `Number(n)` of a `BigInt`, exact up to `2 ^ 53`. From `2 ^ 1024` on the number is `Infinity`,
which compares with every threshold as the value here does. -/
def number (n : Int) : Int := n.sign * roundToDouble n.natAbs

/-- Division of `BigInt`s drops the fractional part. -/
def bigIntDiv (n d : Int) : Int := n.tdiv d

@[simp] theorem bigInt_intCast (n : Int) : bigInt (n : ℚ) = .ok n := by
  simp [bigInt]

theorem bigInt_eq_ok {x : ℚ} {n : Int} : bigInt x = .ok n ↔ x = n := by
  constructor
  · intro h
    unfold bigInt at h
    split at h
    next hden =>
      cases h
      exact ((Rat.den_eq_one_iff x).1 hden).symm
    next => cases h
  · rintro rfl
    exact bigInt_intCast n

end AccountOS
