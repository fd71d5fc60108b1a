import AccountOS.Num.Decimal
import AccountOS.Store.Doubles

/-!
# Numbers and dates as texts

`String(Number(n))` of a `BigInt` writes the shortest decimal that is converted to the same double,
the one nearest to the double when there are several. Below `2 ^ 53` that is the integer itself
(`shown_of_lt`); beyond, it may be another one. `toISOString` writes a time in UTC.
-/

namespace AccountOS

/-! ### `String(Number(n))` -/

/-- The multiple of `10 ^ j` nearest to the double `x` of those that are converted to `x`. -/
def nearestDecimal (x j : Nat) : Option Nat :=
  let lo := x / 10 ^ j * 10 ^ j
  let hi := lo + 10 ^ j
  if roundToDouble lo = x then
    if roundToDouble hi = x ∧ hi - x < x - lo then some hi else some lo
  else if roundToDouble hi = x then some hi
  else none

/-- The decimal with the fewest digits that is converted to the double `x`. -/
def shortestDecimal (x : Nat) : Nat :=
  ((List.range (x.log2 + 1)).reverse.findSome? (nearestDecimal x)).getD x

/-- The integer that the text of `Number(n)` stands for. -/
def shown (n : Int) : Int := (number n).sign * shortestDecimal (number n).natAbs

/-- `String(Number(n))`. -/
def numberText (n : Int) : String :=
  if 2 ^ 1024 ≤ (number n).natAbs then (if number n < 0 then "-Infinity" else "Infinity")
  else String.ofList (Decimal.signedText (shown n))

/-- The text of `Number(n)` is that of `n`. -/
def ShownExactly (n : Int) : Prop := (number n).natAbs < 2 ^ 1024 ∧ shown n = n

instance (n : Int) : Decidable (ShownExactly n) := inferInstanceAs (Decidable (_ ∧ _))

section NumberText

variable {n : Int} {x j m : Nat}

theorem read_numberText_of_infinite (h : 2 ^ 1024 ≤ (number n).natAbs) :
    Decimal.read (numberText n).toList = none := by
  rw [numberText, if_pos h]
  split <;> rfl

theorem read_numberText_of_lt (h : (number n).natAbs < 2 ^ 1024) :
    Decimal.read (numberText n).toList = some (shown n : ℚ) := by
  rw [numberText, if_neg (Nat.not_le.2 h), String.toList_ofList, Decimal.read_signedText]

/-- Reading the text of a number gives the integer back exactly when it is shown as itself. -/
theorem read_numberText_eq_iff :
    Decimal.read (numberText n).toList = some (n : ℚ) ↔ ShownExactly n := by
  rcases Nat.lt_or_ge (number n).natAbs (2 ^ 1024) with hlt | hge
  · rw [read_numberText_of_lt hlt, Option.some.injEq, Int.cast_inj, ShownExactly]
    exact ⟨fun h => ⟨hlt, h⟩, fun h => h.2⟩
  · -- `Infinity` is no decimal text
    rw [read_numberText_of_infinite hge]
    constructor
    · exact fun h => by cases h
    · exact fun h => absurd h.1 (Nat.not_lt.2 hge)

/-- The text of a number has no quote in front. -/
theorem head?_numberText : (numberText n).toList.head? ≠ some '\'' := by
  unfold numberText
  split
  · split <;> decide
  · rw [String.toList_ofList]
    intro h
    rcases Decimal.head?_signedText h with hsign | hdigit
    · cases hsign
    · cases hdigit

theorem roundToDouble_of_nearestDecimal (h : nearestDecimal x j = some m) :
    roundToDouble m = x := by
  -- each candidate is taken only after it has been rounded back
  unfold nearestDecimal at h
  dsimp only at h
  split at h
  next hlo =>
    split at h
    next hhi =>
      rw [← Option.some.inj h]
      exact hhi.1
    next =>
      rw [← Option.some.inj h]
      exact hlo
  next =>
    split at h
    next hhi =>
      rw [← Option.some.inj h]
      exact hhi
    next => cases h

/-- Below `2 ^ 53` no other integer is converted to the same double. -/
theorem eq_of_roundToDouble_eq (hx : x < 2 ^ 53) (h : roundToDouble m = x) : m = x := by
  rcases Nat.le_total m (2 ^ 53) with hm | hm
  · rw [← h]
    exact (roundToDouble_eq_self hm).symm
  · have hmono := roundToDouble_mono hm
    rw [roundToDouble_eq_self le_rfl, h] at hmono
    exact absurd hx (Nat.not_lt.2 hmono)

theorem shortestDecimal_of_lt (hx : x < 2 ^ 53) : shortestDecimal x = x := by
  unfold shortestDecimal
  cases hfind : (List.range (x.log2 + 1)).reverse.findSome? (nearestDecimal x) with
  | none => rfl
  | some m =>
    obtain ⟨j, -, hj⟩ := List.exists_of_findSome?_eq_some hfind
    exact eq_of_roundToDouble_eq hx (roundToDouble_of_nearestDecimal hj)

/-- **Below `2 ^ 53` an integer is shown as itself.** -/
theorem shown_of_lt (h : |n| < 2 ^ 53) : ShownExactly n := by
  -- the conversion is exact here, and no shorter decimal is rounded to the same double
  have hexact : number n = n := rounds_number.exact n (le_of_lt h)
  have habs : n.natAbs < 2 ^ 53 := by
    rw [← Int.natCast_natAbs] at h
    exact_mod_cast h
  constructor
  · rw [hexact]
    refine lt_of_lt_of_le habs ?_
    gcongr
    · norm_num
    · norm_num
  · rw [shown, hexact, shortestDecimal_of_lt habs]
    exact Int.sign_mul_natAbs n

end NumberText

/-! ### `toISOString` -/

/-- A number with zeros in front, to `width` digits. -/
def padded (width n : Nat) : List Char :=
  List.replicate (width - (Nat.toDigits 10 n).length) '0' ++ Nat.toDigits 10 n

/-- Year, month and day of the day `days` after 1 January 1970. -/
def civilDate (days : Nat) : Nat × Nat × Nat :=
  -- counted in eras of 400 years from 1 March of the year 0
  let z := days + 719468
  let era := z / 146097
  let doe := z % 146097
  let yoe := (doe - doe / 1460 + doe / 36524 - doe / 146096) / 365
  let doy := doe - (365 * yoe + yoe / 4 - yoe / 100)
  let mp := (5 * doy + 2) / 153
  let day := doy - (153 * mp + 2) / 5 + 1
  let month := if mp < 10 then mp + 3 else mp - 9
  (yoe + era * 400 + (if month ≤ 2 then 1 else 0), month, day)

/-- `toISOString()` of the time `ms`. Years from 10000 on have a sign and six digits. -/
def toISOString (ms : Nat) : String :=
  let date := civilDate (ms / 86400000)
  let year := if date.1 ≤ 9999 then padded 4 date.1 else '+' :: padded 6 date.1
  String.ofList (year ++ '-' :: padded 2 date.2.1 ++ '-' :: padded 2 date.2.2 ++
    'T' :: padded 2 (ms / 3600000 % 24) ++ ':' :: padded 2 (ms / 60000 % 60) ++
    ':' :: padded 2 (ms / 1000 % 60) ++ '.' :: padded 3 (ms % 1000) ++ ['Z'])

example : toISOString 1709210096007 = "2024-02-29T12:34:56.007Z" := by decide +kernel

end AccountOS
