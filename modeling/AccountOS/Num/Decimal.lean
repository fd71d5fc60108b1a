import Mathlib.Data.List.TakeWhile
import Mathlib.Data.Rat.Defs
import Mathlib.Algebra.Order.Field.Rat
import Mathlib.Tactic.FieldSimp
import Mathlib.Tactic.Ring

/-!
# Decimal texts

The text of an integer in the notation of JavaScript: its digits up to 21 of them, and from there on
its significant digits with an exponent, as in `1.25e+21`. `read` gives the value of such a text, and
takes every written number back to itself (`read_signedText`).
-/

namespace Decimal

/-! ### Writing -/

/-- The digits of a number without the zeros at their end. -/
def significant (n : Nat) : List Char :=
  ((Nat.toDigits 10 n).reverse.dropWhile fun c => c = '0').reverse

/-- One digit, the others after a point, and the exponent. -/
def exponentText (n : Nat) : List Char :=
  let exponent := 'e' :: '+' :: Nat.toDigits 10 ((Nat.toDigits 10 n).length - 1)
  match significant n with
  | [] => ['0']
  | [d] => d :: exponent
  | d :: ds => d :: '.' :: (ds ++ exponent)

def text (n : Nat) : List Char :=
  if (Nat.toDigits 10 n).length ≤ 21 then Nat.toDigits 10 n else exponentText n

def signedText (n : Int) : List Char :=
  if n < 0 then '-' :: text n.natAbs else text n.natAbs

/-! ### Reading -/

def readDigits (cs : List Char) : Option Nat :=
  if cs ≠ [] ∧ cs.all Char.isDigit then some (Nat.ofDigitChars 10 cs 0) else none

def readExponent : List Char → Option Nat
  | [] => some 0
  | 'e' :: '+' :: cs => readDigits cs
  | _ => none

/-- Digits, a fraction and an exponent. -/
def readUnsigned (cs : List Char) : Option ℚ :=
  let mantissa := cs.takeWhile fun c => c ≠ 'e'
  let whole := mantissa.takeWhile fun c => c ≠ '.'
  let fraction := (mantissa.dropWhile fun c => c ≠ '.').drop 1
  (readDigits (whole ++ fraction)).bind fun n =>
    (readExponent (cs.dropWhile fun c => c ≠ 'e')).map fun k =>
      n * 10 ^ k / 10 ^ fraction.length

def read (cs : List Char) : Option ℚ :=
  if cs.head? = some '-' then (readUnsigned cs.tail).map fun q => -q else readUnsigned cs

/-! ### Reading what was written -/

section Read

variable {p : Char → Bool} {whole fraction digits rest : List Char}

/-- A scan stops at the first character that it is not for. -/
theorem takeWhile_append_stop (h : ∀ c ∈ digits, p c = true) (hstop : ∀ c ∈ rest.head?, p c = false) :
    (digits ++ rest).takeWhile p = digits ∧ (digits ++ rest).dropWhile p = rest := by
  rw [List.takeWhile_append_of_pos h, List.dropWhile_append_of_pos h]
  cases rest with
  | nil => simp
  | cons c cs =>
    have hc : p c = false := hstop c rfl
    rw [List.takeWhile_cons_of_neg (by simp [hc]), List.dropWhile_cons_of_neg (by simp [hc])]
    exact ⟨List.append_nil _, rfl⟩

theorem readDigits_eq (hne : digits ≠ []) (h : ∀ c ∈ digits, c.isDigit) :
    readDigits digits = some (Nat.ofDigitChars 10 digits 0) :=
  if_pos ⟨hne, List.all_eq_true.2 h⟩

theorem isDigit_toDigits {n : Nat} : ∀ c ∈ Nat.toDigits 10 n, c.isDigit :=
  fun _ hc => Nat.isDigit_of_mem_toDigits (by decide) (by decide) hc

theorem readDigits_toDigits (n : Nat) : readDigits (Nat.toDigits 10 n) = some n := by
  rw [readDigits_eq Nat.toDigits_ne_nil isDigit_toDigits, Nat.ofDigitChars_ten_toDigits]

theorem ne_of_isDigit {c d : Char} (h : c.isDigit) (hd : d.isDigit = false) : c ≠ d := by
  rintro rfl
  rw [hd] at h
  cases h

/-- The value of digits with a fraction and an exponent, each of them possibly missing. -/
theorem readUnsigned_eq (hne : whole ≠ []) (hwhole : ∀ c ∈ whole, c.isDigit)
    {point : List Char} (hpoint : point = [] ∧ fraction = [] ∨ point = '.' :: fraction)
    (hfraction : ∀ c ∈ fraction, c.isDigit) {exponent : List Char} {k : Nat}
    (hexponent : exponent = [] ∨ ∃ cs, exponent = 'e' :: cs)
    (hk : readExponent exponent = some k) :
    readUnsigned (whole ++ point ++ exponent) =
      some ((Nat.ofDigitChars 10 (whole ++ fraction) 0 : ℚ) * 10 ^ k / 10 ^ fraction.length) := by
  -- neither a digit nor the point is the `e` of the exponent
  have hmantissa : ∀ c ∈ whole ++ point, (decide (c ≠ 'e')) = true := by
    intro c hc
    rw [decide_eq_true_eq]
    rcases List.mem_append.1 hc with hc | hc
    · exact ne_of_isDigit (hwhole c hc) rfl
    · rcases hpoint with ⟨rfl, -⟩ | rfl
      · exact absurd hc List.not_mem_nil
      · rcases List.mem_cons.1 hc with rfl | hc
        · decide
        · exact ne_of_isDigit (hfraction c hc) rfl
  have hstop : ∀ c ∈ exponent.head?, (decide (c ≠ 'e')) = false := by
    rintro c hc
    rcases hexponent with rfl | ⟨cs, rfl⟩
    · cases hc
    · cases hc
      rfl
  obtain ⟨htake, hdrop⟩ := takeWhile_append_stop hmantissa hstop
  -- the mantissa is cut at its point
  have hcut : (whole ++ point).takeWhile (fun c => decide (c ≠ '.')) = whole ∧
      (whole ++ point).dropWhile (fun c => decide (c ≠ '.')) = point := by
    refine takeWhile_append_stop (fun c hc => ?_) fun c hc => ?_
    · rw [decide_eq_true_eq]
      exact ne_of_isDigit (hwhole c hc) rfl
    · rcases hpoint with ⟨rfl, -⟩ | rfl
      · cases hc
      · cases hc
        rfl
  have hdropped : point.drop 1 = fraction := by
    rcases hpoint with ⟨rfl, rfl⟩ | rfl <;> rfl
  have hdigits : readDigits (whole ++ fraction) =
      some (Nat.ofDigitChars 10 (whole ++ fraction) 0) := by
    refine readDigits_eq (by simp [hne]) fun c hc => ?_
    rcases List.mem_append.1 hc with hc | hc
    · exact hwhole c hc
    · exact hfraction c hc
  simp only [readUnsigned, htake, hdrop, hcut.1, hcut.2, hdropped, hdigits, hk, Option.bind_some,
    Option.map_some]

/-- Digits alone. -/
theorem readUnsigned_digits (hne : digits ≠ []) (h : ∀ c ∈ digits, c.isDigit) :
    readUnsigned digits = some (Nat.ofDigitChars 10 digits 0 : ℚ) := by
  have hd := @readUnsigned_eq digits [] hne h [] (.inl ⟨rfl, rfl⟩) (by simp) [] 0 (.inl rfl) rfl
  rw [List.append_nil, List.append_nil, pow_zero, List.length_nil, pow_zero, mul_one,
    div_one] at hd
  exact hd

/-- The digits of a number are its significant ones and zeros. -/
theorem exists_zeros (n : Nat) :
    ∃ m, Nat.toDigits 10 n = significant n ++ List.replicate m '0' := by
  set zeros := (Nat.toDigits 10 n).reverse.takeWhile fun c => c = '0' with hzeros
  have hreplicate : zeros = List.replicate zeros.length '0' := by
    rw [List.eq_replicate_iff]
    exact ⟨rfl, fun c hc => by simpa using List.mem_takeWhile_imp hc⟩
  have hsplit : (Nat.toDigits 10 n).reverse =
      zeros ++ (Nat.toDigits 10 n).reverse.dropWhile fun c => c = '0' :=
    List.takeWhile_append_dropWhile.symm
  refine ⟨zeros.length, ?_⟩
  rw [← List.reverse_inj, hsplit, significant, List.reverse_append, List.reverse_reverse,
    List.reverse_replicate, ← hreplicate]

theorem isDigit_significant {n : Nat} : ∀ c ∈ significant n, c.isDigit := by
  intro c hc
  obtain ⟨m, hm⟩ := exists_zeros n
  have hmem : c ∈ Nat.toDigits 10 n := by
    rw [hm]
    exact List.mem_append_left _ hc
  exact isDigit_toDigits c hmem

/-- The digits with their zeros stand for the number. -/
theorem ofDigitChars_significant {n m : Nat}
    (h : Nat.toDigits 10 n = significant n ++ List.replicate m '0') :
    Nat.ofDigitChars 10 (significant n) 0 * 10 ^ m = n := by
  have hn : Nat.ofDigitChars 10 (Nat.toDigits 10 n) 0 = n := Nat.ofDigitChars_ten_toDigits
  rw [h, Nat.ofDigitChars_append, Nat.ofDigitChars_replicate_zero, mul_comm] at hn
  exact hn

theorem readUnsigned_exponentText (n : Nat) : readUnsigned (exponentText n) = some (n : ℚ) := by
  obtain ⟨m, hm⟩ := exists_zeros n
  have hvalue := ofDigitChars_significant hm
  have hisDigit : ∀ c ∈ significant n, c.isDigit := isDigit_significant
  have hlength : (Nat.toDigits 10 n).length = (significant n).length + m := by
    rw [hm, List.length_append, List.length_replicate]
  have hread : ∀ k, readExponent ('e' :: '+' :: Nat.toDigits 10 k) = some k :=
    fun k => readDigits_toDigits k
  unfold exponentText
  split
  next hnil =>
    -- only zero has no significant digit
    rw [hnil, Nat.ofDigitChars_nil, zero_mul] at hvalue
    rw [← hvalue]
    exact readUnsigned_digits (List.cons_ne_nil _ _) (List.all_eq_true.1 (by decide))
  next d hone =>
    -- no fraction: the exponent counts the zeros
    rw [hone] at hvalue hisDigit hlength
    have hd := @readUnsigned_eq [d] [] (by simp) hisDigit [] (.inl ⟨rfl, rfl⟩) (by simp) _ _
      (.inr ⟨_, rfl⟩) (hread ((Nat.toDigits 10 n).length - 1))
    have hexponent : (Nat.toDigits 10 n).length - 1 = m := by
      rw [hlength, List.length_singleton, Nat.add_sub_cancel_left]
    rw [List.append_nil, List.singleton_append, hexponent, List.length_nil, pow_zero,
      div_one] at hd
    show readUnsigned (d :: 'e' :: '+' :: Nat.toDigits 10 ((Nat.toDigits 10 n).length - 1)) = _
    rw [hexponent, hd, ← hvalue]
    push_cast
    rfl
  next d ds hne hmany =>
    rw [hmany] at hvalue hisDigit hlength
    have hds : ∀ c ∈ ds, c.isDigit := fun c hc => hisDigit c (List.mem_cons_of_mem _ hc)
    have hd := @readUnsigned_eq [d] ds (by simp)
      (fun c hc => hisDigit c (by simp_all)) ('.' :: ds) (.inr rfl) hds _ _
      (.inr ⟨_, rfl⟩) (hread ((Nat.toDigits 10 n).length - 1))
    have hexponent : (Nat.toDigits 10 n).length - 1 = ds.length + m := by
      rw [hlength, List.length_cons]
      omega
    rw [List.singleton_append, List.cons_append, List.singleton_append] at hd
    -- the point stands after the first digit, and the exponent counts the digits behind it
    have hcancel : (Nat.ofDigitChars 10 (d :: ds) 0 : ℚ) * 10 ^ (ds.length + m) / 10 ^ ds.length =
        Nat.ofDigitChars 10 (d :: ds) 0 * 10 ^ m := by
      rw [pow_add]
      field_simp
    rw [List.cons_append] at hd
    rw [hd, hexponent, hcancel, ← hvalue]
    push_cast
    rfl

theorem readUnsigned_text (n : Nat) : readUnsigned (text n) = some (n : ℚ) := by
  unfold text
  split
  · rw [readUnsigned_digits Nat.toDigits_ne_nil isDigit_toDigits, Nat.ofDigitChars_ten_toDigits]
  · exact readUnsigned_exponentText n

/-- A text begins with a digit. -/
theorem isDigit_head?_text {n : Nat} {c : Char} (hc : (text n).head? = some c) : c.isDigit := by
  unfold text at hc
  split at hc
  · exact isDigit_toDigits c (List.mem_of_head? hc)
  · have hfirst : ∀ d ds, significant n = d :: ds → d.isDigit := by
      intro d ds hd
      have hmem : d ∈ significant n := by
        rw [hd]
        exact List.mem_cons_self
      exact isDigit_significant d hmem
    unfold exponentText at hc
    split at hc
    next =>
      obtain rfl := Option.some.inj hc
      rfl
    next d hone =>
      obtain rfl := Option.some.inj hc
      exact hfirst _ _ hone
    next d ds _ hmany =>
      obtain rfl := Option.some.inj hc
      exact hfirst _ _ hmany

theorem head?_text (n : Nat) : (text n).head? ≠ some '-' :=
  fun h => ne_of_isDigit (isDigit_head?_text h) rfl rfl

/-- A text with a sign begins with it or with a digit. -/
theorem head?_signedText {n : Int} {c : Char} (hc : (signedText n).head? = some c) :
    c = '-' ∨ c.isDigit := by
  unfold signedText at hc
  split at hc
  · exact .inl (Option.some.inj hc).symm
  · exact .inr (isDigit_head?_text hc)

/-- **What is written is read back.** -/
theorem read_signedText (n : Int) : read (signedText n) = some (n : ℚ) := by
  unfold signedText
  split
  next hneg =>
    have habs : (n.natAbs : Int) = -n := by omega
    rw [read, List.head?_cons, if_pos rfl, List.tail_cons, readUnsigned_text, Option.map_some]
    have hcast : ((n.natAbs : Int) : ℚ) = -n := by rw [habs, Int.cast_neg]
    rw [← Int.cast_natCast, hcast, neg_neg]
  next hnonneg =>
    have habs : (n.natAbs : Int) = n := by omega
    rw [read, if_neg (head?_text _), readUnsigned_text, ← Int.cast_natCast, habs]

end Read

end Decimal
