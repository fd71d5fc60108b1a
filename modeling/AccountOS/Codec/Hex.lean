import Mathlib.Data.List.Basic
import Mathlib.Data.Nat.Notation
import Mathlib.Tactic.IntervalCases

/-!
# Hexadecimal texts

The text of a byte string, two lower-case digits a byte. A text is read two digits at a time, in
either case, up to the first pair that is not of digits; a single last character is dropped.

What was written is read back (`decode_encode`), and it consists of digits only, so that texts can be
joined by any other character (`isDigit_of_mem_encode`).
-/

namespace Hex

/-- The value of a digit. -/
def value? (c : Char) : Option ℕ :=
  if '0' ≤ c ∧ c ≤ '9' then some (c.toNat - '0'.toNat)
  else if 'a' ≤ c ∧ c ≤ 'f' then some (c.toNat - 'a'.toNat + 10)
  else if 'A' ≤ c ∧ c ≤ 'F' then some (c.toNat - 'A'.toNat + 10)
  else none

/-- A digit, in either case. -/
def IsDigit (c : Char) : Prop := (value? c).isSome

instance (c : Char) : Decidable (IsDigit c) := inferInstanceAs (Decidable (_ = true))

/-- The digits of a byte. -/
def digits (b : UInt8) : List Char :=
  [Nat.digitChar (b.toNat / 16), Nat.digitChar (b.toNat % 16)]

def encode (bytes : List UInt8) : List Char := bytes.flatMap digits

def decode : List Char → List UInt8
  | c :: d :: rest =>
    match value? c, value? d with
    | some x, some y => UInt8.ofNat (16 * x + y) :: decode rest
    | _, _ => []
  | _ => []

/-! ### Writing and reading a digit -/

theorem value?_digitChar {n : ℕ} (h : n < 16) : value? (Nat.digitChar n) = some n := by
  interval_cases n <;> rfl

theorem isDigit_digitChar {n : ℕ} (h : n < 16) : IsDigit (Nat.digitChar n) := by
  rw [IsDigit, value?_digitChar h]
  rfl

theorem high_lt (b : UInt8) : b.toNat / 16 < 16 := by
  have := b.toNat_lt
  omega

theorem low_lt (b : UInt8) : b.toNat % 16 < 16 := Nat.mod_lt _ (by decide)

/-! ### Writing and reading a byte string -/

@[simp] theorem encode_nil : encode [] = [] := rfl

@[simp] theorem encode_cons (b : UInt8) (bytes : List UInt8) :
    encode (b :: bytes) =
      Nat.digitChar (b.toNat / 16) :: Nat.digitChar (b.toNat % 16) :: encode bytes := rfl

/-- **What was written is read back.** -/
@[simp] theorem decode_encode (bytes : List UInt8) : decode (encode bytes) = bytes := by
  induction bytes with
  | nil => rfl
  | cons b bytes ih =>
    have hbyte : UInt8.ofNat (16 * (b.toNat / 16) + b.toNat % 16) = b := by
      rw [Nat.div_add_mod, UInt8.ofNat_toNat]
    rw [encode_cons, decode, value?_digitChar (high_lt b), value?_digitChar (low_lt b), ih]
    exact congrArg (· :: bytes) hbyte

theorem isDigit_of_mem_encode {bytes : List UInt8} {c : Char} (h : c ∈ encode bytes) :
    IsDigit c := by
  obtain ⟨b, -, hc⟩ := List.mem_flatMap.1 h
  rcases List.mem_cons.1 hc with rfl | hc
  · exact isDigit_digitChar (high_lt b)
  · rw [List.mem_singleton.1 hc]
    exact isDigit_digitChar (low_lt b)

/-- A character that is no digit does not occur. -/
theorem not_mem_encode {bytes : List UInt8} {c : Char} (hc : ¬ IsDigit c) : c ∉ encode bytes :=
  fun h => hc (isDigit_of_mem_encode h)

/-- Digits are read two at a time. -/
theorem length_decode {cs : List Char} (h : ∀ c ∈ cs, IsDigit c) :
    (decode cs).length = cs.length / 2 := by
  induction cs using decode.induct with
  | case1 c d rest x y hx hy ih =>
    have hrest : (decode rest).length = rest.length / 2 :=
      ih fun e he => h e (List.mem_cons_of_mem _ (List.mem_cons_of_mem _ he))
    rw [decode, hx, hy]
    simp only [List.length_cons, hrest]
    omega
  | case2 c d rest hnone =>
    obtain ⟨x, hx⟩ := Option.isSome_iff_exists.1 (h c List.mem_cons_self)
    obtain ⟨y, hy⟩ := Option.isSome_iff_exists.1 (h d (List.mem_cons_of_mem _ List.mem_cons_self))
    exact absurd hy (hnone x y hx)
  | case3 cs hshort =>
    match cs, hshort with
    | [], _ => rfl
    | [_], _ => simp [decode]
    | c :: d :: rest, hshort => exact absurd rfl (hshort c d rest)

end Hex
