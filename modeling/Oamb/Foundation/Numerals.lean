import Mathlib.Tactic.Common

/-!
# Decimal numerals

A numeral is a nonempty list of decimal digits. `readNumeral` reads the number that it writes, and
reads back the digits of a number. Two numerals that are each followed by something other than a digit
are equal as texts when their numbers and what follows them are.
-/

set_option autoImplicit false

namespace Oamb.Foundation.Numerals

/-- The number that decimal digits write. -/
def readNumeral (digits : List Char) : Option ℕ :=
  if digits ≠ [] ∧ digits.all Char.isDigit = true then some (Nat.ofDigitChars 10 digits 0) else none

theorem all_isDigit_toDigits (number : ℕ) :
    (Nat.toDigits 10 number).all Char.isDigit = true :=
  List.all_eq_true.mpr fun _ hchar ↦ Nat.isDigit_of_mem_toDigits (by decide) (by decide) hchar

@[simp] theorem readNumeral_toDigits (number : ℕ) :
    readNumeral (Nat.toDigits 10 number) = some number := by
  rw [readNumeral, if_pos ⟨Nat.toDigits_ne_nil, all_isDigit_toDigits number⟩,
    Nat.ofDigitChars_ten_toDigits]

/-- Two numbers with the same text are one number. -/
theorem toString_injective {first second : ℕ} (hsame : toString first = toString second) :
    first = second := by
  have hlist := congrArg (fun text : String ↦ readNumeral text.toList) hsame
  simpa only [Nat.toString_eq_repr, Nat.toList_repr, readNumeral_toDigits, Option.some_inj]
    using hlist

/-- The text does not start with a digit. -/
def Ends (rest : List Char) : Prop := ∀ char ∈ rest.head?, char.isDigit = false

theorem takeWhile_toDigits {rest : List Char} (hends : Ends rest) (number : ℕ) :
    (Nat.toDigits 10 number ++ rest).takeWhile Char.isDigit = Nat.toDigits 10 number := by
  have hrest : rest.takeWhile Char.isDigit = [] := by
    cases rest with
    | nil => rfl
    | cons char chars =>
      refine List.takeWhile_cons_of_neg ?_
      rw [hends char rfl]
      exact Bool.false_ne_true
  rw [List.takeWhile_append_of_pos fun char hchar ↦
    List.all_eq_true.mp (all_isDigit_toDigits number) char hchar, hrest, List.append_nil]

/-- What follows a numeral that ends. -/
theorem dropWhile_toDigits {rest : List Char} (hends : Ends rest) (number : ℕ) :
    (Nat.toDigits 10 number ++ rest).dropWhile Char.isDigit = rest := by
  have hsplit := @List.takeWhile_append_dropWhile _ Char.isDigit (Nat.toDigits 10 number ++ rest)
  rwa [takeWhile_toDigits hends number, List.append_cancel_left_eq] at hsplit

/-- The digits of a number that is not zero do not start with a zero. -/
theorem head_toDigits_ne_zero {number : ℕ} (hnumber : 0 < number) :
    (Nat.toDigits 10 number).head? ≠ some '0' := by
  induction number using Nat.strongRecOn with
  | ind number ih =>
    by_cases hsmall : number < 10
    · rw [Nat.toDigits_of_lt_base hsmall]
      have hall : ∀ digit < 10, 0 < digit → [digit.digitChar].head? ≠ some '0' := by decide
      exact hall number hsmall hnumber
    · have hle : 10 ≤ number := Nat.not_lt.mp hsmall
      rw [Nat.toDigits_of_base_le (by decide) hle, List.head?_append,
        Option.or_of_isSome (by simp)]
      exact ih (number / 10) (Nat.div_lt_self hnumber (by decide)) (Nat.div_pos hle (by decide))

/-- Two numerals that end are the same text when they write the same number. -/
theorem toDigits_append_inj {first second : ℕ} {rest other : List Char} (hrest : Ends rest)
    (hother : Ends other)
    (hsame : Nat.toDigits 10 first ++ rest = Nat.toDigits 10 second ++ other) :
    first = second ∧ rest = other := by
  have hdigits : Nat.toDigits 10 first = Nat.toDigits 10 second := by
    rw [← takeWhile_toDigits hrest first, hsame, takeWhile_toDigits hother second]
  refine ⟨?_, ?_⟩
  · rw [← Option.some.injEq, ← readNumeral_toDigits first, hdigits, readNumeral_toDigits]
  · rwa [hdigits, List.append_cancel_left_eq] at hsame

end Oamb.Foundation.Numerals
