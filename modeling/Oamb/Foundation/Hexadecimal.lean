import Mathlib.Tactic.Ring

/-!
# Hexadecimal texts

A number is written in a fixed count of lowercase hexadecimal digits, its highest digit first. Such
texts are read back, and they are ordered as texts as the numbers are: `hexText_lt_iff`.
-/

set_option autoImplicit false

namespace Oamb.Foundation.Hexadecimal

/-! ### Digits -/

/-- The hexadecimal digit of a number below sixteen. -/
def hexDigit (value : ℕ) : Char := "0123456789abcdef".toList.getD (value % 16) '0'

/-- The value of a hexadecimal digit. -/
def hexValue (char : Char) : Option ℕ :=
  if char.isDigit then some (char.toNat - '0'.toNat)
  else if 'a' ≤ char ∧ char ≤ 'f' then some (char.toNat - 'a'.toNat + 10)
  else if 'A' ≤ char ∧ char ≤ 'F' then some (char.toNat - 'A'.toNat + 10)
  else none

theorem hexValue_hexDigit (value : ℕ) : hexValue (hexDigit value) = some (value % 16) := by
  have hall : ∀ digit < 16, hexValue ("0123456789abcdef".toList.getD digit '0') = some digit := by
    decide
  exact hall (value % 16) (Nat.mod_lt value (by decide))

theorem hexDigit_ne_hyphen (value : ℕ) : hexDigit value ≠ '-' := by
  have hall : ∀ digit < 16, "0123456789abcdef".toList.getD digit '0' ≠ '-' := by decide
  exact hall (value % 16) (Nat.mod_lt value (by decide))

/-- The digits are ordered as their values. -/
theorem hexDigit_lt_iff {value other : ℕ} (hvalue : value < 16) (hother : other < 16) :
    hexDigit value < hexDigit other ↔ value < other := by
  have hall : ∀ first < 16, ∀ second < 16, hexDigit first < hexDigit second ↔ first < second := by
    decide
  exact hall value hvalue other hother

theorem hexDigit_inj {value other : ℕ} (hvalue : value < 16) (hother : other < 16) :
    hexDigit value = hexDigit other ↔ value = other := by
  have hall : ∀ first < 16, ∀ second < 16, hexDigit first = hexDigit second ↔ first = second := by
    decide
  exact hall value hvalue other hother

/-! ### Texts of a fixed width -/

/-- The lowest digits of a number. -/
def hexText : ℕ → ℕ → List Char
  | 0, _ => []
  | width + 1, value => hexDigit (value / 16 ^ width) :: hexText width (value % 16 ^ width)

@[simp] theorem length_hexText (width value : ℕ) : (hexText width value).length = width := by
  induction width generalizing value with
  | zero => rfl
  | succ width ih => rw [hexText, List.length_cons, ih]

theorem ne_hyphen_of_mem_hexText {width value : ℕ} {char : Char}
    (hchar : char ∈ hexText width value) : char ≠ '-' := by
  induction width generalizing value with
  | zero => cases hchar
  | succ width ih =>
    rcases List.mem_cons.mp hchar with rfl | hrest
    · exact hexDigit_ne_hyphen _
    · exact ih hrest

/-- The next digit of a number that is read. -/
def readDigit (value : ℕ) (char : Char) : Option ℕ :=
  (hexValue char).map fun digit ↦ value * 16 + digit

/-- The number of some digits. -/
def readHex (digits : List Char) : Option ℕ := digits.foldlM readDigit 0

theorem foldlM_hexText (width value lead : ℕ) :
    (hexText width value).foldlM readDigit lead = some (lead * 16 ^ width + value % 16 ^ width) := by
  induction width generalizing value lead with
  | zero => rw [hexText, List.foldlM_nil, pow_zero, mul_one, Nat.mod_one]; rfl
  | succ width ih =>
    have hmod : value % 16 ^ (width + 1) =
        16 ^ width * (value / 16 ^ width % 16) + value % 16 ^ width := by
      rw [pow_succ, Nat.mod_mul, Nat.add_comm]
    rw [hexText, List.foldlM_cons, readDigit, hexValue_hexDigit, Option.map_some]
    simp only [Option.bind_eq_bind, Option.bind_some]
    rw [ih, Nat.mod_mod, hmod, pow_succ]
    congr 1
    ring

theorem readHex_hexText (width value : ℕ) :
    readHex (hexText width value) = some (value % 16 ^ width) := by
  rw [readHex, foldlM_hexText, zero_mul, zero_add]

/-- Texts are ordered as their numbers. -/
theorem hexText_lt_iff {width value other : ℕ} (hvalue : value < 16 ^ width)
    (hother : other < 16 ^ width) :
    hexText width value < hexText width other ↔ value < other := by
  induction width generalizing value other with
  | zero =>
    rw [pow_zero, Nat.lt_one_iff] at hvalue hother
    subst hvalue hother
    exact ⟨fun hlt ↦ absurd hlt (List.lt_irrefl _), fun hlt ↦ absurd hlt (Nat.lt_irrefl 0)⟩
  | succ width ih =>
    have hpos : 0 < 16 ^ width := Nat.pos_of_ne_zero (by simp)
    have hhigh : value / 16 ^ width < 16 := Nat.div_lt_of_lt_mul (by rwa [pow_succ] at hvalue)
    have hhigh' : other / 16 ^ width < 16 := Nat.div_lt_of_lt_mul (by rwa [pow_succ] at hother)
    have hlow := Nat.mod_lt value hpos
    have hlow' := Nat.mod_lt other hpos
    have hsplit := Nat.div_add_mod value (16 ^ width)
    have hsplit' := Nat.div_add_mod other (16 ^ width)
    rw [hexText, hexText, List.cons_lt_cons_iff, hexDigit_lt_iff hhigh hhigh',
      hexDigit_inj hhigh hhigh', ih hlow hlow']
    constructor
    · rintro (hlt | ⟨heq, hlt⟩)
      · exact Nat.lt_of_div_lt_div hlt
      · rw [← hsplit, ← hsplit', heq]
        exact Nat.add_lt_add_left hlt _
    · intro hlt
      rcases Nat.lt_or_ge (value / 16 ^ width) (other / 16 ^ width) with hless | hge
      · exact Or.inl hless
      · have heq := Nat.le_antisymm (Nat.div_le_div_right hlt.le) hge
        rw [← hsplit, ← hsplit', heq] at hlt
        exact Or.inr ⟨heq, Nat.lt_of_add_lt_add_left hlt⟩

end Oamb.Foundation.Hexadecimal
