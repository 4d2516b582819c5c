import Mathlib.Data.List.DropRight
import Mathlib.Tactic.FieldSimp
import Mathlib.Tactic.Ring
import Oamb.Foundation.Numerals

/-!
# Decimal numerals with a point

Digits before and behind a point write a rational number. There are many ways to write it; in a
normal one the digits before the point do not start with a zero unless they are one, and the digits
behind the point do not end with a zero. `Normal.unique` says that a number has one normal way, and
`normal_rdropWhile` that dropping the zeros at the end gives it.
-/

set_option autoImplicit false

namespace Oamb.Foundation.PointNumerals

/-! ### Digits -/

/-- The number that digits write. -/
def number (digits : List Char) : ℕ := Nat.ofDigitChars 10 digits 0

/-- All characters are digits. -/
def Digits (text : List Char) : Prop := ∀ char ∈ text, char.isDigit = true

instance (text : List Char) : Decidable (Digits text) :=
  inferInstanceAs (Decidable (∀ char ∈ text, char.isDigit = true))

theorem number_append (first second : List Char) :
    number (first ++ second) = number first * 10 ^ second.length + number second := by
  unfold number
  rw [Nat.ofDigitChars_append, Nat.ofDigitChars_eq_ofDigitChars_zero, Nat.mul_comm]

theorem number_cons (char : Char) (digits : List Char) :
    number (char :: digits) = number [char] * 10 ^ digits.length + number digits :=
  number_append [char] digits

theorem number_replicate (count : ℕ) : number (List.replicate count '0') = 0 := by
  unfold number
  rw [Nat.ofDigitChars_replicate_zero, Nat.mul_zero]

theorem number_toDigits (value : ℕ) : number (Nat.toDigits 10 value) = value :=
  Nat.ofDigitChars_ten_toDigits

theorem digits_toDigits (value : ℕ) : Digits (Nat.toDigits 10 value) :=
  List.all_eq_true.mp (Numerals.all_isDigit_toDigits value)

theorem digits_replicate (count : ℕ) : Digits (List.replicate count '0') := by
  intro char hchar
  rw [(List.mem_replicate.mp hchar).2]
  rfl

theorem Digits.append {first second : List Char} (hfirst : Digits first) (hsecond : Digits second) :
    Digits (first ++ second) :=
  fun _ hchar ↦ (List.mem_append.mp hchar).elim (hfirst _) (hsecond _)

theorem number_singleton (char : Char) : number [char] = char.toNat - 48 := by
  simp [number, Nat.ofDigitChars_cons]

theorem toNat_of_isDigit {char : Char} (hchar : char.isDigit = true) :
    48 ≤ char.toNat ∧ char.toNat ≤ 57 := by
  simp only [Char.isDigit, Bool.and_eq_true, decide_eq_true_eq] at hchar
  exact ⟨UInt32.le_iff_toNat_le.mp hchar.1, UInt32.le_iff_toNat_le.mp hchar.2⟩

theorem number_singleton_lt {char : Char} (hchar : char.isDigit = true) : number [char] < 10 := by
  have hbounds := toNat_of_isDigit hchar
  rw [number_singleton]
  omega

theorem number_singleton_inj {char other : Char} (hchar : char.isDigit = true)
    (hother : other.isDigit = true) (hsame : number [char] = number [other]) : char = other := by
  have hbounds := toNat_of_isDigit hchar
  have hbounds' := toNat_of_isDigit hother
  rw [number_singleton, number_singleton] at hsame
  exact Char.toNat_inj.mp (by omega)

theorem number_lt {digits : List Char} (hdigits : Digits digits) :
    number digits < 10 ^ digits.length := by
  induction digits with
  | nil => exact Nat.one_pos
  | cons char digits ih =>
    have hchar := number_singleton_lt (hdigits char List.mem_cons_self)
    have hrest := ih fun other hmem ↦ hdigits other (List.mem_cons_of_mem _ hmem)
    rw [number_cons, List.length_cons, Nat.pow_succ]
    have hle := Nat.mul_le_mul_right (10 ^ digits.length) (Nat.le_of_lt_succ hchar)
    omega

/-- A quotient and a remainder are known from the number they make. -/
theorem quotient_remainder {power quotient remainder other rest : ℕ}
    (hremainder : remainder < power) (hrest : rest < power)
    (hsame : quotient * power + remainder = other * power + rest) :
    quotient = other ∧ remainder = rest := by
  have hpower : 0 < power := Nat.zero_lt_of_lt hremainder
  have hquotient : quotient = other := by
    have hdiv := congrArg (· / power) hsame
    simpa [Nat.mul_comm _ power, Nat.mul_add_div hpower, Nat.div_eq_of_lt hremainder,
      Nat.div_eq_of_lt hrest] using hdiv
  subst hquotient
  exact ⟨rfl, Nat.add_left_cancel hsame⟩

/-- Digits are known from their number and how many they are. -/
theorem eq_of_number_eq {first second : List Char} (hfirst : Digits first) (hsecond : Digits second)
    (hlength : first.length = second.length) (hsame : number first = number second) :
    first = second := by
  induction first generalizing second with
  | nil => exact (List.eq_nil_of_length_eq_zero hlength.symm).symm
  | cons char first ih =>
    obtain ⟨other, rest, rfl⟩ := List.exists_cons_of_length_eq_add_one hlength.symm
    have hrests : first.length = rest.length := Nat.succ.inj hlength
    have hsmall := number_lt fun digit hmem ↦ hfirst digit (List.mem_cons_of_mem _ hmem)
    have hsmallOther := number_lt fun digit hmem ↦ hsecond digit (List.mem_cons_of_mem _ hmem)
    rw [number_cons char, number_cons other, hrests] at hsame
    rw [hrests] at hsmall
    obtain ⟨hhead, htail⟩ := quotient_remainder hsmall hsmallOther hsame
    rw [number_singleton_inj (hfirst _ List.mem_cons_self) (hsecond _ List.mem_cons_self) hhead,
      ih (fun digit hmem ↦ hfirst digit (List.mem_cons_of_mem _ hmem))
        (fun digit hmem ↦ hsecond digit (List.mem_cons_of_mem _ hmem)) hrests htail]

/-! ### Numerals without a point -/

/-- Digits that do not start with a zero, or one zero. -/
def Whole (digits : List Char) : Prop :=
  digits = ['0'] ∨ digits ≠ [] ∧ digits.head? ≠ some '0' ∧ Digits digits

instance (digits : List Char) : Decidable (Whole digits) :=
  inferInstanceAs (Decidable (_ ∨ _ ∧ _ ∧ _))

theorem Whole.digits {digits : List Char} (hwhole : Whole digits) : Digits digits := by
  rcases hwhole with rfl | ⟨-, -, hdigits⟩
  · exact fun char hchar ↦ by rw [List.mem_singleton.mp hchar]; rfl
  · exact hdigits

theorem Whole.ne_nil {digits : List Char} (hwhole : Whole digits) : digits ≠ [] := by
  rcases hwhole with rfl | ⟨hne, -, -⟩
  · exact List.cons_ne_nil _ _
  · exact hne

theorem whole_toDigits (value : ℕ) : Whole (Nat.toDigits 10 value) := by
  by_cases hvalue : 0 < value
  · exact Or.inr ⟨Nat.toDigits_ne_nil, Numerals.head_toDigits_ne_zero hvalue, digits_toDigits value⟩
  · rw [Nat.eq_zero_of_not_pos hvalue]
    exact Or.inl rfl

theorem number_singleton_pos {char : Char} (hchar : char.isDigit = true) (hne : char ≠ '0') :
    0 < number [char] := by
  refine Nat.pos_of_ne_zero fun hzero ↦ hne ?_
  exact number_singleton_inj hchar rfl hzero

/-- Of two numerals that do not start with a zero the longer one writes more. -/
theorem Whole.number_lt_of_length_lt {first second : List Char} (hfirst : Whole first)
    (hsecond : Whole second) (hlength : first.length < second.length) :
    number first < number second := by
  rcases hsecond with rfl | ⟨hne, hhead, hdigits⟩
  · exact absurd (List.eq_nil_of_length_eq_zero (Nat.lt_one_iff.mp hlength)) hfirst.ne_nil
  · obtain ⟨char, rest, rfl⟩ := List.exists_cons_of_ne_nil hne
    have hpos : 0 < number [char] := by
      refine number_singleton_pos (hdigits char List.mem_cons_self) fun heq ↦ hhead ?_
      rw [heq]
      rfl
    calc number first < 10 ^ first.length := number_lt hfirst.digits
      _ ≤ 10 ^ rest.length := Nat.pow_le_pow_right (by decide) (Nat.le_of_lt_succ hlength)
      _ ≤ number [char] * 10 ^ rest.length := Nat.le_mul_of_pos_left _ hpos
      _ ≤ number (char :: rest) := by
        rw [number_cons char rest]
        exact Nat.le_add_right _ _

/-- A number has one numeral that does not start with a zero. -/
theorem Whole.unique {first second : List Char} (hfirst : Whole first) (hsecond : Whole second)
    (hsame : number first = number second) : first = second := by
  refine eq_of_number_eq hfirst.digits hsecond.digits ?_ hsame
  refine Nat.le_antisymm (Nat.not_lt.mp fun hlt ↦ ?_) (Nat.not_lt.mp fun hlt ↦ ?_)
  · exact absurd hsame (Nat.ne_of_gt (hsecond.number_lt_of_length_lt hfirst hlt))
  · exact absurd hsame (Nat.ne_of_lt (hfirst.number_lt_of_length_lt hsecond hlt))

/-! ### Numerals with a point -/

/-- The text of digits before and behind a point. The point stands only before digits. -/
def pointText (whole fraction : List Char) : List Char :=
  whole ++ if fraction = [] then [] else '.' :: fraction

/-- The number that digits before and behind a point write. -/
def pointValue (whole fraction : List Char) : ℚ :=
  (number (whole ++ fraction) : ℚ) / 10 ^ fraction.length

/-- Nothing can be left out. -/
structure Normal (whole fraction : List Char) : Prop where
  isWhole : Whole whole
  digits : Digits fraction
  last : fraction.getLast? ≠ some '0'

/-- The digits of a normal numeral with a fraction do not write a multiple of ten. -/
theorem Normal.not_dvd {whole fraction : List Char} (hnormal : Normal whole fraction)
    (hfraction : fraction ≠ []) : ¬10 ∣ number (whole ++ fraction) := by
  obtain ⟨before, char, rfl⟩ := (List.eq_nil_or_concat' fraction).resolve_left hfraction
  have hchar : char.isDigit = true := hnormal.digits char (by simp)
  have hlast : char ≠ '0' := by
    intro heq
    refine hnormal.last ?_
    rw [heq, List.getLast?_append]
    rfl
  have hpos := number_singleton_pos hchar hlast
  have hlt := number_singleton_lt hchar
  rw [← List.append_assoc, number_append, List.length_singleton]
  omega

theorem Normal.length_le {whole fraction other rest : List Char} (hother : Normal other rest)
    (hsame : number (whole ++ fraction) * 10 ^ rest.length =
      number (other ++ rest) * 10 ^ fraction.length) : rest.length ≤ fraction.length := by
  by_contra hlonger
  have hlt : fraction.length < rest.length := Nat.not_le.mp hlonger
  have hrest : rest ≠ [] := List.ne_nil_of_length_pos (Nat.zero_lt_of_lt hlt)
  refine hother.not_dvd hrest
    ⟨number (whole ++ fraction) * 10 ^ (rest.length - fraction.length - 1), ?_⟩
  have hsplit : rest.length = fraction.length + (rest.length - fraction.length - 1 + 1) := by omega
  rw [hsplit, Nat.pow_add, Nat.pow_succ] at hsame
  refine Nat.eq_of_mul_eq_mul_right (Nat.pow_pos (n := fraction.length) (by decide : 0 < 10)) ?_
  rw [← hsame]
  ring

/-- A number has one normal numeral. -/
theorem Normal.unique {whole fraction other rest : List Char} (hnormal : Normal whole fraction)
    (hother : Normal other rest) (hsame : pointValue whole fraction = pointValue other rest) :
    whole = other ∧ fraction = rest := by
  unfold pointValue at hsame
  have hpow : ∀ count : ℕ, (10 : ℚ) ^ count ≠ 0 := fun count ↦ pow_ne_zero count (by norm_num)
  rw [div_eq_div_iff (hpow _) (hpow _)] at hsame
  have hnumbers : number (whole ++ fraction) * 10 ^ rest.length =
      number (other ++ rest) * 10 ^ fraction.length := by exact_mod_cast hsame
  have hlength : fraction.length = rest.length :=
    Nat.le_antisymm (hnormal.length_le hnumbers.symm) (hother.length_le hnumbers)
  rw [hlength] at hnumbers
  have hdigits := Nat.eq_of_mul_eq_mul_right (Nat.pow_pos (by decide)) hnumbers
  rw [number_append, number_append, hlength] at hdigits
  obtain ⟨hwhole, hfraction⟩ :=
    quotient_remainder (hlength ▸ number_lt hnormal.digits) (number_lt hother.digits) hdigits
  exact ⟨hnormal.isWhole.unique hother.isWhole hwhole,
    eq_of_number_eq hnormal.digits hother.digits hlength hfraction⟩

/-- The zeros behind the last digit that is none can be dropped. -/
theorem pointValue_rdropWhile (whole fraction : List Char) :
    pointValue whole (fraction.rdropWhile (· = '0')) = pointValue whole fraction := by
  induction fraction using List.reverseRecOn with
  | nil => rfl
  | append_singleton before char ih =>
    by_cases hchar : char = '0'
    · subst hchar
      rw [List.rdropWhile_concat_pos _ _ _ (by simp), ih]
      unfold pointValue
      have hnumber : number (whole ++ (before ++ ['0'])) = number (whole ++ before) * 10 := by
        rw [← List.append_assoc, number_append (whole ++ before)]
        rfl
      rw [hnumber, List.length_append, List.length_singleton, pow_succ]
      push_cast
      field_simp
    · rw [List.rdropWhile_concat_neg _ _ _ (by simpa using hchar)]

theorem normal_rdropWhile {whole fraction : List Char} (hwhole : Whole whole)
    (hfraction : Digits fraction) : Normal whole (fraction.rdropWhile (· = '0')) where
  isWhole := hwhole
  digits := fun char hchar ↦ hfraction char ((List.rdropWhile_prefix _ _).subset hchar)
  last := by
    intro hlast
    have hne : fraction.rdropWhile (· = '0') ≠ [] := by
      intro hnil
      rw [hnil] at hlast
      exact absurd hlast (by simp)
    rw [List.getLast?_eq_some_getLast hne, Option.some_inj] at hlast
    exact List.rdropWhile_last_not _ _ hne (decide_eq_true hlast)

end Oamb.Foundation.PointNumerals
