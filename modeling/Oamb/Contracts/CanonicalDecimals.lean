import Oamb.Foundation.PointNumerals
import Oamb.Foundation.Whitespace

/-!
# Canonical decimals

A decimal has a sign, a coefficient and an exponent, and the same number has many of them, zeros of
both signs among them. `canonicalDecimalText` writes a decimal that is finite and not negative, and
the fields of the contracts accept no text but the one that it writes.

What is written has the form of the pattern of the schema and reads back to the same number
(`canonicalDecimalText_eq_ok`), a number has one text (`canonical_text_iff`), and a field accepts
exactly the texts of the pattern (`validateDecimal_json_iff`).
-/

set_option autoImplicit false

namespace Oamb.Contracts.CanonicalDecimals

open Foundation.PointNumerals Foundation.Whitespace

/-! ### Decimals -/

inductive Decimal
  | finite (negative : Bool) (coefficient : ℕ) (exponent : ℤ)
  | infinity (negative : Bool)
  | nan (negative signalling : Bool) (payload : ℕ)
  deriving DecidableEq, Repr

namespace Decimal

def isFinite : Decimal → Bool
  | finite _ _ _ => true
  | _ => false

/-- A decimal that is less than zero. A zero is not, whatever its sign. -/
def isNegative : Decimal → Bool
  | finite negative coefficient _ => negative && decide (coefficient ≠ 0)
  | infinity negative => negative
  | nan _ _ _ => false

/-- The number of a finite decimal. -/
def value : Decimal → Option ℚ
  | finite negative coefficient exponent =>
    some ((if negative then -1 else 1) * coefficient * (10 : ℚ) ^ exponent)
  | _ => none

end Decimal

/-! ### Writing a decimal -/

/-- The digits before and behind the point, for digits and the exponent of the last one. -/
def placePoint (digits : List Char) (exponent : ℤ) : List Char × List Char :=
  let dotplace := exponent + digits.length
  if dotplace < 0 then (['0'], List.replicate (-dotplace).toNat '0' ++ digits)
  else if (digits.length : ℤ) < dotplace then
    (digits ++ List.replicate (dotplace - digits.length).toNat '0', [])
  else
    (if digits.take dotplace.toNat = [] then ['0'] else digits.take dotplace.toNat,
      digits.drop dotplace.toNat)

/-- The digits before and behind the point of the fixed format. -/
def fixedParts (coefficient : ℕ) (exponent : ℤ) : List Char × List Char :=
  -- No zeros are put behind a zero.
  placePoint (Nat.toDigits 10 coefficient)
    (if coefficient = 0 ∧ 0 < exponent then 0 else exponent)

/-- The fixed format of a finite decimal. -/
def formatFixed (negative : Bool) (coefficient : ℕ) (exponent : ℤ) : List Char :=
  let parts := fixedParts coefficient exponent
  (if negative then ['-'] else []) ++ pointText parts.1 parts.2

def canonicalDecimalText (value : Decimal) : Except String (List Char) :=
  match value with
  | .finite negative coefficient exponent =>
    if value.isNegative then .error "decimal must be non-negative"
    else
      let text := formatFixed negative coefficient exponent
      let text :=
        if '.' ∈ text then (text.rdropWhile (· = '0')).rdropWhile (· = '.') else text
      .ok (if text ∈ [[], ['-', '0']] then ['0'] else text)
  | _ => .error "decimal must be finite"

/-! ### Reading a decimal -/

section Reading

variable (unicodeDigit : Char → Option ℕ)

/-- The value of a decimal digit. The function gives those beyond the ASCII digits. -/
def digitValue (char : Char) : Option ℕ :=
  if char.isDigit then some (char.toNat - 48)
  else if char.toNat < 128 then none else unicodeDigit char

def isDecimal (char : Char) : Bool := (digitValue unicodeDigit char).isSome

/-- The number of some decimal digits. -/
def readDigits (digits : List Char) : ℕ :=
  digits.foldl (fun total char ↦ 10 * total + (digitValue unicodeDigit char).getD 0) 0

/-- A sign, and what follows it. -/
def readSign : List Char → Bool × List Char
  | '-' :: rest => (true, rest)
  | '+' :: rest => (false, rest)
  | rest => (false, rest)

/-- The exponent that ends a numeral. -/
def readExponent : List Char → Option ℤ
  | [] => some 0
  | mark :: rest =>
    let (negative, digits) := readSign rest
    if (mark = 'e' ∨ mark = 'E') ∧ digits ≠ [] ∧ digits.all (isDecimal unicodeDigit) then
      some (if negative then -(readDigits unicodeDigit digits : ℤ)
        else readDigits unicodeDigit digits)
    else none

def readFinite (text : List Char) : Option Decimal :=
  let (negative, text) := readSign text
  let whole := text.takeWhile (isDecimal unicodeDigit)
  let behind := text.dropWhile (isDecimal unicodeDigit)
  let (fraction, rest) := match behind with
    | '.' :: digits =>
      (digits.takeWhile (isDecimal unicodeDigit), digits.dropWhile (isDecimal unicodeDigit))
    | _ => ([], behind)
  if whole = [] ∧ fraction = [] then none
  else
    (readExponent unicodeDigit rest).map fun exponent ↦
      .finite negative (readDigits unicodeDigit (whole ++ fraction)) (exponent - fraction.length)

/-- An infinity, or what is not a number. -/
def readSpecial (text : List Char) : Option Decimal :=
  let (negative, text) := readSign text
  let text := text.map Char.toLower
  let diagnostic (signalling : Bool) (digits : List Char) : Option Decimal :=
    if digits.all (isDecimal unicodeDigit) then
      some (.nan negative signalling (readDigits unicodeDigit digits))
    else none
  match text with
  | ['i', 'n', 'f'] => some (.infinity negative)
  | ['i', 'n', 'f', 'i', 'n', 'i', 't', 'y'] => some (.infinity negative)
  | 'n' :: 'a' :: 'n' :: digits => diagnostic false digits
  | 's' :: 'n' :: 'a' :: 'n' :: digits => diagnostic true digits
  | _ => none

/-- The decimal of a text. -/
def decimalOf (text : List Char) : Option Decimal :=
  let text := (strip text).filter (· ≠ '_')
  (readFinite unicodeDigit text).or (readSpecial unicodeDigit text)

/-! ### Fields -/

/-- What a field is given. -/
inductive Supplied
  | text (text : List Char)
  | decimal (value : Decimal)
  | other

/-- What a field accepts, from a document or from the program. -/
def validateDecimal (json : Bool) (value : Supplied) : Except String Decimal :=
  if json then
    match value with
    | .text text =>
      match decimalOf unicodeDigit text with
      | none => .error "invalid decimal string"
      | some parsed => do
        let canonical ← canonicalDecimalText parsed
        if text ≠ canonical then
          .error "decimal JSON value must use canonical decimal notation"
        else .ok parsed
    | _ => .error "decimal JSON value must be a string"
  else
    match value with
    | .decimal value => do
      let canonical ← canonicalDecimalText value
      match decimalOf unicodeDigit canonical with
      | none => .error "invalid decimal string"
      | some parsed => .ok parsed
    | _ => .error "decimal Python value must be Decimal"

/-- A field for decimals that are not negative. -/
def nonNegativeDecimal (json : Bool) (value : Supplied) : Except String Decimal := do
  let accepted ← validateDecimal unicodeDigit json value
  if accepted.isNegative then .error "Input should be greater than or equal to 0"
  else .ok accepted

end Reading

/-! ### The pattern -/

/-- A digit that is not zero. -/
def NonZero (char : Char) : Prop := char.isDigit = true ∧ char ≠ '0'

/-- The texts of `^(?:0|[1-9][0-9]*)(?:\.[0-9]*[1-9])?$`. -/
def MatchesPattern (text : List Char) : Prop :=
  ∃ whole fraction : List Char, text = whole ++ fraction ∧
    (whole = ['0'] ∨ ∃ first digits, NonZero first ∧ Digits digits ∧ whole = first :: digits) ∧
    (fraction = [] ∨
      ∃ digits last, Digits digits ∧ NonZero last ∧ fraction = '.' :: (digits ++ [last]))

theorem matchesPattern_iff {text : List Char} :
    MatchesPattern text ↔
      ∃ whole fraction, Normal whole fraction ∧ text = pointText whole fraction := by
  constructor
  · rintro ⟨whole, fraction, rfl, hwhole, hfraction⟩
    have hwholePart : Whole whole := by
      rcases hwhole with rfl | ⟨first, digits, hfirst, hdigits, rfl⟩
      · exact Or.inl rfl
      · refine Or.inr ⟨List.cons_ne_nil _ _, by simpa using hfirst.2, ?_⟩
        exact List.forall_mem_cons.mpr ⟨hfirst.1, hdigits⟩
    rcases hfraction with rfl | ⟨digits, last, hdigits, hlast, rfl⟩
    · exact ⟨whole, [], ⟨hwholePart, fun _ hchar ↦ (List.not_mem_nil hchar).elim, by simp⟩, rfl⟩
    · refine ⟨whole, digits ++ [last], ⟨hwholePart, ?_, by simpa using hlast.2⟩,
        by simp [pointText]⟩
      exact hdigits.append fun char hchar ↦ List.mem_singleton.mp hchar ▸ hlast.1
  · rintro ⟨whole, fraction, hnormal, rfl⟩
    refine ⟨whole, _, rfl, ?_, ?_⟩
    · rcases hnormal.isWhole with hzero | ⟨hne, hhead, hdigits⟩
      · exact Or.inl hzero
      · obtain ⟨first, digits, rfl⟩ := List.exists_cons_of_ne_nil hne
        obtain ⟨hfirst, hrest⟩ := List.forall_mem_cons.mp hdigits
        exact Or.inr ⟨first, digits, ⟨hfirst, by simpa using hhead⟩, hrest, rfl⟩
    · by_cases hempty : fraction = []
      · exact Or.inl (if_pos hempty)
      · obtain ⟨digits, last, rfl⟩ := (List.eq_nil_or_concat' fraction).resolve_left hempty
        refine Or.inr ⟨digits, last, fun char hchar ↦ hnormal.digits char (by simp [hchar]),
          ⟨hnormal.digits last (by simp), ?_⟩, if_neg hempty⟩
        simpa using hnormal.last

/-! ### What is written -/

theorem number_zero_cons (digits : List Char) : number ('0' :: digits) = number digits := by
  have hzero : number ['0'] = 0 := rfl
  rw [number_cons, hzero, Nat.zero_mul, Nat.zero_add]

/-- The whole part starts with the digits that are placed. -/
theorem whole_append {coefficient : ℕ} (hcoefficient : 0 < coefficient) {start rest : List Char}
    (hdigits : Nat.toDigits 10 coefficient = start ++ rest) (hstart : start ≠ [])
    {zeros : List Char} (hzeros : Digits zeros) : Whole (start ++ zeros) := by
  refine Or.inr ⟨by simp [hstart], ?_, ?_⟩
  · have hhead := Foundation.Numerals.head_toDigits_ne_zero hcoefficient
    rw [hdigits, List.head?_append_of_ne_nil _ hstart] at hhead
    rwa [List.head?_append_of_ne_nil _ hstart]
  · refine Digits.append (fun char hchar ↦ ?_) hzeros
    exact digits_toDigits coefficient char (hdigits ▸ List.mem_append_left _ hchar)

/-- As many digits behind the point as the exponent says. -/
theorem div_pow_eq {exponent : ℤ} {count : ℕ} (hcount : exponent = -(count : ℤ)) (value : ℚ) :
    value / 10 ^ count = value * (10 : ℚ) ^ exponent := by
  rw [hcount, zpow_neg, zpow_natCast, div_eq_mul_inv]

theorem placePoint_spec {coefficient : ℕ} {exponent : ℤ} (hzero : coefficient = 0 → exponent ≤ 0)
    {parts : List Char × List Char}
    (hparts : placePoint (Nat.toDigits 10 coefficient) exponent = parts) :
    Whole parts.1 ∧ Digits parts.2 ∧
      pointValue parts.1 parts.2 = coefficient * (10 : ℚ) ^ exponent := by
  have hdigits := digits_toDigits coefficient
  have hpositive : 0 < (Nat.toDigits 10 coefficient).length := Nat.length_toDigits_pos
  unfold placePoint at hparts
  by_cases hbefore : exponent + (Nat.toDigits 10 coefficient).length < 0
  · -- All digits stand behind the point, behind some zeros.
    rw [if_pos hbefore] at hparts
    subst hparts
    refine ⟨Or.inl rfl, (digits_replicate _).append hdigits, ?_⟩
    unfold pointValue
    rw [List.singleton_append, number_zero_cons, number_append, number_replicate, Nat.zero_mul,
      Nat.zero_add, number_toDigits, List.length_append, List.length_replicate]
    exact div_pow_eq (by omega) _
  · rw [if_neg hbefore] at hparts
    by_cases hbehind : ((Nat.toDigits 10 coefficient).length : ℤ) <
        exponent + (Nat.toDigits 10 coefficient).length
    · -- All digits stand before the point, before some zeros.
      rw [if_pos hbehind] at hparts
      subst hparts
      have hcoefficient : 0 < coefficient := by
        refine Nat.pos_of_ne_zero fun heq ↦ ?_
        have hle := hzero heq
        omega
      refine ⟨whole_append hcoefficient (List.append_nil _).symm Nat.toDigits_ne_nil
        (digits_replicate _), fun char hchar ↦ (List.not_mem_nil hchar).elim, ?_⟩
      unfold pointValue
      rw [List.append_nil, number_append, number_replicate, number_toDigits, List.length_replicate,
        List.length_nil, pow_zero, div_one, Nat.add_zero, Nat.cast_mul, Nat.cast_pow,
        ← zpow_natCast]
      congr 2
      omega
    · -- The point stands among the digits.
      rw [if_neg hbehind] at hparts
      subst hparts
      generalize hplace : (exponent + (Nat.toDigits 10 coefficient).length).toNat = place
      have hsplit := List.take_append_drop place (Nat.toDigits 10 coefficient)
      refine ⟨?_, fun char hchar ↦ hdigits char (List.mem_of_mem_drop hchar), ?_⟩
      · by_cases hempty : (Nat.toDigits 10 coefficient).take place = []
        · rw [if_pos hempty]
          exact Or.inl rfl
        · rw [if_neg hempty]
          by_cases hcoefficient : 0 < coefficient
          · have hwhole : Whole ((Nat.toDigits 10 coefficient).take place ++ []) :=
              whole_append hcoefficient hsplit.symm hempty
                fun char hchar ↦ (List.not_mem_nil hchar).elim
            rwa [List.append_nil] at hwhole
          · have hnil : coefficient = 0 := Nat.eq_zero_of_not_pos hcoefficient
            subst hnil
            cases place with
            | zero => exact absurd rfl hempty
            | succ place => exact Or.inl (by simp)
      · have hlength : exponent =
            -(((Nat.toDigits 10 coefficient).drop place).length : ℤ) := by
          rw [List.length_drop]
          omega
        refine Eq.trans ?_ (div_pow_eq hlength (coefficient : ℚ))
        unfold pointValue
        congr 2
        by_cases hempty : (Nat.toDigits 10 coefficient).take place = []
        · rw [hempty, List.nil_append] at hsplit
          rw [if_pos hempty, hsplit, List.singleton_append, number_zero_cons, number_toDigits]
        · rw [if_neg hempty, hsplit, number_toDigits]

theorem fixedParts_spec (coefficient : ℕ) (exponent : ℤ) :
    Whole (fixedParts coefficient exponent).1 ∧ Digits (fixedParts coefficient exponent).2 ∧
      pointValue (fixedParts coefficient exponent).1 (fixedParts coefficient exponent).2 =
        coefficient * (10 : ℚ) ^ exponent := by
  unfold fixedParts
  by_cases hzero : coefficient = 0 ∧ 0 < exponent
  · rw [if_pos hzero]
    obtain ⟨hwhole, hdigits, hvalue⟩ := placePoint_spec (fun _ ↦ le_refl 0)
      (Eq.refl (placePoint (Nat.toDigits 10 coefficient) 0))
    refine ⟨hwhole, hdigits, hvalue.trans ?_⟩
    rw [hzero.1, Nat.cast_zero, zero_mul, zero_mul]
  · rw [if_neg hzero]
    exact placePoint_spec (fun heq ↦ Int.not_lt.mp fun hlt ↦ hzero ⟨heq, hlt⟩) rfl

theorem ne_point {char : Char} (hchar : char.isDigit = true) : char ≠ '.' := by
  rintro rfl
  exact absurd hchar (by decide)

/-- Dropping the zeros at the end, and then a point. -/
theorem strip_pointText {sign whole fraction : List Char} (hsign : '.' ∉ sign)
    (hwhole : Whole whole) (hfraction : Digits fraction) :
    (if '.' ∈ sign ++ pointText whole fraction then
        ((sign ++ pointText whole fraction).rdropWhile (· = '0')).rdropWhile (· = '.')
      else sign ++ pointText whole fraction) =
      sign ++ pointText whole (fraction.rdropWhile (· = '0')) := by
  have hpoint : ∀ {text : List Char}, Digits text → '.' ∉ text := fun htext hmem ↦
    absurd rfl (ne_point (htext _ hmem))
  have hkeep : ∀ {text : List Char} (before : List Char), Digits text → text ≠ [] →
      (before ++ text).rdropWhile (fun char ↦ decide (char = '.')) = before ++ text := by
    intro text before htext hne
    refine List.rdropWhile_eq_self_iff.mpr fun _ ↦ ?_
    rw [List.getLast_append_of_ne_nil _ hne, decide_eq_true_eq]
    exact ne_point (htext _ (List.getLast_mem hne))
  unfold pointText
  by_cases hempty : fraction = []
  · subst hempty
    rw [if_neg]
    · rfl
    · simpa using ⟨hsign, hpoint hwhole.digits⟩
  · rw [if_neg hempty, if_pos (by simp)]
    rw [← List.append_assoc, rdropWhile_append_cons (by decide)]
    by_cases hzeros : fraction.rdropWhile (· = '0') = []
    · rw [hzeros, if_pos rfl, List.append_nil, List.rdropWhile_concat_pos _ _ _ (by decide)]
      exact hkeep sign hwhole.digits hwhole.ne_nil
    · rw [if_neg hzeros]
      have hdigits : Digits (fraction.rdropWhile (· = '0')) := fun char hchar ↦
        hfraction char ((List.rdropWhile_prefix _ _).subset hchar)
      have hsplit : sign ++ whole ++ '.' :: fraction.rdropWhile (· = '0') =
          sign ++ whole ++ ['.'] ++ fraction.rdropWhile (· = '0') := by simp
      rw [hsplit, hkeep _ hdigits hzeros]
      simp

theorem normal_zero : Normal ['0'] [] :=
  ⟨Or.inl rfl, fun _ hchar ↦ (List.not_mem_nil hchar).elim, by simp⟩

theorem pointValue_zero : pointValue ['0'] [] = 0 := by
  have hzero : number (['0'] ++ []) = 0 := rfl
  rw [pointValue, hzero, Nat.cast_zero, zero_div]

/-- A numeral is neither empty nor the one of a negative zero. -/
theorem pointText_not_mem {whole : List Char} (hwhole : Whole whole) (fraction : List Char) :
    pointText whole fraction ∉ [[], ['-', '0']] := by
  obtain ⟨char, rest, rfl⟩ := List.exists_cons_of_ne_nil hwhole.ne_nil
  have hchar : char.isDigit = true := hwhole.digits char List.mem_cons_self
  intro hmem
  simp only [List.mem_cons, List.not_mem_nil, or_false, pointText, List.cons_append, reduceCtorEq,
    false_or, List.cons.injEq] at hmem
  rw [hmem.1] at hchar
  exact absurd hchar (by decide)

/-- What is written is the normal numeral of the number. -/
theorem canonicalDecimalText_normal {value : Decimal} (hfinite : value.isFinite = true)
    (hpositive : value.isNegative = false) :
    ∃ whole fraction, Normal whole fraction ∧
      canonicalDecimalText value = .ok (pointText whole fraction) ∧
      value.value = some (pointValue whole fraction) := by
  cases value with
  | infinity negative => exact absurd hfinite Bool.false_ne_true
  | nan negative signalling payload => exact absurd hfinite Bool.false_ne_true
  | finite negative coefficient exponent =>
    obtain ⟨hwhole, hdigits, hvalue⟩ := fixedParts_spec coefficient exponent
    have hnormal := normal_rdropWhile hwhole hdigits
    rw [← pointValue_rdropWhile] at hvalue
    have hsign : '.' ∉ if negative then ['-'] else [] := by
      cases negative <;> decide
    have htext := strip_pointText hsign hwhole hdigits
    refine ⟨_, _, hnormal, ?_, ?_⟩
    · simp only [canonicalDecimalText, hpositive, Bool.false_eq_true, if_false]
      unfold formatFixed
      simp only [htext]
      cases negative with
      | false =>
        rw [if_neg Bool.false_ne_true, List.nil_append, if_neg (pointText_not_mem hwhole _)]
      | true =>
        -- Only a zero has this sign here.
        have hzero : coefficient = 0 := by
          simpa [Decimal.isNegative] using hpositive
        rw [hzero, Nat.cast_zero, zero_mul] at hvalue
        obtain ⟨hone, hnone⟩ := (hzero ▸ hnormal).unique normal_zero
          (hvalue.trans pointValue_zero.symm)
        rw [hzero, hone, hnone]
        rfl
    · rw [hvalue]
      cases negative with
      | false => simp [Decimal.value]
      | true =>
        have hzero : coefficient = 0 := by
          simpa [Decimal.isNegative] using hpositive
        simp [Decimal.value, hzero]

/-! ### What is read -/

section Reading

variable (unicodeDigit : Char → Option ℕ)

theorem isDecimal_of_isDigit {char : Char} (hchar : char.isDigit = true) :
    isDecimal unicodeDigit char = true := by
  unfold isDecimal digitValue
  rw [if_pos hchar]
  rfl

theorem isDecimal_point : isDecimal unicodeDigit '.' = false := by
  unfold isDecimal digitValue
  rw [if_neg (by decide), if_pos (by decide)]
  rfl

theorem readDigits_eq {digits : List Char} (hdigits : Digits digits) :
    readDigits unicodeDigit digits = number digits := by
  have hfrom : ∀ start, digits.foldl
      (fun total char ↦ 10 * total + (digitValue unicodeDigit char).getD 0) start =
        Nat.ofDigitChars 10 digits start := by
    induction digits with
    | nil => exact fun _ ↦ rfl
    | cons char digits ih =>
      intro start
      obtain ⟨hchar, hrest⟩ := List.forall_mem_cons.mp hdigits
      rw [List.foldl_cons, Nat.ofDigitChars_cons, ih hrest, digitValue, if_pos hchar]
      rfl
  exact hfrom 0

theorem readSign_of_isDigit {char : Char} (hchar : char.isDigit = true) (rest : List Char) :
    readSign (char :: rest) = (false, char :: rest) := by
  unfold readSign
  split
  · rename_i heq
    exact absurd hchar ((List.cons.inj heq).1 ▸ by decide)
  · rename_i heq
    exact absurd hchar ((List.cons.inj heq).1 ▸ by decide)
  · rfl

theorem takeWhile_digits {digits : List Char} (hdigits : Digits digits) (behind : List Char)
    (hbehind : ∀ char ∈ behind.head?, isDecimal unicodeDigit char = false) :
    (digits ++ behind).takeWhile (isDecimal unicodeDigit) = digits ∧
      (digits ++ behind).dropWhile (isDecimal unicodeDigit) = behind := by
  induction digits with
  | nil =>
    cases behind with
    | nil => exact ⟨rfl, rfl⟩
    | cons char rest =>
      have hchar := hbehind char rfl
      simp [hchar]
  | cons char digits ih =>
    obtain ⟨hchar, hrest⟩ := List.forall_mem_cons.mp hdigits
    have hdecimal := isDecimal_of_isDigit unicodeDigit hchar
    obtain ⟨htake, hdrop⟩ := ih hrest
    rw [List.cons_append, List.takeWhile_cons_of_pos hdecimal, List.dropWhile_cons_of_pos hdecimal,
      htake, hdrop]
    exact ⟨rfl, rfl⟩

theorem readFinite_pointText {whole fraction : List Char} (hwhole : Whole whole)
    (hfraction : Digits fraction) :
    readFinite unicodeDigit (pointText whole fraction) =
      some (.finite false (number (whole ++ fraction)) (-(fraction.length : ℤ))) := by
  have hsign : readSign (pointText whole fraction) = (false, pointText whole fraction) := by
    obtain ⟨char, rest, rfl⟩ := List.exists_cons_of_ne_nil hwhole.ne_nil
    exact readSign_of_isDigit (hwhole.digits char List.mem_cons_self) _
  have hnumber := readDigits_eq unicodeDigit (hwhole.digits.append hfraction)
  unfold readFinite
  simp only [hsign]
  unfold pointText
  by_cases hempty : fraction = []
  · subst hempty
    obtain ⟨htake, hdrop⟩ := takeWhile_digits unicodeDigit hwhole.digits [] (by simp)
    rw [List.append_nil] at htake hdrop hnumber
    simp [htake, hdrop, hwhole.ne_nil, readExponent, hnumber]
  · obtain ⟨htake, hdrop⟩ := takeWhile_digits unicodeDigit hwhole.digits ('.' :: fraction)
      (by simp [isDecimal_point])
    obtain ⟨htakeRest, hdropRest⟩ := takeWhile_digits unicodeDigit hfraction [] (by simp)
    rw [List.append_nil] at htakeRest hdropRest
    simp [hempty, htake, hdrop, htakeRest, hdropRest, hwhole.ne_nil, readExponent, hnumber]

theorem isDigit_or_eq_point {whole fraction : List Char} (hwhole : Whole whole)
    (hfraction : Digits fraction) {char : Char} (hmem : char ∈ pointText whole fraction) :
    char.isDigit = true ∨ char = '.' := by
  unfold pointText at hmem
  rcases List.mem_append.mp hmem with hmem | hmem
  · exact Or.inl (hwhole.digits char hmem)
  · by_cases hempty : fraction = []
    · rw [if_pos hempty] at hmem
      exact (List.not_mem_nil hmem).elim
    · rw [if_neg hempty] at hmem
      exact (List.mem_cons.mp hmem).symm.imp_left (hfraction char)

theorem decimalOf_pointText {whole fraction : List Char} (hwhole : Whole whole)
    (hfraction : Digits fraction) :
    decimalOf unicodeDigit (pointText whole fraction) =
      some (.finite false (number (whole ++ fraction)) (-(fraction.length : ℤ))) := by
  have hstrip : strip (pointText whole fraction) = pointText whole fraction := by
    refine strip_of_forall fun char hmem ↦ ?_
    rcases isDigit_or_eq_point hwhole hfraction hmem with hdigit | rfl
    · exact isSpace_of_isDigit hdigit
    · rfl
  have hfilter : (pointText whole fraction).filter (· ≠ '_') = pointText whole fraction := by
    refine List.filter_eq_self.mpr fun char hmem ↦ decide_eq_true ?_
    rcases isDigit_or_eq_point hwhole hfraction hmem with hdigit | rfl
    · rintro rfl
      exact absurd hdigit (by decide)
    · decide
  unfold decimalOf
  simp only [hstrip, hfilter, readFinite_pointText unicodeDigit hwhole hfraction, Option.some_or]

/-- The decimal that a numeral reads as is not negative and has its number. -/
theorem value_pointText (whole fraction : List Char) :
    (Decimal.finite false (number (whole ++ fraction)) (-(fraction.length : ℤ))).value =
      some (pointValue whole fraction) := by
  simp only [Decimal.value, Bool.false_eq_true, if_false, one_mul]
  rw [pointValue, div_pow_eq rfl]

end Reading

/-! ### The normal form -/

/-- Exactly the finite decimals that are not negative have a text. -/
theorem canonicalDecimalText_isOk_iff (value : Decimal) :
    (∃ text, canonicalDecimalText value = .ok text) ↔
      value.isFinite = true ∧ value.isNegative = false := by
  constructor
  · rintro ⟨text, htext⟩
    cases value with
    | infinity negative => exact absurd htext (by simp [canonicalDecimalText])
    | nan negative signalling payload => exact absurd htext (by simp [canonicalDecimalText])
    | finite negative coefficient exponent =>
      refine ⟨rfl, ?_⟩
      by_contra hnegative
      rw [Bool.not_eq_false] at hnegative
      simp [canonicalDecimalText, hnegative] at htext
  · rintro ⟨hfinite, hpositive⟩
    obtain ⟨whole, fraction, -, htext, -⟩ := canonicalDecimalText_normal hfinite hpositive
    exact ⟨_, htext⟩

theorem canonicalDecimalText_eq_ok {value : Decimal} {text : List Char}
    (htext : canonicalDecimalText value = .ok text) :
    ∃ whole fraction, Normal whole fraction ∧ text = pointText whole fraction ∧
      value.value = some (pointValue whole fraction) := by
  obtain ⟨hfinite, hpositive⟩ := (canonicalDecimalText_isOk_iff value).mp ⟨text, htext⟩
  obtain ⟨whole, fraction, hnormal, hwritten, hvalue⟩ :=
    canonicalDecimalText_normal hfinite hpositive
  rw [hwritten] at htext
  exact ⟨whole, fraction, hnormal, (Except.ok.inj htext).symm, hvalue⟩

/-- A normal numeral is the text of every decimal with its number. -/
theorem canonicalDecimalText_of_value {value : Decimal} {whole fraction : List Char}
    (hnormal : Normal whole fraction) (hvalue : value.value = some (pointValue whole fraction))
    (hpositive : value.isNegative = false) :
    canonicalDecimalText value = .ok (pointText whole fraction) := by
  have hfinite : value.isFinite = true := by
    cases value with
    | finite negative coefficient exponent => rfl
    | infinity negative => exact absurd hvalue (by simp [Decimal.value])
    | nan negative signalling payload => exact absurd hvalue (by simp [Decimal.value])
  obtain ⟨other, rest, hother, htext, hsame⟩ := canonicalDecimalText_normal hfinite hpositive
  obtain ⟨rfl, rfl⟩ := hother.unique hnormal (Option.some_inj.mp (hsame.symm.trans hvalue))
  exact htext

/-- What is written is read back as a decimal with the same number and the same text. -/
theorem decimalOf_text (unicodeDigit : Char → Option ℕ) {value : Decimal} {text : List Char}
    (htext : canonicalDecimalText value = .ok text) :
    ∃ read, decimalOf unicodeDigit text = some read ∧ read.value = value.value ∧
      canonicalDecimalText read = .ok text := by
  obtain ⟨whole, fraction, hnormal, rfl, hvalue⟩ := canonicalDecimalText_eq_ok htext
  refine ⟨_, decimalOf_pointText unicodeDigit hnormal.isWhole hnormal.digits, ?_, ?_⟩
  · rw [hvalue]
    exact value_pointText whole fraction
  · exact canonicalDecimalText_of_value hnormal (value_pointText whole fraction) rfl

/-- A number has one text. -/
theorem text_eq_iff {first second : Decimal} {text other : List Char}
    (hfirst : canonicalDecimalText first = .ok text)
    (hsecond : canonicalDecimalText second = .ok other) :
    text = other ↔ first.value = second.value := by
  obtain ⟨whole, fraction, hnormal, rfl, hvalue⟩ := canonicalDecimalText_eq_ok hfirst
  obtain ⟨whole', fraction', hnormal', rfl, hvalue'⟩ := canonicalDecimalText_eq_ok hsecond
  constructor
  · intro hsame
    have hread := decimalOf_pointText (fun _ ↦ none) hnormal.isWhole hnormal.digits
    rw [hsame, decimalOf_pointText (fun _ ↦ none) hnormal'.isWhole hnormal'.digits] at hread
    have hvalues := congrArg Decimal.value (Option.some_inj.mp hread)
    rw [value_pointText, value_pointText] at hvalues
    rw [hvalue, hvalue', hvalues]
  · intro hsame
    rw [hvalue, hvalue', Option.some_inj] at hsame
    obtain ⟨rfl, rfl⟩ := hnormal.unique hnormal' hsame
    rfl

/-- A field accepts a text of a document exactly when it is what would be written. -/
theorem nonNegativeDecimal_text_eq_ok (unicodeDigit : Char → Option ℕ) {text : List Char}
    {accepted : Decimal} :
    nonNegativeDecimal unicodeDigit true (.text text) = .ok accepted ↔
      decimalOf unicodeDigit text = some accepted ∧
        canonicalDecimalText accepted = .ok text := by
  simp only [nonNegativeDecimal, validateDecimal, if_true]
  cases hread : decimalOf unicodeDigit text with
  | none => simp [bind, Except.bind]
  | some parsed =>
    cases hcanonical : canonicalDecimalText parsed with
    | error message =>
      simp only [hcanonical, bind, Except.bind, reduceCtorEq, Option.some_inj, false_iff, not_and]
      rintro rfl hok
      rw [hcanonical] at hok
      exact absurd hok (by simp)
    | ok canonical =>
      have hpositive := ((canonicalDecimalText_isOk_iff parsed).mp ⟨canonical, hcanonical⟩).2
      simp only [hcanonical, bind, Except.bind, Option.some_inj]
      by_cases hsame : text = canonical
      · subst hsame
        simp only [ne_eq, not_true_eq_false, if_false, hpositive, Bool.false_eq_true,
          Except.ok.injEq]
        constructor
        · rintro rfl
          exact ⟨rfl, hcanonical⟩
        · exact And.left
      · simp only [ne_eq, hsame, not_false_eq_true, if_true, reduceCtorEq, false_iff, not_and]
        rintro rfl hok
        rw [hcanonical] at hok
        exact hsame (Except.ok.inj hok).symm

/-- The negative decimals have no text, so not every finite decimal has one. -/
theorem not_every_finite_has_text :
    ¬∀ value : Decimal, value.isFinite = true →
      ∃ text, canonicalDecimalText value = .ok text := by
  intro hall
  obtain ⟨text, htext⟩ := hall (.finite true 1 0) rfl
  exact absurd htext (by simp [canonicalDecimalText, Decimal.isNegative])

/-- The decimals that are finite and not negative have a normal form: a text of the pattern, which
is read back to the same number and is the same for all decimals with one number. The fields accept
the texts of the pattern and no others, and write them as they read them. -/
theorem canonical_decimals (unicodeDigit : Char → Option ℕ) :
    (∀ value : Decimal, value.isFinite = true → value.isNegative = false →
      ∃ text, canonicalDecimalText value = .ok text ∧ MatchesPattern text ∧
        ∃ read, decimalOf unicodeDigit text = some read ∧ read.value = value.value) ∧
    (∀ (first second : Decimal) (text other : List Char),
      canonicalDecimalText first = .ok text → canonicalDecimalText second = .ok other →
        (text = other ↔ first.value = second.value)) ∧
    (∀ text, (∃ accepted, nonNegativeDecimal unicodeDigit true (.text text) = .ok accepted) ↔
      MatchesPattern text) ∧
    (∀ text accepted, nonNegativeDecimal unicodeDigit true (.text text) = .ok accepted →
      canonicalDecimalText accepted = .ok text) := by
  refine ⟨fun value hfinite hpositive ↦ ?_, fun _ _ _ _ ↦ text_eq_iff, fun text ↦ ⟨?_, ?_⟩,
    fun text accepted hok ↦ ((nonNegativeDecimal_text_eq_ok unicodeDigit).mp hok).2⟩
  · obtain ⟨text, htext⟩ := (canonicalDecimalText_isOk_iff value).mpr ⟨hfinite, hpositive⟩
    obtain ⟨whole, fraction, hnormal, hpoint, -⟩ := canonicalDecimalText_eq_ok htext
    obtain ⟨read, hread, hvalue, -⟩ := decimalOf_text unicodeDigit htext
    exact ⟨text, htext, matchesPattern_iff.mpr ⟨whole, fraction, hnormal, hpoint⟩, read, hread,
      hvalue⟩
  · rintro ⟨accepted, hok⟩
    obtain ⟨whole, fraction, hnormal, hpoint, -⟩ :=
      canonicalDecimalText_eq_ok ((nonNegativeDecimal_text_eq_ok unicodeDigit).mp hok).2
    exact matchesPattern_iff.mpr ⟨whole, fraction, hnormal, hpoint⟩
  · intro hmatches
    obtain ⟨whole, fraction, hnormal, rfl⟩ := matchesPattern_iff.mp hmatches
    exact ⟨_, (nonNegativeDecimal_text_eq_ok unicodeDigit).mpr
      ⟨decimalOf_pointText unicodeDigit hnormal.isWhole hnormal.digits,
        canonicalDecimalText_of_value hnormal (value_pointText whole fraction) rfl⟩⟩

end Oamb.Contracts.CanonicalDecimals
