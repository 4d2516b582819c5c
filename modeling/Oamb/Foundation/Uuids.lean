import Oamb.Foundation.Hexadecimal

/-!
# UUIDs

A UUID is a number below 16^32. Its text has the digits in five groups, in lowercase and with hyphens
between them; a text of another form, as with uppercase digits or in braces, is not the one that is
written. The texts are ordered as the numbers are: `text_lt_iff`.
-/

set_option autoImplicit false

namespace Oamb.Foundation.Uuids

open Hexadecimal

/-- How many UUIDs there are. -/
def limit : ℕ := 16 ^ 32

/-- The characters of a UUID. -/
def characters (value : ℕ) : List Char :=
  hexText 8 (value / 16 ^ 24) ++ '-' :: (hexText 4 (value / 16 ^ 20) ++ '-' ::
    (hexText 4 (value / 16 ^ 16) ++ '-' :: (hexText 4 (value / 16 ^ 12) ++ '-' ::
      hexText 12 value)))

/-- The text of a UUID. -/
def text (value : ℕ) : String := String.ofList (characters value)

/-- The UUID of its text. -/
def readUuid (source : String) : Option ℕ :=
  (readHex (source.toList.filter (· ≠ '-'))).filter fun value ↦
    decide (value < limit ∧ text value = source)

/-- The text is the one that is written for a UUID. -/
def isCanonical (source : String) : Bool := (readUuid source).isSome

/-! ### Groups -/

theorem hexDigit_mod (value : ℕ) : hexDigit (value % 16) = hexDigit value := by
  rw [hexDigit, hexDigit, Nat.mod_mod]

/-- Only the lowest digits of a number are written. -/
theorem hexText_mod (width value : ℕ) : hexText width (value % 16 ^ width) = hexText width value := by
  cases width with
  | zero => rfl
  | succ width =>
    have hhigh : value % 16 ^ (width + 1) / 16 ^ width = value / 16 ^ width % 16 := by
      rw [pow_succ, Nat.mod_mul_right_div_self]
    have hlow : value % 16 ^ (width + 1) % 16 ^ width = value % 16 ^ width :=
      Nat.mod_mod_of_dvd value (pow_dvd_pow 16 (Nat.le_succ width))
    rw [hexText, hexText, hhigh, hexDigit_mod, hlow]

/-- The digits of a number in two groups. -/
theorem hexText_add (high low value : ℕ) :
    hexText (high + low) value = hexText high (value / 16 ^ low) ++ hexText low value := by
  induction high generalizing value with
  | zero => rw [Nat.zero_add, hexText, List.nil_append]
  | succ high ih =>
    have hdigit : value / 16 ^ (high + low) = value / 16 ^ low / 16 ^ high := by
      rw [Nat.div_div_eq_div_mul, ← pow_add, Nat.add_comm high low]
    have hhigh : value % 16 ^ (high + low) / 16 ^ low = value / 16 ^ low % 16 ^ high := by
      rw [pow_add, mul_comm, Nat.mod_mul_right_div_self]
    have hlow : hexText low (value % 16 ^ (high + low)) = hexText low value := by
      rw [← hexText_mod low (value % _), Nat.mod_mod_of_dvd value
        (pow_dvd_pow 16 (Nat.le_add_left low high)), hexText_mod]
    rw [Nat.add_right_comm, hexText, hexText, ih, hdigit, hhigh, hlow, List.cons_append]

/-- The digits of a UUID without their hyphens. -/
theorem hexText_groups (value : ℕ) :
    hexText 32 value = hexText 8 (value / 16 ^ 24) ++ (hexText 4 (value / 16 ^ 20) ++
      (hexText 4 (value / 16 ^ 16) ++ (hexText 4 (value / 16 ^ 12) ++ hexText 12 value))) := by
  rw [hexText_add 8 24, hexText_add 4 20, hexText_add 4 16, hexText_add 4 12]

theorem filter_hexText (width value : ℕ) :
    (hexText width value).filter (· ≠ '-') = hexText width value :=
  List.filter_eq_self.mpr fun _ hchar ↦ by
    simpa only [ne_eq, decide_eq_true_eq] using ne_hyphen_of_mem_hexText hchar

theorem filter_characters (value : ℕ) :
    (characters value).filter (· ≠ '-') = hexText 32 value := by
  have hhyphen (rest : List Char) : ('-' :: rest).filter (· ≠ '-') = rest.filter (· ≠ '-') :=
    List.filter_cons_of_neg (by decide)
  rw [characters, hexText_groups]
  simp only [List.filter_append, hhyphen, filter_hexText]

theorem readUuid_text {value : ℕ} (hvalue : value < limit) :
    readUuid (text value) = some value := by
  have hdigits : readHex (hexText 32 value) = some value := by
    rw [readHex_hexText, ← limit, Nat.mod_eq_of_lt hvalue]
  rw [readUuid, text, String.toList_ofList, filter_characters, hdigits, Option.filter_some]
  exact if_pos (decide_eq_true ⟨hvalue, rfl⟩)

theorem isCanonical_text {value : ℕ} (hvalue : value < limit) : isCanonical (text value) = true := by
  rw [isCanonical, readUuid_text hvalue, Option.isSome_some]

theorem text_inj {value other : ℕ} (hvalue : value < limit) (hother : other < limit)
    (hsame : text value = text other) : value = other := by
  rw [← Option.some_inj, ← readUuid_text hvalue, hsame, readUuid_text hother]

theorem length_text (value : ℕ) : (text value).toList.length = 36 := by
  simp [text, characters]

/-! ### Order -/

/-- Texts of one length are ordered by their heads, and then by what follows. -/
theorem append_lt_append_iff {first second : List Char} (hlength : first.length = second.length)
    (rest others : List Char) :
    first ++ rest < second ++ others ↔ first < second ∨ first = second ∧ rest < others := by
  induction first generalizing second with
  | nil =>
    obtain rfl := List.eq_nil_of_length_eq_zero hlength.symm
    simp
  | cons char chars ih =>
    cases second with
    | nil => cases hlength
    | cons other tail =>
      rw [List.cons_append, List.cons_append, List.cons_lt_cons_iff, List.cons_lt_cons_iff,
        ih (Nat.succ.inj hlength), List.cons.injEq]
      tauto

theorem hyphen_lt_hyphen_iff (rest others : List Char) :
    '-' :: rest < '-' :: others ↔ rest < others := by
  rw [List.cons_lt_cons_iff]
  exact ⟨fun hlt ↦ (hlt.resolve_left (by decide)).2, fun hlt ↦ Or.inr ⟨rfl, hlt⟩⟩

/-- UUIDs are ordered as texts as they are as numbers. -/
theorem text_lt_iff {value other : ℕ} (hvalue : value < limit) (hother : other < limit) :
    text value < text other ↔ value < other := by
  rw [← hexText_lt_iff hvalue hother, String.lt_iff, text, text, String.toList_ofList,
    String.toList_ofList, hexText_groups, hexText_groups, characters, characters]
  simp only [append_lt_append_iff, length_hexText, hyphen_lt_hyphen_iff]

end Oamb.Foundation.Uuids
