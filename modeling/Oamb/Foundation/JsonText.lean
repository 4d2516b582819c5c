import Oamb.Foundation.Hexadecimal
import Oamb.Foundation.JsonValues
import Oamb.Foundation.Numerals

/-!
# The text of a JSON value

A value is written without blanks, with the members of every object sorted by name, and either with
every character that is not ASCII as an escape or with only the control characters as escapes. A text
is read as a parser of the full notation reads it: with blanks, every escape, and every form of a
number.

`loads_dumps` is the round trip: the text of a value whose numbers are integers is read back as that
value with its members sorted. `readUtf8_utf8` is the one of the encoding below it, and
`sorted_eq_of_dumps` says that two values with one text are the same up to the order of their members.
-/

set_option autoImplicit false

namespace Oamb.Foundation.JsonText

open Hexadecimal Numerals

/-! ### Bytes -/

/-- The bytes of a text. -/
def utf8 (chars : List Char) : Bytes := (String.ofList chars).toByteArray.data.toList

/-- The text of some bytes. -/
def readUtf8 (content : Bytes) : Option (List Char) :=
  (ByteArray.mk content.toArray).utf8Decode?.map Array.toList

@[simp] theorem readUtf8_utf8 (chars : List Char) : readUtf8 (utf8 chars) = some chars := by
  rw [readUtf8, utf8, String.toByteArray_ofList, Array.toArray_toList,
    List.utf8Decode?_utf8Encode, Option.map_some]

theorem utf8_injective : Function.Injective utf8 := by
  intro chars others hsame
  rw [← Option.some_inj, ← readUtf8_utf8 chars, hsame, readUtf8_utf8]

/-! ### Writing -/

/-- The escape of a code unit. -/
def unicodeEscape (unit : ℕ) : List Char :=
  ['\\', 'u', hexDigit (unit / 4096), hexDigit (unit / 256), hexDigit (unit / 16), hexDigit unit]

/-- The code units of a character. -/
def codeUnits (char : Char) : List ℕ :=
  if char.toNat < 0x10000 then [char.toNat]
  else [0xd800 + (char.toNat - 0x10000) / 0x400, 0xdc00 + (char.toNat - 0x10000) % 0x400]

/-- The characters that have an escape of their own, with its letter. -/
def shortEscapes : List (Char × Char) :=
  [('"', '"'), ('\\', '\\'), ('\n', 'n'), ('\r', 'r'), ('\t', 't'), ('\x08', 'b'), ('\x0c', 'f')]

/-- A character of a string. -/
def writeChar (ascii : Bool) (char : Char) : List Char :=
  match shortEscapes.lookup char with
  | some letter => ['\\', letter]
  | none =>
    if char.toNat < 0x20 ∨ ascii = true ∧ 0x7f ≤ char.toNat then
      (codeUnits char).flatMap unicodeEscape
    else [char]

/-- A string. -/
def writeText (ascii : Bool) (text : String) : List Char :=
  '"' :: (text.toList.flatMap (writeChar ascii) ++ ['"'])

/-- An integer. -/
def writeInteger (value : ℤ) : List Char :=
  if value < 0 then '-' :: Nat.toDigits 10 value.natAbs else Nat.toDigits 10 value.natAbs

mutual

/-- A value, with its members in their order. -/
def write (ascii : Bool) : Json → List Char
  | .null => "null".toList
  | .bool true => "true".toList
  | .bool false => "false".toList
  | .integer value => writeInteger value
  | .real _ text => text.toList
  | .string text => writeText ascii text
  | .array [] => ['[', ']']
  | .array (item :: items) => '[' :: (write ascii item ++ writeItems ascii items)
  | .object [] => ['{', '}']
  | .object ((name, value) :: members) =>
    '{' :: (writeText ascii name ++ ':' :: (write ascii value ++ writeMembers ascii members))

/-- The items after the first, and the end of their array. -/
def writeItems (ascii : Bool) : List Json → List Char
  | [] => [']']
  | item :: items => ',' :: (write ascii item ++ writeItems ascii items)

/-- The members after the first, and the end of their object. -/
def writeMembers (ascii : Bool) : List (String × Json) → List Char
  | [] => ['}']
  | (name, value) :: members =>
    ',' :: (writeText ascii name ++ ':' :: (write ascii value ++ writeMembers ascii members))

end

/-- Members sorted by name; those of one name stay in their order. -/
def sortMembers (members : List (String × Json)) : List (String × Json) :=
  members.mergeSort fun first second ↦ decide (first.1 ≤ second.1)

mutual

/-- A value with the members of every object sorted by name. -/
def sorted : Json → Json
  | .array items => .array (sortedItems items)
  | .object members => .object (sortMembers (sortedMembers members))
  | value => value

/-- The items sorted. -/
def sortedItems : List Json → List Json
  | [] => []
  | item :: items => sorted item :: sortedItems items

/-- The members with their values sorted. -/
def sortedMembers : List (String × Json) → List (String × Json)
  | [] => []
  | (name, value) :: members => (name, sorted value) :: sortedMembers members

end

/-- The text of a value. -/
def dumps (ascii : Bool) (value : Json) : List Char := write ascii (sorted value)

/-! ### Reading -/

/-- The characters between the parts of a value. -/
def blanks : List Char := [' ', '\t', '\n', '\r']

/-- The text after the blanks. -/
def skip (chars : List Char) : List Char := chars.dropWhile (· ∈ blanks)

/-- A code unit in four hexadecimal digits. -/
def readUnit : List Char → Option (ℕ × List Char)
  | first :: second :: third :: fourth :: rest => do
    let high ← hexValue first
    let upper ← hexValue second
    let lower ← hexValue third
    let low ← hexValue fourth
    some (((high * 16 + upper) * 16 + lower) * 16 + low, rest)
  | _ => none

/-- The character of an escape after its `\u`. A surrogate without its partner is no character. -/
def readUnicode (chars : List Char) : Option (Char × List Char) := do
  let (unit, rest) ← readUnit chars
  if 0xd800 ≤ unit ∧ unit < 0xdc00 then
    match rest with
    | '\\' :: 'u' :: tail => do
      let (low, rest) ← readUnit tail
      if 0xdc00 ≤ low ∧ low < 0xe000 then
        some (Char.ofNat (0x10000 + (unit - 0xd800) * 0x400 + (low - 0xdc00)), rest)
      else none
    | _ => none
  else if 0xdc00 ≤ unit ∧ unit < 0xe000 then none
  else some (Char.ofNat unit, rest)

/-- The letters of the escapes, with their characters. -/
def letterEscapes : List (Char × Char) :=
  ('/', '/') :: shortEscapes.map Prod.swap

/-- The next character of a string. -/
def readChar : List Char → Option (Char × List Char)
  | [] => none
  | char :: rest =>
    if char = '\\' then
      match rest with
      | [] => none
      | letter :: rest =>
        if letter = 'u' then readUnicode rest
        else (letterEscapes.lookup letter).map fun escaped ↦ (escaped, rest)
    else if char.toNat < 0x20 then none
    else some (char, rest)

/-- A string after its opening quote. -/
def readText : ℕ → List Char → Option (List Char × List Char)
  | 0, _ => none
  | fuel + 1, chars =>
    if chars.head? = some '"' then some ([], chars.tail)
    else do
      let (char, rest) ← readChar chars
      let (others, rest) ← readText fuel rest
      some (char :: others, rest)

/-- The words that are values. -/
def literals : List (List Char × Json) :=
  [("null".toList, .null), ("true".toList, .bool true), ("false".toList, .bool false),
    ("NaN".toList, .real false "NaN"), ("Infinity".toList, .real false "Infinity"),
    ("-Infinity".toList, .real false "-Infinity")]

/-- A word that is a value. -/
def readLiteral (chars : List Char) : Option (Json × List Char) :=
  (literals.find? fun literal ↦ literal.1.isPrefixOf chars).map fun literal ↦
    (literal.2, chars.drop literal.1.length)

/-- The part of a number before its point. -/
def readWhole (chars : List Char) : Option (List Char × List Char) :=
  if chars.head? = some '0' then some (['0'], chars.tail)
  else if chars.takeWhile Char.isDigit = [] then none
  else some (chars.takeWhile Char.isDigit, chars.dropWhile Char.isDigit)

/-- The part of a number after its point. -/
def readFraction (chars : List Char) : List Char × List Char :=
  if chars.head? = some '.' ∧ chars.tail.takeWhile Char.isDigit ≠ [] then
    (chars.tail.takeWhile Char.isDigit, chars.tail.dropWhile Char.isDigit)
  else ([], chars)

/-- The sign of an exponent. -/
def readSign (chars : List Char) : Bool × List Char :=
  if chars.head? = some '-' then (true, chars.tail)
  else if chars.head? = some '+' then (false, chars.tail)
  else (false, chars)

/-- The exponent of a number: its sign and its digits. -/
def readExponent (chars : List Char) : (Bool × List Char) × List Char :=
  if (chars.head? = some 'e' ∨ chars.head? = some 'E') ∧
      (readSign chars.tail).2.takeWhile Char.isDigit ≠ [] then
    (((readSign chars.tail).1, (readSign chars.tail).2.takeWhile Char.isDigit),
      (readSign chars.tail).2.dropWhile Char.isDigit)
  else ((false, []), chars)

/-- The least number that has no nearest double. -/
def doubleOverflow : ℕ := 2 ^ 1024 - 2 ^ 970

/-- The number of some digits, a fraction and an exponent has a nearest double. -/
def hasDouble (whole fraction : List Char) (negative : Bool) (exponent : List Char) : Bool :=
  let digits := Nat.ofDigitChars 10 (whole ++ fraction) 0
  let power := Nat.ofDigitChars 10 exponent 0
  if negative then decide (digits < doubleOverflow * 10 ^ (power + fraction.length))
  else decide (digits * 10 ^ power < doubleOverflow * 10 ^ fraction.length)

/-- A number after its sign. -/
def readUnsigned (negative : Bool) (chars : List Char) : Option (Json × List Char) := do
  let (whole, rest) ← readWhole chars
  let (fraction, rest) := readFraction rest
  let (exponent, rest) := readExponent rest
  let value : ℤ := Nat.ofDigitChars 10 whole 0
  if fraction = [] ∧ exponent.2 = [] then
    some (.integer (if negative then -value else value), rest)
  else
    let text := (if negative then ['-'] else []) ++ chars.take (chars.length - rest.length)
    some (.real (hasDouble whole fraction exponent.1 exponent.2) (String.ofList text), rest)

/-- A number. -/
def readNumber (chars : List Char) : Option (Json × List Char) :=
  if chars.head? = some '-' then readUnsigned true chars.tail else readUnsigned false chars

mutual

/-- A value. -/
def readValue : ℕ → List Char → Option (Json × List Char)
  | 0, _ => none
  | fuel + 1, chars =>
    if chars.head? = some '"' then do
      let (text, rest) ← readText chars.length chars.tail
      some (.string (String.ofList text), rest)
    else if chars.head? = some '[' then
      if (skip chars.tail).head? = some ']' then some (.array [], (skip chars.tail).tail)
      else (readItems fuel (skip chars.tail)).map fun read ↦ (.array read.1, read.2)
    else if chars.head? = some '{' then
      if (skip chars.tail).head? = some '}' then some (.object [], (skip chars.tail).tail)
      else (readMembers fuel (skip chars.tail)).map fun read ↦ (.object read.1, read.2)
    else (readLiteral chars).or (readNumber chars)

/-- The items that are left of an array, and its end. -/
def readItems : ℕ → List Char → Option (List Json × List Char)
  | 0, _ => none
  | fuel + 1, chars => do
    let (item, rest) ← readValue fuel chars
    if (skip rest).head? = some ',' then
      (readItems fuel (skip (skip rest).tail)).map fun read ↦ (item :: read.1, read.2)
    else if (skip rest).head? = some ']' then some ([item], (skip rest).tail)
    else none

/-- The members that are left of an object, and its end. -/
def readMembers : ℕ → List Char → Option (List (String × Json) × List Char)
  | 0, _ => none
  | fuel + 1, chars =>
    if chars.head? = some '"' then do
      let (name, rest) ← readText chars.length chars.tail
      if (skip rest).head? = some ':' then do
        let (value, rest) ← readValue fuel (skip (skip rest).tail)
        if (skip rest).head? = some ',' then
          (readMembers fuel (skip (skip rest).tail)).map fun read ↦
            ((String.ofList name, value) :: read.1, read.2)
        else if (skip rest).head? = some '}' then
          some ([(String.ofList name, value)], (skip rest).tail)
        else none
      else none
    else none

end

/-- The value of a text. -/
def loads (chars : List Char) : Option Json := do
  let (value, rest) ← readValue (chars.length + 1) (skip chars)
  if skip rest = [] then some value else none

/-! ### Strings -/

theorem readUnit_digits {unit : ℕ} (hunit : unit < 65536) (rest : List Char) :
    readUnit (hexDigit (unit / 4096) :: hexDigit (unit / 256) :: hexDigit (unit / 16) ::
      hexDigit unit :: rest) = some (unit, rest) := by
  simp only [readUnit, hexValue_hexDigit, Option.bind_eq_bind, Option.bind_some, Option.some.injEq,
    Prod.mk.injEq, and_true]
  omega

theorem readUnicode_single {char : Char} (hsmall : char.toNat < 0x10000) (rest : List Char) :
    readUnicode ((unicodeEscape char.toNat ++ rest).drop 2) = some (char, rest) := by
  have hvalid : char.toNat < 0xd800 ∨ 0xdfff < char.toNat ∧ char.toNat < 0x110000 := char.valid
  simp only [unicodeEscape, List.cons_append, List.nil_append, List.drop_succ_cons, List.drop_zero]
  rw [readUnicode, readUnit_digits hsmall]
  simp only [Option.bind_eq_bind, Option.bind_some]
  rw [if_neg (by omega), if_neg (by omega), Char.ofNat_toNat]

theorem readUnicode_pair {high low : ℕ} (hhigh : 0xd800 ≤ high ∧ high < 0xdc00)
    (hlow : 0xdc00 ≤ low ∧ low < 0xe000) (rest : List Char) :
    readUnicode ((unicodeEscape high ++ (unicodeEscape low ++ rest)).drop 2) =
      some (Char.ofNat (0x10000 + (high - 0xd800) * 0x400 + (low - 0xdc00)), rest) := by
  simp only [unicodeEscape, List.cons_append, List.nil_append, List.drop_succ_cons, List.drop_zero]
  rw [readUnicode, readUnit_digits (hhigh.2.trans (by decide))]
  simp only [Option.bind_eq_bind, Option.bind_some]
  rw [if_pos hhigh, readUnit_digits (hlow.2.trans (by decide))]
  simp only [Option.bind_some]
  rw [if_pos hlow]

theorem readUnicode_units (char : Char) (rest : List Char) :
    readUnicode (((codeUnits char).flatMap unicodeEscape ++ rest).drop 2) = some (char, rest) := by
  by_cases hsmall : char.toNat < 0x10000
  · rw [codeUnits, if_pos hsmall]
    simpa only [List.flatMap_cons, List.flatMap_nil, List.append_nil] using
      readUnicode_single hsmall rest
  · have hvalid : char.toNat < 0xd800 ∨ 0xdfff < char.toNat ∧ char.toNat < 0x110000 := char.valid
    obtain ⟨offset, hoffset⟩ := Nat.exists_eq_add_of_le (Nat.not_lt.mp hsmall)
    have hchar : 0x10000 + (0xd800 + offset / 0x400 - 0xd800) * 0x400 +
        (0xdc00 + offset % 0x400 - 0xdc00) = char.toNat := by
      omega
    have hpair := @readUnicode_pair (0xd800 + offset / 0x400) (0xdc00 + offset % 0x400) (by omega)
      (by omega) rest
    rw [hchar, Char.ofNat_toNat] at hpair
    rw [codeUnits, if_neg hsmall, hoffset, Nat.add_sub_cancel_left]
    simpa only [List.flatMap_cons, List.flatMap_nil, List.append_nil, List.append_assoc] using hpair

/-- A code unit is written as an escape, so its text starts as one. -/
theorem flatMap_units (char : Char) : ∃ digits,
    (codeUnits char).flatMap unicodeEscape = '\\' :: 'u' :: digits := by
  by_cases hsmall : char.toNat < 0x10000
  · exact ⟨_, by rw [codeUnits, if_pos hsmall]; rfl⟩
  · exact ⟨_, by rw [codeUnits, if_neg hsmall]; rfl⟩

theorem readChar_writeChar (ascii : Bool) (char : Char) (rest : List Char) :
    readChar (writeChar ascii char ++ rest) = some (char, rest) := by
  rw [writeChar]
  cases hlookup : shortEscapes.lookup char with
  | some letter =>
    obtain ⟨before, after, hsplit, -⟩ := List.lookup_eq_some_iff.mp hlookup
    have hmem : (char, letter) ∈ shortEscapes := hsplit ▸ List.mem_append_right before List.mem_cons_self
    have hall : ∀ pair ∈ shortEscapes, pair.2 ≠ 'u' ∧
        letterEscapes.lookup pair.2 = some pair.1 := by
      decide
    obtain ⟨hletter, hback⟩ := hall _ hmem
    simp only [List.cons_append, List.nil_append, readChar, if_pos, if_neg hletter, hback,
      Option.map_some]
  | none =>
    have hbackslash : char ≠ '\\' := by
      rintro rfl
      exact absurd hlookup (by decide)
    by_cases hescaped : char.toNat < 0x20 ∨ ascii = true ∧ 0x7f ≤ char.toNat
    · obtain ⟨digits, hdigits⟩ := flatMap_units char
      have hread := readUnicode_units char rest
      simp only [if_pos hescaped]
      rw [hdigits] at hread ⊢
      simpa only [List.cons_append, readChar, if_pos, List.drop_succ_cons, List.drop_zero]
        using hread
    · have hprintable : ¬ char.toNat < 0x20 := fun hsmall ↦ hescaped (Or.inl hsmall)
      simp only [if_neg hescaped, List.cons_append, List.nil_append, readChar, if_neg hbackslash,
        if_neg hprintable]

theorem head_writeChar (ascii : Bool) (char : Char) :
    ∃ head tail, writeChar ascii char = head :: tail ∧ head ≠ '"' := by
  rw [writeChar]
  cases hlookup : shortEscapes.lookup char with
  | some letter => exact ⟨'\\', [letter], rfl, by decide⟩
  | none =>
    by_cases hescaped : char.toNat < 0x20 ∨ ascii = true ∧ 0x7f ≤ char.toNat
    · obtain ⟨digits, hdigits⟩ := flatMap_units char
      exact ⟨'\\', 'u' :: digits, by rw [← hdigits]; exact if_pos hescaped, by decide⟩
    · refine ⟨char, [], if_neg hescaped, ?_⟩
      rintro rfl
      exact absurd hlookup (by decide)

theorem readText_flatMap (ascii : Bool) (chars rest : List Char) {fuel : ℕ}
    (hfuel : chars.length < fuel) :
    readText fuel (chars.flatMap (writeChar ascii) ++ '"' :: rest) = some (chars, rest) := by
  induction chars generalizing fuel with
  | nil =>
    obtain ⟨fuel, rfl⟩ := Nat.exists_eq_add_of_lt hfuel
    rfl
  | cons char chars ih =>
    obtain ⟨fuel, rfl⟩ : ∃ fuel', fuel = fuel' + 1 := ⟨fuel - 1, by omega⟩
    obtain ⟨head, tail, hhead, hquote⟩ := head_writeChar ascii char
    have hread := readChar_writeChar ascii char
      (chars.flatMap (writeChar ascii) ++ '"' :: rest)
    have hne : ¬ (((char :: chars).flatMap (writeChar ascii) ++ '"' :: rest).head? =
        some '"') := by
      simp only [List.flatMap_cons, hhead, List.cons_append, List.head?_cons, Option.some.injEq]
      exact hquote
    rw [readText, if_neg hne, List.flatMap_cons, List.append_assoc, hread]
    simp only [Option.bind_eq_bind, Option.bind_some]
    rw [ih (by simpa only [List.length_cons, Nat.succ_lt_succ_iff] using hfuel)]
    rfl

/-- A written string is read back, with as many steps as its text is long. -/
theorem readText_writeText (ascii : Bool) (text : String) (rest : List Char) :
    readText (writeText ascii text ++ rest).length (writeText ascii text ++ rest).tail =
      some (text.toList, rest) := by
  have hlength : text.toList.length ≤ (text.toList.flatMap (writeChar ascii)).length := by
    rw [List.length_flatMap]
    have hone : ∀ char ∈ text.toList, 1 ≤ (writeChar ascii char).length := by
      intro char _
      obtain ⟨head, tail, hhead, -⟩ := head_writeChar ascii char
      rw [hhead]
      exact Nat.succ_le_succ (Nat.zero_le _)
    have hsum := List.length_le_sum_of_one_le (text.toList.map fun char ↦
      (writeChar ascii char).length) (by simpa only [List.mem_map, forall_exists_index, and_imp,
        forall_apply_eq_imp_iff₂] using hone)
    simpa only [List.length_map] using hsum
  have htail : (writeText ascii text ++ rest).tail =
      text.toList.flatMap (writeChar ascii) ++ '"' :: rest := by
    simp only [writeText, List.cons_append, List.tail_cons, List.append_assoc, List.nil_append]
  rw [htail]
  refine readText_flatMap ascii text.toList rest ?_
  simp only [writeText, List.cons_append, List.length_cons, List.length_append]
  omega

/-! ### Numbers -/

/-- What comes after a value does not go on with a number. -/
def Stops (rest : List Char) : Prop :=
  ∀ char ∈ rest.head?, char.isDigit = false ∧ char ≠ '.' ∧ char ≠ 'e' ∧ char ≠ 'E'

theorem Stops.ends {rest : List Char} (hstops : Stops rest) : Ends rest :=
  fun char hchar ↦ (hstops char hchar).1

theorem stops_nil : Stops [] := by
  intro char hchar
  cases hchar

theorem stops_cons {char : Char} (rest : List Char)
    (hchar : char.isDigit = false ∧ char ≠ '.' ∧ char ≠ 'e' ∧ char ≠ 'E') :
    Stops (char :: rest) := by
  intro head hhead
  obtain rfl : char = head := Option.some_inj.mp hhead
  exact hchar

theorem readFraction_of_stops {rest : List Char} (hstops : Stops rest) :
    readFraction rest = ([], rest) :=
  if_neg fun hpoint ↦ (hstops '.' hpoint.1).2.1 rfl

theorem readExponent_of_stops {rest : List Char} (hstops : Stops rest) :
    readExponent rest = ((false, []), rest) := by
  refine if_neg ?_
  rintro ⟨hlower | hupper, -⟩
  · exact (hstops 'e' hlower).2.2.1 rfl
  · exact (hstops 'E' hupper).2.2.2 rfl

theorem readWhole_toDigits {rest : List Char} (hends : Ends rest) (number : ℕ) :
    readWhole (Nat.toDigits 10 number ++ rest) = some (Nat.toDigits 10 number, rest) := by
  by_cases hzero : number = 0
  · subst hzero
    rfl
  · have hhead : ¬ (Nat.toDigits 10 number ++ rest).head? = some '0' := by
      rw [List.head?_append, Option.or_of_isSome (by simp)]
      exact head_toDigits_ne_zero (Nat.pos_of_ne_zero hzero)
    rw [readWhole, if_neg hhead, takeWhile_toDigits hends, dropWhile_toDigits hends,
      if_neg Nat.toDigits_ne_nil]

theorem readUnsigned_toDigits {rest : List Char} (hstops : Stops rest) (negative : Bool)
    (number : ℕ) :
    readUnsigned negative (Nat.toDigits 10 number ++ rest) =
      some (.integer (if negative then -number else number), rest) := by
  rw [readUnsigned, readWhole_toDigits hstops.ends]
  simp only [Option.bind_eq_bind, Option.bind_some, readFraction_of_stops hstops,
    readExponent_of_stops hstops, and_self, if_true, Nat.ofDigitChars_ten_toDigits]

/-- The head of the digits of a number. -/
theorem head_toDigits (number : ℕ) :
    ∃ digit digits, Nat.toDigits 10 number = digit :: digits ∧ digit.isDigit = true := by
  cases hdigits : Nat.toDigits 10 number with
  | nil => exact absurd hdigits Nat.toDigits_ne_nil
  | cons digit digits =>
    have hall := List.all_eq_true.mp (all_isDigit_toDigits number)
    exact ⟨digit, digits, rfl, hall digit (hdigits ▸ List.mem_cons_self)⟩

/-- An integer starts with a sign or a digit. -/
theorem head_writeInteger (value : ℤ) :
    ∃ head tail, writeInteger value = head :: tail ∧ (head = '-' ∨ head.isDigit = true) := by
  obtain ⟨digit, digits, hdigits, hdigit⟩ := head_toDigits value.natAbs
  by_cases hnegative : value < 0
  · exact ⟨'-', Nat.toDigits 10 value.natAbs, if_pos hnegative, Or.inl rfl⟩
  · exact ⟨digit, digits, by rw [writeInteger, if_neg hnegative, hdigits], Or.inr hdigit⟩

theorem ne_of_isDigit {digit : Char} (hdigit : digit.isDigit = true) {char : Char}
    (hchar : char.isDigit = false) : digit ≠ char := by
  rintro rfl
  rw [hdigit] at hchar
  exact Bool.noConfusion hchar

theorem readNumber_writeInteger {rest : List Char} (hstops : Stops rest) (value : ℤ) :
    readNumber (writeInteger value ++ rest) = some (.integer value, rest) := by
  obtain ⟨digit, digits, hdigits, hdigit⟩ := head_toDigits value.natAbs
  by_cases hnegative : value < 0
  · rw [writeInteger, if_pos hnegative, readNumber, List.cons_append, List.head?_cons, if_pos rfl,
      List.tail_cons]
    have hvalue : -(value.natAbs : ℤ) = value := by omega
    simpa only [if_true, hvalue] using readUnsigned_toDigits hstops true value.natAbs
  · have hhead : ¬ (Nat.toDigits 10 value.natAbs ++ rest).head? = some '-' := by
      rw [hdigits, List.cons_append, List.head?_cons, Option.some_inj]
      exact ne_of_isDigit hdigit rfl
    have hvalue : (value.natAbs : ℤ) = value := by omega
    rw [writeInteger, if_neg hnegative, readNumber, if_neg hhead,
      readUnsigned_toDigits hstops false, if_neg Bool.false_ne_true, hvalue]

/-- No word starts as a number does. -/
theorem readLiteral_writeInteger (value : ℤ) (rest : List Char) :
    readLiteral (writeInteger value ++ rest) = none := by
  obtain ⟨digit, digits, hdigits, hdigit⟩ := head_toDigits value.natAbs
  have hfirst : ∀ char : Char, char.isDigit = false → (char == digit) = false := fun char hchar ↦
    beq_false_of_ne (ne_of_isDigit hdigit hchar).symm
  rw [readLiteral, Option.map_eq_none_iff, List.find?_eq_none]
  intro literal hliteral
  simp only [literals, List.mem_cons, List.not_mem_nil, or_false] at hliteral
  by_cases hnegative : value < 0
  · rw [writeInteger, if_pos hnegative, hdigits]
    rcases hliteral with rfl | rfl | rfl | rfl | rfl | rfl <;>
      simp [List.isPrefixOf, hfirst]
  · rw [writeInteger, if_neg hnegative, hdigits]
    rcases hliteral with rfl | rfl | rfl | rfl | rfl | rfl <;>
      simp [List.isPrefixOf, hfirst]

/-- A number starts with neither a blank nor the end of an array. -/
theorem ne_of_starts {head : Char} (hstart : head = '-' ∨ head.isDigit = true) :
    head ∉ blanks ∧ head ≠ ']' := by
  rcases hstart with rfl | hdigit
  · exact ⟨by decide, by decide⟩
  · refine ⟨fun hblank ↦ ?_, ne_of_isDigit hdigit rfl⟩
    have hall : (blanks.all fun char ↦ !char.isDigit) = true := by decide
    have hhead := List.all_eq_true.mp hall head hblank
    rw [hdigit] at hhead
    exact Bool.false_ne_true hhead

/-- A number does not start as a string, an array or an object does. -/
theorem notMem_of_starts {head : Char} (hstart : head = '-' ∨ head.isDigit = true) :
    head ∉ ['"', '[', '{'] := by
  rcases hstart with rfl | hdigit
  · decide
  · intro hmem
    have hall : (['"', '[', '{'].all fun char ↦ !char.isDigit) = true := by decide
    have hhead := List.all_eq_true.mp hall head hmem
    rw [hdigit] at hhead
    exact Bool.false_ne_true hhead

/-! ### Values -/

mutual

/-- Every number of the value is an integer. -/
def isWhole : Json → Bool
  | .real _ _ => false
  | .array items => areWhole items
  | .object members => haveWhole members
  | .null | .bool _ | .integer _ | .string _ => true

/-- Every number of the items is an integer. -/
def areWhole : List Json → Bool
  | [] => true
  | item :: items => isWhole item && areWhole items

/-- Every number of the members is an integer. -/
def haveWhole : List (String × Json) → Bool
  | [] => true
  | (_, value) :: members => isWhole value && haveWhole members

end

/-- The text of a number that is no integer starts as a number and is read as this number. -/
structure RealReads (finite : Bool) (text : String) : Prop where
  head : ∃ head tail, text.toList = head :: tail ∧ (head = '-' ∨ head.isDigit = true)
  literal : ∀ rest, readLiteral (text.toList ++ rest) = none
  number : ∀ rest, Stops rest →
    readNumber (text.toList ++ rest) = some (.real finite text, rest)

mutual

/-- Every number of the value is an integer, or has a text that is read as it. -/
def IsRead : Json → Prop
  | .real finite text => RealReads finite text
  | .array items => AreRead items
  | .object members => HaveRead members
  | .null | .bool _ | .integer _ | .string _ => True

def AreRead : List Json → Prop
  | [] => True
  | item :: items => IsRead item ∧ AreRead items

def HaveRead : List (String × Json) → Prop
  | [] => True
  | (_, value) :: members => IsRead value ∧ HaveRead members

end

mutual

theorem isRead_of_isWhole : ∀ value : Json, isWhole value = true → IsRead value
  | .null, _ | .bool _, _ | .integer _, _ | .string _, _ => by
    rw [IsRead]
    trivial
  | .real _ _, hwhole => by cases hwhole
  | .array items, hwhole => by
    rw [isWhole] at hwhole
    rw [IsRead]
    exact areRead_of_areWhole items hwhole
  | .object members, hwhole => by
    rw [isWhole] at hwhole
    rw [IsRead]
    exact haveRead_of_haveWhole members hwhole

theorem areRead_of_areWhole : ∀ items : List Json, areWhole items = true → AreRead items
  | [], _ => by
    rw [AreRead]
    trivial
  | item :: items, hwhole => by
    rw [areWhole, Bool.and_eq_true] at hwhole
    rw [AreRead]
    exact ⟨isRead_of_isWhole item hwhole.1, areRead_of_areWhole items hwhole.2⟩

theorem haveRead_of_haveWhole : ∀ members : List (String × Json), haveWhole members = true →
    HaveRead members
  | [], _ => by
    rw [HaveRead]
    trivial
  | (name, value) :: members, hwhole => by
    rw [haveWhole, Bool.and_eq_true] at hwhole
    rw [HaveRead]
    exact ⟨isRead_of_isWhole value hwhole.1, haveRead_of_haveWhole members hwhole.2⟩

end

/-- A value starts with neither a blank nor the end of an array. -/
theorem head_write (ascii : Bool) {value : Json} (hread : IsRead value) :
    ∃ head tail, write ascii value = head :: tail ∧ head ∉ blanks ∧ head ≠ ']' := by
  cases value with
  | null => exact ⟨'n', "ull".toList, by rw [write]; rfl, by decide, by decide⟩
  | bool value =>
    cases value with
    | true => exact ⟨'t', "rue".toList, by rw [write]; rfl, by decide, by decide⟩
    | false => exact ⟨'f', "alse".toList, by rw [write]; rfl, by decide, by decide⟩
  | integer value =>
    obtain ⟨head, tail, hhead, hstart⟩ := head_writeInteger value
    exact ⟨head, tail, by rw [write, hhead], ne_of_starts hstart⟩
  | real finite text =>
    rw [IsRead] at hread
    obtain ⟨head, tail, hhead, hstart⟩ := hread.head
    exact ⟨head, tail, by rw [write, hhead], ne_of_starts hstart⟩
  | string text => exact ⟨'"', _, by rw [write, writeText], by decide, by decide⟩
  | array items =>
    cases items with
    | nil => exact ⟨'[', _, by rw [write], by decide, by decide⟩
    | cons item items => exact ⟨'[', _, by rw [write], by decide, by decide⟩
  | object members =>
    cases members with
    | nil => exact ⟨'{', _, by rw [write], by decide, by decide⟩
    | cons member members => exact ⟨'{', _, by rw [write], by decide, by decide⟩

theorem skip_of_head {head : Char} (hhead : head ∉ blanks) (tail : List Char) :
    skip (head :: tail) = head :: tail := by
  rw [skip, List.dropWhile_cons_of_neg]
  simpa only [decide_eq_true_eq] using hhead

theorem skip_write (ascii : Bool) {value : Json} (hread : IsRead value)
    (rest : List Char) : skip (write ascii value ++ rest) = write ascii value ++ rest := by
  obtain ⟨head, tail, hhead, hblank, -⟩ := head_write ascii hread
  rw [hhead]
  exact skip_of_head hblank (tail ++ rest)

theorem head_writeItems (ascii : Bool) (items : List Json) :
    ∃ tail, writeItems ascii items = ']' :: tail ∨ writeItems ascii items = ',' :: tail := by
  cases items with
  | nil => exact ⟨[], Or.inl (by rw [writeItems])⟩
  | cons item items => exact ⟨_, Or.inr (by rw [writeItems])⟩

theorem head_writeMembers (ascii : Bool) (members : List (String × Json)) :
    ∃ tail, writeMembers ascii members = '}' :: tail ∨
      writeMembers ascii members = ',' :: tail := by
  cases members with
  | nil => exact ⟨[], Or.inl (by rw [writeMembers])⟩
  | cons member members => exact ⟨_, Or.inr (by rw [writeMembers])⟩

theorem stops_writeItems (ascii : Bool) (items : List Json) (rest : List Char) :
    Stops (writeItems ascii items ++ rest) := by
  obtain ⟨tail, htail | htail⟩ := head_writeItems ascii items <;>
    rw [htail] <;> exact stops_cons _ (by decide)

theorem stops_writeMembers (ascii : Bool) (members : List (String × Json)) (rest : List Char) :
    Stops (writeMembers ascii members ++ rest) := by
  obtain ⟨tail, htail | htail⟩ := head_writeMembers ascii members <;>
    rw [htail] <;> exact stops_cons _ (by decide)

/-- What is no string, array or object is a word or a number. -/
theorem readValue_plain {chars : List Char} {head : Char} {tail : List Char}
    (hchars : chars = head :: tail) (hhead : head ∉ ['"', '[', '{']) (fuel : ℕ) :
    readValue (fuel + 1) chars = (readLiteral chars).or (readNumber chars) := by
  simp only [List.mem_cons, List.not_mem_nil, or_false, not_or] at hhead
  simp only [readValue, hchars, List.head?_cons, Option.some.injEq, if_neg hhead.1,
    if_neg hhead.2.1, if_neg hhead.2.2]

theorem readValue_writeText (ascii : Bool) (text : String) (rest : List Char) (fuel : ℕ) :
    readValue (fuel + 1) (writeText ascii text ++ rest) = some (.string text, rest) := by
  have hhead : (writeText ascii text ++ rest).head? = some '"' := rfl
  rw [readValue, if_pos hhead, readText_writeText]
  simp only [Option.bind_eq_bind, Option.bind_some, String.ofList_toList]

/-- A member is read from its name on. -/
theorem readMembers_lead (ascii : Bool) (name : String) (fuel : ℕ) (chars : List Char) :
    readMembers (fuel + 1) (writeText ascii name ++ ':' :: chars) = (do
      let (value, rest) ← readValue fuel (skip chars)
      if (skip rest).head? = some ',' then
        (readMembers fuel (skip (skip rest).tail)).map fun read ↦ ((name, value) :: read.1, read.2)
      else if (skip rest).head? = some '}' then some ([(name, value)], (skip rest).tail)
      else none) := by
  have hhead : (writeText ascii name ++ ':' :: chars).head? = some '"' := rfl
  have hskip : skip (':' :: chars) = ':' :: chars := skip_of_head (by decide) chars
  rw [readMembers, if_pos hhead, readText_writeText]
  simp only [Option.bind_eq_bind, Option.bind_some, String.ofList_toList, hskip, List.head?_cons,
    if_true, List.tail_cons]

mutual

/-- A written value is read back, with as many steps as its text is long. -/
theorem readValue_write (ascii : Bool) : ∀ (value : Json) (fuel : ℕ) (rest : List Char),
    IsRead value → (write ascii value).length ≤ fuel → Stops rest →
    readValue fuel (write ascii value ++ rest) = some (value, rest)
  | .null, 0, _, _, hfuel, _ | .bool true, 0, _, _, hfuel, _ | .bool false, 0, _, _, hfuel, _ => by
    rw [write] at hfuel
    exact absurd hfuel (by decide)
  | .null, fuel + 1, rest, _, _, _ => by
    rw [write]
    exact @readValue_plain _ 'n' ("ull".toList ++ rest) rfl (by decide) fuel
  | .bool true, fuel + 1, rest, _, _, _ => by
    rw [write]
    exact @readValue_plain _ 't' ("rue".toList ++ rest) rfl (by decide) fuel
  | .bool false, fuel + 1, rest, _, _, _ => by
    rw [write]
    exact @readValue_plain _ 'f' ("alse".toList ++ rest) rfl (by decide) fuel
  | .integer value, fuel, rest, _, hfuel, hstops => by
    obtain ⟨head, tail, hhead, hstart⟩ := head_writeInteger value
    rw [write] at hfuel ⊢
    obtain ⟨fuel, rfl⟩ : ∃ steps, fuel = steps + 1 := by
      rw [hhead, List.length_cons] at hfuel
      exact ⟨fuel - 1, by omega⟩
    rw [readValue_plain (congrArg (· ++ rest) hhead) (notMem_of_starts hstart),
      readLiteral_writeInteger, readNumber_writeInteger hstops, Option.none_or]
  | .real finite text, fuel, rest, hread, hfuel, hstops => by
    rw [IsRead] at hread
    obtain ⟨head, tail, hhead, hstart⟩ := hread.head
    rw [write] at hfuel ⊢
    obtain ⟨fuel, rfl⟩ : ∃ steps, fuel = steps + 1 := by
      rw [hhead, List.length_cons] at hfuel
      exact ⟨fuel - 1, by omega⟩
    rw [readValue_plain (congrArg (· ++ rest) hhead) (notMem_of_starts hstart),
      hread.literal, hread.number rest hstops, Option.none_or]
  | .string text, 0, _, _, hfuel, _ => by
    rw [write, writeText, List.length_cons] at hfuel
    omega
  | .string text, fuel + 1, rest, _, _, _ => by
    rw [write]
    exact readValue_writeText ascii text rest fuel
  | .array [], 0, _, _, hfuel, _ | .object [], 0, _, _, hfuel, _ => by
    rw [write] at hfuel
    exact absurd hfuel (by decide)
  | .array [], fuel + 1, rest, _, _, _ => by
    rw [write]
    rfl
  | .object [], fuel + 1, rest, _, _, _ => by
    rw [write]
    rfl
  | .array (item :: items), 0, _, _, hfuel, _ => by
    rw [write, List.length_cons] at hfuel
    omega
  | .array (item :: items), fuel + 1, rest, hread, hfuel, _ => by
    rw [IsRead, AreRead] at hread
    rw [write, List.length_cons, List.length_append] at hfuel
    have hitems := readItems_write ascii items item fuel rest hread.1 hread.2 (by omega)
    obtain ⟨head, tail, hhead, -, hend⟩ := head_write ascii hread.1
    have hskip := skip_write ascii hread.1 (writeItems ascii items ++ rest)
    have hopen : ¬ (write ascii item ++ (writeItems ascii items ++ rest)).head? = some ']' := by
      rw [hhead, List.cons_append, List.head?_cons, Option.some_inj]
      exact hend
    rw [write, List.cons_append, List.append_assoc, readValue, List.head?_cons,
      if_neg (by decide), if_pos rfl, List.tail_cons, hskip, if_neg hopen, hitems, Option.map_some]
  | .object (member :: members), 0, _, _, hfuel, _ => by
    rw [write, List.length_cons] at hfuel
    omega
  | .object ((name, value) :: members), fuel + 1, rest, hread, hfuel, _ => by
    rw [IsRead, HaveRead] at hread
    rw [write, List.length_cons, List.length_append, List.length_cons, List.length_append] at hfuel
    have hmembers := readMembers_write ascii members name value fuel rest hread.1 hread.2
      (by omega)
    have hskip : skip (writeText ascii name ++ ':' ::
        (write ascii value ++ (writeMembers ascii members ++ rest))) =
          writeText ascii name ++ ':' ::
            (write ascii value ++ (writeMembers ascii members ++ rest)) :=
      skip_of_head (by decide) _
    have hopen : ¬ (writeText ascii name ++ ':' ::
        (write ascii value ++ (writeMembers ascii members ++ rest))).head? = some '}' := by
      rw [writeText, List.cons_append, List.head?_cons]
      decide
    simp only [write, List.cons_append, List.append_assoc]
    rw [readValue, List.head?_cons, if_neg (by decide), if_neg (by decide), if_pos rfl,
      List.tail_cons, hskip, if_neg hopen, hmembers, Option.map_some]

/-- Written items are read back. -/
theorem readItems_write (ascii : Bool) : ∀ (items : List Json) (item : Json) (fuel : ℕ)
    (rest : List Char), IsRead item → AreRead items →
    (write ascii item).length + (writeItems ascii items).length ≤ fuel →
    readItems fuel (write ascii item ++ (writeItems ascii items ++ rest)) =
      some (item :: items, rest)
  | items, item, 0, rest, _, _, hfuel => by
    obtain ⟨tail, htail | htail⟩ := head_writeItems ascii items <;>
      rw [htail, List.length_cons] at hfuel <;> omega
  | [], item, fuel + 1, rest, hitem, _, hfuel => by
    rw [writeItems, List.length_cons] at hfuel
    have hvalue := readValue_write ascii item fuel (']' :: rest) hitem (by omega)
      (stops_cons rest (by decide))
    have hskip : skip (']' :: rest) = ']' :: rest := skip_of_head (by decide) rest
    rw [writeItems, readItems, List.singleton_append, hvalue]
    simp only [Option.bind_eq_bind, Option.bind_some]
    rw [hskip, List.head?_cons, if_neg (by decide), if_pos rfl, List.tail_cons]
  | second :: items, item, fuel + 1, rest, hitem, hitems, hfuel => by
    rw [AreRead] at hitems
    rw [writeItems, List.length_cons, List.length_append] at hfuel
    have hvalue := readValue_write ascii item fuel (writeItems ascii (second :: items) ++ rest)
      hitem (by omega) (stops_writeItems ascii (second :: items) rest)
    have hrest := readItems_write ascii items second fuel rest hitems.1 hitems.2 (by omega)
    have hskip := skip_write ascii hitems.1 (writeItems ascii items ++ rest)
    rw [writeItems, List.cons_append, List.append_assoc] at hvalue ⊢
    rw [readItems, hvalue]
    simp only [Option.bind_eq_bind, Option.bind_some]
    rw [skip_of_head (by decide), List.head?_cons, if_pos rfl, List.tail_cons, hskip, hrest,
      Option.map_some]

/-- Written members are read back. -/
theorem readMembers_write (ascii : Bool) : ∀ (members : List (String × Json)) (name : String)
    (value : Json) (fuel : ℕ) (rest : List Char), IsRead value →
    HaveRead members →
    (write ascii value).length + (writeMembers ascii members).length ≤ fuel →
    readMembers fuel (writeText ascii name ++ ':' ::
      (write ascii value ++ (writeMembers ascii members ++ rest))) =
      some ((name, value) :: members, rest)
  | members, name, value, 0, rest, _, _, hfuel => by
    obtain ⟨tail, htail | htail⟩ := head_writeMembers ascii members <;>
      rw [htail, List.length_cons] at hfuel <;> omega
  | [], name, value, fuel + 1, rest, hread, _, hfuel => by
    rw [writeMembers, List.length_cons] at hfuel
    have hvalue := readValue_write ascii value fuel ('}' :: rest) hread (by omega)
      (stops_cons rest (by decide))
    have hskip := skip_write ascii hread ('}' :: rest)
    rw [writeMembers, List.singleton_append, readMembers_lead ascii name fuel, hskip, hvalue]
    simp only [Option.bind_eq_bind, Option.bind_some]
    rw [skip_of_head (by decide), List.head?_cons, if_neg (by decide), if_pos rfl, List.tail_cons]
  | (second, other) :: members, name, value, fuel + 1, rest, hread, hmembers, hfuel => by
    rw [HaveRead] at hmembers
    rw [writeMembers, List.length_cons, List.length_append, List.length_cons,
      List.length_append] at hfuel
    have hvalue := readValue_write ascii value fuel
      (writeMembers ascii ((second, other) :: members) ++ rest) hread (by omega)
      (stops_writeMembers ascii ((second, other) :: members) rest)
    have hrest := readMembers_write ascii members second other fuel rest hmembers.1 hmembers.2
      (by omega)
    have hskip := skip_write ascii hread (writeMembers ascii ((second, other) :: members) ++ rest)
    rw [readMembers_lead ascii name fuel, hskip, hvalue]
    simp only [Option.bind_eq_bind, Option.bind_some, writeMembers, List.cons_append,
      List.append_assoc]
    rw [skip_of_head (by decide), List.head?_cons, if_pos rfl, List.tail_cons]
    have hname : skip (writeText ascii second ++ ':' ::
        (write ascii other ++ (writeMembers ascii members ++ rest))) =
          writeText ascii second ++ ':' ::
            (write ascii other ++ (writeMembers ascii members ++ rest)) :=
      skip_of_head (by decide) _
    rw [hname, hrest, Option.map_some]

end

/-- The text of a value whose numbers are read as they are written is read back. -/
theorem loads_of_isRead (ascii : Bool) {value : Json} (hread : IsRead value) :
    loads (write ascii value) = some value := by
  have hvalue := readValue_write ascii value ((write ascii value).length + 1) [] hread
    (Nat.le_succ _) stops_nil
  have hskip := skip_write ascii hread []
  rw [List.append_nil] at hvalue hskip
  rw [loads, hskip, hvalue]
  rfl

/-- The text of a value whose numbers are integers is read back. -/
theorem loads_write (ascii : Bool) {value : Json} (hwhole : isWhole value = true) :
    loads (write ascii value) = some value :=
  loads_of_isRead ascii (isRead_of_isWhole value hwhole)

/-! ### Sorted values -/

theorem sortedItems_eq_map (items : List Json) : sortedItems items = items.map sorted := by
  induction items with
  | nil => rw [sortedItems, List.map_nil]
  | cons item items ih => rw [sortedItems, List.map_cons, ih]

theorem sortedMembers_eq_map (members : List (String × Json)) :
    sortedMembers members = members.map fun member ↦ (member.1, sorted member.2) := by
  induction members with
  | nil => rw [sortedMembers, List.map_nil]
  | cons member members ih => rw [sortedMembers, List.map_cons, ih]

theorem areWhole_eq_all (items : List Json) : areWhole items = items.all isWhole := by
  induction items with
  | nil => rw [areWhole, List.all_nil]
  | cons item items ih => rw [areWhole, List.all_cons, ih]

theorem haveWhole_eq_all (members : List (String × Json)) :
    haveWhole members = members.all fun member ↦ isWhole member.2 := by
  induction members with
  | nil => rw [haveWhole, List.all_nil]
  | cons member members ih => rw [haveWhole, List.all_cons, ih]

theorem perm_sortMembers (members : List (String × Json)) :
    (sortMembers members).Perm members :=
  List.mergeSort_perm members _

theorem haveWhole_sortMembers (members : List (String × Json)) :
    haveWhole (sortMembers members) = haveWhole members := by
  rw [haveWhole_eq_all, haveWhole_eq_all]
  exact (perm_sortMembers members).all_eq

mutual

/-- Sorting the members keeps the numbers. -/
theorem isWhole_sorted : ∀ value : Json, isWhole (sorted value) = isWhole value
  | .null | .bool _ | .integer _ | .real _ _ | .string _ => rfl
  | .array items => by rw [sorted, isWhole, isWhole, areWhole_sortedItems items]
  | .object members => by
    rw [sorted, isWhole, isWhole, haveWhole_sortMembers, haveWhole_sortedMembers members]

theorem areWhole_sortedItems : ∀ items : List Json, areWhole (sortedItems items) = areWhole items
  | [] => rfl
  | item :: items => by
    rw [sortedItems, areWhole, areWhole, isWhole_sorted item, areWhole_sortedItems items]

theorem haveWhole_sortedMembers : ∀ members : List (String × Json),
    haveWhole (sortedMembers members) = haveWhole members
  | [] => rfl
  | (name, value) :: members => by
    rw [sortedMembers, haveWhole, haveWhole, isWhole_sorted value, haveWhole_sortedMembers members]

end

/-- The text of a value is read back, with its members sorted. -/
theorem loads_dumps (ascii : Bool) {value : Json} (hwhole : isWhole value = true) :
    loads (dumps ascii value) = some (sorted value) :=
  loads_write ascii ((isWhole_sorted value).trans hwhole)

/-- Values with one text are the same up to the order of their members. -/
theorem sorted_eq_of_dumps {ascii : Bool} {value other : Json} (hwhole : isWhole value = true)
    (hother : isWhole other = true) (hsame : dumps ascii value = dumps ascii other) :
    sorted value = sorted other := by
  rw [← Option.some_inj, ← loads_dumps ascii hwhole, hsame, loads_dumps ascii hother]

/-! ### Lengths -/

mutual

/-- A bound on the length of a text. -/
def extent (ascii : Bool) : Json → ℕ
  | .array items => extentItems ascii items + 2
  | .object members => extentMembers ascii members + 2
  | value => (write ascii value).length

/-- A bound on the length of some items. -/
def extentItems (ascii : Bool) : List Json → ℕ
  | [] => 0
  | item :: items => extent ascii item + 1 + extentItems ascii items

/-- A bound on the length of some members. -/
def extentMembers (ascii : Bool) : List (String × Json) → ℕ
  | [] => 0
  | (name, value) :: members =>
    (writeText ascii name).length + extent ascii value + 2 + extentMembers ascii members

end

mutual

theorem length_write_le (ascii : Bool) : ∀ value : Json,
    (write ascii value).length ≤ extent ascii value
  | .null | .bool _ | .integer _ | .real _ _ | .string _ => le_refl _
  | .array [] => by rw [write, extent]; exact Nat.le_add_left 2 _
  | .array (item :: items) => by
    have hitem := length_write_le ascii item
    have hitems := length_writeItems_le ascii items
    rw [write, extent, extentItems, List.length_cons, List.length_append]
    omega
  | .object [] => by rw [write, extent]; exact Nat.le_add_left 2 _
  | .object ((name, value) :: members) => by
    have hvalue := length_write_le ascii value
    have hmembers := length_writeMembers_le ascii members
    rw [write, extent, extentMembers, List.length_cons, List.length_append, List.length_cons,
      List.length_append]
    omega

theorem length_writeItems_le (ascii : Bool) : ∀ items : List Json,
    (writeItems ascii items).length ≤ extentItems ascii items + 1
  | [] => by rw [writeItems, extentItems]; exact le_refl 1
  | item :: items => by
    have hitem := length_write_le ascii item
    have hitems := length_writeItems_le ascii items
    rw [writeItems, extentItems, List.length_cons, List.length_append]
    omega

theorem length_writeMembers_le (ascii : Bool) : ∀ members : List (String × Json),
    (writeMembers ascii members).length ≤ extentMembers ascii members + 1
  | [] => by rw [writeMembers, extentMembers]; exact le_refl 1
  | (name, value) :: members => by
    have hvalue := length_write_le ascii value
    have hmembers := length_writeMembers_le ascii members
    rw [writeMembers, extentMembers, List.length_cons, List.length_append, List.length_cons,
      List.length_append]
    omega

end

theorem extentItems_eq_sum (ascii : Bool) (items : List Json) :
    extentItems ascii items = (items.map fun item ↦ extent ascii item + 1).sum := by
  induction items with
  | nil => rw [extentItems, List.map_nil, List.sum_nil]
  | cons item items ih => rw [extentItems, List.map_cons, List.sum_cons, ih]

theorem extentMembers_eq_sum (ascii : Bool) (members : List (String × Json)) :
    extentMembers ascii members = (members.map fun member ↦
      (writeText ascii member.1).length + extent ascii member.2 + 2).sum := by
  induction members with
  | nil => rw [extentMembers, List.map_nil, List.sum_nil]
  | cons member members ih => rw [extentMembers, List.map_cons, List.sum_cons, ih]

mutual

/-- The bound does not depend on the order of the members. -/
theorem extent_sorted (ascii : Bool) : ∀ value : Json,
    extent ascii (sorted value) = extent ascii value
  | .null | .bool _ | .integer _ | .real _ _ | .string _ => rfl
  | .array items => by rw [sorted, extent, extent, extentItems_sorted ascii items]
  | .object members => by
    rw [sorted, extent, extent, extentMembers_eq_sum,
      ((perm_sortMembers (sortedMembers members)).map _).sum_eq, ← extentMembers_eq_sum,
      extentMembers_sorted ascii members]

theorem extentItems_sorted (ascii : Bool) : ∀ items : List Json,
    extentItems ascii (sortedItems items) = extentItems ascii items
  | [] => rfl
  | item :: items => by
    rw [sortedItems, extentItems, extentItems, extent_sorted ascii item,
      extentItems_sorted ascii items]

theorem extentMembers_sorted (ascii : Bool) : ∀ members : List (String × Json),
    extentMembers ascii (sortedMembers members) = extentMembers ascii members
  | [] => rfl
  | (name, value) :: members => by
    rw [sortedMembers, extentMembers, extentMembers, extent_sorted ascii value,
      extentMembers_sorted ascii members]

end

/-- The length of the text of a value. -/
theorem length_dumps_le (ascii : Bool) (value : Json) :
    (dumps ascii value).length ≤ extent ascii value :=
  (length_write_le ascii (sorted value)).trans (extent_sorted ascii value).le

/-- A character is written with at most twelve. -/
theorem length_writeChar_le (ascii : Bool) (char : Char) : (writeChar ascii char).length ≤ 12 := by
  rw [writeChar]
  cases shortEscapes.lookup char with
  | some letter => exact Nat.le_add_left 2 10
  | none =>
    by_cases hescaped : char.toNat < 0x20 ∨ ascii = true ∧ 0x7f ≤ char.toNat
    · by_cases hsmall : char.toNat < 0x10000
      · simp [hescaped, codeUnits, hsmall, unicodeEscape]
      · simp [hescaped, codeUnits, hsmall, unicodeEscape]
    · simp [hescaped]

theorem length_flatMap_le {α β : Type} {chars : List α} {texts : α → List β} {bound : ℕ}
    (hbound : ∀ char, (texts char).length ≤ bound) :
    (chars.flatMap texts).length ≤ bound * chars.length := by
  induction chars with
  | nil => exact Nat.zero_le _
  | cons char chars ih =>
    have hchar := hbound char
    rw [List.flatMap_cons, List.length_append, List.length_cons, Nat.mul_succ]
    omega

theorem length_writeText_le (ascii : Bool) (text : String) :
    (writeText ascii text).length ≤ 12 * text.toList.length + 2 := by
  have hbody := @length_flatMap_le _ _ text.toList _ _ (length_writeChar_le ascii)
  rw [writeText, List.length_cons, List.length_append, List.length_singleton]
  omega

theorem length_utf8_le (chars : List Char) : (utf8 chars).length ≤ 4 * chars.length := by
  have hbytes : utf8 chars = chars.flatMap String.utf8EncodeChar := by
    rw [utf8, String.toByteArray_ofList, List.utf8Encode]
    simp
  rw [hbytes]
  refine length_flatMap_le fun char ↦ ?_
  rw [String.length_utf8EncodeChar]
  exact char.utf8Size_le_four

end Oamb.Foundation.JsonText
