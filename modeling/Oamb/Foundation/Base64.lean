import Mathlib.Data.List.DropRight

/-!
# Base 64

Three bytes are written as four symbols of six bits each; what is left at the end is padded. In the
alphabet for addresses the last two symbols are the hyphen and the underscore; a reader accepts both
these and the two of the standard alphabet. A text may be kept without its padding, which follows
from its length.

`decode_pad_strip` is the round trip: bytes that are written, stripped of their padding, padded again
and read are the same bytes.
-/

set_option autoImplicit false

namespace Oamb.Foundation.Base64

/-! ### Symbols -/

/-- The symbols in their order. -/
def alphabet : List Char :=
  "ABCDEFGHIJKLMNOPQRSTUVWXYZabcdefghijklmnopqrstuvwxyz0123456789-_".toList

/-- The symbol of six bits. -/
def symbol (bits : ℕ) : Char := alphabet.getD (bits % 64) 'A'

/-- The symbol of the alphabet for addresses that stands for one of the standard alphabet. -/
def translated (char : Char) : Char :=
  if char = '+' then '-' else if char = '/' then '_' else char

/-- The six bits of a symbol. -/
def symbolBits (char : Char) : Option ℕ := alphabet.findIdx? (· = translated char)

theorem symbolBits_symbol (bits : ℕ) : symbolBits (symbol bits) = some (bits % 64) := by
  have hall : ∀ index < 64, symbolBits (alphabet.getD index 'A') = some index := by decide
  exact hall (bits % 64) (Nat.mod_lt bits (by decide))

theorem symbol_mem (bits : ℕ) : symbol bits ∈ alphabet := by
  have hall : ∀ index < 64, alphabet.getD index 'A' ∈ alphabet := by decide
  exact hall (bits % 64) (Nat.mod_lt bits (by decide))

theorem padding_notMem : '=' ∉ alphabet := by decide

theorem symbol_ne (bits : ℕ) : symbol bits ≠ '=' :=
  fun hsame ↦ padding_notMem (hsame ▸ symbol_mem bits)

/-! ### Writing -/

/-- The symbols of three bytes. -/
def quartet (first second third : UInt8) : List Char :=
  let bits := (first.toNat * 256 + second.toNat) * 256 + third.toNat
  [symbol (bits / 262144), symbol (bits / 4096), symbol (bits / 64), symbol bits]

/-- The symbols of some bytes, with padding. -/
def encode : List UInt8 → List Char
  | first :: second :: third :: rest => quartet first second third ++ encode rest
  | [first, second] => (quartet first second 0).take 3 ++ ['=']
  | [first] => (quartet first 0 0).take 2 ++ ['=', '=']
  | [] => []

/-- The text without its padding. -/
def strip (text : List Char) : List Char := text.rdropWhile (· = '=')

/-- The text with the padding of its length. -/
def pad (text : List Char) : List Char :=
  text ++ List.replicate ((4 - text.length % 4) % 4) '='

/-! ### Reading -/

/-- The bytes of some symbols, which are padded. -/
def decode : List Char → Option (List UInt8)
  | [] => some []
  | first :: second :: third :: fourth :: rest => do
    let high ← symbolBits first
    let upper ← symbolBits second
    if third = '=' ∧ fourth = '=' ∧ rest = [] then
      some [UInt8.ofNat ((high * 64 + upper) / 16)]
    else do
      let lower ← symbolBits third
      let bits := (high * 64 + upper) * 64 + lower
      if fourth = '=' ∧ rest = [] then
        some [UInt8.ofNat (bits / 1024), UInt8.ofNat (bits / 4)]
      else do
        let low ← symbolBits fourth
        let bytes ← decode rest
        let bits := bits * 64 + low
        some (UInt8.ofNat (bits / 65536) :: UInt8.ofNat (bits / 256) :: UInt8.ofNat bits :: bytes)
  | _ => none

/-! ### The round trip -/

theorem ofNat_eq {bits : ℕ} {byte : UInt8} (hbits : bits % 256 = byte.toNat) :
    UInt8.ofNat bits = byte := by
  rw [← UInt8.toNat_inj, UInt8.toNat_ofNat', ← hbits]

theorem decode_encode (content : List UInt8) : decode (encode content) = some content := by
  induction content using encode.induct with
  | case1 first second third rest ih =>
    have hfirst := first.toNat_lt
    have hsecond := second.toNat_lt
    have hthird := third.toNat_lt
    simp only [encode, quartet, List.cons_append, List.nil_append, decode, symbolBits_symbol,
      Option.bind_eq_bind, Option.bind_some, symbol_ne, false_and, if_false, ih,
      Option.some.injEq, List.cons.injEq, and_true]
    refine ⟨ofNat_eq ?_, ofNat_eq ?_, ofNat_eq ?_⟩ <;> omega
  | case2 first second =>
    have hfirst := first.toNat_lt
    have hsecond := second.toNat_lt
    have hzero : (0 : UInt8).toNat = 0 := rfl
    simp only [encode, quartet, List.take_succ_cons, List.take_zero, List.cons_append,
      List.nil_append, decode, symbolBits_symbol, Option.bind_eq_bind, Option.bind_some, symbol_ne,
      if_false, and_self, if_true, Option.some.injEq, List.cons.injEq, and_true, hzero]
    refine ⟨ofNat_eq ?_, ofNat_eq ?_⟩ <;> omega
  | case3 first =>
    have hfirst := first.toNat_lt
    have hzero : (0 : UInt8).toNat = 0 := rfl
    simp only [encode, quartet, List.take_succ_cons, List.take_zero, List.cons_append,
      List.nil_append, decode, symbolBits_symbol, Option.bind_eq_bind, Option.bind_some, and_self,
      if_true, Option.some.injEq, List.cons.injEq, and_true, hzero]
    refine ofNat_eq ?_
    omega
  | case4 => rfl

theorem mem_alphabet_of_quartet {first second third : UInt8} {char : Char}
    (hchar : char ∈ quartet first second third) : char ∈ alphabet := by
  simp only [quartet, List.mem_cons, List.not_mem_nil, or_false] at hchar
  rcases hchar with rfl | rfl | rfl | rfl <;> exact symbol_mem _

/-- A written text is symbols and then at most two padding characters, and its length is a multiple
of four. -/
theorem encode_eq (content : List UInt8) : ∃ body count, encode content =
    body ++ List.replicate count '=' ∧ (∀ char ∈ body, char ∈ alphabet) ∧ count < 4 ∧
      (body.length + count) % 4 = 0 := by
  induction content using encode.induct with
  | case1 first second third rest ih =>
    obtain ⟨body, count, hbody, hsymbols, hcount, hlength⟩ := ih
    refine ⟨quartet first second third ++ body, count, by rw [encode, hbody, List.append_assoc],
      fun char hchar ↦ ?_, hcount, ?_⟩
    · exact (List.mem_append.mp hchar).elim mem_alphabet_of_quartet (hsymbols char)
    · simp only [quartet, List.length_append, List.length_cons, List.length_nil]
      omega
  | case2 first second =>
    exact ⟨(quartet first second 0).take 3, 1, rfl,
      fun char hchar ↦ mem_alphabet_of_quartet (List.mem_of_mem_take hchar), by decide,
      by simp [quartet]⟩
  | case3 first =>
    exact ⟨(quartet first 0 0).take 2, 2, rfl,
      fun char hchar ↦ mem_alphabet_of_quartet (List.mem_of_mem_take hchar), by decide,
      by simp [quartet]⟩
  | case4 => exact ⟨[], 0, rfl, by simp, by decide, rfl⟩

theorem strip_append {body : List Char} (hbody : ∀ char ∈ body, char ∈ alphabet) (count : ℕ) :
    strip (body ++ List.replicate count '=') = body := by
  induction count with
  | zero =>
    rw [List.replicate_zero, List.append_nil, strip, List.rdropWhile_eq_self_iff]
    intro hne hlast
    have hmem := hbody _ (List.getLast_mem hne)
    rw [of_decide_eq_true hlast] at hmem
    exact padding_notMem hmem
  | succ count ih =>
    rw [List.replicate_succ', ← List.append_assoc, strip,
      List.rdropWhile_concat_pos _ _ _ (by decide)]
    exact ih

/-- Without its padding a written text has symbols only. -/
theorem mem_alphabet_of_strip {content : List UInt8} {char : Char}
    (hchar : char ∈ strip (encode content)) : char ∈ alphabet := by
  obtain ⟨body, count, hbody, hsymbols, -, -⟩ := encode_eq content
  rw [hbody, strip_append hsymbols] at hchar
  exact hsymbols char hchar

theorem pad_strip_encode (content : List UInt8) : pad (strip (encode content)) = encode content := by
  obtain ⟨body, count, hbody, hsymbols, hcount, hlength⟩ := encode_eq content
  have hpadding : (4 - body.length % 4) % 4 = count := by omega
  rw [hbody, strip_append hsymbols, pad, hpadding]

/-- Bytes are read back from their text without padding. -/
theorem decode_pad_strip (content : List UInt8) :
    decode (pad (strip (encode content))) = some content := by
  rw [pad_strip_encode, decode_encode]

/-! ### Lengths -/

theorem length_encode_le (content : List UInt8) : (encode content).length ≤ 4 * content.length := by
  induction content using encode.induct with
  | case1 first second third rest ih =>
    simp only [encode, quartet, List.length_append, List.length_cons, List.length_nil]
    omega
  | case2 first second => simp [encode, quartet]
  | case3 first => simp [encode, quartet]
  | case4 => exact Nat.le_refl 0

theorem length_strip_le (text : List Char) : (strip text).length ≤ text.length :=
  (List.rdropWhile_prefix (· = '=') text).length_le

end Oamb.Foundation.Base64
