import Oamb.Foundation.JsonText

/-!
# Byte tokenizers

A tokenizer writes a text as tokens with bytes. A list of tokens is decoded when its bytes are
UTF-8, so that a cut between two tokens may fall into a character. What is decoded has exactly the
bytes of its tokens (`bytes_of_decode`).
-/

set_option autoImplicit false

namespace Oamb.Foundation

open JsonText

/-- A tokenizer whose tokens have bytes. The tokens of a text have the bytes of the text. -/
structure ByteTokenizer (τ : Type) where
  bytes : τ → Bytes
  encode : String → List τ
  bytes_ne_nil : ∀ token, bytes token ≠ []
  readUtf8_encode : ∀ text, readUtf8 ((encode text).flatMap bytes) = some text.toList

namespace ByteTokenizer

variable {τ : Type} {tokenizer : ByteTokenizer τ} {tokens : List τ} {text : String}

/-- The text of some tokens, when their bytes are UTF-8. -/
def decode (tokenizer : ByteTokenizer τ) (tokens : List τ) : Option String :=
  (readUtf8 (tokens.flatMap tokenizer.bytes)).map String.ofList

/-- The bytes that are read as some characters are the bytes of these characters. -/
theorem utf8_of_readUtf8 {content : Bytes} {chars : List Char}
    (hread : readUtf8 content = some chars) : utf8 chars = content := by
  obtain ⟨decoded, hdecoded, hchars⟩ := Option.map_eq_some_iff.mp hread
  have hsome : (ByteArray.mk content.toArray).utf8Decode?.isSome = true := by
    rw [hdecoded]
    rfl
  have hencode : ((ByteArray.mk content.toArray).utf8Decode?.get hsome).toList.utf8Encode =
      ByteArray.mk content.toArray := ByteArray.utf8Encode_get_utf8Decode?
  simp only [hdecoded, Option.get_some, hchars] at hencode
  rw [utf8, String.toByteArray_ofList, hencode]

theorem decode_encode (tokenizer : ByteTokenizer τ) (text : String) :
    tokenizer.decode (tokenizer.encode text) = some text := by
  rw [decode, tokenizer.readUtf8_encode, Option.map_some, String.ofList_toList]

theorem bytes_of_decode (hdecode : tokenizer.decode tokens = some text) :
    tokens.flatMap tokenizer.bytes = utf8 text.toList := by
  obtain ⟨chars, hread, hchars⟩ := Option.map_eq_some_iff.mp hdecode
  rw [← hchars, String.toList_ofList, utf8_of_readUtf8 hread]

theorem ne_empty_of_decode (htokens : tokens ≠ []) (hdecode : tokenizer.decode tokens = some text) :
    text ≠ "" := by
  intro hempty
  have hbytes := bytes_of_decode hdecode
  rw [hempty] at hbytes
  cases tokens with
  | nil => exact htokens rfl
  | cons token tokens =>
    rw [List.flatMap_cons] at hbytes
    exact tokenizer.bytes_ne_nil token (List.append_eq_nil_iff.mp hbytes).1

theorem encode_ne_nil (htext : text ≠ "") : tokenizer.encode text ≠ [] := by
  intro hnil
  have hdecode := decode_encode tokenizer text
  rw [hnil] at hdecode
  have hbytes : utf8 [] = utf8 text.toList := bytes_of_decode hdecode
  exact htext (String.toList_eq_nil_iff.mp (utf8_injective hbytes).symm)

theorem utf8_flatMap {ι : Type} (items : List ι) (read : ι → List Char) :
    utf8 (items.flatMap read) = items.flatMap fun item ↦ utf8 (read item) := by
  induction items with
  | nil => rfl
  | cons item items ih =>
    rw [List.flatMap_cons, List.flatMap_cons, ← ih]
    simp [utf8]

/-- Texts that are decoded from the parts of the tokens of a text are the text. -/
theorem flatMap_of_parts {parts : List (List τ)} {texts : List String}
    (hparts : parts.flatten = tokenizer.encode text)
    (htexts : List.Forall₂ (fun part piece ↦ tokenizer.decode part = some piece) parts texts) :
    texts.flatMap String.toList = text.toList := by
  have hbytes : parts.flatten.flatMap tokenizer.bytes =
      texts.flatMap fun piece ↦ utf8 piece.toList := by
    clear hparts
    induction htexts with
    | nil => rfl
    | cons hpart _ ih =>
      rw [List.flatten_cons, List.flatMap_append, ih, bytes_of_decode hpart, List.flatMap_cons]
  rw [hparts, bytes_of_decode (decode_encode tokenizer text), ← utf8_flatMap] at hbytes
  exact (utf8_injective hbytes).symm

end ByteTokenizer

end Oamb.Foundation
