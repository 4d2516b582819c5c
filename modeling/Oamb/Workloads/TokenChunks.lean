import Oamb.Foundation.ByteTokenizers
import Oamb.Foundation.GreedyWindows

/-!
# Chunks of a context

A context is cut into chunks at token boundaries: every chunk is the text of the largest window of
tokens within the limit that is a whole number of characters and that is encoded again within the
limit. The chunks of a context are its text (`chunkUtf8ByTokens_exact`), and a context is refused
only where no window of the remaining tokens makes a chunk.
-/

set_option autoImplicit false

namespace Oamb.Workloads.TokenChunks

open Foundation Foundation.GreedyWindows

variable {τ : Type}

def mabChunkMaxTokens : ℤ := 4096

/-- The chunk of a window of tokens. -/
def chunkOf (tokenizer : ByteTokenizer τ) (maxTokens : ℤ) (window : List τ) : Option String :=
  (tokenizer.decode window).filter fun chunk ↦
    0 < (tokenizer.encode chunk).length ∧ (tokenizer.encode chunk).length ≤ maxTokens

/-- The replacement character. -/
def replacement : Char := '\ufffd'

def chunkUtf8ByTokens (tokenizer : ByteTokenizer τ) (text : String)
    (maxTokens : ℤ := mabChunkMaxTokens) : Except String (List String) :=
  if text = "" then .error "MAB context must not be empty"
  else if replacement ∈ text.toList then
    .error "MAB context must not contain a replacement character"
  else if maxTokens ≤ 0 then .error "MAB chunk token limit must be positive"
  else
    match windows (chunkOf tokenizer maxTokens) maxTokens.toNat (tokenizer.encode text) with
    | none => .error "MAB chunk limit cannot contain one complete UTF-8 scalar"
    | some chunks =>
      if chunks.flatMap String.toList ≠ text.toList then
        .error "MAB chunks do not reassemble the source text"
      else .ok chunks

variable {tokenizer : ByteTokenizer τ} {text : String} {maxTokens : ℤ}

theorem chunkOf_eq_some {window : List τ} {chunk : String} :
    chunkOf tokenizer maxTokens window = some chunk ↔
      tokenizer.decode window = some chunk ∧ 0 < (tokenizer.encode chunk).length ∧
        (tokenizer.encode chunk).length ≤ maxTokens := by
  rw [chunkOf, Option.filter_eq_some_iff, decide_eq_true_iff]

/-- A window makes no chunk when it is no whole number of characters, or when they are encoded
again with too many tokens. -/
theorem chunkOf_eq_none {window : List τ} (hwindow : window ≠ []) :
    chunkOf tokenizer maxTokens window = none ↔
      ∀ chunk, tokenizer.decode window = some chunk →
        maxTokens < (tokenizer.encode chunk).length := by
  rw [Option.eq_none_iff_forall_ne_some]
  constructor
  · intro hnone chunk hdecode
    by_contra hfits
    have hchunk := ByteTokenizer.ne_empty_of_decode hwindow hdecode
    have hpos := List.length_pos_iff.mpr (@ByteTokenizer.encode_ne_nil _ tokenizer _ hchunk)
    exact hnone chunk (chunkOf_eq_some.mpr ⟨hdecode, hpos, not_lt.mp hfits⟩)
  · intro hexceeds chunk hchunk
    obtain ⟨hdecode, -, hfits⟩ := chunkOf_eq_some.mp hchunk
    exact absurd hfits (not_le.mpr (hexceeds chunk hdecode))

/-- The pieces of a context are its text. -/
theorem flatMap_of_windows {chunks : List String}
    (hchunks : windows (chunkOf tokenizer maxTokens) maxTokens.toNat (tokenizer.encode text) =
      some chunks) :
    chunks.flatMap String.toList = text.toList ∧
      ∀ chunk ∈ chunks, chunk ≠ "" ∧ 0 < (tokenizer.encode chunk).length ∧
        (tokenizer.encode chunk).length ≤ maxTokens := by
  obtain ⟨parts, hparts, hpieces⟩ := windows_eq_some hchunks
  refine ⟨ByteTokenizer.flatMap_of_parts hparts
    (hpieces.imp fun part chunk hpiece ↦ (chunkOf_eq_some.mp hpiece.1).1), ?_⟩
  intro chunk hchunk
  obtain ⟨index, hindex, rfl⟩ := List.getElem_of_mem hchunk
  obtain ⟨haccept, hpart, -⟩ :=
    (List.forall₂_iff_get.mp hpieces).2 index (hpieces.length_eq.symm ▸ hindex) hindex
  obtain ⟨hdecode, hpos, hfits⟩ := chunkOf_eq_some.mp haccept
  exact ⟨ByteTokenizer.ne_empty_of_decode hpart hdecode, hpos, hfits⟩

/-- The chunks of a context are its text, none is empty, and each is encoded within the limit. A
context is refused exactly when the cut comes to a position from which no window within the limit
is a whole number of characters that is encoded again within the limit. -/
theorem chunkUtf8ByTokens_exact (tokenizer : ByteTokenizer τ) (htext : text ≠ "")
    (hreplacement : replacement ∉ text.toList) (hlimit : 0 < maxTokens) :
    (∀ chunks, chunkUtf8ByTokens tokenizer text maxTokens = .ok chunks →
      chunks.flatMap String.toList = text.toList ∧
        ∀ chunk ∈ chunks, chunk ≠ "" ∧ 0 < (tokenizer.encode chunk).length ∧
          (tokenizer.encode chunk).length ≤ maxTokens) ∧
    ∀ message, chunkUtf8ByTokens tokenizer text maxTokens = .error message ↔
      message = "MAB chunk limit cannot contain one complete UTF-8 scalar" ∧
        ∃ chunks remaining,
          Reached (chunkOf tokenizer maxTokens) maxTokens.toNat (tokenizer.encode text) chunks
            remaining ∧
          remaining ≠ [] ∧
          ∀ size : ℕ, 0 < size → size ≤ maxTokens → size ≤ remaining.length →
            ∀ chunk, tokenizer.decode (remaining.take size) = some chunk →
              maxTokens < (tokenizer.encode chunk).length := by
  have hrun : chunkUtf8ByTokens tokenizer text maxTokens =
      match windows (chunkOf tokenizer maxTokens) maxTokens.toNat (tokenizer.encode text) with
      | none => .error "MAB chunk limit cannot contain one complete UTF-8 scalar"
      | some chunks => .ok chunks := by
    rw [chunkUtf8ByTokens, if_neg htext, if_neg hreplacement, if_neg (not_le.mpr hlimit)]
    cases hchunks : windows (chunkOf tokenizer maxTokens) maxTokens.toNat
        (tokenizer.encode text) with
    | none => rfl
    | some chunks => exact if_neg (not_not.mpr (flatMap_of_windows hchunks).1)
  have hstuck : windows (chunkOf tokenizer maxTokens) maxTokens.toNat (tokenizer.encode text) =
      none ↔
      ∃ chunks remaining,
        Reached (chunkOf tokenizer maxTokens) maxTokens.toNat (tokenizer.encode text) chunks
          remaining ∧
        remaining ≠ [] ∧
        ∀ size : ℕ, 0 < size → size ≤ maxTokens → size ≤ remaining.length →
          ∀ chunk, tokenizer.decode (remaining.take size) = some chunk →
            maxTokens < (tokenizer.encode chunk).length := by
    rw [windows_eq_none_iff]
    refine exists_congr fun chunks ↦ exists_congr fun remaining ↦ and_congr_right fun _ ↦
      and_congr_right fun hmore ↦ forall_congr' fun size ↦ forall_congr' fun hpos ↦ ?_
    have hwindow : remaining.take size ≠ [] := by
      rw [Ne, List.take_eq_nil_iff, not_or]
      exact ⟨hpos.ne', hmore⟩
    have hbound : size ≤ maxTokens.toNat ↔ (size : ℤ) ≤ maxTokens := by omega
    rw [hbound, chunkOf_eq_none hwindow]
  cases hchunks : windows (chunkOf tokenizer maxTokens) maxTokens.toNat
      (tokenizer.encode text) with
  | none =>
    rw [hchunks] at hrun hstuck
    refine ⟨fun chunks hok ↦ ?_, fun message ↦ ?_⟩
    · rw [hrun] at hok
      cases hok
    · rw [hrun, Except.error.injEq, eq_comm]
      exact (and_iff_left (hstuck.mp rfl)).symm
  | some chunks =>
    rw [hchunks] at hrun hstuck
    refine ⟨fun found hok ↦ ?_, fun message ↦ ?_⟩
    · rw [hrun, Except.ok.injEq] at hok
      exact hok ▸ flatMap_of_windows hchunks
    · refine iff_of_false (by rw [hrun]; exact fun hsame ↦ by cases hsame) fun hboth ↦ ?_
      cases hstuck.mpr hboth.2

/-! ### Tokens of one byte -/

/-- Every byte is a token. -/
def byteTokens : ByteTokenizer UInt8 where
  bytes byte := [byte]
  encode text := JsonText.utf8 text.toList
  bytes_ne_nil _ := List.cons_ne_nil _ _
  readUtf8_encode text := by rw [List.flatMap_singleton', JsonText.readUtf8_utf8]

example : chunkUtf8ByTokens byteTokens "5 °C" 2 = .ok ["5 ", "°", "C"] := by decide +kernel

/-- A character of two tokens is refused under a limit of one. -/
theorem degree_is_refused : chunkUtf8ByTokens byteTokens "°" 1 =
    .error "MAB chunk limit cannot contain one complete UTF-8 scalar" := by
  have hexact := @chunkUtf8ByTokens_exact _ "°" 1 byteTokens (by decide) (by decide) (by decide)
  refine (hexact.2 _).mpr ⟨rfl, [], _, .start, by decide +kernel, fun size hpos hsize _ chunk ↦ ?_⟩
  have hone : size = 1 := by omega
  have hnone : byteTokens.decode ((byteTokens.encode "°").take 1) = none := by decide +kernel
  rw [hone, hnone]
  exact fun hdecode ↦ by cases hdecode

end Oamb.Workloads.TokenChunks
