import Oamb.Foundation.JsonText

/-!
# Identities

An identity is the digest of the canonical bytes of its parts: compact JSON whose maps are sorted.
-/

set_option autoImplicit false

namespace Oamb.Contracts.Identities

open Foundation Foundation.JsonText

/-- The canonical bytes of a value. -/
def canonicalJsonBytes (value : Json) : Bytes := utf8 (dumps false value)

def canonicalSha256 (sha256 : Bytes → String) (value : Json) : String :=
  sha256 (canonicalJsonBytes value)

/-- The identity of some parts under a tag. -/
def sha256Identity (sha256 : Bytes → String) (tag : String) (parts : List Json) : String :=
  canonicalSha256 sha256 (.array (.string tag :: parts))

/-- The identity of an attempt. -/
def attemptId (sha256 : Bytes → String) (parentOccurrenceId stage : String) (ordinal : ℕ)
    (requestFingerprint : String) : String :=
  sha256Identity sha256 "oamb-attempt-v1"
    [.string parentOccurrenceId, .string stage, .integer ordinal, .string requestFingerprint]

/-- The identity of a later attempt on the batch of an attempt. -/
def batchAttemptId (sha256 : Bytes → String) (baseAttempt : String) (batchOrdinal : ℕ)
    (requestFingerprint : String) : String :=
  sha256Identity sha256 "oamb-native-batch-attempt-v1"
    [.string baseAttempt, .integer batchOrdinal, .string requestFingerprint]

/-! ### Flat values -/

mutual

/-- The value has no maps, and its numbers are integers. -/
def isFlat : Json → Bool
  | .null | .bool _ | .integer _ | .string _ => true
  | .array items => areFlat items
  | .real _ _ | .object _ => false

def areFlat : List Json → Bool
  | [] => true
  | item :: items => isFlat item && areFlat items

end

mutual

/-- A flat value is sorted, and its numbers are integers. -/
theorem sorted_of_isFlat : ∀ value : Json, isFlat value = true →
    sorted value = value ∧ isWhole value = true
  | .null, _ | .bool _, _ | .integer _, _ | .string _, _ => ⟨rfl, rfl⟩
  | .real _ _, hflat => by cases hflat
  | .object _, hflat => by cases hflat
  | .array items, hflat => by
    obtain ⟨hsorted, hwhole⟩ := sorted_of_areFlat items hflat
    rw [sorted, hsorted, isWhole]
    exact ⟨rfl, hwhole⟩

theorem sorted_of_areFlat : ∀ items : List Json, areFlat items = true →
    sortedItems items = items ∧ areWhole items = true
  | [], _ => ⟨rfl, rfl⟩
  | item :: items, hflat => by
    rw [areFlat, Bool.and_eq_true] at hflat
    obtain ⟨hsorted, hwhole⟩ := sorted_of_isFlat item hflat.1
    obtain ⟨hsorteds, hwholes⟩ := sorted_of_areFlat items hflat.2
    rw [sortedItems, hsorted, hsorteds, areWhole, hwhole, hwholes]
    exact ⟨rfl, rfl⟩

end

theorem areFlat_eq_all (items : List Json) : areFlat items = items.all isFlat := by
  induction items with
  | nil => rfl
  | cons item items ih => rw [areFlat, List.all_cons, ih]

/-- A flat value is known from its canonical bytes. -/
theorem canonicalJsonBytes_inj {value other : Json} (hvalue : isFlat value = true)
    (hother : isFlat other = true)
    (hsame : canonicalJsonBytes value = canonicalJsonBytes other) : value = other := by
  obtain ⟨hsorted, hwhole⟩ := sorted_of_isFlat value hvalue
  obtain ⟨hsorted', hwhole'⟩ := sorted_of_isFlat other hother
  rw [← hsorted, ← hsorted']
  exact sorted_eq_of_dumps hwhole hwhole' (utf8_injective hsame)

/-- An identity tells its tag and its parts. -/
theorem sha256Identity_inj {sha256 : Bytes → String} (hsha256 : Function.Injective sha256)
    {tag tag' : String} {parts parts' : List Json} (hparts : areFlat parts = true)
    (hparts' : areFlat parts' = true)
    (hsame : sha256Identity sha256 tag parts = sha256Identity sha256 tag' parts') :
    tag = tag' ∧ parts = parts' := by
  have hvalues := @canonicalJsonBytes_inj (.array (.string tag :: parts))
    (.array (.string tag' :: parts')) hparts hparts' (hsha256 hsame)
  rw [Json.array.injEq, List.cons.injEq, Json.string.injEq] at hvalues
  exact hvalues

end Oamb.Contracts.Identities
