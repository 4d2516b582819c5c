import Oamb.MemorySystems.AdminResponses

/-!
# Secrets in sealed evidence

The validator looks for a secret field at any depth of a sealed response, with field names of its
own. A response that was sealed without its secret fields is never flagged, keeps all its other
fields, and is the same for all values of its secret fields (`sanitizeAdminResponse_exact`). A
response is refused, and nothing is sealed, when a field stands twice in an object even under a
secret field.
-/

set_option autoImplicit false

namespace Oamb.Artifacts.AdminEvidence

open Foundation Foundation.JsonText Foundation.JsonPaths Foundation.JsonRendering

open MemorySystems.AdminResponses

variable {doubleText : String → DoubleText} {rawBytes : Bytes} {document : Json}

theorem realReads_half : RealReads true "0.5" where
  head := ⟨'0', ".5".toList, rfl, Or.inr (by decide)⟩
  literal := fun rest ↦ rfl
  number := by
    intro rest hstops
    have hdigits : ('5' :: rest).takeWhile Char.isDigit = ['5'] ∧
        ('5' :: rest).dropWhile Char.isDigit = rest := by
      cases rest with
      | nil => exact ⟨rfl, rfl⟩
      | cons char rest =>
        have hchar := (hstops char rfl).1
        constructor <;> simp [hchar]
    have hwhole : readWhole ('0' :: '.' :: '5' :: rest) = some (['0'], '.' :: '5' :: rest) := rfl
    have hfraction : readFraction ('.' :: '5' :: rest) = (['5'], rest) := by
      rw [readFraction, List.tail_cons, hdigits.1, hdigits.2]
      rfl
    have hlength : ('0' :: '.' :: '5' :: rest).length - rest.length = 3 := by
      simp only [List.length_cons]
      omega
    have hdouble : hasDouble ['0'] ['5'] false [] = true := by decide +kernel
    change readUnsigned false ('0' :: '.' :: '5' :: rest) = _
    simp only [readUnsigned, hwhole, Option.bind_eq_bind, Option.bind_some, hfraction,
      readExponent_of_stops hstops, hlength, hdouble]
    rfl

/-- The text of the one double of the samples. -/
def sampleText (_ : String) : DoubleText := ⟨"0.5", realReads_half⟩

/-- A response with secrets in two places. -/
def sampleResponse : Json :=
  .object [("user", .object [("User_Key", .string "abc"), ("id", .integer 7)]),
    ("tokens", .array [.object [("seed", .integer 1), ("name", .string "first")]])]

end Oamb.Artifacts.AdminEvidence
