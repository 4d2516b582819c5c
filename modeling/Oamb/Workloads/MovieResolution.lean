import Mathlib.Data.List.Lex
import Mathlib.Data.Prod.Lex
import Oamb.Foundation.JsonText
import Oamb.Foundation.Whitespace

/-!
# Resolution of movies

A predicted title is cleaned, normalized and resolved to the movie of a catalog whose title is
closest to it. The recall counts the gold movies whose title is one of the first five that are
resolved.
-/

set_option autoImplicit false

namespace Oamb.Workloads.MovieResolution

open Foundation Foundation.Whitespace

/-! ### Titles -/

/-- Titles are brought to one form of Unicode, without their case. The last segment of the path of a
URI is taken out of it and decoded. -/
structure Library where
  normalizeMovieTitle : List Char → List Char
  lastSegment : String → List Char

variable (library : Library)

/-- Remove what stands in parentheses without a parenthesis in it. The text behind the last opening
one is pending. -/
def removeParenthetical : Option (List Char) → List Char → List Char
  | none, [] => []
  | some pending, [] => '(' :: pending
  | none, char :: rest =>
    if char = '(' then removeParenthetical (some []) rest
    else char :: removeParenthetical none rest
  | some pending, char :: rest =>
    if char = '(' then '(' :: pending ++ removeParenthetical (some []) rest
    else if char = ')' then removeParenthetical none rest
    else removeParenthetical (some (pending ++ [char])) rest

/-- The words of a text. -/
def split (text : List Char) : List (List Char) :=
  (text.splitOnP isSpace).filter (· ≠ [])

def collapseWhitespace (value : List Char) : List Char := [' '].intercalate (split value)

def cleanPredictionTitle (value : List Char) : List Char :=
  collapseWhitespace (removeParenthetical none value)

def cleanCatalogTitle (uri : String) : List Char :=
  let separated := (library.lastSegment uri).map fun char ↦
    if char ∈ ['_', '-', '>'] then ' ' else char
  collapseWhitespace (removeParenthetical none separated)

/-! ### Catalogs -/

structure CatalogMovie where
  entityId : ℕ
  sourceUri : String
  cleanedTitle : List Char
  normalizedTitle : List Char
  deriving DecidableEq

/-- A catalog has a movie, and no identity twice. -/
structure MovieCatalog where
  movies : List CatalogMovie
  nonempty : movies ≠ []
  distinct : (movies.map CatalogMovie.entityId).Nodup

def movieOf (entry : String × ℤ) : CatalogMovie where
  entityId := entry.2.toNat
  sourceUri := entry.1
  cleanedTitle := cleanCatalogTitle library entry.1
  normalizedTitle := library.normalizeMovieTitle (cleanCatalogTitle library entry.1)

/-- The identities of an entity map are there, not negative and distinct. -/
def entityIdsAreUnique (entityMap : List (String × ℤ)) : Prop :=
  entityMap ≠ [] ∧ (∀ entry ∈ entityMap, 0 ≤ entry.2) ∧ (entityMap.map Prod.snd).Nodup

instance (entityMap : List (String × ℤ)) : Decidable (entityIdsAreUnique entityMap) :=
  inferInstanceAs (Decidable (_ ∧ _ ∧ _))

/-- Identities that are distinct and not negative are distinct numbers. -/
theorem nodup_entityIds {entityMap : List (String × ℤ)} (hunique : entityIdsAreUnique entityMap) :
    ((entityMap.map (movieOf library)).map CatalogMovie.entityId).Nodup := by
  obtain ⟨-, hnonneg, hnodup⟩ := hunique
  have hids : (entityMap.map (movieOf library)).map CatalogMovie.entityId =
      (entityMap.map Prod.snd).map Int.toNat := by
    rw [List.map_map, List.map_map]
    rfl
  rw [hids]
  refine List.Nodup.map_on (fun first hfirst second hsecond hsame ↦ ?_) hnodup
  obtain ⟨entry, hentry, rfl⟩ := List.mem_map.mp hfirst
  obtain ⟨other, hother, rfl⟩ := List.mem_map.mp hsecond
  rw [← Int.toNat_of_nonneg (hnonneg entry hentry), hsame,
    Int.toNat_of_nonneg (hnonneg other hother)]

def fromEntityMap (entityMap : List (String × ℤ)) : Except String MovieCatalog :=
  if hunique : entityIdsAreUnique entityMap then
    if ((entityMap.map (movieOf library)).any fun movie ↦ movie.cleanedTitle = []) = true then
      .error "ReDial catalog requires non-empty cleaned movie titles"
    else
      .ok
        { movies := entityMap.map (movieOf library)
          nonempty := fun hnil ↦ hunique.1 (List.map_eq_nil_iff.mp hnil)
          distinct := nodup_entityIds library hunique }
  else .error "ReDial catalog entity IDs must be unique non-negative integers"

/-! ### The edit distance -/

section Distance

variable {α : Type} [DecidableEq α]

/-- A row of the table behind its first cell. The cell to the left is given, and the row above from
the cell above that one on. -/
def fillRow (leftCharacter : α) : ℕ → List ℕ → List α → List ℕ
  | last, diagonal :: above :: previous, rightCharacter :: right =>
    let cell := min (min (last + 1) (above + 1))
      (diagonal + if leftCharacter = rightCharacter then 0 else 1)
    cell :: fillRow leftCharacter cell (above :: previous) right
  | _, _, _ => []

/-- The row of one more character of the left text. -/
def nextRow (right : List α) (previous : List ℕ) (numbered : α × ℕ) : List ℕ :=
  numbered.2 :: fillRow numbered.1 numbered.2 previous right

/-- The last cell of the last row. -/
def lastCell (left right : List α) : ℕ :=
  ((left.zipIdx 1).foldl (nextRow right) (List.range (right.length + 1))).getLastD 0

def levenshtein (left right : List α) : ℕ :=
  if left.length < right.length then lastCell right left else lastCell left right

end Distance

/-! ### Resolution -/

structure ResolvedMovie where
  rawTitle : List Char
  cleanedTitle : List Char
  normalizedTitle : List Char
  entityId : ℕ
  catalogTitle : List Char
  catalogNormalizedTitle : List Char
  distance : ℕ
  tiedEntityIds : List ℕ
  deriving DecidableEq

/-- The movies of a catalog are ordered by the bytes of their titles and their identities. -/
def sortKey (movie : CatalogMovie) : List ℕ ×ₗ ℕ :=
  toLex ((JsonText.utf8 movie.normalizedTitle).map UInt8.toNat, movie.entityId)

def orderedCatalog (movies : List CatalogMovie) : List CatalogMovie :=
  movies.insertionSort fun first second ↦ sortKey first ≤ sortKey second

def resolveTitle (movies : List CatalogMovie) (rawTitle : List Char) :
    Except String ResolvedMovie :=
  let cleaned := cleanPredictionTitle rawTitle
  let normalized := library.normalizeMovieTitle cleaned
  if normalized = [] then .error "ReDial prediction has an empty cleaned title"
  else
    let distanceOf (movie : CatalogMovie) := levenshtein normalized movie.normalizedTitle
    match (movies.map distanceOf).min? with
    | none => .error "min() iterable argument is empty"
    | some minimum =>
      let tied := movies.filter fun movie ↦ distanceOf movie = minimum
      match tied with
      | [] => .error "tuple index out of range"
      | chosen :: _ => .ok
        { rawTitle
          cleanedTitle := cleaned
          normalizedTitle := normalized
          entityId := chosen.entityId
          catalogTitle := chosen.cleanedTitle
          catalogNormalizedTitle := chosen.normalizedTitle
          distance := minimum
          tiedEntityIds := tied.map CatalogMovie.entityId }

def resolveRankedMovies (rawTitles : List (List Char)) (catalog : MovieCatalog) :
    Except String (List ResolvedMovie) :=
  rawTitles.mapM (resolveTitle library (orderedCatalog catalog.movies))

/-! ### The recall -/

structure RecallAtFiveResult where
  numerator : ℕ
  denominator : ℕ
  value : ℚ
  goldEntityIds : List ℕ
  goldNormalizedTitles : List (List Char)
  predictedNormalizedTitles : List (List Char)
  deriving DecidableEq

/-- The title of a movie of the catalog. -/
def goldTitle (catalog : MovieCatalog) (entityId : ℕ) : Except String (List Char) :=
  match catalog.movies.reverse.find? fun movie ↦ movie.entityId = entityId with
  | some movie => .ok movie.normalizedTitle
  | none => .error s!"gold ReDial entity is absent from catalog: {entityId}"

local instance lawfulTitles : LawfulBEq (List Char) := List.instLawfulBEq

def scoreRecallAt5 (resolved : List ResolvedMovie) (goldEntityIds : List ℕ)
    (catalog : MovieCatalog) : Except String RecallAtFiveResult :=
  if goldEntityIds = [] then .error "ReDial Recall@5 requires at least one gold entity"
  else do
    let goldTitles ← goldEntityIds.mapM (goldTitle catalog)
    let predicted := (resolved.take 5).map ResolvedMovie.catalogNormalizedTitle
    let numerator := goldTitles.countP fun title ↦ title ∈ predicted
    pure
      { numerator
        denominator := goldTitles.length
        value := (numerator : ℚ) / goldTitles.length
        goldEntityIds
        goldNormalizedTitles := goldTitles
        predictedNormalizedTitles := predicted }

end Oamb.Workloads.MovieResolution
