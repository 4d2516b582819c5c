import Oamb.Foundation.Base64
import Oamb.Foundation.Uuids
import Oamb.MemorySystems.ExactJson

/-!
# The projection inspector of Mem0

The inspector reads one table and answers with the rows of a run in pages. A page has the rows after
its cursor in the order of their identities; one row more than a page holds is read, so that the page
knows whether another one follows, and the cursor of the next page is the last identity of this one.
-/

set_option autoImplicit false

namespace Oamb.MemorySystems.Mem0Inspector

open Foundation Foundation.JsonText

def collectionName : String := "oamb_memories"

def maxInspectorResponseBytes : ℕ := 32 * 1024 * 1024

def pageSize : ℕ := 256

def pageQueryLimit : ℕ := pageSize + 1

/-! ### The table -/

/-- A row of the table. Its identity is a UUID. -/
structure MemoryRow where
  id : ℕ
  payload : Json

/-- The table, when it is there. -/
abbrev MemoryTable : Type := Option (List MemoryRow)

/-- The rows of a table that can be: their identities are UUIDs, no two are the same, and no object of
a payload has a name twice. -/
structure ValidRows (rows : List MemoryRow) : Prop where
  lt_limit : ∀ row ∈ rows, row.id < Uuids.limit
  nodup : (rows.map MemoryRow.id).Nodup
  exact : ∀ row ∈ rows, row.payload.exact = true

/-- The member of a payload as a text, as the database gives it. -/
def memberText (payload : Json) (name : String) : Option String :=
  match payload.get name with
  | .null => none
  | .string text => some text
  | value => some (String.ofList (dumps false value))

/-- The rows of a run. -/
def rowsOf (rows : List MemoryRow) (runId : String) : List MemoryRow :=
  rows.filter fun row ↦ memberText row.payload "run_id" = some runId

/-- The rows of a run in the order of their identities. -/
def orderedRows (rows : List MemoryRow) (runId : String) : List MemoryRow :=
  (rowsOf rows runId).mergeSort fun first second ↦ decide (first.id ≤ second.id)

/-- The rows of a run after an identity, in their order and no more than a limit. -/
def selectRows (rows : List MemoryRow) (runId : String) (after : Option ℕ) (limit : ℕ) :
    List MemoryRow :=
  ((orderedRows rows runId).filter fun row ↦ decide (∀ id ∈ after, id < row.id)).take limit

/-! ### Cursors -/

/-- The bytes of a reply. -/
def jsonBytes (value : Json) : Bytes := utf8 (dumps true value)

def encodeCursor (value : Option String) : Option String :=
  value.map fun text ↦ String.ofList (Base64.strip (Base64.encode (jsonBytes (.string text))))

/-- The value of a cursor: a UUID in its canonical form. -/
def decodeCursor (rawCursor : Option String) : Except String (Option String) :=
  match rawCursor with
  | none => .ok none
  | some cursor =>
    match (Base64.decode (Base64.pad cursor.toList)).bind fun decoded ↦
        (readUtf8 decoded).bind loads with
    | none => .error "cursor must be an OAMB inspector cursor"
    | some (.string value) =>
      if Uuids.isCanonical value then .ok (some value)
      else .error "cursor payload must be a canonical UUID string"
    | some _ => .error "cursor payload must be a UUID string"

/-! ### Pages -/

/-- The points of some rows, each after the one before it. -/
def readPoints (runId : String) : Option String → List MemoryRow → Except String (List (String × Json))
  | _, [] => .ok []
  | previousId, row :: rest =>
    let pointId := Uuids.text row.id
    if Uuids.isCanonical pointId = false then .error "projection ID is not canonical"
    else if (row.payload.isObject && (row.payload.get "run_id").isText runId) = false then
      .error "projection payload is invalid"
    else if ∃ previous ∈ previousId, pointId ≤ previous then
      .error "projection IDs are not strictly ordered"
    else do
      let points ← readPoints runId (some pointId) rest
      pure ((pointId, row.payload) :: points)

/-- A point of a page. -/
def pointDocument (point : String × Json) : Json :=
  .object [("id", .string point.1), ("payload", point.2)]

/-- A page. -/
def pageDocument (runId : String) (count : ℕ) (points : List (String × Json))
    (nextCursor : Option String) : Json :=
  .object
    [("collection", .string collectionName), ("run_id", .string runId),
      ("count", .integer count), ("points", .array (points.map pointDocument)),
      ("next_cursor", (nextCursor.map Json.string).getD .null)]

/-- A page of the rows of a run. -/
def readProjection (table : MemoryTable) (runId : String) (cursorValue : Option String) :
    Except String Json :=
  match table with
  | none => .ok (pageDocument runId 0 [] none)
  | some rows => do
    let count := (rowsOf rows runId).length
    let selected := selectRows rows runId (cursorValue.bind Uuids.readUuid) pageQueryLimit
    let points ← readPoints runId cursorValue selected
    if count < points.length then .error "projection count is smaller than its page"
    else if cursorValue = none ∧ points.length ≠ min count pageQueryLimit then
      .error "projection count does not match its first page"
    else
      let hasNext := decide (pageSize < points.length)
      let page := points.take pageSize
      let last := page.getLast?.map Prod.fst
      pure (pageDocument runId count page (encodeCursor (if hasNext then last else none)))

/-! ### Replies -/

/-- An identity of a run in lowercase hexadecimal digits. -/
def isRunId (text : String) : Bool :=
  text.toList.length = 64 && text.toList.all (· ∈ "0123456789abcdef".toList)

/-- The document of an error. -/
def errorDocument (message : String) : Json := .object [("error", .string message)]

/-- Reply with a page, unless it is too large. -/
def replyPage (document : Json) : ℕ × Bytes :=
  if maxInspectorResponseBytes < (jsonBytes document).length then
    (502, jsonBytes (errorDocument "PostgreSQL projection unavailable"))
  else (200, jsonBytes document)

/-- The values of a parameter. -/
def valuesOf (query : List (String × String)) (name : String) : List String :=
  (query.filter fun parameter ↦ parameter.1 = name).map Prod.snd

/-- The reply to an authorized request for a page: its status and its bytes. -/
def doGet (table : MemoryTable) (query : List (String × String)) : ℕ × Bytes :=
  match valuesOf query "run_id" with
  | [runId] =>
    if query.any fun parameter ↦ parameter.1 ∉ ["run_id", "cursor"] then
      (400, jsonBytes (errorDocument "exactly one run_id is required"))
    else if isRunId runId = false then
      (400, jsonBytes (errorDocument "run_id must be 64 lowercase hex characters"))
    else
      match valuesOf query "cursor" with
      | _ :: _ :: _ => (400, jsonBytes (errorDocument "cursor may appear at most once"))
      | cursorValues =>
        match decodeCursor cursorValues.head? with
        | .error message => (400, jsonBytes (errorDocument message))
        | .ok cursorValue =>
          match readProjection table runId cursorValue with
          | .error _ => (502, jsonBytes (errorDocument "PostgreSQL projection unavailable"))
          | .ok document => replyPage document
  | _ => (400, jsonBytes (errorDocument "exactly one run_id is required"))

end Oamb.MemorySystems.Mem0Inspector
