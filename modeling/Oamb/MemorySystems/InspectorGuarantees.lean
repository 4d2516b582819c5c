import Oamb.MemorySystems.Mem0Capture
import Oamb.MemorySystems.Mem0Inspector
import Oamb.MemorySystems.Mem0ProjectionLaws

/-!
# Guarantees of the paging of the inspector

The adapter reads the projection of a run from the inspector, page after page.  A page is 256 rows in the
order of their identities; the cursor of the next page is the identity of the last row of this one.

- `decodeCursor_cursorText`: the inspector reads back its cursors.
- `readProjection_split`: after some rows of a run, the inspector shows the page of those that are left.
- `capturesAll_of_showable`: a run whose rows are of the profile of points, and no more than the limit of
  points, is captured whole.
- `capture_refused`: the limit of points and the profile are needed.
-/

set_option autoImplicit false

namespace Oamb.MemorySystems.InspectorGuarantees

open Foundation Foundation.Dialogue Foundation.Json Foundation.JsonText
open RestClient ExactJson Mem0Projection Mem0ProjectionLaws Mem0Capture Mem0Inspector

/-! ### Cursors -/

/-- The text of a cursor. -/
def cursorText (value : String) : String :=
  String.ofList (Base64.strip (Base64.encode (jsonBytes (.string value))))

/-- What is in a cursor. -/
theorem decode_cursorText (value : String) :
    ((Base64.decode (Base64.pad (cursorText value).toList)).bind fun decoded ↦
      (readUtf8 decoded).bind loads) = some (.string value) := by
  rw [cursorText, String.toList_ofList, Base64.decode_pad_strip, Option.bind_some, jsonBytes,
    readUtf8_utf8, Option.bind_some, loads_dumps true rfl]
  rfl

theorem cursorText_injective : Function.Injective cursorText := by
  intro value other hsame
  have hvalue := decode_cursorText value
  rw [hsame, decode_cursorText, Option.some_inj, Json.string.injEq] at hvalue
  exact hvalue.symm

theorem cursorText_ne_empty (value : String) : cursorText value ≠ "" := by
  intro hempty
  have hvalue := decode_cursorText value
  rw [hempty] at hvalue
  have hnone : (readUtf8 []).bind loads = none := by
    rw [show readUtf8 [] = some [] from readUtf8_utf8 []]
    rfl
  change (readUtf8 []).bind loads = some (Json.string value) at hvalue
  rw [hnone] at hvalue
  cases hvalue

/-- The inspector reads back the cursor of a UUID. -/
theorem decodeCursor_cursorText {id : ℕ} (hid : id < Uuids.limit) :
    decodeCursor (some (cursorText (Uuids.text id))) = .ok (some (Uuids.text id)) := by
  simp only [decodeCursor, decode_cursorText]
  exact if_pos (Uuids.isCanonical_text hid)

/-- The adapter accepts every cursor of the inspector. -/
theorem parseCursor_cursorText (value : String) :
    parseCursor (.string (cursorText value)) = .ok (some (cursorText value)) := by
  have hnonempty : (Json.string (cursorText value)).asNonEmptyText = some (cursorText value) := by
    rw [asNonEmptyText, asText, Option.filter_some]
    exact if_pos (decide_eq_true (cursorText_ne_empty value))
  have hsymbols : (cursorText value).toList.all (· ∈ Base64.alphabet) = true := by
    rw [cursorText, String.toList_ofList, List.all_eq_true]
    exact fun char hchar ↦ decide_eq_true (Base64.mem_alphabet_of_strip hchar)
  have hnull : ¬ (Json.string (cursorText value)).isNull = true := Bool.false_ne_true
  rw [parseCursor, if_neg hnull, requireNonEmptyString_eq_ok.mpr hnonempty]
  simp only [require_of hsymbols, decode_cursorText, checkCursorPayload, bind, Except.bind]
  rfl

/-! ### Rows -/

section Rows

variable {rows : List MemoryRow} {runId : String}

theorem perm_orderedRows : (orderedRows rows runId).Perm (rowsOf rows runId) :=
  List.mergeSort_perm (rowsOf rows runId) _

theorem mem_of_mem_orderedRows {row : MemoryRow} (hrow : row ∈ orderedRows rows runId) :
    row ∈ rows :=
  List.mem_of_mem_filter (perm_orderedRows.mem_iff.mp hrow)

theorem length_orderedRows : (orderedRows rows runId).length = (rowsOf rows runId).length :=
  perm_orderedRows.length_eq

/-- One row comes before another one. -/
def Before (first second : MemoryRow) : Prop := first.id < second.id

/-- The rows of a run are in the order of their identities, of which no two are the same. -/
theorem pairwise_orderedRows (hvalid : ValidRows rows) :
    (orderedRows rows runId).Pairwise Before := by
  have hle : (orderedRows rows runId).Pairwise fun first second ↦ first.id ≤ second.id := by
    have hsorted := @List.pairwise_mergeSort MemoryRow
      (fun first second ↦ decide (first.id ≤ second.id))
      (fun first second third hfirst hsecond ↦
        decide_eq_true ((of_decide_eq_true hfirst).trans (of_decide_eq_true hsecond)))
      (fun first second ↦ by
        rw [Bool.or_eq_true, decide_eq_true_eq, decide_eq_true_eq]
        exact le_total first.id second.id)
      (rowsOf rows runId)
    exact hsorted.imp fun hfirst ↦ of_decide_eq_true hfirst
  have hne : (orderedRows rows runId).Pairwise fun first second ↦ first.id ≠ second.id := by
    have hnodup : ((rowsOf rows runId).map MemoryRow.id).Nodup :=
      hvalid.nodup.sublist (List.Sublist.map _ List.filter_sublist)
    exact List.pairwise_map.mp ((perm_orderedRows.map MemoryRow.id).nodup_iff.mpr hnodup)
  exact hle.imp₂ (fun _ _ hfirst hsecond ↦ lt_of_le_of_ne hfirst hsecond) hne

/-- The rows after the last of some rows are those that follow them. -/
theorem filter_after {before rest : List MemoryRow} (hsorted : (before ++ rest).Pairwise Before)
    {last : MemoryRow} (hlast : before.getLast? = some last) :
    ((before ++ rest).filter fun row ↦ decide (∀ id ∈ some last.id, id < row.id)) = rest := by
  obtain ⟨others, rfl⟩ : ∃ others, before = others ++ [last] :=
    ⟨before.dropLast, (List.dropLast_append_getLast? last hlast).symm⟩
  obtain ⟨hbefore, -, hcross⟩ := List.pairwise_append.mp hsorted
  have hmem : last ∈ others ++ [last] := List.mem_append_right _ (List.mem_singleton_self last)
  rw [List.filter_append]
  have hnone : ((others ++ [last]).filter fun row ↦ decide (∀ id ∈ some last.id, id < row.id)) =
      [] := by
    refine List.filter_eq_nil_iff.mpr fun row hrow ↦ ?_
    simp only [Option.mem_some_iff, forall_eq', decide_eq_true_eq, not_lt]
    rcases List.mem_append.mp hrow with hother | hself
    · exact le_of_lt ((List.pairwise_append.mp hbefore).2.2 row hother last
        (List.mem_singleton_self last))
    · rw [List.mem_singleton.mp hself]
  have hall : (rest.filter fun row ↦ decide (∀ id ∈ some last.id, id < row.id)) = rest := by
    refine List.filter_eq_self.mpr fun row hrow ↦ ?_
    simp only [Option.mem_some_iff, forall_eq', decide_eq_true_eq]
    exact hcross last hmem row hrow
  rw [hnone, hall, List.nil_append]

/-- A row that the inspector shows for a run. -/
structure Shown (runId : String) (row : MemoryRow) : Prop where
  lt_limit : row.id < Uuids.limit
  isObject : row.payload.isObject = true
  runId : (row.payload.get "run_id").isText runId = true

/-- The point of a row. -/
def pointOfRow (row : MemoryRow) : String × Json := (Uuids.text row.id, row.payload)

/-- The points of rows that follow each other and what came before them. -/
theorem readPoints_eq {selected : List MemoryRow} (hshown : ∀ row ∈ selected, Shown runId row)
    (hsorted : selected.Pairwise Before) {previousId : Option ℕ}
    (hprevious : ∀ id ∈ previousId, id < Uuids.limit ∧ ∀ row ∈ selected, id < row.id) :
    readPoints runId (previousId.map Uuids.text) selected = .ok (selected.map pointOfRow) := by
  induction selected generalizing previousId with
  | nil => rfl
  | cons row rest ih =>
    obtain ⟨hrow, hrest⟩ := List.forall_mem_cons.mp hshown
    obtain ⟨hhead, htail⟩ := List.pairwise_cons.mp hsorted
    have hcanonical := Uuids.isCanonical_text hrow.lt_limit
    have hordered : ¬ ∃ previous ∈ previousId.map Uuids.text, Uuids.text row.id ≤ previous := by
      rintro ⟨previous, hmem, hle⟩
      obtain ⟨id, hid, rfl⟩ := Option.mem_map.mp hmem
      obtain ⟨hlimit, hless⟩ := hprevious id hid
      exact absurd ((Uuids.text_lt_iff hlimit hrow.lt_limit).mpr (hless row List.mem_cons_self))
        (String.not_lt.mpr hle)
    have hlater := @ih hrest htail (some row.id) fun id hid ↦ by
      obtain rfl : row.id = id := Option.some_inj.mp hid
      exact ⟨hrow.lt_limit, hhead⟩
    rw [Option.map_some] at hlater
    simp only [readPoints, hcanonical, hrow.isObject, hrow.runId, Bool.and_self, Bool.true_eq_false,
      if_false, if_neg hordered, hlater]
    rfl

/-- The cursor of the page after some rows. -/
def cursorAfter (shown : List MemoryRow) : Option String :=
  shown.getLast?.map fun row ↦ Uuids.text row.id

/-- The page that starts with some rows. -/
def pageOf (runId : String) (count : ℕ) (rest : List MemoryRow) : Json :=
  pageDocument runId count ((rest.take pageSize).map pointOfRow)
    (if pageSize < rest.length then (cursorAfter (rest.take pageSize)).map cursorText else none)

theorem selectRows_split (hvalid : ValidRows rows) {before rest : List MemoryRow}
    (hsplit : orderedRows rows runId = before ++ rest) (limit : ℕ) :
    selectRows rows runId ((cursorAfter before).bind Uuids.readUuid) limit = rest.take limit := by
  have hsorted := @pairwise_orderedRows rows runId hvalid
  rw [hsplit] at hsorted
  rw [selectRows, hsplit, cursorAfter]
  cases hlast : before.getLast? with
  | none =>
    obtain rfl := List.getLast?_eq_none_iff.mp hlast
    simp
  | some last =>
    have hmem : last ∈ rows := by
      refine @mem_of_mem_orderedRows rows runId _ ?_
      rw [hsplit]
      exact List.mem_append_left _ (List.mem_of_getLast? hlast)
    rw [Option.map_some, Option.bind_some, Uuids.readUuid_text (hvalid.lt_limit last hmem),
      filter_after hsorted hlast]

/-- After some rows of a run the inspector shows the page that starts with those that are left. -/
theorem readProjection_split (hvalid : ValidRows rows)
    (hshown : ∀ row ∈ rowsOf rows runId, Shown runId row) {before rest : List MemoryRow}
    (hsplit : orderedRows rows runId = before ++ rest) :
    readProjection (some rows) runId (cursorAfter before) =
      .ok (pageOf runId (rowsOf rows runId).length rest) := by
  have hsorted := @pairwise_orderedRows rows runId hvalid
  have hcount : (rowsOf rows runId).length = before.length + rest.length := by
    rw [← length_orderedRows, hsplit, List.length_append]
  rw [hsplit] at hsorted
  obtain ⟨-, hrest, hcross⟩ := List.pairwise_append.mp hsorted
  have hmem : ∀ row ∈ before ++ rest, Shown runId row := fun row hrow ↦
    hshown row (perm_orderedRows.mem_iff.mp (hsplit ▸ hrow))
  have hpoints := @readPoints_eq runId (rest.take pageQueryLimit)
    (fun row hrow ↦ hmem row (List.mem_append_right _ (List.mem_of_mem_take hrow)))
    (hrest.sublist (List.take_sublist _ _)) (before.getLast?.map MemoryRow.id) fun id hid ↦ by
      obtain ⟨last, hlast, rfl⟩ := Option.mem_map.mp hid
      have hlastMem := List.mem_of_getLast? hlast
      exact ⟨(hmem last (List.mem_append_left _ hlastMem)).lt_limit,
        fun row hrow ↦ hcross last hlastMem row (List.mem_of_mem_take hrow)⟩
  rw [Option.map_map] at hpoints
  have hlength : ((rest.take pageQueryLimit).map pointOfRow).length =
      min pageQueryLimit rest.length := by
    rw [List.length_map, List.length_take]
  have hfirst : ¬ (cursorAfter before = none ∧ ((rest.take pageQueryLimit).map pointOfRow).length ≠
      min (rowsOf rows runId).length pageQueryLimit) := by
    rintro ⟨hnone, hne⟩
    rw [cursorAfter, Option.map_eq_none_iff, List.getLast?_eq_none_iff] at hnone
    rw [hlength, hcount, hnone, List.length_nil, Nat.zero_add, Nat.min_comm] at hne
    exact hne rfl
  have hnext : (pageSize < ((rest.take pageQueryLimit).map pointOfRow).length) ↔
      pageSize < rest.length := by
    rw [hlength, pageQueryLimit]
    omega
  have hpage : ((rest.take pageQueryLimit).map pointOfRow).take pageSize =
      (rest.take pageSize).map pointOfRow := by
    rw [← List.map_take, List.take_take, pageQueryLimit, Nat.min_eq_left (Nat.le_succ pageSize)]
  have hlast : ((rest.take pageSize).map pointOfRow).getLast?.map Prod.fst =
      cursorAfter (rest.take pageSize) := by
    rw [List.getLast?_map, Option.map_map, cursorAfter]
    rfl
  rw [readProjection]
  simp only [selectRows_split hvalid hsplit, bind, Except.bind]
  rw [show readPoints runId (cursorAfter before) (rest.take pageQueryLimit) =
    .ok ((rest.take pageQueryLimit).map pointOfRow) from hpoints]
  simp only [hpage, hlast, if_neg hfirst, decide_eq_true_eq, hnext]
  rw [if_neg (by rw [hlength, hcount]; omega)]
  congr 2
  by_cases hmore : pageSize < rest.length
  · rw [if_pos hmore, if_pos hmore]
    rfl
  · rw [if_neg hmore, if_neg hmore]
    rfl

end Rows

/-! ### Documents -/

section Documents

variable {runId : String}

/-- The point that the adapter reads from a row. -/
def pointOf (runId : String) (row : MemoryRow) : Except String ProjectionPoint :=
  parsePayload (Uuids.text row.id) row.payload runId

theorem text_ne_empty (id : ℕ) : Uuids.text id ≠ "" := by
  intro hempty
  have hlength := congrArg (fun text ↦ text.toList.length) hempty
  rw [Uuids.text, String.toList_ofList, Uuids.characters, List.length_append,
    Hexadecimal.length_hexText] at hlength
  change 8 + _ = 0 at hlength
  omega

/-- A row whose payload is of the profile is shown. -/
theorem shown_of_pointOf {row : MemoryRow} (hlimit : row.id < Uuids.limit) {point : ProjectionPoint}
    (hpoint : pointOf runId row = .ok point) : Shown runId row := by
  obtain ⟨-, hobject, hrun, -⟩ := of_parsePayload hpoint
  refine ⟨hlimit, hobject, ?_⟩
  rw [asNonEmptyText, Option.filter_eq_some_iff] at hrun
  exact decide_eq_true hrun.1

/-- A point is read from its sorted document. -/
theorem parseProjectionPoint_sorted {row : MemoryRow} (hexact : row.payload.exact = true) :
    parseProjectionPoint runId (sorted (pointDocument (pointOfRow row))) = pointOf runId row := by
  have hdocument : (pointDocument (pointOfRow row)).exact = true := by
    simp [pointDocument, pointOfRow, Json.exact, Json.exactMembers, hexact]
  have hid : (pointDocument (pointOfRow row)).get "id" = .string (Uuids.text row.id) := rfl
  have hpayload : (pointDocument (pointOfRow row)).get "payload" = row.payload := rfl
  have hnames : (pointDocument (pointOfRow row)).hasNames pointFields = true := rfl
  have hobject : (pointDocument (pointOfRow row)).isObject = true := rfl
  have htext : (Json.string (Uuids.text row.id)).asNonEmptyText = some (Uuids.text row.id) := by
    rw [asNonEmptyText, asText, Option.filter_some]
    exact if_pos (decide_eq_true (text_ne_empty row.id))
  rw [parseProjectionPoint, requireExactObject, isObject_sorted, hasNames_sorted,
    require_of hobject, require_of hnames, get_sorted hdocument, get_sorted hdocument, hid, hpayload,
    requireNonEmptyString_sorted, requireNonEmptyString_eq_ok.mpr htext]
  exact parsePayload_sorted hexact (Uuids.text row.id) runId

/-- The points of some rows that are all of the profile. -/
theorem mapM_parseProjectionPoint {selected : List MemoryRow}
    (hexact : ∀ row ∈ selected, row.payload.exact = true) :
    (sortedItems ((selected.map pointOfRow).map pointDocument)).mapM (parseProjectionPoint runId) =
      selected.mapM (pointOf runId) := by
  induction selected with
  | nil => rfl
  | cons row rest ih =>
    obtain ⟨hrow, hrest⟩ := List.forall_mem_cons.mp hexact
    rw [List.map_cons, List.map_cons, sortedItems, List.mapM_cons, List.mapM_cons,
      parseProjectionPoint_sorted hrow, ih hrest]

/-- Rows that can be shown. -/
structure Writable (runId : String) (row : MemoryRow) : Prop where
  exact : row.payload.exact = true
  whole : isWhole row.payload = true

theorem exact_pageDocument {count : ℕ} {selected : List MemoryRow} {cursor : Option String}
    (hwritable : ∀ row ∈ selected, Writable runId row) :
    (pageDocument runId count (selected.map pointOfRow) cursor).exact = true ∧
      isWhole (pageDocument runId count (selected.map pointOfRow) cursor) = true := by
  have hitems : exactItems ((selected.map pointOfRow).map pointDocument) = true ∧
      areWhole ((selected.map pointOfRow).map pointDocument) = true := by
    rw [exactItems_eq_all, areWhole_eq_all, List.all_map, List.all_map, List.all_map, List.all_map,
      List.all_eq_true, List.all_eq_true]
    refine ⟨fun row hrow ↦ ?_, fun row hrow ↦ ?_⟩
    · simp [pointDocument, pointOfRow, Json.exact, Json.exactMembers, (hwritable row hrow).exact]
    · simp [pointDocument, pointOfRow, isWhole, haveWhole, (hwritable row hrow).whole]
  rw [List.map_map] at hitems
  cases cursor <;>
    simp [pageDocument, Json.exact, Json.exactMembers, isWhole, haveWhole, hitems]

/-- A page is read as it was shown. -/
theorem parseExactJsonObject_pageDocument {count : ℕ} {selected : List MemoryRow}
    {cursor : Option String} (hwritable : ∀ row ∈ selected, Writable runId row) :
    parseExactJsonObject (jsonBytes (pageDocument runId count (selected.map pointOfRow) cursor))
      pageFields =
        .ok (sorted (pageDocument runId count (selected.map pointOfRow) cursor)) := by
  obtain ⟨hexact, hwhole⟩ := exact_pageDocument hwritable
  exact parseExactJsonObject_utf8 hexact hwhole rfl

theorem get_pageDocument {count : ℕ} {selected : List MemoryRow} {cursor : Option String}
    (hwritable : ∀ row ∈ selected, Writable runId row) (name : String) :
    (sorted (pageDocument runId count (selected.map pointOfRow) cursor)).get name =
      sorted ((pageDocument runId count (selected.map pointOfRow) cursor).get name) :=
  get_sorted (exact_pageDocument hwritable).1 name

theorem parseCount_natural (count : ℕ) : parseCount (.integer count) = .ok count := by
  rw [parseCount]
  exact if_pos (Int.natCast_nonneg count)

/-- The adapter reads what is in a page. -/
theorem readPageAlone_pageDocument {count maxPoints : ℕ} {selected : List MemoryRow}
    {cursor : Option String} (hwritable : ∀ row ∈ selected, Writable runId row)
    (hrun : runId ≠ "") (hcount : count ≤ maxPoints) {points : List ProjectionPoint}
    (hpoints : selected.mapM (pointOf runId) = .ok points) :
    readPageAlone ⟨mem0Collection, runId, maxPoints⟩
      (jsonBytes (pageDocument runId count (selected.map pointOfRow) (cursor.map cursorText))) =
        .ok ⟨count, points, cursor.map cursorText⟩ := by
  have hcursor : parseCursor (sorted (((cursor.map cursorText).map Json.string).getD .null)) =
      .ok (cursor.map cursorText) := by
    cases cursor with
    | none => rfl
    | some value => exact parseCursor_cursorText value
  have hrunText : (Json.string runId).asNonEmptyText = some runId := by
    rw [asNonEmptyText, asText, Option.filter_some]
    exact if_pos (decide_eq_true hrun)
  have hparseCount := parseCount_natural count
  have hlist : requirePoints (sorted (.array ((selected.map pointOfRow).map pointDocument))) =
      .ok (sortedItems ((selected.map pointOfRow).map pointDocument)) := rfl
  have hcollectionText : (Json.string collectionName).asNonEmptyText = some mem0Collection := rfl
  have hcollection : (pageDocument runId count (selected.map pointOfRow)
      (cursor.map cursorText)).get "collection" = .string collectionName := rfl
  have hrunId : (pageDocument runId count (selected.map pointOfRow)
      (cursor.map cursorText)).get "run_id" = .string runId := rfl
  have hcountOf : (pageDocument runId count (selected.map pointOfRow)
      (cursor.map cursorText)).get "count" = .integer count := rfl
  have hpointsOf : (pageDocument runId count (selected.map pointOfRow)
      (cursor.map cursorText)).get "points" =
        .array ((selected.map pointOfRow).map pointDocument) := rfl
  have hcursorOf : (pageDocument runId count (selected.map pointOfRow)
      (cursor.map cursorText)).get "next_cursor" =
        ((cursor.map cursorText).map Json.string).getD .null := rfl
  have hcountSorted : sorted (.integer count) = .integer count := rfl
  rw [readPageAlone, parseExactJsonObject_pageDocument hwritable]
  simp only [get_pageDocument hwritable, hcollection, hrunId, hcountOf, hpointsOf, hcursorOf, hlist,
    hcursor, requireNonEmptyString_sorted, requireNonEmptyString_eq_ok.mpr hcollectionText,
    requireNonEmptyString_eq_ok.mpr hrunText, hcountSorted, hparseCount,
    require_of hcount, bind, Except.bind,
    mapM_parseProjectionPoint fun row hrow ↦ (hwritable row hrow).exact, hpoints]
  rfl

end Documents

/-! ### Answers -/

/-- The parameters of a request as texts. -/
def queryOf (call : RestCall) : List (String × String) :=
  call.params.map fun parameter ↦ (parameter.1, parameter.2.asText.getD "")

/-- What the client of the inspector makes of its reply. The sealed bytes are stored under their
digest. -/
def inspectorExit (sha256 : Bytes → String) (table : MemoryTable) (call : RestCall) : Exit :=
  let reply := doGet table (queryOf call)
  finishRequest ⟨[], false, false, none, none⟩ none (.response reply.1 reply.2 (.ok (sha256 reply.2)))

/-- The answers of the inspector of a table that does not change. -/
def inspectorAnswers (sha256 : Bytes → String) (table : MemoryTable) :
    (query : Query) → MemorySystems.Answer query
  | .request call => (inspectorExit sha256 table call : Exit)
  | .clock => (0 : ℚ)
  | .sleep _ => SleepOutcome.slept

/-- The rows of a table. -/
def tableRows (table : MemoryTable) : List MemoryRow := table.getD []

/-- The pages that the inspector shows are not too large for a reply. -/
def RepliesFit (table : MemoryTable) (runId : String) : Prop :=
  ∀ cursor document, Mem0Inspector.readProjection table runId cursor = .ok document →
    (jsonBytes document).length ≤ maxInspectorResponseBytes

/-- A response with a page. -/
def responseOf (sha256 : Bytes → String) (document : Json) : SealedRestResponse :=
  ⟨200, jsonBytes document, sha256 (jsonBytes document), none⟩

section Answers

variable {sha256 : Bytes → String} {table : MemoryTable} {runId : String}

/-- The inspector answers with the page after a cursor. -/
theorem inspectorExit_eq (hrun : Mem0Inspector.isRunId runId = true) {cursor : Option ℕ}
    (hcursor : ∀ id ∈ cursor, id < Uuids.limit) {document : Json}
    (hread : Mem0Inspector.readProjection table runId (cursor.map Uuids.text) = .ok document)
    (hfits : RepliesFit table runId) :
    inspectorExit sha256 table (projectionCall runId ((cursor.map Uuids.text).map cursorText)) =
      .returned (responseOf sha256 document) := by
  have hreply : doGet table (queryOf (projectionCall runId
      ((cursor.map Uuids.text).map cursorText))) = (200, jsonBytes document) := by
    have hpage : replyPage document = (200, jsonBytes document) :=
      if_neg (Nat.not_lt.mpr (hfits _ _ hread))
    cases cursor with
    | none =>
      have hvalues : valuesOf (queryOf (projectionCall runId none)) "run_id" = [runId] := rfl
      have hcursors : valuesOf (queryOf (projectionCall runId none)) "cursor" = [] := rfl
      have hnames : (queryOf (projectionCall runId none)).any
          (fun parameter ↦ parameter.1 ∉ ["run_id", "cursor"]) = false := rfl
      rw [Option.map_none] at hread
      simp only [Option.map_none, doGet, hvalues, hcursors, hnames, hrun, Bool.false_eq_true,
        Bool.true_eq_false, if_false, List.head?_nil, decodeCursor, hread, hpage]
    | some id =>
      have hvalues : valuesOf (queryOf (projectionCall runId (some (cursorText (Uuids.text id)))))
          "run_id" = [runId] := rfl
      have hcursors : valuesOf (queryOf (projectionCall runId (some (cursorText (Uuids.text id)))))
          "cursor" = [cursorText (Uuids.text id)] := rfl
      have hnames : (queryOf (projectionCall runId (some (cursorText (Uuids.text id))))).any
          (fun parameter ↦ parameter.1 ∉ ["run_id", "cursor"]) = false := rfl
      rw [Option.map_some] at hread
      simp only [Option.map_some, doGet, hvalues, hcursors, hnames, hrun, Bool.false_eq_true,
        Bool.true_eq_false, if_false, List.head?_cons, decodeCursor_cursorText (hcursor id rfl),
        hread, hpage]
  rw [inspectorExit, hreply]
  rfl

theorem readProjection_table (hvalid : ValidRows (tableRows table))
    (hshown : ∀ row ∈ rowsOf (tableRows table) runId, Shown runId row)
    {before rest : List MemoryRow} (hsplit : orderedRows (tableRows table) runId = before ++ rest) :
    Mem0Inspector.readProjection table runId (cursorAfter before) =
      .ok (pageOf runId (rowsOf (tableRows table) runId).length rest) := by
  cases table with
  | some rows => exact readProjection_split hvalid hshown hsplit
  | none =>
    have hnone : before ++ rest = [] := by
      rw [← hsplit, orderedRows]
      exact List.mergeSort_nil
    obtain ⟨rfl, rfl⟩ := List.append_eq_nil_iff.mp hnone
    rfl

end Answers

/-! ### The loop -/

/-- The pages from some rows on. -/
def pagesFrom (runId : String) (count : ℕ) (rest : List MemoryRow) : List Json :=
  pageOf runId count rest ::
    if pageSize < rest.length then pagesFrom runId count (rest.drop pageSize) else []
termination_by rest.length
decreasing_by
  rw [List.length_drop]
  have hpos : 0 < pageSize := by decide
  omega

theorem pagesFrom_of_le {runId : String} {count : ℕ} {rest : List MemoryRow}
    (hle : ¬ pageSize < rest.length) : pagesFrom runId count rest = [pageOf runId count rest] := by
  rw [pagesFrom, if_neg hle]

theorem pagesFrom_of_lt {runId : String} {count : ℕ} {rest : List MemoryRow}
    (hlt : pageSize < rest.length) :
    pagesFrom runId count rest =
      pageOf runId count rest :: pagesFrom runId count (rest.drop pageSize) := by
  rw [pagesFrom, if_pos hlt]

/-- How many pages some rows take. -/
def pageCount (rows : ℕ) : ℕ := max 1 ((rows + (pageSize - 1)) / pageSize)

theorem length_pagesFrom (runId : String) (count : ℕ) (rest : List MemoryRow) :
    (pagesFrom runId count rest).length = pageCount rest.length := by
  induction hlength : rest.length using Nat.strong_induction_on generalizing rest with
  | _ length ih =>
    subst hlength
    by_cases hmore : pageSize < rest.length
    · have hdrop := List.length_drop (i := pageSize) (l := rest)
      have hsize : pageSize = 256 := rfl
      rw [pagesFrom_of_lt hmore, List.length_cons, ih _ (by omega) _ rfl, hdrop, pageCount,
        pageCount, hsize]
      omega
    · have hsize : pageSize = 256 := rfl
      rw [pagesFrom_of_le hmore, pageCount, hsize, List.length_singleton]
      omega

/-- The cursor in a page. -/
def cursorIn (rest : List MemoryRow) : Option String :=
  if pageSize < rest.length then cursorAfter (rest.take pageSize) else none

theorem pageOf_eq (runId : String) (count : ℕ) (rest : List MemoryRow) :
    pageOf runId count rest = pageDocument runId count ((rest.take pageSize).map pointOfRow)
      ((cursorIn rest).map cursorText) := by
  rw [pageOf, cursorIn]
  by_cases hmore : pageSize < rest.length
  · rw [if_pos hmore, if_pos hmore]
  · rw [if_neg hmore, if_neg hmore]
    rfl

theorem nextCursor_pageOf {runId : String} {count : ℕ} {rest : List MemoryRow}
    (hwritable : ∀ row ∈ rest, Writable runId row) :
    nextCursor (jsonBytes (pageOf runId count rest)) = .ok ((cursorIn rest).map cursorText) := by
  have htake : ∀ row ∈ rest.take pageSize, Writable runId row := fun row hrow ↦
    hwritable row (List.mem_of_mem_take hrow)
  have hcursorOf : (pageDocument runId count ((rest.take pageSize).map pointOfRow)
      ((cursorIn rest).map cursorText)).get "next_cursor" =
        (((cursorIn rest).map cursorText).map Json.string).getD .null := rfl
  rw [pageOf_eq, nextCursor, parseExactJsonObject_pageDocument htake]
  simp only [get_pageDocument htake, hcursorOf, bind, Except.bind]
  cases cursorIn rest <;> rfl

/-- A page that is not the last one has rows. -/
theorem take_ne_nil {rest : List MemoryRow} (hmore : pageSize < rest.length) :
    rest.take pageSize ≠ [] := by
  rw [Ne, List.take_eq_nil_iff]
  rintro (hzero | rfl)
  · cases hzero
  · cases hmore

/-- A page that is not the last one gives the cursor. -/
theorem cursorAfter_take {before rest : List MemoryRow} (hmore : pageSize < rest.length) :
    cursorAfter (before ++ rest.take pageSize) = cursorAfter (rest.take pageSize) := by
  have hne := take_ne_nil hmore
  rw [cursorAfter, cursorAfter, List.getLast?_append_of_ne_nil _ hne]

section Loop

variable {sha256 : Bytes → String} {table : MemoryTable} {runId : String}

theorem answered_send_bind {α : Type} {call : RestCall} {response : SealedRestResponse}
    (hexit : inspectorExit sha256 table call = .returned response)
    (next : SealedRestResponse → Ingest α) :
    answered (inspectorAnswers sha256 table) (send call >>= next) =
        answered (inspectorAnswers sha256 table) (next response) ∧
      asked (inspectorAnswers sha256 table) (send call >>= next) =
        .request call :: asked (inspectorAnswers sha256 table) (next response) := by
  have hsend : answered (inspectorAnswers sha256 table) (send call) = .ok response := by
    rw [send, answered_ask]
    exact congrArg exitOutcome hexit
  exact ⟨answered_bind_of_ok hsend, asked_bind_of_ok hsend⟩

/-- The adapter reads all pages from some rows on, each with one request. -/
theorem capturePages_eq (hrun : Mem0Inspector.isRunId runId = true)
    (hvalid : ValidRows (tableRows table))
    (hshown : ∀ row ∈ rowsOf (tableRows table) runId, Shown runId row ∧ Writable runId row)
    (hfits : RepliesFit table runId) {before rest : List MemoryRow}
    (hsplit : orderedRows (tableRows table) runId = before ++ rest) {pages : ℕ}
    (hpages : pageCount rest.length ≤ pages) (responses : List SealedRestResponse) :
    answered (inspectorAnswers sha256 table)
        (capturePages runId pages responses ((cursorAfter before).map cursorText)) =
          .ok (responses ++ (pagesFrom runId (rowsOf (tableRows table) runId).length rest).map
            (responseOf sha256)) ∧
      (asked (inspectorAnswers sha256 table)
        (capturePages runId pages responses ((cursorAfter before).map cursorText))).length =
          pageCount rest.length := by
  induction hlength : rest.length using Nat.strong_induction_on generalizing before rest pages
    responses with
  | _ length ih =>
    subst hlength
    obtain ⟨pages, rfl⟩ : ∃ fewer, pages = fewer + 1 := by
      have hone : 1 ≤ pageCount rest.length := le_max_left _ _
      exact ⟨pages - 1, by omega⟩
    have hrows : ∀ row ∈ before ++ rest, Shown runId row ∧ Writable runId row := fun row hrow ↦
      hshown row (perm_orderedRows.mem_iff.mp (hsplit ▸ hrow))
    have hwritable : ∀ row ∈ rest, Writable runId row := fun row hrow ↦
      (hrows row (List.mem_append_right before hrow)).2
    have hread := readProjection_table hvalid (fun row hrow ↦ (hshown row hrow).1) hsplit
    have hcursor : ∀ id ∈ before.getLast?.map MemoryRow.id, id < Uuids.limit := by
      intro id hid
      obtain ⟨last, hlast, rfl⟩ := Option.mem_map.mp hid
      exact (hrows last (List.mem_append_left rest (List.mem_of_getLast? hlast))).1.lt_limit
    have hmap : (before.getLast?.map MemoryRow.id).map Uuids.text = cursorAfter before := by
      rw [Option.map_map, cursorAfter]
      rfl
    have hexit := @inspectorExit_eq sha256 table runId hrun (before.getLast?.map MemoryRow.id) hcursor
      (pageOf runId (rowsOf (tableRows table) runId).length rest) (hmap ▸ hread) hfits
    rw [hmap] at hexit
    rw [capturePages, (answered_send_bind hexit _).1, (answered_send_bind hexit _).2]
    simp only [responseOf, nextCursor_pageOf hwritable]
    by_cases hmore : pageSize < rest.length
    · have hsplit' : orderedRows (tableRows table) runId =
          (before ++ rest.take pageSize) ++ rest.drop pageSize := by
        rw [hsplit, List.append_assoc, List.take_append_drop]
      have hfewer : pageCount (rest.drop pageSize).length + 1 = pageCount rest.length := by
        have hall := length_pagesFrom runId 0 rest
        rwa [pagesFrom_of_lt hmore, List.length_cons, length_pagesFrom] at hall
      have hshorter : (rest.drop pageSize).length < rest.length := by
        rw [List.length_drop]
        exact Nat.sub_lt (Nat.zero_lt_of_lt hmore) (by decide)
      have hpages' : pageCount (rest.drop pageSize).length ≤ pages := by omega
      obtain ⟨hlater, hcount⟩ := ih (rest.drop pageSize).length hshorter hsplit' hpages'
        (responses ++ [responseOf sha256 (pageOf runId (rowsOf (tableRows table) runId).length rest)])
        rfl
      rw [cursorAfter_take hmore] at hlater hcount
      obtain ⟨last, hlast⟩ : ∃ last, cursorIn rest = some last := by
        have hne := take_ne_nil hmore
        rw [cursorIn, if_pos hmore, cursorAfter, List.getLast?_eq_some_getLast hne]
        exact ⟨_, rfl⟩
      have hnext : cursorAfter (rest.take pageSize) = some last := by
        rw [← hlast, cursorIn, if_pos hmore]
      rw [hnext, Option.map_some] at hlater hcount
      rw [hlast, Option.map_some, pagesFrom_of_lt hmore, List.map_cons, List.length_cons]
      rw [List.append_assoc, List.singleton_append] at hlater
      exact ⟨hlater, by rw [← hfewer, ← hcount]; rfl⟩
    · have hlast : cursorIn rest = none := if_neg hmore
      rw [hlast, Option.map_none, pagesFrom_of_le hmore, List.map_singleton, List.length_cons]
      refine ⟨rfl, ?_⟩
      rw [← length_pagesFrom runId 0, pagesFrom_of_le hmore]
      rfl

end Loop

/-! ### The chain -/

section Chain

variable {runId : String}

/-- The cursor of a page that ends with a row. -/
def markOf (row : MemoryRow) : String := cursorText (Uuids.text row.id)

/-- The pages from some rows on are read as a chain of their points, with cursors of some of the
rows. -/
structure ReadsAs (count : ℕ) (rest : List MemoryRow) (points : List ProjectionPoint)
    (readings : List PageReading) : Prop where
  ne_nil : readings ≠ []
  points : allPoints readings = points
  linked : ∀ page ∈ readings.dropLast, page.cursor.isSome
  ended : ∀ page ∈ readings.getLast?, page.cursor = none
  counted : ∀ page ∈ readings, page.count = count
  filled : ∀ page ∈ readings, page.cursor.isSome → page.points ≠ []
  cursors : ∃ marks : List MemoryRow, marks.Sublist rest ∧ allCursors readings = marks.map markOf

theorem mapM_append_eq_ok {α β : Type} {read : α → Except String β} {first second : List α}
    {results : List β} (hread : (first ++ second).mapM read = .ok results) :
    ∃ before after, first.mapM read = .ok before ∧ second.mapM read = .ok after ∧
      results = before ++ after := by
  rw [List.mapM_append] at hread
  obtain ⟨before, hbefore, hread⟩ := StatefulExecution.bind_eq_ok.mp hread
  obtain ⟨after, hafter, hread⟩ := StatefulExecution.bind_eq_ok.mp hread
  exact ⟨before, after, hbefore, hafter, (Except.ok.inj hread).symm⟩

theorem exists_readings {count maxPoints : ℕ} (hrun : runId ≠ "") (hcount : count ≤ maxPoints)
    {rest : List MemoryRow} (hwritable : ∀ row ∈ rest, Writable runId row)
    {points : List ProjectionPoint} (hpoints : rest.mapM (pointOf runId) = .ok points) :
    ∃ readings, ((pagesFrom runId count rest).map jsonBytes).mapM
        (readPageAlone ⟨mem0Collection, runId, maxPoints⟩) = .ok readings ∧
      ReadsAs count rest points readings := by
  induction hlength : rest.length using Nat.strong_induction_on generalizing rest points with
  | _ length ih =>
    subst hlength
    have htake : ∀ row ∈ rest.take pageSize, Writable runId row := fun row hrow ↦
      hwritable row (List.mem_of_mem_take hrow)
    by_cases hmore : pageSize < rest.length
    · rw [← List.take_append_drop pageSize rest] at hpoints
      obtain ⟨shown, later, hshown, hlater, rfl⟩ := mapM_append_eq_ok hpoints
      have hshorter : (rest.drop pageSize).length < rest.length := by
        rw [List.length_drop]
        exact Nat.sub_lt (Nat.zero_lt_of_lt hmore) (by decide)
      obtain ⟨readings, hreadings, hreads⟩ := ih _ hshorter
        (fun row hrow ↦ hwritable row (List.mem_of_mem_drop hrow)) hlater rfl
      have hne := take_ne_nil hmore
      obtain ⟨last, hlast⟩ : ∃ last, (rest.take pageSize).getLast? = some last :=
        ⟨_, List.getLast?_eq_some_getLast hne⟩
      have hcursor : cursorIn rest = some (Uuids.text last.id) := by
        rw [cursorIn, if_pos hmore, cursorAfter, hlast, Option.map_some]
      have hpage := @readPageAlone_pageDocument runId count maxPoints (rest.take pageSize)
        (cursorIn rest) htake hrun hcount shown hshown
      rw [← pageOf_eq, hcursor] at hpage
      have hfilled : shown ≠ [] := fun hnil ↦ hne ((mapM_eq_nil_iff hshown).mp hnil)
      obtain ⟨marks, hmarks, hcursors⟩ := hreads.cursors
      refine ⟨⟨count, shown, some (markOf last)⟩ :: readings, ?_, by simp, ?_, ?_, ?_, ?_, ?_,
        last :: marks, ?_, ?_⟩
      · rw [pagesFrom_of_lt hmore, List.map_cons]
        exact mapM_cons_eq_ok.mpr ⟨_, _, hpage, hreadings, rfl⟩
      · rw [allPoints_cons, hreads.points]
      · rw [List.dropLast_cons_of_ne_nil hreads.ne_nil]
        exact List.forall_mem_cons.mpr ⟨rfl, hreads.linked⟩
      · rw [List.getLast?_cons_of_ne_nil hreads.ne_nil]
        exact hreads.ended
      · exact List.forall_mem_cons.mpr ⟨rfl, hreads.counted⟩
      · exact List.forall_mem_cons.mpr ⟨fun _ ↦ hfilled, hreads.filled⟩
      · have hone : [last].Sublist (rest.take pageSize) :=
          List.singleton_sublist.mpr (List.mem_of_getLast? hlast)
        simpa only [List.singleton_append, List.take_append_drop] using hone.append hmarks
      · rw [allCursors_cons, hcursors]
        rfl
    · have hall : rest.take pageSize = rest := List.take_of_length_le (Nat.not_lt.mp hmore)
      have hcursor : cursorIn rest = none := if_neg hmore
      have hpage := @readPageAlone_pageDocument runId count maxPoints (rest.take pageSize)
        (cursorIn rest) htake hrun hcount points (by rw [hall, hpoints])
      rw [← pageOf_eq, hcursor] at hpage
      refine ⟨[⟨count, points, none⟩], ?_, by simp, ?_, by simp, by simp, by simp, by simp, [],
        List.nil_sublist rest, rfl⟩
      · rw [pagesFrom_of_le hmore, List.map_singleton]
        exact mapM_cons_eq_ok.mpr ⟨_, [], hpage, mapM_nil_eq_ok.mpr rfl, rfl⟩
      · rw [allPoints_cons]
        exact List.append_nil points

/-- The identities of the points of some rows are those of the rows. -/
theorem identities_of_mapM {selected : List MemoryRow} {points : List ProjectionPoint}
    (hpoints : selected.mapM (pointOf runId) = .ok points) :
    identities points = selected.map fun row ↦ Uuids.text row.id := by
  induction selected generalizing points with
  | nil =>
    rw [mapM_nil_eq_ok.mp hpoints]
    rfl
  | cons row rest ih =>
    obtain ⟨point, others, hpoint, hothers, rfl⟩ := mapM_cons_eq_ok.mp hpoints
    rw [identities, List.map_cons, List.map_cons, (of_parsePayload hpoint).1, ← ih hothers]
    rfl

theorem length_of_mapM {selected : List MemoryRow} {points : List ProjectionPoint}
    (hpoints : selected.mapM (pointOf runId) = .ok points) : points.length = selected.length := by
  have hidentities := congrArg List.length (identities_of_mapM hpoints)
  rwa [identities, List.length_map, List.length_map] at hidentities

/-- Rows that can each be read have their points. -/
theorem exists_mapM {selected : List MemoryRow}
    (hpoints : ∀ row ∈ selected, ∃ point, pointOf runId row = .ok point) :
    ∃ points, selected.mapM (pointOf runId) = .ok points := by
  induction selected with
  | nil => exact ⟨[], mapM_nil_eq_ok.mpr rfl⟩
  | cons row rest ih =>
    obtain ⟨hrow, hrest⟩ := List.forall_mem_cons.mp hpoints
    obtain ⟨point, hpoint⟩ := hrow
    obtain ⟨points, hpoints⟩ := ih hrest
    exact ⟨_, mapM_cons_eq_ok.mpr ⟨point, points, hpoint, hpoints, rfl⟩⟩

theorem nodup_texts {rows selected : List MemoryRow} (hvalid : ValidRows rows)
    (hsublist : selected.Sublist (orderedRows rows runId)) :
    (selected.map fun row ↦ Uuids.text row.id).Nodup := by
  have hrows : (orderedRows rows runId).Pairwise fun first second ↦
      Uuids.text first.id ≠ Uuids.text second.id := by
    refine (pairwise_orderedRows hvalid).imp_of_mem fun {first second} hfirst hsecond hbefore hsame ↦ ?_
    have hid := Uuids.text_inj (hvalid.lt_limit first (mem_of_mem_orderedRows hfirst))
      (hvalid.lt_limit second (mem_of_mem_orderedRows hsecond)) hsame
    exact absurd hid (Nat.ne_of_lt hbefore)
  exact List.pairwise_map.mpr (hrows.sublist hsublist)

/-- The pages of a run are parsed as one projection of its points. -/
theorem parseProjectionPages_pagesFrom {rows : List MemoryRow} (hvalid : ValidRows rows)
    (hrun : Mem0Projection.isRunId runId = true) (hne : runId ≠ "")
    (hwritable : ∀ row ∈ orderedRows rows runId, Writable runId row)
    (hcount : (rowsOf rows runId).length ≤ mem0ProjectionMaxPoints)
    {points : List ProjectionPoint}
    (hpoints : (orderedRows rows runId).mapM (pointOf runId) = .ok points) :
    parseProjectionPages ((pagesFrom runId (rowsOf rows runId).length
        (orderedRows rows runId)).map jsonBytes) mem0Collection runId mem0ProjectionMaxPages
        mem0ProjectionMaxPoints =
      .ok ⟨mem0Collection, runId, (rowsOf rows runId).length, points,
        pageCount (rowsOf rows runId).length⟩ := by
  obtain ⟨readings, hreadings, hreads⟩ := exists_readings hne hcount hwritable hpoints
  obtain ⟨marks, hmarks, hcursors⟩ := hreads.cursors
  have hlength : points.length = (rowsOf rows runId).length :=
    (length_of_mapM hpoints).trans length_orderedRows
  have hpages : ((pagesFrom runId (rowsOf rows runId).length (orderedRows rows runId)).map
      jsonBytes).length = pageCount (rowsOf rows runId).length := by
    rw [List.length_map, length_pagesFrom, length_orderedRows]
  refine parseProjectionPages_eq_ok.mpr ⟨⟨by decide, hrun, by decide, ?_⟩, readings, hreadings,
    ⟨hreads.ne_nil, hreads.linked, hreads.ended, ?_, hreads.filled, ?_, fun page hpage ↦ ?_, ?_⟩, ?_⟩
  · have hlimit : (rowsOf rows runId).length ≤ 1000000 := hcount
    have hsize : pageSize = 256 := rfl
    have hmax : mem0ProjectionMaxPages = 4096 := rfl
    rw [hpages, pageCount, hsize, hmax]
    omega
  · rw [hcursors]
    have htexts := nodup_texts hvalid hmarks
    have hinjective := htexts.map cursorText_injective
    rwa [List.map_map] at hinjective
  · rw [hreads.points, identities_of_mapM hpoints]
    exact nodup_texts hvalid (List.Sublist.refl _)
  · rw [hreads.counted page hpage, hreads.points, hlength]
  · rw [hreads.points, hlength]
    exact hcount
  · rw [hreads.points, hlength, hpages]

end Chain

/-! ### Complete captures -/

/-- How many rows a run has. -/
def rowCount (table : MemoryTable) (runId : String) : ℕ := (rowsOf (tableRows table) runId).length

/-- A capture gets every row of a run once and in the order of the identities, with as many requests as
the rows take pages, and the inspector reads back the cursors that it writes. -/
structure CapturesAll (sha256 : Bytes → String) (table : MemoryTable) (runId : String) : Prop where
  captured : ∃ native responses,
    answered (inspectorAnswers sha256 table) (captureNativeProjection runId) =
        .ok (native, responses) ∧
      native.declaredCount = rowCount table runId ∧
      (orderedRows (tableRows table) runId).mapM (pointOf runId) = .ok native.points ∧
      native.points.map ProjectionPoint.nativeId =
        (orderedRows (tableRows table) runId).map fun row ↦ Uuids.text row.id
  requests : (asked (inspectorAnswers sha256 table) (captureNativeProjection runId)).length =
    max 1 ((rowCount table runId + 255) / 256)
  cursors : ∀ row ∈ tableRows table,
    decodeCursor (encodeCursor (some (Uuids.text row.id))) = .ok (some (Uuids.text row.id))

/-- A run that the inspector can show: its rows can be in the table, they take no more pages than a
capture reads, and no page is too large. -/
structure Showable (table : MemoryTable) (runId : String) : Prop where
  valid : ValidRows (tableRows table)
  run : Mem0Inspector.isRunId runId = true
  pages : pageCount (rowCount table runId) ≤ mem0ProjectionMaxPages
  fits : RepliesFit table runId

theorem answered_captureNativeProjection {sha256 : Bytes → String} {table : MemoryTable}
    {runId : String} {responses : List SealedRestResponse}
    (hresponses : answered (inspectorAnswers sha256 table)
      (capturePages runId mem0ProjectionMaxPages [] none) = .ok responses) :
    answered (inspectorAnswers sha256 table) (captureNativeProjection runId) =
        (parseResponses runId responses).map (fun native ↦ (native, responses)) ∧
      asked (inspectorAnswers sha256 table) (captureNativeProjection runId) =
        asked (inspectorAnswers sha256 table)
          (capturePages runId mem0ProjectionMaxPages [] none) := by
  rw [captureNativeProjection, answered_bind_of_ok hresponses, asked_bind_of_ok hresponses]
  cases parseResponses runId responses with
  | error error => exact ⟨rfl, List.append_nil _⟩
  | ok native => exact ⟨rfl, List.append_nil _⟩

/-- Within the limit of points, and with payloads of the profile, a capture is complete. -/
theorem capturesAll_of_rows {sha256 : Bytes → String} {table : MemoryTable} {runId : String}
    (hshowable : Showable table runId) (hcount : rowCount table runId ≤ mem0ProjectionMaxPoints)
    (hprofile : ∀ row ∈ rowsOf (tableRows table) runId, ∃ point, pointOf runId row = .ok point) :
    CapturesAll sha256 table runId := by
  obtain ⟨hvalid, hrun, hpages, hfits⟩ := hshowable
  have hne : runId ≠ "" := by
    rintro rfl
    exact Bool.noConfusion hrun
  have hrows : ∀ row ∈ rowsOf (tableRows table) runId, Shown runId row ∧ Writable runId row := by
    intro row hrow
    obtain ⟨point, hpoint⟩ := hprofile row hrow
    have hmem : row ∈ tableRows table := List.mem_of_mem_filter hrow
    exact ⟨shown_of_pointOf (hvalid.lt_limit row hmem) hpoint, hvalid.exact row hmem,
      isWhole_of_parsePayload (hvalid.exact row hmem) hpoint⟩
  have hordered : ∀ row ∈ orderedRows (tableRows table) runId, row ∈ rowsOf (tableRows table) runId :=
    fun row hrow ↦ perm_orderedRows.mem_iff.mp hrow
  obtain ⟨points, hpoints⟩ := exists_mapM fun row hrow ↦ hprofile row (hordered row hrow)
  obtain ⟨hanswered, hasked⟩ := @capturePages_eq sha256 table runId hrun hvalid hrows hfits []
    (orderedRows (tableRows table) runId) rfl mem0ProjectionMaxPages
    (by rw [length_orderedRows]; exact hpages) []
  have hparsed := parseProjectionPages_pagesFrom hvalid hrun hne
    (fun row hrow ↦ (hrows row (hordered row hrow)).2) hcount hpoints
  obtain ⟨hcapture, hrequests⟩ := answered_captureNativeProjection hanswered
  have hbytes : (([] ++ (pagesFrom runId (rowsOf (tableRows table) runId).length
      (orderedRows (tableRows table) runId)).map (responseOf sha256)).map
        SealedRestResponse.rawBytes) =
      (pagesFrom runId (rowsOf (tableRows table) runId).length
        (orderedRows (tableRows table) runId)).map jsonBytes := by
    rw [List.nil_append, List.map_map]
    rfl
  rw [parseResponses, hbytes, hparsed] at hcapture
  refine ⟨⟨_, _, hcapture, rfl, hpoints, identities_of_mapM hpoints⟩, ?_, fun row hrow ↦ ?_⟩
  · rw [hrequests, rowCount, ← length_orderedRows]
    exact hasked
  · exact decodeCursor_cursorText (hvalid.lt_limit row hrow)

/-! ### The size of a reply -/

/-- The points of a page are those of its rows. -/
theorem of_readPoints {runId : String} {previousId : Option String} {selected : List MemoryRow}
    {points : List (String × Json)} (hread : readPoints runId previousId selected = .ok points) :
    points = selected.map pointOfRow := by
  induction selected generalizing previousId points with
  | nil => exact (Except.ok.inj hread).symm
  | cons row rest ih =>
    simp only [readPoints] at hread
    split_ifs at hread
    obtain ⟨others, hothers, hread⟩ := StatefulExecution.bind_eq_ok.mp hread
    rw [List.map_cons, ← ih hothers]
    exact (Except.ok.inj hread).symm

/-- What is in a page that the inspector shows. -/
theorem of_readProjection {rows : List MemoryRow} {runId : String} {cursorValue : Option String}
    {document : Json}
    (hread : Mem0Inspector.readProjection (some rows) runId cursorValue = .ok document) :
    ∃ shown : List MemoryRow, ∃ last : Option MemoryRow, (∀ row ∈ shown, row ∈ rows) ∧
      shown.length ≤ pageSize ∧ document = pageDocument runId (rowsOf rows runId).length
        (shown.map pointOfRow) (last.map fun row ↦ cursorText (Uuids.text row.id)) := by
  obtain ⟨points, hpoints, hread⟩ := StatefulExecution.bind_eq_ok.mp hread
  have hselected := of_readPoints hpoints
  split_ifs at hread with hfew hfirst
  subst hselected
  have hrows : ∀ row ∈ selectRows rows runId (cursorValue.bind Uuids.readUuid) pageQueryLimit,
      row ∈ rows := fun row hrow ↦
    mem_of_mem_orderedRows (List.mem_of_mem_filter (List.mem_of_mem_take hrow))
  refine ⟨(selectRows rows runId (cursorValue.bind Uuids.readUuid) pageQueryLimit).take pageSize,
    if pageSize < (selectRows rows runId (cursorValue.bind Uuids.readUuid) pageQueryLimit).length then
      ((selectRows rows runId (cursorValue.bind Uuids.readUuid) pageQueryLimit).take
        pageSize).getLast? else none,
    fun row hrow ↦ hrows row (List.mem_of_mem_take hrow), List.length_take_le _ _, ?_⟩
  rw [← Except.ok.inj hread, List.map_take, List.length_map]
  congr 1
  by_cases hmore : pageSize <
      (selectRows rows runId (cursorValue.bind Uuids.readUuid) pageQueryLimit).length
  · rw [if_pos (decide_eq_true hmore), if_pos hmore, ← List.map_take, List.getLast?_map,
      Option.map_map, encodeCursor, Option.map_map]
    rfl
  · rw [if_neg (by simpa using hmore), if_neg hmore]
    rfl

theorem length_cursorText_le (id : ℕ) : (cursorText (Uuids.text id)).toList.length ≤ 6944 := by
  have hdumps := length_dumps_le true (.string (Uuids.text id))
  have htext := length_writeText_le true (Uuids.text id)
  have hbytes := length_utf8_le (dumps true (.string (Uuids.text id)))
  have hencoded := Base64.length_encode_le (jsonBytes (.string (Uuids.text id)))
  have hstripped := Base64.length_strip_le (Base64.encode (jsonBytes (.string (Uuids.text id))))
  have hextent : extent true (.string (Uuids.text id)) =
      (writeText true (Uuids.text id)).length := rfl
  rw [Uuids.length_text] at htext
  rw [jsonBytes] at hencoded hstripped
  rw [cursorText, String.toList_ofList, jsonBytes]
  omega

/-- Replies of rows with short payloads are not too large. -/
theorem repliesFit_of_extent {rows : List MemoryRow} {runId : String}
    (hpoints : ∀ row ∈ rows, extent true (pointDocument (pointOfRow row)) ≤ 2000)
    (hrun : runId.toList.length ≤ 64) (hcount : rows.length ≤ 10 ^ 9) :
    RepliesFit (some rows) runId := by
  intro cursorValue document hread
  obtain ⟨shown, last, hshown, hlength, rfl⟩ := of_readProjection hread
  have hitems : extentItems true ((shown.map pointOfRow).map pointDocument) ≤ 2001 * 256 := by
    have hpage : pageSize = 256 := rfl
    have hbound : ∀ extents : List ℕ, (∀ extent ∈ extents, extent ≤ 2001) →
        extents.sum ≤ 2001 * extents.length := by
      intro extents hextents
      induction extents with
      | nil => exact Nat.zero_le _
      | cons extent extents ih =>
        obtain ⟨hfirst, hrest⟩ := List.forall_mem_cons.mp hextents
        have hlater := ih hrest
        rw [List.sum_cons, List.length_cons]
        omega
    rw [extentItems_eq_sum]
    refine (hbound _ fun extent hextent ↦ ?_).trans ?_
    · obtain ⟨item, hitem, rfl⟩ := List.mem_map.mp hextent
      obtain ⟨point, hpoint, rfl⟩ := List.mem_map.mp hitem
      obtain ⟨row, hrow, rfl⟩ := List.mem_map.mp hpoint
      exact Nat.succ_le_succ (hpoints row (hshown row hrow))
    · rw [List.length_map, List.length_map, List.length_map]
      omega
  have hdigits : (writeInteger ((rowsOf rows runId).length : ℤ)).length ≤ 10 := by
    have hfew : (rowsOf rows runId).length ≤ 10 ^ 9 :=
      (List.length_filter_le _ rows).trans hcount
    rw [writeInteger, if_neg (by omega), Int.natAbs_natCast,
      Nat.length_toDigits_le_iff (by decide) (by decide)]
    omega
  have hcursor : extent true (((last.map fun row ↦ cursorText (Uuids.text row.id)).map
      Json.string).getD .null) ≤ 90000 := by
    cases last with
    | none => decide
    | some row =>
      have htext := length_writeText_le true (cursorText (Uuids.text row.id))
      have hcursorLength := length_cursorText_le row.id
      have hextent : extent true (.string (cursorText (Uuids.text row.id))) =
          (writeText true (cursorText (Uuids.text row.id))).length := rfl
      rw [Option.map_some, Option.map_some, Option.getD_some, hextent]
      omega
  have hrunText : extent true (.string runId) ≤ 800 := by
    have htext := length_writeText_le true runId
    have hextent : extent true (.string runId) = (writeText true runId).length := rfl
    rw [hextent]
    omega
  have hcollection : extent true (.string collectionName) = 15 := by decide
  have hcount : extent true (.integer ((rowsOf rows runId).length : ℤ)) =
      (writeInteger ((rowsOf rows runId).length : ℤ)).length := rfl
  have harray : extent true (.array ((shown.map pointOfRow).map pointDocument)) =
      extentItems true ((shown.map pointOfRow).map pointDocument) + 2 := rfl
  have hnames : (writeText true "collection").length = 12 ∧ (writeText true "run_id").length = 8 ∧
      (writeText true "count").length = 7 ∧ (writeText true "points").length = 8 ∧
        (writeText true "next_cursor").length = 13 := by decide
  have hdumps := length_dumps_le true (pageDocument runId (rowsOf rows runId).length
    (shown.map pointOfRow) (last.map fun row ↦ cursorText (Uuids.text row.id)))
  have hbytes := length_utf8_le (dumps true (pageDocument runId (rowsOf rows runId).length
    (shown.map pointOfRow) (last.map fun row ↦ cursorText (Uuids.text row.id))))
  have hpage : extent true (pageDocument runId (rowsOf rows runId).length (shown.map pointOfRow)
      (last.map fun row ↦ cursorText (Uuids.text row.id))) ≤ 700000 := by
    rw [pageDocument, extent]
    simp only [extentMembers, hcollection, hcount, harray, hnames]
    omega
  have hmaximum : maxInspectorResponseBytes = 33554432 := rfl
  rw [jsonBytes, hmaximum]
  omega

/-! ### What a capture needs -/

/-- A capture that comes to a projection has read pages that are parsed as it. -/
theorem exists_pages_of_capture {sha256 : Bytes → String} {table : MemoryTable} {runId : String}
    {native : Projection} {responses : List SealedRestResponse}
    (hcapture : answered (inspectorAnswers sha256 table) (captureNativeProjection runId) =
      .ok (native, responses)) :
    ∃ pages, answered (inspectorAnswers sha256 table)
        (capturePages runId mem0ProjectionMaxPages [] none) = .ok pages ∧
      parseProjectionPages (pages.map SealedRestResponse.rawBytes) mem0Collection runId
        mem0ProjectionMaxPages mem0ProjectionMaxPoints = .ok native := by
  cases hresponses : answered (inspectorAnswers sha256 table)
      (capturePages runId mem0ProjectionMaxPages [] none) with
  | error error =>
    rw [captureNativeProjection, answered_bind_of_error hresponses] at hcapture
    cases hcapture
  | ok pages =>
    refine ⟨pages, rfl, ?_⟩
    rw [(answered_captureNativeProjection hresponses).1, parseResponses] at hcapture
    cases hparsed : parseProjectionPages (pages.map SealedRestResponse.rawBytes) mem0Collection runId
        mem0ProjectionMaxPages mem0ProjectionMaxPoints with
    | error message =>
      rw [hparsed] at hcapture
      cases hcapture
    | ok parsed =>
      rw [hparsed] at hcapture
      have hsame := congrArg Prod.fst (Except.ok.inj hcapture)
      exact congrArg Except.ok hsame

/-- A page that the adapter can read declares no more than the limit of points, and its rows are of the
profile. -/
theorem of_readPageAlone {count maxPoints : ℕ} {runId : String} {rest : List MemoryRow}
    (hwritable : ∀ row ∈ rest, Writable runId row) {reading : PageReading}
    (hread : readPageAlone ⟨mem0Collection, runId, maxPoints⟩
      (jsonBytes (pageOf runId count rest)) = .ok reading) :
    count ≤ maxPoints ∧ ∃ points, (rest.take pageSize).mapM (pointOf runId) = .ok points := by
  have htake : ∀ row ∈ rest.take pageSize, Writable runId row := fun row hrow ↦
    hwritable row (List.mem_of_mem_take hrow)
  rw [pageOf_eq, readPageAlone, parseExactJsonObject_pageDocument htake] at hread
  simp only [get_pageDocument htake, StatefulExecution.bind_eq_ok, Except.ok.injEq,
    exists_eq_left', require_eq_ok, exists_const] at hread
  obtain ⟨-, -, -, -, -, -, declared, hdeclared, hbound, raw, hraw, -, -, points, hpoints, -⟩ :=
    hread
  have hcount : parseCount (sorted ((pageDocument runId count ((rest.take pageSize).map pointOfRow)
      ((cursorIn rest).map cursorText)).get "count")) = .ok count := by
    exact parseCount_natural count
  have hlist : requirePoints (sorted ((pageDocument runId count ((rest.take pageSize).map pointOfRow)
      ((cursorIn rest).map cursorText)).get "points")) =
        .ok (sortedItems (((rest.take pageSize).map pointOfRow).map pointDocument)) := rfl
  rw [hcount] at hdeclared
  rw [hlist] at hraw
  obtain rfl := Except.ok.inj hdeclared
  obtain rfl := Except.ok.inj hraw
  rw [mapM_parseProjectionPoint fun row hrow ↦ (htake row hrow).exact] at hpoints
  exact ⟨hbound, points, hpoints⟩

/-- A capture that comes to a projection had no more rows than the limit of points, and the rows of its
first page were of the profile. -/
theorem of_capture {sha256 : Bytes → String} {table : MemoryTable} {runId : String}
    (hshowable : Showable table runId)
    (hrows : ∀ row ∈ rowsOf (tableRows table) runId, Shown runId row ∧ Writable runId row)
    {captured : Projection × List SealedRestResponse}
    (hcapture : answered (inspectorAnswers sha256 table) (captureNativeProjection runId) =
      .ok captured) :
    rowCount table runId ≤ mem0ProjectionMaxPoints ∧ ∃ points,
      ((orderedRows (tableRows table) runId).take pageSize).mapM (pointOf runId) = .ok points := by
  obtain ⟨hvalid, hrun, hpages, hfits⟩ := hshowable
  obtain ⟨pages, hanswered, hparsed⟩ := exists_pages_of_capture hcapture
  obtain ⟨hcaptured, -⟩ := @capturePages_eq sha256 table runId hrun hvalid hrows hfits []
    (orderedRows (tableRows table) runId) rfl mem0ProjectionMaxPages
    (by rw [length_orderedRows]; exact hpages) []
  obtain rfl := Except.ok.inj (hanswered.symm.trans hcaptured)
  obtain ⟨-, readings, hreadings, -⟩ := parseProjectionPages_eq_ok.mp hparsed
  rw [pagesFrom, List.nil_append, List.map_cons, List.map_cons] at hreadings
  obtain ⟨reading, -, hreading, -⟩ := mapM_cons_eq_ok.mp hreadings
  exact of_readPageAlone (fun row hrow ↦ (hrows row (perm_orderedRows.mem_iff.mp hrow)).2) hreading

/-! ### Sample tables -/

def sampleRunId : String := String.ofList (List.replicate 64 '0')

/-- A payload of the profile. -/
def samplePayload : Json :=
  .object [("data", .string "memory"), ("text_lemmatized", .string "memory"),
    ("hash", .string "hash"), ("created_at", .string "2024-01-01"),
    ("updated_at", .string "2024-01-01"), ("run_id", .string sampleRunId)]

/-- A payload that names its run only. -/
def barePayload : Json := .object [("run_id", .string sampleRunId)]

/-- A table of rows with one payload. -/
def sampleTable (payload : Json) (count : ℕ) : MemoryTable :=
  some ((List.range count).map fun index ↦ ⟨index, payload⟩)

/-- A payload of the sample run that is short. -/
structure SamplePayload (payload : Json) : Prop where
  exact : payload.exact = true
  whole : isWhole payload = true
  isObject : payload.isObject = true
  runId : payload.get "run_id" = .string sampleRunId
  extent : extent true payload ≤ 1000

theorem samplePayload_sample : SamplePayload samplePayload :=
  ⟨rfl, rfl, rfl, rfl, by decide⟩

theorem samplePayload_bare : SamplePayload barePayload :=
  ⟨rfl, rfl, rfl, rfl, by decide⟩

theorem mem_sampleTable {payload : Json} {count : ℕ} {row : MemoryRow}
    (hrow : row ∈ tableRows (sampleTable payload count)) : row.id < count ∧ row.payload = payload := by
  obtain ⟨index, hindex, rfl⟩ := List.mem_map.mp hrow
  exact ⟨List.mem_range.mp hindex, rfl⟩

theorem rowsOf_sampleTable {payload : Json} (hpayload : SamplePayload payload) (count : ℕ) :
    rowsOf (tableRows (sampleTable payload count)) sampleRunId =
      tableRows (sampleTable payload count) := by
  refine List.filter_eq_self.mpr fun row hrow ↦ ?_
  rw [(mem_sampleTable hrow).2, memberText, hpayload.runId]
  exact decide_eq_true rfl

theorem rowCount_sampleTable {payload : Json} (hpayload : SamplePayload payload) (count : ℕ) :
    rowCount (sampleTable payload count) sampleRunId = count := by
  rw [rowCount, rowsOf_sampleTable hpayload, tableRows, sampleTable, Option.getD_some,
    List.length_map, List.length_range]

theorem showable_sampleTable {payload : Json} (hpayload : SamplePayload payload) {count : ℕ}
    (hcount : count ≤ 1048576) : Showable (sampleTable payload count) sampleRunId := by
  have hlimit : Uuids.limit = 340282366920938463463374607431768211456 := by decide
  refine ⟨⟨fun row hrow ↦ ?_, ?_, fun row hrow ↦ ?_⟩, by decide, ?_, ?_⟩
  · have hid := (mem_sampleTable hrow).1
    omega
  · rw [tableRows, sampleTable, Option.getD_some, List.map_map]
    exact (List.map_id _).symm ▸ List.nodup_range
  · rw [(mem_sampleTable hrow).2]
    exact hpayload.exact
  · have hsize : pageSize = 256 := rfl
    have hmax : mem0ProjectionMaxPages = 4096 := rfl
    rw [rowCount_sampleTable hpayload, pageCount, hsize, hmax]
    omega
  · refine repliesFit_of_extent (fun row hrow ↦ ?_) (by decide) ?_
    · have htext := length_writeText_le true (Uuids.text row.id)
      have hextent : JsonText.extent true (pointDocument (pointOfRow row)) =
          (writeText true "id").length + (writeText true (Uuids.text row.id)).length + 2 +
            ((writeText true "payload").length + JsonText.extent true row.payload + 2 + 0) + 2 := rfl
      have hnames : (writeText true "id").length = 4 ∧ (writeText true "payload").length = 9 := by
        decide
      have hshort := hpayload.extent
      rw [Uuids.length_text] at htext
      rw [hextent, (mem_sampleTable hrow).2, hnames.1, hnames.2]
      omega
    · rw [List.length_map, List.length_range]
      omega

theorem rows_sampleTable {payload : Json} (hpayload : SamplePayload payload) {count : ℕ}
    (hcount : count ≤ 1048576) :
    ∀ row ∈ rowsOf (tableRows (sampleTable payload count)) sampleRunId,
      Shown sampleRunId row ∧ Writable sampleRunId row := by
  intro row hrow
  have hmem := List.mem_of_mem_filter hrow
  obtain ⟨-, hsame⟩ := mem_sampleTable hmem
  refine ⟨⟨(showable_sampleTable hpayload hcount).valid.lt_limit row hmem, ?_, ?_⟩, ?_, ?_⟩
  · rw [hsame]
    exact hpayload.isObject
  · rw [hsame, hpayload.runId]
    exact decide_eq_true rfl
  · rw [hsame]
    exact hpayload.exact
  · rw [hsame]
    exact hpayload.whole

theorem pointOf_samplePayload (index : ℕ) :
    ∃ point, pointOf sampleRunId ⟨index, samplePayload⟩ = .ok point :=
  ⟨_, rfl⟩

theorem orderedRows_ne_nil {payload : Json} (hpayload : SamplePayload payload) {count : ℕ}
    (hcount : 0 < count) :
    orderedRows (tableRows (sampleTable payload count)) sampleRunId ≠ [] := by
  intro hnil
  have hlength := congrArg List.length hnil
  rw [length_orderedRows, ← rowCount, rowCount_sampleTable hpayload] at hlength
  exact absurd hlength (Nat.ne_of_gt hcount)

/-! ### Every row once, in order -/

/-- A run whose rows are of the profile of points, and no more than the limit of points, is captured
whole: as many requests as its rows take pages, every row once and in the order of the identities, a
projection that declares their number, and cursors that are read back. -/
theorem capturesAll_of_showable (sha256 : Bytes → String) (table : MemoryTable) (runId : String)
    (hshowable : Showable table runId) (hcount : rowCount table runId ≤ mem0ProjectionMaxPoints)
    (hprofile : ∀ row ∈ rowsOf (tableRows table) runId, ∃ point, pointOf runId row = .ok point) :
    CapturesAll sha256 table runId :=
  capturesAll_of_rows hshowable hcount hprofile

/-- Of 257 rows every one is captured, with two requests. -/
theorem capturesAll_sampleTable :
    CapturesAll (fun _ ↦ "") (sampleTable samplePayload 257) sampleRunId :=
  capturesAll_of_showable (fun _ ↦ "") (sampleTable samplePayload 257) sampleRunId
    (showable_sampleTable samplePayload_sample (by decide))
    ((rowCount_sampleTable samplePayload_sample 257).le.trans (by decide))
    fun row hrow ↦ by
      obtain ⟨index, -, rfl⟩ := List.mem_map.mp (List.mem_of_mem_filter hrow)
      exact pointOf_samplePayload index

/-- A run with one row more than the limit of points cannot be captured, and neither can one with a row
whose payload is not of the profile of points, though the inspector shows both. -/
theorem capture_refused :
    (Showable (sampleTable samplePayload 1000001) sampleRunId ∧
      ¬ CapturesAll (fun _ ↦ "") (sampleTable samplePayload 1000001) sampleRunId) ∧
    Showable (sampleTable barePayload 1) sampleRunId ∧
      ¬ CapturesAll (fun _ ↦ "") (sampleTable barePayload 1) sampleRunId := by
  have hmany : (1000001 : ℕ) ≤ 1048576 := by decide
  have hone : (1 : ℕ) ≤ 1048576 := by decide
  refine ⟨⟨showable_sampleTable samplePayload_sample hmany, fun hcaptures ↦ ?_⟩,
    showable_sampleTable samplePayload_bare hone, fun hcaptures ↦ ?_⟩
  · obtain ⟨native, responses, hcapture, -⟩ := hcaptures.captured
    have hcount := (of_capture (showable_sampleTable samplePayload_sample hmany)
      (rows_sampleTable samplePayload_sample hmany) hcapture).1
    rw [rowCount_sampleTable samplePayload_sample] at hcount
    exact absurd hcount (by decide)
  · obtain ⟨native, responses, hcapture, -⟩ := hcaptures.captured
    obtain ⟨-, points, hpoints⟩ := of_capture (showable_sampleTable samplePayload_bare hone)
      (rows_sampleTable samplePayload_bare hone) hcapture
    cases hrows : orderedRows (tableRows (sampleTable barePayload 1)) sampleRunId with
    | nil => exact orderedRows_ne_nil samplePayload_bare Nat.zero_lt_one hrows
    | cons row rest =>
      have hmem : row ∈ orderedRows (tableRows (sampleTable barePayload 1)) sampleRunId :=
        hrows ▸ List.mem_cons_self
      obtain ⟨index, -, rfl⟩ := List.mem_map.mp (mem_of_mem_orderedRows hmem)
      rw [hrows, pageSize, List.take_succ_cons] at hpoints
      obtain ⟨point, -, hpoint, -⟩ := mapM_cons_eq_ok.mp hpoints
      cases hpoint

end Oamb.MemorySystems.InspectorGuarantees
