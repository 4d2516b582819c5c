import Oamb.MemorySystems.Mem0ProjectionLaws
import Oamb.Runtime.IngestionRuns

/-!
# Guarantees of the evidence of Mem0

What a native run ingests with Mem0 is read back from the payloads that it sealed. A capture whose pages
and whose summary are sealed is read back from its references (`reconstructMem0Projection_eq_ok`), and
two captures are found among the references of other documents
(`reconstructMem0ProjectionSnapshots_eq_ok`). What an execution seals is in `captures_of_execution` for a
capture and in `of_ingest_ok` and `of_ingest_settled` for a dispatch; the receipt of a dispatch that was
added is closed by its responses (`closedReceipt_of_responses`).
-/

set_option autoImplicit false

namespace Oamb.Artifacts.Mem0EvidenceGuarantees

open Foundation Foundation.Dialogue Foundation.Json Foundation.JsonText Foundation.StatefulExecution
open Contracts.Identities
open MemorySystems MemorySystems.ExactJson MemorySystems.RestClient MemorySystems.Mem0Ingest
open MemorySystems.Mem0Projection MemorySystems.Mem0ProjectionLaws MemorySystems.Mem0Capture
open MemorySystems.Mem0Wire MemorySystems.Mem0Readiness
open Mem0Evidence Runtime.IngestionRuns

/-! ### Documents -/

mutual

/-- What an exact reader takes has no field twice. -/
theorem duplicateField_eq_none : ∀ value : Json, fault value = none → duplicateField value = none
  | .null, _ | .bool _, _ | .integer _, _ | .real _ _, _ | .string _, _ => rfl
  | .array items, hfault => duplicateFieldItems_eq_none items hfault
  | .object members, hfault => by
    rw [fault, Option.or_eq_none_iff, Option.map_eq_none_iff] at hfault
    rw [duplicateField, duplicateFieldMembers_eq_none members hfault.1, hfault.2]
    rfl

theorem duplicateFieldItems_eq_none : ∀ items : List Json, faultItems items = none →
    duplicateFieldItems items = none
  | [], _ => rfl
  | item :: items, hfault => by
    rw [faultItems, Option.or_eq_none_iff] at hfault
    rw [duplicateFieldItems, duplicateField_eq_none item hfault.1,
      duplicateFieldItems_eq_none items hfault.2]
    rfl

theorem duplicateFieldMembers_eq_none : ∀ members : List (String × Json),
    faultMembers members = none → duplicateFieldMembers members = none
  | [], _ => rfl
  | (name, value) :: members, hfault => by
    rw [faultMembers, Option.or_eq_none_iff] at hfault
    rw [duplicateFieldMembers, duplicateField_eq_none value hfault.1,
      duplicateFieldMembers_eq_none members hfault.2]
    rfl

end

/-- An exact object is a document of the evidence. -/
theorem parseUniqueJson_of_exact {payload : Bytes} {fields : List String} {document : Json}
    (hexact : parseExactJsonObject payload fields = .ok document) :
    parseUniqueJson payload = .ok document ∧ document.hasNames fields = true := by
  rw [parseExactJsonObject] at hexact
  rw [parseUniqueJson]
  cases hread : (readUtf8 payload).bind loads with
  | none => rw [hread] at hexact; cases hexact
  | some value =>
    simp only [hread] at hexact ⊢
    cases hfault : fault value with
    | some message => rw [hfault] at hexact; cases hexact
    | none =>
      simp only [hfault] at hexact
      split_ifs at hexact with hobject hnames
      obtain rfl := Except.ok.inj hexact
      rw [duplicateField_eq_none value hfault]
      exact ⟨rfl, hnames⟩

/-- A document with the fields of one profile is not of another one. -/
theorem hasNames_eq_false {document : Json} {fields others : List String} {name : String}
    (hfields : document.hasNames fields = true) (hname : name ∈ fields) (hother : name ∉ others) :
    document.hasNames others = false := by
  rw [hasNames, Bool.and_eq_true, Bool.and_eq_true, List.all_eq_true, List.all_eq_true] at hfields
  have hmem : name ∈ document.names := of_decide_eq_true (hfields.2 name hname)
  rw [hasNames, Bool.and_eq_false_iff, Bool.and_eq_false_iff]
  refine Or.inl (Or.inr ?_)
  rw [List.all_eq_false]
  exact ⟨name, hmem, by rwa [decide_eq_true_eq]⟩

/-- A list of texts is read back. -/
theorem asTexts_map (texts : List String) : asTexts (.array (texts.map .string)) = some texts := by
  rw [asTexts, List.mapM_map]
  induction texts with
  | nil => rfl
  | cons text texts ih =>
    rw [List.mapM_cons, ih]
    rfl

theorem sorted_texts (texts : List String) :
    sorted (.array (texts.map .string)) = .array (texts.map .string) := by
  rw [sorted, sortedItems_eq_map, List.map_map]
  rfl

theorem exists_of_mapM {α β : Type} {read : α → Except String β} {items : List α}
    {results : List β} (hread : items.mapM read = .ok results) {item : α} (hitem : item ∈ items) :
    ∃ result, read item = .ok result ∧ result ∈ results := by
  induction items generalizing results with
  | nil => cases hitem
  | cons first rest ih =>
    obtain ⟨result, others, hresult, hothers, rfl⟩ := mapM_cons_eq_ok.mp hread
    rcases List.mem_cons.mp hitem with rfl | hrest
    · exact ⟨result, hresult, List.mem_cons_self⟩
    · obtain ⟨found, hfound, hmem⟩ := ih hothers hrest
      exact ⟨found, hfound, List.mem_cons_of_mem _ hmem⟩

/-! ### Payloads -/

/-- A reference whose payload is a document. -/
structure Documents (rawPayloads : RawPayloads) (reference : String) (payload : Bytes)
    (document : Json) : Prop where
  stored : rawPayloads reference = some payload
  parsed : parseUniqueJson payload = .ok document

theorem payloadOf_of_stored {rawPayloads : RawPayloads} {reference : String} {payload : Bytes}
    (hstored : rawPayloads reference = some payload) (message : String) :
    payloadOf rawPayloads reference message = .ok payload := by
  rw [payloadOf, hstored]

section Payloads

variable {rawPayloads : RawPayloads}

/-- A page is added to what was found. -/
theorem readReference_page {found : Found} {reference : String} {payload : Bytes} {document : Json}
    (hdocument : Documents rawPayloads reference payload document)
    (hpage : document.hasNames pageFields = true) :
    readReference rawPayloads found reference =
      .ok { found with pages := found.pages ++ [(reference, payload)] } := by
  have hnot : document.hasNames projectionReceiptFields = false :=
    hasNames_eq_false hpage (List.mem_cons_of_mem _ (List.mem_cons_of_mem _ List.mem_cons_self))
      (by decide)
  simp only [readReference, payloadOf_of_stored hdocument.stored, hdocument.parsed, bind,
    Except.bind, hnot, hpage, if_true, Bool.false_eq_true, if_false]
  rfl

/-- The first summary is kept. -/
theorem readReference_summary {found : Found} {reference : String} {payload : Bytes}
    {document : Json} (hdocument : Documents rawPayloads reference payload document)
    (hsummary : document.hasNames projectionReceiptFields = true) (hnone : found.summary = none) :
    readReference rawPayloads found reference =
      .ok { found with summary := some (reference, document) } := by
  simp only [readReference, payloadOf_of_stored hdocument.stored, hdocument.parsed, bind,
    Except.bind, hsummary, if_true, require_of hnone]
  rfl

/-- All pages are found, in their order. -/
theorem foldlM_readReference {found : Found} {pages : List (String × Bytes)}
    (hpages : ∀ page ∈ pages, ∃ document, Documents rawPayloads page.1 page.2 document ∧
      document.hasNames pageFields = true) :
    (pages.map Prod.fst).foldlM (readReference rawPayloads) found =
      .ok { found with pages := found.pages ++ pages } := by
  induction pages generalizing found with
  | nil => rw [List.map_nil, List.foldlM_nil, List.append_nil]; rfl
  | cons page pages ih =>
    obtain ⟨⟨document, hdocument, hpage⟩, hrest⟩ := List.forall_mem_cons.mp hpages
    rw [List.map_cons, List.foldlM_cons, readReference_page hdocument hpage]
    change (pages.map Prod.fst).foldlM (readReference rawPayloads) _ = _
    rw [ih hrest, List.append_assoc, List.singleton_append]

end Payloads

/-! ### Captures -/

/-- What a capture is read back as. -/
def evidenceOf (captured : CapturedProjection) : Mem0ProjectionEvidence where
  projection := captured.native
  orderedSourceUnitIds := captured.orderedSourceUnitIds
  stateSha256 := captured.stateSha256
  captureSequence := captured.captureSequence
  summaryRawRef := captured.summaryReference
  pageRawRefs := captured.pageReferences

/-- The summary of a capture. -/
def summaryOf (captured : CapturedProjection) : Json :=
  summaryDocument captured.native captured.orderedSourceUnitIds captured.stateSha256
    captured.captureSequence captured.pageReferences

/-- A capture whose pages and whose summary are sealed. -/
structure SealedCapture (sha256 : Bytes → String) (rawPayloads : RawPayloads) (runId : String)
    (captured : CapturedProjection) (pages : List Bytes) : Prop where
  pageReferences : captured.pageReferences = pages.map sha256
  pageStored : ∀ page ∈ pages, rawPayloads (sha256 page) = some page
  parsed : parseProjectionPages pages mem0Collection runId mem0ProjectionMaxPages
    mem0ProjectionMaxPoints = .ok captured.native
  sourceIds : captured.orderedSourceUnitIds = projectionSourceUnitIds captured.native
  state : captured.stateSha256 = projectionStateSha256 sha256 captured.native
  numbered : 1 ≤ captured.captureSequence
  summary : captured.summary = canonicalJsonBytes (summaryOf captured)
  summaryReference : captured.summaryReference = sha256 captured.summary
  summaryStored : rawPayloads captured.summaryReference = some captured.summary

theorem exact_summaryOf (captured : CapturedProjection) : (summaryOf captured).exact = true := by
  have htexts (texts : List String) : exactItems (texts.map .string) = true := by
    rw [exactItems_eq_all, List.all_map, List.all_eq_true]
    exact fun _ _ ↦ rfl
  simp [summaryOf, summaryDocument, Json.exact, exactMembers, htexts]

theorem isWhole_summaryOf (captured : CapturedProjection) : isWhole (summaryOf captured) = true := by
  have htexts (texts : List String) : areWhole (texts.map .string) = true := by
    rw [areWhole_eq_all, List.all_map, List.all_eq_true]
    exact fun _ _ ↦ rfl
  simp [summaryOf, summaryDocument, isWhole, haveWhole, htexts]

theorem parse_summaryOf (captured : CapturedProjection) :
    parseExactJsonObject (canonicalJsonBytes (summaryOf captured)) projectionReceiptFields =
      .ok (sorted (summaryOf captured)) :=
  parseExactJsonObject_utf8 (exact_summaryOf captured) (isWhole_summaryOf captured) rfl

/-- The summary of a capture says what its pages say. -/
theorem get_summaryOf (captured : CapturedProjection) :
    asTexts ((sorted (summaryOf captured)).get "page_raw_refs") = some captured.pageReferences ∧
      ((sorted (summaryOf captured)).get "capture_sequence").asInteger =
        some (captured.captureSequence : ℤ) := by
  have hexact := exact_summaryOf captured
  have hpages : (summaryOf captured).get "page_raw_refs" =
      .array (captured.pageReferences.map .string) := rfl
  have hsequence : (summaryOf captured).get "capture_sequence" =
      .integer captured.captureSequence := rfl
  rw [get_sorted hexact, get_sorted hexact, hpages, hsequence, sorted_texts, asTexts_map]
  exact ⟨rfl, rfl⟩

theorem bindsPages_summaryOf {sha256 : Bytes → String} {captured : CapturedProjection}
    {runId : String} (hcollection : captured.native.collection = mem0Collection)
    (hrun : captured.native.runId = runId) (hnumbered : 1 ≤ captured.captureSequence)
    (hsources : captured.orderedSourceUnitIds = projectionSourceUnitIds captured.native)
    (hstate : captured.stateSha256 = projectionStateSha256 sha256 captured.native) :
    bindsPages (sorted (summaryOf captured)) runId (projectionSourceUnitIds captured.native)
      (projectionStateSha256 sha256 captured.native) captured.pageReferences := by
  have hexact := exact_summaryOf captured
  have htext {name text : String} (hget : (summaryOf captured).get name = .string text) :
      ((sorted (summaryOf captured)).get name).isText text = true := by
    rw [get_sorted hexact, hget]
    exact decide_eq_true rfl
  obtain ⟨hpages, hsequence⟩ := get_summaryOf captured
  have hids : (summaryOf captured).get "ordered_source_unit_ids" =
      .array (captured.orderedSourceUnitIds.map .string) := rfl
  refine ⟨htext rfl, htext (congrArg Json.string hcollection), htext (congrArg Json.string hrun),
    ?_, htext (congrArg Json.string hstate),
    ⟨captured.captureSequence, hsequence, by exact_mod_cast hnumbered⟩, hpages⟩
  rw [get_sorted hexact, hids, sorted_texts, asTexts_map, hsources]

/-! ### The pages of a capture -/

/-- No page of a chain stands twice: pages that go on have different cursors. -/
theorem nodup_of_chain {expected : Expectation} {maxPoints : ℕ} {rawPages : List Bytes}
    {readings : List PageReading} (hread : rawPages.mapM (readPageAlone expected) = .ok readings)
    (hchain : Chain maxPoints readings) : rawPages.Nodup := by
  have hcursors : (readings.map PageReading.cursor).Nodup := by
    obtain ⟨last, hlast⟩ : ∃ last, readings.getLast? = some last :=
      ⟨readings.getLast hchain.ne_nil, List.getLast?_eq_some_getLast hchain.ne_nil⟩
    obtain ⟨others, rfl⟩ : ∃ others, readings = others ++ [last] :=
      ⟨readings.dropLast, (List.dropLast_append_getLast? last hlast).symm⟩
    have hlinked : ∀ page ∈ others, page.cursor.isSome := by
      have hall := hchain.linked
      rwa [List.dropLast_concat] at hall
    have hended : last.cursor = none := hchain.ended last hlast
    have hnodup := hchain.cursors
    rw [allCursors, List.filterMap_append, List.filterMap_cons_none hended, List.filterMap_nil,
      List.append_nil] at hnodup
    have hothers : (others.map PageReading.cursor).Nodup := by
      have hsame : others.map PageReading.cursor =
          (others.filterMap PageReading.cursor).map some := by
        rw [List.map_filterMap]
        clear hlast hchain hnodup hread
        induction others with
        | nil => rfl
        | cons page others ih =>
          obtain ⟨hpage, hrest⟩ := List.forall_mem_cons.mp hlinked
          obtain ⟨cursor, hcursor⟩ := Option.isSome_iff_exists.mp hpage
          rw [List.map_cons, ih hrest, List.filterMap_cons, hcursor]
          rfl
      rw [hsame]
      exact hnodup.map (Option.some_injective _)
    rw [List.map_append, List.nodup_append]
    refine ⟨hothers, List.nodup_singleton _, ?_⟩
    intro cursor hcursor other hother hsame
    obtain ⟨page, hpage, rfl⟩ := List.mem_map.mp hcursor
    rw [List.map_singleton, List.mem_singleton] at hother
    have hsome := hlinked page hpage
    rw [hsame, hother, hended] at hsome
    cases hsome
  clear hchain
  induction rawPages generalizing readings with
  | nil => exact List.nodup_nil
  | cons rawPage rawPages ih =>
    obtain ⟨reading, others, hreading, hothers, rfl⟩ := mapM_cons_eq_ok.mp hread
    rw [List.map_cons, List.nodup_cons] at hcursors
    refine List.nodup_cons.mpr ⟨fun hmem ↦ hcursors.1 ?_, ih hothers hcursors.2⟩
    obtain ⟨found, hfound, hmemFound⟩ := exists_of_mapM hothers hmem
    rw [hreading] at hfound
    obtain rfl := Except.ok.inj hfound
    exact List.mem_map_of_mem hmemFound

section Captures

variable {sha256 : Bytes → String} {rawPayloads : RawPayloads} {runId : String}
  {captured : CapturedProjection} {pages : List Bytes}

theorem SealedCapture.documents_summary
    (hsealed : SealedCapture sha256 rawPayloads runId captured pages) :
    Documents rawPayloads captured.summaryReference captured.summary (sorted (summaryOf captured)) ∧
      (sorted (summaryOf captured)).hasNames projectionReceiptFields = true := by
  obtain ⟨hparsed, hnames⟩ := parseUniqueJson_of_exact (parse_summaryOf captured)
  exact ⟨⟨hsealed.summaryStored, hsealed.summary ▸ hparsed⟩, hnames⟩

theorem SealedCapture.documents_page
    (hsealed : SealedCapture sha256 rawPayloads runId captured pages) {page : Bytes}
    (hpage : page ∈ pages) : ∃ document, Documents rawPayloads (sha256 page) page document ∧
      document.hasNames pageFields = true := by
  obtain ⟨-, readings, hreadings, -⟩ := parseProjectionPages_eq_ok.mp hsealed.parsed
  obtain ⟨reading, hreading, -⟩ := exists_of_mapM hreadings hpage
  rw [readPageAlone] at hreading
  obtain ⟨document, hdocument, -⟩ := bind_eq_ok.mp hreading
  obtain ⟨hparsed, hnames⟩ := parseUniqueJson_of_exact hdocument
  exact ⟨document, ⟨hsealed.pageStored page hpage, hparsed⟩, hnames⟩

/-- The references of a capture are all different. -/
theorem SealedCapture.nodup
    (hsealed : SealedCapture sha256 rawPayloads runId captured pages) :
    (CapturedProjection.references captured).Nodup := by
  obtain ⟨-, readings, hreadings, hchain, -⟩ := parseProjectionPages_eq_ok.mp hsealed.parsed
  have hpages : (pages.map sha256).Nodup := by
    refine List.Nodup.map_on ?_ (nodup_of_chain hreadings hchain)
    intro page hpage other hother hsame
    have hstored := hsealed.pageStored page hpage
    rw [hsame, hsealed.pageStored other hother] at hstored
    exact (Option.some_inj.mp hstored).symm
  rw [CapturedProjection.references, hsealed.pageReferences, List.nodup_cons]
  refine ⟨fun hmem ↦ ?_, hpages⟩
  obtain ⟨page, hpage, hsame⟩ := List.mem_map.mp hmem
  obtain ⟨document, ⟨hstored, hparsed⟩, hnames⟩ := hsealed.documents_page hpage
  obtain ⟨⟨hstored', hparsed'⟩, hnames'⟩ := hsealed.documents_summary
  rw [hsame, hstored', Option.some_inj] at hstored
  rw [← hstored, hparsed', Except.ok.injEq] at hparsed
  rw [← hparsed, hasNames_eq_false hnames' List.mem_cons_self (by decide)] at hnames
  cases hnames

theorem SealedCapture.native
    (hsealed : SealedCapture sha256 rawPayloads runId captured pages) :
    captured.native.collection = mem0Collection ∧ captured.native.runId = runId ∧
      (identities captured.native.points).Nodup := by
  obtain ⟨-, readings, -, hchain, hnative⟩ := parseProjectionPages_eq_ok.mp hsealed.parsed
  rw [hnative]
  exact ⟨rfl, rfl, hchain.distinct⟩

/-- The points of two captures with one digest are the same. -/
theorem SealedCapture.mem_points (hsha256 : Function.Injective sha256)
    {other : CapturedProjection} {others : List Bytes}
    (hsealed : SealedCapture sha256 rawPayloads runId captured pages)
    (hother : SealedCapture sha256 rawPayloads runId other others)
    (hsame : captured.stateSha256 = other.stateSha256) (point : ProjectionPoint) :
    point ∈ captured.native.points ↔ point ∈ other.native.points := by
  rw [hsealed.state, hother.state] at hsame
  exact ((projectionStateSha256_eq_iff hsha256 hsealed.native.2.2 hother.native.2.2).mp hsame).2.2
    point

/-- A sealed capture is read back from its references. -/
theorem reconstructMem0Projection_eq_ok
    (hsealed : SealedCapture sha256 rawPayloads runId captured pages) {references : List String}
    (hreferences : Dictionary.fromKeys references = CapturedProjection.references captured) :
    reconstructMem0Projection sha256 rawPayloads references runId = .ok (evidenceOf captured) := by
  obtain ⟨hdocument, hnames⟩ := hsealed.documents_summary
  obtain ⟨hcollection, hrun, -⟩ := hsealed.native
  have hpages : ∀ page ∈ pages.map fun page ↦ (sha256 page, page),
      ∃ document, Documents rawPayloads page.1 page.2 document ∧
        document.hasNames pageFields = true := by
    intro page hpage
    obtain ⟨content, hcontent, rfl⟩ := List.mem_map.mp hpage
    exact hsealed.documents_page hcontent
  have hfirst : (pages.map fun page ↦ (sha256 page, page)).map Prod.fst =
      captured.pageReferences := by
    rw [List.map_map, hsealed.pageReferences]
    rfl
  have hsecond : (pages.map fun page ↦ (sha256 page, page)).map Prod.snd = pages := by
    rw [List.map_map]
    exact List.map_id pages
  have hne : (pages.map fun page ↦ (sha256 page, page)) ≠ [] := by
    obtain ⟨-, readings, hreadings, hchain, -⟩ := parseProjectionPages_eq_ok.mp hsealed.parsed
    intro hnil
    exact hchain.ne_nil ((mapM_eq_nil_iff hreadings).mpr (List.map_eq_nil_iff.mp hnil))
  have hfound : (CapturedProjection.references captured).foldlM (readReference rawPayloads)
      ⟨none, []⟩ = .ok ⟨some (captured.summaryReference, sorted (summaryOf captured)),
        pages.map fun page ↦ (sha256 page, page)⟩ := by
    rw [CapturedProjection.references, List.foldlM_cons, readReference_summary hdocument hnames rfl,
      ← hfirst]
    exact foldlM_readReference hpages
  have hbinds := bindsPages_summaryOf hcollection hrun hsealed.numbered hsealed.sourceIds
    hsealed.state
  rw [reconstructMem0Projection, hreferences, hfound]
  simp only [bind, Except.bind, require_of hne, hsecond, hsealed.parsed, hfirst,
    require_of hbinds, (get_summaryOf captured).2, Option.getD_some]
  rw [← hsealed.sourceIds, ← hsealed.state]
  rfl

/-- The references of a capture, with its summary once or twice. -/
theorem fromKeys_references
    (hsealed : SealedCapture sha256 rawPayloads runId captured pages) :
    Dictionary.fromKeys (CapturedProjection.references captured) =
        CapturedProjection.references captured ∧
      Dictionary.fromKeys (projectionRawRefs captured) =
        CapturedProjection.references captured := by
  have hfirst := Dictionary.fromKeys_of_nodup hsealed.nodup
  refine ⟨hfirst, ?_⟩
  have hadd : Dictionary.addKey [captured.summaryReference] captured.summaryReference =
      [captured.summaryReference] := if_pos (List.mem_singleton_self _)
  rw [CapturedProjection.references, Dictionary.fromKeys, List.foldl_cons] at hfirst
  rw [projectionRawRefs, Dictionary.fromKeys, List.foldl_cons, List.foldl_cons]
  rw [show Dictionary.addKey [] captured.summaryReference = [captured.summaryReference] from rfl]
    at hfirst ⊢
  rw [hadd, hfirst]
  rfl

end Captures

/-! ### The captures of readiness -/

section Snapshots

variable {sha256 : Bytes → String} {rawPayloads : RawPayloads} {runId : String}

/-- A reference has one document. -/
theorem Documents.unique {reference : String} {payload payload' : Bytes} {document document' : Json}
    (hdocument : Documents rawPayloads reference payload document)
    (hdocument' : Documents rawPayloads reference payload' document') : document = document' := by
  have hstored := hdocument.stored
  rw [hdocument'.stored, Option.some_inj] at hstored
  have hparsed := hdocument.parsed
  rw [← hstored, hdocument'.parsed, Except.ok.injEq] at hparsed
  exact hparsed.symm

/-- A reference of a document that is not the summary of a capture. -/
def Plain (rawPayloads : RawPayloads) (reference : String) : Prop :=
  ∃ payload document, Documents rawPayloads reference payload document ∧
    document.hasNames projectionReceiptFields = false

/-- A reference of a summary whose pages are among some references. -/
def Summarises (rawPayloads : RawPayloads) (references : List String) (reference : String) : Prop :=
  ∃ payload document pageRefs, Documents rawPayloads reference payload document ∧
    document.hasNames projectionReceiptFields = true ∧
    asTexts (document.get "page_raw_refs") = some pageRefs ∧ ∀ pageRef ∈ pageRefs, pageRef ∈ references

theorem Plain.ne {references : List String} {reference other : String}
    (hplain : Plain rawPayloads reference) (hother : Summarises rawPayloads references other) :
    reference ≠ other := by
  rintro rfl
  obtain ⟨payload, document, hdocument, hnot⟩ := hplain
  obtain ⟨payload', document', pageRefs, hdocument', hnames, -⟩ := hother
  rw [hdocument.unique hdocument', hnames] at hnot
  cases hnot

/-- The summaries among some references are found. -/
theorem foldlM_readSummaryReference {references refs found : List String} {summaries : String → Bool}
    (hrefs : ∀ reference ∈ refs, if summaries reference = true then
      Summarises rawPayloads references reference else Plain rawPayloads reference) :
    refs.foldlM (readSummaryReference rawPayloads references) found =
      .ok ((refs.filter summaries).foldl Dictionary.addKey found) := by
  induction refs generalizing found with
  | nil => rfl
  | cons reference refs ih =>
    obtain ⟨hreference, hrest⟩ := List.forall_mem_cons.mp hrefs
    have hstep : readSummaryReference rawPayloads references found reference =
        .ok (if summaries reference = true then Dictionary.addKey found reference else found) := by
      by_cases hsummary : summaries reference = true
      · rw [if_pos hsummary] at hreference
        obtain ⟨payload, document, pageRefs, hdocument, hnames, htexts, hpages⟩ := hreference
        rw [if_pos hsummary, readSummaryReference, Dictionary.addKey]
        by_cases hmem : reference ∈ found
        · rw [if_pos hmem, if_pos hmem]
        · rw [if_neg hmem, if_neg hmem]
          simp only [payloadOf_of_stored hdocument.stored, hdocument.parsed, bind, Except.bind,
            hnames, if_true, htexts, require_of hpages]
          rfl
      · rw [if_neg hsummary] at hreference
        obtain ⟨payload, document, hdocument, hnot⟩ := hreference
        rw [if_neg hsummary, readSummaryReference]
        by_cases hmem : reference ∈ found
        · rw [if_pos hmem]
        · rw [if_neg hmem]
          simp only [payloadOf_of_stored hdocument.stored, hdocument.parsed, bind, Except.bind,
            hnot, Bool.false_eq_true, if_false]
          rfl
    rw [List.foldlM_cons, hstep]
    change refs.foldlM (readSummaryReference rawPayloads references) _ = _
    rw [ih hrest, List.filter_cons]
    by_cases hsummary : summaries reference = true
    · rw [if_pos hsummary, if_pos hsummary, List.foldl_cons]
    · rw [if_neg hsummary, if_neg hsummary]

theorem SealedCapture.summarises {captured : CapturedProjection} {pages : List Bytes}
    (hsealed : SealedCapture sha256 rawPayloads runId captured pages) {references : List String}
    (hpages : ∀ pageRef ∈ captured.pageReferences, pageRef ∈ references) :
    Summarises rawPayloads references captured.summaryReference := by
  obtain ⟨hdocument, hnames⟩ := hsealed.documents_summary
  exact ⟨_, _, _, hdocument, hnames, (get_summaryOf captured).1, hpages⟩

theorem SealedCapture.plain_page {captured : CapturedProjection} {pages : List Bytes}
    (hsealed : SealedCapture sha256 rawPayloads runId captured pages) {pageRef : String}
    (hpage : pageRef ∈ captured.pageReferences) : Plain rawPayloads pageRef := by
  rw [hsealed.pageReferences] at hpage
  obtain ⟨page, hmem, rfl⟩ := List.mem_map.mp hpage
  obtain ⟨document, hdocument, hnames⟩ := hsealed.documents_page hmem
  exact ⟨_, _, hdocument, @hasNames_eq_false _ _ _ "points" hnames (by decide) (by decide)⟩

/-- Captures with different numbers have different summaries. -/
theorem SealedCapture.ne {first second : CapturedProjection} {pages pages' : List Bytes}
    (hfirst : SealedCapture sha256 rawPayloads runId first pages)
    (hsecond : SealedCapture sha256 rawPayloads runId second pages')
    (hne : first.captureSequence ≠ second.captureSequence) :
    first.summaryReference ≠ second.summaryReference := by
  intro hsame
  obtain ⟨hdocument, -⟩ := hfirst.documents_summary
  obtain ⟨hdocument', -⟩ := hsecond.documents_summary
  have hunique := (hsame ▸ hdocument).unique hdocument'
  have hsequence := (get_summaryOf first).2
  rw [hunique, (get_summaryOf second).2, Option.some_inj] at hsequence
  exact hne (by exact_mod_cast hsequence.symm)

theorem summaryPageRefs_eq_ok {captured : CapturedProjection} {pages : List Bytes}
    (hsealed : SealedCapture sha256 rawPayloads runId captured pages) :
    summaryPageRefs rawPayloads captured.summaryReference = .ok captured.pageReferences := by
  rw [summaryPageRefs, payloadOf_of_stored hsealed.summaryStored, hsealed.summary]
  change (parseExactJsonObject _ _ >>= _) = _
  rw [parse_summaryOf]
  simp only [bind, Except.bind, (get_summaryOf captured).1]
  rfl

/-- Two captures are found among references of other documents. -/
theorem reconstructMem0ProjectionSnapshots_eq_ok {others : List String}
    (hothers : ∀ reference ∈ others, Plain rawPayloads reference)
    {first second : CapturedProjection} {pages pages' : List Bytes}
    (hfirst : SealedCapture sha256 rawPayloads runId first pages)
    (hsecond : SealedCapture sha256 rawPayloads runId second pages')
    (hne : first.captureSequence ≠ second.captureSequence) :
    reconstructMem0ProjectionSnapshots sha256 rawPayloads
        (Dictionary.fromKeys (others ++ CapturedProjection.references first ++
          CapturedProjection.references second)) runId =
      .ok [evidenceOf first, evidenceOf second] := by
  have hpair : [first.summaryReference, second.summaryReference].Nodup :=
    List.nodup_cons.mpr ⟨fun hmem ↦ hfirst.ne hsecond hne (List.mem_singleton.mp hmem),
      List.nodup_singleton _⟩
  set references := Dictionary.fromKeys (others ++ CapturedProjection.references first ++
    CapturedProjection.references second) with hreferences
  have hmem {reference : String} : reference ∈ references ↔
      reference ∈ others ++ CapturedProjection.references first ++
        CapturedProjection.references second := Dictionary.mem_fromKeys
  have hsummary : Summarises rawPayloads references first.summaryReference :=
    hfirst.summarises fun pageRef hpage ↦ hmem.mpr
      (List.mem_append_left _ (List.mem_append_right _ (List.mem_cons_of_mem _ hpage)))
  have hsummary' : Summarises rawPayloads references second.summaryReference :=
    hsecond.summarises fun pageRef hpage ↦ hmem.mpr
      (List.mem_append_right _ (List.mem_cons_of_mem _ hpage))
  set summaries : String → Bool := fun reference ↦
    decide (reference = first.summaryReference ∨ reference = second.summaryReference) with hkeep
  have hplain {reference : String} (hreference : Plain rawPayloads reference) :
      summaries reference = false :=
    decide_eq_false fun hsame ↦ hsame.elim (hreference.ne hsummary) (hreference.ne hsummary')
  have hnone {refs : List String} (hrefs : ∀ reference ∈ refs, Plain rawPayloads reference) :
      refs.filter summaries = [] := by
    refine List.filter_eq_nil_iff.mpr fun reference hreference ↦ ?_
    rw [hplain (hrefs reference hreference)]
    exact Bool.false_ne_true
  have hfirstKept : summaries first.summaryReference = true := decide_eq_true (Or.inl rfl)
  have hsecondKept : summaries second.summaryReference = true := decide_eq_true (Or.inr rfl)
  have hfilter : references.filter summaries =
      [first.summaryReference, second.summaryReference] := by
    rw [hreferences, Dictionary.filter_fromKeys, List.filter_append, List.filter_append,
      hnone hothers, CapturedProjection.references, CapturedProjection.references,
      List.filter_cons, if_pos hfirstKept, List.filter_cons, if_pos hsecondKept,
      hnone fun reference hreference ↦ hfirst.plain_page hreference,
      hnone fun reference hreference ↦ hsecond.plain_page hreference]
    exact Dictionary.fromKeys_of_nodup hpair
  have hfold : references.foldlM (readSummaryReference rawPayloads references) [] =
      .ok [first.summaryReference, second.summaryReference] := by
    have hkinds : ∀ reference ∈ references, if summaries reference = true then
        Summarises rawPayloads references reference else Plain rawPayloads reference := by
      intro reference hreference
      have hplainKind (hkind : Plain rawPayloads reference) : if summaries reference = true then
          Summarises rawPayloads references reference else Plain rawPayloads reference := by
        rwa [if_neg (Bool.eq_false_iff.mp (hplain hkind))]
      rw [hmem, List.mem_append, List.mem_append, CapturedProjection.references,
        CapturedProjection.references, List.mem_cons, List.mem_cons] at hreference
      rcases hreference with (hother | rfl | hpage) | rfl | hpage
      · exact hplainKind (hothers reference hother)
      · rwa [if_pos hfirstKept]
      · exact hplainKind (hfirst.plain_page hpage)
      · rwa [if_pos hsecondKept]
      · exact hplainKind (hsecond.plain_page hpage)
    rw [foldlM_readSummaryReference hkinds, hfilter]
    exact congrArg Except.ok (Dictionary.fromKeys_of_nodup hpair)
  have hreconstruct {captured : CapturedProjection} {pages : List Bytes}
      (hsealed : SealedCapture sha256 rawPayloads runId captured pages) :
      (summaryPageRefs rawPayloads captured.summaryReference >>= fun pageRefs ↦
        reconstructMem0Projection sha256 rawPayloads (captured.summaryReference :: pageRefs)
          runId) = .ok (evidenceOf captured) := by
    rw [summaryPageRefs_eq_ok hsealed]
    exact reconstructMem0Projection_eq_ok hsealed (fromKeys_references hsealed).1
  rw [reconstructMem0ProjectionSnapshots, hfold]
  change List.mapM _ _ = _
  rw [List.mapM_cons, List.mapM_cons, List.mapM_nil, hreconstruct hfirst, hreconstruct hsecond]
  rfl

end Snapshots

/-! ### What is sealed -/

/-- The answers that an ingestion was given. -/
abbrev Trace : Type := List (Exchange Query MemorySystems.Answer)

/-- The payloads of a run: the client sealed every response that it was given, and the adapter what it
made itself. -/
structure Stores (sha256 : Bytes → String) (rawPayloads : RawPayloads) (adapter : Mem0Adapter)
    (trace : Trace) : Prop where
  responses : ∀ call response, ⟨.request call, Exit.returned response⟩ ∈ trace →
    response.rawReference = sha256 response.rawBytes ∧
      rawPayloads response.rawReference = some response.rawBytes
  failures : ∀ call failure, ⟨.request call, Exit.callFailure failure⟩ ∈ trace →
    ∀ reference ∈ failure.rawReference, ∀ content ∈ failure.rawResponseBytes,
      rawPayloads reference = some content
  payloads : ∀ content ∈ adapter.sealedPayloads, rawPayloads (sha256 content) = some content

section Executions

variable {sha256 : Bytes → String} {rawPayloads : RawPayloads} {runId : String}
  {adapter next : Mem0Adapter} {trace : Trace}

/-- What was sealed earlier is sealed later. -/
def Keeps (adapter next : Mem0Adapter) : Prop :=
  ∀ content ∈ adapter.sealedPayloads, content ∈ next.sealedPayloads

theorem Stores.part {trace' : Trace} (hstores : Stores sha256 rawPayloads next trace')
    (hkeeps : Keeps adapter next) (htrace : ∀ exchange ∈ trace, exchange ∈ trace') :
    Stores sha256 rawPayloads adapter trace where
  responses call response hmem := hstores.responses call response (htrace _ hmem)
  failures call failure hmem := hstores.failures call failure (htrace _ hmem)
  payloads content hmem := hstores.payloads content (hkeeps content hmem)

/-- The pages of a capture were responses. -/
theorem mem_of_capturePages {pages : ℕ} {responses results : List SealedRestResponse}
    {cursor : Option String}
    (hcapture : Execution (capturePages runId pages responses cursor) trace (.ok results)) :
    ∀ response ∈ results, response ∈ responses ∨
      ∃ call, ⟨.request call, Exit.returned response⟩ ∈ trace := by
  induction pages generalizing responses cursor trace with
  | zero =>
    rw [capturePages] at hcapture
    split at hcapture
    · cases (execution_fail.mp hcapture).2
    · cases (execution_fail.mp hcapture).2
  | succ pages ih =>
    obtain ⟨response, rest, rfl, hrest⟩ := execution_send_bind_ok hcapture
    split at hrest
    · cases (execution_fail.mp hrest).2
    · obtain ⟨rfl, hsame⟩ := execution_pure.mp hrest
      obtain rfl := Except.ok.inj hsame
      intro found hfound
      rcases List.mem_append.mp hfound with hold | hnew
      · exact Or.inl hold
      · obtain rfl := List.mem_singleton.mp hnew
        exact Or.inr ⟨_, List.mem_cons_self⟩
    · intro found hfound
      rcases ih hrest found hfound with hold | ⟨call, hmem⟩
      · rcases List.mem_append.mp hold with hold | hnew
        · exact Or.inl hold
        · obtain rfl := List.mem_singleton.mp hnew
          exact Or.inr ⟨_, List.mem_cons_self⟩
      · exact Or.inr ⟨call, List.mem_cons_of_mem _ hmem⟩

/-- What a capture does to an adapter. -/
structure Captures (adapter next : Mem0Adapter) (runId : String) (captured : CapturedProjection) :
    Prop where
  payloads : next.sealedPayloads = adapter.sealedPayloads ++ [captured.summary]
  sequence : captured.captureSequence = adapter.projectionCaptureSequences runId + 1
  next_sequence : next.projectionCaptureSequences runId = captured.captureSequence
  ready : next.readyProjections = adapter.readyProjections

theorem Captures.keeps {captured : CapturedProjection}
    (hcaptures : Captures adapter next runId captured) : Keeps adapter next := by
  intro content hcontent
  rw [hcaptures.payloads]
  exact List.mem_append_left _ hcontent

/-- A capture that is complete is sealed. -/
theorem captures_of_execution {captured : CapturedProjection}
    (hcapture : Execution (captureProjection sha256 adapter runId) trace (.ok (next, captured))) :
    Captures adapter next runId captured ∧
      (Stores sha256 rawPayloads next trace →
        ∃ pages, SealedCapture sha256 rawPayloads runId captured pages) := by
  obtain ⟨⟨native, responses⟩, first, second, rfl, hnative, hrest⟩ := execution_bind_ok hcapture
  obtain ⟨rfl, hsame⟩ := execution_pure.mp hrest
  obtain ⟨hnext, hcaptured⟩ := Prod.mk.inj (Except.ok.inj hsame)
  obtain ⟨pages, firstPages, secondPages, rfl, hpages, hparse⟩ := execution_bind_ok hnative
  obtain ⟨parsed, hparsed, hdone⟩ := execution_ofExcept_bind_ok hparse
  obtain ⟨rfl, hresult⟩ := execution_pure.mp hdone
  obtain ⟨rfl, rfl⟩ := Prod.mk.inj (Except.ok.inj hresult)
  rw [parseResponses] at hparsed
  cases hread : parseProjectionPages (responses.map SealedRestResponse.rawBytes) mem0Collection runId
      mem0ProjectionMaxPages mem0ProjectionMaxPoints with
  | error message => rw [hread] at hparsed; cases hparsed
  | ok projection =>
    rw [hread] at hparsed
    obtain rfl := Except.ok.inj hparsed
    subst hnext hcaptured
    refine ⟨⟨rfl, rfl, Function.update_self _ _ _, rfl⟩, fun hstores ↦
      ⟨responses.map SealedRestResponse.rawBytes, ?_⟩⟩
    have hresponse : ∀ response ∈ responses, response.rawReference = sha256 response.rawBytes ∧
        rawPayloads response.rawReference = some response.rawBytes := by
      intro response hmem
      rcases mem_of_capturePages hpages response hmem with hnil | ⟨call, hcall⟩
      · cases hnil
      · exact hstores.responses call response
          (List.mem_append_left _ (List.mem_append_left _ hcall))
    refine ⟨?_, ?_, hread, rfl, rfl, Nat.le_add_left 1 _, rfl, rfl,
      hstores.payloads _ (List.mem_append_right _ (List.mem_singleton_self _))⟩
    · rw [List.map_map]
      exact List.map_congr_left fun response hmem ↦ (hresponse response hmem).1
    · intro page hpage
      obtain ⟨response, hmem, rfl⟩ := List.mem_map.mp hpage
      rw [← (hresponse response hmem).1]
      exact (hresponse response hmem).2

end Executions

/-! ### Adds -/

section Adds

variable {sha256 : Bytes → String} {rawPayloads : RawPayloads} {adapted : Settings}
  {adapter next : Mem0Adapter} {request : IngestionDispatchRequest} {trace : Trace}

/-- The pairs of a source were added, each with a response. -/
theorem of_addPairs_ok {requests : List WireRequest} {responses results : List SealedRestResponse}
    (hpairs : Execution (addPairs adapted responses requests) trace (.ok results)) :
    ∃ added, results = responses ++ added ∧ added.length = requests.length ∧
      ∀ response ∈ added, adapted.acceptable response.rawBytes = true ∧
        ∃ call, ⟨.request call, Exit.returned response⟩ ∈ trace := by
  induction requests generalizing responses trace with
  | nil =>
    obtain ⟨rfl, hsame⟩ := execution_pure.mp hpairs
    exact ⟨[], (Except.ok.inj hsame).trans (List.append_nil _).symm, rfl, by simp⟩
  | cons wireRequest rest ih =>
    obtain ⟨exit, later, rfl, hlater⟩ := execution_ask.mp hpairs
    split at hlater
    · split at hlater
      · cases (execution_fail.mp hlater).2
      · cases (execution_fail.mp hlater).2
    · split_ifs at hlater
      · cases (execution_fail.mp hlater).2
      · cases (execution_fail.mp hlater).2
    · next response =>
      split_ifs at hlater with hacceptable
      · obtain ⟨added, rfl, hlength, hadded⟩ := ih hlater
        refine ⟨response :: added, by rw [List.append_assoc, List.singleton_append],
          congrArg Nat.succ hlength, List.forall_mem_cons.mpr
            ⟨⟨hacceptable, _, List.mem_cons_self⟩, fun other hother ↦ ?_⟩⟩
        obtain ⟨hother, call, hcall⟩ := hadded other hother
        exact ⟨hother, call, List.mem_cons_of_mem _ hcall⟩
      · cases (execution_fail.mp hlater).2
    · cases (execution_fail.mp hlater).2

/-- A failure that is settled was one of a request, and is of a kind that is known. -/
theorem of_addPairs_settled {requests : List WireRequest} {responses : List SealedRestResponse}
    {failure : SettledFailure} (hpairs : Execution (addPairs adapted responses requests) trace
      (.error (.settled failure))) :
    (∃ kind, adapted.classifySettledIngestionFailure failure.statusCode failure.rawResponseBytes
        (some failure.internalRetryCount) = some kind) ∧
      ∃ call original, ⟨.request call, Exit.callFailure original⟩ ∈ trace ∧
        original.rawReference = some failure.rawReference ∧
        original.rawResponseBytes = some failure.rawResponseBytes := by
  induction requests generalizing responses trace with
  | nil => cases (execution_pure.mp hpairs).2
  | cons wireRequest rest ih =>
    obtain ⟨exit, later, rfl, hlater⟩ := execution_ask.mp hpairs
    split at hlater
    · split at hlater
      · cases (execution_fail.mp hlater).2
      · cases (execution_fail.mp hlater).2
    · next original =>
      split_ifs at hlater
      · cases (execution_fail.mp hlater).2
      · have hsettled := Except.error.inj (execution_fail.mp hlater).2
        unfold settledOr at hsettled
        split at hsettled
        · next content reference retries hstatus hcontent hreference hretries =>
          split at hsettled
          · next kind hkind =>
            cases hsettled
            exact ⟨⟨kind, hkind⟩, _, original, List.mem_cons_self, hreference, hcontent⟩
          · cases hsettled
        · cases hsettled
    · split_ifs at hlater
      · obtain ⟨hkind, call, original, hmem, horiginal⟩ := ih hlater
        exact ⟨hkind, call, original, List.mem_cons_of_mem _ hmem, horiginal⟩
      · cases (execution_fail.mp hlater).2
    · cases (execution_fail.mp hlater).2

/-- What is raised before the first request is an error of the arguments. -/
theorem enter_eq_error {dispatches : Mem0Ingest.Adapter} {error : IngestError}
    (henter : enter adapted dispatches request = some (.error error)) :
    ∃ message, error = .valueError message := by
  unfold enter at henter
  split at henter
  · next hscope =>
    cases henter
    unfold requireScope at hscope
    split at hscope
    · cases hscope
      exact ⟨_, rfl⟩
    · split_ifs at hscope
      cases hscope
      exact ⟨_, rfl⟩
  · split at henter
    · next hplanned =>
      cases henter
      unfold plannedAdd at hplanned
      split_ifs at hplanned
      cases hplanned
      exact ⟨_, rfl⟩
    · split_ifs at henter with hlock hordinal hattempt hattempted
      · cases henter
        exact ⟨_, rfl⟩
      · cases henter
        exact ⟨_, rfl⟩
      · cases henter
        exact ⟨_, rfl⟩
      · cases henter

/-- A dispatch that was ingested. -/
theorem of_ingest_ok {receipt : IngestionDispatchReceipt}
    (hingest : Execution (ingest sha256 adapted adapter request) trace (.ok (next, .ok receipt))) :
    ∃ responses, Execution (body adapted request) trace (.ok responses) ∧
      receipt = addReceipt sha256 request responses ∧
      next.sealedPayloads =
        adapter.sealedPayloads ++ sealedReceipts (sourceOf request.dispatch) responses := by
  unfold ingest at hingest
  split at hingest
  · cases (execution_fail.mp hingest).2
  · cases (execution_pure.mp hingest).2
  · next entered henter =>
    obtain ⟨outcome, first, second, rfl, hfirst, hsecond⟩ := execution_bind_ok hingest
    obtain ⟨result, hresult, hbody⟩ := execution_settle.mp hfirst
    obtain rfl := Except.ok.inj hresult
    cases outcome with
    | error error => cases (execution_pure.mp hsecond).2
    | ok responses =>
      obtain ⟨rfl, hsame⟩ := execution_pure.mp hsecond
      obtain ⟨rfl, hreceipt⟩ := Prod.mk.inj (Except.ok.inj hsame)
      rw [List.append_nil]
      exact ⟨responses, hbody, Except.ok.inj hreceipt, rfl⟩

/-- A dispatch whose failure was settled. -/
theorem of_ingest_settled {failure : SettledFailure}
    (hingest : Execution (ingest sha256 adapted adapter request) trace
      (.ok (next, .error (.settled failure)))) :
    Execution (body adapted request) trace (.error (.settled failure)) ∧
      next.sealedPayloads = adapter.sealedPayloads := by
  unfold ingest at hingest
  split at hingest
  · cases (execution_fail.mp hingest).2
  · next error henter =>
    obtain ⟨rfl, hsame⟩ := execution_pure.mp hingest
    obtain ⟨rfl, herror⟩ := Prod.mk.inj (Except.ok.inj hsame)
    obtain ⟨message, rfl⟩ := enter_eq_error henter
    cases herror
  · next entered henter =>
    obtain ⟨outcome, first, second, rfl, hfirst, hsecond⟩ := execution_bind_ok hingest
    obtain ⟨result, hresult, hbody⟩ := execution_settle.mp hfirst
    obtain rfl := Except.ok.inj hresult
    cases outcome with
    | error error =>
      obtain ⟨rfl, hsame⟩ := execution_pure.mp hsecond
      obtain ⟨rfl, herror⟩ := Prod.mk.inj (Except.ok.inj hsame)
      obtain rfl := Except.error.inj herror
      rw [List.append_nil]
      exact ⟨hbody, rfl⟩
    | ok responses => cases (execution_pure.mp hsecond).2

end Adds

/-! ### Receipts -/

theorem get_of_notMem {document : Json} {name : String} (hname : name ∉ document.names) :
    document.get name = .null := by
  cases document with
  | object members =>
    have hnone : lookup members name = none := by
      rw [lookup, Option.map_eq_none_iff, List.find?_eq_none]
      intro member hmember hsame
      rw [decide_eq_true_eq] at hsame
      exact hname (List.mem_map.mpr ⟨member, List.mem_reverse.mp hmember, hsame⟩)
    rw [Json.get, hnone]
    rfl
  | null | bool | integer | real | string | array => rfl

theorem notMem_names {document : Json} {fields : List String} {name : String}
    (hfields : document.hasNames fields = true) (hname : name ∉ fields) : name ∉ document.names := by
  rw [hasNames, Bool.and_eq_true, Bool.and_eq_true, List.all_eq_true] at hfields
  exact fun hmem ↦ hname (of_decide_eq_true (hfields.1.2 name hmem))

/-- A receipt whose payload is sealed and closes the dispatch of its source. -/
structure ClosedReceipt (sha256 : Bytes → String) (rawPayloads : RawPayloads) (sourceUnitId : String)
    (reference : String) (payload : Bytes) : Prop where
  stored : rawPayloads reference = some payload
  plain : Plain rawPayloads reference
  valid : validateAddReceipt sha256 rawPayloads payload sourceUnitId = .ok ()

section Receipts

variable {sha256 : Bytes → String} {rawPayloads : RawPayloads}

theorem plain_of_exact {reference : String} {payload : Bytes} {document : Json}
    {fields : List String} {name : String} (hstored : rawPayloads reference = some payload)
    (hexact : parseExactJsonObject payload fields = .ok document) (hname : name ∈ fields)
    (hother : name ∉ projectionReceiptFields) : Plain rawPayloads reference := by
  obtain ⟨hparsed, hnames⟩ := parseUniqueJson_of_exact hexact
  exact ⟨payload, document, ⟨hstored, hparsed⟩, hasNames_eq_false hnames hname hother⟩

/-- The one response of a source closes its dispatch. -/
theorem closedReceipt_of_response {sourceUnitId reference : String} {payload : Bytes}
    {events : List AddEvent} (hstored : rawPayloads reference = some payload)
    (hresponse : parseAddResponse payload = .ok events) :
    ClosedReceipt sha256 rawPayloads sourceUnitId reference payload := by
  have hread := hresponse
  rw [parseAddResponse] at hread
  obtain ⟨document, hdocument, -⟩ := bind_eq_ok.mp hread
  obtain ⟨hparsed, hnames⟩ := parseUniqueJson_of_exact hdocument
  have hschema : document.get "schema_name" = .null :=
    get_of_notMem (notMem_names hnames (by decide))
  refine ⟨hstored, plain_of_exact hstored hdocument List.mem_cons_self (by decide), ?_⟩
  have hplain : document.isObject = false ∨
      (document.get "schema_name").isText "oamb_mem0_pair_add_receipt" = false := by
    rw [hschema]
    exact Or.inr rfl
  simp only [validateAddReceipt, hparsed, bind, Except.bind, if_pos hplain, hresponse]
  rfl

theorem exact_pairReceiptDocument (sourceUnitId : String) (references : List String) :
    (pairReceiptDocument sourceUnitId references).exact = true := by
  have htexts : exactItems (references.map .string) = true := by
    rw [exactItems_eq_all, List.all_map, List.all_eq_true]
    exact fun _ _ ↦ rfl
  simp [pairReceiptDocument, Json.exact, exactMembers, htexts]

theorem isWhole_pairReceiptDocument (sourceUnitId : String) (references : List String) :
    isWhole (pairReceiptDocument sourceUnitId references) = true := by
  have htexts : areWhole (references.map .string) = true := by
    rw [areWhole_eq_all, List.all_map, List.all_eq_true]
    exact fun _ _ ↦ rfl
  simp [pairReceiptDocument, isWhole, haveWhole, htexts]

/-- The document of the responses of a source closes its dispatch. -/
theorem closedReceipt_of_pairs {sourceUnitId : String} {references : List String}
    (hstored : rawPayloads (sha256 (canonicalJsonBytes (pairReceiptDocument sourceUnitId references))) =
      some (canonicalJsonBytes (pairReceiptDocument sourceUnitId references)))
    (hlength : 2 ≤ references.length)
    (hresponses : ∀ reference ∈ references,
      validatePairResponse sha256 rawPayloads reference = .ok ()) :
    ClosedReceipt sha256 rawPayloads sourceUnitId
      (sha256 (canonicalJsonBytes (pairReceiptDocument sourceUnitId references)))
      (canonicalJsonBytes (pairReceiptDocument sourceUnitId references)) := by
  have hexact := exact_pairReceiptDocument sourceUnitId references
  have hdocument : parseExactJsonObject
      (canonicalJsonBytes (pairReceiptDocument sourceUnitId references)) pairReceiptFields =
        .ok (sorted (pairReceiptDocument sourceUnitId references)) :=
    parseExactJsonObject_utf8 hexact (isWhole_pairReceiptDocument sourceUnitId references) rfl
  obtain ⟨hparsed, hnames⟩ := parseUniqueJson_of_exact hdocument
  have hget (name : String) := get_sorted hexact name
  have hschema : ((sorted (pairReceiptDocument sourceUnitId references)).get
      "schema_name").isText "oamb_mem0_pair_add_receipt" = true := by
    rw [hget]
    exact decide_eq_true rfl
  have hobject : (sorted (pairReceiptDocument sourceUnitId references)).isObject = true := by
    rw [isObject_sorted]
    rfl
  have hreferences : asTexts ((sorted (pairReceiptDocument sourceUnitId references)).get
      "ordered_response_sha256") = some references := by
    have hraw : (pairReceiptDocument sourceUnitId references).get "ordered_response_sha256" =
        .array (references.map .string) := rfl
    rw [hget, hraw, sorted_texts, asTexts_map]
  have hidentity : ((sorted (pairReceiptDocument sourceUnitId references)).get
        "schema_version").asInteger = some 1 ∧
      ((sorted (pairReceiptDocument sourceUnitId references)).get "source_unit_id").isText
        sourceUnitId = true ∧ 2 ≤ references.length := by
    rw [hget, hget]
    exact ⟨rfl, decide_eq_true rfl, hlength⟩
  have hnot : ¬ ((sorted (pairReceiptDocument sourceUnitId references)).isObject = false ∨
      ((sorted (pairReceiptDocument sourceUnitId references)).get "schema_name").isText
        "oamb_mem0_pair_add_receipt" = false) := by
    rw [hobject, hschema]
    exact fun hfalse ↦ hfalse.elim Bool.noConfusion Bool.noConfusion
  refine ⟨hstored, plain_of_exact hstored hdocument List.mem_cons_self (by decide), ?_⟩
  simp only [validateAddReceipt, hparsed, bind, Except.bind, if_neg hnot, require_of hnames,
    hreferences, require_of hidentity]
  exact forM_eq_ok.mpr hresponses

/-- The receipt of a dispatch that was added is closed. -/
theorem closedReceipt_of_responses {sourceUnitId : String} {responses : List SealedRestResponse}
    (hresponses : ∀ response ∈ responses, response.rawReference = sha256 response.rawBytes ∧
      rawPayloads response.rawReference = some response.rawBytes ∧
      ∃ events, parseAddResponse response.rawBytes = .ok events)
    (hne : responses ≠ [])
    (hsealed : ∀ content ∈ sealedReceipts sourceUnitId responses,
      rawPayloads (sha256 content) = some content) :
    ClosedReceipt sha256 rawPayloads sourceUnitId (receiptReference sha256 sourceUnitId responses)
      (receiptBytes sourceUnitId responses) := by
  match responses, hne with
  | [response], _ =>
    obtain ⟨-, hstored, events, hevents⟩ := hresponses response List.mem_cons_self
    exact closedReceipt_of_response hstored hevents
  | first :: second :: rest, _ =>
    refine closedReceipt_of_pairs (hsealed _ List.mem_cons_self) ?_ fun reference hreference ↦ ?_
    · rw [List.length_map, List.length_cons, List.length_cons]
      omega
    · obtain ⟨response, hmem, rfl⟩ := List.mem_map.mp hreference
      obtain ⟨hdigest, hstored, events, hevents⟩ := hresponses response hmem
      simp only [validatePairResponse, payloadOf_of_stored hstored, bind, Except.bind,
        require_of hdigest.symm, hevents]
      rfl

/-- The payload of a failure that is settled is no summary of a capture. -/
theorem plain_of_settled {reference : String} {payload : Bytes} {statusCode : ℕ}
    {retries : Option ℕ} {kind : String} (hstored : rawPayloads reference = some payload)
    (hkind : classifySettledIngestionFailure statusCode payload retries = some kind) :
    Plain rawPayloads reference := by
  unfold classifySettledIngestionFailure at hkind
  split_ifs at hkind
  split at hkind
  · cases hkind
  · next document hdocument =>
    exact plain_of_exact hstored hdocument List.mem_cons_self (by decide)

end Receipts

end Oamb.Artifacts.Mem0EvidenceGuarantees
