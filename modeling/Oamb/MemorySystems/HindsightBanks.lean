import Oamb.MemorySystems.HindsightProjection

/-!
# Banks that answer honestly

A bank has documents and memories, and answers every request for a part of them. An honest bank shows
its items page by page, each page going on where the one before ended, and its items and their details
are what the profile asks for. Its projection is accepted exactly when its documents are those of the
sources that are expected (`answered_buildProjection`, `answered_buildProjection_of_ne`).
-/

set_option autoImplicit false

namespace Oamb.MemorySystems.HindsightBanks

open Foundation Foundation.Dialogue
open RestClient HindsightProjection

/-! ### Pages -/

/-- The document of a page. -/
def pageDocument (items : List Json) (total offset : ℕ) : Json :=
  .object
    [("items", .array items), ("total", .integer total), ("limit", .integer pageLimit),
      ("offset", .integer offset)]

/-- Some items are shown page by page. A page is not empty while there are items left. -/
structure ServesPages (profile : Profile) (listing : Listing)
    (respond : RestCall → SealedRestResponse) (items : List (String × Json)) : Prop where
  distinct : (items.map Prod.fst).Nodup
  identified : ∀ item ∈ items, listing.identify item.2 = .ok item.1
  fields : ∀ item ∈ items, item.2.hasNames listing.itemFields = true
  pages : ∀ shown rest, items = shown ++ rest → ∃ added, added <+: rest ∧ (added = [] → rest = []) ∧
    profile.parse (respond (listing.call shown.length)).rawBytes =
      .ok (pageDocument (added.map Prod.snd) items.length shown.length)

section Pages

variable {profile : Profile} {listing : Listing}

theorem mapM_exactObject {values : List Json} {fields : List String} {label : String}
    (hfields : ∀ value ∈ values, value.hasNames fields = true) :
    (values.mapM fun value ↦ exactObject value fields label) = .ok values := by
  induction values with
  | nil => rfl
  | cons value rest ih =>
    have hvalue : exactObject value fields label = .ok value := by
      rw [exactObject, if_pos (hfields value List.mem_cons_self)]
    rw [List.mapM_cons, hvalue, ih fun other hother ↦ hfields other (List.mem_cons_of_mem _ hother)]
    rfl

theorem parsePage_pageDocument {content : Bytes} {fields : List String} {label : String}
    {values : List Json} {total offset : ℕ}
    (hparse : profile.parse content = .ok (pageDocument values total offset))
    (hfields : ∀ value ∈ values, value.hasNames fields = true) :
    parsePage profile content fields offset label = .ok ⟨values, total⟩ := by
  have hexact : parseExactJsonObject profile content pageFields =
      .ok (pageDocument values total offset) := by
    rw [parseExactJsonObject, hparse]
    rfl
  have hnumber : ∀ (number : ℕ) (text : String),
      strictNonNegativeInteger (.integer number) text = .ok number := by
    intro number text
    simp [strictNonNegativeInteger, Json.asInteger]
  have hitems : (pageDocument values total offset).get "items" = .array values := rfl
  have htotal : (pageDocument values total offset).get "total" = .integer total := rfl
  have hlimit : (pageDocument values total offset).get "limit" = .integer pageLimit := rfl
  have hoffset : (pageDocument values total offset).get "offset" = .integer offset := rfl
  simp only [parsePage, hexact, hitems, htotal, hlimit, hoffset, hnumber, mapM_exactObject hfields,
    bind, Except.bind, pure, Except.pure, ne_eq, not_true_eq_false, or_self, if_false]

theorem identifyItems_eq {items : List (String × Json)} {seen : List String}
    (hidentified : ∀ item ∈ items, listing.identify item.2 = .ok item.1)
    (hdistinct : (seen ++ items.map Prod.fst).Nodup) :
    identifyItems listing seen (items.map Prod.snd) = .ok items := by
  induction items generalizing seen with
  | nil => rfl
  | cons item rest ih =>
    have hnew : item.1 ∉ seen := by
      intro hseen
      exact (List.nodup_append.mp hdistinct).2.2 _ hseen _ List.mem_cons_self rfl
    rw [List.map_cons, List.append_cons] at hdistinct
    rw [List.map_cons, identifyItems, hidentified item List.mem_cons_self]
    change (if item.1 ∈ seen then _ else _) = _
    rw [if_neg hnew, ih (fun other hother ↦ hidentified other (List.mem_cons_of_mem _ hother))
      hdistinct]
    rfl

end Pages

/-! ### Banks -/

/-- A bank: its documents and its memories under their identities, and what it answers. -/
structure Bank where
  documents : List (String × Json)
  memories : List (String × Json)
  respond : RestCall → SealedRestResponse

/-- The answers of a bank. -/
def Bank.answers (bank : Bank) : (query : Query) → Answer query
  | .request call => (.returned (bank.respond call) : Exit)
  | .clock => (0 : ℚ)
  | .sleep _ => SleepOutcome.slept

section Listings

variable {profile : Profile} {listing : Listing} {bank : Bank} {items : List (String × Json)}

theorem addedItems_eq (hserves : ServesPages profile listing bank.respond items)
    {shown rest : List (String × Json)} (hitems : items = shown ++ rest) {total : Option ℕ}
    (htotal : ∀ number, total = some number → number = items.length) :
    ∃ added, added <+: rest ∧ (added = [] → rest = []) ∧
      addedItems profile listing total shown (bank.respond (listing.call shown.length)).rawBytes =
        .ok (added, items.length) := by
  obtain ⟨added, hadded, hlast, hparse⟩ := hserves.pages shown rest hitems
  have hmem : ∀ item ∈ added, item ∈ items := fun item hitem ↦
    hitems ▸ List.mem_append_right _ (hadded.subset hitem)
  have hpage : parsePage profile (bank.respond (listing.call shown.length)).rawBytes
      listing.itemFields shown.length listing.label = .ok ⟨added.map Prod.snd, items.length⟩ := by
    refine parsePage_pageDocument hparse fun value hvalue ↦ ?_
    obtain ⟨item, hitem, rfl⟩ := List.mem_map.mp hvalue
    exact hserves.fields item (hmem item hitem)
  have hidentify : identifyItems listing (shown.map Prod.fst) (added.map Prod.snd) = .ok added := by
    refine identifyItems_eq (fun item hitem ↦ hserves.identified item (hmem item hitem)) ?_
    rw [← List.map_append]
    refine hserves.distinct.sublist (List.Sublist.map _ ?_)
    rw [hitems]
    exact List.Sublist.append_left hadded.sublist shown
  have hsame : total.any (· ≠ items.length) = false := by
    cases total with
    | none => rfl
    | some number => simp [htotal number rfl]
  refine ⟨added, hadded, hlast, ?_⟩
  simp only [addedItems, hpage, hidentify, hsame, bind, Except.bind, pure, Except.pure,
    Bool.false_eq_true, if_false]

/-- All items of a listing are read, in their order. -/
theorem answered_listItems (hserves : ServesPages profile listing bank.respond items)
    {shown rest : List (String × Json)} (hitems : items = shown ++ rest) {total : Option ℕ}
    (htotal : ∀ number, total = some number → number = items.length)
    (responses : List SealedRestResponse) :
    ∃ later, answered bank.answers (listItems profile listing total shown responses) =
      .ok (items, later) := by
  obtain ⟨length, hlength⟩ : ∃ length, rest.length = length := ⟨_, rfl⟩
  induction length using Nat.strong_induction_on generalizing shown rest total responses with
  | _ length ih =>
    obtain ⟨added, ⟨others, rfl⟩, hlast, hread⟩ := addedItems_eq hserves hitems htotal
    have hdeclared : total.getD items.length = items.length := by
      cases total with
      | none => rfl
      | some number => exact htotal number rfl
    have hcount : items.length = shown.length + (added.length + others.length) := by
      rw [hitems, List.length_append, List.length_append]
    rw [listItems, answered_ask]
    simp only [Bank.answers, readPage, exitOutcome, hread, hdeclared]
    rw [if_neg (by omega)]
    by_cases hempty : added = []
    · have hrest := hlast hempty
      rw [List.append_eq_nil_iff] at hrest
      rw [if_pos hempty, if_neg (by rw [not_not, hcount, hempty, hrest.2]; rfl), answered_pure]
      rw [hrest.1, hrest.2, List.append_nil, List.append_nil] at hitems
      exact ⟨_, by rw [hitems]⟩
    · rw [if_neg hempty]
      rw [List.length_append] at hlength
      have hpos := List.length_pos_of_ne_nil hempty
      exact ih others.length (by omega) (by rw [hitems, List.append_assoc])
        (fun number hnumber ↦ (Option.some.inj hnumber).symm) _ rfl

end Listings

/-! ### Records -/

section Records

variable {profile : Profile} {bankId : String} {bank : Bank}

theorem areCanonical_map_string (texts : List String) :
    areCanonical (texts.map Json.string) = true := by
  induction texts with
  | nil => rfl
  | cons text rest ih => exact ih

/-- A member is replaced by a canonical value. -/
theorem isCanonical_withMember {document value : Json} (hdocument : isCanonical document = true)
    (hvalue : isCanonical value = true) (name : String) :
    isCanonical (withMember document name value) = true := by
  cases document with
  | object members =>
    rw [withMember]
    induction members with
    | nil => rfl
    | cons member rest ih =>
      obtain ⟨hmember, hrest⟩ := Bool.and_eq_true_iff.mp hdocument
      have hreplaced :
          isCanonical (if member.1 = name then (name, value) else member).2 = true := by
        split_ifs
        · exact hvalue
        · exact hmember
      exact Bool.and_eq_true_iff.mpr ⟨hreplaced, ih hrest⟩
  | null | bool value | integer value | real finite text | string value | array items =>
    exact hdocument

/-- An item with its detail is what the profile asks for. -/
structure DocumentServed (profile : Profile) (bankId : String) (sources : List SourceUnit)
    (bank : Bank) (item : String × Json) : Prop where
  valid : validateDocumentItem item.2 bankId = .ok ()
  canonical : isCanonical item.2 = true
  detail : ∀ source ∈ sources, source.sourceUnitId = item.1 → ∃ detail,
    documentDetail profile (bank.respond (getDocument profile bankId item.1)).rawBytes item.2 source
      bankId = .ok detail ∧ isCanonical detail = true

/-- A memory with its detail is what the profile asks for. -/
structure MemoryServed (profile : Profile) (bankId : String) (documentIds : List String)
    (bank : Bank) (item : String × Json) : Prop where
  valid : validateMemoryItem item.2 documentIds = .ok ()
  canonical : isCanonical item.2 = true
  detail : ∃ detail,
    memoryDetail profile (bank.respond (getMemory profile bankId item.1)).rawBytes item.2 =
      .ok detail ∧ isCanonical detail.1 = true

theorem answered_fetch {responses : List SealedRestResponse} {call : RestCall} :
    answered bank.answers (fetch responses call) = .ok (bank.respond call) :=
  rfl

theorem answered_check {α : Type} {responses : List SealedRestResponse}
    {result : Except String α} {value : α} (hresult : result = .ok value) :
    answered bank.answers (check responses result) = .ok value := by
  rw [hresult]
  rfl

theorem answered_check_of_error {α : Type} {responses : List SealedRestResponse}
    {result : Except String α} {message : String} (hresult : result = .error message) :
    answered bank.answers (check responses result) = .error (responses, .valueError message) := by
  rw [hresult]
  rfl

theorem answered_documentRecords {sources : List SourceUnit} {items : List (String × Json)}
    (hserved : ∀ item ∈ items, DocumentServed profile bankId sources bank item)
    (hsources : ∀ item ∈ items, item.1 ∈ sources.map SourceUnit.sourceUnitId)
    (responses : List SealedRestResponse) :
    ∃ records later, answered bank.answers
        (documentRecords profile bankId sources items responses) = .ok (records, later) ∧
      areCanonical records = true := by
  induction items generalizing responses with
  | nil => exact ⟨[], responses, rfl, rfl⟩
  | cons item rest ih =>
    have hitem := hserved item List.mem_cons_self
    obtain ⟨known, hknown, hidentity⟩ := List.mem_map.mp (hsources item List.mem_cons_self)
    cases hfound : sources.find? fun source ↦ source.sourceUnitId = item.1 with
    | none =>
      exact absurd (decide_eq_true hidentity) (List.find?_eq_none.mp hfound known hknown)
    | some source =>
      obtain ⟨detail, hdetail, hcanonical⟩ := hitem.detail source
        (List.mem_of_find?_eq_some hfound) (by simpa using List.find?_some hfound)
      obtain ⟨records, later, hrecords, hrest⟩ := ih
        (fun other hother ↦ hserved other (List.mem_cons_of_mem _ hother))
        (fun other hother ↦ hsources other (List.mem_cons_of_mem _ hother))
        (responses ++ [bank.respond (getDocument profile bankId item.1)])
      refine ⟨.object [("page", item.2), ("detail", detail)] :: records, later, ?_, ?_⟩
      · rw [documentRecords, answered_bind_of_ok (answered_check hitem.valid),
          answered_bind_of_ok answered_fetch]
        simp only [hfound]
        rw [answered_bind_of_ok (answered_check hdetail), answered_bind_of_ok hrecords]
        rfl
      · simp only [areCanonical, isCanonical, areCanonicalMembers, hitem.canonical, hcanonical, hrest,
          Bool.and_self]

theorem answered_memoryRecords {documentIds : List String} {items : List (String × Json)}
    (hserved : ∀ item ∈ items, MemoryServed profile bankId documentIds bank item)
    (responses : List SealedRestResponse) :
    ∃ records later, answered bank.answers
        (memoryRecords profile bankId documentIds items responses) = .ok (records, later) ∧
      areCanonical records = true := by
  induction items generalizing responses with
  | nil => exact ⟨[], responses, rfl, rfl⟩
  | cons item rest ih =>
    have hitem := hserved item List.mem_cons_self
    obtain ⟨detail, hdetail, hcanonical⟩ := hitem.detail
    obtain ⟨records, later, hrecords, hrest⟩ := ih
      (fun other hother ↦ hserved other (List.mem_cons_of_mem _ hother))
      (responses ++ [bank.respond (getMemory profile bankId item.1)])
    refine ⟨canonicalMemoryRecord item.2 detail :: records, later, ?_, ?_⟩
    · rw [memoryRecords, answered_bind_of_ok (answered_check hitem.valid),
        answered_bind_of_ok answered_fetch, answered_bind_of_ok (answered_check hdetail),
        answered_bind_of_ok hrecords]
      rfl
    · have hpage := isCanonical_withMember hitem.canonical
        (rfl : isCanonical (.string (", ".intercalate detail.2.mergeSort)) = true) "entities"
      have htexts : isCanonical (.array (detail.2.mergeSort.map .string)) = true := by
        rw [isCanonical]
        exact areCanonical_map_string _
      have hnames := isCanonical_withMember hcanonical htexts "entities"
      simp only [areCanonical, canonicalMemoryRecord, isCanonical, areCanonicalMembers, hpage, hnames,
        hrest, Bool.and_self]

theorem answered_emptyPage {call : RestCall} {fields : List String} {label message : String}
    (hparse : profile.parse (bank.respond call).rawBytes = .ok (pageDocument [] 0 0))
    (responses : List SealedRestResponse) :
    answered bank.answers (emptyPage profile responses call fields label message) =
      .ok (responses ++ [bank.respond call]) := by
  have hpage : parsePage profile (bank.respond call).rawBytes fields 0 label = .ok ⟨[], 0⟩ :=
    parsePage_pageDocument hparse (fun value hvalue ↦ nomatch hvalue)
  rw [emptyPage, answered_bind_of_ok answered_fetch, answered_bind_of_ok (answered_check hpage)]
  rfl

end Records

/-! ### Projections -/

/-- A bank that answers honestly: it shows its documents and its memories page by page, and all of
them are what the profile asks for. -/
structure Bank.Honest (bank : Bank) (profile : Profile) (bankId : String)
    (sources : List SourceUnit) : Prop where
  documents : ServesPages profile (documentListing bankId) bank.respond bank.documents
  document : ∀ item ∈ bank.documents, DocumentServed profile bankId sources bank item
  memories : ServesPages profile (memoryListing profile bankId) bank.respond bank.memories
  memory : ∀ item ∈ bank.memories,
    MemoryServed profile bankId (bank.documents.map Prod.fst) bank item
  mentalModels : profile.parse (bank.respond (listMentalModels bankId 0)).rawBytes =
    .ok (pageDocument [] 0 0)
  observations : profile.parse (bank.respond (listMemories bankId 0 (some "observation"))).rawBytes =
    .ok (pageDocument [] 0 0)

/-- The documents of a bank are those of some sources. -/
def Bank.Shows (bank : Bank) (sources : List SourceUnit) : Prop :=
  ∀ identity, identity ∈ bank.documents.map Prod.fst ↔
    identity ∈ sources.map SourceUnit.sourceUnitId

section Projections

variable {profile : Profile} {bankId : String} {sources : List SourceUnit} {bank : Bank}

theorem require_eq_ok {holds : Bool} (hholds : holds = true) (message : String) :
    require holds message = .ok () := by
  rw [require, if_pos hholds]

theorem require_eq_error {holds : Bool} (hholds : ¬ holds = true) (message : String) :
    require holds message = .error message := by
  rw [require, if_neg hholds]

/-- The items of a bank are read from its first page on. -/
theorem answered_listItems_none {listing : Listing} {items : List (String × Json)}
    (hserves : ServesPages profile listing bank.respond items)
    (responses : List SealedRestResponse) :
    ∃ later, answered bank.answers (listItems profile listing none [] responses) =
      .ok (items, later) :=
  answered_listItems hserves (List.nil_append items).symm
    (fun number hnumber ↦ absurd hnumber (Option.some_ne_none number).symm) responses

theorem all_mem_iff (bank : Bank) (sources : List SourceUnit) :
    ((bank.documents.map Prod.fst).all (· ∈ sources.map SourceUnit.sourceUnitId) &&
        (sources.map SourceUnit.sourceUnitId).all (· ∈ bank.documents.map Prod.fst)) = true ↔
      bank.Shows sources := by
  simp only [Bool.and_eq_true, List.all_eq_true, decide_eq_true_eq]
  exact ⟨fun hboth identity ↦ ⟨hboth.1 identity, hboth.2 identity⟩,
    fun hshows ↦ ⟨fun identity ↦ (hshows identity).mp, fun identity ↦ (hshows identity).mpr⟩⟩

theorem validateMemoryItem_congr {item : Json} {first second : List String}
    (hsame : ∀ identity, identity ∈ first ↔ identity ∈ second) :
    validateMemoryItem item first = validateMemoryItem item second := by
  simp only [validateMemoryItem, hsame]

/-- A bank whose documents are those of the sources is projected. -/
theorem answered_buildProjection (hhonest : bank.Honest profile bankId sources)
    (hsources : sources ≠ []) (hdistinct : (sources.map SourceUnit.sourceUnitId).Nodup)
    (hshows : bank.Shows sources) :
    ∃ snapshot, answered bank.answers (buildProjection profile bankId sources) = .ok snapshot ∧
      snapshot.orderedSourceUnitIds = sources.map SourceUnit.sourceUnitId := by
  obtain ⟨first, hfirst⟩ := answered_listItems_none hhonest.documents []
  have hmem : ∀ {items : List (String × Json)} {item : String × Json}, item ∈ sortedById items →
      item ∈ items := fun hitem ↦ (List.mergeSort_perm _ _).mem_iff.mp hitem
  obtain ⟨documents, second, hdocuments, hcanonical⟩ := answered_documentRecords
    (fun item hitem ↦ hhonest.document item (hmem hitem))
    (fun item hitem ↦ (hshows item.1).mp (List.mem_map_of_mem (hmem hitem))) first
  obtain ⟨third, hthird⟩ := answered_listItems_none hhonest.memories second
  have hserved : ∀ item ∈ sortedById bank.memories,
      MemoryServed profile bankId (sources.map SourceUnit.sourceUnitId) bank item := by
    intro item hitem
    obtain ⟨hvalid, hcanonical, hdetail⟩ := hhonest.memory item (hmem hitem)
    exact ⟨(validateMemoryItem_congr hshows).symm.trans hvalid, hcanonical, hdetail⟩
  obtain ⟨memories, fourth, hmemories, hcanonical'⟩ := answered_memoryRecords hserved third
  have hdocument : isCanonical (projectionDocument bankId documents memories) = true := by
    simp only [projectionDocument, isCanonical, areCanonicalMembers, hcanonical, hcanonical',
      areCanonical, Bool.and_self]
  suffices hsteps : ∃ snapshot,
      answered bank.answers (buildProjectionSteps profile bankId sources) = .ok snapshot ∧
        snapshot.orderedSourceUnitIds = sources.map SourceUnit.sourceUnitId by
    obtain ⟨snapshot, hsnapshot, hids⟩ := hsteps
    exact ⟨snapshot, answered_handle_of_ok hsnapshot, hids⟩
  rw [buildProjectionSteps,
    answered_bind_of_ok (answered_check (require_eq_ok (decide_eq_true hsources) _)),
    answered_bind_of_ok (answered_check (require_eq_ok (decide_eq_true hdistinct) _)),
    answered_bind_of_ok hfirst]
  dsimp only
  rw [answered_bind_of_ok (answered_check (require_eq_ok ((all_mem_iff bank sources).mpr hshows) _)),
    answered_bind_of_ok hdocuments]
  dsimp only
  rw [answered_bind_of_ok hthird]
  dsimp only
  rw [answered_bind_of_ok hmemories]
  dsimp only
  rw [answered_bind_of_ok (answered_emptyPage hhonest.mentalModels _),
    answered_bind_of_ok (answered_emptyPage hhonest.observations _), if_pos hdocument]
  exact ⟨_, rfl, rfl⟩

/-- An error of a projection is raised as an error. -/
theorem answered_projectionFailure (failure : List SealedRestResponse × IngestError) :
    ∃ error, answered bank.answers (projectionFailure failure) = .error error := by
  unfold projectionFailure
  split
  · split
    · exact ⟨_, rfl⟩
    · exact ⟨_, rfl⟩
  · exact ⟨_, rfl⟩

/-- A bank with other documents than those of the sources is not projected. -/
theorem answered_buildProjection_of_ne (hhonest : bank.Honest profile bankId sources)
    (hshows : ¬ bank.Shows sources) :
    ∃ error, answered bank.answers (buildProjection profile bankId sources) = .error error := by
  have hsteps : ∃ failure,
      answered bank.answers (buildProjectionSteps profile bankId sources) = .error failure := by
    by_cases hsources : decide (sources ≠ []) = true
    · by_cases hdistinct : decide (sources.map SourceUnit.sourceUnitId).Nodup = true
      · obtain ⟨first, hfirst⟩ := answered_listItems_none hhonest.documents []
        rw [buildProjectionSteps,
          answered_bind_of_ok (answered_check (require_eq_ok hsources _)),
          answered_bind_of_ok (answered_check (require_eq_ok hdistinct _)),
          answered_bind_of_ok hfirst]
        dsimp only
        exact ⟨_, answered_bind_of_error
          (answered_check_of_error (require_eq_error (mt (all_mem_iff bank sources).mp hshows) _))⟩
      · rw [buildProjectionSteps, answered_bind_of_ok (answered_check (require_eq_ok hsources _))]
        exact ⟨_, answered_bind_of_error (answered_check_of_error (require_eq_error hdistinct _))⟩
    · rw [buildProjectionSteps]
      exact ⟨_, answered_bind_of_error (answered_check_of_error (require_eq_error hsources _))⟩
  obtain ⟨failure, hfailure⟩ := hsteps
  obtain ⟨error, herror⟩ := answered_projectionFailure failure
  exact ⟨error, (answered_handle_of_error hfailure).trans herror⟩

end Projections

end Oamb.MemorySystems.HindsightBanks
