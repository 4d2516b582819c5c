import Oamb.Foundation.Arrangements
import Oamb.Foundation.StatefulExecution
import Oamb.MemorySystems.HindsightRecall

/-!
# What recall lists

Merging facts and chunks is an arrangement of them (`merge_eq`). A response that is accepted is
listed as a whole: its results in their order, each chunk behind the first result that names it or
behind all of them, with distinct identities, texts and sources of its own entries, and ranks from
one on (`normalizeRecall_sound`). A result may name a chunk that is not returned.
-/

set_option autoImplicit false

namespace Oamb.MemorySystems.RecallGuarantees

open Foundation Foundation.Json Foundation.JsonText Foundation.Arrangements
open Foundation.StatefulExecution Contracts.NativeEvidence ExactJson HindsightRecall
open HindsightProjection (require)

variable {documents : Dictionary String String} {doubleText : DoubleText}

/-! ### Merging is an arrangement -/

/-- What is listed for a fact or a chunk. -/
def candidateOf (chunkSources : Dictionary String String) (rank : ℕ) :
    NativeEvidenceCandidate ⊕ Chunk → NativeEvidenceCandidate
  | .inl fact => { fact with nativeRank1Indexed := rank }
  | .inr chunk =>
    { nativeId := chunkIdentity chunk.id
      nativeRank1Indexed := rank
      content := chunk.text
      nativeScore := none
      providerEvidenceIdentity := some (chunkIdentity chunk.id)
      sourceUnitId := chunkSources.lookup chunk.id
      evidenceKind := "source_chunk"
      nativeReference := some chunk.id
      nativeTruncated := chunk.truncated }

/-- Facts and chunks, numbered from some number on. -/
def numbered (chunkSources : Dictionary String String) :
    ℕ → List (NativeEvidenceCandidate ⊕ Chunk) → List NativeEvidenceCandidate
  | _, [] => []
  | rank, entry :: entries =>
    candidateOf chunkSources rank entry :: numbered chunkSources (rank + 1) entries

variable {chunks : List Chunk} {chunkSources : Dictionary String String} {emission : Emission}

/-- An emission with one more entry. -/
def Emission.add (chunkSources : Dictionary String String) (emission : Emission)
    (entry : NativeEvidenceCandidate ⊕ Chunk) : List NativeEvidenceCandidate :=
  emission.candidates ++ [candidateOf chunkSources (emission.candidates.length + 1) entry]

/-- What is numbered behind an entry more is numbered with it. -/
theorem add_append_numbered (entry : NativeEvidenceCandidate ⊕ Chunk)
    (entries : List (NativeEvidenceCandidate ⊕ Chunk)) :
    Emission.add chunkSources emission entry ++
        numbered chunkSources ((Emission.add chunkSources emission entry).length + 1) entries =
      emission.candidates ++
        numbered chunkSources (emission.candidates.length + 1) (entry :: entries) := by
  rw [numbered, Emission.add, List.length_append, List.length_singleton, List.append_assoc,
    List.singleton_append]

theorem appendChunk_of_none {chunkId : String}
    (hguest : guestOf Chunk.id chunks emission.emittedChunks (some chunkId) = none) :
    appendChunk chunks chunkSources emission chunkId = emission := by
  unfold guestOf at hguest
  rw [Option.bind_some] at hguest
  unfold appendChunk
  split
  · rfl
  · next hemitted =>
    rw [if_neg hemitted] at hguest
    rw [hguest]

theorem appendChunk_of_some {chunkId : String} {chunk : Chunk}
    (hguest : guestOf Chunk.id chunks emission.emittedChunks (some chunkId) = some chunk) :
    appendChunk chunks chunkSources emission chunkId =
      ⟨Emission.add chunkSources emission (.inr chunk), emission.emittedChunks ++ [chunk.id]⟩ := by
  unfold guestOf at hguest
  rw [Option.bind_some] at hguest
  unfold appendChunk
  split
  · next hemitted =>
    rw [if_pos hemitted] at hguest
    cases hguest
  · next hemitted =>
    rw [if_neg hemitted] at hguest
    have hid : chunk.id = chunkId := of_decide_eq_true
      (List.find?_some (p := fun other : Chunk ↦ other.id = chunkId) hguest)
    rw [hguest, ← hid]
    rfl

/-- The chunks that are left are listed in their order. -/
theorem foldl_appendChunk (hnodup : (chunks.map Chunk.id).Nodup) {rest : List Chunk}
    (hrest : rest ⊆ chunks) (hdistinct : (rest.map Chunk.id).Nodup) :
    (rest.foldl (fun state chunk ↦ appendChunk chunks chunkSources state chunk.id)
        emission).candidates =
      emission.candidates ++ numbered chunkSources (emission.candidates.length + 1)
        ((rest.filter fun chunk ↦ chunk.id ∉ emission.emittedChunks).map .inr) := by
  induction rest generalizing emission with
  | nil => exact (List.append_nil _).symm
  | cons chunk rest ih =>
    obtain ⟨hchunk, hsubset⟩ := List.cons_subset.mp hrest
    obtain ⟨hother, hdistinct⟩ := List.nodup_cons.mp hdistinct
    rw [List.foldl_cons, ih hsubset hdistinct]
    by_cases hemitted : chunk.id ∈ emission.emittedChunks
    · have hnone : guestOf Chunk.id chunks emission.emittedChunks (some chunk.id) = none :=
        if_pos hemitted
      rw [appendChunk_of_none hnone, List.filter_cons_of_neg (by simpa using hemitted)]
    · have hsome : guestOf Chunk.id chunks emission.emittedChunks (some chunk.id) = some chunk :=
        (guestOf_eq_some hnodup).mpr ⟨rfl, hemitted, hchunk⟩
      have hfilter : (rest.filter fun other ↦ other.id ∉ emission.emittedChunks ++ [chunk.id]) =
          rest.filter fun other ↦ other.id ∉ emission.emittedChunks := by
        refine List.filter_congr fun other hmem ↦ ?_
        have hdiffer : other.id ≠ chunk.id := fun hsame ↦
          hother (hsame ▸ List.mem_map_of_mem hmem)
        simp [hdiffer]
      rw [appendChunk_of_some hsome, hfilter, List.filter_cons_of_pos (by simpa using hemitted),
        List.map_cons, add_append_numbered]

/-- An emission that lists a fact. -/
def listed (chunkSources : Dictionary String String) (emission : Emission)
    (fact : NativeEvidenceCandidate) : Emission :=
  ⟨Emission.add chunkSources emission (.inl fact), emission.emittedChunks⟩

theorem appendFact_eq (fact : NativeEvidenceCandidate) :
    appendFact chunks chunkSources emission fact =
      match fact.nativeReference with
      | some chunkId => appendChunk chunks chunkSources (listed chunkSources emission fact) chunkId
      | none => listed chunkSources emission fact := rfl

theorem appendFact_of_none {fact : NativeEvidenceCandidate}
    (hguest : guestOf Chunk.id chunks emission.emittedChunks fact.nativeReference = none) :
    appendFact chunks chunkSources emission fact = listed chunkSources emission fact := by
  rw [appendFact_eq]
  cases hreference : fact.nativeReference with
  | none => rfl
  | some chunkId =>
    rw [hreference] at hguest
    have hlisted : guestOf Chunk.id chunks (listed chunkSources emission fact).emittedChunks
        (some chunkId) = none := hguest
    exact appendChunk_of_none hlisted

theorem appendFact_of_some {fact : NativeEvidenceCandidate} {chunk : Chunk}
    (hguest : guestOf Chunk.id chunks emission.emittedChunks fact.nativeReference = some chunk) :
    appendFact chunks chunkSources emission fact =
      ⟨Emission.add chunkSources (listed chunkSources emission fact) (.inr chunk),
        emission.emittedChunks ++ [chunk.id]⟩ := by
  rw [appendFact_eq]
  cases hreference : fact.nativeReference with
  | none =>
    rw [hreference] at hguest
    cases hguest
  | some chunkId =>
    rw [hreference] at hguest
    have hlisted : guestOf Chunk.id chunks (listed chunkSources emission fact).emittedChunks
        (some chunkId) = some chunk := hguest
    exact appendChunk_of_some hlisted

/-- What is listed behind an emission is an arrangement. -/
theorem merge_from (emission : Emission) (hnodup : (chunks.map Chunk.id).Nodup)
    (facts : List NativeEvidenceCandidate) :
    (chunks.foldl (fun state chunk ↦ appendChunk chunks chunkSources state chunk.id)
        (facts.foldl (appendFact chunks chunkSources) emission)).candidates =
      emission.candidates ++ numbered chunkSources (emission.candidates.length + 1)
        (arrange NativeEvidenceCandidate.nativeReference Chunk.id chunks emission.emittedChunks
          facts) := by
  induction facts generalizing emission with
  | nil => exact foldl_appendChunk hnodup (List.Subset.refl _) hnodup
  | cons fact facts ih =>
    rw [List.foldl_cons, ih]
    cases hguest : guestOf Chunk.id chunks emission.emittedChunks fact.nativeReference with
    | none =>
      rw [appendFact_of_none hguest, arrange_cons_of_none hguest, listed, add_append_numbered]
    | some chunk =>
      rw [appendFact_of_some hguest, arrange_cons_of_some hguest, add_append_numbered, listed,
        add_append_numbered]

/-- Merging lists the facts, each with the chunk that it brings, and then the other chunks. -/
theorem merge_eq (hnodup : (chunks.map Chunk.id).Nodup) (reading : Reading) :
    merge chunks reading =
      numbered reading.chunkSources 1
        (arrange NativeEvidenceCandidate.nativeReference Chunk.id chunks [] reading.facts) :=
  merge_from ⟨[], []⟩ hnodup reading.facts

/-! ### Reading the results -/

/-- A field has a text, or is absent or null. -/
def Holds (value : Json) (text : Option String) : Prop :=
  (value = .null ∧ text = none) ∨ ∃ written, value = .string written ∧ text = some written

/-- A fact is what a result says. -/
structure FromResult (documents : Dictionary String String) (result : Json)
    (fact : NativeEvidenceCandidate) : Prop where
  id : result.get "id" = .string fact.nativeId
  identity : fact.providerEvidenceIdentity = some fact.nativeId
  text : result.get "text" = .string fact.content
  kind : result.get "type" = .string fact.evidenceKind
  known : fact.evidenceKind ∈ ["world", "experience"]
  source : ∃ documentId, Holds (result.get "document_id") documentId ∧
    documentId.map documents.lookup = fact.sourceUnitId.map some
  reference : Holds (result.get "chunk_id") fact.nativeReference
  occurredStart : Holds (result.get "occurred_start") fact.occurredStart
  occurredEnd : Holds (result.get "occurred_end") fact.occurredEnd
  mentionedAt : Holds (result.get "mentioned_at") fact.mentionedAt

theorem require_eq_ok {holds : Bool} {message : String} :
    require holds message = .ok () ↔ holds = true := by
  cases holds
  · exact ⟨nofun, nofun⟩
  · exact ⟨fun _ ↦ rfl, fun _ ↦ rfl⟩

theorem nullableString_eq_ok {value : Json} {label : String} {text : Option String}
    (hread : nullableString value label = .ok text) : Holds value text := by
  unfold nullableString at hread
  split at hread
  · cases hread
    exact .inl ⟨rfl, rfl⟩
  · cases hread
    exact .inr ⟨_, rfl, rfl⟩
  · cases hread

theorem memoryIdOf_eq_ok {seenIds : List String} {result : Json} {memoryId : String}
    (hread : memoryIdOf seenIds result = .ok memoryId) :
    result.get "id" = .string memoryId ∧ memoryId ∉ seenIds := by
  unfold memoryIdOf at hread
  split at hread
  · next hid =>
    split_ifs at hread with hempty hseen
    cases hread
    exact ⟨hid, hseen⟩
  · cases hread

theorem textOf_eq_ok {result : Json} {text : String} (hread : textOf result = .ok text) :
    result.get "text" = .string text := by
  unfold textOf at hread
  split at hread
  · next htext =>
    split_ifs at hread
    cases hread
    exact htext
  · cases hread

theorem factTypeOf_eq_ok {result : Json} {factType : String}
    (hread : factTypeOf result = .ok factType) :
    result.get "type" = .string factType ∧ factType ∈ ["world", "experience"] := by
  unfold factTypeOf at hread
  split at hread
  · next hkind =>
    split_ifs at hread with hknown
    cases hread
    exact ⟨hkind, hknown⟩
  · cases hread

theorem sourceUnitOf_eq_ok {documentId sourceUnitId : Option String}
    (hread : sourceUnitOf documents documentId = .ok sourceUnitId) :
    documentId.map documents.lookup = sourceUnitId.map some := by
  unfold sourceUnitOf at hread
  split at hread
  · cases hread
    rfl
  · split at hread
    · next hlookup =>
      cases hread
      rw [Option.map_some, hlookup, Option.map_some]
    · cases hread

/-- A source is recorded for the chunk that is named, and agrees with the one that is there. -/
theorem recordSource_eq_ok {chunkIds : List String} {chunkId sourceUnitId : Option String}
    {next : Dictionary String String}
    (hread : recordSource chunkIds chunkSources chunkId sourceUnitId = .ok next)
    (wanted source : String) :
    next.lookup wanted = some source ↔ chunkSources.lookup wanted = some source ∨
      (wanted ∈ chunkIds ∧ chunkId = some wanted ∧ sourceUnitId = some source) := by
  unfold recordSource at hread
  split at hread
  · next named given =>
    split_ifs at hread with hknown
    · split at hread
      · next hnone =>
        cases hread
        rw [Dictionary.lookup_insert_eq_ite]
        by_cases hwanted : wanted = named
        · subst hwanted
          rw [if_pos rfl, hnone]
          constructor
          · exact fun hgiven ↦ .inr ⟨hknown, rfl, hgiven⟩
          · exact fun hor ↦ hor.elim nofun fun hall ↦ hall.2.2
        · rw [if_neg hwanted]
          exact ⟨Or.inl, fun hor ↦ hor.elim id fun hall ↦
            absurd (Option.some.inj hall.2.1).symm hwanted⟩
      · next previous hprevious =>
        split_ifs at hread with hsame
        cases hread
        refine ⟨Or.inl, fun hor ↦ hor.elim id ?_⟩
        rintro ⟨-, hnamed, hgiven⟩
        rw [← Option.some.inj hnamed, hprevious, hsame, hgiven]
    · cases hread
      refine ⟨Or.inl, fun hor ↦ hor.elim id ?_⟩
      rintro ⟨hwanted, hnamed, -⟩
      exact absurd (Option.some.inj hnamed ▸ hwanted) hknown
  · next hmissing =>
    cases hread
    refine ⟨Or.inl, fun hor ↦ hor.elim id ?_⟩
    rintro ⟨-, rfl, rfl⟩
    exact absurd rfl (hmissing wanted source rfl)

/-- What is known after some results. -/
structure ReadFrom (documents : Dictionary String String) (chunkIds : List String)
    (results : List Json) (reading : Reading) : Prop where
  facts : List.Forall₂ (FromResult documents) results reading.facts
  seen : reading.seenIds = reading.facts.map NativeEvidenceCandidate.nativeId
  distinct : reading.seenIds.Nodup
  sources : ∀ wanted source, reading.chunkSources.lookup wanted = some source ↔
    wanted ∈ chunkIds ∧ ∃ fact ∈ reading.facts,
      fact.nativeReference = some wanted ∧ fact.sourceUnitId = some source

theorem readFrom_nil (chunkIds : List String) : ReadFrom documents chunkIds [] ⟨[], ∅, []⟩ where
  facts := .nil
  seen := rfl
  distinct := List.nodup_nil
  sources := fun _ _ ↦ ⟨nofun, fun hboth ↦ by obtain ⟨-, fact, hfact, -⟩ := hboth; cases hfact⟩

/-- One result more. -/
theorem readFrom_readResult {chunkIds : List String} {results : List Json} {result : Json}
    {reading next : Reading} (hfrom : ReadFrom documents chunkIds results reading)
    (hread : readResult doubleText documents chunkIds reading result = .ok next) :
    ReadFrom documents chunkIds (results ++ [result]) next := by
  unfold readResult at hread
  obtain ⟨_, -, hread⟩ := bind_eq_ok.mp hread
  obtain ⟨memoryId, hmemoryId, hread⟩ := bind_eq_ok.mp hread
  obtain ⟨text, htext, hread⟩ := bind_eq_ok.mp hread
  obtain ⟨factType, hfactType, hread⟩ := bind_eq_ok.mp hread
  obtain ⟨_, -, hread⟩ := bind_eq_ok.mp hread
  obtain ⟨documentId, hdocumentId, hread⟩ := bind_eq_ok.mp hread
  obtain ⟨sourceUnitId, hsourceUnitId, hread⟩ := bind_eq_ok.mp hread
  obtain ⟨chunkId, hchunkId, hread⟩ := bind_eq_ok.mp hread
  obtain ⟨chunkSources, hchunkSources, hread⟩ := bind_eq_ok.mp hread
  obtain ⟨occurredStart, hoccurredStart, hread⟩ := bind_eq_ok.mp hread
  obtain ⟨occurredEnd, hoccurredEnd, hread⟩ := bind_eq_ok.mp hread
  obtain ⟨mentionedAt, hmentionedAt, hread⟩ := bind_eq_ok.mp hread
  obtain ⟨_, -, hread⟩ := bind_eq_ok.mp hread
  obtain ⟨score, -, hread⟩ := bind_eq_ok.mp hread
  cases hread
  obtain ⟨hid, hunseen⟩ := memoryIdOf_eq_ok hmemoryId
  obtain ⟨hkind, hknown⟩ := factTypeOf_eq_ok hfactType
  refine ⟨?_, ?_, ?_, fun wanted source ↦ ?_⟩
  · refine List.rel_append hfrom.facts (.cons ?_ .nil)
    exact ⟨hid, rfl, textOf_eq_ok htext, hkind, hknown,
      ⟨documentId, nullableString_eq_ok hdocumentId, sourceUnitOf_eq_ok hsourceUnitId⟩,
      nullableString_eq_ok hchunkId, nullableString_eq_ok hoccurredStart,
      nullableString_eq_ok hoccurredEnd, nullableString_eq_ok hmentionedAt⟩
  · rw [List.map_append, ← hfrom.seen]
    rfl
  · change (reading.seenIds ++ [memoryId]).Nodup
    rw [← List.concat_eq_append]
    exact hfrom.distinct.concat hunseen
  · rw [recordSource_eq_ok hchunkSources, hfrom.sources]
    simp only [List.mem_append, List.mem_singleton, or_and_right, exists_or, exists_eq_left,
      and_or_left]

/-- All results. -/
theorem readFrom_of_foldlM {chunkIds : List String} {results : List Json} {reading : Reading}
    (hread : results.foldlM (readResult doubleText documents chunkIds) ⟨[], ∅, []⟩ =
      .ok reading) :
    ReadFrom documents chunkIds results reading := by
  induction results using List.reverseRecOn generalizing reading with
  | nil =>
    cases hread
    exact readFrom_nil chunkIds
  | append_singleton results result ih =>
    rw [List.foldlM_append] at hread
    obtain ⟨before, hbefore, hread⟩ := bind_eq_ok.mp hread
    obtain ⟨next, hnext, hpure⟩ := bind_eq_ok.mp hread
    cases hpure
    exact readFrom_readResult (ih hbefore) hnext

/-! ### Reading the chunks -/

/-- A chunk is what a member says. -/
structure FromMember (member : String × Json) (chunk : Chunk) : Prop where
  id : chunk.id = member.1
  text : member.2.get "text" = .string chunk.text
  truncated : member.2.get "truncated" = .bool chunk.truncated

theorem readChunk_eq_ok {member : String × Json} {chunk : Chunk}
    (hread : readChunk member = .ok chunk) : FromMember member chunk := by
  unfold readChunk at hread
  obtain ⟨_, -, hread⟩ := bind_eq_ok.mp hread
  obtain ⟨_, -, hread⟩ := bind_eq_ok.mp hread
  obtain ⟨_, -, hread⟩ := bind_eq_ok.mp hread
  split at hread
  · next htext _ htruncated =>
    obtain ⟨_, -, hpure⟩ := bind_eq_ok.mp hread
    cases hpure
    exact ⟨rfl, htext, htruncated⟩
  · obtain ⟨_, -, hfailed⟩ := bind_eq_ok.mp hread
    cases hfailed
  · cases hread
  · cases hread

theorem chunks_eq_ok {value : Json} (hread : HindsightRecall.chunks value = .ok chunks) :
    ∃ members, value = .object members ∧ List.Forall₂ FromMember members chunks := by
  unfold HindsightRecall.chunks at hread
  split at hread
  · next members =>
    have hsame : List.Forall₂ (· = ·) (members.map readChunk) (chunks.map .ok) := by
      rw [List.forall₂_eq_eq_eq]
      exact mapM_eq_ok.mp hread
    rw [List.forall₂_map_left_iff, List.forall₂_map_right_iff] at hsame
    exact ⟨members, rfl, hsame.imp fun _ _ ↦ readChunk_eq_ok⟩
  · cases hread

/-! ### Exact documents -/

theorem fault_of_faultMembers {members : List (String × Json)}
    (hnone : faultMembers members = none) :
    ∀ member ∈ members, fault member.2 = none := by
  induction members with
  | nil => exact fun _ hmember ↦ absurd hmember List.not_mem_nil
  | cons member members ih =>
    obtain ⟨name, value⟩ := member
    rw [faultMembers, Option.or_eq_none_iff] at hnone
    exact List.forall_mem_cons.mpr ⟨hnone.1, ih hnone.2⟩

/-- The names of an object that a reader does not refuse are distinct. -/
theorem nodup_of_fault {members : List (String × Json)} (hnone : fault (.object members) = none) :
    (members.map Prod.fst).Nodup := by
  rw [fault, Option.or_eq_none_iff, Option.map_eq_none_iff] at hnone
  exact nodup_of_repeatedName hnone.2

theorem fault_get {document : Json} (hnone : fault document = none) (name : String) :
    fault (document.get name) = none := by
  cases document with
  | null | bool | integer | real | string | array => rfl
  | object members =>
    rw [Json.get]
    cases hlookup : lookup members name with
    | none => rfl
    | some value =>
      rw [fault, Option.or_eq_none_iff] at hnone
      obtain ⟨member, hmember, hvalue⟩ := Option.map_eq_some_iff.mp hlookup
      have hmem := List.mem_reverse.mp (List.mem_of_find?_eq_some hmember)
      rw [Option.getD_some, ← hvalue]
      exact fault_of_faultMembers hnone.1 member hmem

theorem readResponse_eq_ok {rawBytes : Bytes} {document : Json}
    (hread : readResponse rawBytes = .ok document) : fault document = none := by
  unfold readResponse at hread
  split at hread
  · cases hread
  · obtain ⟨_, -, hread⟩ := bind_eq_ok.mp hread
    obtain ⟨_, -, hread⟩ := bind_eq_ok.mp hread
    unfold parseExactJsonObject at hread
    split at hread
    · cases hread
    · split at hread
      · cases hread
      · next hfault =>
        split_ifs at hread
        cases hread
        exact hfault

theorem nodup_chunksField {document : Json} (hnone : fault document = none)
    {members : List (String × Json)} (hmembers : chunksField document = .object members) :
    (members.map Prod.fst).Nodup := by
  unfold chunksField at hmembers
  split_ifs at hmembers
  · have hchunks := fault_get hnone "chunks"
    rw [hmembers] at hchunks
    exact nodup_of_fault hchunks
  · cases hmembers
    exact List.nodup_nil

/-! ### What is listed -/

/-- The chunk that a result names. -/
def chunkIdOf (result : Json) : Option String := (result.get "chunk_id").asText

/-- A result names a document, which belongs to a source unit. -/
def HasSource (documents : Dictionary String String) (result : Json) (source : String) : Prop :=
  ∃ documentId, result.get "document_id" = .string documentId ∧
    documents.lookup documentId = some source

/-- An item is what a chunk of the response says, and its source is that of the results that name
it. -/
structure FromChunk (documents : Dictionary String String) (results : List Json)
    (member : String × Json) (item : NativeEvidenceCandidate) : Prop where
  id : item.nativeId = chunkIdentity member.1
  identity : item.providerEvidenceIdentity = some item.nativeId
  kind : item.evidenceKind = "source_chunk"
  text : member.2.get "text" = .string item.content
  truncated : member.2.get "truncated" = .bool item.nativeTruncated
  reference : item.nativeReference = some member.1
  source : ∀ source, item.sourceUnitId = some source ↔
    ∃ result ∈ results, chunkIdOf result = some member.1 ∧ HasSource documents result source

/-- An item is what its entry of the response says. -/
def Describes (documents : Dictionary String String) (results : List Json) :
    Json ⊕ (String × Json) → NativeEvidenceCandidate → Prop
  | .inl result, item => FromResult documents result item
  | .inr member, item => FromChunk documents results member item

/-- The results are listed in their order, and each chunk once: behind the first result that names
it, or behind all results. -/
structure Listed (results : List Json) (members : List (String × Json))
    (entries : List (Json ⊕ (String × Json))) : Prop where
  ordered : hostsIn entries = results
  once : (guestsIn entries).Perm members
  placed : ∀ member ∈ members, ∀ earlier result later, results = earlier ++ result :: later →
    chunkIdOf result = some member.1 → (∀ other ∈ earlier, chunkIdOf other ≠ some member.1) →
      ∃ before after, entries = before ++ .inl result :: .inr member :: after ∧
        hostsIn before = earlier
  last : ∀ member ∈ members, (∀ result ∈ results, chunkIdOf result ≠ some member.1) →
    ∃ before after, entries = before ++ .inr member :: after ∧ hostsIn after = []

/-- What is listed for the results and chunks of a response. -/
structure Normalized (documents : Dictionary String String) (results : List Json)
    (members : List (String × Json)) (items : List NativeEvidenceCandidate) : Prop where
  listed : ∃ entries, Listed results members entries ∧
    List.Forall₂ (Describes documents results) entries items
  ranks : ∀ (position : ℕ) (item : NativeEvidenceCandidate), items[position]? = some item →
    item.nativeRank1Indexed = position + 1
  distinct : (items.map NativeEvidenceCandidate.nativeId).Nodup
  identities : ∀ item ∈ items, item.providerEvidenceIdentity = some item.nativeId
  known : ∀ result ∈ results, ∀ documentId, result.get "document_id" = .string documentId →
    ∃ source, documents.lookup documentId = some source
  agree : ∀ member ∈ members, ∀ first ∈ results, ∀ second ∈ results,
    chunkIdOf first = some member.1 → chunkIdOf second = some member.1 →
      ∀ source other, HasSource documents first source → HasSource documents second other →
        source = other

theorem asText_of_holds {value : Json} {text : Option String} (hholds : Holds value text) :
    value.asText = text := by
  rcases hholds with ⟨rfl, rfl⟩ | ⟨written, rfl, rfl⟩
  · rfl
  · rfl

/-- The source of a fact is that of its result. -/
theorem hasSource_iff {result : Json} {fact : NativeEvidenceCandidate}
    (hfact : FromResult documents result fact) (source : String) :
    HasSource documents result source ↔ fact.sourceUnitId = some source := by
  obtain ⟨documentId, hholds, hsource⟩ := hfact.source
  unfold HasSource
  rcases hholds with ⟨hnull, rfl⟩ | ⟨written, hwritten, rfl⟩
  · rw [Option.map_none, eq_comm, Option.map_eq_none_iff] at hsource
    rw [hnull, hsource]
    constructor
    · rintro ⟨other, hother, -⟩
      cases hother
    · exact nofun
  · rw [hwritten]
    constructor
    · rintro ⟨other, hother, hlookup⟩
      cases hother
      rw [Option.map_some, hlookup, ← Option.map_some, eq_comm] at hsource
      exact Option.map_injective (Option.some_injective _) hsource
    · intro hgiven
      rw [hgiven, Option.map_some, Option.map_some] at hsource
      exact ⟨written, rfl, Option.some.inj hsource⟩

/-- Facts and results with a property go together. -/
theorem exists_fact_iff {results : List Json} {facts : List NativeEvidenceCandidate}
    (hfacts : List.Forall₂ (FromResult documents) results facts) {wanted source : String} :
    (∃ fact ∈ facts, fact.nativeReference = some wanted ∧ fact.sourceUnitId = some source) ↔
      ∃ result ∈ results, chunkIdOf result = some wanted ∧ HasSource documents result source := by
  induction hfacts with
  | nil =>
    exact ⟨fun ⟨_, hmem, _⟩ ↦ absurd hmem List.not_mem_nil,
      fun ⟨_, hmem, _⟩ ↦ absurd hmem List.not_mem_nil⟩
  | @cons result fact results facts hfact hfacts ih =>
    simp only [List.mem_cons, or_and_right, exists_or, exists_eq_left, ih]
    rw [hasSource_iff hfact, chunkIdOf, asText_of_holds hfact.reference]

theorem getElem_numbered (chunkSources : Dictionary String String)
    (entries : List (NativeEvidenceCandidate ⊕ Chunk)) (start position : ℕ) :
    (numbered chunkSources start entries)[position]? =
      entries[position]?.map (candidateOf chunkSources (start + position)) := by
  induction entries generalizing start position with
  | nil => rfl
  | cons entry entries ih =>
    cases position with
    | zero => rfl
    | succ position =>
      rw [numbered, List.getElem?_cons_succ, List.getElem?_cons_succ, ih, Nat.add_right_comm,
        Nat.add_assoc]

theorem candidateOf_rank (chunkSources : Dictionary String String) (rank : ℕ)
    (entry : NativeEvidenceCandidate ⊕ Chunk) :
    (candidateOf chunkSources rank entry).nativeRank1Indexed = rank := by
  cases entry <;> rfl

/-- The identity of a fact or a chunk. -/
def entryId : NativeEvidenceCandidate ⊕ Chunk → String
  | .inl fact => fact.nativeId
  | .inr chunk => chunkIdentity chunk.id

theorem map_nativeId_numbered (chunkSources : Dictionary String String) (start : ℕ)
    (entries : List (NativeEvidenceCandidate ⊕ Chunk)) :
    (numbered chunkSources start entries).map NativeEvidenceCandidate.nativeId =
      entries.map entryId := by
  induction entries generalizing start with
  | nil => rfl
  | cons entry entries ih =>
    rw [numbered, List.map_cons, List.map_cons, ih]
    cases entry <;> rfl

/-- What is numbered is what the entries say. -/
theorem forall₂_numbered {results : List Json} {entries : List (Json ⊕ (String × Json))}
    {arranged : List (NativeEvidenceCandidate ⊕ Chunk)}
    (hrelated : List.Forall₂ (Sum.LiftRel (FromResult documents) FromMember) entries arranged)
    (hsources : ∀ chunk, .inr chunk ∈ arranged → ∀ source,
      chunkSources.lookup chunk.id = some source ↔
        ∃ result ∈ results, chunkIdOf result = some chunk.id ∧ HasSource documents result source)
    (start : ℕ) :
    List.Forall₂ (Describes documents results) entries (numbered chunkSources start arranged) := by
  induction hrelated generalizing start with
  | nil => exact .nil
  | @cons entry other entries arranged hentry hrest ih =>
    refine .cons ?_ (ih (fun chunk hchunk ↦ hsources chunk (List.mem_cons_of_mem _ hchunk)) _)
    cases hentry with
    | @inl result fact hfact =>
      exact ⟨hfact.id, hfact.identity, hfact.text, hfact.kind, hfact.known, hfact.source,
        hfact.reference, hfact.occurredStart, hfact.occurredEnd, hfact.mentionedAt⟩
    | @inr member chunk hchunk =>
      have hsource := hsources chunk List.mem_cons_self
      rw [hchunk.id] at hsource
      refine ⟨congrArg chunkIdentity hchunk.id, rfl, rfl, hchunk.text, hchunk.truncated,
        congrArg some hchunk.id, fun source ↦ ?_⟩
      rw [← hsource source, ← hchunk.id]
      rfl

/-! ### Normalization -/

theorem map_id_eq {members : List (String × Json)}
    (hchunks : List.Forall₂ FromMember members chunks) :
    chunks.map Chunk.id = members.map Prod.fst := by
  induction hchunks with
  | nil => rfl
  | cons hchunk hrest ih => rw [List.map_cons, List.map_cons, hchunk.id, ih]

theorem mem_chunks_of_mem_arrange (hnodup : (chunks.map Chunk.id).Nodup)
    {facts : List NativeEvidenceCandidate} {chunk : Chunk}
    (hmem : .inr chunk ∈ arrange NativeEvidenceCandidate.nativeReference Chunk.id chunks [] facts) :
    chunk ∈ chunks := by
  have hguest : chunk ∈ guestsIn
      (arrange NativeEvidenceCandidate.nativeReference Chunk.id chunks [] facts) :=
    List.mem_filterMap.mpr ⟨_, hmem, rfl⟩
  exact (List.mem_filter.mp ((guests_arrange hnodup).mem_iff.mp hguest)).1

/-- The results and the chunks of a response are arranged as the claim of each says. -/
theorem listed_arrange {results : List Json} {members : List (String × Json)}
    (hnodup : (members.map Prod.fst).Nodup) :
    Listed results members (arrange chunkIdOf Prod.fst members [] results) where
  ordered := hosts_arrange
  once := by
    refine (guests_arrange hnodup).trans (List.Perm.of_eq (List.filter_eq_self.mpr ?_))
    exact fun _ _ ↦ decide_eq_true List.not_mem_nil
  placed := by
    rintro member hmember earlier result later rfl hresult hfirst
    exact exists_placed hnodup hmember List.not_mem_nil hfirst hresult
  last := fun member hmember hnone ↦ exists_last hnodup hmember List.not_mem_nil hnone

/-- No two items that are listed have the same identity. -/
theorem nodup_entryIds {results : List Json} {reading : Reading}
    (hread : ReadFrom documents (chunks.map Chunk.id) results reading)
    (hnodup : (chunks.map Chunk.id).Nodup)
    (hapart : ∀ chunk ∈ chunks, chunkIdentity chunk.id ∉ reading.seenIds) :
    ((arrange NativeEvidenceCandidate.nativeReference Chunk.id chunks [] reading.facts).map
      entryId).Nodup := by
  refine (((perm_hosts_guests _).map entryId).nodup_iff).mpr ?_
  have hguests : (guestsIn (arrange NativeEvidenceCandidate.nativeReference Chunk.id chunks []
      reading.facts)).Perm chunks := by
    refine (guests_arrange hnodup).trans (List.Perm.of_eq (List.filter_eq_self.mpr ?_))
    exact fun _ _ ↦ decide_eq_true List.not_mem_nil
  rw [List.map_append, List.map_map, List.map_map, hosts_arrange]
  refine List.nodup_append.mpr ⟨?_, ?_, ?_⟩
  · exact hread.seen ▸ hread.distinct
  · have hids : (chunks.map fun chunk ↦ chunkIdentity chunk.id).Nodup := by
      have hinjective : Function.Injective chunkIdentity := fun first second hsame ↦
        (String.append_right_inj "chunk:").mp hsame
      have hmap : (chunks.map fun chunk ↦ chunkIdentity chunk.id) =
          (chunks.map Chunk.id).map chunkIdentity := (List.map_map ..).symm
      exact hmap ▸ hnodup.map hinjective
    exact (hguests.map _).nodup_iff.mpr hids
  · intro first hfirst second hsecond hsame
    obtain ⟨chunk, hchunk, rfl⟩ := List.mem_map.mp hsecond
    have hid : first = chunkIdentity chunk.id := hsame
    refine hapart chunk (hguests.mem_iff.mp hchunk) ?_
    rw [hread.seen, ← hid]
    exact hfirst

theorem exists_left {α β : Type} {R : α → β → Prop} {firsts : List α} {seconds : List β}
    (hrelated : List.Forall₂ R firsts seconds) {second : β} (hsecond : second ∈ seconds) :
    ∃ first ∈ firsts, R first second := by
  induction hrelated with
  | nil => exact absurd hsecond List.not_mem_nil
  | @cons first other firsts seconds hfirst hrest ih =>
    rcases List.mem_cons.mp hsecond with rfl | hsecond
    · exact ⟨first, List.mem_cons_self, hfirst⟩
    · obtain ⟨found, hfound, hrelation⟩ := ih hsecond
      exact ⟨found, List.mem_cons_of_mem _ hfound, hrelation⟩

/-- A response that is accepted is listed as a whole, in order, and each item is what its entry of
the response says. -/
theorem normalized {results : List Json} {members : List (String × Json)} {reading : Reading}
    (hnodup : (members.map Prod.fst).Nodup) (hchunks : List.Forall₂ FromMember members chunks)
    (hread : ReadFrom documents (chunks.map Chunk.id) results reading)
    (hapart : ∀ chunk ∈ chunks, chunkIdentity chunk.id ∉ reading.seenIds) :
    Normalized documents results members (merge chunks reading) := by
  have hids := map_id_eq hchunks
  have hchunkIds : (chunks.map Chunk.id).Nodup := hids ▸ hnodup
  have hrelated : List.Forall₂ (Sum.LiftRel (FromResult documents) FromMember)
      (arrange chunkIdOf Prod.fst members [] results)
      (arrange NativeEvidenceCandidate.nativeReference Chunk.id chunks [] reading.facts) :=
    forall₂_arrange hread.facts hchunks (fun _ _ hfact ↦ asText_of_holds hfact.reference)
      fun _ _ hchunk ↦ hchunk.id.symm
  have hsources : ∀ wanted source, reading.chunkSources.lookup wanted = some source ↔
      wanted ∈ members.map Prod.fst ∧ ∃ result ∈ results, chunkIdOf result = some wanted ∧
        HasSource documents result source := by
    intro wanted source
    rw [hread.sources, exists_fact_iff hread.facts, hids]
  have hdescribes : List.Forall₂ (Describes documents results)
      (arrange chunkIdOf Prod.fst members [] results) (merge chunks reading) := by
    rw [merge_eq hchunkIds]
    refine forall₂_numbered hrelated (fun chunk hchunk source ↦ ?_) 1
    rw [hsources, ← hids]
    exact and_iff_right (List.mem_map_of_mem (mem_chunks_of_mem_arrange hchunkIds hchunk))
  refine ⟨⟨_, listed_arrange hnodup, hdescribes⟩, fun position item hitem ↦ ?_, ?_, ?_, ?_, ?_⟩
  · rw [merge_eq hchunkIds, getElem_numbered] at hitem
    obtain ⟨entry, -, rfl⟩ := Option.map_eq_some_iff.mp hitem
    rw [candidateOf_rank, Nat.cast_add, Nat.cast_one, add_comm]
  · rw [merge_eq hchunkIds, map_nativeId_numbered]
    exact nodup_entryIds hread hchunkIds hapart
  · intro item hitem
    obtain ⟨entry, -, hentry⟩ := exists_left hdescribes hitem
    cases entry with
    | inl result => exact FromResult.identity hentry
    | inr member => exact FromChunk.identity hentry
  · intro result hresult documentId hdocument
    obtain ⟨fact, -, hfact⟩ := exists_left (List.Forall₂.flip hread.facts) hresult
    obtain ⟨other, hholds, hsource⟩ := hfact.source
    rw [← asText_of_holds hholds, hdocument] at hsource
    cases hunit : fact.sourceUnitId with
    | none =>
      rw [hunit] at hsource
      cases hsource
    | some source =>
      rw [hunit] at hsource
      exact ⟨source, Option.some.inj hsource⟩
  · intro member hmember first hfirst second hsecond hnames hothers source other hsource hother
    have hmem : member.1 ∈ members.map Prod.fst := List.mem_map_of_mem hmember
    have hlookup := (hsources member.1 source).mpr ⟨hmem, first, hfirst, hnames, hsource⟩
    rw [(hsources member.1 other).mpr ⟨hmem, second, hsecond, hothers, hother⟩] at hlookup
    exact (Option.some.inj hlookup).symm

/-- A response that is accepted is listed as a whole: its results in their order, each chunk behind
the first result that names it or behind all of them, numbered from one on, and each item as its
entry of the response says. -/
theorem normalizeRecall_sound (doubleText : DoubleText) (rawBytes : Bytes)
    (documents : Dictionary String String) {items : List NativeEvidenceCandidate}
    (hnormalize : normalizeRecall doubleText rawBytes documents = .ok items) :
    ∃ document results members, readResponse rawBytes = .ok document ∧
      document.get "results" = .array results ∧ chunksField document = .object members ∧
        Normalized documents results members items := by
  unfold normalizeRecall at hnormalize
  obtain ⟨document, hdocument, hnormalize⟩ := bind_eq_ok.mp hnormalize
  obtain ⟨_, -, hnormalize⟩ := bind_eq_ok.mp hnormalize
  obtain ⟨chunks, hchunks, hnormalize⟩ := bind_eq_ok.mp hnormalize
  obtain ⟨results, hresults, hnormalize⟩ := bind_eq_ok.mp hnormalize
  obtain ⟨reading, hreading, hnormalize⟩ := bind_eq_ok.mp hnormalize
  obtain ⟨_, hapart, hnormalize⟩ := bind_eq_ok.mp hnormalize
  cases hnormalize
  obtain ⟨members, hmembers, hfromMembers⟩ := chunks_eq_ok hchunks
  have hshown : document.get "results" = .array results := by
    unfold resultsOf at hresults
    split at hresults
    · next hget =>
      cases hresults
      exact hget
    · cases hresults
  refine ⟨document, results, members, hdocument, hshown, hmembers, ?_⟩
  refine normalized (nodup_chunksField (readResponse_eq_ok hdocument) hmembers) hfromMembers
    (readFrom_of_foldlM hreading) fun chunk hchunk hseen ↦ ?_
  have hnone := require_eq_ok.mp hapart
  rw [Bool.not_eq_true', List.any_eq_false] at hnone
  exact hnone chunk hchunk (decide_eq_true hseen)

/-! ### A chunk that is not returned -/

/-- A response that is written is read as it is. -/
theorem readResponse_write {ascii : Bool} {document : Json} (hwhole : isWhole document = true)
    (hfault : fault document = none) (hobject : document.isObject = true)
    (hclosed : isClosed document recallFields requiredRecallFields = true) :
    readResponse (utf8 (write ascii document)) = .ok document := by
  have hnames : document.hasNames document.names = true := by
    rw [hasNames, hobject, Bool.true_and, Bool.and_self]
    exact List.all_eq_true.mpr fun name hname ↦ decide_eq_true hname
  have hloads : (readUtf8 (utf8 (write ascii document))).bind loads = some document := by
    rw [readUtf8_utf8, Option.bind_some, loads_write ascii hwhole]
  unfold readResponse
  rw [hloads]
  refine bind_eq_ok.mpr ⟨(), require_eq_ok.mpr hobject, bind_eq_ok.mpr
    ⟨(), require_eq_ok.mpr hclosed, ?_⟩⟩
  unfold parseExactJsonObject
  simp only [hloads, hfault, hobject, hnames, Bool.true_eq_false, if_false, if_true]

def sampleResult (memoryId chunkId : String) : Json :=
  .object [("id", .string memoryId), ("text", .string "tea"), ("type", .string "world"),
    ("document_id", .string "d1"), ("chunk_id", .string chunkId)]

def sampleMember (chunkId text : String) : String × Json :=
  (chunkId, .object [("id", .string chunkId), ("text", .string text), ("chunk_index", .integer 0),
    ("truncated", .bool false)])

/-- Two facts of one chunk, a fact of a chunk that is not returned, and a chunk of no fact. -/
def sampleResponse : Json :=
  .object
    [("results", .array [sampleResult "m1" "c2", sampleResult "m2" "c2", sampleResult "m3" "c9"]),
      ("trace", .null), ("chunks", .object [sampleMember "c1" "cup", sampleMember "c2" "pot"])]

def sampleBytes : Bytes := utf8 (write false sampleResponse)

def sampleDocuments : Dictionary String String := Dictionary.ofList [("d1", "unit-1")]

theorem readResponse_sample : readResponse sampleBytes = .ok sampleResponse :=
  readResponse_write (by decide +kernel) (by decide +kernel) rfl (by decide +kernel)

def sampleFact (rank : ℤ) (memoryId chunkId : String) : NativeEvidenceCandidate where
  nativeId := memoryId
  nativeRank1Indexed := rank
  content := "tea"
  nativeScore := none
  providerEvidenceIdentity := some memoryId
  sourceUnitId := some "unit-1"
  evidenceKind := "world"
  nativeReference := some chunkId

def sampleChunk (rank : ℤ) (chunkId text : String) (source : Option String) :
    NativeEvidenceCandidate where
  nativeId := chunkIdentity chunkId
  nativeRank1Indexed := rank
  content := text
  nativeScore := none
  providerEvidenceIdentity := some (chunkIdentity chunkId)
  sourceUnitId := source
  evidenceKind := "source_chunk"
  nativeReference := some chunkId

def sampleItems : List NativeEvidenceCandidate :=
  [sampleFact 1 "m1" "c2", sampleChunk 2 "c2" "pot" (some "unit-1"), sampleFact 3 "m2" "c2",
    sampleFact 4 "m3" "c9", sampleChunk 5 "c1" "cup" none]

theorem normalizeRecall_sample (doubleText : DoubleText) :
    normalizeRecall doubleText sampleBytes sampleDocuments = .ok sampleItems := by
  unfold normalizeRecall
  rw [readResponse_sample]
  rfl

theorem sample_normalized : ∃ document results members,
    readResponse sampleBytes = .ok document ∧ document.get "results" = .array results ∧
      chunksField document = .object members ∧
        Normalized sampleDocuments results members sampleItems :=
  normalizeRecall_sound id sampleBytes sampleDocuments (normalizeRecall_sample id)

/-- A response is accepted although a fact names a chunk that is not returned. -/
theorem accepts_missing_chunk :
    ¬∀ (doubleText : DoubleText) (rawBytes : Bytes) (documents : Dictionary String String)
        (items : List NativeEvidenceCandidate),
      normalizeRecall doubleText rawBytes documents = .ok items →
        ∀ document results members, readResponse rawBytes = .ok document →
          document.get "results" = .array results → chunksField document = .object members →
            ∀ result ∈ results, ∀ chunkId, chunkIdOf result = some chunkId →
              chunkId ∈ members.map Prod.fst := by
  intro hreturned
  have hchunk := hreturned id sampleBytes sampleDocuments sampleItems (normalizeRecall_sample id)
    sampleResponse _ _ readResponse_sample rfl rfl (sampleResult "m3" "c9") (by simp) "c9" rfl
  exact absurd hchunk (by decide)

end Oamb.MemorySystems.RecallGuarantees
